import LocalAgent.Runtime.SchedulerRuns

/-!
# LocalAgent.Runtime.SchedulerProgress — propagation and deadlock reports

`_propagate_blocked` computes a least fixed point: it blocks exactly the pending steps that are
`Doomed`, that is, from which a chain of pending dependencies leads to an unsuccessful step
(`propagateBlocked_spec`).  After it, a pending step of an acyclic plan is ready or behind an active
step, so `has_unresolved_pending` is a false alarm whenever it is raised
(`no_false_deadlock_iff` says exactly when it is not).
-/

namespace LocalAgent.Runtime

namespace SerialScheduler

open AgentStateMachine

/-! ## Propagation -/

/-- The step is pending and a dependency of it is unsuccessful. -/
def Exposed (graph : PlanGraph) (s : AgentState) (id : String) : Prop :=
  s.statusOf id = some .pending ∧
    ∃ d ∈ graph.dependenciesOf id, ∃ status, s.statusOf d = some status ∧ status.isBlocking = true

/-- A chain of pending dependencies leads from the step to an unsuccessful one. -/
inductive Doomed (graph : PlanGraph) (s : AgentState) : String → Prop where
  | exposed {id : String} (h : Exposed graph s id) : Doomed graph s id
  | behind {id d : String} (pending : s.statusOf id = some .pending)
      (dep : d ∈ graph.dependenciesOf id) (h : Doomed graph s d) : Doomed graph s id

variable {s s₀ : AgentState} {graph : PlanGraph} {id : String}

theorem Doomed.pending (h : Doomed graph s id) : s.statusOf id = some .pending := by
  cases h with
  | exposed h => exact h.1
  | behind hp => exact hp

/-- The step goes to BLOCKED, everything else keeps its status. -/
def Blocks (s s' : AgentState) (id : String) : Prop :=
  ∀ id', s'.statusOf id' = if id' = id then some .blocked else s.statusOf id'

/-- The three ways through the body of the loop. -/
theorem propagateStep_cases (graph : PlanGraph) (occurredAt : DateTime) (id : String) (w : World) :
    (∃ e, propagateStep graph occurredAt id w = .error e w) ∨
    (propagateStep graph occurredAt id w = .ok false w ∧ ¬ Exposed graph w.state id) ∨
    (∃ w', propagateStep graph occurredAt id w = .ok true w' ∧ Exposed graph w.state id ∧
      Blocks w.state w'.state id) := by
  unfold propagateStep
  rw [Op.get_bind_apply]
  cases hat : stepAt w.state id with
  | error e => exact Or.inl ⟨e, rfl⟩
  | ok current =>
    have hst := statusOf_of_stepAt hat
    simp only [Op.lift_ok, Op.pure_bind_apply]
    by_cases hp : current.status = .pending
    · rw [if_neg (not_not.mpr hp)]
      have hpend : w.state.statusOf id = some .pending := hst.trans (congrArg some hp)
      cases hany : anyStatus w.state StepStatus.isBlocking (graph.dependenciesOf id) with
      | error e => exact Or.inl ⟨e, rfl⟩
      | ok blocking =>
        obtain ⟨htrue, hfalse⟩ := anyStatus_ok hany
        cases blocking with
        | false =>
          refine Or.inr (Or.inl ⟨rfl, ?_⟩)
          rintro ⟨-, d, hd, _, hds, hblock⟩
          obtain ⟨_, hds', hnot⟩ := hfalse rfl d hd
          rw [hds] at hds'
          cases hds'
          rw [hblock] at hnot
          cases hnot
        | true =>
          simp only [Op.lift_ok, Op.pure_bind_apply, if_true]
          rcases emit_cases (blockedEvent id (effectiveTime occurredAt w.state)) w with
            ⟨e, h⟩ | ⟨event, step, target, hd, -, ht, -, h⟩
          · refine Or.inl ⟨e, Op.bind_error_iff.mpr (Or.inl h)⟩
          · refine Or.inr (Or.inr ⟨_, Op.bind_ok_iff.mpr ⟨_, _, h, rfl⟩, ⟨hpend, htrue rfl⟩, ?_⟩)
            have htarget : target = .blocked := by
              revert ht
              cases step.status <;> simp [stepTransitions, blockedEvent, eq_comm]
            have hid : event.stepId = id := by rw [hd]; rfl
            intro id'
            show (stepApplied w.state event step target).statusOf id' = _
            rw [statusOf_stepApplied, hid, htarget]
    · rw [if_pos hp]
      refine Or.inr (Or.inl ⟨rfl, ?_⟩)
      rintro ⟨hpend, -⟩
      rw [hst] at hpend
      exact hp (Option.some.inj hpend)

/-- Relative to the state `s₀` where propagation began, only doomed steps have changed, to
BLOCKED. -/
def OnlyDoomed (graph : PlanGraph) (s₀ s : AgentState) : Prop :=
  ∀ id, s.statusOf id = s₀.statusOf id ∨
    (Doomed graph s₀ id ∧ s.statusOf id = some .blocked)

theorem OnlyDoomed.exposed {graph : PlanGraph} {s₀ s : AgentState} (h : OnlyDoomed graph s₀ s)
    {id : String} (he : Exposed graph s id) : Doomed graph s₀ id := by
  obtain ⟨hp, d, hd, status, hds, hblock⟩ := he
  have hp₀ : s₀.statusOf id = some .pending := by
    rcases h id with heq | ⟨-, hb⟩
    · exact heq ▸ hp
    · rw [hp] at hb; cases hb
  rcases h d with heq | ⟨hdoom, -⟩
  · exact .exposed ⟨hp₀, d, hd, status, heq ▸ hds, hblock⟩
  · exact .behind hp₀ hd hdoom

variable {s' : AgentState} {order : List String} {snap : SchedulerSnapshot}

theorem OnlyDoomed.blocks (h : OnlyDoomed graph s₀ s)
    (he : Exposed graph s id) (hb : Blocks s s' id) : OnlyDoomed graph s₀ s' := by
  intro id'
  rw [hb id']
  split_ifs with heq
  · subst heq
    exact Or.inr ⟨h.exposed he, rfl⟩
  · exact h id'

def pendingCount (order : List String) (s : AgentState) : ℕ :=
  (order.filter fun id => s.statusOf id = some .pending).length

/-- A blocked step is one fewer to propagate to. -/
theorem pendingCount_blocks
    (hid : id ∈ order) (hp : s.statusOf id = some .pending) (hb : Blocks s s' id) :
    pendingCount order s' < pendingCount order s := by
  have hfilter : (order.filter fun i => s'.statusOf i = some .pending) =
      (order.filter fun i => s.statusOf i = some .pending).filter fun i => i ≠ id := by
    rw [List.filter_filter]
    refine List.filter_congr fun i _ => ?_
    rw [hb i]
    by_cases heq : i = id <;> simp [heq]
  unfold pendingCount
  rw [hfilter]
  refine List.length_filter_lt_length_iff_exists.mpr ⟨id, ?_, by simp⟩
  exact List.mem_filter.mpr ⟨hid, by simpa using hp⟩

variable {w w' : World} {occurredAt : DateTime} {plan : Plan}

/-- One pass blocks doomed steps only and counts down. -/
theorem propagatePass_ok
    {ids : List String} {changed : Bool} (hsub : ids ⊆ order) (honly : OnlyDoomed graph s₀ w.state)
    (h : propagatePass graph occurredAt ids w = .ok changed w') :
    OnlyDoomed graph s₀ w'.state ∧ pendingCount order w'.state ≤ pendingCount order w.state ∧
      (changed = true → pendingCount order w'.state < pendingCount order w.state) ∧
      (changed = false → w' = w ∧ ∀ id ∈ ids, ¬ Exposed graph w.state id) := by
  induction ids generalizing changed w with
  | nil =>
    cases h
    exact ⟨honly, le_rfl, by simp, by simp⟩
  | cons id ids ih =>
    obtain ⟨_, t, hstep, h⟩ := Op.bind_ok_iff.mp h
    obtain ⟨_, _, hrest, h⟩ := Op.bind_ok_iff.mp h
    cases h
    have htail : ids ⊆ order := fun x hx => hsub (List.mem_cons_of_mem _ hx)
    rcases propagateStep_cases graph occurredAt id w with ⟨e, h⟩ | ⟨h, hnot⟩ | ⟨u, h, he, hb⟩
    · rw [h] at hstep; cases hstep
    · rw [h] at hstep
      cases hstep
      obtain ⟨h1, h2, h3, h4⟩ := ih htail honly hrest
      refine ⟨h1, h2, fun hc => h3 (by simpa using hc), fun hc => ?_⟩
      obtain ⟨rfl, hall⟩ := h4 (by simpa using hc)
      exact ⟨rfl, List.forall_mem_cons.mpr ⟨hnot, hall⟩⟩
    · rw [h] at hstep
      cases hstep
      obtain ⟨h1, h2, -, -⟩ := ih htail (honly.blocks he hb) hrest
      have hlt := pendingCount_blocks (hsub List.mem_cons_self) he.1 hb
      exact ⟨h1, by omega, fun _ => by omega, by simp⟩

/-- The passes end with no step left exposed. -/
theorem propagateLoop_ok {fuel : ℕ} (honly : OnlyDoomed graph s₀ w.state)
    (hfuel : pendingCount graph.topologicalOrder w.state < fuel)
    (h : propagateLoop graph occurredAt fuel w = .ok () w') : OnlyDoomed graph s₀ w'.state ∧
      ∀ id ∈ graph.topologicalOrder, ¬ Exposed graph w'.state id := by
  induction fuel generalizing w with
  | zero => omega
  | succ _ ih =>
    obtain ⟨changed, t, hpass, hend⟩ := Op.bind_ok_iff.mp h
    obtain ⟨h1, -, h3, h4⟩ := propagatePass_ok (List.Subset.refl _) honly hpass
    cases changed with
    | true =>
      have hlt := h3 rfl
      exact ih h1 (by omega) hend
    | false =>
      obtain ⟨rfl, hall⟩ := h4 rfl
      cases hend
      exact ⟨honly, hall⟩

/-- **Propagation blocks exactly the doomed steps.** -/
theorem propagateBlocked_spec (hplan : PlanGraphValidator.validate plan = .ok graph)
    (hrun : w.state.status = .running) (h : propagateBlocked graph occurredAt w = .ok () w') :
    (∀ id ∈ graph.topologicalOrder, Doomed graph w.state id →
      w'.state.statusOf id = some .blocked) ∧
    (∀ id, ¬ Doomed graph w.state id → w'.state.statusOf id = w.state.statusOf id) ∧
    ∀ id ∈ graph.topologicalOrder, ¬ Exposed graph w'.state id := by
  unfold propagateBlocked at h
  rw [Op.get_bind_apply, if_neg (not_not.mpr hrun)] at h
  have hfuel : pendingCount graph.topologicalOrder w.state < graph.topologicalOrder.length + 1 :=
    Nat.lt_succ_of_le (List.length_filter_le _ _)
  obtain ⟨honly, hfix⟩ := propagateLoop_ok (fun _ => Or.inl rfl) hfuel h
  have hspec := PlanGraphValidator.validate_spec hplan
  refine ⟨fun id hid hdoom => ?_, fun id hnot => ?_, hfix⟩
  · -- a doomed step that kept its status would be exposed at the fixed point
    have hkeep : ∀ {i : String}, i ∈ graph.topologicalOrder → Doomed graph w.state i →
        (∃ d ∈ graph.dependenciesOf i, ∃ status, w'.state.statusOf d = some status ∧
          status.isBlocking = true) → w'.state.statusOf i = some .blocked := by
      intro i hi hd hdep
      rcases honly i with heq | ⟨-, hb⟩
      · exact absurd ⟨heq.trans hd.pending, hdep⟩ (hfix i hi)
      · exact hb
    induction hdoom with
    | @exposed id he =>
      obtain ⟨hp, d, hd, status, hds, hblock⟩ := he
      refine hkeep hid (.exposed ⟨hp, d, hd, status, hds, hblock⟩) ⟨d, hd, status, ?_, hblock⟩
      rcases honly d with heq | ⟨hdd, -⟩
      · exact heq.trans hds
      · rw [hdd.pending] at hds
        cases hds
        cases hblock
    | @behind id d hp hd hdoom ih =>
      have hdin : d ∈ graph.topologicalOrder :=
        hspec.perm.mem_iff.mpr (hspec.deps_mem id (hspec.perm.mem_iff.mp hid) d hd)
      exact hkeep hid (.behind hp hd hdoom) ⟨d, hd, .blocked, ih hdin, rfl⟩
  · rcases honly id with heq | ⟨hd, -⟩
    · exact heq
    · exact absurd hd hnot

/-! ## Deadlock reports -/

inductive SnapshotCall where
  | prepare (occurredAt : DateTime) (maxParallelism : ℤ) (clock : StepClock)
  | evaluate (maxParallelism : ℤ) (now : DateTime)

def SnapshotCall.op (plan : Plan) : SnapshotCall → SchedulerOp SchedulerSnapshot
  | .prepare occurredAt k clock => SerialScheduler.prepare plan occurredAt k clock
  | .evaluate k now => SerialScheduler.evaluate plan k now

/-- The run can still make progress: a step is ready or a plan step is active. -/
def CanProgress (plan : Plan) (snap : SchedulerSnapshot) (s : AgentState) : Prop :=
  snap.readyStepIds ≠ [] ∨ ∃ id ∈ planIds plan, activeAt s id = true

/-- While a step is pending the run can make progress, and no deadlock is reported while it can. -/
def NoFalseDeadlock (plan : Plan) (snap : SchedulerSnapshot) (s : AgentState) : Prop :=
  (snap.pendingStepIds ≠ [] → CanProgress plan snap s) ∧
    (snap.hasUnresolvedPending = true → ¬ CanProgress plan snap s)

/-- A plan step runs, or one is ready, or every pending one is doomed. -/
def Unparked (plan : Plan) (graph : PlanGraph) (s : AgentState) : Prop :=
  (∃ id ∈ planIds plan, s.statusOf id = some .running) ∨
    (∃ id ∈ planIds plan, ReadyAt graph s id) ∨
    ∀ id ∈ planIds plan, s.statusOf id = some .pending → Doomed graph s id

/-- The snapshot lists the steps that are ready, running and left, in the plan's order. -/
theorem buildSnapshot_ok {k : ℤ} (hv : s.Valid) (hrun : s.status = .running)
    (h : buildSnapshot plan graph s k = .ok snap) :
    snap.readyStepIds = (graph.topologicalOrder.filter fun id => ReadyAt graph s id) ∧
    snap.runningStepIds =
      (graph.topologicalOrder.filter fun id => (s.statusOf id).any (· = .running)) ∧
    snap.pendingStepIds =
      (graph.topologicalOrder.filter fun id => (s.statusOf id).any (· = .pending)) ∧
    snap.hasUnresolvedPending = (!snap.pendingStepIds.isEmpty && snap.runningStepIds.isEmpty &&
      snap.readyStepIds.isEmpty) := by
  unfold buildSnapshot at h
  obtain ⟨_, hready, h⟩ := bind_eq_ok.mp h
  obtain ⟨_, -, h⟩ := bind_eq_ok.mp h
  obtain ⟨_, hrunning, h⟩ := bind_eq_ok.mp h
  obtain ⟨_, hpending, h⟩ := bind_eq_ok.mp h
  obtain ⟨_, -, h⟩ := bind_eq_ok.mp h
  obtain ⟨_, -, h⟩ := bind_eq_ok.mp h
  obtain ⟨_, -, h⟩ := bind_eq_ok.mp h
  cases h
  exact ⟨computeReadySteps_ok hv hrun hready, withStatus_ok hrunning, withStatus_ok hpending, rfl⟩

theorem snapshotCall_ok (hplan : PlanGraphValidator.validate plan = .ok graph) {call : SnapshotCall}
(hreg : ∀ id ∈ planIds plan, id ∈ w.state.steps.keys) (h : call.op plan w = .ok snap w') :
    ∃ (t : World) (occurredAt : DateTime) (k : ℤ), t.state = w.state ∧ w.state.Valid ∧
      propagateBlocked graph occurredAt t = .ok () w' ∧
      buildSnapshot plan graph w'.state k = .ok snap := by
  cases call with
  | prepare _ k =>
    obtain ⟨_, -, h⟩ := Op.lift_bind_ok_iff.mp h
    obtain ⟨_, -, h⟩ := Op.lift_bind_ok_iff.mp h
    obtain ⟨graph', t, hprep, h⟩ := Op.bind_ok_iff.mp h
    obtain ⟨hgraph, hvalid, -, hsame⟩ := prepareLocked_ok hprep
    cases hgraph.symm.trans hplan
    rw [Op.get_bind_apply] at h
    obtain ⟨_, t', hprop, h⟩ := Op.bind_ok_iff.mp h
    rw [Op.get_bind_apply] at h
    obtain ⟨hsnap, rfl⟩ := Op.lift_ok_iff.mp h
    exact ⟨t, _, k, hsame fun step hs => hreg _ (List.mem_map_of_mem hs), hvalid, hprop, hsnap⟩
  | evaluate k =>
    obtain ⟨_, -, h⟩ := Op.lift_bind_ok_iff.mp h
    obtain ⟨_, hgraph, h⟩ := Op.lift_bind_ok_iff.mp h
    cases (mapError_ok.mp hgraph).symm.trans hplan
    rw [Op.get_bind_apply] at h
    obtain ⟨_, halign, h⟩ := Op.lift_bind_ok_iff.mp h
    obtain ⟨_, _, hprop, h⟩ := Op.bind_ok_iff.mp h
    rw [Op.get_bind_apply] at h
    obtain ⟨hsnap, rfl⟩ := Op.lift_ok_iff.mp h
    have hvalid : w.state.Valid := by
      obtain ⟨_, hval, -⟩ := bind_eq_ok.mp halign
      exact AgentState.validate_eq_ok_iff.mp (mapError_ok.mp hval)
    exact ⟨w, _, k, rfl, hvalid, hprop, hsnap⟩

theorem any_eq_iff {status : StepStatus} :
    (s.statusOf id).any (· = status) = true ↔ s.statusOf id = some status := by
  cases s.statusOf id with
  | none => simp
  | some => simp

/-- At a fixed point of propagation, a pending step of an acyclic plan is ready or some plan step is
active. -/
theorem progress_of_pending (hplan : PlanGraphValidator.validate plan = .ok graph)
    (hreg : ∀ id ∈ planIds plan, s.statusOf id ≠ none)
    (hfix : ∀ id ∈ graph.topologicalOrder, ¬ Exposed graph s id)
    (hid : id ∈ graph.topologicalOrder) (hp : s.statusOf id = some .pending) :
    (∃ id ∈ graph.topologicalOrder, ReadyAt graph s id) ∨
      ∃ id ∈ planIds plan, activeAt s id = true := by
  have hspec := PlanGraphValidator.validate_spec hplan
  have hids : ∀ i, i ∈ graph.topologicalOrder ↔ i ∈ planIds plan := by
    intro i
    rw [hspec.perm.mem_iff, hspec.stepIds]
    rfl
  by_contra hno
  push Not at hno
  obtain ⟨hnoready, hnoactive⟩ := hno
  -- along the order nothing is pending: a pending step behind settled ones would be ready
  have hnone : ∀ i ∈ graph.topologicalOrder, s.statusOf i ≠ some .pending := by
    refine hspec.order.induction fun i hi hdeps hpi => hnoready i hi ⟨hpi, fun d hd => ?_⟩
    have hdin : d ∈ graph.stepIds := hspec.deps_mem i (hspec.perm.mem_iff.mp hi) d hd
    have hdplan : d ∈ planIds plan := (hids d).mp (hspec.perm.mem_iff.mpr hdin)
    cases hds : s.statusOf d with
    | none => exact absurd hds (hreg d hdplan)
    | some status =>
      have hnotblock : status.isBlocking = false := by
        by_contra hb
        exact hfix i hi ⟨hpi, d, hd, status, hds, by simpa using hb⟩
      have hnotpend := hdeps d hd
      have hnotact := hnoactive d hdplan
      unfold activeAt at hnotact
      rw [hds] at hnotpend hnotact
      revert hnotblock hnotpend hnotact
      cases status <;> simp [StepStatus.isBlocking]
  exact hnone id hid hp

/-- **When a deadlock report is right.**  For every accepted plan and every running state that holds
its steps, a snapshot of `prepare` or `evaluate` reports no false deadlock exactly when a plan step
is running, or one is ready, or every pending one is doomed.  The remaining states are those where
everything waits behind a step parked on approval. -/
theorem no_false_deadlock_iff {plan : Plan} {graph : PlanGraph}
    (hplan : PlanGraphValidator.validate plan = .ok graph) {call : SnapshotCall} {w w' : World}
    {snap : SchedulerSnapshot} (hrun : w.state.status = .running)
    (hreg : ∀ id ∈ planIds plan, id ∈ w.state.steps.keys) (h : call.op plan w = .ok snap w') :
    NoFalseDeadlock plan snap w'.state ↔ Unparked plan graph w.state := by
  have hspec := PlanGraphValidator.validate_spec hplan
  have hids : ∀ i, i ∈ graph.topologicalOrder ↔ i ∈ planIds plan := by
    intro i
    rw [hspec.perm.mem_iff, hspec.stepIds]
    rfl
  obtain ⟨t, occurredAt, k, hstate, hvalid, hprop, hsnap⟩ := snapshotCall_ok hplan hreg h
  have hquiet : Quiet w.state w'.state := by
    have hq := (quiet_propagateBlocked graph occurredAt).rel t
    rw [Op.after_ok hprop] at hq
    exact hstate ▸ hq
  obtain ⟨hdoomed, hkept, hfix⟩ := propagateBlocked_spec hplan (hstate ▸ hrun) hprop
  rw [hstate] at hdoomed hkept
  obtain ⟨hready, hrunning, hpending, hunresolved⟩ :=
    buildSnapshot_ok (hquiet.valid hvalid) (hquiet.run.trans hrun) hsnap
  have hsettled : ∀ {i status}, w.state.statusOf i = some status → status ≠ .pending →
      w'.state.statusOf i = some status := by
    intro i _ hst hne
    rw [hkept i fun hd => ?_]
    · exact hst
    · rw [hd.pending] at hst
      exact hne (Option.some.inj hst).symm
  have hreg' : ∀ i ∈ planIds plan, w'.state.statusOf i ≠ none := by
    intro i hi hnone
    rcases hquiet.step i with heq | ⟨-, hp | hp⟩
    · rw [heq, statusOf_eq_none_iff] at hnone
      exact hnone (hreg i hi)
    all_goals rw [hnone] at hp; cases hp
  -- the parts of the snapshot, in terms of the state before the call
  have hpendingIff : ∀ i ∈ planIds plan, w'.state.statusOf i = some .pending ↔
      w.state.statusOf i = some .pending ∧ ¬ Doomed graph w.state i := by
    intro i hi
    constructor
    · intro hp
      have hnd : ¬ Doomed graph w.state i := by
        intro hd
        rw [hdoomed i ((hids i).mpr hi) hd] at hp
        cases hp
      exact ⟨hkept i hnd ▸ hp, hnd⟩
    · rintro ⟨hp, hnd⟩
      exact (hkept i hnd).trans hp
  have hreadyIff : ∀ i ∈ planIds plan, ReadyAt graph w'.state i ↔ ReadyAt graph w.state i := by
    intro i hi
    constructor
    · rintro ⟨hp, hdeps⟩
      exact ⟨((hpendingIff i hi).mp hp).1, fun d hd => hquiet.succeeded (hdeps d hd)⟩
    · rintro ⟨hp, hdeps⟩
      have hnd : ¬ Doomed graph w.state i := by
        intro hd
        cases hd with
        | exposed he =>
          obtain ⟨-, d, hd, _, hds, hb⟩ := he
          rw [hdeps d hd] at hds
          cases hds
          cases hb
        | behind _ hd hdd =>
          have := hdd.pending
          rw [hdeps _ hd] at this
          cases this
      exact ⟨(hpendingIff i hi).mpr ⟨hp, hnd⟩,
        fun d hd => hsettled (hdeps d hd) (by decide)⟩
  have hreadyNil : snap.readyStepIds = [] ↔ ∀ i ∈ planIds plan, ¬ ReadyAt graph w.state i := by
    rw [hready, List.filter_eq_nil_iff]
    constructor
    · intro hall i hi hr
      exact hall i ((hids i).mpr hi) (by simpa using (hreadyIff i hi).mpr hr)
    · intro hall i hi hr
      exact hall i ((hids i).mp hi) ((hreadyIff i ((hids i).mp hi)).mp (by simpa using hr))
  have hrunningNil : snap.runningStepIds = [] ↔
      ∀ i ∈ planIds plan, w.state.statusOf i ≠ some .running := by
    rw [hrunning, List.filter_eq_nil_iff]
    constructor
    · intro hall i hi hr
      exact hall i ((hids i).mpr hi) (any_eq_iff.mpr ((hquiet.running_iff i).mpr hr))
    · intro hall i hi hr
      exact hall i ((hids i).mp hi) ((hquiet.running_iff i).mp (any_eq_iff.mp hr))
  have hpendingNil : snap.pendingStepIds = [] ↔
      ∀ i ∈ planIds plan, w.state.statusOf i = some .pending → Doomed graph w.state i := by
    rw [hpending, List.filter_eq_nil_iff]
    constructor
    · intro hall i hi hp
      by_contra hnd
      exact hall i ((hids i).mpr hi) (any_eq_iff.mpr ((hpendingIff i hi).mpr ⟨hp, hnd⟩))
    · intro hall i hi hp
      obtain ⟨hp', hnd⟩ := (hpendingIff i ((hids i).mp hi)).mp (any_eq_iff.mp hp)
      exact hnd (hall i ((hids i).mp hi) hp')
  -- the first half of the claim always holds
  have hfirst : snap.pendingStepIds ≠ [] → CanProgress plan snap w'.state := by
    intro hne
    obtain ⟨i, hi⟩ := List.exists_mem_of_ne_nil _ hne
    rw [hpending] at hi
    obtain ⟨hiorder, hip⟩ := List.mem_filter.mp hi
    rcases progress_of_pending hplan hreg' hfix hiorder (any_eq_iff.mp hip) with
      ⟨j, hj, hr⟩ | hact
    · refine Or.inl (List.ne_nil_of_mem (a := j) ?_)
      rw [hready]
      exact List.mem_filter.mpr ⟨hj, by simpa using hr⟩
    · exact Or.inr hact
  have hflag : snap.hasUnresolvedPending = true ↔
      snap.pendingStepIds ≠ [] ∧ snap.runningStepIds = [] ∧ snap.readyStepIds = [] := by
    rw [hunresolved]
    simp [and_assoc]
  constructor
  · rintro ⟨-, hsecond⟩
    by_contra hparked
    unfold Unparked at hparked
    push Not at hparked
    obtain ⟨h1, h2, i, hi, hp, hnd⟩ := hparked
    have hpne : snap.pendingStepIds ≠ [] := fun hnil => hnd (hpendingNil.mp hnil i hi hp)
    exact hsecond (hflag.mpr ⟨hpne, hrunningNil.mpr h1, hreadyNil.mpr h2⟩) (hfirst hpne)
  · intro hunparked
    refine ⟨hfirst, fun hreport => ?_⟩
    obtain ⟨hpne, hrnil, hrdnil⟩ := hflag.mp hreport
    rcases hunparked with ⟨i, hi, hr⟩ | ⟨i, hi, hr⟩ | hall
    · exact absurd hr (hrunningNil.mp hrnil i hi)
    · exact absurd hr (hreadyNil.mp hrdnil i hi)
    · exact absurd (hpendingNil.mpr hall) hpne

/-- `b` waits for `a`. -/
def chainPlan : Plan := samplePlan [sampleStep "a" [], sampleStep "b" ["a"]]

/-- `a` has been claimed and is running. -/
def claimedWorld : World :=
  runFrom chainPlan sampleWorld [.claimReady 1 (.epochSecond 2) (sampleEnv (.epochSecond 2))]

/-- `a` has been claimed and waits for approval. -/
def parkedWorld : World :=
  runFrom chainPlan claimedWorld [parked]

theorem chain_registered : (claimedWorld.state.status = .running ∧
      ∀ id ∈ planIds chainPlan, id ∈ claimedWorld.state.steps.keys) ∧
    claimedWorld.state.statusOf "a" = some .running ∧
    parkedWorld.state.status = .running ∧
      ∀ id ∈ planIds chainPlan, id ∈ parkedWorld.state.steps.keys := by
  decide +kernel

theorem no_false_deadlock_claimed :
    ∃ graph snap w', PlanGraphValidator.validate chainPlan = .ok graph ∧
      (SnapshotCall.evaluate 1 (.epochSecond 4)).op chainPlan claimedWorld = .ok snap w' ∧
      NoFalseDeadlock chainPlan snap w'.state := by
  have hplan : ∃ graph, PlanGraphValidator.validate chainPlan = .ok graph := ⟨_, rfl⟩
  obtain ⟨graph, hplan⟩ := hplan
  have hsome : (Op.value? ((SnapshotCall.evaluate 1 (.epochSecond 4)).op chainPlan)
      claimedWorld).isSome = true := by decide +kernel
  obtain ⟨snap, hsnap⟩ := Option.isSome_iff_exists.mp hsome
  obtain ⟨w', h⟩ := Op.value?_some hsnap
  obtain ⟨⟨hrun, hreg⟩, ha, -⟩ := chain_registered
  exact ⟨graph, snap, w', hplan, h,
    (no_false_deadlock_iff hplan hrun hreg h).mpr (Or.inl ⟨"a", by decide, ha⟩)⟩

/-- While `a` waits for approval, `evaluate` reports a deadlock although `a` is active. -/
theorem parked_reports_deadlock : parkedWorld.state.status = .running ∧
    (∀ id ∈ planIds chainPlan, id ∈ parkedWorld.state.steps.keys) ∧
    ∃ snap w', (SnapshotCall.evaluate 1 (.epochSecond 4)).op chainPlan parkedWorld = .ok snap w' ∧
      ¬ NoFalseDeadlock chainPlan snap w'.state := by
  obtain ⟨-, -, hrun, hreg⟩ := chain_registered
  have hreport : (Op.value? ((SnapshotCall.evaluate 1 (.epochSecond 4)).op chainPlan)
        parkedWorld).map SchedulerSnapshot.hasUnresolvedPending = some true ∧
      activeAt (Op.after ((SnapshotCall.evaluate 1 (.epochSecond 4)).op chainPlan)
        parkedWorld).state "a" = true := by decide +kernel
  obtain ⟨snap, hsnap, hflag⟩ := Option.map_eq_some_iff.mp hreport.1
  obtain ⟨w', h⟩ := Op.value?_some hsnap
  have hactive := hreport.2
  rw [Op.after_ok h] at hactive
  exact ⟨hrun, hreg, snap, w', h, fun hno => hno.2 hflag (Or.inr ⟨"a", by decide, hactive⟩)⟩

end SerialScheduler

end LocalAgent.Runtime
