import LocalAgent.Runtime.PlanOrder
import LocalAgent.Runtime.Scheduler
import LocalAgent.Runtime.StateRuns

/-!
# LocalAgent.Runtime.SchedulerSteps — what a scheduler call does to the step statuses

The status table `statusOf` is all the scheduler's guarantees are about.  A call has two phases:
registration and propagation, which only move steps to PENDING and BLOCKED (`Quiet`), and the claim
loop, which only starts candidates (`StartsOnly`).  `claimReady_spec` describes every outcome of a
claim, raised or returned, in these terms.
-/

namespace LocalAgent.Runtime

/-- The status of a step, `none` while it is not registered. -/
def AgentState.statusOf (state : AgentState) (stepId : String) : Option StepStatus :=
  (state.steps.get? stepId).map StepState.status

namespace SerialScheduler

open AgentStateMachine

/-! ## Single machine calls -/

theorem statusOf_stepApplied (state : AgentState) (event : StepStateEvent) (step : StepState)
    (target : StepStatus) (id : String) : (stepApplied state event step target).statusOf id =
      if id = event.stepId then some target else state.statusOf id := by
  unfold AgentState.statusOf stepApplied
  by_cases h : id = event.stepId
  · simp [h, writeStepEvent_status]
  · simp [h]

theorem statusOf_registered (state : AgentState) (stepId name : String)
    (stepNow touchNow : DateTime) (id : String) :
    (registered state stepId name stepNow touchNow).statusOf id =
      if id = stepId then some .pending else state.statusOf id := by
  unfold AgentState.statusOf registered
  by_cases h : id = stepId
  · simp [h, StepState.new]
  · simp [h]

theorem statusOf_eq_none_iff {state : AgentState} {id : String} :
    state.statusOf id = none ↔ id ∉ state.steps.keys := by
  rw [← Dict.get?_eq_none_iff]
  simp [AgentState.statusOf]

theorem onState_cases {x : StateOp Unit} (w : World) :
    (∃ e s, x w.state = .error e s ∧ onState x w = .error (.state e) { w with state := s }) ∨
      ∃ s, x w.state = .ok () s ∧ onState x w = .ok () { w with state := s } := by
  unfold onState
  cases h : x w.state with
  | ok _ s => exact Or.inr ⟨s, rfl, rfl⟩
  | error e s => exact Or.inl ⟨e, s, rfl, rfl⟩

/-- An emission fails or applies its event. -/
theorem emit_cases (data : StepEventData) (w : World) : (∃ e, emit data w = .error e w) ∨
      ∃ (event : StepStateEvent) (step : StepState) (target : StepStatus),
        event.toStepEventData = data ∧ w.state.steps.get? data.stepId = some step ∧
        stepTransitions step.status data.eventType = some target ∧
        (stepApplied w.state event step target).Valid ∧
        emit data w = .ok () { w with state := stepApplied w.state event step target } := by
  unfold emit
  cases hm : StepStateEvent.make data with
  | error => exact Or.inl ⟨_, rfl⟩
  | ok event =>
    have hdata := StepStateEvent.make_eq_ok hm
    show (∃ e, onState (applyStepEvent event) w = _) ∨ ∃ _ _ _, _ ∧ _ ∧ _ ∧ _ ∧ onState _ w = _
    rcases onState_cases (x := applyStepEvent event) w with ⟨e, s, hx, heq⟩ | ⟨s, hx, heq⟩
    · obtain rfl : s = w.state := call_error (.applyStepEvent event) hx
      exact Or.inl ⟨_, heq⟩
    · obtain ⟨step, target, hs, ht, -, rfl, hv⟩ := applyStepEvent_ok hx
      subst hdata
      exact Or.inr ⟨event, step, target, rfl, hs, ht, hv, heq⟩

/-- A missing step is registered, a known one left alone. -/
theorem registerMissing_cases (clock : StepClock) (step : PlanStep) (w : World) :
    (∃ e, registerMissing clock step w = .error e w) ∨
    (step.stepId ∈ w.state.steps.keys ∧ registerMissing clock step w = .ok () w) ∨
    (step.stepId ∉ w.state.steps.keys ∧
      (registered w.state step.stepId step.title (clock step.stepId).1
        (clock step.stepId).2).Valid ∧
      registerMissing clock step w = .ok () { w with
        state := registered w.state step.stepId step.title (clock step.stepId).1
          (clock step.stepId).2 }) := by
  unfold registerMissing
  rw [Op.get_bind_apply]
  by_cases hin : step.stepId ∈ w.state.steps.keys
  · rw [if_neg (not_not.mpr hin)]
    exact Or.inr (Or.inl ⟨hin, rfl⟩)
  · rw [if_pos hin]
    rcases onState_cases (x := addStep step.stepId step.title (clock step.stepId).1
      (clock step.stepId).2) w with ⟨e, s, hx, heq⟩ | ⟨s, hx, heq⟩
    · obtain rfl : s = w.state := call_error (.addStep ..) hx
      exact Or.inl ⟨_, heq⟩
    · obtain ⟨-, rfl, hv⟩ := addStep_ok hx
      exact Or.inr (Or.inr ⟨hin, hv, heq⟩)

/-! ## The quiet phase -/

/-- Steps only appear as PENDING and only go from PENDING to BLOCKED; the run status stays, and so
does validity. -/
structure Quiet (s s' : AgentState) : Prop where
  step : ∀ id, s'.statusOf id = s.statusOf id ∨
    ((s.statusOf id = none ∨ s.statusOf id = some .pending) ∧
      (s'.statusOf id = some .pending ∨ s'.statusOf id = some .blocked))
  run : s'.status = s.status
  valid : s.Valid → s'.Valid

theorem Quiet.refl (s : AgentState) : Quiet s s := ⟨fun _ => Or.inl rfl, rfl, id⟩

theorem Quiet.trans {s t u : AgentState} (h1 : Quiet s t) (h2 : Quiet t u) : Quiet s u := by
  refine ⟨fun id => ?_, h2.run.trans h1.run, fun hv => h2.valid (h1.valid hv)⟩
  rcases h1.step id with h1 | ⟨h1, h1'⟩ <;> rcases h2.step id with h2 | ⟨h2, h2'⟩
  · exact Or.inl (h2.trans h1)
  · exact Or.inr ⟨h1 ▸ h2, h2'⟩
  · exact Or.inr ⟨h1, h2 ▸ h1'⟩
  · exact Or.inr ⟨h1, h2'⟩

/-- Both relations are used on worlds through their states. -/
def OnStates (R : AgentState → AgentState → Prop) (w w' : World) : Prop := R w.state w'.state

instance : Std.Refl (OnStates Quiet) := ⟨fun w => Quiet.refl w.state⟩

instance : IsTrans World (OnStates Quiet) := ⟨fun _ _ _ h1 h2 => Quiet.trans h1 h2⟩

instance : Std.Refl (OnStates Eq) := ⟨fun _ => rfl⟩

instance : IsTrans World (OnStates Eq) := ⟨fun _ _ _ h1 h2 => Eq.trans h1 h2⟩

variable {R : AgentState → AgentState → Prop} {clock : StepClock}

theorem follows_onLedger (hrefl : ∀ s, R s s) {α : Type}
    (x : LedgerOp α) : Op.Follows (OnStates R) (onLedger x) := by
  intro w
  refine .single ?_
  unfold Op.after onLedger
  cases x w.ledger <;> exact hrefl _

theorem quiet_emit_blocked (stepId : String) (occurredAt : DateTime) :
    Op.Follows (OnStates Quiet) (emit (blockedEvent stepId occurredAt)) := by
  intro w
  refine .single ?_
  rcases emit_cases (blockedEvent stepId occurredAt) w with ⟨e, h⟩ | ⟨event, step, target, hd, hs, ht, hv, h⟩
  · rw [Op.after_error h]
    exact Quiet.refl _
  · rw [Op.after_ok h]
    have htable : step.status = .pending ∧ target = .blocked := by
      revert ht
      cases step.status <;> simp [stepTransitions, blockedEvent, eq_comm]
    have hid : event.stepId = stepId := by rw [hd]; rfl
    refine ⟨fun id => ?_, rfl, fun _ => hv⟩
    show (stepApplied w.state event step target).statusOf id = _ ∨ _
    simp only [statusOf_stepApplied, hid]
    by_cases heq : id = stepId
    · subst heq
      have hst : w.state.statusOf id = some .pending := by
        show (w.state.steps.get? id).map _ = _
        rw [show w.state.steps.get? id = some step from hs]
        exact congrArg some htable.1
      exact Or.inr ⟨Or.inr hst, Or.inr (by simp [htable.2])⟩
    · exact Or.inl (if_neg heq)

theorem quiet_registerMissing (clock : StepClock) (step : PlanStep) :
    Op.Follows (OnStates Quiet) (registerMissing clock step) := by
  intro w
  refine .single ?_
  rcases registerMissing_cases clock step w with ⟨e, h⟩ | ⟨-, h⟩ | ⟨hfresh, hv, h⟩
  · rw [Op.after_error h]
    exact Quiet.refl _
  · rw [Op.after_ok h]
    exact Quiet.refl _
  · rw [Op.after_ok h]
    refine ⟨fun id => ?_, rfl, fun _ => hv⟩
    show (registered _ _ _ _ _).statusOf id = _ ∨ _
    rw [statusOf_registered]
    by_cases heq : id = step.stepId
    · subst heq
      exact Or.inr ⟨Or.inl (statusOf_eq_none_iff.mpr hfresh), Or.inl (if_pos rfl)⟩
    · exact Or.inl (if_neg heq)

theorem quiet_propagateStep (graph : PlanGraph) (occurredAt : DateTime) (stepId : String) :
    Op.Follows (OnStates Quiet) (propagateStep graph occurredAt stepId) := by
  refine Op.follows_get.bind fun w => (Op.follows_lift _).bind fun current => ?_
  refine Op.Follows.ite (fun _ => Op.follows_pure _) fun _ => (Op.follows_lift _).bind fun b => ?_
  exact Op.Follows.ite (fun _ => (quiet_emit_blocked _ _).bind fun _ => Op.follows_pure _)
    fun _ => Op.follows_pure _

theorem quiet_propagatePass (graph : PlanGraph) (occurredAt : DateTime) (ids : List String) :
    Op.Follows (OnStates Quiet) (propagatePass graph occurredAt ids) := by
  induction ids with
  | nil => exact Op.follows_pure _
  | cons _ _ ih =>
    exact (quiet_propagateStep _ _ _).bind fun _ => ih.bind fun _ => Op.follows_pure _

theorem quiet_propagateLoop (graph : PlanGraph) (occurredAt : DateTime) (fuel : ℕ) :
    Op.Follows (OnStates Quiet) (propagateLoop graph occurredAt fuel) := by
  induction fuel with
  | zero => exact Op.follows_pure _
  | succ _ ih =>
    exact (quiet_propagatePass _ _ _).bind fun _ =>
      Op.Follows.ite (fun _ => ih) fun _ => Op.follows_pure _

theorem quiet_propagateBlocked (graph : PlanGraph) (occurredAt : DateTime) :
    Op.Follows (OnStates Quiet) (propagateBlocked graph occurredAt) :=
  Op.follows_get.bind fun _ =>
    Op.Follows.ite (fun _ => Op.follows_pure _) fun _ => quiet_propagateLoop _ _ _

theorem quiet_prepareLocked (plan : Plan) (clock : StepClock) :
    Op.Follows (OnStates Quiet) (prepareLocked plan clock) := by
  refine (Op.follows_lift _).bind fun graph => Op.follows_get.bind fun w => ?_
  refine (Op.follows_lift _).bind fun _ => (Op.follows_lift _).bind fun _ => ?_
  refine (Op.follows_lift _).bind fun _ => (Op.follows_lift _).bind fun _ => ?_
  refine (Op.follows_forM (quiet_registerMissing clock)).bind fun _ => ?_
  exact Op.Follows.bind (fun w => .single (Quiet.refl w.state)) fun _ => Op.follows_pure _

theorem quiet_prepare (plan : Plan) (occurredAt : DateTime) (maxParallelism : ℤ)
    (clock : StepClock) :
    Op.Follows (OnStates Quiet) (prepare plan occurredAt maxParallelism clock) := by
  refine (Op.follows_lift _).bind fun _ => (Op.follows_lift _).bind fun _ => ?_
  refine (quiet_prepareLocked _ _).bind fun graph => Op.follows_get.bind fun w => ?_
  exact (quiet_propagateBlocked _ _).bind fun _ => Op.follows_get.bind fun _ => Op.follows_lift _

theorem quiet_evaluate (plan : Plan) (maxParallelism : ℤ) (now : DateTime) :
    Op.Follows (OnStates Quiet) (evaluate plan maxParallelism now) := by
  refine (Op.follows_lift _).bind fun _ => (Op.follows_lift _).bind fun graph => ?_
  refine Op.follows_get.bind fun w => (Op.follows_lift _).bind fun _ => ?_
  exact (quiet_propagateBlocked _ _).bind fun _ => Op.follows_get.bind fun _ => Op.follows_lift _

/-! ## The claim loop -/

/-- Only steps of `ids` change, from PENDING to RUNNING. -/
def StartsOnly (ids : List String) (s s' : AgentState) : Prop :=
  ∀ id, s'.statusOf id = s.statusOf id ∨
    (id ∈ ids ∧ s.statusOf id = some .pending ∧ s'.statusOf id = some .running)

theorem StartsOnly.refl (ids : List String) (s : AgentState) : StartsOnly ids s s :=
  fun _ => Or.inl rfl

theorem StartsOnly.trans {ids : List String} {s t u : AgentState} (h1 : StartsOnly ids s t)
    (h2 : StartsOnly ids t u) : StartsOnly ids s u := by
  intro id
  rcases h1 id with h1 | ⟨hm, h1, h1'⟩ <;> rcases h2 id with h2 | ⟨hm', h2, h2'⟩
  · exact Or.inl (h2.trans h1)
  · exact Or.inr ⟨hm', h1 ▸ h2, h2'⟩
  · exact Or.inr ⟨hm, h1, h2.trans h1'⟩
  · rw [h1'] at h2
    cases h2

instance (ids : List String) : Std.Refl (OnStates (StartsOnly ids)) :=
  ⟨fun w => StartsOnly.refl ids w.state⟩

instance (ids : List String) : IsTrans World (OnStates (StartsOnly ids)) :=
  ⟨fun _ _ _ h1 h2 => StartsOnly.trans h1 h2⟩

variable {steps : List PlanStep}

section ClaimLoop

variable {plan : Plan} {effectiveAt : DateTime} {env : ClaimEnv}
  {reservation : Option BudgetReservation} {ids : List String}

theorem starts_emit {stepId : String} (hin : stepId ∈ ids) (occurredAt : DateTime) :
    Op.Follows (OnStates (StartsOnly ids)) (emit ⟨.started, stepId, occurredAt, none, none⟩) := by
  intro w
  refine .single ?_
  rcases emit_cases ⟨.started, stepId, occurredAt, none, none⟩ w with
    ⟨e, h⟩ | ⟨event, step, target, hd, hs, ht, -, h⟩
  · rw [Op.after_error h]
    exact StartsOnly.refl _ _
  · rw [Op.after_ok h]
    have htable : step.status = .pending ∧ target = .running := by
      revert ht
      cases step.status <;> simp [stepTransitions, eq_comm]
    have hid : event.stepId = stepId := by rw [hd]
    intro id
    show (stepApplied w.state event step target).statusOf id = _ ∨ _
    simp only [statusOf_stepApplied, hid]
    by_cases heq : id = stepId
    · subst heq
      have hst : w.state.statusOf id = some .pending := by
        show (w.state.steps.get? id).map _ = _
        rw [show w.state.steps.get? id = some step from hs]
        exact congrArg some htable.1
      exact Or.inr ⟨hin, hst, by simp [htable.2]⟩
    · exact Or.inl (if_neg heq)

theorem starts_settleEarly (claims : List StepClaim) :
    Op.Follows (OnStates (StartsOnly ids)) (settleEarly env reservation claims) := by
  unfold settleEarly
  cases reservation with
  | none => exact Op.follows_pure _
  | some =>
    refine Op.Follows.ite (fun _ => ?_) fun _ => ?_
    all_goals exact (follows_onLedger (StartsOnly.refl ids) _).discard

variable {step : PlanStep}

theorem starts_claimStep (hin : step.stepId ∈ ids) (claims : List StepClaim) :
    Op.Follows (OnStates (StartsOnly ids))
      (claimStep plan effectiveAt env reservation claims step) := by
  refine Op.follows_get.bind fun w => (starts_emit hin _).attempt.bind fun outcome => ?_
  cases outcome with
  | error =>
    refine (starts_settleEarly claims).bind fun _ => Op.follows_get.bind fun w => ?_
    exact Op.Follows.ite (fun _ => Op.follows_raise _) fun _ => Op.follows_raise _
  | ok =>
    refine Op.follows_get.bind fun w => (Op.follows_lift _).bind fun claimed => ?_
    refine Op.Follows.ite (fun _ => ?_) fun _ => Op.follows_lift _
    exact (starts_settleEarly claims).bind fun _ => Op.follows_raise _

theorem starts_claimLoop (hin : ∀ step ∈ steps, step.stepId ∈ ids)
    (claims : List StepClaim) : Op.Follows (OnStates (StartsOnly ids))
      (claimLoop plan effectiveAt env reservation steps claims) := by
  induction steps generalizing claims with
  | nil => exact Op.follows_pure _
  | cons step _ ih =>
    refine (starts_claimStep (hin step List.mem_cons_self) claims).bind fun claim => ?_
    exact ih (fun s hs => hin s (List.mem_cons_of_mem _ hs)) _

theorem starts_precheck (step : PlanStep) :
    Op.Follows (OnStates (StartsOnly ids)) (precheck plan step) :=
  Op.follows_get.bind fun _ => (Op.follows_lift _).bind fun _ => Op.follows_lift _

theorem starts_reserveStarts (candidates : List PlanStep) :
    Op.Follows (OnStates (StartsOnly ids)) (reserveStarts env candidates) := by
  refine Op.Follows.ite (fun _ => ?_) fun _ => Op.follows_pure _
  refine (follows_onLedger (StartsOnly.refl ids) _).bind fun r => ?_
  exact Op.Follows.bind (fun w => .single (StartsOnly.refl ids w.state)) fun _ => Op.follows_pure _

variable {w w' : World} {claims : List StepClaim}

/-- A claimed step is running. -/
theorem claimStep_ok {claim : StepClaim}
    (h : claimStep plan effectiveAt env reservation claims step w = .ok claim w') :
    claim.stepId = step.stepId ∧ w'.state.statusOf step.stepId = some .running := by
  unfold claimStep at h
  rw [Op.get_bind_apply] at h
  obtain ⟨outcome, t, -, h⟩ := Op.bind_ok_iff.mp h
  cases outcome with
  | error =>
    obtain ⟨-, t', -, h⟩ := Op.bind_ok_iff.mp h
    rw [Op.get_bind_apply] at h
    split_ifs at h <;> cases h
  | ok =>
    simp only [Op.get_bind_apply] at h
    obtain ⟨claimed, t', hlift, h⟩ := Op.bind_ok_iff.mp h
    obtain ⟨hat, rfl⟩ := Op.lift_ok_iff.mp hlift
    split_ifs at h with hbad
    · obtain ⟨-, _, -, h⟩ := Op.bind_ok_iff.mp h
      cases h
    · obtain ⟨hmake, rfl⟩ := Op.lift_ok_iff.mp h
      rw [not_or, not_not, not_not] at hbad
      constructor
      · unfold StepClaim.make at hmake
        split_ifs at hmake
        cases hmake
        rfl
      · unfold stepAt at hat
        unfold AgentState.statusOf
        cases hg : t.state.steps.get? step.stepId with
        | none => rw [hg] at hat; cases hat
        | some s =>
          rw [hg] at hat
          obtain rfl : s = claimed := by simpa using hat
          exact congrArg some hbad.1

/-- The loop claims its steps in their order. -/
theorem claimLoop_ok {result : List StepClaim}
    (h : claimLoop plan effectiveAt env reservation steps claims w = .ok result w') :
    ∃ new, result = claims ++ new ∧ new.map StepClaim.stepId = steps.map PlanStep.stepId ∧
      ∀ step ∈ steps, w'.state.statusOf step.stepId = some .running := by
  induction steps generalizing claims w with
  | nil =>
    cases h
    exact ⟨[], by simp, rfl, by simp⟩
  | cons step steps ih =>
    obtain ⟨claim, t, hclaim, hrest⟩ := Op.bind_ok_iff.mp h
    obtain ⟨hid, hrun⟩ := claimStep_ok hclaim
    obtain ⟨new, rfl, hnew, hall⟩ := ih hrest
    refine ⟨claim :: new, by simp, by simp [hid, hnew], ?_⟩
    intro s hs
    rcases List.mem_cons.mp hs with rfl | hs
    · -- a running step stays running while the others are started
      have hfollow : Op.Follows (OnStates (StartsOnly (steps.map PlanStep.stepId)))
          (claimLoop plan effectiveAt env reservation steps (claims ++ [claim])) :=
        starts_claimLoop (fun s hs => List.mem_map_of_mem hs) _
      have hrel := hfollow.rel t
      rw [Op.after_ok hrest] at hrel
      rcases hrel s.stepId with heq | ⟨-, hpend, -⟩
      · exact heq.trans hrun
      · rw [hrun] at hpend
        cases hpend
    · exact hall s hs

theorem follows_settle (hrefl : ∀ s, R s s)
    (claims : List StepClaim) : Op.Follows (OnStates R) (settle env reservation claims) := by
  cases reservation with
  | none => exact Op.follows_pure _
  | some => exact (follows_onLedger hrefl _).discard

theorem starts_claimCandidates (candidates : List PlanStep) :
    Op.Follows (OnStates (StartsOnly (candidates.map PlanStep.stepId)))
      (claimCandidates plan effectiveAt env candidates) := by
  refine (starts_reserveStarts candidates).bind fun reservation => ?_
  refine (Op.follows_forM starts_precheck).bind fun _ => ?_
  refine (starts_claimLoop (fun s hs => List.mem_map_of_mem hs) []).bind fun claims => ?_
  exact (follows_settle (StartsOnly.refl _) claims).bind fun _ => Op.follows_pure _

theorem claimCandidates_ok {candidates : List PlanStep}
    (h : claimCandidates plan effectiveAt env candidates w = .ok claims w') :
    claims.map StepClaim.stepId = candidates.map PlanStep.stepId ∧
      ∀ id ∈ candidates.map PlanStep.stepId, w'.state.statusOf id = some .running := by
  obtain ⟨reservation, _, -, h⟩ := Op.bind_ok_iff.mp h
  obtain ⟨_, _, -, h⟩ := Op.bind_ok_iff.mp h
  obtain ⟨claims', t3, hloop, h⟩ := Op.bind_ok_iff.mp h
  obtain ⟨_, hnew, hmap, hall⟩ := claimLoop_ok hloop
  obtain ⟨_, t4, hsettle, h⟩ := Op.bind_ok_iff.mp h
  have hsame : t3.state = t4.state := by
    have hfollow : Op.Follows (OnStates Eq) (settle env reservation claims') :=
      follows_settle (fun _ => rfl) claims'
    have hrel := hfollow.rel t3
    rwa [Op.after_ok hsettle] at hrel
  cases h
  rw [hnew, List.nil_append]
  refine ⟨hmap, fun id hid => ?_⟩
  obtain ⟨step, hm, rfl⟩ := List.mem_map.mp hid
  rw [← hsame]
  exact hall step hm

end ClaimLoop

/-! ## Reading the status table -/

section Readers

variable {state : AgentState} {p : StepStatus → Bool}

variable {id : String}

theorem stepAt_ok {step : StepState} (h : stepAt state id = .ok step) :
    state.steps.get? id = some step := by
  unfold stepAt at h
  cases hg : state.steps.get? id with
  | none => rw [hg] at h; cases h
  | some => rw [hg] at h; exact congrArg some (Except.ok.inj h)

theorem statusOf_of_stepAt {step : StepState} (h : stepAt state id = .ok step) :
    state.statusOf id = some step.status := by
  simp [AgentState.statusOf, stepAt_ok h]

variable {ids : List String} {b : Bool}

theorem anyStatus_ok (h : anyStatus state p ids = .ok b) :
    (b = true → ∃ id ∈ ids, ∃ status, state.statusOf id = some status ∧ p status = true) ∧
    (b = false → ∀ id ∈ ids, ∃ status, state.statusOf id = some status ∧ p status = false) := by
  induction ids with
  | nil =>
    cases h
    simp
  | cons id _ ih =>
    obtain ⟨_, hstep, h⟩ := bind_eq_ok.mp h
    have hst := statusOf_of_stepAt hstep
    split_ifs at h with hp
    · cases h
      exact ⟨fun _ => ⟨id, List.mem_cons_self, _, hst, hp⟩, by simp⟩
    · obtain ⟨htrue, hfalse⟩ := ih h
      refine ⟨fun hb => ?_, fun hb => ?_⟩
      · obtain ⟨id', hm, hid'⟩ := htrue hb
        exact ⟨id', List.mem_cons_of_mem _ hm, hid'⟩
      · exact List.forall_mem_cons.mpr ⟨⟨_, hst, by simpa using hp⟩, hfalse hb⟩

theorem allStatus_ok (h : allStatus state p ids = .ok b) :
    b = true ↔ ∀ id ∈ ids, ∃ status, state.statusOf id = some status ∧ p status = true := by
  obtain ⟨failing, hany, h⟩ := bind_eq_ok.mp h
  cases h
  obtain ⟨htrue, hfalse⟩ := anyStatus_ok hany
  cases failing with
  | false => simpa using hfalse rfl
  | true =>
    obtain ⟨id, hm, _, hst, hp⟩ := htrue rfl
    simp only [Bool.not_true, Bool.false_eq_true, false_iff, not_forall]
    refine ⟨id, hm, ?_⟩
    rintro ⟨_, hst', hp'⟩
    rw [hst] at hst'
    cases hst'
    simp [hp'] at hp

/-- The scan keeps the plan's order. -/
theorem withStatus_ok {l : List String} (h : withStatus state p ids = .ok l) :
    l = ids.filter fun id => (state.statusOf id).any p := by
  induction ids generalizing l with
  | nil =>
    cases h
    rfl
  | cons _ _ ih =>
    obtain ⟨_, hstep, h⟩ := bind_eq_ok.mp h
    obtain ⟨_, hrest, h⟩ := bind_eq_ok.mp h
    have hst := statusOf_of_stepAt hstep
    cases h
    rw [List.filter_cons, hst, Option.any_some, ih hrest]

/-- The step is pending and all its dependencies succeeded. -/
def ReadyAt (graph : PlanGraph) (state : AgentState) (id : String) : Prop :=
  state.statusOf id = some .pending ∧
    ∀ d ∈ graph.dependenciesOf id, state.statusOf d = some .succeeded
  deriving Decidable

variable {graph : PlanGraph}

/-- A step is ready exactly when it is pending and its dependencies have succeeded. -/
theorem isReady_ok (hv : state.Valid)
    (h : isReady graph state id = .ok b) : b = true ↔ ReadyAt graph state id := by
  obtain ⟨step, hstep, h⟩ := bind_eq_ok.mp h
  have hst := statusOf_of_stepAt hstep
  by_cases hpend : step.status = .pending
  · have hnot : id ∉ state.activeStepIds := by
      intro hm
      obtain ⟨_, hs', hact⟩ := (hv.active id).mp hm
      rw [stepAt_ok hstep] at hs'
      cases hs'
      rw [hpend] at hact
      rcases hact with h | h <;> cases h
    rw [if_neg (by simp [hpend, hnot])] at h
    rw [allStatus_ok h]
    have hall : (∀ d ∈ graph.dependenciesOf id, ∃ status, state.statusOf d = some status ∧
        decide (status = .succeeded) = true) ↔
        ∀ d ∈ graph.dependenciesOf id, state.statusOf d = some .succeeded := by
      simp
    rw [hall]
    exact ⟨fun h => ⟨hst.trans (congrArg some hpend), h⟩, And.right⟩
  · rw [if_pos (Or.inl hpend)] at h
    cases h
    have hnot : ¬ ReadyAt graph state id := by
      rintro ⟨hp, -⟩
      rw [hst] at hp
      exact hpend (Option.some.inj hp)
    simpa using hnot

variable {l : List PlanStep}

theorem readyAmong_ok {plan : Plan}
    (hv : state.Valid) (h : readyAmong plan graph state ids = .ok l) :
    l.map PlanStep.stepId = ids.filter fun id => ReadyAt graph state id := by
  induction ids generalizing l with
  | nil =>
    cases h
    rfl
  | cons id _ ih =>
    unfold readyAmong at h
    cases hfind : plan.steps.find? fun step => step.stepId = id with
    | none => rw [hfind] at h; cases h
    | some step =>
      rw [hfind] at h
      have hid : step.stepId = id := by simpa using List.find?_some hfind
      obtain ⟨_, hready, h⟩ := bind_eq_ok.mp h
      obtain ⟨_, hrest, h⟩ := bind_eq_ok.mp h
      cases h
      have hiff := isReady_ok hv hready
      by_cases hr : ReadyAt graph state id
      · rw [List.filter_cons_of_pos (by simpa using hr), if_pos (hiff.mpr hr), List.map_cons, hid,
          ih hrest]
      · rw [List.filter_cons_of_neg (by simpa using hr), if_neg (fun hb => hr (hiff.mp hb)),
          ih hrest]

theorem computeReadySteps_ok {plan : Plan} (hv : state.Valid) (hrun : state.status = .running)
    (h : computeReadySteps plan graph state = .ok l) :
    l.map PlanStep.stepId = graph.topologicalOrder.filter fun id => ReadyAt graph state id := by
  unfold computeReadySteps at h
  rw [if_neg (by simp [hrun])] at h
  exact readyAmong_ok hv h

end Readers

/-! ## Outcomes of a claim -/

theorem registerMissing_forM_of_registered {w : World}
    (h : ∀ step ∈ steps, step.stepId ∈ w.state.steps.keys) :
    steps.forM (registerMissing clock) w = .ok () w := by
  induction steps with
  | nil => rfl
  | cons step _ ih =>
    have hstep : registerMissing clock step w = .ok () w := by
      unfold registerMissing
      rw [Op.get_bind_apply, if_neg (not_not.mpr (h step List.mem_cons_self))]
      rfl
    exact Op.bind_ok_iff.mpr ⟨(), w, hstep, ih fun s hs => h s (List.mem_cons_of_mem _ hs)⟩

/-- What the preparation checks before it reads the statuses. -/
theorem prepareLocked_ok {plan : Plan} {w w' : World} {graph : PlanGraph}
    (h : prepareLocked plan clock w = .ok graph w') :
    PlanGraphValidator.validate plan = .ok graph ∧ w.state.Valid ∧ w.state.status = .running ∧
      ((∀ step ∈ plan.steps, step.stepId ∈ w.state.steps.keys) → w'.state = w.state) := by
  unfold prepareLocked at h
  obtain ⟨_, hgraph, h⟩ := Op.lift_bind_ok_iff.mp h
  rw [Op.get_bind_apply] at h
  obtain ⟨_, hvalid, h⟩ := Op.lift_bind_ok_iff.mp h
  obtain ⟨_, -, h⟩ := Op.lift_bind_ok_iff.mp h
  obtain ⟨_, hrun, h⟩ := Op.lift_bind_ok_iff.mp h
  obtain ⟨_, -, h⟩ := Op.lift_bind_ok_iff.mp h
  obtain ⟨u, t', hreg, h⟩ := Op.bind_ok_iff.mp h
  obtain ⟨_, t'', hmod, h⟩ := Op.bind_ok_iff.mp h
  have hstate : t''.state = t'.state := by
    cases hmod
    rfl
  cases h
  refine ⟨mapError_ok.mp hgraph, AgentState.validate_eq_ok_iff.mp (mapError_ok.mp hvalid),
    not_not.mp (raiseIf_ok.mp hrun), fun hall => ?_⟩
  rw [registerMissing_forM_of_registered hall] at hreg
  cases hreg
  exact hstate

def runningCount (plan : Plan) (state : AgentState) : ℕ :=
  ((plan.steps.map PlanStep.stepId).filter fun id => state.statusOf id = some .running).length

theorem runningSteps_ok {plan : Plan} {state : AgentState} {l : List String}
    (h : runningSteps plan state = .ok l) : l.length = runningCount plan state := by
  rw [withStatus_ok h, runningCount]
  congr 1
  refine List.filter_congr fun id _ => ?_
  cases state.statusOf id with
  | none => simp
  | some => simp

/-- A claim goes through a quiet phase and then starts ready steps, in order and within the
slots. -/
structure ClaimOutcome (plan : Plan) (maxParallelism : ℤ) (s s' : AgentState)
    (started : List String) : Prop where
  phases : ∃ mid, Quiet s mid ∧ StartsOnly started mid s' ∧
    (started ≠ [] → ∃ graph, PlanGraphValidator.validate plan = .ok graph ∧
      started.Sublist graph.topologicalOrder ∧ (∀ id ∈ started, ReadyAt graph mid id) ∧
      (started.length : ℤ) + runningCount plan mid ≤ maxParallelism)

theorem ClaimOutcome.of_quiet {plan : Plan} {maxParallelism : ℤ} {s s' : AgentState}
    (h : Quiet s s') : ClaimOutcome plan maxParallelism s s' [] :=
  ⟨s', h, StartsOnly.refl _ _, fun hne => absurd rfl hne⟩

/-- Every outcome of `_claim_ready_entered`, returned or raised; a returned list of claims is of
exactly the started steps, all RUNNING. -/
theorem claimReadyEntered_spec (plan : Plan) (maxParallelism : ℤ) (occurredAt : DateTime)
    (env : ClaimEnv) (w : World) : ∃ started, ClaimOutcome plan maxParallelism w.state
        (Op.after (claimReadyEntered plan maxParallelism occurredAt env) w).state started ∧
      ∀ claims w', claimReadyEntered plan maxParallelism occurredAt env w = .ok claims w' →
        claims.map StepClaim.stepId = started ∧
          ∀ id ∈ started, w'.state.statusOf id = some .running := by
  unfold claimReadyEntered
  -- registration
  rcases Op.bind_cases (prepareLocked plan env.clock) _ w with ⟨e, t, hp, h⟩ | ⟨graph, t, hp, h⟩
  · refine ⟨[], ?_, fun claims w' hok => by rw [h] at hok; cases hok⟩
    rw [Op.after_error h]
    have hq := (quiet_prepareLocked plan env.clock).rel w
    rw [Op.after_error hp] at hq
    exact .of_quiet hq
  have hq1 : Quiet w.state t.state := by
    have hq := (quiet_prepareLocked plan env.clock).rel w
    rwa [Op.after_ok hp] at hq
  obtain ⟨hgraph, hvalid, hrun, -⟩ := prepareLocked_ok hp
  unfold Op.after
  rw [h, Op.get_bind_apply]
  -- propagation
  rcases Op.bind_cases (propagateBlocked graph (effectiveTime occurredAt t.state)) _ t with
    ⟨e, t', hpr, h⟩ | ⟨u, t', hpr, h⟩
  · refine ⟨[], ?_, fun claims w' hok => by rw [h] at hok; cases hok⟩
    rw [h]
    have hq := (quiet_propagateBlocked graph (effectiveTime occurredAt t.state)).rel t
    rw [Op.after_error hpr] at hq
    exact .of_quiet (hq1.trans hq)
  have hq2 : Quiet w.state t'.state := by
    have hq := (quiet_propagateBlocked graph (effectiveTime occurredAt t.state)).rel t
    rw [Op.after_ok hpr] at hq
    exact hq1.trans hq
  rw [h, Op.get_bind_apply]
  clear h hp hpr hq1
  -- the candidates
  cases hrunning : runningSteps plan t'.state with
  | error => exact ⟨[], .of_quiet hq2, fun claims w' hok => by cases hok⟩
  | ok running =>
  cases hready : computeReadySteps plan graph t'.state with
  | error e => exact ⟨[], .of_quiet hq2, fun claims w' hok => by cases hok⟩
  | ok ready =>
  simp only [Op.lift_ok, Op.pure_bind_apply]
  generalize hc : ready.take (availableSlots maxParallelism running).toNat = candidates
  have hids := computeReadySteps_ok (hq2.valid hvalid) (hq2.run.trans hrun) hready
  have hsub : (candidates.map PlanStep.stepId).Sublist (ready.map PlanStep.stepId) := by
    rw [← hc]
    exact (List.take_sublist _ _).map _
  have hstart : candidates.map PlanStep.stepId ≠ [] → ∃ graph,
      PlanGraphValidator.validate plan = .ok graph ∧
      (candidates.map PlanStep.stepId).Sublist graph.topologicalOrder ∧
      (∀ id ∈ candidates.map PlanStep.stepId, ReadyAt graph t'.state id) ∧
      ((candidates.map PlanStep.stepId).length : ℤ) + runningCount plan t'.state ≤
        maxParallelism := by
    intro hne
    refine ⟨graph, hgraph, ?_, fun id hid => ?_, ?_⟩
    · rw [hids] at hsub
      exact hsub.trans List.filter_sublist
    · have hm := hsub.subset hid
      rw [hids] at hm
      simpa using (List.mem_filter.mp hm).2
    · have hlen : candidates.length ≤ (availableSlots maxParallelism running).toNat := by
        rw [← hc]
        exact List.length_take_le _ _
      have hpos : 0 < candidates.length := by
        rw [List.length_pos_iff]
        rintro rfl
        exact hne rfl
      rw [← runningSteps_ok hrunning, List.length_map]
      unfold availableSlots at hlen
      omega
  -- the claim loop
  refine ⟨candidates.map PlanStep.stepId, ⟨t'.state, hq2, ?_, hstart⟩, ?_⟩
  · exact (starts_claimCandidates candidates).rel t'
  · intro _ _ hok
    exact claimCandidates_ok hok

theorem exitClaim_state (w : World) : (Op.after exitClaim w).state = w.state := by
  unfold Op.after exitClaim
  rw [Op.get_bind_apply]
  by_cases h : w.gate.claimInProgress ≤ 0
  all_goals simp [raiseIf, h]

/-- The whole claim: what it starts, what it returns and what it leaves alone. -/
theorem claimReady_spec (plan : Plan) (maxParallelism : ℤ) (occurredAt : DateTime)
    (env : ClaimEnv) (w : World) : ∃ started, ClaimOutcome plan maxParallelism w.state
        (Op.after (claimReady plan maxParallelism occurredAt env) w).state started ∧
      ∀ claims w', claimReady plan maxParallelism occurredAt env w = .ok claims w' →
        claims.map StepClaim.stepId = started ∧
          ∀ id ∈ started, w'.state.statusOf id = some .running := by
  unfold claimReady
  by_cases hk : maxParallelism ≤ 0
  · simp only [validateParallelism, raiseIf, if_pos hk, Op.lift_error, Op.raise_bind]
    exact ⟨[], .of_quiet (Quiet.refl _), fun claims w' h => by cases h⟩
  by_cases hutc : ¬ occurredAt.IsUtc
  · simp only [validateParallelism, validateUtc, raiseIf, if_neg hk, if_pos hutc, Op.lift_error,
      Op.raise_bind]
    exact ⟨[], .of_quiet (Quiet.refl _), fun claims w' h => by cases h⟩
  simp only [validateParallelism, validateUtc, raiseIf, if_neg hk, if_neg hutc, Op.lift_ok]
  -- the gate decides whether the claim is entered at all
  cases hgate : w.gate.state with
  | closed =>
    refine ⟨[], ?_, fun claims w' h => ?_⟩
    · unfold Op.after
      simp only [Op.pure_bind_apply, Op.get_bind_apply, hgate]
      exact .of_quiet (Quiet.refl _)
    · simp only [Op.pure_bind_apply, Op.get_bind_apply, hgate] at h
      cases h
  | pausing | paused | resuming =>
    refine ⟨[], ?_, fun claims w' h => ?_⟩
    · unfold Op.after
      simp only [Op.pure_bind_apply, Op.get_bind_apply, hgate]
      exact .of_quiet (Quiet.refl _)
    · simp only [Op.pure_bind_apply, Op.get_bind_apply, hgate] at h
      cases h
      exact ⟨rfl, by simp⟩
  | «open» =>
    obtain ⟨started, hout, hok⟩ :=
      claimReadyEntered_spec plan maxParallelism occurredAt env w.enterClaim
    refine ⟨started, ?_, fun claims w' h => ?_⟩
    · rw [Op.after_eq (t := w.enterClaim)
        (y := Op.ensure (claimReadyEntered plan maxParallelism occurredAt env) exitClaim)
        (by simp only [Op.pure_bind_apply, Op.get_bind_apply, hgate, Op.set_bind_apply])]
      rwa [Op.after_ensure, exitClaim_state]
    · simp only [Op.pure_bind_apply, Op.get_bind_apply, hgate, Op.set_bind_apply] at h
      obtain ⟨t, hentered, rfl⟩ := Op.ensure_ok h
      rw [exitClaim_state]
      exact hok claims t hentered

end SerialScheduler

end LocalAgent.Runtime
