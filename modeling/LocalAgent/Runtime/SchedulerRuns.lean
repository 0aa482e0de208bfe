import LocalAgent.Runtime.SchedulerSteps

/-!
# LocalAgent.Runtime.SchedulerRuns — interleavings of the scheduler and the workers

A run interleaves, in any order, the four entry points of one scheduler with calls of the state
machine made by workers and with whatever other parties do to the claim gate and the ledger.

* `Advances`: what one action can do to a status; everything about whole runs follows from it.
* `claims_sound`: each step is claimed at most once, behind succeeded dependencies, in the order of
  the plan graph.
* `active_claims_le`: when approval never parks a step across a claim, at most `max_parallelism`
  claimed steps are active at a time.
-/

namespace LocalAgent.Runtime

namespace SerialScheduler

open AgentStateMachine

inductive Action where
  | prepare (occurredAt : DateTime) (maxParallelism : ℤ) (clock : StepClock)
  | evaluate (maxParallelism : ℤ) (now : DateTime)
  | claimReady (maxParallelism : ℤ) (occurredAt : DateTime) (env : ClaimEnv)
  | claimNext (occurredAt : DateTime) (env : ClaimEnv)
  | worker (call : AgentStateMachine.Call)
  | outside (gate : SchedulerClaimGate) (ledger : BudgetLedger)

def Action.next (plan : Plan) (w : World) : Action → World
  | .prepare occurredAt k clock => Op.after (SerialScheduler.prepare plan occurredAt k clock) w
  | .evaluate k now => Op.after (SerialScheduler.evaluate plan k now) w
  | .claimReady k occurredAt env => Op.after (SerialScheduler.claimReady plan k occurredAt env) w
  | .claimNext occurredAt env => Op.after (SerialScheduler.claimNext plan occurredAt env) w
  | .worker call => { w with state := Op.after call.op w.state }
  | .outside gate ledger => { w with gate := gate, ledger := ledger }

def Action.claims (plan : Plan) (w : World) : Action → List StepClaim
  | .claimReady k occurredAt env =>
    (Op.value? (SerialScheduler.claimReady plan k occurredAt env) w).getD []
  | .claimNext occurredAt env =>
    ((Op.value? (SerialScheduler.claimNext plan occurredAt env) w).getD none).toList
  | _ => []

def runFrom (plan : Plan) (w : World) (actions : List Action) : World :=
  actions.foldl (fun w action => action.next plan w) w

/-- All claims a run returns. -/
def claimsOf (plan : Plan) : World → List Action → List StepClaim
  | _, [] => []
  | w, action :: actions => action.claims plan w ++ claimsOf plan (action.next plan w) actions

/-! ## What one action does to a status -/

/-- A step that has left PENDING does not come back to it, and a terminal status is final. -/
structure Advances (s s' : AgentState) : Prop where
  left : ∀ id status, s.statusOf id = some status → status ≠ .pending →
    ∃ status', s'.statusOf id = some status' ∧ status' ≠ .pending
  final : ∀ id status, s.statusOf id = some status → status.IsTerminal →
    s'.statusOf id = some status

theorem Advances.refl (s : AgentState) : Advances s s :=
  ⟨fun _ status h hne => ⟨status, h, hne⟩, fun _ _ h _ => h⟩

variable {s s' : AgentState}

theorem Advances.trans {t u : AgentState} (h1 : Advances s t) (h2 : Advances t u) :
    Advances s u := by
  refine ⟨fun id status hs hne => ?_, fun id status hs ht => h2.final id status
    (h1.final id status hs ht) ht⟩
  obtain ⟨status', hs', hne'⟩ := h1.left id status hs hne
  exact h2.left id status' hs' hne'

theorem Quiet.advances (h : Quiet s s') : Advances s s' := by
  have key : ∀ id status, s.statusOf id = some status → status ≠ .pending →
      s'.statusOf id = some status := by
    intro id status hs hne
    rcases h.step id with heq | ⟨hold | hold, -⟩
    · exact heq.trans hs
    · rw [hs] at hold; cases hold
    · rw [hs] at hold; exact absurd (Option.some.inj hold) hne
  refine ⟨fun id status hs hne => ⟨status, key id status hs hne, hne⟩, fun id status hs ht => ?_⟩
  refine key id status hs ?_
  rintro rfl
  simp [StepStatus.IsTerminal] at ht

theorem StartsOnly.advances {ids : List String} (h : StartsOnly ids s s') : Advances s s' := by
  have key : ∀ id status, s.statusOf id = some status → status ≠ .pending →
      s'.statusOf id = some status := by
    intro id status hs hne
    rcases h id with heq | ⟨-, hold, -⟩
    · exact heq.trans hs
    · rw [hs] at hold; exact absurd (Option.some.inj hold) hne
  refine ⟨fun id status hs hne => ⟨status, key id status hs hne, hne⟩, fun id status hs ht => ?_⟩
  refine key id status hs ?_
  rintro rfl
  simp [StepStatus.IsTerminal] at ht

theorem call_advances (call : AgentStateMachine.Call) (s : AgentState) :
    Advances s (Op.after call.op s) := by
  refine ⟨fun id status hs hne => ?_, fun id status hs ht => ?_⟩
  · unfold AgentState.statusOf at hs ⊢
    obtain ⟨step, hg, rfl⟩ := Option.map_eq_some_iff.mp hs
    rcases after_call call s with h | ⟨hm, -⟩
    · exact ⟨step.status, by rw [h, hg]; rfl, hne⟩
    · rcases hm.get? hg with h | ⟨event, target, -, htable, -, h⟩
      · exact ⟨step.status, by rw [h]; rfl, hne⟩
      · refine ⟨target, ?_, stepTransitions_ne_pending htable⟩
        rw [h]
        exact congrArg some (writeStepEvent_status step event target)
  · unfold AgentState.statusOf at hs ⊢
    obtain ⟨_, hg, rfl⟩ := Option.map_eq_some_iff.mp hs
    rw [after_get?_of_terminal call hg ht]
    rfl

theorem claimReady_advances (plan : Plan) (k : ℤ) (occurredAt : DateTime) (env : ClaimEnv)
    (w : World) : Advances w.state (Op.after (claimReady plan k occurredAt env) w).state := by
  obtain ⟨_, ⟨_, hq, hs, -⟩, -⟩ := claimReady_spec plan k occurredAt env w
  exact hq.advances.trans hs.advances

theorem after_claimNext (plan : Plan) (occurredAt : DateTime) (env : ClaimEnv) (w : World) :
    Op.after (claimNext plan occurredAt env) w =
      Op.after (claimReady plan 1 occurredAt { env with useLedger := false }) w := by
  unfold claimNext
  rcases Op.bind_cases (claimReady plan 1 occurredAt { env with useLedger := false })
    (fun claims => (pure claims.head? : SchedulerOp (Option StepClaim))) w with
    ⟨e, t, hx, h⟩ | ⟨a, t, hx, h⟩
  · rw [Op.after_error hx, Op.after_error h]
  · rw [Op.after_ok hx]
    exact Op.after_ok h

theorem next_advances (plan : Plan) (action : Action) (w : World) :
    Advances w.state (action.next plan w).state := by
  cases action with
  | prepare occurredAt k clock => exact ((quiet_prepare plan occurredAt k clock).rel w).advances
  | evaluate k now => exact ((quiet_evaluate plan k now).rel w).advances
  | claimReady k occurredAt env => exact claimReady_advances plan k occurredAt env w
  | claimNext occurredAt env =>
    show Advances w.state (Op.after (SerialScheduler.claimNext plan occurredAt env) w).state
    rw [after_claimNext]
    exact claimReady_advances plan 1 occurredAt _ w
  | worker call => exact call_advances call w.state
  | outside => exact Advances.refl _

theorem runFrom_advances (plan : Plan) (actions : List Action) (w : World) :
    Advances w.state (runFrom plan w actions).state := by
  induction actions generalizing w with
  | nil => exact Advances.refl _
  | cons action _ ih => exact (next_advances plan action w).trans (ih _)

/-! ## Claims -/

/-- What one action's claims satisfy: they are in the order of the plan graph; each claimed step was
pending or not registered before, its dependencies had succeeded, and it is running afterwards. -/
structure ClaimsSound (plan : Plan) (graph : PlanGraph) (w w' : World) (claims : List StepClaim) :
    Prop where
  order : (claims.map StepClaim.stepId).Sublist graph.topologicalOrder
  unclaimed : ∀ c ∈ claims, w.state.statusOf c.stepId = none ∨
    w.state.statusOf c.stepId = some .pending
  running : ∀ c ∈ claims, w'.state.statusOf c.stepId = some .running
  deps : ∀ c ∈ claims, ∀ d ∈ graph.dependenciesOf c.stepId, w.state.statusOf d = some .succeeded

theorem ClaimsSound.nil (plan : Plan) (graph : PlanGraph) (w w' : World) :
    ClaimsSound plan graph w w' [] :=
  ⟨List.nil_sublist _, by simp, by simp, by simp⟩

theorem Quiet.succeeded (h : Quiet s s') {id : String}
    (hs : s'.statusOf id = some .succeeded) : s.statusOf id = some .succeeded := by
  rcases h.step id with heq | ⟨-, hnew | hnew⟩
  · exact heq ▸ hs
  all_goals rw [hs] at hnew; cases hnew

theorem Quiet.pending (h : Quiet s s') {id : String} (hs : s'.statusOf id = some .pending) :
    s.statusOf id = none ∨ s.statusOf id = some .pending := by
  rcases h.step id with heq | ⟨hold, -⟩
  · exact Or.inr (heq ▸ hs)
  · exact hold

variable {k : ℤ} {w : World} {graph : PlanGraph} {plan : Plan} {claimed : List String}

/-- The claims of one call are ready steps that it starts. -/
theorem claimReady_sound
    (hplan : PlanGraphValidator.validate plan = .ok graph) {occurredAt : DateTime}
    {env : ClaimEnv} {w' : World} {claims : List StepClaim}
    (h : claimReady plan k occurredAt env w = .ok claims w') :
    ClaimsSound plan graph w w' claims := by
  obtain ⟨started, ⟨_, hq, -, hstart⟩, hok⟩ := claimReady_spec plan k occurredAt env w
  obtain ⟨hmap, hrun⟩ := hok claims w' h
  have hmem : ∀ c ∈ claims, c.stepId ∈ started := by
    intro c hc
    rw [← hmap]
    exact List.mem_map_of_mem hc
  by_cases hne : started = []
  · have : claims = [] := by
      rw [hne] at hmap
      exact List.map_eq_nil_iff.mp hmap
    rw [this]
    exact ClaimsSound.nil plan graph w w'
  · obtain ⟨_, hgraph, hsub, hready, -⟩ := hstart hne
    cases hgraph.symm.trans hplan
    refine ⟨by rw [hmap]; exact hsub, fun c hc => ?_, fun c hc => hrun _ (hmem c hc),
      fun c hc d hd => ?_⟩
    · exact hq.pending (hready _ (hmem c hc)).1
    · exact hq.succeeded ((hready _ (hmem c hc)).2 d hd)

/-- The claims of every action are sound. -/
theorem action_sound
    (hplan : PlanGraphValidator.validate plan = .ok graph) (action : Action) (w : World) :
    ClaimsSound plan graph w (action.next plan w) (action.claims plan w) := by
  cases action with
  | claimReady k occurredAt env =>
    show ClaimsSound plan graph w (Op.after (SerialScheduler.claimReady plan k occurredAt env) w)
      ((Op.value? (SerialScheduler.claimReady plan k occurredAt env) w).getD [])
    cases h : SerialScheduler.claimReady plan k occurredAt env w with
    | error =>
      rw [Op.value?_error h]
      exact ClaimsSound.nil _ _ _ _
    | ok =>
      rw [Op.value?_ok h, Op.after_ok h]
      exact claimReady_sound hplan h
  | claimNext occurredAt env =>
    show ClaimsSound plan graph w (Op.after (SerialScheduler.claimNext plan occurredAt env) w)
      ((Op.value? (SerialScheduler.claimNext plan occurredAt env) w).getD none).toList
    cases h : SerialScheduler.claimNext plan occurredAt env w with
    | error =>
      rw [Op.value?_error h]
      exact ClaimsSound.nil _ _ _ _
    | ok =>
      rw [Op.value?_ok h, Op.after_ok h]
      obtain ⟨claims, t, hclaims, hpure⟩ := Op.bind_ok_iff.mp h
      cases hpure
      have hs := claimReady_sound hplan hclaims
      have hsub : claims.head?.toList.Sublist claims := by
        cases claims with
        | nil => exact List.nil_sublist _
        | cons c cs => exact (List.nil_sublist cs).cons_cons c
      exact ⟨(hsub.map _).trans hs.order, fun c hc => hs.unclaimed c (hsub.subset hc),
        fun c hc => hs.running c (hsub.subset hc), fun c hc => hs.deps c (hsub.subset hc)⟩
  | prepare | evaluate | worker | outside => exact ClaimsSound.nil _ _ _ _

variable {actions : List Action} {status : StepStatus} {action : Action}

/-- What a later action claims was not claimed before. -/
theorem unclaimed_of_mem_claimsOf (hplan : PlanGraphValidator.validate plan = .ok graph)
    {c : StepClaim} (hc : c ∈ claimsOf plan w actions) :
    w.state.statusOf c.stepId = none ∨ w.state.statusOf c.stepId = some .pending := by
  induction actions generalizing w with
  | nil => cases hc
  | cons action _ ih =>
    rcases List.mem_append.mp hc with hc | hc
    · exact (action_sound hplan action w).unclaimed c hc
    · have hlater := ih hc
      cases hst : w.state.statusOf c.stepId with
      | none => exact Or.inl rfl
      | some status =>
        by_cases hp : status = .pending
        · exact Or.inr (congrArg some hp)
        · obtain ⟨_, hst', hne⟩ := (next_advances plan action w).left _ _ hst hp
          rw [hst'] at hlater
          rcases hlater with h | h
          · cases h
          · exact absurd (Option.some.inj h) hne

/-- No step is claimed twice in a run. -/
theorem claimsOf_nodup
    (hplan : PlanGraphValidator.validate plan = .ok graph) (actions : List Action) (w : World) :
    ((claimsOf plan w actions).map StepClaim.stepId).Nodup := by
  have hnd : graph.topologicalOrder.Nodup :=
    (PlanGraphValidator.validate_spec hplan).perm.nodup_iff.mpr
      (PlanGraphValidator.validate_spec hplan).nodup
  induction actions generalizing w with
  | nil => exact List.nodup_nil
  | cons action _ ih =>
    have hs := action_sound hplan action w
    rw [claimsOf, List.map_append]
    refine List.nodup_append'.mpr ⟨hnd.sublist hs.order, ih _, ?_⟩
    -- a step claimed here is running, so it is neither pending nor unregistered later
    intro _ hnow hlater
    obtain ⟨c, hc, rfl⟩ := List.mem_map.mp hnow
    obtain ⟨_, hc', heq⟩ := List.mem_map.mp hlater
    have hun := unclaimed_of_mem_claimsOf hplan hc'
    rw [heq, hs.running c hc] at hun
    rcases hun with h | h <;> cases h

/-- **The scheduler's claims.**  For every accepted plan and every run: no step is claimed twice;
the claims of one call are in the stable topological order; the dependencies of a claimed step have
succeeded when it is claimed and ever after; a step that is blocked, skipped, cancelled or failed is
not claimed from then on. -/
theorem claims_sound {plan : Plan} {graph : PlanGraph}
    (hplan : PlanGraphValidator.validate plan = .ok graph) (w : World) (actions : List Action) :
    ((claimsOf plan w actions).map StepClaim.stepId).Nodup ∧
    (∀ action : Action, ((action.claims plan (runFrom plan w actions)).map StepClaim.stepId).Sublist
      graph.topologicalOrder) ∧
    (∀ action : Action, ∀ c ∈ action.claims plan (runFrom plan w actions), ∀ step ∈ plan.steps,
      step.stepId = c.stepId → ∀ d ∈ step.dependsOn,
        (runFrom plan w actions).state.statusOf d = some .succeeded ∧
        ∀ later, (runFrom plan (action.next plan (runFrom plan w actions)) later).state.statusOf d =
          some .succeeded) ∧
    (∀ id status, (runFrom plan w actions).state.statusOf id = some status →
      (status = .blocked ∨ status = .skipped ∨ status = .cancelled ∨ status = .failed) →
      ∀ later, id ∉ (claimsOf plan (runFrom plan w actions) later).map StepClaim.stepId) := by
  refine ⟨claimsOf_nodup hplan actions w, fun action => (action_sound hplan action _).order, ?_, ?_⟩
  · intro action c hc step hstep hid d _
    have hdeps : d ∈ graph.dependenciesOf c.stepId := by
      rwa [← hid, (PlanGraphValidator.validate_spec hplan).deps step hstep]
    have hnow := (action_sound hplan action _).deps c hc d hdeps
    refine ⟨hnow, fun later => ?_⟩
    have hfinal := (next_advances plan action (runFrom plan w actions)).trans
      (runFrom_advances plan later _)
    exact hfinal.final d .succeeded hnow (Or.inl rfl)
  · intro _ _ hst hbad _ hm
    obtain ⟨c, hc, rfl⟩ := List.mem_map.mp hm
    have hun := unclaimed_of_mem_claimsOf hplan hc
    rw [hst] at hun
    rcases hun with h | h
    · cases h
    · cases h
      simp at hbad

/-! ## A sample run -/

/-- A step that runs on its own or behind `dependsOn`. -/
def sampleStep (stepId : String) (dependsOn : List String) : PlanStep :=
  ⟨stepId, "step", "", dependsOn, "done", "agent", .default, .agent, .internal⟩

def samplePlan (steps : List PlanStep) : Plan :=
  ⟨"plan", 1, "", steps, .epochSecond 0, .deterministic⟩

/-- A running run without steps, an open gate and an unlimited ledger. -/
def sampleWorld : World where
  state := ⟨"run", agentStateSchemaVersion, .running, .epochSecond 1, .epochSecond 1, Dict.empty, ∅,
    none, none, none, none⟩
  binding := none
  gate := ⟨.open, 0, false⟩
  ledger := BudgetLedger.new .unlimited

/-- No ledger is passed, steps are registered at the given time. -/
def sampleEnv (now : DateTime) : ClaimEnv :=
  ⟨fun _ => (now, now), false, "", now, ⟨0, none, now⟩, id⟩

def workerEvent (eventType : StepEventType) (stepId : String) (occurredAt : DateTime)
    (h : (⟨eventType, stepId, occurredAt, none, none⟩ : StepEventData).postInit = .ok ()) :
    Action :=
  .worker (.applyStepEvent ⟨⟨eventType, stepId, occurredAt, none, none⟩, h⟩)

/-- `b` waits for `a`: the first claim gives `a`; once a worker finished it, the second gives
`b`. -/
def chainActions : List Action :=
  [.claimReady 2 (.epochSecond 2) (sampleEnv (.epochSecond 2)),
    workerEvent .succeeded "a" (.epochSecond 3) (by decide),
    .claimReady 2 (.epochSecond 4) (sampleEnv (.epochSecond 4))]

theorem claims_sound_chain :
    ∃ graph, PlanGraphValidator.validate (samplePlan [sampleStep "b" ["a"], sampleStep "a" []]) =
        .ok graph ∧
      ((claimsOf (samplePlan [sampleStep "b" ["a"], sampleStep "a" []]) sampleWorld
        chainActions).map StepClaim.stepId).Nodup ∧
      (claimsOf (samplePlan [sampleStep "b" ["a"], sampleStep "a" []]) sampleWorld
        chainActions).map StepClaim.stepId = ["a", "b"] := by
  have hplan : ∃ graph, PlanGraphValidator.validate
      (samplePlan [sampleStep "b" ["a"], sampleStep "a" []]) = .ok graph := ⟨_, rfl⟩
  obtain ⟨graph, hplan⟩ := hplan
  exact ⟨graph, hplan, (claims_sound hplan sampleWorld chainActions).1, by decide +kernel⟩

/-! ## Parallelism -/

/-- The `max_parallelism` of a claim. -/
def Action.parallelism? : Action → Option ℤ
  | .claimReady k _ _ => some k
  | .claimNext _ _ => some 1
  | _ => none

def planIds (plan : Plan) : List String := plan.steps.map PlanStep.stepId

/-- The plan steps a claim starts, also those of a claim that then fails. -/
def Action.started (plan : Plan) (w : World) (action : Action) : List String :=
  if action.parallelism? = none then []
  else (planIds plan).filter fun id => w.state.statusOf id ≠ some .running ∧
    (action.next plan w).state.statusOf id = some .running

def startedIn (plan : Plan) : World → List Action → List String
  | _, [] => []
  | w, action :: actions => action.started plan w ++ startedIn plan (action.next plan w) actions

/-- The status is RUNNING or WAITING_FOR_APPROVAL. -/
def activeAt (state : AgentState) (id : String) : Bool :=
  state.statusOf id = some .running || state.statusOf id = some .waitingForApproval

def activeClaims (plan : Plan) (w : World) (actions : List Action) : List String :=
  (planIds plan).filter fun id =>
    id ∈ startedIn plan w actions ∧ activeAt (runFrom plan w actions).state id = true

/-- The plan steps a claim could start: pending or not registered, behind succeeded dependencies. -/
def startable (plan : Plan) (state : AgentState) : List String :=
  (plan.steps.filter fun step =>
    (state.statusOf step.stepId = none ∨ state.statusOf step.stepId = some .pending) ∧
      ∀ d ∈ step.dependsOn, state.statusOf d = some .succeeded).map PlanStep.stepId

/-- Approval does not disturb the count of a claim: no plan step waits for approval, or the running
steps leave no slot, or everything startable fits beside all active steps. -/
def Undisturbed (plan : Plan) (k : ℤ) (state : AgentState) : Prop :=
  (∀ id ∈ planIds plan, state.statusOf id ≠ some .waitingForApproval) ∨
    k ≤ runningCount plan state ∨
    ((startable plan state).length : ℤ) + ((planIds plan).filter (activeAt state)).length ≤ k
  deriving Decidable

/-- Every claim of the run asks for `k` and is undisturbed. -/
def UndisturbedRun (plan : Plan) (k : ℤ) : World → List Action → Prop
  | _, [] => True
  | w, action :: actions =>
    (∀ k' ∈ action.parallelism?, k' = k ∧ Undisturbed plan k w.state) ∧
      UndisturbedRun plan k (action.next plan w) actions

instance instDecidableUndisturbedRun (plan : Plan) (k : ℤ) : ∀ (w : World) (actions : List Action),
    Decidable (UndisturbedRun plan k w actions)
  | _, [] => inferInstanceAs (Decidable True)
  | w, action :: actions =>
    have := instDecidableUndisturbedRun plan k (action.next plan w) actions
    inferInstanceAs (Decidable (_ ∧ _))

/-- A claimed set `claimed` is carried along the run: all of it has left PENDING, and at most `k` of
it is active. -/
structure Bounded (plan : Plan) (k : ℤ) (claimed : List String) (s : AgentState) : Prop where
  left : ∀ id ∈ claimed, ∃ status, s.statusOf id = some status ∧ status ≠ .pending
  le : (((planIds plan).filter fun id => id ∈ claimed ∧ activeAt s id = true).length : ℤ) ≤ k

theorem not_active_of_terminal {id : String}
    (hs : s.statusOf id = some status) (ht : status.IsTerminal) : activeAt s id = false := by
  unfold activeAt
  rw [hs]
  rcases ht with rfl | rfl | rfl | rfl | rfl <;> rfl

theorem Advances.active (h : Advances s s') {id : String}
    (hs : s.statusOf id = some status) (hne : status ≠ .pending) (hact : activeAt s' id = true) :
    activeAt s id = true := by
  by_contra hnot
  have ht : status.IsTerminal := by
    unfold activeAt at hnot
    rw [hs] at hnot
    revert hnot hne
    cases status <;> simp [StepStatus.IsTerminal]
  rw [not_active_of_terminal (h.final id status hs ht) ht] at hact
  cases hact

theorem Advances.left_mem (h : Advances s s')
    (hl : ∀ id ∈ claimed, ∃ status, s.statusOf id = some status ∧ status ≠ .pending) :
    ∀ id ∈ claimed, ∃ status, s'.statusOf id = some status ∧ status ≠ .pending := by
  intro id hid
  obtain ⟨status, hst, hne⟩ := hl id hid
  exact h.left id status hst hne

/-- The bound of active steps in every later state. -/
theorem Bounded.advance
    (hb : Bounded plan k claimed s) (h : Advances s s') : Bounded plan k claimed s' := by
  refine ⟨h.left_mem hb.left, le_trans ?_ hb.le⟩
  have hsub : ((planIds plan).filter fun id => id ∈ claimed ∧ activeAt s' id = true).Sublist
      ((planIds plan).filter fun id => id ∈ claimed ∧ activeAt s id = true) := by
    refine List.monotone_filter_right _ fun id hid => ?_
    simp only [decide_eq_true_eq] at hid ⊢
    obtain ⟨_, hst, hne⟩ := hb.left id hid.1
    exact ⟨hid.1, h.active hst hne hid.2⟩
  exact_mod_cast hsub.length_le

theorem Quiet.running_iff (h : Quiet s s') (id : String) :
    s'.statusOf id = some .running ↔ s.statusOf id = some .running := by
  rcases h.step id with heq | ⟨hold, hnew⟩
  · rw [heq]
  · constructor
    · intro hr
      rw [hr] at hnew
      rcases hnew with h | h <;> cases h
    · intro hr
      rw [hr] at hold
      rcases hold with h | h <;> cases h

theorem Quiet.runningCount (h : Quiet s s') (plan : Plan) :
    runningCount plan s' = runningCount plan s := by
  unfold SerialScheduler.runningCount
  congr 1
  refine List.filter_congr fun id _ => ?_
  rw [decide_eq_decide]
  exact h.running_iff id

variable {started : List String}

theorem ClaimOutcome.mem_started
    (h : ClaimOutcome plan k s s' started) {id : String} (hold : s.statusOf id ≠ some .running)
    (hnew : s'.statusOf id = some .running) : id ∈ started := by
  obtain ⟨_, hq, hs, -⟩ := h.phases
  rcases hs id with heq | ⟨hm, -, -⟩
  · exact absurd ((hq.running_iff id).mp (heq ▸ hnew)) hold
  · exact hm

theorem started_subset_startable {mid : AgentState}
(hplan : PlanGraphValidator.validate plan = .ok graph)
    (hsub : started.Sublist graph.topologicalOrder) (hready : ∀ id ∈ started, ReadyAt graph mid id)
    (hq : Quiet s mid) : ∀ id ∈ started, id ∈ startable plan s := by
  intro id hid
  have hspec := PlanGraphValidator.validate_spec hplan
  have hmem : id ∈ plan.steps.map PlanStep.stepId := by
    rw [← hspec.stepIds]
    exact hspec.perm.subset (hsub.subset hid)
  obtain ⟨step, hstep, rfl⟩ := List.mem_map.mp hmem
  refine List.mem_map_of_mem (List.mem_filter.mpr ⟨hstep, ?_⟩)
  obtain ⟨hpend, hdeps⟩ := hready _ hid
  rw [hspec.deps step hstep] at hdeps
  simp only [decide_eq_true_eq]
  exact ⟨hq.pending hpend, fun d hd => hq.succeeded (hdeps d hd)⟩

/-- A claim of `k` from an undisturbed state keeps the bound, for what was claimed before and what it
starts itself. -/
theorem Bounded.claim (hplan : PlanGraphValidator.validate plan = .ok graph) {new : List String}
(hb : Bounded plan k claimed s)
    (hadv : Advances s s') (hout : ClaimOutcome plan k s s' started) (hund : Undisturbed plan k s)
    (hnew : ∀ id ∈ new, s.statusOf id ≠ some .running ∧ s'.statusOf id = some .running) :
    Bounded plan k (claimed ++ new) s' := by
  have hspec := PlanGraphValidator.validate_spec hplan
  have hnd : (planIds plan).Nodup := by
    have := hspec.nodup
    rwa [hspec.stepIds] at this
  have hstarted : ∀ id ∈ new, id ∈ started :=
    fun id hid => hout.mem_started (hnew id hid).1 (hnew id hid).2
  refine ⟨fun id hid => ?_, ?_⟩
  · rcases List.mem_append.mp hid with hid | hid
    · exact hadv.left_mem hb.left id hid
    · exact ⟨.running, (hnew id hid).2, by decide⟩
  -- whoever is active afterwards was claimed and active before, or is started now
  have hsubset : ∀ id ∈ (planIds plan).filter
      (fun id => id ∈ claimed ++ new ∧ activeAt s' id = true),
      id ∈ (planIds plan).filter (fun id => id ∈ claimed ∧ activeAt s id = true) ++ started := by
    intro id hid
    obtain ⟨hplanid, hid⟩ := List.mem_filter.mp hid
    simp only [decide_eq_true_eq] at hid
    rcases List.mem_append.mp hid.1 with hm | hm
    · obtain ⟨_, hst, hne⟩ := hb.left id hm
      refine List.mem_append_left _ (List.mem_filter.mpr ⟨hplanid, ?_⟩)
      simp only [decide_eq_true_eq]
      exact ⟨hm, hadv.active hst hne hid.2⟩
    · exact List.mem_append_right _ (hstarted id hm)
  have hlen := ((hnd.filter _).subperm hsubset).length_le
  rw [List.length_append] at hlen
  have hold := hb.le
  obtain ⟨_, hq, -, hstart⟩ := hout.phases
  by_cases hempty : started = []
  · rw [hempty, List.length_nil] at hlen
    omega
  obtain ⟨_, hgraph, hsub, hready, hfits⟩ := hstart hempty
  cases hgraph.symm.trans hplan
  rw [hq.runningCount] at hfits
  have hpos : 0 < started.length := List.length_pos_iff.mpr hempty
  rcases hund with hnone | hfull | hroom
  · -- without waiting steps, active means running, and running steps are counted
    have hrunning : ((planIds plan).filter fun id => id ∈ claimed ∧ activeAt s id = true).length ≤
        runningCount plan s := by
      refine List.Subperm.length_le ((hnd.filter _).subperm fun id hid => ?_)
      obtain ⟨hplanid, hid⟩ := List.mem_filter.mp hid
      simp only [decide_eq_true_eq] at hid
      refine List.mem_filter.mpr ⟨hplanid, ?_⟩
      have hact := hid.2
      unfold activeAt at hact
      simpa [hnone id hplanid] using hact
    omega
  · omega
  · have hactive : ((planIds plan).filter fun id => id ∈ claimed ∧ activeAt s id = true).length ≤
        ((planIds plan).filter (activeAt s)).length := by
      refine List.Sublist.length_le (List.monotone_filter_right _ fun id hid => ?_)
      simp only [decide_eq_true_eq] at hid
      exact hid.2
    have hle := ((hspec.perm.nodup_iff.mpr hspec.nodup).sublist hsub |>.subperm
      (started_subset_startable hplan hsub hready hq)).length_le
    omega

theorem started_spec {id : String}
    (h : id ∈ action.started plan w) : w.state.statusOf id ≠ some .running ∧
      (action.next plan w).state.statusOf id = some .running := by
  unfold Action.started at h
  split_ifs at h
  · cases h
  · simpa using (List.mem_filter.mp h).2

theorem Bounded.next (hplan : PlanGraphValidator.validate plan = .ok graph)
(hb : Bounded plan k claimed w.state)
    (hact : ∀ k' ∈ action.parallelism?, k' = k ∧ Undisturbed plan k w.state) :
    Bounded plan k (claimed ++ action.started plan w) (action.next plan w).state := by
  have hadv := next_advances plan action w
  have hclaim : ∀ {k' : ℤ} {started : List String}, action.parallelism? = some k' →
      ClaimOutcome plan k' w.state (action.next plan w).state started →
      Bounded plan k (claimed ++ action.started plan w) (action.next plan w).state := by
    intro k' started hk' hout
    obtain ⟨rfl, hund⟩ := hact k' hk'
    exact hb.claim hplan hadv hout hund fun id hid => started_spec hid
  have hquiet : action.parallelism? = none →
      Bounded plan k (claimed ++ action.started plan w) (action.next plan w).state := by
    intro hnone
    rw [show action.started plan w = [] from if_pos hnone, List.append_nil]
    exact hb.advance hadv
  cases action with
  | claimReady k' occurredAt env =>
    obtain ⟨started, hout, -⟩ := claimReady_spec plan k' occurredAt env w
    exact hclaim rfl hout
  | claimNext occurredAt env =>
    obtain ⟨_, hout, -⟩ :=
      claimReady_spec plan 1 occurredAt { env with useLedger := false } w
    rw [← after_claimNext] at hout
    exact hclaim rfl hout
  | prepare | evaluate | worker | outside => exact hquiet rfl

theorem run_bounded (hplan : PlanGraphValidator.validate plan = .ok graph)
(hb : Bounded plan k claimed w.state) (hrun : UndisturbedRun plan k w actions) :
    Bounded plan k (claimed ++ startedIn plan w actions) (runFrom plan w actions).state := by
  induction actions generalizing claimed w with
  | nil =>
    rwa [startedIn, List.append_nil]
  | cons _ _ ih =>
    have hstep := ih (hb.next hplan hrun.1) hrun.2
    rwa [List.append_assoc] at hstep

/-- **Bounded parallelism.**  In every run whose claims all ask for `k` and are undisturbed by steps
waiting for approval, at most `k` claimed plan steps are active at any time. -/
theorem active_claims_le {plan : Plan} {graph : PlanGraph}
    (hplan : PlanGraphValidator.validate plan = .ok graph) {k : ℤ} (hk : 0 < k) (w : World)
    (actions : List Action) (hrun : UndisturbedRun plan k w actions) :
    ((activeClaims plan w actions).length : ℤ) ≤ k := by
  have hstart : Bounded plan k [] w.state := ⟨by simp, by simpa using hk.le⟩
  have hend := (run_bounded hplan hstart hrun).le
  rwa [List.nil_append] at hend

/-- In the chain the claims of two are undisturbed. -/
theorem active_claims_le_chain :
    ∃ graph, PlanGraphValidator.validate (samplePlan [sampleStep "b" ["a"], sampleStep "a" []]) =
        .ok graph ∧
      UndisturbedRun (samplePlan [sampleStep "b" ["a"], sampleStep "a" []]) 2 sampleWorld
        chainActions ∧
      ((activeClaims (samplePlan [sampleStep "b" ["a"], sampleStep "a" []]) sampleWorld
        chainActions).length : ℤ) ≤ 2 := by
  have hplan : ∃ graph, PlanGraphValidator.validate
      (samplePlan [sampleStep "b" ["a"], sampleStep "a" []]) = .ok graph := ⟨_, rfl⟩
  obtain ⟨graph, hplan⟩ := hplan
  have hrun : UndisturbedRun (samplePlan [sampleStep "b" ["a"], sampleStep "a" []]) 2 sampleWorld
      chainActions := by decide +kernel
  exact ⟨graph, hplan, hrun, active_claims_le hplan (by decide) sampleWorld chainActions hrun⟩

def parked : Action := workerEvent .approvalRequested "a" (.epochSecond 3) (by decide)

/-- `a` is claimed and parked on approval; the next claim of one takes `b` as well. -/
def parkedActions : List Action :=
  [.claimReady 1 (.epochSecond 2) (sampleEnv (.epochSecond 2)),
    parked, .claimReady 1 (.epochSecond 4) (sampleEnv (.epochSecond 4))]

/-- A step waiting for approval is not counted as running: both independent steps are claimed with
`max_parallelism = 1` and are active together. -/
theorem parked_claims_exceed :
    (claimsOf (samplePlan [sampleStep "a" [], sampleStep "b" []]) sampleWorld
      parkedActions).map StepClaim.stepId = ["a", "b"] ∧
    (runFrom (samplePlan [sampleStep "a" [], sampleStep "b" []]) sampleWorld
      parkedActions).state.activeStepIds = {"a", "b"} ∧
    ¬ ((activeClaims (samplePlan [sampleStep "a" [], sampleStep "b" []]) sampleWorld
      parkedActions).length : ℤ) ≤ 1 := by
  -- one evaluation of the run for all three parts
  decide +kernel

end SerialScheduler

end LocalAgent.Runtime
