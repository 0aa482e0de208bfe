import LocalAgent.Runtime.StateRuns

/-!
# LocalAgent.Runtime.StateClock — `updated_at` along a history

Events are guarded by `_guard_event_time`; a registration writes the reading of the wall clock.
`after_updatedAt` is what a call can do to `updated_at`, `Behind` the registration that moves it
backwards, and `neverBack_iff` says that nothing else does.

* `registered_valid`, `registerable_ok`: when a registration is taken.
* `run_updatedAt_iff`: `updated_at` and the accepted events are in order exactly along the
  histories without such a registration.
-/

namespace LocalAgent.Runtime

namespace AgentStateMachine

/-! ## Registrations -/

/-- What `_register_step_locked` asks for, beyond the status of the run. -/
structure Registerable (state : AgentState) (stepId name : String) (stepNow touchNow : DateTime) :
    Prop where
  valid : state.Valid
  fresh : stepId ∉ state.steps.keys
  stepId_ne : stepId ≠ ""
  name_ne : name ≠ ""
  stepNow_utc : stepNow.IsUtc
  touchNow_utc : touchNow.IsUtc
  created : ¬ touchNow < state.createdAt

variable {state s' : AgentState} {stepId name : String} {stepNow touchNow : DateTime}

/-- A registration within its conditions leaves a valid state. -/
theorem registered_valid (hrun : ¬ state.status.IsTerminal)
    (h : Registerable state stepId name stepNow touchNow) :
    (registered state stepId name stepNow touchNow).Valid := by
  have hv := h.valid
  refine ⟨hv.version, hv.runId_ne, hv.created, h.touchNow_utc, h.created, hv.nonterminal,
    fun ht => absurd ht hrun, hv.succeeded, hv.cancelled, hv.failed, fun other step hget => ?_,
    fun other => ?_⟩
  · by_cases hid : other = stepId
    · subst hid
      obtain rfl : StepState.new other name stepNow = step := by simpa [registered] using hget
      exact ⟨rfl, StepState.valid_new h.stepId_ne h.name_ne h.stepNow_utc⟩
    · exact hv.step other step (by simpa [registered, hid] using hget)
  · show other ∈ state.activeStepIds ↔ _
    by_cases hid : other = stepId
    · subst hid
      rw [hv.active, Dict.get?_eq_none_iff.mpr h.fresh]
      simp [registered, StepState.new, StepStatus.IsActive]
    · rw [hv.active]
      simp [registered, hid]

theorem registerStep_ok (hrun : ¬ state.status.IsTerminal)
    (h : Registerable state stepId name stepNow touchNow) :
    registerStep state stepId name stepNow touchNow =
      .ok (registered state stepId name stepNow touchNow) := by
  have hcheck := AgentState.validate_eq_ok_iff.mpr (registered_valid hrun h)
  have hfresh : stepId ∉ state.steps.sorted.keys := by
    rw [Dict.mem_keys_sorted]
    exact h.fresh
  unfold registerStep
  rw [AgentState.clone_eq h.valid, ok_bind]
  unfold AgentState.addStep
  rw [raiseIf_ok.mpr hfresh, ok_bind]
  show ((registered state stepId name stepNow touchNow).validate >>= _) = _
  rw [hcheck, ok_bind]
  rfl

/-- A registration whose clock reading is behind `updated_at`, in a state that takes it. -/
def Call.Behind (state : AgentState) : Call → Prop
  | .addStep stepId name stepNow touchNow =>
    state.status = .running ∧ Registerable state stepId name stepNow touchNow ∧
      touchNow < state.updatedAt
  | .registerPlanStep stepId name stepNow touchNow =>
    (state.status = .created ∨ state.status = .running) ∧
      Registerable state stepId name stepNow touchNow ∧ touchNow < state.updatedAt
  | .applyRunEvent _ | .applyStepEvent _ => False

def Call.occurredAt : Call → Option DateTime
  | .addStep .. | .registerPlanStep .. => none
  | .applyRunEvent event => some event.occurredAt
  | .applyStepEvent event => some event.occurredAt

theorem registerable_of_valid (hv : state.Valid) (hfresh : stepId ∉ state.steps.keys)
    (hval : (registered state stepId name stepNow touchNow).Valid) :
    Registerable state stepId name stepNow touchNow := by
  have hnew : (registered state stepId name stepNow touchNow).steps.get? stepId =
      some (StepState.new stepId name stepNow) := by
    simp [registered]
  have hstep : (StepState.new stepId name stepNow).Valid := (hval.step _ _ hnew).2
  exact ⟨hv, hfresh, hstep.stepId_ne, hstep.name_ne, hstep.created, hval.updated,
    hval.updated_created⟩

/-! ## One call -/

theorem runApplied_updatedAt (state : AgentState) (event : RunStateEvent) (target : RunStatus) :
    (runApplied state event target).updatedAt = event.occurredAt := by
  unfold runApplied writeRunEvent
  split <;> rfl

variable {call : Call}

theorem event_updatedAt {time : DateTime} (htime : call.occurredAt = some time)
    (h : call.op state = .ok () s') : s'.updatedAt = time ∧ ¬ time < state.updatedAt := by
  have hc := candidate_of_ok call h
  cases call with
  | addStep | registerPlanStep => cases htime
  | applyRunEvent event =>
    cases htime
    obtain ⟨-, -, target, -, hlate, -, rfl, -⟩ := runCandidate_eq_ok hc
    exact ⟨runApplied_updatedAt state event target, hlate⟩
  | applyStepEvent =>
    cases htime
    obtain ⟨-, -, _, _, -, -, -, hguard, rfl, -⟩ := stepCandidate_eq_ok hc
    simp only [guardStepEvent, guardEventTime, seq_eq_ok, raiseIf_ok] at hguard
    exact ⟨rfl, hguard.1⟩

/-- The clock goes back exactly on a call that is behind it. -/
theorem updatedAt_lt_iff (h : call.op state = .ok () s') :
    s'.updatedAt < state.updatedAt ↔ call.Behind state := by
  have hc := candidate_of_ok call h
  cases call with
  | addStep =>
    obtain ⟨hv, hrun, hfresh, rfl, hval⟩ := addStepCandidate_eq_ok hc
    exact ⟨fun hlt => ⟨hrun, registerable_of_valid hv hfresh hval, hlt⟩, fun hb => hb.2.2⟩
  | registerPlanStep =>
    obtain ⟨hv, hrun, hfresh, rfl, hval⟩ := registerPlanStepCandidate_eq_ok hc
    exact ⟨fun hlt => ⟨AgentState.not_isTerminal_iff.mp hrun,
      registerable_of_valid hv hfresh hval, hlt⟩, fun hb => hb.2.2⟩
  | applyRunEvent | applyStepEvent =>
    obtain ⟨htime, hlate⟩ := event_updatedAt rfl h
    rw [htime]
    exact ⟨fun hlt => absurd hlt hlate, False.elim⟩

theorem Call.Behind.ok (h : call.Behind state) : ∃ s', call.op state = .ok () s' := by
  suffices hc : ∃ s', call.candidate state = .ok s' by
    obtain ⟨s', hc⟩ := hc
    exact ⟨s', by rw [call_apply, hc]⟩
  cases call with
  | addStep stepId name stepNow touchNow =>
    obtain ⟨hrun, hreg, -⟩ := h
    refine ⟨registered state stepId name stepNow touchNow, ?_⟩
    show addStepCandidate stepId name stepNow touchNow state = _
    unfold addStepCandidate
    rw [AgentState.validate_eq_ok_iff.mpr hreg.valid, ok_bind, raiseIf_ok.mpr (not_not.mpr hrun),
      ok_bind, registerStep_ok (AgentState.not_isTerminal_iff.mpr (.inr hrun)) hreg]
  | registerPlanStep stepId name stepNow touchNow =>
    obtain ⟨hrun, hreg, -⟩ := h
    refine ⟨registered state stepId name stepNow touchNow, ?_⟩
    show registerPlanStepCandidate stepId name stepNow touchNow state = _
    unfold registerPlanStepCandidate
    rw [AgentState.validate_eq_ok_iff.mpr hreg.valid, ok_bind, raiseIf_ok.mpr (not_not.mpr hrun),
      ok_bind, registerStep_ok (AgentState.not_isTerminal_iff.mpr hrun) hreg]
  | applyRunEvent | applyStepEvent => exact h.elim

/-! ## Histories -/

/-- No accepted call of the history moves `updated_at` backwards. -/
def NeverBack (state : AgentState) (calls : List Call) : Prop :=
  ∀ (pre : List Call) call (post : List Call) s', calls = pre ++ call :: post →
    call.op (run state pre) = .ok () s' →
    ¬ s'.updatedAt < (run state pre).updatedAt

/-- An event accepted after another never carries an earlier time. -/
def EventsInOrder (state : AgentState) (calls : List Call) : Prop :=
  ∀ (pre : List Call) first (mid : List Call) second (post : List Call) firstAt secondAt s' s'',
    calls = pre ++ first :: mid ++ second :: post →
    first.occurredAt = some firstAt → first.op (run state pre) = .ok () s' →
    second.occurredAt = some secondAt → second.op (run state (pre ++ first :: mid)) = .ok () s'' →
    ¬ secondAt < firstAt

/-- No registration of the history is taken with its clock reading behind `updated_at`. -/
def ClockNotBehind (state : AgentState) (calls : List Call) : Prop :=
  ∀ (pre : List Call) call (post : List Call), calls = pre ++ call :: post →
    ¬ call.Behind (run state pre)

theorem run_append (state : AgentState) (calls later : List Call) :
    run state (calls ++ later) = run (run state calls) later := List.foldl_append

theorem neverBack_iff (state : AgentState) (calls : List Call) :
    NeverBack state calls ↔ ClockNotBehind state calls := by
  constructor
  · intro h pre call post hsplit hbehind
    obtain ⟨s', hok⟩ := hbehind.ok
    exact h pre call post s' hsplit hok ((updatedAt_lt_iff hok).mpr hbehind)
  · intro h pre call post _ hsplit hok hlt
    exact h pre call post hsplit ((updatedAt_lt_iff hok).mp hlt)

variable {calls : List Call}

theorem NeverBack.after (h : NeverBack state (call :: calls)) :
    NeverBack (run state [call]) calls := by
  intro pre next post s' hsplit hok
  have hrun : run (run state [call]) pre = run state (call :: pre) := rfl
  rw [hrun] at hok ⊢
  exact h (call :: pre) next post s' (by rw [hsplit]; rfl) hok

/-- Without such a call no history moves the clock back. -/
theorem NeverBack.updatedAt (h : NeverBack state calls) :
    ¬ (run state calls).updatedAt < state.updatedAt := by
  induction calls generalizing state with
  | nil => exact lt_irrefl state.updatedAt.ticks
  | cons call calls ih =>
    have hrest : ¬ (run (run state [call]) calls).updatedAt < (run state [call]).updatedAt :=
      ih h.after
    have hone : ¬ (run state [call]).updatedAt < state.updatedAt := by
      cases hcall : call.op state with
      | ok _ next =>
        have hnext : run state [call] = next := Op.after_ok hcall
        rw [hnext]
        exact h [] call calls next rfl hcall
      | error =>
        have hnext : run state [call] = state :=
          (Op.after_error hcall).trans (call_error call hcall)
        rw [hnext]
        exact lt_irrefl state.updatedAt.ticks
    have hrun : run state (call :: calls) = run (run state [call]) calls := rfl
    rw [hrun]
    rw [DateTime.lt_iff] at hrest hone ⊢
    omega

variable {later : List Call}

theorem NeverBack.take (h : NeverBack state (calls ++ later)) : NeverBack state calls := by
  intro pre call post s' hsplit hok
  exact h pre call (post ++ later) s' (by rw [hsplit, List.append_assoc]; rfl) hok

theorem NeverBack.drop (h : NeverBack state (calls ++ later)) :
    NeverBack (run state calls) later := by
  intro pre call post s' hsplit hok
  rw [← run_append] at hok ⊢
  exact h (calls ++ pre) call post s' (by rw [hsplit, List.append_assoc]) hok

/-- Without such a call the events are in the order of their times. -/
theorem NeverBack.eventsInOrder (h : NeverBack state calls) : EventsInOrder state calls := by
  intro pre first mid second post _ _ s' _ hsplit hfirst hok hsecond hok'
  obtain ⟨hs', -⟩ := event_updatedAt hfirst hok
  obtain ⟨-, hlate⟩ := event_updatedAt hsecond hok'
  have hafter : run state (pre ++ [first]) = s' := by
    rw [run_append]
    exact Op.after_ok hok
  have hcut : calls = (pre ++ [first]) ++ (mid ++ second :: post) := by
    rw [hsplit]
    simp
  have hmid : ¬ (run s' mid).updatedAt < s'.updatedAt := by
    rw [hcut] at h
    have hdrop := h.drop.take.updatedAt
    rwa [hafter] at hdrop
  have hrun : run state (pre ++ first :: mid) = run s' mid := by
    rw [← hafter, ← run_append]
    simp
  rw [hrun] at hlate
  rw [hs'] at hmid
  rw [DateTime.lt_iff] at hmid hlate ⊢
  omega

/-- **Monotone time.**  `updated_at` never moves backwards and the accepted events are in order
exactly when no registration is taken with its clock reading behind `updated_at`. -/
theorem run_updatedAt_iff (state : AgentState) (calls : List Call) :
    (NeverBack state calls ∧ EventsInOrder state calls) ↔ ClockNotBehind state calls := by
  rw [← neverBack_iff]
  exact ⟨And.left, fun h => ⟨h, h.eventsInOrder⟩⟩

/-- A run that starts with an event ahead of the clock, gets a step, and starts it. -/
def aheadCalls : List Call :=
  [.applyRunEvent ⟨⟨.started, .epochSecond 30, none, none, none, none⟩, by decide⟩,
    .addStep "a" "A" (.epochSecond 10) (.epochSecond 10),
    .applyStepEvent ⟨⟨.started, "a", .epochSecond 20, none, none⟩, by decide⟩]

/-- The fresh state of that run. -/
def aheadState : AgentState :=
  ⟨"run", 1, .created, .epochSecond 1, .epochSecond 1, .empty, ∅, none, none, none, none⟩

theorem op_of_isOk (h : (call.candidate state).isOk = true) :
    call.op state = .ok () (Op.after call.op state) := by
  cases hc : call.candidate state with
  | error =>
    rw [hc] at h
    cases h
  | ok c =>
    have hop : call.op state = .ok () c := by rw [call_apply, hc]
    rw [Op.after_ok hop, hop]

theorem aheadCalls_back :
    ¬ NeverBack aheadState aheadCalls ∧ ¬ EventsInOrder aheadState aheadCalls := by
  constructor
  · intro h
    exact h (aheadCalls.take 1) _ (aheadCalls.drop 2) _ rfl (op_of_isOk (by decide +kernel))
      (by decide +kernel)
  · intro h
    exact h [] _ ((aheadCalls.drop 1).take 1) _ [] _ _ _ _ rfl rfl
      (op_of_isOk (by decide +kernel)) rfl (op_of_isOk (by decide +kernel)) (by decide +kernel)

end AgentStateMachine

end LocalAgent.Runtime
