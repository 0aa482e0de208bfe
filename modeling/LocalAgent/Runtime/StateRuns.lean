import LocalAgent.Runtime.StateMachine

/-!
# LocalAgent.Runtime.StateRuns — histories of one `AgentState`

A history is a list of calls on the machine, each accepted or rejected.  `Moved` is everything an
accepted call can do to the state; a rejected call does nothing (`call_apply`).  Every fact about
histories is read off `Moved`:

* `call_valid`, `run_valid`: the state always passes its own `validate`;
* `run_of_terminal`, `run_get?_of_terminal`: terminal runs and terminal steps are frozen;
* `stepApplied_frame`, `runApplied_frame`: what an accepted event leaves alone;
* `Cancels.apply`: a valid state takes the cancellation of an active step.
-/

namespace LocalAgent.Runtime

namespace AgentStateMachine

/-- One call on the machine, with the clock readings the call makes. -/
inductive Call where
  | addStep (stepId name : String) (stepNow touchNow : DateTime)
  | registerPlanStep (stepId name : String) (stepNow touchNow : DateTime)
  | applyRunEvent (event : RunStateEvent)
  | applyStepEvent (event : StepStateEvent)

def Call.candidate : Call → AgentState → Except StateError AgentState
  | .addStep stepId name stepNow touchNow => addStepCandidate stepId name stepNow touchNow
  | .registerPlanStep stepId name stepNow touchNow =>
    registerPlanStepCandidate stepId name stepNow touchNow
  | .applyRunEvent event => runCandidate event
  | .applyStepEvent event => stepCandidate event

def Call.op : Call → StateOp Unit
  | .addStep stepId name stepNow touchNow =>
    AgentStateMachine.addStep stepId name stepNow touchNow
  | .registerPlanStep stepId name stepNow touchNow =>
    AgentStateMachine.registerPlanStep stepId name stepNow touchNow
  | .applyRunEvent event => AgentStateMachine.applyRunEvent event
  | .applyStepEvent event => AgentStateMachine.applyStepEvent event

theorem Call.op_eq (call : Call) : call.op = transact call.candidate := by
  cases call <;> rfl

def run (state : AgentState) (calls : List Call) : AgentState :=
  calls.foldl (fun s call => Op.after call.op s) state

/-! ## One call -/

/-- What an accepted call does. -/
inductive Moved (state : AgentState) : AgentState → Prop where
  | register {stepId name : String} {stepNow touchNow : DateTime}
      (nonterminal : ¬ state.status.IsTerminal) (fresh : stepId ∉ state.steps.keys) :
      Moved state (registered state stepId name stepNow touchNow)
  | runEvent {event : RunStateEvent} {target : RunStatus}
      (nonterminal : ¬ state.status.IsTerminal)
      (table : runTransitions state.status event.eventType = some target)
      (time : ¬ event.occurredAt < state.updatedAt)
      (idle : target.IsTerminal → state.activeStepIds = ∅) :
      Moved state (runApplied state event target)
  | stepEvent {event : StepStateEvent} {step : StepState} {target : StepStatus}
      (nonterminal : ¬ state.status.IsTerminal)
      (found : state.steps.get? event.stepId = some step)
      (live : ¬ step.status.IsTerminal)
      (table : stepTransitions step.status event.eventType = some target)
      (guard : guardStepEvent state event step = .ok ()) :
      Moved state (stepApplied state event step target)

/-- What is written is checked before it is. -/
theorem candidate_moved {call : Call} {state c : AgentState} (h : call.candidate state = .ok c) :
    Moved state c ∧ c.Valid := by
  cases call with
  | addStep =>
    obtain ⟨-, hrun, hfresh, rfl, hv⟩ := addStepCandidate_eq_ok h
    exact ⟨.register (AgentState.not_isTerminal_iff.mpr (Or.inr hrun)) hfresh, hv⟩
  | registerPlanStep =>
    obtain ⟨-, hterm, hfresh, rfl, hv⟩ := registerPlanStepCandidate_eq_ok h
    exact ⟨.register hterm hfresh, hv⟩
  | applyRunEvent =>
    obtain ⟨-, hterm, target, ht, htime, hidle, rfl, hv⟩ := runCandidate_eq_ok h
    exact ⟨.runEvent hterm ht htime hidle, hv⟩
  | applyStepEvent =>
    obtain ⟨-, hterm, _, _, hs, hst, ht, hg, rfl, hv⟩ := stepCandidate_eq_ok h
    exact ⟨.stepEvent hterm hs hst ht hg, hv⟩

theorem runApplied_runId (state : AgentState) (event : RunStateEvent) (target : RunStatus) :
    (runApplied state event target).runId = state.runId := by
  unfold runApplied writeRunEvent
  split <;> rfl

variable {s' : AgentState}

theorem Moved.runId {state : AgentState} (h : Moved state s') : s'.runId = state.runId := by
  cases h with
  | register => rfl
  | runEvent => exact runApplied_runId _ _ _
  | stepEvent => rfl

theorem call_apply (call : Call) (state : AgentState) :
    call.op state =
      match call.candidate state with
      | .ok c => .ok () c
      | .error e => .error e state := by
  rw [call.op_eq]
  refine transact_apply fun c hc => ?_
  obtain ⟨hm, hv⟩ := candidate_moved hc
  exact ⟨hv, hm.runId⟩

theorem candidate_of_ok (call : Call) {state : AgentState} (h : call.op state = .ok () s') :
    call.candidate state = .ok s' := by
  rw [call_apply] at h
  cases hc : call.candidate state with
  | error => simp [hc] at h
  | ok =>
    simp only [hc, EStateM.Result.ok.injEq, true_and] at h
    rw [h]

theorem call_ok (call : Call) {state : AgentState} (h : call.op state = .ok () s') :
    Moved state s' ∧ s'.Valid :=
  candidate_moved (candidate_of_ok call h)

theorem addStep_ok {state : AgentState} {stepId name : String} {stepNow touchNow : DateTime}
    (h : addStep stepId name stepNow touchNow state = .ok () s') :
    stepId ∉ state.steps.keys ∧ s' = registered state stepId name stepNow touchNow ∧ s'.Valid := by
  obtain ⟨-, -, hfresh, heq, hv⟩ := addStepCandidate_eq_ok
    (candidate_of_ok (.addStep stepId name stepNow touchNow) h)
  exact ⟨hfresh, heq, hv⟩

theorem applyStepEvent_ok {state : AgentState} {event : StepStateEvent}
    (h : applyStepEvent event state = .ok () s') :
    ∃ step target, state.steps.get? event.stepId = some step ∧
      stepTransitions step.status event.eventType = some target ∧
      guardStepEvent state event step = .ok () ∧
      s' = stepApplied state event step target ∧ s'.Valid := by
  obtain ⟨-, -, step, target, hs, -, ht, hg, heq, hv⟩ := stepCandidate_eq_ok
    (candidate_of_ok (.applyStepEvent event) h)
  exact ⟨step, target, hs, ht, hg, heq, hv⟩

theorem call_error (call : Call) {state : AgentState} {e : StateError}
    (h : call.op state = .error e s') : s' = state := by
  rw [call_apply] at h
  cases hc : call.candidate state with
  | error =>
    simp only [hc, EStateM.Result.error.injEq] at h
    exact h.2.symm
  | ok => simp [hc] at h

/-- A call leaves the state as it is or moves it to a valid one. -/
theorem after_call (call : Call) (state : AgentState) :
    Op.after call.op state = state ∨
      (Moved state (Op.after call.op state) ∧ (Op.after call.op state).Valid) := by
  cases h : call.op state with
  | ok =>
    rw [Op.after_ok h]
    exact Or.inr (call_ok call h)
  | error =>
    rw [Op.after_error h]
    exact Or.inl (call_error call h)

theorem call_valid (call : Call) {state : AgentState} (hv : state.Valid) :
    (Op.after call.op state).Valid := by
  rcases after_call call state with h | ⟨-, h⟩
  · rwa [h]
  · exact h

/-! ## What accepted moves leave alone -/

theorem Moved.nonterminal {state : AgentState} (h : Moved state s') :
    ¬ state.status.IsTerminal := by
  cases h <;> assumption

@[simp] theorem runApplied_steps (state : AgentState) (event : RunStateEvent)
    (target : RunStatus) : (runApplied state event target).steps = state.steps.sorted := by
  unfold runApplied writeRunEvent
  split <;> rfl

/-- A step is moved along the transition table only. -/
theorem Moved.get? {state s' : AgentState} (h : Moved state s') {stepId : String}
    {step : StepState} (hs : state.steps.get? stepId = some step) :
    s'.steps.get? stepId = some step ∨
      ∃ (event : StepStateEvent) (target : StepStatus), event.stepId = stepId ∧
        stepTransitions step.status event.eventType = some target ∧
        guardStepEvent state event step = .ok () ∧
        s'.steps.get? stepId = some (writeStepEvent step event target) := by
  cases h with
  | @register newId name stepNow touchNow _ hfresh =>
    have hne : stepId ≠ newId := by
      rintro rfl
      exact hfresh (Dict.mem_keys_iff.mpr ⟨step, hs⟩)
    exact Or.inl (by simp [registered, hne, hs])
  | runEvent => exact Or.inl (by simpa using hs)
  | @stepEvent event old target _ hfound _ htable hguard =>
    by_cases hid : event.stepId = stepId
    · subst hid
      cases hfound.symm.trans hs
      exact Or.inr ⟨event, target, rfl, htable, hguard, by simp [stepApplied]⟩
    · exact Or.inl (by simp [stepApplied, Ne.symm hid, hs])

theorem stepTransitions_of_isTerminal {status : StepStatus} (h : status.IsTerminal)
    (event : StepEventType) : stepTransitions status event = none := by
  rcases h with rfl | rfl | rfl | rfl | rfl <;> rfl

theorem after_get?_of_terminal (call : Call) {state : AgentState} {stepId : String}
    {step : StepState} (hs : state.steps.get? stepId = some step) (ht : step.status.IsTerminal) :
    (Op.after call.op state).steps.get? stepId = some step := by
  rcases after_call call state with h | ⟨hm, -⟩
  · rwa [h]
  · rcases hm.get? hs with h | ⟨_, _, -, htable, -⟩
    · exact h
    · rw [stepTransitions_of_isTerminal ht] at htable
      cases htable

theorem after_of_terminal (call : Call) {state : AgentState} (ht : state.status.IsTerminal) :
    Op.after call.op state = state := by
  rcases after_call call state with h | ⟨hm, -⟩
  · exact h
  · exact absurd ht hm.nonterminal

theorem stepTransitions_ne_pending {status target : StepStatus} {event : StepEventType}
    (h : stepTransitions status event = some target) : target ≠ .pending := by
  rintro rfl
  revert h
  cases status <;> cases event <;> nofun

theorem writeStepEvent_status (step : StepState) (event : StepStateEvent) (target : StepStatus) :
    (writeStepEvent step event target).status = target := by
  unfold writeStepEvent
  split <;> rfl

/-- What calls keep: steps that have begun, terminal steps as they are, and validity. -/
structure Kept (state s' : AgentState) : Prop where
  begun : ∀ stepId step, state.steps.get? stepId = some step → step.status ≠ .pending →
    ∃ step', s'.steps.get? stepId = some step' ∧ step'.status ≠ .pending
  terminal : ∀ stepId step, state.steps.get? stepId = some step → step.status.IsTerminal →
    s'.steps.get? stepId = some step
  valid : state.Valid → s'.Valid

theorem Kept.refl (state : AgentState) : Kept state state :=
  ⟨fun _ step hs hne => ⟨step, hs, hne⟩, fun _ _ h _ => h, id⟩

theorem Kept.trans {state s'' : AgentState} (h : Kept state s') (h' : Kept s' s'') :
    Kept state s'' where
  begun := fun stepId step hs hne => by
    obtain ⟨step', hs', hne'⟩ := h.begun stepId step hs hne
    exact h'.begun stepId step' hs' hne'
  terminal := fun stepId step hs ht => h'.terminal stepId step (h.terminal stepId step hs ht) ht
  valid := fun hv => h'.valid (h.valid hv)

theorem kept_after (call : Call) (state : AgentState) : Kept state (Op.after call.op state) where
  begun := fun stepId step hs hne => by
    rcases after_call call state with h | ⟨hm, -⟩
    · exact ⟨step, by rwa [h], hne⟩
    · rcases hm.get? hs with h | ⟨_, _, -, htable, -, h⟩
      · exact ⟨step, h, hne⟩
      · refine ⟨_, h, ?_⟩
        rw [writeStepEvent_status]
        exact stepTransitions_ne_pending htable
  terminal := fun _ _ hs ht => after_get?_of_terminal call hs ht
  valid := call_valid call

/-! ## Histories -/

theorem run_valid (calls : List Call) {state : AgentState} (hv : state.Valid) :
    (run state calls).Valid := by
  induction calls generalizing state with
  | nil => exact hv
  | cons call _ ih => exact ih (call_valid call hv)

theorem run_of_terminal (calls : List Call) {state : AgentState} (ht : state.status.IsTerminal) :
    run state calls = state := by
  induction calls with
  | nil => rfl
  | cons call calls =>
    show run (Op.after call.op state) calls = state
    rwa [after_of_terminal call ht]

theorem run_get?_of_terminal (calls : List Call) {state : AgentState} {stepId : String}
    {step : StepState} (hs : state.steps.get? stepId = some step) (ht : step.status.IsTerminal) :
    (run state calls).steps.get? stepId = some step := by
  induction calls generalizing state with
  | nil => exact hs
  | cons call _ ih => exact ih (after_get?_of_terminal call hs ht)

theorem new_valid {runId : String} {createdNow updatedNow : DateTime} {state : AgentState}
    (h : AgentState.new runId createdNow updatedNow = .ok state) : state.Valid := by
  simp only [AgentState.new, seq_eq_ok, pure, Except.pure, Except.ok.injEq] at h
  obtain ⟨hv, rfl⟩ := h
  exact AgentState.validate_eq_ok_iff.mp hv

/-! ## Events that an active step takes -/

theorem writeActive_mem_of_ne {active : Finset String} {event : StepStateEvent} {stepId : String}
    (hne : stepId ≠ event.stepId) : stepId ∈ writeActive active event ↔ stepId ∈ active := by
  unfold writeActive
  split <;> simp [hne]

structure Fits (state : AgentState) (event : StepStateEvent) (step : StepState)
    (target : StepStatus) : Prop where
  utc : event.occurredAt.IsUtc
  found : state.steps.get? event.stepId = some step
  active : step.status.IsActive
  table : stepTransitions step.status event.eventType = some target
  updated : ¬ event.occurredAt < state.updatedAt
  started : ∀ t ∈ step.startedAt, ¬ event.occurredAt < t
  written : step.Valid → ¬ event.occurredAt < step.createdAt →
    (writeStepEvent step event target).Valid

namespace Fits

variable {state : AgentState} {event : StepStateEvent} {step : StepState} {target : StepStatus}

section

variable (h : Fits state event step target)
include h

theorem mem (hv : state.Valid) : event.stepId ∈ state.activeStepIds :=
  (hv.active _).mpr ⟨step, h.found, h.active⟩

theorem nonterminal (hv : state.Valid) :
    ¬ state.status.IsTerminal := fun ht => by
  have hmem := h.mem hv
  rw [hv.terminal ht] at hmem
  cases hmem

theorem created (hv : state.Valid) : ¬ event.occurredAt < step.createdAt := by
  have hstep : step.Valid := (hv.step _ _ h.found).2
  obtain ⟨t, ht⟩ := Option.ne_none_iff_exists'.mp (hstep.active h.active).1
  have h1 := h.started t ht
  have h2 := (hstep.started t ht).2
  rw [DateTime.lt_iff] at *
  omega

theorem ne_started : event.eventType ≠ .started := by
  intro hstarted
  have htable := h.table
  rw [hstarted] at htable
  rcases h.active with hstatus | hstatus
  all_goals
    rw [hstatus] at htable
    cases htable

theorem guard (hv : state.Valid) : guardStepEvent state event step = .ok () := by
  have hlate : ¬ ∃ t ∈ step.startedAt, event.occurredAt < t :=
    fun ⟨t, ht, hlt⟩ => h.started t ht hlt
  simp only [guardStepEvent, guardEventTime, seq_eq_ok, raiseIf_ok, if_neg h.ne_started]
  refine ⟨h.updated, h.created hv, ?_⟩
  rcases h.active with hstatus | hstatus
  · rw [if_pos hstatus]
    simp only [seq_eq_ok, raiseIf_ok]
    exact ⟨not_not.mpr (h.mem hv), hlate⟩
  · rw [if_neg (by rw [hstatus]; nofun), if_pos hstatus]
    simp only [seq_eq_ok, raiseIf_ok]
    exact ⟨not_not.mpr (h.mem hv), hlate⟩

end

theorem write_stepId (step : StepState) (event : StepStateEvent) (target : StepStatus) :
    (writeStepEvent step event target).stepId = step.stepId := by
  unfold writeStepEvent
  split <;> rfl

section

variable (h : Fits state event step target)
include h

/-- A step is listed as active exactly when its status is. -/
theorem mem_writeActive (hv : state.Valid) :
    event.stepId ∈ writeActive state.activeStepIds event ↔ target.IsActive := by
  have hmem := h.mem hv
  have htable := h.table
  unfold writeActive
  rcases h.active with hstatus | hstatus
  all_goals
    rw [hstatus] at htable
    cases hevent : event.eventType <;> rw [hevent] at htable <;> cases htable <;>
      simp [StepStatus.IsActive, hmem]

/-- An applied event leaves a valid state. -/
theorem valid (hv : state.Valid) : (stepApplied state event step target).Valid := by
  refine ⟨hv.version, hv.runId_ne, hv.created, h.utc, ?_, hv.nonterminal,
    fun ht => absurd ht (h.nonterminal hv), hv.succeeded, hv.cancelled, hv.failed,
    fun stepId other hother => ?_, fun stepId => ?_⟩
  · have h1 := hv.updated_created
    have h2 := h.updated
    show ¬ event.occurredAt < state.createdAt
    rw [DateTime.lt_iff] at *
    omega
  · by_cases hid : stepId = event.stepId
    · subst hid
      obtain rfl : writeStepEvent step event target = other := by
        simpa [stepApplied] using hother
      refine ⟨?_, h.written (hv.step _ _ h.found).2 (h.created hv)⟩
      rw [write_stepId]
      exact (hv.step _ _ h.found).1
    · exact hv.step stepId other (by simpa [stepApplied, hid] using hother)
  · show stepId ∈ writeActive state.activeStepIds event ↔ _
    by_cases hid : stepId = event.stepId
    · subst hid
      rw [h.mem_writeActive hv]
      simp [stepApplied, writeStepEvent_status]
    · rw [writeActive_mem_of_ne hid, hv.active]
      simp [stepApplied, hid]

theorem candidate (hv : state.Valid) :
    stepCandidate event state = .ok (stepApplied state event step target) := by
  have hlisted : ¬ ∃ step ∈ state.steps.get? event.stepId, step.status.IsActive ∧
      endsActive event.eventType = true ∧ event.stepId ∉ state.activeStepIds := by
    rintro ⟨_, _, _, _, hnot⟩
    exact hnot (h.mem hv)
  have hlive : ¬ step.status.IsTerminal := by
    rcases h.active with hstatus | hstatus <;> rw [hstatus] <;> decide
  have hcheck : (stepApplied state event step target).validate = .ok () :=
    AgentState.validate_eq_ok_iff.mpr (h.valid hv)
  unfold stepCandidate
  rw [raiseIf_ok.mpr hlisted, ok_bind, AgentState.validate_eq_ok_iff.mpr hv, ok_bind,
    raiseIf_ok.mpr (h.nonterminal hv), ok_bind, h.found]
  show (raiseIf step.status.IsTerminal _ >>= _) = _
  rw [raiseIf_ok.mpr hlive, ok_bind, h.table]
  show (guardStepEvent state event step >>= _) = _
  rw [h.guard hv, ok_bind, AgentState.clone_eq hv, ok_bind]
  dsimp only
  rw [Dict.get?_sorted, h.found]
  show ((stepApplied state event step target).validate >>= _) = _
  rw [hcheck]
  rfl

theorem apply (hv : state.Valid) :
    applyStepEvent event state = .ok () (stepApplied state event step target) := by
  have happly := call_apply (.applyStepEvent event) state
  rwa [show Call.candidate (.applyStepEvent event) state = _ from h.candidate hv] at happly

end

end Fits

structure Cancels (state : AgentState) (event : StepStateEvent) (step : StepState) : Prop where
  type : event.eventType = .cancelled
  utc : event.occurredAt.IsUtc
  found : state.steps.get? event.stepId = some step
  active : step.status.IsActive
  updated : ¬ event.occurredAt < state.updatedAt
  started : ∀ t ∈ step.startedAt, ¬ event.occurredAt < t

namespace Cancels

variable {state : AgentState} {event : StepStateEvent} {step : StepState}

theorem fits (h : Cancels state event step) : Fits state event step .cancelled := by
  refine ⟨h.utc, h.found, h.active, ?_, h.updated, h.started, fun hstep hcreated => ?_⟩
  · rw [h.type]
    rcases h.active with hstatus | hstatus <;> rw [hstatus] <;> rfl
  · unfold writeStepEvent
    rw [h.type]
    refine ⟨hstep.stepId_ne, hstep.name_ne, hstep.created, hstep.started, fun t ht => ?_, nofun, ?_,
      nofun, fun _ => nofun, nofun, nofun⟩
    · cases ht
      exact ⟨h.utc, hcreated, h.started⟩
    · rintro (hstatus | hstatus) <;> exact nomatch hstatus

theorem apply (h : Cancels state event step) (hv : state.Valid) :
    applyStepEvent event state = .ok () (stepApplied state event step .cancelled) :=
  h.fits.apply hv

end Cancels

/-! ## Frames -/

/-- An accepted step event touches `updated_at`, the fields of its own step other than the id, the
name and the creation time, and its own membership in the active set.  Step tables are compared
by lookup: the clone re-sorts them by id, and dictionaries with the same items are equal. -/
structure StepEventFrame (state s' : AgentState) (event : StepStateEvent) : Prop where
  updatedAt : s'.updatedAt = event.occurredAt
  runFields : s' = { state with
    updatedAt := s'.updatedAt, steps := s'.steps, activeStepIds := s'.activeStepIds }
  otherSteps : ∀ stepId, stepId ≠ event.stepId → s'.steps.get? stepId = state.steps.get? stepId
  otherActive : ∀ stepId, stepId ≠ event.stepId →
    (stepId ∈ s'.activeStepIds ↔ stepId ∈ state.activeStepIds)
  ownStep : ∃ step step', state.steps.get? event.stepId = some step ∧
    s'.steps.get? event.stepId = some step' ∧
    step' = { step with
      status := step'.status, startedAt := step'.startedAt, endedAt := step'.endedAt
      errorCode := step'.errorCode, errorMessage := step'.errorMessage }

/-- An accepted run event touches `updated_at` and the run-level status, stop reason, output and
error fields. -/
structure RunEventFrame (state s' : AgentState) (event : RunStateEvent) : Prop where
  updatedAt : s'.updatedAt = event.occurredAt
  runFields : s' = { state with
    updatedAt := s'.updatedAt, status := s'.status, stopReason := s'.stopReason
    finalOutput := s'.finalOutput, errorCode := s'.errorCode, errorMessage := s'.errorMessage
    steps := s'.steps }
  steps : ∀ stepId, s'.steps.get? stepId = state.steps.get? stepId

/-- An event of a step touches no other step. -/
theorem stepApplied_frame {state : AgentState} {event : StepStateEvent} {step : StepState}
    {target : StepStatus} (hs : state.steps.get? event.stepId = some step) :
    StepEventFrame state (stepApplied state event step target) event where
  updatedAt := rfl
  runFields := rfl
  otherSteps stepId hne := by simp [stepApplied, hne]
  otherActive stepId hne := writeActive_mem_of_ne hne
  ownStep := by
    refine ⟨step, writeStepEvent step event target, hs, by simp [stepApplied], ?_⟩
    unfold writeStepEvent
    split <;> rfl

theorem runApplied_frame (state : AgentState) (event : RunStateEvent) (target : RunStatus) :
    RunEventFrame state (runApplied state event target) event where
  updatedAt := by
    unfold runApplied writeRunEvent
    split <;> rfl
  runFields := by
    unfold runApplied writeRunEvent
    split <;> rfl
  steps stepId := by simp

theorem applyStepEvent_frame {state : AgentState} {event : StepStateEvent}
    (h : applyStepEvent event state = .ok () s') : StepEventFrame state s' event := by
  obtain ⟨_, _, hs, -, -, rfl, -⟩ := applyStepEvent_ok h
  exact stepApplied_frame hs

theorem applyRunEvent_frame {state : AgentState} {event : RunStateEvent}
    (h : applyRunEvent event state = .ok () s') : RunEventFrame state s' event := by
  obtain ⟨-, -, target, -, -, -, rfl, -⟩ :=
    runCandidate_eq_ok (candidate_of_ok (.applyRunEvent event) h)
  exact runApplied_frame state event target

/-- **Soundness of the state machine.**  In every state a fresh run can reach: the state validates,
the active set is exactly the steps with an active status and is empty once the run is terminal;
terminal runs and terminal steps never change again; a rejected call changes nothing; an accepted
event changes only its own fields. -/
theorem run_sound {runId : String} {createdNow updatedNow : DateTime} {fresh : AgentState}
    (hfresh : AgentState.new runId createdNow updatedNow = .ok fresh) (calls : List Call) :
    (run fresh calls).validate = .ok () ∧
    (∀ stepId, stepId ∈ (run fresh calls).activeStepIds ↔
      ∃ step, (run fresh calls).steps.get? stepId = some step ∧
        (step.status = .running ∨ step.status = .waitingForApproval)) ∧
    ((run fresh calls).status.IsTerminal → (run fresh calls).activeStepIds = ∅) ∧
    (∀ later, (run fresh calls).status.IsTerminal →
      run (run fresh calls) later = run fresh calls) ∧
    (∀ later stepId step, (run fresh calls).steps.get? stepId = some step →
      step.status.IsTerminal → (run (run fresh calls) later).steps.get? stepId = some step) ∧
    (∀ (call : Call) e s', call.op (run fresh calls) = .error e s' → s' = run fresh calls) ∧
    (∀ event s', applyStepEvent event (run fresh calls) = .ok () s' →
      StepEventFrame (run fresh calls) s' event) ∧
    (∀ event s', applyRunEvent event (run fresh calls) = .ok () s' →
      RunEventFrame (run fresh calls) s' event) := by
  have hv : (run fresh calls).Valid := run_valid calls (new_valid hfresh)
  refine ⟨AgentState.validate_eq_ok_iff.mpr hv, hv.active, hv.terminal, ?_, ?_, ?_, ?_, ?_⟩
  · exact fun later ht => run_of_terminal later ht
  · exact fun later stepId step hs ht => run_get?_of_terminal later hs ht
  · exact fun call e s' h => call_error call h
  · exact fun event s' h => applyStepEvent_frame h
  · exact fun event s' h => applyRunEvent_frame h

/-- The calls of a run that gets one step, starts and finishes it. -/
def sampleCalls : List Call :=
  [.registerPlanStep "a" "A" (.epochSecond 2) (.epochSecond 2),
    .applyRunEvent ⟨⟨.started, .epochSecond 3, none, none, none, none⟩, by decide⟩,
    .applyStepEvent ⟨⟨.started, "a", .epochSecond 4, none, none⟩, by decide⟩,
    .applyStepEvent ⟨⟨.succeeded, "a", .epochSecond 5, none, none⟩, by decide⟩]

theorem run_sound_sample :
    ∃ fresh, AgentState.new "run" (.epochSecond 1) (.epochSecond 1) = .ok fresh ∧
      (run fresh sampleCalls).validate = .ok () ∧
      ((run fresh sampleCalls).steps.get? "a").map StepState.status = some .succeeded := by
  have hfresh : ∃ fresh, AgentState.new "run" (.epochSecond 1) (.epochSecond 1) = .ok fresh ∧
      ((run fresh sampleCalls).steps.get? "a").map StepState.status = some .succeeded :=
    ⟨_, rfl, by decide +kernel⟩
  obtain ⟨fresh, h, hstatus⟩ := hfresh
  exact ⟨fresh, h, (run_sound h sampleCalls).1, hstatus⟩

end AgentStateMachine

end LocalAgent.Runtime
