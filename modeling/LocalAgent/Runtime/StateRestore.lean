import LocalAgent.Runtime.StateRuns

/-!
# LocalAgent.Runtime.StateRestore — states that were stored and read back

* `candidate_sorted`: a call builds the same candidate from a state and from its copy.
* `restored_run`: after a restart from `to_dict` every later call has the same outcome.
-/

namespace LocalAgent.Runtime

namespace AgentStateMachine

variable {state restored : AgentState}

/-- What `from_dict` makes of `to_dict`: the steps are in the order of their ids. -/
def sortedSteps (state : AgentState) : AgentState := { state with steps := state.steps.sorted }

theorem sorted_sorted (steps : Dict String StepState) : steps.sorted.sorted = steps.sorted :=
  Dict.ext_entries ((Dict.pairwise_sorted steps).imp fun hlt => hlt.le).insertionSort_eq

theorem valid_sorted (hv : state.Valid) : (sortedSteps state).Valid :=
  { hv with
    step := by simpa [sortedSteps] using hv.step
    active := by simpa [sortedSteps] using hv.active }

theorem toDict_sorted (hv : state.Valid) : (sortedSteps state).toDict = state.toDict := by
  unfold AgentState.toDict
  rw [AgentState.validate_eq_ok_iff.mpr hv, AgentState.validate_eq_ok_iff.mpr (valid_sorted hv)]
  simp only [sortedSteps, sorted_sorted]

theorem clone_sorted (hv : state.Valid) : (sortedSteps state).clone = state.clone := by
  rw [AgentState.clone_eq hv, AgentState.clone_eq (valid_sorted hv), sortedSteps, sorted_sorted]

/-- Every call reads the steps by name, so that their order does not matter to it. -/
theorem candidate_sorted (hv : state.Valid) (call : Call) :
    call.candidate (sortedSteps state) = call.candidate state := by
  have hvalid := AgentState.validate_eq_ok_iff.mpr hv
  have hvalid' := AgentState.validate_eq_ok_iff.mpr (valid_sorted hv)
  have hclone := clone_sorted hv
  cases call with
  | addStep =>
    simp only [Call.candidate, addStepCandidate, registerStep, hvalid, hvalid', hclone]
    rfl
  | registerPlanStep =>
    simp only [Call.candidate, registerPlanStepCandidate, registerStep, hvalid, hvalid', hclone]
    rfl
  | applyRunEvent event =>
    simp only [Call.candidate, runCandidate, hvalid, hvalid', hclone]
    simp only [sortedSteps, guardRunHasNoActiveSteps, Dict.mem_values_sorted]
    rfl
  | applyStepEvent event =>
    simp only [Call.candidate, stepCandidate, hvalid, hvalid', hclone]
    simp only [sortedSteps, guardStepEvent, stepError, Dict.get?_sorted]
    rfl

/-- The two states of a run and of its restart: equal, or as `from_dict` leaves them. -/
structure Restarts (state restored : AgentState) : Prop where
  valid : state.Valid
  same : restored = state ∨ restored = sortedSteps state

theorem Restarts.candidate (h : Restarts state restored) (call : Call) :
    call.candidate restored = call.candidate state := by
  rcases h.same with rfl | rfl
  · rfl
  · exact candidate_sorted h.valid call

theorem Restarts.toDict (h : Restarts state restored) : restored.toDict = state.toDict := by
  rcases h.same with rfl | rfl
  · rfl
  · exact toDict_sorted h.valid

theorem Restarts.error? (h : Restarts state restored) (call : Call) :
    Op.error? call.op restored = Op.error? call.op state := by
  unfold Op.error?
  rw [call_apply, call_apply, h.candidate]
  cases call.candidate state <;> rfl

theorem Restarts.after (h : Restarts state restored) (call : Call) :
    Restarts (Op.after call.op state) (Op.after call.op restored) := by
  refine ⟨call_valid call h.valid, ?_⟩
  unfold Op.after
  rw [call_apply, call_apply, h.candidate]
  cases call.candidate state with
  | ok => exact .inl rfl
  | error => exact h.same

theorem Restarts.run (h : Restarts state restored) (calls : List Call) :
    Restarts (run state calls) (run restored calls) := by
  induction calls generalizing state restored with
  | nil => exact h
  | cons call calls ih => exact ih (h.after call)

/-- **A restart is not observed.**  Every state of a run can be stored by `to_dict` and read back by
`from_dict`, and whatever is called afterwards, the two runs raise the same exceptions and store the
same text again. -/
theorem restored_run {runId : String} {createdNow updatedNow : DateTime} {fresh : AgentState}
    (hfresh : AgentState.new runId createdNow updatedNow = .ok fresh) (before : List Call) :
    ∃ restored, (run fresh before).clone = .ok restored ∧ ∀ later (call : Call),
      (run restored later).toDict = (run (run fresh before) later).toDict ∧
      Op.error? call.op (run restored later) =
        Op.error? call.op (run (run fresh before) later) := by
  have hv : (run fresh before).Valid := run_valid before (new_valid hfresh)
  refine ⟨_, AgentState.clone_eq hv, fun later call => ?_⟩
  have h : Restarts (run (run fresh before) later) (run (sortedSteps (run fresh before)) later) :=
    Restarts.run ⟨hv, .inr rfl⟩ later
  exact ⟨h.toDict, h.error? call⟩

theorem restored_run_sample :
    ∃ fresh, AgentState.new "run" (.epochSecond 1) (.epochSecond 1) = .ok fresh ∧
      ∃ restored, (run fresh sampleCalls).clone = .ok restored ∧ ∀ later (call : Call),
        (run restored later).toDict = (run (run fresh sampleCalls) later).toDict ∧
        Op.error? call.op (run restored later) =
          Op.error? call.op (run (run fresh sampleCalls) later) := by
  have hfresh : ∃ fresh, AgentState.new "run" (.epochSecond 1) (.epochSecond 1) = .ok fresh :=
    ⟨_, rfl⟩
  obtain ⟨fresh, h⟩ := hfresh
  exact ⟨fresh, h, restored_run h sampleCalls⟩

end AgentStateMachine

end LocalAgent.Runtime
