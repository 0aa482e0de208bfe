import LocalAgent.Runtime.StateCodec

/-!
# LocalAgent.Runtime.StateMachine — `core/runtime/state_machine.py`

Events with the checks of their `__post_init__` as a field, the two transition tables, and
`AgentStateMachine`.  Every call reads the state, builds a candidate on a clone and commits it;
`transact` is that scheme, and `transact_apply` says when it is atomic: a candidate that is valid
and keeps the run id replaces the state, everything else raises and leaves the state as it was.

* `addStepCandidate_eq_ok`, `registerPlanStepCandidate_eq_ok`, `runCandidate_eq_ok`,
  `stepCandidate_eq_ok`: everything an accepted call can do, guards included.  All invariants are
  derived from these four.
-/

namespace LocalAgent.Runtime

/-! ## Events -/

inductive RunEventType where
  | started | completed | failed | deadlineExceeded | maxStepsReached | noAction | repeatedAction
  | budgetExhausted | cancelled
  deriving DecidableEq

inductive StepEventType where
  | started | approvalRequested | approvalApproved | approvalRejected | succeeded | failed
  | cancelled | blocked | skipped
  deriving DecidableEq

def RunEventType.value : RunEventType → String
  | .started => "STARTED" | .completed => "COMPLETED" | .failed => "FAILED"
  | .deadlineExceeded => "DEADLINE_EXCEEDED" | .maxStepsReached => "MAX_STEPS_REACHED"
  | .noAction => "NO_ACTION" | .repeatedAction => "REPEATED_ACTION"
  | .budgetExhausted => "BUDGET_EXHAUSTED" | .cancelled => "CANCELLED"

def StepEventType.value : StepEventType → String
  | .started => "STARTED" | .approvalRequested => "APPROVAL_REQUESTED"
  | .approvalApproved => "APPROVAL_APPROVED" | .approvalRejected => "APPROVAL_REJECTED"
  | .succeeded => "SUCCEEDED" | .failed => "FAILED" | .cancelled => "CANCELLED"
  | .blocked => "BLOCKED" | .skipped => "SKIPPED"

/-- `_SPECIAL_FAILURE_REASONS`. -/
def RunEventType.specialFailureReason : RunEventType → Option StopReason
  | .deadlineExceeded => some .deadlineExceeded
  | .maxStepsReached => some .maxStepsReached
  | .noAction => some .noAction
  | .repeatedAction => some .repeatedAction
  | .budgetExhausted => some .budgetExhausted
  | _ => none

/-- `reason in _FAILURE_REASONS`. -/
def StopReason.IsFailure (reason : StopReason) : Prop :=
  ¬ reason.IsCancellation ∧ reason ≠ .completed
  deriving Decidable

def validateUtcDatetime (value : DateTime) : Except StateError Unit :=
  raiseIf (¬ value.IsUtc) (.value "occurred_at 必须是带时区的 UTC datetime")

/-- `[A-Za-z0-9]`. -/
def isAsciiAlnum (c : Char) : Bool :=
  ('A' ≤ c && c ≤ 'Z') || ('a' ≤ c && c ≤ 'z') || ('0' ≤ c && c ≤ '9')

/-- `_SAFE_ERROR_CODE.fullmatch(value)`. -/
def isSafeErrorCode (value : String) : Bool :=
  match value.toList with
  | [] => false
  | c :: cs => isAsciiAlnum c && cs.length ≤ 127 &&
      cs.all fun c => isAsciiAlnum c || c == '.' || c == '_' || c == ':' || c == '-'

def validateErrorCode (value : Option String) (required : Bool) : Except StateError Unit :=
  match value with
  | none => raiseIf (required = true) (.value "失败或取消事件必须包含安全 error_code")
  | some code =>
    raiseIf (Text.isBlank code = true ∨ isSafeErrorCode code = false)
      (.value "error_code 必须是非空安全标识符")

def validateErrorMessage (value : Option String) : Except StateError Unit :=
  match value with
  | none => .ok ()
  | some message => do
    raiseIf (Text.isBlank message = true) (.value "error_message 提供时必须是非空字符串")
    raiseIf (500 < message.length ∨ '\n' ∈ message.toList ∨ '\r' ∈ message.toList ∨
        Text.hasInfix "traceback".toList (Text.casefold message) = true)
      (.value "error_message 必须是单行安全摘要且不得包含 traceback")

/-- The fields of a `RunStateEvent`. -/
structure RunEventData where
  eventType : RunEventType
  occurredAt : DateTime
  stopReason : Option StopReason
  finalOutput : Option String
  errorCode : Option String
  errorMessage : Option String
  deriving DecidableEq

def RunEventData.postInit (event : RunEventData) : Except StateError Unit := do
  validateUtcDatetime event.occurredAt
  validateErrorMessage event.errorMessage
  match event.eventType with
  | .started =>
    raiseIf (event.stopReason ≠ none ∨ event.finalOutput ≠ none ∨ event.errorCode ≠ none ∨
      event.errorMessage ≠ none) (.value "STARTED 事件不得携带终态字段")
  | .completed =>
    raiseIf (event.stopReason ≠ some .completed)
      (.value "COMPLETED 事件必须使用 COMPLETED stop_reason")
    raiseIf (event.errorCode ≠ none ∨ event.errorMessage ≠ none)
      (.value "COMPLETED 事件不得携带错误信息")
  | .cancelled =>
    raiseIf (event.finalOutput ≠ none) (.value "只有 COMPLETED 事件可以携带 final_output")
    raiseIf (¬ ∃ reason ∈ event.stopReason, reason.IsCancellation)
      (.value "CANCELLED 事件必须使用合法取消 StopReason")
    validateErrorCode event.errorCode true
  | _ =>
    raiseIf (event.finalOutput ≠ none) (.value "只有 COMPLETED 事件可以携带 final_output")
    raiseIf (¬ ∃ reason ∈ event.stopReason, reason.IsFailure)
      (.value "失败类事件必须使用合法失败 StopReason")
    raiseIf (∃ expected ∈ event.eventType.specialFailureReason, event.stopReason ≠ some expected)
      (.value "专用失败事件必须使用对应 StopReason")
    validateErrorCode event.errorCode true

/-- A `RunStateEvent`: only well-formed ones can be built. -/
structure RunStateEvent extends RunEventData where
  wellFormed : toRunEventData.postInit = .ok ()

/-- The fields of a `StepStateEvent`. -/
structure StepEventData where
  eventType : StepEventType
  stepId : String
  occurredAt : DateTime
  errorCode : Option String
  errorMessage : Option String
  deriving DecidableEq

def StepEventData.postInit (event : StepEventData) : Except StateError Unit := do
  raiseIf (Text.isBlank event.stepId = true) (.value "step_id 不得为空")
  validateUtcDatetime event.occurredAt
  validateErrorMessage event.errorMessage
  match event.eventType with
  | .started | .succeeded | .skipped | .approvalRequested | .approvalApproved =>
    raiseIf (event.errorCode ≠ none ∨ event.errorMessage ≠ none)
      (.value (event.eventType.value ++ " Step 事件不得携带错误信息"))
  | .approvalRejected =>
    raiseIf (event.errorCode = none ∧ event.errorMessage = none)
      (.value "APPROVAL_REJECTED Step 事件必须包含安全错误信息")
    validateErrorCode event.errorCode false
  | .failed =>
    raiseIf (event.errorCode = none ∧ event.errorMessage = none)
      (.value "FAILED Step 事件必须包含安全错误信息")
    validateErrorCode event.errorCode false
  | _ => validateErrorCode event.errorCode false

/-- A `StepStateEvent`: only well-formed ones can be built. -/
structure StepStateEvent extends StepEventData where
  wellFormed : toStepEventData.postInit = .ok ()

/-- `StepStateEvent(...)`. -/
def StepStateEvent.make (data : StepEventData) : Except StateError StepStateEvent :=
  match h : data.postInit with
  | .ok () => .ok ⟨data, h⟩
  | .error e => .error e

variable {event : StepStateEvent}

theorem StepStateEvent.make_eq_ok {data : StepEventData}
    (h : make data = .ok event) : event.toStepEventData = data := by
  unfold make at h
  split at h
  · cases h
    rfl
  · cases h

/-! ## Transition tables -/

/-- `_RUN_TRANSITIONS`. -/
def runTransitions : RunStatus → RunEventType → Option RunStatus
  | .created, .started => some .running
  | .created, .failed => some .failed
  | .created, .cancelled => some .cancelled
  | .running, .completed => some .succeeded
  | .running, .failed => some .failed
  | .running, .deadlineExceeded => some .failed
  | .running, .maxStepsReached => some .failed
  | .running, .noAction => some .failed
  | .running, .repeatedAction => some .failed
  | .running, .budgetExhausted => some .failed
  | .running, .cancelled => some .cancelled
  | _, _ => none

/-- `_STEP_TRANSITIONS`. -/
def stepTransitions : StepStatus → StepEventType → Option StepStatus
  | .pending, .started => some .running
  | .pending, .cancelled => some .cancelled
  | .pending, .blocked => some .blocked
  | .pending, .skipped => some .skipped
  | .running, .succeeded => some .succeeded
  | .running, .failed => some .failed
  | .running, .cancelled => some .cancelled
  | .running, .approvalRequested => some .waitingForApproval
  | .waitingForApproval, .approvalApproved => some .running
  | .waitingForApproval, .approvalRejected => some .failed
  | .waitingForApproval, .cancelled => some .cancelled
  | _, _ => none

/-! ## The machine -/

/-- A call on a shared `AgentState`. -/
abbrev StateOp := Op StateError AgentState

namespace AgentStateMachine

/-- The exception of `_raise_run`. -/
def runError (state : AgentState) (eventType reason : String) : StateError :=
  .invalidTransition "Run" state.status.value eventType state.runId reason

/-- The exception of `_raise_step`. -/
def stepError (state : AgentState) (event : StepStateEvent) (reason : String) : StateError :=
  let currentStatus := match state.steps.get? event.stepId with
    | some step => step.status.value
    | none => "MISSING"
  .invalidTransition "Step" currentStatus event.eventType.value event.stepId reason

def guardEventTime (state : AgentState) (occurredAt : DateTime)
    (entityType entityId eventType : String) : Except StateError Unit :=
  raiseIf (occurredAt < state.updatedAt)
    (.invalidTransition entityType state.status.value eventType entityId
      "事件时间不得早于当前状态更新时间")

def guardRunHasNoActiveSteps (state : AgentState) (eventType : String) : Except StateError Unit :=
  raiseIf (state.activeStepIds ≠ ∅ ∨ ∃ step ∈ state.steps.values, step.status.IsActive)
    (runError state eventType "Run 进入终态前必须先结束所有 active Step")

/-- `_commit`: the run id is not among the fields that are written. -/
def commit (candidate : AgentState) : StateOp Unit := do
  Op.lift candidate.validate
  modify fun state => { candidate with runId := state.runId }
  let state ← get
  Op.lift state.validate

def transact (build : AgentState → Except StateError AgentState) : StateOp Unit := do
  let state ← get
  let candidate ← Op.lift (build state)
  commit candidate

/-- `_register_step_locked`, up to the commit. -/
def registerStep (state : AgentState) (stepId name : String) (stepNow touchNow : DateTime) :
    Except StateError AgentState := do
  let candidate ← state.clone
  candidate.addStep stepId name stepNow touchNow

/-- `add_step`, up to the commit. -/
def addStepCandidate (stepId name : String) (stepNow touchNow : DateTime) (state : AgentState) :
    Except StateError AgentState := do
  state.validate
  raiseIf (state.status ≠ .running) (runError state "ADD_STEP" "只有 RUNNING Run 可以注册 Step")
  registerStep state stepId name stepNow touchNow

/-- `register_plan_step`, up to the commit. -/
def registerPlanStepCandidate (stepId name : String) (stepNow touchNow : DateTime)
    (state : AgentState) : Except StateError AgentState := do
  state.validate
  raiseIf (¬ (state.status = .created ∨ state.status = .running))
    (runError state "REGISTER_PLAN_STEP" "只有 CREATED/RUNNING Run 可以注册 Plan Step")
  registerStep state stepId name stepNow touchNow

def writeRunEvent (candidate : AgentState) (event : RunStateEvent) (target : RunStatus) :
    AgentState :=
  match event.eventType with
  | .started =>
    { candidate with
      status := target, updatedAt := event.occurredAt, stopReason := none, finalOutput := none
      errorCode := none, errorMessage := none }
  | .completed =>
    { candidate with
      status := target, updatedAt := event.occurredAt, stopReason := some .completed
      finalOutput := event.finalOutput, errorCode := none, errorMessage := none }
  | _ =>
    { candidate with
      status := target, updatedAt := event.occurredAt, stopReason := event.stopReason
      finalOutput := none, errorCode := event.errorCode, errorMessage := event.errorMessage }

/-- `_apply_run_event_locked`, up to the commit. -/
def runCandidate (event : RunStateEvent) (state : AgentState) : Except StateError AgentState := do
  state.validate
  raiseIf state.status.IsTerminal
    (runError state event.eventType.value "终态 Run 拒绝所有后续事件")
  match runTransitions state.status event.eventType with
  | none => .error (runError state event.eventType.value "当前状态不允许该事件")
  | some target => do
    guardEventTime state event.occurredAt "Run" state.runId event.eventType.value
    if target.IsTerminal then guardRunHasNoActiveSteps state event.eventType.value
    let candidate ← state.clone
    let candidate := writeRunEvent candidate event target
    candidate.validate
    return candidate

def writeStepEvent (step : StepState) (event : StepStateEvent) (target : StepStatus) : StepState :=
  match event.eventType with
  | .started =>
    { step with
      status := target, startedAt := some event.occurredAt, endedAt := none, errorCode := none
      errorMessage := none }
  | .approvalRequested | .approvalApproved =>
    { step with status := target, endedAt := none, errorCode := none, errorMessage := none }
  | _ =>
    { step with
      status := target, endedAt := some event.occurredAt, errorCode := event.errorCode
      errorMessage := event.errorMessage }

def writeActive (active : Finset String) (event : StepStateEvent) : Finset String :=
  match event.eventType with
  | .started => insert event.stepId active
  | .approvalRequested | .approvalApproved => active
  | _ => active.erase event.stepId

/-- The guards of `_apply_step_event_locked` between the transition table and the clone. -/
def guardStepEvent (state : AgentState) (event : StepStateEvent) (step : StepState) :
    Except StateError Unit := do
  guardEventTime state event.occurredAt "Step" event.stepId event.eventType.value
  raiseIf (event.occurredAt < step.createdAt)
    (stepError state event "事件时间不得早于 Step 创建时间")
  if event.eventType = .started then
    raiseIf (state.status ≠ .running) (stepError state event "只有 RUNNING Run 可以启动 Step")
    raiseIf (event.stepId ∈ state.activeStepIds)
      (stepError state event "PENDING Step 不得已位于 active 集合")
  else if step.status = .running then
    raiseIf (event.stepId ∉ state.activeStepIds)
      (stepError state event "RUNNING Step 必须位于 active 集合")
    raiseIf (∃ startedAt ∈ step.startedAt, event.occurredAt < startedAt)
      (stepError state event "结束事件时间不得早于 Step 启动时间")
  else if step.status = .waitingForApproval then
    raiseIf (event.stepId ∉ state.activeStepIds)
      (stepError state event "WAITING_FOR_APPROVAL Step 必须位于 active 集合")
    raiseIf (∃ startedAt ∈ step.startedAt, event.occurredAt < startedAt)
      (stepError state event "结束事件时间不得早于 Step 启动时间")
  else
    raiseIf (event.stepId ∈ state.activeStepIds)
      (stepError state event "未启动 Step 不得位于 active 集合")

def endsActive (eventType : StepEventType) : Bool :=
  eventType = .succeeded || eventType = .failed || eventType = .cancelled ||
    eventType = .approvalRejected

/-- `_apply_step_event_locked`, up to the commit. -/
def stepCandidate (event : StepStateEvent) (state : AgentState) : Except StateError AgentState := do
  raiseIf (∃ step ∈ state.steps.get? event.stepId, step.status.IsActive ∧
      endsActive event.eventType = true ∧ event.stepId ∉ state.activeStepIds)
    (stepError state event "active Step 必须位于 active 集合")
  state.validate
  raiseIf state.status.IsTerminal (stepError state event "终态 Run 拒绝所有后续 Step 事件")
  match state.steps.get? event.stepId with
  | none => .error (stepError state event "Step 不存在")
  | some step => do
    raiseIf step.status.IsTerminal (stepError state event "终态 Step 拒绝所有后续事件")
    match stepTransitions step.status event.eventType with
    | none => .error (stepError state event "当前状态不允许该事件")
    | some target => do
      guardStepEvent state event step
      let candidate ← state.clone
      match candidate.steps.get? event.stepId with
      | none => .error (.value event.stepId)
      | some candidateStep => do
        let candidate := { candidate with
          steps := candidate.steps.set event.stepId (writeStepEvent candidateStep event target)
          updatedAt := event.occurredAt
          activeStepIds := writeActive candidate.activeStepIds event }
        candidate.validate
        return candidate

/-- `AgentStateMachine.add_step`; the clock is read for the step and for the touch. -/
def addStep (stepId name : String) (stepNow touchNow : DateTime) : StateOp Unit :=
  transact (addStepCandidate stepId name stepNow touchNow)

def registerPlanStep (stepId name : String) (stepNow touchNow : DateTime) : StateOp Unit :=
  transact (registerPlanStepCandidate stepId name stepNow touchNow)

def applyRunEvent (event : RunStateEvent) : StateOp Unit := transact (runCandidate event)

def applyStepEvent (event : StepStateEvent) : StateOp Unit := transact (stepCandidate event)

/-! ## What an accepted call does -/

variable {state : AgentState}

theorem commit_apply {candidate : AgentState} (hv : candidate.Valid)
    (hid : candidate.runId = state.runId) : commit candidate state = .ok () candidate := by
  have hsame : ({ candidate with runId := state.runId } : AgentState) = candidate := by rw [← hid]
  have hval : candidate.validate = .ok () := AgentState.validate_eq_ok_iff.mpr hv
  refine Op.bind_ok_iff.mpr ⟨(), state, Op.lift_ok_iff.mpr ⟨hval, rfl⟩, ?_⟩
  refine Op.bind_ok_iff.mpr ⟨(), candidate, congrArg (EStateM.Result.ok ()) hsame, ?_⟩
  exact Op.bind_ok_iff.mpr ⟨candidate, candidate, rfl, Op.lift_ok_iff.mpr ⟨hval, rfl⟩⟩

/-- **Atomicity**: when every candidate is valid and keeps the run id, a call either replaces the
state by its candidate or raises and leaves the state as it was. -/
theorem transact_apply {build : AgentState → Except StateError AgentState}
    (h : ∀ c, build state = .ok c → c.Valid ∧ c.runId = state.runId) :
    transact build state =
      match build state with
      | .ok c => .ok () c
      | .error e => .error e state := by
  cases hb : build state with
  | error =>
    exact Op.bind_error_iff.mpr (Or.inr ⟨state, state, rfl,
      Op.bind_error_iff.mpr (Or.inl (Op.lift_error_iff.mpr ⟨hb, rfl⟩))⟩)
  | ok c =>
    obtain ⟨hv, hid⟩ := h c hb
    exact Op.bind_ok_iff.mpr ⟨state, state, rfl,
      Op.bind_ok_iff.mpr ⟨c, state, Op.lift_ok_iff.mpr ⟨hb, rfl⟩, commit_apply hv hid⟩⟩

def registered (state : AgentState) (stepId name : String) (stepNow touchNow : DateTime) :
    AgentState :=
  { state with
    steps := state.steps.sorted.set stepId (StepState.new stepId name stepNow)
    updatedAt := touchNow }

def runApplied (state : AgentState) (event : RunStateEvent) (target : RunStatus) : AgentState :=
  writeRunEvent { state with steps := state.steps.sorted } event target

def stepApplied (state : AgentState) (event : StepStateEvent) (step : StepState)
    (target : StepStatus) : AgentState :=
  { state with
    steps := state.steps.sorted.set event.stepId (writeStepEvent step event target)
    updatedAt := event.occurredAt
    activeStepIds := writeActive state.activeStepIds event }

variable {c : AgentState}

theorem registerStep_eq_ok {stepId name : String} {stepNow touchNow : DateTime} (hv : state.Valid)
    (h : registerStep state stepId name stepNow touchNow = .ok c) :
    stepId ∉ state.steps.keys ∧ c = registered state stepId name stepNow touchNow ∧ c.Valid := by
  simp only [registerStep, AgentState.clone_eq hv, AgentState.addStep, ok_bind, Except.ok.injEq,
    seq_eq_ok, raiseIf_ok, Dict.mem_keys_sorted, AgentState.validate_eq_ok_iff, pure,
    Except.pure] at h
  obtain ⟨hnot, hval, rfl⟩ := h
  exact ⟨hnot, rfl, hval⟩

theorem addStepCandidate_eq_ok {stepId name : String}
    {stepNow touchNow : DateTime} (h : addStepCandidate stepId name stepNow touchNow state = .ok c) :
    state.Valid ∧ state.status = .running ∧ stepId ∉ state.steps.keys ∧
      c = registered state stepId name stepNow touchNow ∧ c.Valid := by
  simp only [addStepCandidate, seq_eq_ok, raiseIf_ok, not_not,
    AgentState.validate_eq_ok_iff] at h
  exact ⟨h.1, h.2.1, registerStep_eq_ok h.1 h.2.2⟩

theorem registerPlanStepCandidate_eq_ok {stepId name : String} {stepNow touchNow : DateTime}
    (h : registerPlanStepCandidate stepId name stepNow touchNow state = .ok c) :
    state.Valid ∧ ¬ state.status.IsTerminal ∧ stepId ∉ state.steps.keys ∧
      c = registered state stepId name stepNow touchNow ∧ c.Valid := by
  simp only [registerPlanStepCandidate, seq_eq_ok, raiseIf_ok, not_not,
    AgentState.validate_eq_ok_iff] at h
  exact ⟨h.1, AgentState.not_isTerminal_iff.mpr h.2.1, registerStep_eq_ok h.1 h.2.2⟩

/-- What an accepted event of the run has checked. -/
theorem runCandidate_eq_ok {event : RunStateEvent} (h : runCandidate event state = .ok c) :
    state.Valid ∧ ¬ state.status.IsTerminal ∧ ∃ target,
      runTransitions state.status event.eventType = some target ∧
      ¬ event.occurredAt < state.updatedAt ∧
      (target.IsTerminal → state.activeStepIds = ∅) ∧
      c = runApplied state event target ∧ c.Valid := by
  simp only [runCandidate, seq_eq_ok, raiseIf_ok, AgentState.validate_eq_ok_iff] at h
  obtain ⟨hv, hterm, h⟩ := h
  refine ⟨hv, hterm, ?_⟩
  cases ht : runTransitions state.status event.eventType with
  | none => simp [ht] at h
  | some target =>
    simp only [ht, guardEventTime, seq_eq_ok, raiseIf_ok, AgentState.clone_eq hv] at h
    obtain ⟨htime, h⟩ := h
    by_cases htt : target.IsTerminal
    · simp only [htt, if_true, guardRunHasNoActiveSteps, seq_eq_ok, raiseIf_ok, not_or,
        not_not, ok_bind, Except.ok.injEq, AgentState.validate_eq_ok_iff, pure, Except.pure] at h
      obtain ⟨⟨hidle, -⟩, hval, rfl⟩ := h
      exact ⟨target, rfl, htime, fun _ => hidle, rfl, hval⟩
    · simp only [htt, if_false, ok_bind, Except.ok.injEq, seq_eq_ok,
        AgentState.validate_eq_ok_iff, pure, Except.pure] at h
      obtain ⟨hval, rfl⟩ := h
      exact ⟨target, rfl, htime, fun ht' => absurd ht' htt, rfl, hval⟩

/-- What an accepted event of a step has checked. -/
theorem stepCandidate_eq_ok (h : stepCandidate event state = .ok c) :
    state.Valid ∧ ¬ state.status.IsTerminal ∧ ∃ step target,
      state.steps.get? event.stepId = some step ∧ ¬ step.status.IsTerminal ∧
      stepTransitions step.status event.eventType = some target ∧
      guardStepEvent state event step = .ok () ∧
      c = stepApplied state event step target ∧ c.Valid := by
  simp only [stepCandidate, seq_eq_ok, raiseIf_ok, AgentState.validate_eq_ok_iff] at h
  obtain ⟨-, hv, hterm, h⟩ := h
  refine ⟨hv, hterm, ?_⟩
  cases hstep : state.steps.get? event.stepId with
  | none => simp [hstep] at h
  | some step =>
    simp only [hstep, seq_eq_ok, raiseIf_ok] at h
    obtain ⟨hst, h⟩ := h
    cases ht : stepTransitions step.status event.eventType with
    | none => simp [ht] at h
    | some target =>
      simp only [ht, seq_eq_ok, AgentState.clone_eq hv, ok_bind, Except.ok.injEq,
        Dict.get?_sorted, hstep, AgentState.validate_eq_ok_iff, pure, Except.pure] at h
      obtain ⟨hguard, hval, rfl⟩ := h
      exact ⟨step, target, rfl, hst, ht, hguard, rfl, hval⟩

end AgentStateMachine

end LocalAgent.Runtime
