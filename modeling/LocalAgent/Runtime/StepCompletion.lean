import LocalAgent.Runtime.OutputGate
import LocalAgent.Runtime.StateRuns

/-!
# LocalAgent.Runtime.StepCompletion — `core/runtime/step_completion.py`

The completion of a step: the result is prepared in the store, the step succeeds, the entry becomes
readable, the final step is delivered and remembered, and the completion is published.  `commit` is
a coroutine with one step for every section between two points where control can be lost.

* `emitStep`: one event of a step, through the emitter of that step.
* `commit`: the pipeline with all its exits.
-/

namespace LocalAgent.Runtime

inductive StepCommitStatus where
  | none | prepared | committed
  deriving DecidableEq

inductive StepCompletionErrorCode where
  | stepResultInvalid | stepResultPrepareFailed | stepStateCommitFailed | stepResultCommitFailed
  | stepCompletionEventFailed | stepResultDuplicateCommit | stepResultLateCommit
  | finalOutputMemoryCommitFailed | outputGateDuplicateAttempt | finalOutputDeliveryFailed
  | finalOutputDeliveryUnknown
  deriving DecidableEq

def StepCompletionErrorCode.value : StepCompletionErrorCode → String
  | .stepResultInvalid => "STEP_RESULT_INVALID"
  | .stepResultPrepareFailed => "STEP_RESULT_PREPARE_FAILED"
  | .stepStateCommitFailed => "STEP_STATE_COMMIT_FAILED"
  | .stepResultCommitFailed => "STEP_RESULT_COMMIT_FAILED"
  | .stepCompletionEventFailed => "STEP_COMPLETION_EVENT_FAILED"
  | .stepResultDuplicateCommit => "STEP_RESULT_DUPLICATE_COMMIT"
  | .stepResultLateCommit => "STEP_RESULT_LATE_COMMIT"
  | .finalOutputMemoryCommitFailed => "FINAL_OUTPUT_MEMORY_COMMIT_FAILED"
  | .outputGateDuplicateAttempt => "OUTPUT_GATE_DUPLICATE_ATTEMPT"
  | .finalOutputDeliveryFailed => "FINAL_OUTPUT_DELIVERY_FAILED"
  | .finalOutputDeliveryUnknown => "FINAL_OUTPUT_DELIVERY_UNKNOWN"

structure StepCompletionResult where
  stepId : String
  producerAgentId : String
  contentType : Option ResultContentType
  charCount : ℕ
  complete : Bool
  commitStatus : StepCommitStatus
  finalResultReady : Bool
  eventEmitted : Bool
  outputPolicy : Option OutputPolicy
  deliveryStatus : DeliveryStatus
  deliveryErrorCode : Option String
  completionErrorCode : Option String
  memoryErrorCode : Option String
  formationStatus : Option String
  formationErrorCode : Option String
  errorCode : Option String
  safeMessage : String
  deriving DecidableEq

/-- What a driver hands over: a `StepResult`, `None`, a text, or another object without the fields
of a result. -/
inductive DriverResult where
  | result (result : StepResult)
  | missing
  | text (text : String)
  | foreign
  deriving DecidableEq

/-! ## Step events -/

structure StepStartedPayload where
  status : StepStatus
  agentId : Option String
  executionKind : Option ExecutionKind
  outputPolicy : Option OutputPolicy
  dependencyCount : Option ℕ
  deriving DecidableEq

structure StepCompletedPayload where
  status : StepStatus
  safeErrorCode : Option String
  resultCharCount : ℕ
  deliveryStatus : Option DeliveryStatus
  executionKind : Option ExecutionKind
  outputPolicy : Option OutputPolicy
  deriving DecidableEq

/-- An event of a step in the journal. -/
inductive StepRecord where
  | started (stepId : String) (payload : StepStartedPayload)
  | completed (stepId : String) (payload : StepCompletedPayload)
  deriving DecidableEq

def StepRecord.stepId : StepRecord → String
  | .started stepId _ | .completed stepId _ => stepId

/-! ## The world of a committer -/

/-- The plan and the parts of a committer, with what `__init__` checks; the ids of the plan are
distinct, as `PlanGraphValidator` has checked before. -/
structure CommitterConfig where
  plan : Plan
  store : StoreConfig
  finalStep : PlanStep
  unique : plan.steps.filter (fun step => step.outputPolicy ≠ .internal) = [finalStep]
  distinct : (plan.steps.map PlanStep.stepId).Nodup
  hasEventEmitter : Bool
  hasOutputGate : Bool
  hasFinalMemoryWriter : Bool
  hasSemanticMemoryFormation : Bool

/-- What an observer of the committer writes down. -/
inductive CompletionEvent where
  /-- this call has made the entry of the step readable -/
  | marked (call : ℕ) (stepId : String)
  | gateCalled (call : ℕ) (stepId : String)
  | gateAnswered (call : ℕ) (stepId : String) (status : DeliveryStatus)
  | memoryInvoked (call : ℕ) (stepId : String)
  /-- a `STEP_COMPLETED` gets into the journal, with the store and the state of that moment -/
  | emitted (call : ℕ) (stepId : String) (payload : StepCompletedPayload)
      (store : StepResultStore) (state : AgentState)
  | returned (call : ℕ) (result : StepCompletionResult) (store : StepResultStore)
      (state : AgentState)

structure CommitterWorld where
  store : StepResultStore
  state : AgentState
  /-- `_completed_steps`, with the call that has added each of them -/
  completedSteps : Dict String ℕ
  closedEmitters : List String
  journal : List StepRecord
  history : List CompletionEvent

/-- How `write_delivered` ends. -/
inductive MemoryReply where
  | receipt | noReceipt | raised | cancelled
  deriving DecidableEq

/-- How `run_formation` ends. -/
inductive FormationReply where
  | result (status : String) (safeErrorCode : Option String)
  | raised
  | cancelled
  deriving DecidableEq

/-- What the environment answers in one step. -/
structure CommitterInput where
  now : DateTime.Utc
  /-- the rule of the fault point before `write_prepared` matches -/
  writeFault : Bool
  /-- the rule of the fault point before `mark_readable` matches -/
  markFault : Bool
  gate : Except PublishError DeliveryAttempt
  memory : MemoryReply
  formation : FormationReply
  beforeAppend : Option PublishFault
  /-- the publication of an event ends after the append -/
  afterAppend : Option PublishFault

/-- Build a step event and apply it; both raise a `ValueError`. -/
def AgentStateMachine.applyStepData (data : StepEventData) : StateOp Unit := do
  let event ← Op.lift (StepStateEvent.make data)
  applyStepEvent event

namespace StepResultCommitter

open Coroutine

/-- A call on the committer; what it raises is what it does not catch. -/
abbrev CommitCall (α : Type) := Fallible CommitterInput CommitterWorld PublishError α

variable (cfg : CommitterConfig)

def note (event : CompletionEvent) : CommitCall Unit :=
  perform fun _ w => ((), { w with history := w.history ++ [event] })

/-! ## Publishing -/

/-- `StepEventEmitter.emit`, up to the append. -/
def appendRecord (record : StepRecord) (observe : CommitterWorld → List CompletionEvent) :
    CommitCall Unit :=
  tryPerform fun i w =>
    if record.stepId ∈ w.closedEmitters then (.error .runtime, w)
    else
      match i.beforeAppend with
      | some fault => (.error (fault.error false), w)
      | none =>
        (.ok (), { w with journal := w.journal ++ [record], history := w.history ++ observe w })

/-- `StepEventEmitter.emit`, from the append on. -/
def finishRecord (stepId : String) (close : Bool) : CommitCall Unit :=
  tryPerform fun i w =>
    match i.afterAppend with
    | some fault => (.error (fault.error true), w)
    | none =>
      (.ok (), { w with closedEmitters := w.closedEmitters ++ if close then [stepId] else [] })

/-- `StepEventEmitter.emit`. -/
def emitStep (record : StepRecord) (close : Bool)
    (observe : CommitterWorld → List CompletionEvent) : CommitCall Unit := do
  appendRecord record observe
  finishRecord record.stepId close

/-- The event of a completion. -/
def completedPayload (planStep : Option PlanStep) (status : StepStatus)
    (safeErrorCode : Option String) (charCount : ℕ) (delivery : Option DeliveryStatus) :
    StepCompletedPayload where
  status := status
  safeErrorCode := safeErrorCode
  resultCharCount := charCount
  deliveryStatus := delivery
  executionKind := planStep.map PlanStep.executionKind
  outputPolicy := planStep.map PlanStep.outputPolicy

/-- `except (EventChannelClosedError, EventPublicationError, RuntimeError)`. -/
def isPublicationFailure : PublishError → Bool
  | .channelClosed | .publication _ | .runtime | .runCancelled | .memoryContext _ => true
  | .cancelled | .deadlineExceeded | .other => false

def isClosed (stepId : String) : CommitCall Bool :=
  perform fun _ w => (decide (stepId ∈ w.closedEmitters), w)

/-- What becomes of the outcome of a publication. -/
def published : Except PublishError Unit → CommitCall Bool
  | .ok () => pure true
  | .error error => if isPublicationFailure error then pure false else throw error

def emitStepCompleted (call : ℕ) (claim : StepClaim) (status : StepStatus)
    (safeErrorCode : Option String) (charCount : ℕ) (delivery : Option DeliveryStatus) :
    CommitCall Bool := do
  if cfg.hasEventEmitter = false then return true
  if ← isClosed claim.stepId then return false
  let payload := completedPayload (cfg.plan.step? claim.stepId) status safeErrorCode charCount
    delivery
  let outcome ← attempt (emitStep (.completed claim.stepId payload) true
    fun w => [.emitted call claim.stepId payload w.store w.state])
  published outcome

/-! ## Sections -/

def acquireGuard (call : ℕ) (stepId : String) : CommitCall Bool :=
  perform fun _ w =>
    if stepId ∈ w.completedSteps.keys then (false, w)
    else (true, { w with completedSteps := w.completedSteps.set stepId call })

def storeIsOpen : CommitCall Bool :=
  perform fun _ w => (decide (w.store.status = .open), w)

/-- `_validate`; the plan step and the result it has checked. -/
def validate (claim : StepClaim) :
    DriverResult → Except StepCompletionErrorCode (PlanStep × StepResult)
  | .missing | .text _ | .foreign => .error .stepResultInvalid
  | .result result => do
    let planStep ← orRaise (cfg.plan.step? claim.stepId) .stepResultInvalid
    raiseIf (claim.stepId ≠ result.stepId) .stepResultInvalid
    raiseIf (claim.preferredAgent ≠ planStep.preferredAgent) .stepResultInvalid
    raiseIf (result.producerAgentId ≠ claim.preferredAgent) .stepResultInvalid
    raiseIf (result.complete = false) .stepResultInvalid
    pure (planStep, result)

def mapPrepareError : StepResultStoreErrorCode → StepCompletionErrorCode
  | .storeSealed | .storeCleared => .stepResultLateCommit
  | .duplicateWrite => .stepResultDuplicateCommit
  | .identityMismatch | .unknownProducer => .stepResultInvalid
  | _ => .stepResultPrepareFailed

/-- `write_prepared` and its `except`; the code of a refusal. -/
def writePrepared (claim : StepClaim) (result : StepResult) :
    CommitCall (Option StepCompletionErrorCode) :=
  tryPerform fun i w =>
    match StepResultStore.writePrepared cfg.store i.writeFault result claim.preferredAgent
        w.store with
    | .ok () store => (.ok none, { w with store := store })
    | .error (.store code _) store => (.ok (some (mapPrepareError code)), { w with store := store })
    | .error (.fault _) store =>
      (.ok (some .stepResultPrepareFailed), { w with store := store })
    | .error (.value _) store => (.error .other, { w with store := store })

def eventTime (now : DateTime.Utc) (state : AgentState) : DateTime :=
  DateTime.latest now.val state.updatedAt

/-- `_apply_succeeded`; whether the state machine has taken it. -/
def applySucceeded (claim : StepClaim) : CommitCall Bool :=
  perform fun i w =>
    match AgentStateMachine.applyStepData
        ⟨.succeeded, claim.stepId, eventTime i.now w.state, none, none⟩ w.state with
    | .ok () state => (true, { w with state := state })
    | .error _ state => (false, { w with state := state })

/-- `mark_readable`; whether the store has taken it. -/
def markReadable (call : ℕ) (claim : StepClaim) : CommitCall Bool :=
  tryPerform fun i w =>
    match StepResultStore.markReadable i.markFault claim.stepId w.state w.store with
    | .ok () store =>
      (.ok true,
        { w with store := store, history := w.history ++ [.marked call claim.stepId] })
    | .error (.value _) store => (.error .other, { w with store := store })
    | .error _ store => (.ok false, { w with store := store })

/-- The first half of `_apply_failed_and_emit`; whether it goes on. -/
def applyFailed (claim : StepClaim) (errorCode : String) : CommitCall Bool :=
  perform fun i w =>
    match w.state.steps.get? claim.stepId with
    | none => (true, w)
    | some current =>
      if current.status = .running then
        match AgentStateMachine.applyStepData ⟨.failed, claim.stepId, eventTime i.now w.state,
            some errorCode, some "步骤执行失败"⟩ w.state with
        | .ok () state => (true, { w with state := state })
        | .error _ state => (false, { w with state := state })
      else (true, w)

def applyFailedAndEmit (call : ℕ) (claim : StepClaim) (errorCode : String) : CommitCall Unit := do
  if ← applyFailed claim errorCode then
    let _ ← emitStepCompleted cfg call claim .failed (some errorCode) 0 none

/-! ## Results -/

/-- The keyword arguments of `_failure`. -/
structure FailureFacts where
  finalResultReady : Bool
  eventEmitted : Bool
  outputPolicy : Option OutputPolicy
  deliveryAttempt : Option DeliveryAttempt
  memoryErrorCode : Option String
  formationStatus : Option String
  formationErrorCode : Option String

def FailureFacts.default : FailureFacts := ⟨false, false, none, none, none, none, none⟩

def deliveryStatusOf (attempt : Option DeliveryAttempt) : DeliveryStatus :=
  (attempt.map DeliveryAttempt.deliveryStatus).getD .notApplicable

/-- `_failure`, for a result that has the fields of one. -/
def failureResult (claim : StepClaim) (result : Option StepResult) (status : StepCommitStatus)
    (code : StepCompletionErrorCode) (safeMessage : String) (facts : FailureFacts) :
    StepCompletionResult where
  stepId := claim.stepId
  producerAgentId := claim.preferredAgent
  contentType := result.map StepResult.contentType
  charCount := (result.map fun r => r.content.length).getD 0
  complete := (result.map StepResult.complete).getD false
  commitStatus := status
  finalResultReady := facts.finalResultReady
  eventEmitted := facts.eventEmitted
  outputPolicy := facts.outputPolicy
  deliveryStatus := deliveryStatusOf facts.deliveryAttempt
  deliveryErrorCode := facts.deliveryAttempt.bind DeliveryAttempt.errorCode
  completionErrorCode :=
    if code = .stepCompletionEventFailed then
      some StepCompletionErrorCode.stepCompletionEventFailed.value
    else none
  memoryErrorCode := facts.memoryErrorCode
  formationStatus := facts.formationStatus
  formationErrorCode := facts.formationErrorCode
  errorCode := some code.value
  safeMessage := safeMessage

/-- `_failure` before anything was committed; it reads the fields of the result, which may have
none of them. -/
def failure (claim : StepClaim) (result : DriverResult) (code : StepCompletionErrorCode)
    (safeMessage : String) : CommitCall StepCompletionResult :=
  match result with
  | .result result => pure (failureResult claim (some result) .none code safeMessage .default)
  | .missing => pure (failureResult claim none .none code safeMessage .default)
  | .text _ | .foreign => throw .other

/-! ## Delivery -/

/-- `attempt_publish`, for the final step. -/
def deliver (call : ℕ) (claim : StepClaim) : CommitCall (Option DeliveryAttempt) :=
  if claim.stepId = cfg.finalStep.stepId ∧ cfg.hasOutputGate = true then do
    note (.gateCalled call claim.stepId)
    tryPerform fun i w =>
      match i.gate with
      | .error error => (.error error, w)
      | .ok answer =>
        (.ok (some answer),
          { w with
            history := w.history ++ [.gateAnswered call claim.stepId answer.deliveryStatus] })
  else pure none

/-- `write_delivered`, after a delivery: the error code, and whether there is a receipt. -/
def writeDelivered (call : ℕ) (claim : StepClaim) (answer : Option DeliveryAttempt) :
    CommitCall (Option String × Bool) :=
  if answer.map DeliveryAttempt.deliveryStatus = some .delivered ∧
      cfg.hasFinalMemoryWriter = true then do
    note (.memoryInvoked call claim.stepId)
    tryPerform fun i w =>
      match i.memory with
      | .receipt => (.ok (none, true), w)
      | .noReceipt => (.ok (none, false), w)
      | .raised =>
        (.ok (some StepCompletionErrorCode.finalOutputMemoryCommitFailed.value, false), w)
      | .cancelled => (.error .cancelled, w)
  else pure (none, false)

/-- `run_formation`, after a receipt: the status and the error code. -/
def runFormation (receipt : Bool) : CommitCall (Option String × Option String) :=
  if receipt = true ∧ cfg.hasSemanticMemoryFormation = true then
    perform fun i w =>
      match i.formation with
      | .result status safeErrorCode => ((some status, safeErrorCode), w)
      | .cancelled => ((some "CANCELLED", some "FORMATION_CANCELLED"), w)
      | .raised => ((some "FAILED", some "FORMATION_INTERNAL_ERROR"), w)
  else pure (none, none)

def deliveryFailureCode (answer : DeliveryAttempt) : StepCompletionErrorCode :=
  if answer.errorCode = some "OUTPUT_GATE_DUPLICATE_ATTEMPT" then .outputGateDuplicateAttempt
  else if answer.deliveryStatus = .outcomeUnknown then .finalOutputDeliveryUnknown
  else .finalOutputDeliveryFailed

/-- A completion without an error. -/
def successResult (claim : StepClaim) (result : StepResult) (facts : FailureFacts) :
    StepCompletionResult where
  stepId := claim.stepId
  producerAgentId := claim.preferredAgent
  contentType := some result.contentType
  charCount := result.content.length
  complete := result.complete
  commitStatus := .committed
  finalResultReady := facts.finalResultReady
  eventEmitted := true
  outputPolicy := facts.outputPolicy
  deliveryStatus := deliveryStatusOf facts.deliveryAttempt
  deliveryErrorCode := facts.deliveryAttempt.bind DeliveryAttempt.errorCode
  completionErrorCode := none
  memoryErrorCode := none
  formationStatus := facts.formationStatus
  formationErrorCode := facts.formationErrorCode
  errorCode := none
  safeMessage := ""

/-- The result of a step whose entry is readable; only the failure of the event and the success
report the formation. -/
def committedResult (claim : StepClaim) (result : StepResult) (emitted : Bool)
    (facts : FailureFacts) : StepCompletionResult :=
  if emitted = false then
    failureResult claim (some result) .committed .stepCompletionEventFailed
      "STEP_COMPLETED 事件发布失败" { facts with eventEmitted := false }
  else if facts.memoryErrorCode ≠ none then
    failureResult claim (some result) .committed .finalOutputMemoryCommitFailed
      "final output 已经交付但 Memory 提交失败"
      { facts with eventEmitted := true, formationStatus := none, formationErrorCode := none }
  else
    match facts.deliveryAttempt with
    | some answer =>
      if answer.deliveryStatus ≠ .delivered then
        failureResult claim (some result) .committed (deliveryFailureCode answer)
          answer.safeMessage
          { facts with
            eventEmitted := true
            memoryErrorCode := none
            formationStatus := none
            formationErrorCode := none }
      else successResult claim result facts
    | none => successResult claim result facts

/-! ## The pipeline -/

/-- From the readable entry on. -/
def complete (call : ℕ) (claim : StepClaim) (planStep : PlanStep) (result : StepResult) :
    CommitCall StepCompletionResult := do
  let answer ← deliver cfg call claim
  let (memoryErrorCode, receipt) ← writeDelivered cfg call claim answer
  let (formationStatus, formationErrorCode) ← runFormation cfg receipt
  let emitted ← emitStepCompleted cfg call claim .succeeded none result.content.length
    (answer.map DeliveryAttempt.deliveryStatus)
  return committedResult claim result emitted
    { finalResultReady := decide (claim.stepId = cfg.finalStep.stepId)
      eventEmitted := emitted
      outputPolicy := some planStep.outputPolicy
      deliveryAttempt := answer
      memoryErrorCode := memoryErrorCode
      formationStatus := formationStatus
      formationErrorCode := formationErrorCode }

/-- From the prepared entry on. -/
def succeed (call : ℕ) (claim : StepClaim) (planStep : PlanStep) (result : StepResult) :
    CommitCall StepCompletionResult := do
  if (← applySucceeded claim) = false then
    return failureResult claim (some result) .prepared .stepStateCommitFailed "Step 状态提交失败"
      .default
  if (← markReadable call claim) = false then
    let code := StepCompletionErrorCode.stepResultCommitFailed
    let _ ← emitStepCompleted cfg call claim .succeeded (some code.value) result.content.length none
    return failureResult claim (some result) .prepared code "Store mark READABLE 失败" .default
  complete cfg call claim planStep result

/-- `commit`, up to its return. -/
def commitBody (call : ℕ) (claim : StepClaim) (result : DriverResult) :
    CommitCall StepCompletionResult := do
  if (← acquireGuard call claim.stepId) = false then
    return ← failure claim result .stepResultDuplicateCommit "重复 completion 回调被拒绝"
  if (← storeIsOpen) = false then
    return ← failure claim result .stepResultLateCommit "Store 已关闭，拒绝迟到提交"
  match validate cfg claim result with
  | .error code => do
    applyFailedAndEmit cfg call claim code.value
    failure claim result code "result 与 claim/Plan 不一致"
  | .ok (planStep, checked) => do
    match ← writePrepared cfg claim checked with
    | some code => do
      applyFailedAndEmit cfg call claim code.value
      failure claim result code "result prepare 失败"
    | none => succeed cfg call claim planStep checked

def commit (call : ℕ) (claim : StepClaim) (result : DriverResult) :
    CommitCall StepCompletionResult := do
  let completion ← commitBody cfg call claim result
  perform fun _ w =>
    (completion,
      { w with history := w.history ++ [.returned call completion w.store w.state] })

end StepResultCommitter

end LocalAgent.Runtime
