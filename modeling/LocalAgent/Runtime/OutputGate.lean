import LocalAgent.Lib.Coroutine
import LocalAgent.Runtime.StepResultStore

/-!
# LocalAgent.Runtime.OutputGate — `core/runtime/output_gate.py`

The single owner of the final delivery of a run.  `attempt_publish` and the sink of `stream_sink`
are coroutines: every locked section and every side of a publication is one step.  A publication is
an append to the journal and what comes after it; both may fail, and the gate only sees the class
of the exception.

* `attemptPublish`, `accept`: the two coroutines.
* `GateRun.step`: any number of calls of either, `close`, and the surroundings of the gate.
-/

namespace LocalAgent.Runtime

inductive OutputGateState where
  | notStarted | publishing | published | failed | outcomeUnknown
  deriving DecidableEq

inductive DeliveryStatus where
  | notApplicable | delivered | failed | outcomeUnknown
  deriving DecidableEq

inductive OutputGateErrorCode where
  | duplicateAttempt | internalStep | notFinal | stepNotClaimed | stepNotSucceeded
  | storeNotReadable | storeSealed | runNotActive | claimMismatch | closed
  deriving DecidableEq

def OutputGateErrorCode.value : OutputGateErrorCode → String
  | .duplicateAttempt => "OUTPUT_GATE_DUPLICATE_ATTEMPT"
  | .internalStep => "OUTPUT_GATE_INTERNAL_STEP"
  | .notFinal => "OUTPUT_GATE_NOT_FINAL"
  | .stepNotClaimed => "OUTPUT_GATE_STEP_NOT_CLAIMED"
  | .stepNotSucceeded => "OUTPUT_GATE_STEP_NOT_SUCCEEDED"
  | .storeNotReadable => "OUTPUT_GATE_STORE_NOT_READABLE"
  | .storeSealed => "OUTPUT_GATE_STORE_SEALED"
  | .runNotActive => "OUTPUT_GATE_RUN_NOT_ACTIVE"
  | .claimMismatch => "OUTPUT_GATE_CLAIM_MISMATCH"
  | .closed => "OUTPUT_GATE_CLOSED"

structure DeliveryAttempt where
  stepId : String
  outputPolicy : Option OutputPolicy
  deliveryStatus : DeliveryStatus
  errorCode : Option String
  safeMessage : String
  deriving DecidableEq

/-- The exceptions of a publication, as far as the gate tells them apart.  `EventPublicationError`
says itself whether the event is in the journal. -/
inductive PublishError where
  /-- `MemoryContextError` -/
  | memoryContext (errorCode : String)
  /-- `EventPublicationError` -/
  | publication (partiallyPersisted : Bool)
  /-- `EventChannelClosedError` -/
  | channelClosed
  /-- `RunCancelledError` -/
  | runCancelled
  /-- any other `RuntimeError` -/
  | runtime
  /-- `asyncio.CancelledError` -/
  | cancelled
  /-- `RunDeadlineExceededError` -/
  | deadlineExceeded
  /-- any other `Exception` -/
  | other
  deriving DecidableEq

/-- What can interrupt a publication. -/
inductive PublishFault where
  | publication | channelClosed | runCancelled | runtime | cancelled | deadlineExceeded | other
  deriving DecidableEq

/-- The exception of an interrupted publication; `appended` says on which side of the append. -/
def PublishFault.error (appended : Bool) : PublishFault → PublishError
  | .publication => .publication appended
  | .channelClosed => .channelClosed
  | .runCancelled => .runCancelled
  | .runtime => .runtime
  | .cancelled => .cancelled
  | .deadlineExceeded => .deadlineExceeded
  | .other => .other

/-- The plan and the parts of a gate, with what `__init__` checks. -/
structure GateConfig where
  plan : Plan
  finalStep : PlanStep
  unique : plan.steps.filter (fun step => step.outputPolicy ≠ .internal) = [finalStep]
  hasEventEmitter : Bool
  hasStateGetter : Bool
  hasRunActive : Bool
  hasLoopContext : Bool
  hasMemoryGuard : Bool
  /-- `hashlib.sha256(text.encode("utf-8")).hexdigest()` -/
  digest : String → String

/-- What an observer of the gate writes down. -/
inductive GateEvent where
  /-- this call has passed the authorization and the gate is `PUBLISHING` -/
  | entered (call : ℕ)
  /-- this call has reported an attempt to publish `content`, with this much in the journal -/
  | reported (call : ℕ) (attempt : DeliveryAttempt) (content : String) (journal : List String)
  deriving DecidableEq

structure GateWorld where
  state : OutputGateState
  lastAttempt : Option DeliveryAttempt
  streamStepId : Option String
  /-- what `_streamed_digest` has been fed with -/
  streamed : String
  streamedCharCount : ℕ
  store : StepResultStore
  agentState : AgentState
  runActive : Bool
  stepEmitterClosed : Bool
  /-- the digest of `final_delivery_receipt`, when there is one -/
  receipt : Option String
  /-- the texts of the `OUTPUT_DELTA` events in the journal -/
  journal : List String
  /-- the call that publishes, and the content it publishes -/
  publisher : Option (ℕ × String)
  /-- the calls of the sink that have been admitted and not yet counted -/
  accepting : List ℕ
  history : List GateEvent

/-- What the environment answers in one step. -/
structure GateInput where
  /-- the rule of the fault point `OUTPUT_BEFORE_PUBLISH` matches -/
  fault : Bool
  guardError : Option String
  /-- `load_loop` raises -/
  loadFault : Option PublishFault
  decisionMismatch : Bool
  beforeAppend : Option PublishFault
  /-- the publication ends after the append -/
  afterAppend : Option PublishFault
  deriving DecidableEq

namespace OutputGate

open Coroutine

abbrev GateCall (α : Type) := Fallible GateInput GateWorld PublishError α

variable (cfg : GateConfig)

/-- Publish one `OUTPUT_DELTA`, and write the receipt with it where one is given. -/
def emit (text : String) (receipt : Option String) : GateCall Unit := do
  tryPerform fun i w =>
    match i.beforeAppend with
    | some fault => (.error (fault.error false), w)
    | none =>
      (.ok (),
        { w with
          journal := w.journal ++ [text]
          receipt := receipt.or w.receipt })
  tryPerform fun i w =>
    match i.afterAppend with
    | some fault => (.error (fault.error true), w)
    | none => (.ok (), w)

/-! ## The sink -/

/-- `stream_sink`: whether there is a sink for the claim. -/
def hasSink (claim : StepClaim) : Bool :=
  match cfg.plan.step? claim.stepId with
  | none => false
  | some planStep => claim.stepId = cfg.finalStep.stepId &&
    claim.preferredAgent = planStep.preferredAgent && planStep.outputPolicy ≠ .internal

/-- The locked check of `accept`. -/
def admitCall (call : ℕ) (claim : StepClaim) : GateCall Unit :=
  tryPerform fun _ w =>
    if w.state ≠ .notStarted then (.error .runtime, w)
    else if ∃ stepId ∈ w.streamStepId, stepId ≠ claim.stepId then (.error .runtime, w)
    else if cfg.hasRunActive = true ∧ w.runActive = false then (.error .runtime, w)
    else (.ok (),
      { w with streamStepId := some claim.stepId, accepting := w.accepting ++ [call] })

def count (call : ℕ) (text : String) : GateCall Unit :=
  perform fun _ w =>
    ((),
      { w with
        streamed := w.streamed ++ text
        streamedCharCount := w.streamedCharCount + text.length
        accepting := w.accepting.erase call })

/-- The call ends without being counted. -/
def abandon (call : ℕ) (error : PublishError) : GateCall Unit := do
  perform fun _ w => ((), { w with accepting := w.accepting.erase call })
  throw error

/-- The memory guard, where there is one. -/
def checkGuard : GateCall Unit :=
  if cfg.hasMemoryGuard then
    tryPerform fun i w =>
      match i.guardError with
      | some errorCode => (.error (.memoryContext errorCode), w)
      | none => (.ok (), w)
  else pure ()

/-- The publication of `accept`. -/
def stream (text : String) : GateCall Unit := do
  if cfg.hasEventEmitter = false then throw .channelClosed
  checkGuard cfg
  emit text none

def accept (call : ℕ) (claim : StepClaim) (text : String) : GateCall Unit := do
  if text = "" then return ()
  admitCall cfg call claim
  match ← attempt (stream cfg text) with
  | .ok () => count call text
  | .error (.publication true) => do
    count call text
    throw (.publication true)
  | .error error => abandon call error

/-! ## The attempt -/

/-- `_authorize_locked`. -/
def authorize (w : GateWorld) (claim : StepClaim) (result : StepResult) :
    Except (OutputGateErrorCode × String) OutputPolicy := do
  let planStep ← orRaise (cfg.plan.step? claim.stepId) (.notFinal, "Step 不在冻结 Plan 中")
  raiseIf (claim.stepId ≠ result.stepId) (.claimMismatch, "claim 与 result Step 不一致")
  raiseIf (claim.preferredAgent ≠ planStep.preferredAgent)
    (.claimMismatch, "claim 与 Plan Step Agent 不一致")
  raiseIf (planStep.outputPolicy = .internal)
    (.internalStep, "INTERNAL Step 永远不得调用 OutputGate")
  raiseIf (planStep.stepId ≠ cfg.finalStep.stepId) (.notFinal, "仅唯一 final source 可以发布")
  raiseIf (cfg.hasStateGetter = true ∧ ¬ w.agentState.Succeeded claim.stepId)
    (.stepNotSucceeded, "Step 尚未 SUCCEEDED")
  raiseIf (w.store.status = .sealed) (.storeSealed, "Store 已 seal，拒绝发布")
  raiseIf (w.store.hasReadable claim.stepId = false)
    (.storeNotReadable, "Store entry 尚未 READABLE")
  raiseIf (cfg.hasRunActive = true ∧ w.runActive = false)
    (.runNotActive, "Run 已不在允许完成的活动状态")
  pure planStep.outputPolicy

/-- An attempt that never gets to publish. -/
def rejected (claim : StepClaim) (errorCode : OutputGateErrorCode) (message : String) :
    DeliveryAttempt :=
  ⟨claim.stepId, none, .failed, some errorCode.value, message⟩

/-- The locked section that leads into `PUBLISHING`. -/
def enter (call : ℕ) (claim : StepClaim) (result : StepResult) :
    GateCall (Except DeliveryAttempt OutputPolicy) :=
  perform fun _ w =>
    if w.state = .publishing then
      (.error (rejected claim .duplicateAttempt "publish 尝试正在进行中，拒绝并发第二次发布"), w)
    else if w.state ≠ .notStarted then
      (.error (rejected claim .duplicateAttempt "Gate 已终态，拒绝重复 publish 尝试"), w)
    else
      match authorize cfg w claim result with
      | .error (errorCode, message) => (.error (rejected claim errorCode message), w)
      | .ok policy =>
        (.ok policy,
          { w with
            state := .publishing
            publisher := some (call, result.content)
            history := w.history ++ [.entered call] })

/-- The durable receipt of an earlier delivery; whether there is one for this content. -/
def loadReceipt (content : String) : GateCall Bool :=
  tryPerform fun i w =>
    match i.loadFault with
    | some fault => (.error (fault.error false), w)
    | none =>
      match w.receipt with
      | none => (.ok false, w)
      | some digest =>
        if i.decisionMismatch = true ∨ digest ≠ cfg.digest content then (.error .runtime, w)
        else (.ok true, w)

/-- The checks of `_publish_output` before it looks at the loop. -/
def checkEmitter : GateCall Unit :=
  tryPerform fun i w =>
    if i.fault then (.error .runtime, w)
    else if cfg.hasEventEmitter = false then (.error .channelClosed, w)
    else if w.stepEmitterClosed then (.error .runtime, w)
    else (.ok (), w)

def publishOutput (content : String) : GateCall Unit := do
  checkEmitter cfg
  if cfg.hasLoopContext then
    if ← loadReceipt cfg content then return ()
    emit content (some (cfg.digest content))
  else
    checkGuard cfg
    emit content none

/-- The streamed text, and whether there is one. -/
def readStream : GateCall (Option (String × String × ℕ)) :=
  perform fun _ w => (w.streamStepId.map fun stepId => (stepId, w.streamed, w.streamedCharCount), w)

/-- The body of the `try`: compare with what was streamed, or publish. -/
def publish (claim : StepClaim) (content : String) : GateCall Unit := do
  match ← readStream with
  | some (stepId, streamed, charCount) =>
    if stepId ≠ claim.stepId ∨ charCount ≠ content.length ∨
        cfg.digest streamed ≠ cfg.digest content then
      throw .runtime
  | none => publishOutput cfg content

def concluded (claim : StepClaim) (policy : OutputPolicy) (status : DeliveryStatus)
    (errorCode : Option String) (message : String) : DeliveryAttempt :=
  ⟨claim.stepId, some policy, status, errorCode, message⟩

inductive Conclusion where
  | report (attempt : DeliveryAttempt)
  | reportAndRaise (attempt : DeliveryAttempt) (error : PublishError)
  | raise (error : PublishError)

/-- The `except` clauses. -/
def classify (claim : StepClaim) (policy : OutputPolicy) : Except PublishError Unit → Conclusion
  | .ok () => .report (concluded claim policy .delivered none "")
  | .error (.memoryContext errorCode) =>
    .reportAndRaise
      (concluded claim policy .failed (some errorCode) "Memory 来源资格已失效，未发布 Final")
      (.memoryContext errorCode)
  | .error (.publication true) =>
    .report (concluded claim policy .outcomeUnknown (some "FINAL_OUTPUT_DELIVERY_UNKNOWN")
      "final output 可能已 journaled，无法确认消费者是否收到")
  | .error (.publication false) =>
    .report (concluded claim policy .failed (some "FINAL_OUTPUT_DELIVERY_FAILED")
      "final output 在 journal append 前失败")
  | .error .runCancelled =>
    if cfg.hasLoopContext then .raise .runCancelled
    else .report (concluded claim policy .failed (some "FINAL_OUTPUT_DELIVERY_FAILED")
      "EventChannel 不可用，final output 未能发布")
  | .error .channelClosed | .error .runtime =>
    .report (concluded claim policy .failed (some "FINAL_OUTPUT_DELIVERY_FAILED")
      "EventChannel 不可用，final output 未能发布")
  | .error .cancelled =>
    .report (concluded claim policy .outcomeUnknown (some "FINAL_OUTPUT_DELIVERY_UNKNOWN")
      "publish 被取消，无法确认是否已持久化")
  | .error .deadlineExceeded =>
    if cfg.hasLoopContext then .raise .deadlineExceeded
    else .report (concluded claim policy .outcomeUnknown (some "FINAL_OUTPUT_DELIVERY_UNKNOWN")
      "publish 遇到未知异常，无法确认是否已持久化")
  | .error .other =>
    .report (concluded claim policy .outcomeUnknown (some "FINAL_OUTPUT_DELIVERY_UNKNOWN")
      "publish 遇到未知异常，无法确认是否已持久化")

def terminalState : DeliveryStatus → OutputGateState
  | .delivered => .published
  | .outcomeUnknown => .outcomeUnknown
  | .failed | .notApplicable => .failed

def record (call : ℕ) (content : String) (attempt : DeliveryAttempt) : GateCall Unit :=
  perform fun _ w =>
    ((),
      { w with
        state := terminalState attempt.deliveryStatus
        lastAttempt := some attempt
        history := w.history ++ [.reported call attempt content w.journal] })

/-- The end of an attempt that was publishing. -/
def conclude (call : ℕ) (content : String) : Conclusion → GateCall DeliveryAttempt
  | .report attempt => do
    record call content attempt
    return attempt
  | .reportAndRaise attempt error => do
    record call content attempt
    throw error
  | .raise error => throw error

def attemptPublish (call : ℕ) (claim : StepClaim) (result : StepResult) :
    GateCall DeliveryAttempt := do
  match ← enter cfg call claim result with
  | .error rejection => return rejection
  | .ok policy => do
    let outcome ← attempt (publish cfg claim result.content)
    conclude call result.content (classify cfg claim policy outcome)

def close (w : GateWorld) : GateWorld :=
  if w.state = .notStarted then { w with state := .failed } else w

end OutputGate

end LocalAgent.Runtime
