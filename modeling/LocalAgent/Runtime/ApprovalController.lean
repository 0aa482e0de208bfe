import LocalAgent.Runtime.DurableApproval
import LocalAgent.Runtime.StateRuns
import LocalAgent.Runtime.ToolIdempotency

/-!
# LocalAgent.Runtime.ApprovalController — `ToolApprovalController` of `core/runtime/approval.py`

The approvals of one run.  Every mutation is made under one `asyncio.Lock`; where a section waits
for a publication or for the database, the world holds what the lock's owner will do next, and the
other workers of the run and the other processes act in between.

* `ApprovalWorld`: the controller, the step states, the tables and what has happened.
* `step`: one section between two awaits, a publication, or somebody else's move.
-/

namespace LocalAgent.Runtime

open Text (NonBlank)

/-! ## The bridge to the step states -/

/-- The four methods of `ApprovalStepStateBridge`. -/
inductive BridgeMove where
  | runningToWaiting | waitingToRunning | waitingToFailedRejected | waitingToCancelled
  deriving DecidableEq

namespace BridgeMove

def eventType : BridgeMove → StepEventType
  | .runningToWaiting => .approvalRequested
  | .waitingToRunning => .approvalApproved
  | .waitingToFailedRejected => .approvalRejected
  | .waitingToCancelled => .cancelled

def errorCode : BridgeMove → Option String
  | .waitingToFailedRejected => some "TOOL_APPROVAL_REJECTED"
  | .waitingToCancelled => some "RUN_CANCELLED"
  | _ => none

def errorMessage : BridgeMove → Option String
  | .waitingToFailedRejected => some "Tool 调用已被拒绝审批"
  | .waitingToCancelled => some "运行取消使审批失效"
  | _ => none

/-- Every event of the bridge passes its own check. -/
theorem wellFormed (move : BridgeMove) (stepId : NonBlank) (now : DateTime.Utc) :
    StepEventData.postInit ⟨move.eventType, stepId, now, move.errorCode, move.errorMessage⟩ =
      .ok () := by
  have hid : ¬ Text.isBlank stepId.val = true := by
    rw [stepId.property]
    exact Bool.false_ne_true
  have hmessage : validateErrorMessage move.errorMessage = .ok () := by
    cases move <;> decide +kernel
  simp only [StepEventData.postInit, validateUtcDatetime, seq_eq_ok, raiseIf_ok, not_not]
  refine ⟨hid, now.property, hmessage, ?_⟩
  cases move <;> rfl

def event (move : BridgeMove) (stepId : NonBlank) (now : DateTime.Utc) : StepStateEvent where
  eventType := move.eventType
  stepId := stepId
  occurredAt := now
  errorCode := move.errorCode
  errorMessage := move.errorMessage
  wellFormed := move.wellFormed stepId now

end BridgeMove

/-- `AgentStateApprovalBridge`: `none` when the state machine raises. -/
def bridge (move : BridgeMove) (stepId : NonBlank) (now : DateTime.Utc) (state : AgentState) :
    Option AgentState :=
  match AgentStateMachine.applyStepEvent (move.event stepId now) state with
  | .ok () state' => some state'
  | .error _ _ => none

/-! ## Records and requests -/

structure ApprovalDecision where
  approvalId : String
  decision : ApprovalDecisionValue
  decidedAt : DateTime.Utc
  actorIdDigest : Option String
  deriving DecidableEq

structure ApprovalRecord where
  request : ApprovalRequest
  decision : Option ApprovalDecision
  status : ApprovalStatus
  deriving DecidableEq

def ApprovalDecisionValue.status : ApprovalDecisionValue → ApprovalStatus
  | .approve => .approved
  | .reject => .rejected

def ApprovalDecisionValue.move : ApprovalDecisionValue → BridgeMove
  | .approve => .waitingToRunning
  | .reject => .waitingToFailedRejected

namespace ApprovalStatus

def IsInvalidated (status : ApprovalStatus) : Prop :=
  status = .invalidatedCancelled ∨ status = .invalidatedTimeout ∨ status = .invalidatedRunTerminal
  deriving Decidable

/-- The statuses that `invalidate` passes over. -/
def isSettled : ApprovalStatus → Bool
  | .executionClaimed | .rejected | .invalidatedCancelled | .invalidatedTimeout => true
  | _ => false

end ApprovalStatus

def computeInvocationBindingDigest (invocation : ToolInvocation) (riskLevel : Option String)
    (riskFacts : List String) : Sha256.Digest :=
  let facts := riskFacts.insertionSort (· ≤ ·)
  Sha256.digest (Json.ensureAscii (Json.canonical (.obj
    [("invocation_identity_digest", .str (safeKeyDigest invocation.invocationId)),
      ("tool_name", .str invocation.toolName),
      ("arguments_digest", .str invocation.argumentsDigest),
      ("idempotency_key_digest", .ofOption (invocation.idempotencyKey.map safeKeyDigest)),
      ("resource_key_digest", .ofOption (invocation.resourceKey.map safeKeyDigest)),
      ("risk_level", .ofOption riskLevel), ("risk_facts", .arr (facts.map .str))])))

/-- What `request_approval` is called with. -/
structure ApprovalCall where
  stepId : String
  invocation : ToolInvocation
  toolName : String
  riskLevel : Option String
  riskFacts : List String

/-- The request that is built from a call, with a new id; `none` when a check raises. -/
def ApprovalCall.request (call : ApprovalCall) (approvalId runId : NonBlank)
    (now : DateTime.Utc) : Option ApprovalRequest :=
  if h : Text.isBlank call.stepId = false ∧ Text.isBlank call.toolName = false ∧
      (∀ level ∈ call.riskLevel, Text.isBlank level = false) ∧
      Sha256.isHexDigest call.invocation.argumentsDigest = true then
    some {
      approvalId := approvalId
      runId := runId
      stepId := ⟨call.stepId, h.1⟩
      invocationId := ⟨call.invocation.invocationId, call.invocation.invocationId_text⟩
      toolName := ⟨call.toolName, h.2.1⟩
      invocationIdentityDigest := Sha256.digest call.invocation.invocationId
      argumentsDigest := ⟨call.invocation.argumentsDigest, h.2.2.2⟩
      idempotencyKeyDigest := call.invocation.idempotencyKey.map Sha256.digest
      resourceKeyDigest := call.invocation.resourceKey.map Sha256.digest
      riskLevel := call.riskLevel.pmap Subtype.mk h.2.2.1
      riskFacts := call.riskFacts
      invocationBindingDigest :=
        computeInvocationBindingDigest call.invocation call.riskLevel call.riskFacts
      requestedAt := now }
  else none

/-- The comparison of `claim_execution` without a durable service. -/
def ApprovalRequest.Matches (request : ApprovalRequest) (invocation : ToolInvocation) : Prop :=
  invocation.invocationId = request.invocationId ∧ invocation.toolName = request.toolName ∧
    invocation.argumentsDigest = request.argumentsDigest.text ∧
    invocation.idempotencyKey.map safeKeyDigest = request.idempotencyKeyDigest.map (·.text) ∧
    invocation.resourceKey.map safeKeyDigest = request.resourceKeyDigest.map (·.text)
  deriving Decidable

/-! ## The world -/

/-- The evidence that is published to the journal. -/
inductive ApprovalEvidence where
  | requested (approvalId : String)
  | decided (approvalId : String) (status : ApprovalStatus)
  deriving DecidableEq

/-- What an observer writes down. -/
inductive ApprovalNote where
  | journaled (evidence : ApprovalEvidence)
  /-- its publication has returned without an error -/
  | published (evidence : ApprovalEvidence)
  | requested (approvalId : String) (stepId : String)
  /-- the step has left `WAITING_FOR_APPROVAL` with the decision -/
  | left (approvalId : String) (decision : ApprovalDecisionValue)
  /-- an execution claim was granted -/
  | claimed (approvalId : String) (invocation : ToolInvocation)

/-- What the owner of the lock does after a publication. -/
inductive Continuation where
  | request (request : ApprovalRequest)
  | decide (approvalId : String) (decision : ApprovalDecisionValue) (actorDigest : Option String)
      (now : DateTime.Utc)
  | invalidate (status : ApprovalStatus) (now : DateTime.Utc) (approvalId : String)
      (rest : List String)
  deriving DecidableEq

/-- The owner of the lock at an await. -/
inductive LockHolder where
  /-- `durable_service.create` -/
  | creating (request : ApprovalRequest) (emitter : Bool)
  /-- `event_emitter.emit`; `appended` when the journal has the event -/
  | publishing (evidence : ApprovalEvidence) (appended : Bool) (next : Continuation)
  /-- in the loop of `invalidate` -/
  | invalidating (status : ApprovalStatus) (now : DateTime.Utc) (rest : List String)
  deriving DecidableEq

/-- An answer of `durable_service.decide` that is not yet projected. -/
structure DurableAnswer where
  approvalId : String
  decision : ApprovalDecisionValue
  actorId : Option String
  result : ApprovalCommandResult
  deriving DecidableEq

/-- A call of `claim_execution` between `get` and the claim. -/
structure DurableClaimCall where
  approvalId : String
  invocation : ToolInvocation
  binding : String

structure ApprovalWorld where
  closed : Bool
  records : Dict String ApprovalRecord
  /-- the keys of `_approvals` -/
  registered : List String
  activeByInvocation : Dict String String
  lock : Option LockHolder
  answers : List DurableAnswer
  observed : List (String × ApprovalStatus)
  claiming : List DurableClaimCall
  tables : ApprovalTables
  state : AgentState
  history : List ApprovalNote

/-- The run of the controller, whether it has a durable service, and its lease. -/
structure ApprovalConfig where
  runId : NonBlank
  durable : Bool
  lease : Option RunLease

/-- What a section answers. -/
inductive ApprovalReply where
  | result (result : ApprovalCommandResult)
  | request (request : ApprovalRequest)
  | raised (code : ApprovalCommandErrorCode)
  /-- another exception -/
  | propagated
  | done
  /-- at an await -/
  | suspended

namespace ToolApprovalController

variable (cfg : ApprovalConfig) (w : ApprovalWorld)

/-- `_approvals.get`. -/
def lookup (approvalId : String) : Option ApprovalRecord :=
  if approvalId ∈ w.registered then w.records.get? approvalId else none

def setRecord (approvalId : String) (record : ApprovalRecord) : ApprovalWorld :=
  { w with records := w.records.set approvalId record }

def release : ApprovalWorld := { w with lock := none }

def note (note : ApprovalNote) : ApprovalWorld := { w with history := w.history ++ [note] }

def failed (approvalId : String) (status : ApprovalStatus) (code : ApprovalCommandErrorCode) :
    ApprovalReply :=
  .result { runId := cfg.runId, approvalId, effectiveStatus := status, safeErrorCode := some code }

/-! ## `request_approval` -/

/-- After the publication: the step waits, and the record is made. -/
def finishRequest (request : ApprovalRequest) (now : DateTime.Utc) :
    ApprovalWorld × ApprovalReply :=
  match bridge .runningToWaiting request.stepId now w.state with
  | none => (release w, .raised .stateTransitionFailed)
  | some state =>
    ({ w with
      lock := none
      state := state
      records := w.records.set request.approvalId ⟨request, none, .pending⟩
      registered :=
        if request.approvalId.val ∈ w.registered then w.registered
        else w.registered ++ [request.approvalId.val]
      activeByInvocation := w.activeByInvocation.set request.invocationId request.approvalId
      history := w.history ++ [.requested request.approvalId request.stepId] }, .request request)

def publishRequest (request : ApprovalRequest) (emitter : Bool) (now : DateTime.Utc) :
    ApprovalWorld × ApprovalReply :=
  if emitter then
    ({ w with lock := some (.publishing (.requested request.approvalId) false (.request request)) },
      .suspended)
  else finishRequest w request now

/-- `_request_approval_coro`, up to its first await. -/
def requestApproval (request : ApprovalRequest) (emitter : Bool) (now : DateTime.Utc) :
    ApprovalWorld × ApprovalReply :=
  if w.closed then (w, .raised .controllerClosed)
  else if (w.activeByInvocation.get? request.invocationId).isSome then
    (w, .raised .duplicateInvocation)
  else if cfg.durable then ({ w with lock := some (.creating request emitter) }, .suspended)
  else publishRequest w request emitter now

/-- `durable_service.create` and what follows; `createdAt` is the time of the database. -/
def createDurable (request : ApprovalRequest) (emitter : Bool) (createdAt now : DateTime.Utc) :
    ApprovalWorld × ApprovalReply :=
  match DurableApprovalService.create w.tables request createdAt with
  | .error _ => (release w, .raised .publicationFailed)
  | .ok (canonical, tables) => publishRequest { w with tables := tables } canonical emitter now

/-! ## `decide` -/

def lateDecisionResult (approvalId : String) (record : ApprovalRecord)
    (decision : ApprovalDecisionValue) : ApprovalReply :=
  let decidedAt := record.decision.map (·.decidedAt)
  if record.status = .invalidatedCancelled ∨ record.status = .invalidatedTimeout then
    .result { runId := cfg.runId, approvalId, effectiveStatus := record.status
              safeErrorCode := some .invalidated, decidedAt }
  else if record.decision.any (·.decision = decision) then
    .result { runId := cfg.runId, approvalId, effectiveStatus := record.status
              idempotent := true, decidedAt }
  else
    .result { runId := cfg.runId, approvalId, effectiveStatus := record.status
              safeErrorCode := some .decisionConflict, decidedAt }

/-- `_decide_coro` without a durable service, up to the publication of the evidence; `inactive` is
what `_inactive_status` answers, `emitter` whether the step has one. -/
def decide (runId approvalId bindingDigest : String) (decision : ApprovalDecisionValue)
    (actorId : Option String) (inactive : Option ApprovalStatus) (emitter : Bool)
    (now : DateTime.Utc) : ApprovalWorld × ApprovalReply :=
  if runId ≠ cfg.runId.val then
    (w, .result { runId, approvalId, effectiveStatus := .pending
                  safeErrorCode := some .unknownRun })
  else if w.closed then (w, .raised .controllerClosed)
  else
    match lookup w approvalId with
    | none => (w, failed cfg approvalId .pending .unknownApproval)
    | some record =>
      if record.request.invocationBindingDigest.text ≠ bindingDigest then
        (w, failed cfg approvalId record.status .bindingMismatch)
      else if record.status ≠ .pending then
        (w, lateDecisionResult cfg approvalId record decision)
      else
        match inactive, computeActorIdDigest actorId with
        | some status, _ => (w, failed cfg approvalId status .runInactive)
        | none, .error _ => (w, .propagated)
        | none, .ok actorDigest =>
          if emitter then
            ({ w with lock := some (.publishing (.decided approvalId decision.status) false
                (.decide approvalId decision actorDigest now)) }, .suspended)
          else (w, failed cfg approvalId .pending .journalUnavailable)

/-- `_finalize_decision`, with the time that was read before the publication. -/
def finalizeDecision (approvalId : String) (decision : ApprovalDecisionValue)
    (actorDigest : Option String) (now : DateTime.Utc) : ApprovalWorld × ApprovalReply :=
  match w.records.get? approvalId with
  | none => (release w, .propagated)
  | some record =>
    if record.status ≠ .pending then (release w, lateDecisionResult cfg approvalId record decision)
    else
      match bridge decision.move record.request.stepId now w.state with
      | none => (release w, failed cfg approvalId record.status .stateTransitionFailed)
      | some state =>
        ({ w with
          lock := none
          state := state
          records := w.records.set approvalId
            ⟨record.request, some ⟨approvalId, decision, now, actorDigest⟩, decision.status⟩
          history := w.history ++ [.left approvalId decision] },
          .result { runId := cfg.runId, approvalId, effectiveStatus := decision.status
                    decidedAt := some now })

/-- `durable_service.decide`. -/
def decideDurable (runId approvalId bindingDigest : String) (decision : ApprovalDecisionValue)
    (actorId : Option String) (decidedAt : DateTime.Utc) : ApprovalWorld × ApprovalReply :=
  if runId ≠ cfg.runId.val then
    (w, .result { runId, approvalId, effectiveStatus := .pending
                  safeErrorCode := some .unknownRun })
  else
    match DurableApprovalService.decide w.tables runId approvalId bindingDigest decision actorId
        decidedAt with
    | .error _ => (w, .propagated)
    | .ok (result, tables) =>
      ({ w with
        tables := tables
        answers := w.answers ++ [⟨approvalId, decision, actorId, result⟩] }, .suspended)

/-- The step transition of a status, where it has one. -/
def statusDecision : ApprovalStatus → Option ApprovalDecisionValue
  | .approved => some .approve
  | .rejected => some .reject
  | _ => none

/-- The step transition of an answer; what it raises is ignored. -/
def projectStep (approvalId : String) (stepId : NonBlank) (status : ApprovalStatus)
    (now : DateTime.Utc) : ApprovalWorld :=
  match statusDecision status with
  | none => w
  | some decision =>
    match bridge decision.move stepId now w.state with
    | none => w
    | some state =>
      { w with state := state, history := w.history ++ [.left approvalId decision] }

/-- The locked section after `durable_service.decide`. -/
def projectAnswer (answer : DurableAnswer) (now : DateTime.Utc) : ApprovalWorld × ApprovalReply :=
  match lookup w answer.approvalId with
  | none => (w, .result answer.result)
  | some record =>
    if answer.result.safeErrorCode ≠ none then (w, .result answer.result)
    else
      -- the status is written before the digest of the actor is computed
      let status := answer.result.effectiveStatus
      let decidedAt := answer.result.decidedAt.getD now
      match computeActorIdDigest answer.actorId with
      | .error _ => (setRecord w answer.approvalId { record with status := status }, .propagated)
      | .ok actorDigest =>
        (projectStep (setRecord w answer.approvalId
            ⟨record.request, some ⟨answer.approvalId, answer.decision, decidedAt, actorDigest⟩,
              status⟩)
          answer.approvalId record.request.stepId status decidedAt, .result answer.result)

/-! ## `claim_execution` -/

/-- `_claim_execution_coro` without a durable service. -/
def claimExecution (approvalId : String) (invocation : ToolInvocation)
    (inactive : Option ApprovalStatus) : ApprovalWorld × ApprovalReply :=
  if w.closed then (w, .raised .controllerClosed)
  else
    match lookup w approvalId with
    | none => (w, failed cfg approvalId .pending .unknownApproval)
    | some record =>
      if ¬ record.request.Matches invocation then
        (w, failed cfg approvalId record.status .claimBindingMismatch)
      else if record.status ≠ .approved then
        (w, failed cfg approvalId record.status
          (if record.status = .executionClaimed then .claimAlreadyExecuted else .claimNotApproved))
      else
        match inactive with
        | some status =>
          (setRecord w approvalId { record with status := status },
            failed cfg approvalId status .runInactive)
        | none =>
          (note (setRecord w approvalId { record with status := .executionClaimed })
              (.claimed approvalId invocation),
            .result { runId := cfg.runId, approvalId, effectiveStatus := .executionClaimed
                      invocationBindingDigest := some record.request.invocationBindingDigest.text })

/-- `_claim_execution_coro` with a durable service, up to the claim. -/
def readClaim (approvalId : String) (invocation : ToolInvocation) : ApprovalWorld × ApprovalReply :=
  match DurableApprovalService.get w.tables approvalId with
  | none => (w, failed cfg approvalId .pending .unknownApproval)
  | some request =>
    let binding := computeInvocationBindingDigest invocation (request.riskLevel.map (·.val))
      request.riskFacts
    if cfg.lease = none then (w, .raised .claimNotApproved)
    else if binding ≠ request.invocationBindingDigest then
      (w, failed cfg approvalId .approved .claimBindingMismatch)
    else
      ({ w with claiming := w.claiming ++ [⟨approvalId, invocation, binding.text⟩] }, .suspended)

/-- `durable_service.claim_execution`. -/
def claimDurable (lease : RunLease) (call : DurableClaimCall) (claimId : String) (dbNow : ℤ)
    (createdAt : DateTime.Utc) : ApprovalWorld × ApprovalReply :=
  match DurableApprovalService.claimExecution w.tables lease call.approvalId call.binding claimId
      dbNow createdAt with
  | .error (.ownershipLost _) => (w, .propagated)
  | .error _ => (w, failed cfg call.approvalId .approved .claimAlreadyExecuted)
  | .ok (claim, tables) =>
    (note { w with tables := tables } (.claimed call.approvalId call.invocation),
      .result { runId := cfg.runId, approvalId := call.approvalId
                effectiveStatus := .executionClaimed
                invocationBindingDigest := some call.binding
                executionClaimId := some claim.claimId })

/-! ## `_observe_durable_status_coro` -/

/-- The read of the durable status. -/
def observeStatus (approvalId : String) : ApprovalWorld × ApprovalReply :=
  match DurableApprovalService.status w.tables approvalId with
  | none | some .pending => (w, .done)
  | some status => ({ w with observed := w.observed ++ [(approvalId, status)] }, .suspended)

def observedMove : ApprovalStatus → Option BridgeMove
  | .approved => some .waitingToRunning
  | .rejected => some .waitingToFailedRejected
  | .invalidatedCancelled | .invalidatedTimeout | .invalidatedRunTerminal =>
    some .waitingToCancelled
  | .pending | .executionClaimed => none

/-- The locked section after the read. -/
def projectStatus (approvalId : String) (status : ApprovalStatus) (now : DateTime.Utc) :
    ApprovalWorld × ApprovalReply :=
  if w.closed then (w, .raised .controllerClosed)
  else
    match lookup w approvalId with
    | none => (w, .done)
    | some record =>
      if record.status ≠ .pending then (w, .done)
      else
        match observedMove status with
        | none => (w, .done)
        | some move =>
          match bridge move record.request.stepId now w.state with
          | none => (w, .raised .stateTransitionFailed)
          | some state =>
            ({ setRecord w approvalId { record with status := status } with
              state := state
              history := w.history ++
                ((statusDecision status).map (.left approvalId)).toList }, .done)

/-! ## `invalidate` -/

/-- `_invalidate_coro`, up to its loop. -/
def invalidate (status : ApprovalStatus) (actorId : Option String) (now : DateTime.Utc) :
    ApprovalWorld × ApprovalReply :=
  if status ≠ .invalidatedCancelled ∧ status ≠ .invalidatedTimeout then (w, .propagated)
  else
    match computeActorIdDigest actorId with
    | .error _ => (w, .propagated)
    | .ok _ => ({ w with lock := some (.invalidating status now w.registered) }, .suspended)

/-- One record is invalidated; a refused transition is ignored. -/
def settleInvalidation (status : ApprovalStatus) (now : DateTime.Utc) (approvalId : String)
    (rest : List String) : ApprovalWorld × ApprovalReply :=
  match w.records.get? approvalId with
  | none => (release w, .propagated)
  | some record =>
    ({ w with
      lock := some (.invalidating status now rest)
      state := (bridge .waitingToCancelled record.request.stepId now w.state).getD w.state
      records := w.records.set approvalId { record with status := status } }, .suspended)

def invalidateNext (status : ApprovalStatus) (now : DateTime.Utc) (emitter : Bool) :
    List String → ApprovalWorld × ApprovalReply
  | [] => (release w, .done)
  | approvalId :: rest =>
    if ((w.records.get? approvalId).map (·.status)).any (·.isSettled) then
      ({ w with lock := some (.invalidating status now rest) }, .suspended)
    else if emitter then
      ({ w with lock := some (.publishing (.decided approvalId status) false
          (.invalidate status now approvalId rest)) }, .suspended)
    else settleInvalidation w status now approvalId rest

/-! ## Publication -/

/-- How `event_emitter.emit` ends. -/
inductive PublishOutcome where
  | returned
  /-- `JournalError`, `EventEmitterSyncError` or `RuntimeError` -/
  | raised
  /-- another exception, or the cancellation of the task -/
  | propagated
  deriving DecidableEq

/-- What follows a publication that has returned. -/
def resume (now : DateTime.Utc) : Continuation → ApprovalWorld × ApprovalReply
  | .request request => finishRequest w request now
  | .decide approvalId decision actorDigest decidedAt =>
    finalizeDecision cfg w approvalId decision actorDigest decidedAt
  | .invalidate status invalidatedAt approvalId rest =>
    settleInvalidation w status invalidatedAt approvalId rest

def resumeRaised : Continuation → ApprovalWorld × ApprovalReply
  | .request _ => (release w, .raised .publicationFailed)
  | .decide approvalId _ _ _ => (release w, failed cfg approvalId .pending .publicationFailed)
  | .invalidate status invalidatedAt approvalId rest =>
    settleInvalidation w status invalidatedAt approvalId rest

/-- The end of a publication; it returns only with the event in the journal. -/
def endPublication (outcome : PublishOutcome) (now : DateTime.Utc) (evidence : ApprovalEvidence)
    (appended : Bool) (next : Continuation) : Option (ApprovalWorld × ApprovalReply) :=
  match outcome with
  | .returned => if appended then some (resume cfg (note w (.published evidence)) now next) else none
  | .raised => some (resumeRaised cfg w next)
  | .propagated => some (release w, .propagated)

/-! ## Steps -/

inductive Action where
  /-- `request_approval`, with the new id -/
  | request (call : ApprovalCall) (approvalId : NonBlank) (emitter : Bool)
      (requestedAt now : DateTime.Utc)
  | create (createdAt now : DateTime.Utc)
  /-- `durable_service.create` has raised or was cancelled -/
  | createFailed
  | decide (runId approvalId bindingDigest : String) (decision : ApprovalDecisionValue)
      (actorId : Option String) (inactive : Option ApprovalStatus) (emitter : Bool)
      (now : DateTime.Utc)
  | projectAnswer (n : ℕ) (now : DateTime.Utc)
  | claim (approvalId : String) (invocation : ToolInvocation) (inactive : Option ApprovalStatus)
  | claimDurable (n : ℕ) (claimId : String) (dbNow : ℤ) (createdAt : DateTime.Utc)
  | observe (approvalId : String)
  | projectStatus (n : ℕ) (now : DateTime.Utc)
  | invalidate (status : ApprovalStatus) (actorId : Option String) (now : DateTime.Utc)
  | invalidateNext (emitter : Bool)
  /-- the event of the publication under way is in the journal -/
  | append
  | endPublication (outcome : PublishOutcome) (now : DateTime.Utc)
  | close
  | work (call : AgentStateMachine.Call)
  /-- another process, leases and cancel intents -/
  | elsewhere (action : DurableApprovalService.Action)

/-- The bridge alone asks for approvals. -/
def IsWork : AgentStateMachine.Call → Bool
  | .applyStepEvent event => event.eventType ≠ .approvalRequested
  | _ => true

/-- `_inactive_status`. -/
def IsInactive (inactive : Option ApprovalStatus) : Prop :=
  ∀ status ∈ inactive, status = .invalidatedCancelled ∨ status = .invalidatedTimeout
  deriving Decidable

/-- A section that takes the lock. -/
def locked (x : ApprovalWorld × ApprovalReply) : Option ApprovalWorld :=
  if w.lock = none then some x.1 else none

/-- `close`. -/
def closeController : ApprovalWorld :=
  { w with closed := true, registered := [], activeByInvocation := .empty }

def step : Action → Option ApprovalWorld
  | .request call approvalId emitter requestedAt now =>
    -- the id is a new one
    if (w.records.get? approvalId).isSome then none
    else
      match call.request approvalId cfg.runId requestedAt with
      | none => some w
      | some request => locked w (requestApproval cfg w request emitter now)
  | .create createdAt now =>
    match w.lock with
    | some (.creating request emitter) => some (createDurable w request emitter createdAt now).1
    | _ => none
  | .createFailed =>
    match w.lock with
    | some (.creating _ _) => some (release w)
    | _ => none
  | .decide runId approvalId bindingDigest decision actorId inactive emitter now =>
    if cfg.durable then
      some (decideDurable cfg w runId approvalId bindingDigest decision actorId now).1
    else if IsInactive inactive then
      locked w (decide cfg w runId approvalId bindingDigest decision actorId inactive emitter now)
    else none
  | .projectAnswer n now =>
    w.answers[n]?.bind fun answer =>
      locked w (projectAnswer { w with answers := w.answers.eraseIdx n } answer now)
  | .claim approvalId invocation inactive =>
    if cfg.durable then some (readClaim cfg w approvalId invocation).1
    else if IsInactive inactive then locked w (claimExecution cfg w approvalId invocation inactive)
    else none
  | .claimDurable n claimId dbNow createdAt =>
    w.claiming[n]?.bind fun call => cfg.lease.map fun lease =>
      (claimDurable cfg { w with claiming := w.claiming.eraseIdx n } lease call claimId dbNow
        createdAt).1
  | .observe approvalId => if cfg.durable then some (observeStatus w approvalId).1 else none
  | .projectStatus n now =>
    w.observed[n]?.bind fun entry =>
      locked w (projectStatus { w with observed := w.observed.eraseIdx n } entry.1 entry.2 now)
  | .invalidate status actorId now => locked w (invalidate w status actorId now)
  | .invalidateNext emitter =>
    match w.lock with
    | some (.invalidating status now rest) => some (invalidateNext w status now emitter rest).1
    | _ => none
  | .append =>
    match w.lock with
    | some (.publishing evidence false next) =>
      some { note w (.journaled evidence) with lock := some (.publishing evidence true next) }
    | _ => none
  | .endPublication outcome now =>
    match w.lock with
    | some (.publishing evidence appended next) =>
      (endPublication cfg w outcome now evidence appended next).map (·.1)
    | _ => none
  | .close => some (closeController w)
  | .work call => if IsWork call then some { w with state := Op.after call.op w.state } else none
  | .elsewhere action =>
    (DurableApprovalService.step w.tables action).map fun tables => { w with tables := tables }

/-- A new controller of a run, over tables that the other processes fill. -/
def start (state : AgentState) : ApprovalWorld :=
  ⟨false, .empty, [], .empty, none, [], [], [], DurableApprovalService.start, state, []⟩

end ToolApprovalController

end LocalAgent.Runtime
