import LocalAgent.Runtime.DurableExecution
import LocalAgent.Runtime.LoopBudget

/-!
# LocalAgent.Runtime.LoopFrames — frames and iterations of a durable agent loop

The transactions of `core/persistence/repositories/execution.py`, `agent_loop.py` and
`agent_delegation.py` that write a loop frame or an iteration, over the rows of one run.  The budget
is `RootBudget` of `LoopBudget`; the rows of tools and actions only enter as refusals.

* `publishLoopFinal`, `stopLoop`: delivery and stop.
* `startModelAttempt`, `finishModelAttempt`: model attempts of a loop; a settlement over the budget
  stops the frame.
* `openLoopIteration`, `acceptContextAndOpenIteration`, `acceptLoopDecision`, `acceptBatch`: decisions.
* `bindLoopAction`, `commitLoopObservation`, `commitBatch`, `acceptChild`: from a decision to its
  observation.
* `prepareRecovery`: takeover, with the recovery limit of model attempts.
-/

namespace LocalAgent.Runtime

/-! ## The rows -/

inductive LoopPhase where
  | needDecision | decisionAccepted | waitTool | waitActions | waitChild | resultReady | stopped
  deriving DecidableEq

inductive LoopIterationState where
  | opened | accepted | observed | closed
  deriving DecidableEq

/-- `final_delivery_receipt`; its `cursor` is the sequence and its status is `DELIVERED`. -/
structure LoopReceipt where
  decisionId : String
  resultDigest : String
  contentDigest : String
  eventId : String
  sequence : ℕ
  deriving DecidableEq

/-- `runtime_loop_frames`; of the pinned columns it keeps what the transactions below read. -/
structure LoopFrame where
  frameRole : LoopFrameRole
  stepId : String
  delegationId : Option String
  contextPolicy : Bool
  maxIterations : ℕ
  resumeGeneration : ℕ
  rowVersion : ℕ
  lastCommittedFencingToken : ℕ
  phase : LoopPhase
  currentIteration : ℕ
  committedObservationCursor : ℕ
  stopCode : Option String
  stopDetails : List (String × String)
  resultDecisionId : Option String
  finalDeliveryReceipt : Option LoopReceipt
  deriving DecidableEq

/-- `runtime_loop_iterations`, by frame and number. -/
structure LoopIteration where
  state : LoopIterationState
  modelRecoveryCount : ℕ
  contextSnapshotId : Option String
  decisionId : Option String
  decisionDigest : Option String
  acceptedModelAttempt : Option (ℕ × ℕ)
  toolInvocationId : Option String
  /-- the digests of the observation and of its source -/
  observation : Option (String × String)
  observationCursor : Option ℕ
  deriving DecidableEq

def LoopIteration.new (contextSnapshotId : Option String) : LoopIteration where
  state := .opened
  modelRecoveryCount := 0
  contextSnapshotId := contextSnapshotId
  decisionId := none
  decisionDigest := none
  acceptedModelAttempt := none
  toolInvocationId := none
  observation := none
  observationCursor := none

/-- `runtime_agent_delegations`. -/
structure LoopDelegation where
  parentFrameId : String
  parentIteration : ℕ
  childFrameId : String
  resultDigest : Option String
  observed : Bool
  deriving DecidableEq

/-- The loop columns of `runtime_model_invocations`. -/
structure LoopModelRow where
  state : ModelAttemptState
  purpose : ModelPurpose
  loopFrameId : Option String
  loopIterationNo : Option ℕ
  contextSnapshotId : Option String
  safeError : Option String
  lastCommittedFencingToken : ℕ
  deriving DecidableEq

/-- An event of the run's journal. -/
structure LoopEvent where
  eventId : String
  sequence : ℕ
  eventType : RuntimeEventType
  text : String
  deriving DecidableEq

structure LoopTables where
  root : RootBudget
  frames : Dict String LoopFrame
  iterations : Dict (String × ℕ) LoopIteration
  models : Dict ModelAttemptKey LoopModelRow
  delegations : Dict String LoopDelegation
  journal : List LoopEvent

/-- What the parts of a transaction that are not modelled raise. -/
structure LoopChecks where
  /-- lease, root status, versions and digests of pins -/
  access : Option String
  /-- cancellation and deadline -/
  control : Option String
  /-- the checks of the single transaction, as its definition says -/
  further : Option String

structure LoopTarget where
  frameId : String
  resumeGeneration : Option ℕ
  rowVersion : Option ℕ

/-- `_touch_loop`. -/
def LoopFrame.touch (frame : LoopFrame) (lease : RunLease) : LoopFrame :=
  { frame with
    rowVersion := frame.rowVersion + 1
    lastCommittedFencingToken := lease.fencingToken }

/-- `_check_loop_version`. -/
def LoopFrame.checkVersion (frame : LoopFrame) (rowVersion : Option ℕ) : Except LoopError Unit :=
  raiseIf (∃ version ∈ rowVersion, frame.rowVersion ≠ version) (.runtime "LOOP_CAS_CONFLICT")

/-- What stands after `head` in a message that begins with it. -/
def messageAfter (head message : String) : Option String :=
  if head.toList.isPrefixOf message.toList then
    some (String.ofList (message.toList.drop head.toList.length))
  else none

/-- The dimension of a `LOOP_BUDGET_EXHAUSTED:` error. -/
def LoopError.exhausted : LoopError → Option String
  | .runtime message => messageAfter "LOOP_BUDGET_EXHAUSTED:" message
  | _ => none

/-- `append_in_transaction` of the journal: an event it holds already is a duplicate. -/
def journalAppend (journal : List LoopEvent) (event : LoopEvent) :
    Except LoopError (List LoopEvent) :=
  match journal.find? (·.eventId = event.eventId) with
  | some existing => do
    raiseIf (existing ≠ event) (.refused "JOURNAL_EVENT_ID_CONFLICT")
    return journal
  | none => do
    raiseIf (∃ other ∈ journal, other.sequence = event.sequence)
      (.refused "JOURNAL_SEQUENCE_CONFLICT")
    raiseIf (∃ other ∈ journal, other.eventType = .runCompleted)
      (.refused "JOURNAL_RUN_ALREADY_TERMINAL")
    raiseIf (∃ other ∈ journal, event.sequence ≤ other.sequence) (.refused "JOURNAL_OUT_OF_ORDER")
    return journal ++ [event]

namespace LoopTables

variable (tables : LoopTables) (lease : RunLease)

/-- `_lock_loop` up to its control checks. -/
def lockFrame (access : Option String) (frameId : String) (resumeGeneration : Option ℕ) :
    Except LoopError LoopFrame := do
  LoopError.ofCheck access
  let frame ← orRaise (tables.frames.get? frameId) (.refused "NoResultFound")
  raiseIf (∃ generation ∈ resumeGeneration, frame.resumeGeneration ≠ generation)
    (.runtime "LOOP_STALE_GENERATION")
  return frame

def lockLoop (checks : LoopChecks) (target : LoopTarget) : Except LoopError LoopFrame := do
  let frame ← tables.lockFrame checks.access target.frameId target.resumeGeneration
  LoopError.ofCheck checks.control
  return frame

def putFrame (frameId : String) (frame : LoopFrame) : LoopTables :=
  { tables with frames := tables.frames.set frameId frame }

def putIteration (frameId : String) (frame : LoopFrame) (iterationNo : ℕ)
    (iteration : LoopIteration) : LoopTables :=
  { tables with
    frames := tables.frames.set frameId frame
    iterations := tables.iterations.set (frameId, iterationNo) iteration }

/-! ## Stop and delivery -/

def stopLoop (checks : LoopChecks) (target : LoopTarget) (stopCode : String)
    (stopDetails : List (String × String)) : Except LoopError LoopTables := do
  let frame ← tables.lockFrame checks.access target.frameId target.resumeGeneration
  if frame.phase = .stopped then
    raiseIf (frame.stopCode ≠ some stopCode ∨ frame.stopDetails ≠ stopDetails)
      (.runtime "LOOP_STOP_CONFLICT")
    return tables
  else
    frame.checkVersion target.rowVersion
    raiseIf (frame.finalDeliveryReceipt ≠ none) (.runtime "LOOP_FINAL_ALREADY_DELIVERED")
    return tables.putFrame target.frameId (LoopFrame.touch
      { frame with phase := .stopped, stopCode := some stopCode, stopDetails := stopDetails } lease)

def acceptedModel (frameId stepId decisionId : String) : Option LoopModelRow := do
  let entry ← tables.iterations.entries.find? fun entry =>
    entry.1.1 = frameId ∧ entry.2.decisionId = some decisionId
  let attempt ← entry.2.acceptedModelAttempt
  tables.models.get? ⟨stepId, attempt.1, attempt.2⟩

/-- `publish_loop_final`; `sha256` digests a text, `checks.further` is what the admission, the
decision restored from the model row and the client feed raise. -/
def publishLoopFinal (sha256 : String → String) (checks : LoopChecks) (target : LoopTarget)
    (decisionId resultDigest : String) (event : LoopEvent) : Except LoopError LoopTables := do
  raiseIf (event.eventType ≠ .outputDelta) (.value "LOOP_FINAL_EVENT_INVALID")
  let frame ← tables.lockFrame checks.access target.frameId target.resumeGeneration
  match frame.finalDeliveryReceipt with
  | some receipt =>
    raiseIf (receipt.decisionId ≠ decisionId ∨ receipt.resultDigest ≠ resultDigest)
      (.runtime "LOOP_FINAL_CONFLICT")
    return tables
  | none =>
    frame.checkVersion target.rowVersion
    LoopError.ofCheck checks.control
    raiseIf (frame.frameRole ≠ .root ∨ frame.phase ≠ .resultReady ∨
      frame.resultDecisionId ≠ some decisionId) (.runtime "LOOP_FINAL_NOT_READY")
    raiseIf ((tables.acceptedModel target.frameId frame.stepId decisionId).map (·.state) ≠
      some .completed) (.runtime "LOOP_MODEL_BINDING_INVALID")
    raiseIf (sha256 event.text ≠ resultDigest) (.runtime "LOOP_FINAL_CONTENT_DIGEST_INVALID")
    let journal ← journalAppend tables.journal event
    LoopError.ofCheck checks.further
    let receipt : LoopReceipt :=
      ⟨decisionId, resultDigest, sha256 event.text, event.eventId, event.sequence⟩
    return { tables.putFrame target.frameId
        (LoopFrame.touch { frame with finalDeliveryReceipt := some receipt } lease) with
      journal := journal }

/-! ## Model attempts -/

/-- A call of `start_model_attempt` for a loop frame. -/
structure ModelStart where
  key : ModelAttemptKey
  purpose : ModelPurpose
  loopIterationNo : Option ℕ
  contextSnapshotId : Option String
  operationId : String
  reservedUsage : Option Amounts
  events : List LoopEvent

def startedModel (frameId : String) (start : ModelStart) (existing : Option LoopModelRow) :
    LoopModelRow :=
  match existing with
  | none => ⟨.started, start.purpose, some frameId, start.loopIterationNo, start.contextSnapshotId,
      none, lease.fencingToken⟩
  | some row => { row with state := .started, lastCommittedFencingToken := lease.fencingToken }

def phaseFor : ModelPurpose → LoopPhase
  | .formation => .resultReady
  | .decision | .compaction => .needDecision

/-- `start_model_attempt`; `checks.further` is what the context operation, the request assessment,
the admissions and the evidence capture raise. -/
def startModelAttempt (checks : LoopChecks) (target : LoopTarget) (start : ModelStart) :
    Except LoopError LoopTables := do
  let frame ← tables.lockLoop checks target
  raiseIf (frame.frameRole = .child ∧ start.purpose = .formation)
    (.runtime "DELEGATION_FORMATION_DENIED")
  raiseIf (frame.stepId ≠ start.key.stepId ∨ frame.phase ≠ phaseFor start.purpose)
    (.runtime "LOOP_MODEL_BINDING_INVALID")
  raiseIf (start.purpose = .decision ∧
      ((start.loopIterationNo.bind fun no => tables.iterations.get? (target.frameId, no)).map
        (·.state)) ≠ some .opened) (.runtime "LOOP_MODEL_BINDING_INVALID")
  LoopError.ofCheck checks.further
  let root ← tables.root.reserveBudgetOperation lease frame.delegationId start.operationId
    start.reservedUsage .model frame.resumeGeneration
  raiseIf (∃ row ∈ tables.models.get? start.key, row.state ≠ .notStarted)
    (.runtime "model attempt is not startable")
  let journal ← start.events.foldlM journalAppend tables.journal
  return { tables with
    root := root
    models := tables.models.set start.key
      (startedModel lease target.frameId start (tables.models.get? start.key))
    journal := journal }

/-- A call of `finish_model_attempt`. -/
structure ModelFinish where
  key : ModelAttemptKey
  state : ModelAttemptState
  loopFrameId : Option String
  resumeGeneration : Option ℕ
  operationId : Option String
  actualUsage : Option Amounts
  usageSource : String
  safeError : Option String
  events : List LoopEvent

/-- The frame of the attempt: the one the caller names, or that of the row. -/
def finishFrame (finish : ModelFinish) : Option String :=
  match finish.loopFrameId with
  | some frameId => some frameId
  | none =>
    if finish.resumeGeneration = none then none
    else (tables.models.get? finish.key).bind (·.loopFrameId)

/-- The frame of an attempt that used more than the budget. -/
def exhaustedFrame (frame : LoopFrame) (dimension : String) : LoopFrame :=
  LoopFrame.touch { frame with
    phase := .stopped
    stopCode := some "LOOP_BUDGET_EXHAUSTED"
    stopDetails := [("budget_dimension", dimension)] } lease

/-- The settlement of an attempt: the root, the frame that was stopped, and what the attempt ends
with. -/
def settleAttempt (frameId : String) (frame : LoopFrame) (operationId : String)
    (finish : ModelFinish) :
    Except LoopError (LoopTables × ModelAttemptState × Option String) :=
  match tables.root.settleBudgetOperation lease operationId finish.actualUsage
    finish.usageSource with
  | .ok root => .ok ({ tables with root := root }, finish.state, finish.safeError)
  | .error e =>
    match frame.contextPolicy, e.exhausted with
    | true, some dimension => do
      -- the reservation is still charged; the attempt cannot win any more
      let root ← tables.root.settleBudgetOperation lease operationId none "ESTIMATED"
      return ({ tables.putFrame frameId (exhaustedFrame lease frame dimension) with root := root },
        .unknown, some "BUDGET_EXHAUSTED")
    | _, _ => .error e

/-- The loop part of `finish_model_attempt`. -/
def settleFinish (checks : LoopChecks) (finish : ModelFinish) :
    Except LoopError (LoopTables × ModelAttemptState × Option String) :=
  match tables.finishFrame finish with
  | none => .ok (tables, finish.state, finish.safeError)
  | some frameId => do
    let frame ← tables.lockLoop checks ⟨frameId, finish.resumeGeneration, none⟩
    let operationId ← orRaise finish.operationId (.value "Loop model requires budget operation")
    tables.settleAttempt lease frameId frame operationId finish

/-- `finish_model_attempt`; `checks.further` is what the checks of the result and of a rejection
raise. -/
def finishModelAttempt (checks : LoopChecks) (finish : ModelFinish) :
    Except LoopError LoopTables := do
  raiseIf (finish.state.isFinish = false) (.value "model finish state must be COMPLETED or UNKNOWN")
  let (settled, state, safeError) ← tables.settleFinish lease checks finish
  let row ← orRaise (settled.models.get? finish.key)
    (.runtime "model attempt transition rejected")
  raiseIf (row.state ≠ .started) (.runtime "model attempt transition rejected")
  LoopError.ofCheck checks.further
  let journal ← finish.events.foldlM journalAppend settled.journal
  return { settled with
    models := settled.models.set finish.key { row with
      state := state
      safeError := safeError
      lastCommittedFencingToken := lease.fencingToken }
    journal := journal }

/-! ## Iterations -/

/-- A new open iteration. -/
def insertIteration (frameId : String) (frame : LoopFrame) (contextSnapshotId : Option String) :
    Except LoopError LoopTables := do
  raiseIf (frame.maxIterations ≤ frame.currentIteration) (.runtime "LOOP_ITERATION_LIMIT")
  -- the primary key of the inserted row
  raiseIf (tables.iterations.get? (frameId, frame.currentIteration + 1) ≠ none) .persistence
  return tables.putIteration frameId
    (LoopFrame.touch { frame with currentIteration := frame.currentIteration + 1 } lease)
    (frame.currentIteration + 1) (LoopIteration.new contextSnapshotId)

def openRow (frameId : String) (frame : LoopFrame) : Option LoopIteration :=
  (tables.iterations.get? (frameId, frame.currentIteration)).filter (·.state = .opened)

/-- `open_loop_iteration`; `checks.further` is what the digest and the cursor of the context
raise. -/
def openLoopIteration (checks : LoopChecks) (target : LoopTarget) :
    Except LoopError LoopTables := do
  let frame ← tables.lockLoop checks target
  match tables.openRow target.frameId frame with
  | some _ =>
    LoopError.ofCheck checks.further
    return tables
  | none =>
    frame.checkVersion target.rowVersion
    raiseIf (frame.phase ≠ .needDecision) (.runtime "LOOP_STATE_INVALID")
    LoopError.ofCheck checks.further
    raiseIf (frame.contextPolicy = true) (.runtime "CONTEXT_SNAPSHOT_UNAVAILABLE")
    tables.insertIteration lease target.frameId frame none

/-- `accept_context_and_open_iteration`; `known` is whether the open iteration has the candidate's
digest, `checks.further` is what the checks of the candidate raise. -/
def acceptContextAndOpenIteration (checks : LoopChecks) (target : LoopTarget)
    (snapshotId : String) (known rebind : Bool) : Except LoopError LoopTables := do
  let frame ← tables.lockLoop checks target
  let current := tables.openRow target.frameId frame
  if current ≠ none ∧ known = true then return tables
  else
    frame.checkVersion target.rowVersion
    raiseIf (frame.contextPolicy = false ∨ frame.phase ≠ .needDecision)
      (.runtime "CONTEXT_SNAPSHOT_UNAVAILABLE")
    LoopError.ofCheck checks.further
    match current with
    | some row =>
      raiseIf (rebind = false) (.runtime "CONTEXT_REBIND_FORBIDDEN")
      return tables.putIteration target.frameId (frame.touch lease) frame.currentIteration
        { row with contextSnapshotId := some snapshotId }
    | none =>
      raiseIf (rebind = true) (.runtime "LOOP_ITERATION_LIMIT")
      tables.insertIteration lease target.frameId frame (some snapshotId)

/-! ## Decisions -/

inductive DecisionOutcome where
  /-- `FINAL`, `REFUSAL` -/
  | result (kind : String)
  /-- `TOOL_CALL` of v1 -/
  | toolCall
  /-- `TOOL_BATCH` of v2 -/
  | toolBatch
  /-- `HANDOFF` of v2 to a child frame -/
  | handoff (delegationId childId : String) (limits : RootBudget.TargetLimits)
    (childContextPolicy : Bool)

/-- The call of `accept_loop_decision` or `accept_batch`. -/
structure DecisionCall where
  iterationNo : ℕ
  decisionId : String
  decisionDigest : String
  modelAttempt : ℕ × ℕ
  outcome : DecisionOutcome

def DecisionOutcome.iterationState : DecisionOutcome → LoopIterationState
  | .result _ => .closed
  | .toolCall | .toolBatch | .handoff .. => .accepted

def DecisionOutcome.phase : DecisionOutcome → LoopPhase
  | .result _ => .resultReady
  | .toolCall => .decisionAccepted
  | .toolBatch => .waitActions
  | .handoff .. => .waitChild

def DecisionOutcome.bind (outcome : DecisionOutcome) (decisionId : String) (frame : LoopFrame) :
    LoopFrame :=
  match outcome with
  | .result kind => { frame with resultDecisionId := some decisionId, stopCode := some kind }
  | .toolCall | .toolBatch | .handoff .. => frame

def childFrame (parent : LoopFrame) (delegationId : String) (limits : RootBudget.TargetLimits)
    (contextPolicy : Bool) : LoopFrame where
  frameRole := .child
  stepId := parent.stepId
  delegationId := some delegationId
  contextPolicy := contextPolicy
  maxIterations := min (min 8 parent.maxIterations) limits.maxIterations
  resumeGeneration := parent.resumeGeneration
  rowVersion := 1
  lastCommittedFencingToken := lease.fencingToken
  phase := .needDecision
  currentIteration := 0
  committedObservationCursor := 0
  stopCode := none
  stopDetails := []
  resultDecisionId := none
  finalDeliveryReceipt := none

/-- `create_child`, as far as it writes frames, delegations and the budget. -/
def createChild (frameId : String) (frame : LoopFrame) (iterationNo : ℕ) :
    DecisionOutcome → Except LoopError LoopTables
  | .handoff delegationId childId limits contextPolicy => do
    raiseIf (frame.frameRole ≠ .root ∨ tables.root.executionPolicy ≠ .v2)
      (.runtime "DELEGATION_DEPTH_LIMIT")
    raiseIf (∃ delegation ∈ tables.delegations.values, delegation.observed = false)
      (.runtime "DELEGATION_COUNT_LIMIT")
    let root ← tables.root.grant lease delegationId limits frame.resumeGeneration
    -- the primary keys of the inserted rows
    raiseIf (tables.frames.get? childId ≠ none ∨ tables.delegations.get? delegationId ≠ none)
      .persistence
    return { tables.putFrame childId (childFrame lease frame delegationId limits contextPolicy) with
      root := root
      delegations := tables.delegations.set delegationId
        ⟨frameId, iterationNo, childId, none, false⟩ }
  | .result _ | .toolCall | .toolBatch => .ok tables

def decidedFrame (frame : LoopFrame) (call : DecisionCall) : LoopFrame :=
  LoopFrame.touch { call.outcome.bind call.decisionId frame with phase := call.outcome.phase } lease

def decidedIteration (row : LoopIteration) (call : DecisionCall) : LoopIteration :=
  { row with
    state := call.outcome.iterationState
    decisionId := some call.decisionId
    decisionDigest := some call.decisionDigest
    acceptedModelAttempt := some call.modelAttempt }

/-- The common part of the two acceptances: `conflicts` compares a repeated call with the stored
decision, `checks.further` is what the checks of the decision itself raise. -/
def acceptDecision (checks : LoopChecks) (target : LoopTarget) (call : DecisionCall)
    (conflicts : LoopIteration → Bool) : Except LoopError LoopTables := do
  let frame ← tables.lockLoop checks target
  let row ← orRaise (tables.iterations.get? (target.frameId, call.iterationNo))
    (.refused "NoResultFound")
  if row.decisionId = none then
    frame.checkVersion target.rowVersion
    raiseIf (frame.phase ≠ .needDecision ∨ frame.currentIteration ≠ call.iterationNo ∨
      row.state ≠ .opened) (.runtime "LOOP_STATE_INVALID")
    raiseIf (¬ ∃ model ∈ tables.models.get? ⟨frame.stepId, call.modelAttempt.1, call.modelAttempt.2⟩,
      model.state = .completed ∧ model.loopFrameId = some target.frameId ∧
      model.loopIterationNo = some call.iterationNo ∧ model.purpose = .decision ∧
      model.contextSnapshotId = row.contextSnapshotId) (.runtime "LOOP_MODEL_BINDING_INVALID")
    LoopError.ofCheck checks.further
    let created ← tables.createChild lease target.frameId frame call.iterationNo call.outcome
    return created.putIteration target.frameId (decidedFrame lease frame call) call.iterationNo
      (decidedIteration row call)
  else
    raiseIf (conflicts row = true) (.runtime "LOOP_DECISION_CONFLICT")
    return tables

def acceptLoopDecision (checks : LoopChecks) (target : LoopTarget) (call : DecisionCall) :
    Except LoopError LoopTables :=
  match call.outcome with
  | .result _ => tables.acceptDecision lease checks target call fun row =>
      row.decisionId ≠ some call.decisionId ∨ row.decisionDigest ≠ some call.decisionDigest
  | .toolCall => do
    -- a check constraint of the iterations
    raiseIf (tables.root.executionPolicy = .v2) .persistence
    tables.acceptDecision lease checks target call fun row =>
      row.decisionId ≠ some call.decisionId ∨ row.decisionDigest ≠ some call.decisionDigest
  | .toolBatch | .handoff .. => .error (.value "LOOP_DECISION_INVALID")

def acceptBatch (checks : LoopChecks) (target : LoopTarget) (call : DecisionCall) :
    Except LoopError LoopTables :=
  match call.outcome with
  | .result _ | .toolBatch | .handoff .. => do
    raiseIf (tables.root.executionPolicy ≠ .v2) (.runtime "LOOP_VERSION_UNSUPPORTED")
    tables.acceptDecision lease checks target call fun row =>
      row.decisionDigest ≠ some call.decisionDigest
  | .toolCall => .error (.runtime "LOOP_HANDOFF_DISABLED")

/-! ## Observations -/

/-- `bind_loop_action_in_transaction`; `checks.further` is what the checks of the tool row (and in v2
of the action row) raise. -/
def bindLoopAction (checks : LoopChecks) (target : LoopTarget) (iterationNo : ℕ)
    (invocationId : String) : Except LoopError LoopTables := do
  let frame ← tables.lockLoop checks target
  let row ← orRaise (tables.iterations.get? (target.frameId, iterationNo))
    (.runtime "LOOP_ACTION_BINDING_INVALID")
  LoopError.ofCheck checks.further
  if tables.root.executionPolicy = .v2 then
    raiseIf (frame.phase ≠ .waitActions) (.runtime "LOOP_ACTION_BINDING_INVALID")
    return tables
  else if row.toolInvocationId ≠ none then
    raiseIf (row.toolInvocationId ≠ some invocationId) (.runtime "LOOP_ACTION_CONFLICT")
    return tables
  else
    frame.checkVersion target.rowVersion
    raiseIf (frame.phase ≠ .decisionAccepted ∧ frame.phase ≠ .waitTool)
      (.runtime "LOOP_STATE_INVALID")
    return tables.putIteration target.frameId
      (LoopFrame.touch { frame with phase := .waitTool } lease) iterationNo
      { row with toolInvocationId := some invocationId }

/-- `record_action`, which writes an action row; `checks.further` is what its proofs raise. -/
def recordAction (checks : LoopChecks) (target : LoopTarget) : Except LoopError LoopTables := do
  let frame ← tables.lockLoop checks target
  raiseIf (frame.phase ≠ .waitActions) (.runtime "LOOP_ACTION_BINDING_INVALID")
  LoopError.ofCheck checks.further
  return tables.putFrame target.frameId (frame.touch lease)

def observedFrame (frame : LoopFrame) : LoopFrame :=
  LoopFrame.touch { frame with
    committedObservationCursor := frame.committedObservationCursor + 1
    phase := .needDecision } lease

def observedIteration (frame : LoopFrame) (row : LoopIteration) (observation : String × String) :
    LoopIteration :=
  { row with
    state := .observed
    observation := some observation
    observationCursor := some (frame.committedObservationCursor + 1) }

/-- `commit_loop_observation`; `checks.further` is what the check of the tool row raises. -/
def commitLoopObservation (checks : LoopChecks) (target : LoopTarget) (iterationNo : ℕ)
    (invocationId : String) (observation : String × String) : Except LoopError LoopTables := do
  let frame ← tables.lockLoop checks target
  let row ← orRaise (tables.iterations.get? (target.frameId, iterationNo))
    (.runtime "LOOP_RESULT_UNAVAILABLE")
  raiseIf (row.toolInvocationId ≠ some invocationId) (.runtime "LOOP_RESULT_UNAVAILABLE")
  LoopError.ofCheck checks.further
  if row.observation ≠ none then
    raiseIf (row.observation ≠ some observation) (.runtime "LOOP_OBSERVATION_CONFLICT")
    return tables
  else
    frame.checkVersion target.rowVersion
    raiseIf (frame.phase ≠ .waitTool ∨ frame.currentIteration ≠ iterationNo ∨
      row.state ≠ .accepted) (.runtime "LOOP_STATE_INVALID")
    return tables.putIteration target.frameId (observedFrame lease frame) iterationNo
      (observedIteration frame row observation)

/-- `commit_batch`; `checks.further` is what the checks of the action rows raise. -/
def commitBatch (checks : LoopChecks) (target : LoopTarget) (iterationNo : ℕ)
    (observation : String × String) : Except LoopError LoopTables := do
  let frame ← tables.lockLoop checks target
  let row ← orRaise (tables.iterations.get? (target.frameId, iterationNo))
    (.refused "AttributeError")
  if row.state = .observed then return tables
  else
    frame.checkVersion target.rowVersion
    raiseIf (frame.phase ≠ .waitActions ∨ row.state ≠ .accepted) (.runtime "LOOP_STATE_INVALID")
    LoopError.ofCheck checks.further
    return tables.putIteration target.frameId (observedFrame lease frame) iterationNo
      (observedIteration frame row observation)

def delegationOf (frameId : String) (iterationNo : ℕ) : Option (String × LoopDelegation) :=
  tables.delegations.entries.find? fun entry =>
    entry.2.parentFrameId = frameId ∧ entry.2.parentIteration = iterationNo

/-- `accept_child`; `checks.further` is what the digest of the result and the admission raise. -/
def acceptChild (checks : LoopChecks) (target : LoopTarget) (iterationNo : ℕ)
    (observation : String × String) : Except LoopError LoopTables := do
  let frame ← tables.lockLoop checks target
  let row ← orRaise (tables.iterations.get? (target.frameId, iterationNo))
    (.refused "AttributeError")
  let entry ← orRaise (tables.delegationOf target.frameId iterationNo) (.refused "NoResultFound")
  if entry.2.observed = true then return tables
  else
    frame.checkVersion target.rowVersion
    raiseIf (frame.phase ≠ .waitChild ∨ entry.2.resultDigest = none)
      (.runtime "DELEGATION_RESULT_UNAVAILABLE")
    LoopError.ofCheck checks.further
    return { tables.putIteration target.frameId (observedFrame lease frame) iterationNo
        (observedIteration frame row observation) with
      delegations := tables.delegations.set entry.1 { entry.2 with observed := true } }

def suspendLoop (checks : LoopChecks) (target : LoopTarget) : Except LoopError LoopTables := do
  let frame ← tables.lockFrame checks.access target.frameId target.resumeGeneration
  frame.checkVersion target.rowVersion
  let phase := if frame.phase = .decisionAccepted then .waitTool else frame.phase
  raiseIf (phase ≠ .waitTool ∧ phase ≠ .needDecision) (.runtime "LOOP_NOT_SUSPENDABLE")
  return { tables.putFrame target.frameId (LoopFrame.touch { frame with phase := phase } lease) with
    root := tables.root.touch lease }

/-- A child without a final decision stops with its delegation. -/
def releasedChild (child : LoopFrame) : LoopFrame :=
  if child.phase = .resultReady then child
  else { child with phase := .stopped, stopCode := some "DELEGATION_FAILED" }

/-- `commit_child_result`; `checks.further` is what the checks of the child's rows raise. -/
def commitChildResult (checks : LoopChecks) (target : LoopTarget) (resultDigest : String) :
    Except LoopError LoopTables := do
  let child ← tables.lockLoop checks target
  let delegationId ← orRaise child.delegationId (.refused "AttributeError")
  let delegation ← orRaise (tables.delegations.get? delegationId) (.refused "AttributeError")
  raiseIf (child.frameRole ≠ .child ∨ delegation.childFrameId ≠ target.frameId)
    (.runtime "DELEGATION_SOURCE_INVALID")
  if delegation.resultDigest ≠ none then return tables
  else
    LoopError.ofCheck checks.further
    let root ← tables.root.releaseEnvelope lease delegationId
    return { tables.putFrame target.frameId ((releasedChild child).touch lease) with
      root := root
      delegations := tables.delegations.set delegationId
        { delegation with resultDigest := some resultDigest } }

/-! ## Recovery -/

/-- The iterations whose decision attempt the last owner left open. -/
def abandoned : List (Option String × Option ℕ) :=
  (tables.models.values.filter fun model => model.state = .started ∧ model.purpose = .decision).map
    fun model => (model.loopFrameId, model.loopIterationNo)

def recoveredIterations : Dict (String × ℕ) LoopIteration :=
  tables.iterations.mapWithKey fun key row =>
    if (some key.1, some key.2) ∈ tables.abandoned then
      { row with modelRecoveryCount := row.modelRecoveryCount + 1 }
    else row

def LoopIteration.lost (row : LoopIteration) : Bool :=
  row.state = .opened ∧ 2 ≤ row.modelRecoveryCount

/-- Does the takeover stop the frame?  v1 looks at the current iteration, v2 at those it found
abandoned. -/
def recoveryStops (frameId : String) (frame : LoopFrame) : Bool :=
  match tables.root.executionPolicy with
  | .v1 => (tables.recoveredIterations.get? (frameId, frame.currentIteration)).any
      LoopIteration.lost
  | .v2 => tables.recoveredIterations.entries.any fun entry =>
      entry.1.1 = frameId ∧ (some entry.1.1, some entry.1.2) ∈ tables.abandoned ∧
        LoopIteration.lost entry.2

def recoveredFrame (generation : ℕ) (frameId : String) (frame : LoopFrame) : LoopFrame :=
  let moved := LoopFrame.touch { frame with resumeGeneration := generation } lease
  if tables.recoveryStops frameId frame then
    { moved with phase := .stopped, stopCode := some "LOOP_MODEL_RECOVERY_EXHAUSTED" }
  else moved

/-- The frame whose generation and token a takeover reads. -/
def recoveryRoot : Except LoopError LoopFrame := do
  let roots := tables.frames.values.filter (·.frameRole = .root)
  raiseIf (tables.root.executionPolicy = .v1 ∧ tables.frames.entries.length ≠ 1 ∨
    tables.root.executionPolicy = .v2 ∧ (roots.length ≠ 1 ∨ 3 < tables.frames.entries.length))
    (.runtime "LOOP_FRAME_MISSING")
  orRaise (if tables.root.executionPolicy = .v1 then tables.frames.values.head? else roots.head?)
    (.runtime "LOOP_FRAME_MISSING")

/-- `prepare_recovery` of a loop run; `checks.further` is what the checks of delegations and
adaptive decisions raise. -/
def prepareRecovery (checks : LoopChecks) : Except LoopError LoopTables := do
  LoopError.ofCheck checks.access
  let frame ← tables.recoveryRoot
  LoopError.ofCheck checks.further
  if frame.lastCommittedFencingToken = lease.fencingToken then return tables
  else
    let root ← tables.root.settleRecoveryBudget lease
    return { tables with
      root := root
      frames := tables.frames.mapWithKey
        (tables.recoveredFrame lease (frame.resumeGeneration + 1))
      iterations := tables.recoveredIterations
      models := tables.models.mapValues fun model =>
        if model.state = .started then
          { model with state := .unknown, lastCommittedFencingToken := lease.fencingToken }
        else model }

/-! ## Runs -/

inductive Call where
  | publishLoopFinal (checks : LoopChecks) (target : LoopTarget) (decisionId resultDigest : String)
    (event : LoopEvent)
  | stopLoop (checks : LoopChecks) (target : LoopTarget) (stopCode : String)
    (stopDetails : List (String × String))
  | startModelAttempt (checks : LoopChecks) (target : LoopTarget) (start : ModelStart)
  | finishModelAttempt (checks : LoopChecks) (finish : ModelFinish)
  | openLoopIteration (checks : LoopChecks) (target : LoopTarget)
  | acceptContextAndOpenIteration (checks : LoopChecks) (target : LoopTarget) (snapshotId : String)
    (known rebind : Bool)
  | acceptLoopDecision (checks : LoopChecks) (target : LoopTarget) (decision : DecisionCall)
  | acceptBatch (checks : LoopChecks) (target : LoopTarget) (decision : DecisionCall)
  | bindLoopAction (checks : LoopChecks) (target : LoopTarget) (iterationNo : ℕ)
    (invocationId : String)
  | recordAction (checks : LoopChecks) (target : LoopTarget)
  | commitLoopObservation (checks : LoopChecks) (target : LoopTarget) (iterationNo : ℕ)
    (invocationId : String) (observation : String × String)
  | commitBatch (checks : LoopChecks) (target : LoopTarget) (iterationNo : ℕ)
    (observation : String × String)
  | acceptChild (checks : LoopChecks) (target : LoopTarget) (iterationNo : ℕ)
    (observation : String × String)
  | suspendLoop (checks : LoopChecks) (target : LoopTarget)
  | commitChildResult (checks : LoopChecks) (target : LoopTarget) (resultDigest : String)
  | prepareRecovery (checks : LoopChecks)

variable (sha256 : String → String)

/-- A transaction that commits. -/
def outcome (tables : LoopTables) (lease : RunLease) : Call → Except LoopError LoopTables
  | .publishLoopFinal checks target decisionId resultDigest event =>
    tables.publishLoopFinal lease sha256 checks target decisionId resultDigest event
  | .stopLoop checks target stopCode stopDetails =>
    tables.stopLoop lease checks target stopCode stopDetails
  | .startModelAttempt checks target start => tables.startModelAttempt lease checks target start
  | .finishModelAttempt checks finish => tables.finishModelAttempt lease checks finish
  | .openLoopIteration checks target => tables.openLoopIteration lease checks target
  | .acceptContextAndOpenIteration checks target snapshotId known rebind =>
    tables.acceptContextAndOpenIteration lease checks target snapshotId known rebind
  | .acceptLoopDecision checks target decision =>
    tables.acceptLoopDecision lease checks target decision
  | .acceptBatch checks target decision => tables.acceptBatch lease checks target decision
  | .bindLoopAction checks target iterationNo invocationId =>
    tables.bindLoopAction lease checks target iterationNo invocationId
  | .recordAction checks target => tables.recordAction lease checks target
  | .commitLoopObservation checks target iterationNo invocationId observation =>
    tables.commitLoopObservation lease checks target iterationNo invocationId observation
  | .commitBatch checks target iterationNo observation =>
    tables.commitBatch lease checks target iterationNo observation
  | .acceptChild checks target iterationNo observation =>
    tables.acceptChild lease checks target iterationNo observation
  | .suspendLoop checks target => tables.suspendLoop lease checks target
  | .commitChildResult checks target resultDigest =>
    tables.commitChildResult lease checks target resultDigest
  | .prepareRecovery checks => tables.prepareRecovery lease checks

/-- A call under a lease. -/
abbrev Action := RunLease × Call

/-- One step of a run; a transaction that raises is rolled back and is no step. -/
def step (tables : LoopTables) (action : Action) : Option LoopTables :=
  (tables.outcome sha256 action.1 action.2).toOption

/-- `initialize`: one root frame. -/
def new (root : RootBudget) (frameId stepId : String) (contextPolicy : Bool)
    (maxIterations token : ℕ) (journal : List LoopEvent) : LoopTables where
  root := root
  frames := Dict.empty.set frameId {
    frameRole := .root
    stepId := stepId
    delegationId := none
    contextPolicy := contextPolicy
    maxIterations := maxIterations
    resumeGeneration := 0
    rowVersion := 1
    lastCommittedFencingToken := token
    phase := .needDecision
    currentIteration := 0
    committedObservationCursor := 0
    stopCode := none
    stopDetails := []
    resultDecisionId := none
    finalDeliveryReceipt := none }
  iterations := Dict.empty
  models := Dict.empty
  delegations := Dict.empty
  journal := journal

variable {sha256} {tables}

theorem step_ok {tables' : LoopTables} {action : Action}
    (h : tables.step sha256 action = some tables') :
    tables.outcome sha256 action.1 action.2 = .ok tables' := by
  unfold step at h
  cases houtcome : tables.outcome sha256 action.1 action.2 with
  | error =>
    rw [houtcome] at h
    cases h
  | ok =>
    rw [houtcome] at h
    exact congrArg Except.ok (Option.some.inj h)

end LoopTables

end LocalAgent.Runtime
