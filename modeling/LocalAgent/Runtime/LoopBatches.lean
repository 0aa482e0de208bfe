import LocalAgent.Runtime.LoopBudget
import LocalAgent.Runtime.ToolIdempotency

/-!
# LocalAgent.Runtime.LoopBatches — tool batches of a durable agent loop

`core/runtime/agent_loop/batch.py` with the batch transactions of
`core/persistence/repositories/agent_loop.py`, over the action rows and tool rows of one run.

* `prepareBatch`, `acceptBatch`: a decision becomes action rows.
* `admitAction`, `bindLoopAction`, `recordNotExecuted`, `recordResult`, `commitBatch`: the
  transactions of an accepted batch.
* `BatchDriver`: one execution of `advance_batch`, between two of its transactions.  A driver whose
  lease was taken over is gone: `_lock_loop` refuses what it tries.
* `BatchRun.step`: transactions, drivers and crashes in any order.
-/

namespace LocalAgent.Runtime

/-! ## Decisions and recipes -/

/-- A call of a `TOOL_BATCH` decision, and of the assistant record made from it; `arguments` is the
canonical text of the JSON object. -/
structure LoopCall where
  callId : String
  toolName : String
  arguments : String
  deriving DecidableEq

/-- The identity of a call of a batch: `identity(frame_id, iteration_no, f"action:{ordinal}")`. -/
structure ActionId where
  frameId : String
  iterationNo : ℕ
  ordinal : ℕ
  deriving DecidableEq

structure Recipe where
  toolName : String
  arguments : String
  argumentsDigest : String
  readOnly : Bool
  concurrentSafe : Bool
  boundedPolling : Bool
  maxPollAttempts : ℕ
  idempotencyKey : String
  resourceKey : Option String
  deriving DecidableEq

/-- What a pinned adapter makes of the arguments of a call: `build_invocation` and `spec_for`. -/
structure ToolBuild where
  argumentsDigest : String
  /-- `side_effect_kind is NONE` -/
  sideEffectFree : Bool
  maxConcurrency : ℕ
  boundedPolling : Bool
  maxPollAttempts : ℕ
  idempotencyKey : Option String
  resourceKey : Option String

/-- The pinned adapters, by tool name and arguments; `none` when the tool is unknown or the adapter,
the input schema or the specification refuses the arguments. -/
abbrev ToolRegistry := String → String → Option ToolBuild

/-- `LoopPolicyV2`, as far as batches read it. -/
structure LoopPolicyV2 where
  /-- `failure_mode == "FAIL_FAST"` -/
  failFast : Bool
  maxBatchSize : ℕ
  maxBatchConcurrency : ℕ

/-- The recipe of one call; `actionId` is the text of its identity. -/
def ToolBuild.recipe (build : ToolBuild) (call : LoopCall) (actionId : String) : Recipe where
  toolName := call.toolName
  arguments := call.arguments
  argumentsDigest := build.argumentsDigest
  readOnly := build.sideEffectFree
  concurrentSafe := build.sideEffectFree && decide (2 ≤ build.maxConcurrency)
  boundedPolling := build.boundedPolling
  maxPollAttempts := build.maxPollAttempts
  idempotencyKey := (orText build.idempotencyKey none).getD actionId
  resourceKey := build.resourceKey

/-- The recipes of the calls from `ordinal` on. -/
def prepareRecipes (registry : ToolRegistry) (identity : ActionId → String) (frameId : String)
    (iterationNo : ℕ) : ℕ → List LoopCall → Except LoopError (List Recipe)
  | _, [] => .ok []
  | ordinal, call :: calls => do
    let build ← orRaise (registry call.toolName call.arguments) (.refused "LOOP_DECISION_INVALID")
    let recipes ← prepareRecipes registry identity frameId iterationNo (ordinal + 1) calls
    return build.recipe call (identity ⟨frameId, iterationNo, ordinal⟩) :: recipes

/-- `prepare_batch`: the recipes and the tool calls of the assistant record. -/
def prepareBatch (registry : ToolRegistry) (identity : ActionId → String) (policy : LoopPolicyV2)
    (frameId : String) (iterationNo : ℕ) (calls : List LoopCall) :
    Except LoopError (List Recipe × List LoopCall) := do
  let recipes ← prepareRecipes registry identity frameId iterationNo 0 calls
  raiseIf (policy.maxBatchSize < recipes.length ∨ 1 < recipes.countP fun recipe => !recipe.readOnly)
    (.refused "LOOP_DECISION_INVALID")
  return (recipes, calls)

/-! ## Rows -/

/-- `result_projection`. -/
structure Projection where
  outcome : String
  content : String
  deriving DecidableEq

inductive SkipReason where
  | batchSkip | readPreconditionFailed
  deriving DecidableEq

structure NotExecuted where
  reason : SkipReason
  cause : ActionId
  deriving DecidableEq

/-- The columns of `runtime_loop_actions` that acceptance fixes. -/
structure LoopAction where
  actionId : ActionId
  protocolCallId : String
  recipe : Recipe
  deriving DecidableEq

structure LoopActionRow extends LoopAction where
  /-- `invocation_id` is set; it is the action's own id -/
  bound : Bool
  /-- `result_projection` and `source_digest` -/
  result : Option (Projection × String)
  notExecuted : Option NotExecuted
  deriving DecidableEq

/-- `committed_result` with its digest. -/
structure CommittedResult where
  status : String
  content : String
  digest : String
  deriving DecidableEq

def CommittedResult.projection (result : CommittedResult) : Projection :=
  ⟨result.status, result.content⟩

/-- The columns of `durable_tool_invocations` that batches read. -/
structure BatchTool where
  state : ToolInvocationState
  /-- `started_at is not None` -/
  started : Bool
  committedResult : Option CommittedResult
  deriving DecidableEq

/-- `state != "PREPARED" or started_at is not None`. -/
def BatchTool.touched (tool : BatchTool) : Bool := tool.state ≠ .prepared || tool.started

/-- A committed result whose status is not `SUCCEEDED`. -/
def BatchTool.failed (tool : BatchTool) : Bool :=
  tool.state = .committed && tool.committedResult.any fun result => result.status ≠ "SUCCEEDED"

def BatchTool.settle (tool : BatchTool) (state : ToolInvocationState)
    (result : Option CommittedResult) : BatchTool :=
  { tool with
    state := state
    committedResult := if state = .committed then result else tool.committedResult }

inductive CallResult where
  | executed (projection : Projection)
  | notExecuted (reason : NotExecuted)
  deriving DecidableEq

/-- An entry of `observation["results"]`. -/
structure ObservedCall where
  callId : String
  actionId : ActionId
  result : CallResult
  deriving DecidableEq

/-- The columns `observation` of an iteration. -/
structure Observation where
  frameId : String
  iterationNo : ℕ
  results : List ObservedCall
  deriving DecidableEq

/-- The column `assistant_record` of an iteration. -/
structure AssistantRecord where
  frameId : String
  iterationNo : ℕ
  toolCalls : List LoopCall
  deriving DecidableEq

/-- The state of a frame's current iteration: `accepted` is a batch in phase `WAIT_ACTIONS`,
`handedOff` a hand-off whose child has not come back. -/
inductive BatchPhase where
  | opened | accepted | handedOff | observed | stopped
  deriving DecidableEq

structure BatchFrame where
  policy : LoopPolicyV2
  iterationNo : ℕ
  phase : BatchPhase

structure BatchTables where
  frames : String → Option BatchFrame
  records : List AssistantRecord
  actions : List LoopActionRow
  tools : ActionId → Option BatchTool
  observations : List Observation

def LoopAction.InBatch (frameId : String) (iterationNo : ℕ) (action : LoopAction) : Prop :=
  action.actionId.frameId = frameId ∧ action.actionId.iterationNo = iterationNo
  deriving Decidable

namespace BatchTables

variable (t : BatchTables)

/-- The rows of a batch.  They are inserted in ordinal order, which `ORDER BY ordinal` gives. -/
def batch (frameId : String) (iterationNo : ℕ) : List LoopActionRow :=
  t.actions.filter fun row => row.InBatch frameId iterationNo

def action? (actionId : ActionId) : Option LoopActionRow :=
  t.actions.find? fun row => row.actionId = actionId

def setAction (actionId : ActionId) (f : LoopActionRow → LoopActionRow) : BatchTables :=
  { t with actions := t.actions.map fun row => if row.actionId = actionId then f row else row }

def setTool (actionId : ActionId) (tool : BatchTool) : BatchTables :=
  { t with tools := Function.update t.tools actionId (some tool) }

def setFrame (frameId : String) (frame : BatchFrame) : BatchTables :=
  { t with frames := Function.update t.frames frameId (some frame) }

/-- The frame that `_lock_loop` returns. -/
def lockLoop (frameId : String) : Except LoopError BatchFrame :=
  orRaise (t.frames frameId) (.runtime "LOOP_FRAME_NOT_FOUND")

/-! ## Acceptance -/

/-- `used_calls` of `accept_batch`: the call ids of the frame's assistant records. -/
def usedCalls (frameId : String) : List String :=
  (t.records.filter fun record => record.frameId = frameId).flatMap fun record =>
    record.toolCalls.map LoopCall.callId

end BatchTables

/-- Two recipes for one tool and one digest of arguments. -/
def Recipe.sameCall (recipe other : Recipe) : Bool :=
  other.toolName = recipe.toolName && other.argumentsDigest = recipe.argumentsDigest

/-- A write that the run has accepted before, by idempotency key or arguments. -/
def Recipe.repeats (recipe other : Recipe) : Bool :=
  !other.readOnly && other.toolName = recipe.toolName &&
    (other.idempotencyKey = recipe.idempotencyKey ||
      other.argumentsDigest = recipe.argumentsDigest)

/-- The loop of `accept_batch` over the recipes and calls that are left; `earlier` are the recipes
before them and `ids` their call ids. -/
def acceptRows (oldActions : List LoopAction) (digest : String → String) (frameId : String)
    (iterationNo : ℕ) :
    List Recipe → List String → List (Recipe × LoopCall) → Except LoopError (List LoopAction)
  | _, _, [] => .ok []
  | earlier, ids, (recipe, call) :: rest => do
    raiseIf (recipe.toolName ≠ call.toolName ∨ digest recipe.arguments ≠ digest call.arguments)
      (.runtime "LOOP_DECISION_CONFLICT")
    raiseIf (recipe.boundedPolling ∧ recipe.maxPollAttempts ≤
        (oldActions.countP fun action => recipe.sameCall action.recipe) +
          earlier.countP recipe.sameCall)
      (.runtime "LOOP_REPEATED_ACTION")
    raiseIf (call.callId ∈ ids ∨ ∃ action ∈ oldActions, action.actionId.frameId = frameId ∧
        action.protocolCallId = call.callId)
      (.runtime "LOOP_DECISION_INVALID")
    raiseIf (recipe.readOnly = false ∧ ∃ action ∈ oldActions, recipe.repeats action.recipe)
      (.runtime "LOOP_REPEATED_ACTION")
    let rows ← acceptRows oldActions digest frameId iterationNo (earlier ++ [recipe])
      (ids ++ [call.callId]) rest
    return ⟨⟨frameId, iterationNo, earlier.length⟩, call.callId, recipe⟩ :: rows

def LoopAction.row (action : LoopAction) : LoopActionRow := ⟨action, false, none, none⟩

namespace BatchTables

variable (t : BatchTables)

/-- `accept_batch` on a `TOOL_BATCH` decision; the call for an iteration that has its decision
returns it or raises, and writes nothing. -/
def acceptBatch (digest : String → String) (frameId : String) (calls : List LoopCall)
    (recipes : List Recipe) (assistantRecord : List LoopCall) : Except LoopError BatchTables := do
  let frame ← t.lockLoop frameId
  raiseIf (frame.phase ≠ .opened) (.runtime "LOOP_STATE_INVALID")
  raiseIf (∃ call ∈ calls, call.callId ∈ t.usedCalls frameId) (.runtime "LOOP_DECISION_INVALID")
  raiseIf (¬(1 ≤ recipes.length ∧ recipes.length = calls.length ∧
      calls.length ≤ frame.policy.maxBatchSize)) (.runtime "LOOP_DECISION_INVALID")
  raiseIf (1 < recipes.countP fun recipe => !recipe.readOnly) (.runtime "LOOP_BATCH_MULTIPLE_WRITES")
  let rows ← acceptRows (t.actions.map LoopActionRow.toLoopAction) digest frameId frame.iterationNo
    [] [] (recipes.zip calls)
  return { t.setFrame frameId { frame with phase := .accepted } with
    actions := t.actions ++ rows.map LoopAction.row
    records := t.records ++ [⟨frameId, frame.iterationNo, assistantRecord⟩] }

/-- `accept_batch` on a `HANDOFF` decision; `create_child` writes the assistant record. -/
def acceptHandoff (frameId : String) (call : LoopCall) : Except LoopError BatchTables := do
  let frame ← t.lockLoop frameId
  raiseIf (frame.phase ≠ .opened) (.runtime "LOOP_STATE_INVALID")
  raiseIf (call.callId ∈ t.usedCalls frameId) (.runtime "LOOP_DECISION_INVALID")
  return { t.setFrame frameId { frame with phase := .handedOff } with
    records := t.records ++ [⟨frameId, frame.iterationNo, [call]⟩] }

/-! ## The transactions of an accepted batch -/

/-- The frame and the row that `record_action` works on. -/
def waitingAction (frameId : String) (iterationNo : ℕ) (actionId : ActionId) :
    Except LoopError (BatchFrame × LoopActionRow) := do
  let frame ← t.lockLoop frameId
  let row ← orRaise (t.action? actionId) (.runtime "LOOP_ACTION_BINDING_INVALID")
  raiseIf (¬row.InBatch frameId iterationNo ∨ frame.phase ≠ .accepted)
    (.runtime "LOOP_ACTION_BINDING_INVALID")
  return (frame, row)

/-- `confirmed_failure` of `record_action`, and `failed` of `admit_action`. -/
def confirmedFailure (cause : LoopActionRow) : Bool :=
  cause.result.any (fun result => result.1.outcome ≠ "SUCCEEDED") ||
    (t.tools cause.actionId).any BatchTool.failed

/-- `record_action` with `not_executed`. -/
def recordNotExecuted (frameId : String) (iterationNo : ℕ) (actionId : ActionId)
    (notExecuted : NotExecuted) : Except LoopError BatchTables := do
  let (frame, row) ← t.waitingAction frameId iterationNo actionId
  raiseIf ((t.tools actionId).any BatchTool.touched) (.runtime "LOOP_NOT_EXECUTED_UNPROVEN")
  let cause ← orRaise (t.action? notExecuted.cause) (.runtime "LOOP_NOT_EXECUTED_UNPROVEN")
  raiseIf (¬cause.InBatch frameId iterationNo ∨ ¬t.confirmedFailure cause ∨
      notExecuted.reason = .batchSkip ∧ ¬frame.policy.failFast ∨
      notExecuted.reason = .readPreconditionFailed ∧
        (row.recipe.readOnly ∨ ¬cause.recipe.readOnly))
    (.runtime "LOOP_NOT_EXECUTED_UNPROVEN")
  raiseIf (∃ old ∈ row.notExecuted, old ≠ notExecuted) (.runtime "LOOP_ACTION_CONFLICT")
  return t.setAction actionId fun row => { row with notExecuted := some notExecuted }

/-- `record_action` with `projection` and `source_digest`. -/
def recordResult (frameId : String) (iterationNo : ℕ) (actionId : ActionId)
    (projection : Projection) (sourceDigest : String) : Except LoopError BatchTables := do
  let (_, row) ← t.waitingAction frameId iterationNo actionId
  let tool ← orRaise (t.tools actionId) (.runtime "LOOP_RESULT_UNAVAILABLE")
  raiseIf (row.notExecuted ≠ none ∨ tool.state ≠ .committed ∨
      tool.committedResult.map CommittedResult.digest ≠ some sourceDigest ∨ ¬row.bound)
    (.runtime "LOOP_RESULT_UNAVAILABLE")
  raiseIf (tool.committedResult.map CommittedResult.projection ≠ some projection)
    (.runtime "LOOP_RESULT_UNAVAILABLE")
  raiseIf (∃ old ∈ row.result, old ≠ (projection, sourceDigest)) (.runtime "LOOP_ACTION_CONFLICT")
  return t.setAction actionId fun row => { row with result := some (projection, sourceDigest) }

/-- One entry of the observation. -/
def observedCall (row : LoopActionRow) : Except LoopError ObservedCall :=
  match row.notExecuted with
  | some notExecuted => do
    raiseIf ((t.tools row.actionId).any BatchTool.touched) (.runtime "LOOP_NOT_EXECUTED_UNPROVEN")
    return ⟨row.protocolCallId, row.actionId, .notExecuted notExecuted⟩
  | none => do
    let tool ← orRaise (if row.bound then t.tools row.actionId else none)
      (.runtime "LOOP_BATCH_INCOMPLETE")
    let result ← orRaise row.result (.runtime "LOOP_BATCH_INCOMPLETE")
    raiseIf (tool.state ≠ .committed ∨
        tool.committedResult.map CommittedResult.digest ≠ some result.2)
      (.runtime "LOOP_BATCH_INCOMPLETE")
    return ⟨row.protocolCallId, row.actionId, .executed result.1⟩

/-- The iteration is `OBSERVED`. -/
def Observed (frameId : String) (iterationNo : ℕ) : Prop :=
  ∃ observation ∈ t.observations,
    observation.frameId = frameId ∧ observation.iterationNo = iterationNo
  deriving Decidable

def assistantRecord? (frameId : String) (iterationNo : ℕ) : Option AssistantRecord :=
  t.records.find? fun record => record.frameId = frameId ∧ record.iterationNo = iterationNo

/-- `commit_batch` on an iteration that is not observed. -/
def commitOpenBatch (frameId : String) (iterationNo : ℕ) : Except LoopError BatchTables := do
  let frame ← t.lockLoop frameId
  raiseIf (frame.phase ≠ .accepted ∨ frame.iterationNo ≠ iterationNo)
    (.runtime "LOOP_STATE_INVALID")
  let record ← orRaise (t.assistantRecord? frameId iterationNo) (.key "tool_calls")
  let actions := t.batch frameId iterationNo
  raiseIf (actions = [] ∨ actions.length ≠ record.toolCalls.length)
    (.runtime "LOOP_BATCH_INCOMPLETE")
  let results ← actions.mapM t.observedCall
  return { t.setFrame frameId { frame with phase := .observed } with
    observations := t.observations ++ [⟨frameId, iterationNo, results⟩] }

def commitBatch (frameId : String) (iterationNo : ℕ) : Except LoopError BatchTables :=
  if t.Observed frameId iterationNo then .ok t else t.commitOpenBatch frameId iterationNo

/-! ## The tool rows -/

/-- `bind_loop_action_in_transaction` on a v2 frame. -/
def bindLoopAction (actionId : ActionId) : Except LoopError BatchTables := do
  let frame ← t.lockLoop actionId.frameId
  let row ← orRaise (t.action? actionId) (.runtime "LOOP_ACTION_BINDING_INVALID")
  raiseIf (row.notExecuted ≠ none ∨ frame.phase ≠ .accepted)
    (.runtime "LOOP_ACTION_BINDING_INVALID")
  return t.setAction actionId fun row => { row with bound := true }

/-- `prepare` of the tool repository: a missing row is inserted, the action is bound. -/
def prepareTool (actionId : ActionId) : Except LoopError BatchTables :=
  match t.tools actionId with
  | none => (t.setTool actionId ⟨.prepared, false, none⟩).bindLoopAction actionId
  | some _ => t.bindLoopAction actionId

/-- The sibling test of `admit_action`. -/
def admitSibling (policy : LoopPolicyV2) (sibling : LoopActionRow) : Except LoopError Unit := do
  raiseIf ((t.tools sibling.actionId).any fun tool => tool.state = .unknown)
    (.refused "TOOL_OUTCOME_UNKNOWN")
  raiseIf (t.confirmedFailure sibling ∧ policy.failFast) (.refused "BATCH_SKIP")

/-- `admit_action`; `approvalPending` is a pending approval of a sibling. -/
def admitAction (actionId : ActionId) (approvalPending : Bool) : Except LoopError Unit := do
  let frame ← t.lockLoop actionId.frameId
  let row ← orRaise (t.action? actionId) (.runtime "LOOP_ACTION_BINDING_INVALID")
  raiseIf (row.notExecuted ≠ none ∨ frame.phase ≠ .accepted)
    (.runtime "LOOP_ACTION_BINDING_INVALID")
  raiseIf (approvalPending = true) (.refused "APPROVAL_PENDING")
  ((t.batch actionId.frameId actionId.iterationNo).filter fun sibling =>
    sibling.actionId ≠ actionId).forM (t.admitSibling frame.policy)

/-- `start` of the tool repository. -/
def startTool (actionId : ActionId) (approvalPending : Bool) : Except LoopError BatchTables := do
  t.admitAction actionId approvalPending
  let tool ← orRaise (t.tools actionId) (.value "tool invocation")
  raiseIf (tool.state ≠ .prepared) (.value "STARTED 只能由 PREPARED 获取一次")
  return t.setTool actionId { tool with state := .started, started := true }

/-- The other moves of a tool row (`committed`, `unknown`, reconciliation, resolution by hand): along
an edge, with a result when it is committed. -/
def settleTool (actionId : ActionId) (state : ToolInvocationState)
    (result : Option CommittedResult) : Option BatchTables :=
  (t.tools actionId).bind fun tool =>
    if DurableToolInvocationService.edge tool.state state ∧ state ≠ .started then
      some (t.setTool actionId (tool.settle state result))
    else none

end BatchTables

/-! ## The driver -/

/-- Where the `execute` of one call of a wave stands. -/
inductive CallStage where
  | running
  /-- the tool service came back; `batchSkip` when it raised `LoopSuspended("BATCH_SKIP")` -/
  | returned (batchSkip : Bool)
  /-- `execute` returned the action that failed, if any -/
  | ended (cause : Option ActionId)
  | raised
  deriving DecidableEq

def CallStage.cause : CallStage → Option ActionId
  | .ended cause => cause
  | _ => none

/-- `execute` has returned or raised. -/
def CallStage.isOver : CallStage → Bool
  | .ended _ | .raised => true
  | _ => false

/-- The local variables of `advance_batch`. -/
structure BatchDriver where
  iterationNo : ℕ
  failed : Option ActionId
  readonlyFailed : Option ActionId
  ordered : List LoopAction
  wave : List (LoopAction × CallStage)

namespace BatchTables

variable (t : BatchTables)

/-- The start of `advance_batch`, up to `ordered`. -/
def advance (frameId : String) (iterationNo : ℕ) : Except LoopError BatchDriver := do
  let actions := t.batch frameId iterationNo
  raiseIf (∃ row ∈ actions, ∃ tool ∈ t.tools row.actionId,
      tool.state = .started ∨ tool.state = .unknown) (.refused "TOOL_OUTCOME_UNKNOWN")
  let failed := (actions.find? fun row => row.result.any fun result =>
    result.1.outcome ≠ "SUCCEEDED").map fun row => row.actionId
  let pending := (actions.filter fun row => row.result = none ∧ row.notExecuted = none).map
    LoopActionRow.toLoopAction
  return {
    iterationNo := iterationNo
    failed := failed
    readonlyFailed := failed
    ordered := (pending.filter fun action => action.recipe.readOnly) ++
      pending.filter fun action => !action.recipe.readOnly
    wave := [] }

end BatchTables

namespace BatchDriver

variable (d : BatchDriver)

/-- `cause` of the loop: why the next action is skipped. -/
def skipCause (policy : LoopPolicyV2) (action : LoopAction) : Option ActionId :=
  let cause := if policy.failFast then d.failed else none
  if action.recipe.readOnly then cause else cause.or d.readonlyFailed

/-- The second call of a wave may run beside the first. -/
def besides (policy : LoopPolicyV2) (action other : LoopAction) : Bool :=
  decide (2 ≤ policy.maxBatchConcurrency) && action.recipe.concurrentSafe &&
    other.recipe.concurrentSafe && (orText action.recipe.resourceKey none = none ||
      action.recipe.resourceKey ≠ other.recipe.resourceKey)

/-- The wave that starts with `action`, and what is left in `ordered`. -/
def takeWave (policy : LoopPolicyV2) (action : LoopAction) :
    List LoopAction → List LoopAction × List LoopAction
  | [] => ([action], [])
  | other :: rest =>
    if besides policy action other then ([action, other], rest) else ([action], other :: rest)

def setStage (actionId : ActionId) (stage : CallStage) : BatchDriver :=
  { d with wave := d.wave.map fun slot =>
      if slot.1.actionId = actionId then (slot.1, stage) else slot }

def At (actionId : ActionId) (stage : CallStage) : Prop :=
  ∃ slot ∈ d.wave, slot.1.actionId = actionId ∧ slot.2 = stage
  deriving Decidable

/-- `failed` and `readonly_failed` after a wave that did not raise. -/
def join : BatchDriver :=
  let failed := d.failed.or (d.wave.findSome? fun slot => slot.2.cause)
  { d with
    failed := failed
    readonlyFailed :=
      if d.wave.head?.any fun slot => slot.1.recipe.readOnly then d.readonlyFailed.or failed
      else d.readonlyFailed
    wave := [] }

end BatchDriver

/-! ## Runs -/

/-- What is fixed in a run: the pinned adapters, the texts of identities and the digest of JSON
values. -/
structure BatchConfig where
  registry : ToolRegistry
  identity : ActionId → String
  digest : String → String

/-- The rows of a run and, for every frame, the driver at work on it. -/
structure BatchRun where
  tables : BatchTables
  drivers : String → Option BatchDriver

inductive BatchAction where
  | openFrame (frameId : String) (policy : LoopPolicyV2)
  | openIteration (frameId : String)
  | accept (frameId : String) (calls : List LoopCall)
  | handoff (frameId : String) (call : LoopCall)
  | childReturned (frameId : String)
  | stop (frameId : String) (old : BatchPhase)
  /-- `advance_batch` begins, in a new process or a later one -/
  | advance (frameId : String)
  /-- the loop takes the next action: it is skipped or starts a wave -/
  | next (frameId : String)
  | prepare (frameId : String) (actionId : ActionId)
  | start (frameId : String) (actionId : ActionId) (approvalPending : Bool)
  | settle (actionId : ActionId) (state : ToolInvocationState) (result : Option CommittedResult)
  /-- the tool service comes back, with whatever exception -/
  | callReturns (frameId : String) (actionId : ActionId)
  /-- the rest of `execute` -/
  | endCall (frameId : String) (actionId : ActionId) (batchSkip : Bool)
  | join (frameId : String)
  | finish (frameId : String)
  /-- the driver is gone: a crash, a lost lease, an exception of another check -/
  | crash (frameId : String)

namespace BatchRun

variable (cfg : BatchConfig) (s : BatchRun)

def setDriver (frameId : String) (driver : Option BatchDriver) : BatchRun :=
  { s with drivers := Function.update s.drivers frameId driver }

/-- A transaction outside a driver; an exception leaves the rows as they were. -/
def transact (result : Except LoopError BatchTables) : BatchRun :=
  match result with
  | .ok tables => { s with tables := tables }
  | .error _ => s

/-- A transaction of a driver, which goes on as `driver`; an exception ends it. -/
def transactBy (frameId : String) (result : Except LoopError BatchTables) (driver : BatchDriver) :
    BatchRun :=
  match result with
  | .ok tables => { s with tables := tables }.setDriver frameId (some driver)
  | .error _ => s.setDriver frameId none

/-- `prepare_batch` and `accept_batch`, with `row.frame` at its current iteration. -/
def accept (frameId : String) (calls : List LoopCall) : Except LoopError BatchTables := do
  let frame ← s.tables.lockLoop frameId
  let (recipes, assistantRecord) ←
    prepareBatch cfg.registry cfg.identity frame.policy frameId frame.iterationNo calls
  s.tables.acceptBatch cfg.digest frameId calls recipes assistantRecord

/-- The head of the loop of `advance_batch`. -/
def next (frameId : String) (frame : BatchFrame) (d : BatchDriver) : Option BatchRun :=
  match d.wave, d.ordered with
  | [], action :: rest =>
    match d.skipCause frame.policy action with
    | some cause =>
      let reason := if frame.policy.failFast then .batchSkip else .readPreconditionFailed
      some (s.transactBy frameId
        (s.tables.recordNotExecuted frameId d.iterationNo action.actionId ⟨reason, cause⟩)
        { d with ordered := rest })
    | none =>
      let wave := BatchDriver.takeWave frame.policy action rest
      some (s.setDriver frameId (some { d with
        wave := wave.1.map fun action => (action, .running)
        ordered := wave.2 }))
  | _, _ => none

/-- A transaction of a call that is inside the tool service; an exception comes back to
`execute`. -/
def serve (frameId : String) (d : BatchDriver) (actionId : ActionId)
    (result : Except LoopError BatchTables) : BatchRun :=
  match result with
  | .ok tables => { s with tables := tables }
  | .error e =>
    s.setDriver frameId (some (d.setStage actionId (.returned (e = .refused "BATCH_SKIP"))))

/-- `advance_batch` has begun, or raised. -/
def begun (frameId : String) (driver : Except LoopError BatchDriver) : BatchRun :=
  match driver with
  | .ok d => s.setDriver frameId (some d)
  | .error _ => s

/-- The first failure among the rows of the batch, for a call that was refused with `BATCH_SKIP`. -/
def skippedBy (frameId : String) (d : BatchDriver) : Option LoopActionRow :=
  (s.tables.batch frameId d.iterationNo).find? fun row =>
    (s.tables.tools row.actionId).any BatchTool.failed

/-- A call ends with this transaction and this stage; when the transaction raises, so does the
call. -/
def endBy (frameId : String) (d : BatchDriver) (actionId : ActionId)
    (result : Except LoopError BatchTables) (cause : Option ActionId) : BatchRun :=
  match result with
  | .ok tables =>
    { s with tables := tables }.setDriver frameId (some (d.setStage actionId (.ended cause)))
  | .error _ => s.setDriver frameId (some (d.setStage actionId .raised))

/-- The rest of `execute` after the tool service came back. -/
def endCall (frameId : String) (d : BatchDriver) (actionId : ActionId) (batchSkip : Bool) :
    BatchRun :=
  match (s.tables.tools actionId).bind fun tool =>
      if tool.state = .committed then tool.committedResult else none with
  | some result =>
    s.endBy frameId d actionId
      (s.tables.recordResult frameId d.iterationNo actionId result.projection result.digest)
      (if result.status = "SUCCEEDED" then none else some actionId)
  | none =>
    let pending := !(s.tables.tools actionId).any fun tool =>
      tool.state = .started || tool.state = .unknown
    match if batchSkip && pending then s.skippedBy frameId d else none with
    | some cause =>
      s.endBy frameId d actionId
        (s.tables.recordNotExecuted frameId d.iterationNo actionId ⟨.batchSkip, cause.actionId⟩)
        (some cause.actionId)
    | none => s.setDriver frameId (some (d.setStage actionId .raised))

/-- The end of a wave: it raises when a call did. -/
def join (frameId : String) (d : BatchDriver) : Option BatchRun :=
  if d.wave ≠ [] ∧ ∀ slot ∈ d.wave, slot.2.isOver = true then
    some (s.setDriver frameId (if ∃ slot ∈ d.wave, slot.2 = .raised then none else some d.join))
  else none

/-- Move on a frame that is in phase `old`. -/
def movePhase (frameId : String) (old : BatchPhase) (f : BatchFrame → BatchFrame) :
    Option BatchRun :=
  (s.tables.frames frameId).bind fun frame =>
    if frame.phase = old then some { s with tables := s.tables.setFrame frameId (f frame) } else none

/-- The call of this action that is inside the tool service, with its driver. -/
def calling (frameId : String) (actionId : ActionId) : Option BatchDriver :=
  (s.drivers frameId).filter fun d => d.At actionId .running

def step : BatchAction → Option BatchRun
  | .openFrame frameId policy =>
    if (s.tables.frames frameId).isNone then
      some { s with tables := s.tables.setFrame frameId ⟨policy, 1, .opened⟩ }
    else none
  | .openIteration frameId =>
    s.movePhase frameId .observed fun frame =>
      { frame with iterationNo := frame.iterationNo + 1, phase := .opened }
  | .accept frameId calls => some (s.transact (s.accept cfg frameId calls))
  | .handoff frameId call => some (s.transact (s.tables.acceptHandoff frameId call))
  | .childReturned frameId =>
    s.movePhase frameId .handedOff fun frame => { frame with phase := .observed }
  | .stop frameId old => s.movePhase frameId old fun frame => { frame with phase := .stopped }
  | .advance frameId =>
    (s.tables.frames frameId).bind fun frame =>
      if frame.phase = .accepted ∧ (s.drivers frameId).isNone then
        some (s.begun frameId (s.tables.advance frameId frame.iterationNo))
      else none
  | .next frameId =>
    (s.drivers frameId).bind fun d => (s.tables.frames frameId).bind fun frame =>
      s.next frameId frame d
  | .prepare frameId actionId =>
    (s.calling frameId actionId).map fun d =>
      s.serve frameId d actionId (s.tables.prepareTool actionId)
  | .start frameId actionId approvalPending =>
    (s.calling frameId actionId).map fun d =>
      s.serve frameId d actionId (s.tables.startTool actionId approvalPending)
  | .settle actionId state result =>
    (s.tables.settleTool actionId state result).map fun tables => { s with tables := tables }
  | .callReturns frameId actionId =>
    (s.calling frameId actionId).map fun d =>
      s.setDriver frameId (some (d.setStage actionId (.returned false)))
  | .endCall frameId actionId batchSkip =>
    ((s.drivers frameId).filter fun d => d.At actionId (.returned batchSkip)).map fun d =>
      s.endCall frameId d actionId batchSkip
  | .join frameId => (s.drivers frameId).bind fun d => s.join frameId d
  | .finish frameId =>
    (s.drivers frameId).bind fun d =>
      if d.wave = [] ∧ d.ordered = [] then
        some ((s.transact (s.tables.commitBatch frameId d.iterationNo)).setDriver frameId none)
      else none
  | .crash frameId => some (s.setDriver frameId none)

/-- A run without frames. -/
def new : BatchRun := ⟨⟨fun _ => none, [], [], fun _ => none, []⟩, fun _ => none⟩

end BatchRun

end LocalAgent.Runtime
