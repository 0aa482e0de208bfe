import LocalAgent.Runtime.StepCompletion

/-!
# LocalAgent.Runtime.ParallelExecution — `core/runtime/parallel_execution.py`

The execution of a batch of claimed steps.  `execute` checks the batch, runs one worker for each
claim in a task group, and then ends whatever the workers have left active.  A worker is a coroutine
over the outcomes of the batch and the world of the committer; its `except` clauses are the cases of
`handle`.

* `terminal`, `outcomeFromState`, `settleOutcome`, `approvalRejectedTerminal`: the ways a step gets
  its outcome.
* `worker`, `cancelClaims`, `cancelUnfinished`: the coroutines.
* `ExecRun.step`: preflight, the interleaving of the workers, the end of the group, the cleanup.
-/

namespace LocalAgent.Runtime

inductive ParallelFailureMode where
  | failFast | bestEffort
  deriving DecidableEq

inductive StepExecutionMode where
  | async | syncBlocking
  deriving DecidableEq

structure StepConcurrencySpec where
  resourceKey : String
  resourceLimit : ℕ
  deriving DecidableEq

def StepConcurrencySpec.default : StepConcurrencySpec := ⟨"default", 1⟩

/-- The exceptions of an execution, as far as its `except` clauses tell them apart. -/
inductive ExecError where
  /-- `asyncio.CancelledError` -/
  | cancelled
  /-- `RunCancelledError` -/
  | runCancelled
  /-- `RunDeadlineExceededError` -/
  | deadlineExceeded
  /-- `BudgetExceededError` -/
  | budgetExceeded
  | loopStopped
  | loopSuspended
  /-- `MemoryContextError` -/
  | memoryContext (errorCode : String)
  /-- `ToolApprovalRejectedError` -/
  | approvalRejected
  /-- `ModelSelectionError` -/
  | modelSelection (reasonCode : String)
  /-- `ParallelExecutionInfrastructureError` -/
  | infrastructure (errorCode safeMessage : String)
  /-- `_FailFastSignal` -/
  | failFast
  /-- any other `Exception` -/
  | other
  deriving DecidableEq

def ExecError.ofPublish : PublishError → ExecError
  | .cancelled => .cancelled
  | .runCancelled => .runCancelled
  | .deadlineExceeded => .deadlineExceeded
  | .memoryContext errorCode => .memoryContext errorCode
  | .publication _ | .channelClosed | .runtime | .other => .other

/-- `LoopStopped`, `LoopSuspended`, `MemoryContextError`: the run is going to be resumed. -/
def ExecError.isLoopSignal : ExecError → Bool
  | .loopStopped | .loopSuspended | .memoryContext _ => true
  | _ => false

/-- The statuses an outcome may have. -/
def StepStatus.IsOutcome (status : StepStatus) : Prop :=
  status = .succeeded ∨ status = .failed ∨ status = .cancelled
  deriving Decidable

/-- What `StepExecutionOutcome.__post_init__` accepts. -/
structure OutcomeValid (status : StepStatus) (startedAt endedAt : DateTime)
    (errorCode errorMessage : Option String) : Prop where
  settled : status.IsOutcome
  started_utc : startedAt.IsUtc
  ended_utc : endedAt.IsUtc
  ordered : ¬ endedAt < startedAt
  clean : status = .succeeded → ¬ (HasText errorCode ∨ HasText errorMessage)

instance (status : StepStatus) (startedAt endedAt : DateTime)
    (errorCode errorMessage : Option String) :
    Decidable (OutcomeValid status startedAt endedAt errorCode errorMessage) :=
  decidable_of_iff
    (status.IsOutcome ∧ startedAt.IsUtc ∧ endedAt.IsUtc ∧ ¬ endedAt < startedAt ∧
      (status = .succeeded → ¬ (HasText errorCode ∨ HasText errorMessage)))
    ⟨fun ⟨h1, h2, h3, h4, h5⟩ => ⟨h1, h2, h3, h4, h5⟩,
      fun h => ⟨h.settled, h.started_utc, h.ended_utc, h.ordered, h.clean⟩⟩

structure StepExecutionOutcome where
  stepId : String
  status : StepStatus
  startedAt : DateTime
  endedAt : DateTime
  result : Option DriverResult
  errorCode : Option String
  errorMessage : Option String
  valid : OutcomeValid status startedAt endedAt errorCode errorMessage
  deriving DecidableEq

/-- `StepExecutionOutcome(...)`. -/
def StepExecutionOutcome.new (stepId : String) (status : StepStatus) (startedAt endedAt : DateTime)
    (result : Option DriverResult) (errorCode errorMessage : Option String) :
    Except ExecError StepExecutionOutcome :=
  if h : OutcomeValid status startedAt endedAt errorCode errorMessage then
    .ok ⟨stepId, status, startedAt, endedAt, result, errorCode, errorMessage, h⟩
  else .error .other

structure ParallelExecutionReport where
  failureMode : ParallelFailureMode
  outcomes : List StepExecutionOutcome
  succeededStepIds : List String
  failedStepIds : List String
  cancelledStepIds : List String
  wasCancelled : Bool
  completionResults : List StepCompletionResult

/-- The durable repository of an executor. -/
inductive Durability where
  | off
  /-- there is a repository and no lease -/
  | leaseMissing
  | on (hasJournal : Bool)
  deriving DecidableEq

/-- A batch and the parts of the executor.  The claims are distinct, as `execute` checks, and each
names a step that an event has started; both owners of step events are given one emitter. -/
structure ExecConfig where
  claims : List StepClaim
  distinct : (claims.map StepClaim.stepId).Nodup
  named : ∀ claim ∈ claims, ¬ Text.isBlank claim.stepId = true
  failureMode : ParallelFailureMode
  executionMode : StepExecutionMode
  /-- `inspect.iscoroutinefunction(driver.execute)` -/
  driverIsAsync : Bool
  specs : Dict String StepConcurrencySpec
  plan : Option Plan
  completionOwner : Option CommitterConfig
  hasEventEmitter : Bool
  sameEmitter : ∀ owner ∈ completionOwner, owner.hasEventEmitter = hasEventEmitter
  durable : Durability
  emitsUserOutput : Bool

/-- The world of the committer and what the workers of a batch share. -/
structure ExecWorld where
  commit : CommitterWorld
  outcomes : Dict String StepExecutionOutcome
  completions : Dict String StepCompletionResult
  /-- the keys of `durable_attempts` -/
  durableAttempts : List String
  wasTokenCancelled : Bool
  failFastTriggered : Bool
  /-- the step whose cancellation the cleanup publishes -/
  cancelling : Option String

/-- What `raise_if_inactive` finds. -/
inductive Inactive where
  | cancelled | deadlineExceeded
  deriving DecidableEq

/-- What the environment answers in one step. -/
structure ExecInput where
  commit : CommitterInput
  /-- the task is cancelled while it waits -/
  interrupted : Bool
  inactive : Option Inactive
  /-- `start_step` raises -/
  startError : Option ExecError
  driver : Except ExecError DriverResult

namespace ParallelExecutor

open Coroutine

/-- A coroutine of an execution. -/
abbrev ExecCall (α : Type) := Fallible ExecInput ExecWorld ExecError α

variable (cfg : ExecConfig)

/-! ## Preflight -/

def resourceLimits (specs : Dict String StepConcurrencySpec) :
    List StepClaim → Dict String ℕ → Except ExecError (Dict String ℕ)
  | [], limits => .ok limits
  | claim :: claims, limits =>
    let spec := (specs.get? claim.stepId).getD .default
    match limits.get? spec.resourceKey with
    | none => resourceLimits specs claims (limits.set spec.resourceKey spec.resourceLimit)
    | some current =>
      if current ≠ spec.resourceLimit then
        .error (.infrastructure "RESOURCE_LIMIT_CONFLICT"
          ("资源 " ++ spec.resourceKey ++ " 的并发限制冲突: " ++ toString current ++ " 与 " ++
            toString spec.resourceLimit))
      else resourceLimits specs claims limits

def preflight : Except ExecError Unit := do
  raiseIf (cfg.executionMode = .async ∧ cfg.driverIsAsync = false ∨
      cfg.executionMode = .syncBlocking ∧ cfg.driverIsAsync = true)
    (.infrastructure "DRIVER_MODE_MISMATCH" "Driver 与执行模式不匹配")
  let _ ← resourceLimits cfg.specs cfg.claims Dict.empty
  pure ()

def raiseIfInactive : Option Inactive → Except ExecError Unit
  | none => .ok ()
  | some .cancelled => .error .runCancelled
  | some .deadlineExceeded => .error .deadlineExceeded

/-! ## Outcomes -/

/-- A call on the state of the run that gives a claimed step its outcome. -/
abbrev OutcomeOp := Op ExecError AgentState StepExecutionOutcome

/-- Apply a step event; every refusal is a `ValueError`. -/
def applyEvent (data : StepEventData) : Op ExecError AgentState Unit := fun state =>
  match AgentStateMachine.applyStepData data state with
  | .ok () state' => .ok () state'
  | .error _ state' => .error .other state'

def eventTypeOf : StepStatus → StepEventType
  | .succeeded => .succeeded
  | .failed => .failed
  | _ => .cancelled

def startedAt (claim : StepClaim) (current : StepState) : DateTime :=
  current.startedAt.getD claim.claimedAt

/-- `max(datetime.now(UTC), state.updated_at, current.started_at or claim.claimed_at)`. -/
def endedAt (now : DateTime.Utc) (state : AgentState) (claim : StepClaim) (current : StepState) :
    DateTime :=
  DateTime.latest (DateTime.latest now.val state.updatedAt) (startedAt claim current)

def terminal (now : DateTime.Utc) (claim : StepClaim) (status : StepStatus)
    (result : Option DriverResult) (errorCode errorMessage : Option String) : OutcomeOp := do
  let state ← get
  match state.steps.get? claim.stepId with
  | none => Op.raise (.infrastructure "STEP_MISSING" "已 Claim 步骤在状态机中缺失")
  | some current =>
    if ¬ current.status.IsActive then
      Op.raise (.infrastructure "STEP_NOT_RUNNING" "已 Claim 步骤未处于 RUNNING/WAITING 状态")
    else if current.status = .waitingForApproval ∧ status ≠ .cancelled then
      Op.raise (.infrastructure "STEP_NOT_RUNNING" "WAITING Step 只能被取消收口")
    else do
      applyEvent ⟨eventTypeOf status, claim.stepId, endedAt now state claim current, errorCode,
        errorMessage⟩
      Op.lift (StepExecutionOutcome.new claim.stepId status (startedAt claim current)
        (endedAt now state claim current) result errorCode errorMessage)

def outcomeFromState (now : DateTime.Utc) (claim : StepClaim) (status : StepStatus) : OutcomeOp := do
  let state ← get
  match state.steps.get? claim.stepId with
  | none => Op.raise (.infrastructure "STEP_MISSING" "已提交 Step 在状态机中缺失")
  | some current =>
    if ¬ status.IsOutcome then
      Op.raise (.infrastructure "STEP_NOT_TERMINAL" "Outcome 只能使用 Step 终态")
    else
      Op.lift (StepExecutionOutcome.new claim.stepId status (startedAt claim current)
        (current.endedAt.getD (DateTime.latest now.val (startedAt claim current))) none
        current.errorCode current.errorMessage)

/-- `_settle_outcome` with `CANCELLED`. -/
def settleOutcome (now : DateTime.Utc) (claim : StepClaim) (errorCode errorMessage : String) :
    OutcomeOp := do
  let state ← get
  match state.steps.get? claim.stepId with
  | none => Op.raise (.infrastructure "STEP_MISSING" "已 Claim Step 在状态机中缺失")
  | some current =>
    if current.status.IsActive then
      terminal now claim .cancelled none (some errorCode) (some errorMessage)
    else outcomeFromState now claim current.status

def approvalRejectedTerminal (now : DateTime.Utc) (claim : StepClaim) : OutcomeOp := do
  let state ← get
  match state.steps.get? claim.stepId with
  | none => Op.raise (.infrastructure "STEP_MISSING" "已 Claim Step 在状态机中缺失")
  | some current =>
    if current.status = .failed ∨ current.status = .cancelled then
      outcomeFromState now claim current.status
    else if current.status ≠ .waitingForApproval then
      Op.raise (.infrastructure "STEP_NOT_WAITING"
        "Approval Reject 只能收口 WAITING_FOR_APPROVAL Step")
    else do
      applyEvent ⟨.approvalRejected, claim.stepId, endedAt now state claim current,
        some "TOOL_APPROVAL_REJECTED", some "Tool 调用已被拒绝审批"⟩
      Op.lift (StepExecutionOutcome.new claim.stepId .failed (startedAt claim current)
        (endedAt now state claim current) none (some "TOOL_APPROVAL_REJECTED")
        (some "Tool 调用已被拒绝审批"))

/-- The outcome after `commit` has returned. -/
def completionOutcome (now : DateTime.Utc) (claim : StepClaim)
    (completion : StepCompletionResult) : OutcomeOp := do
  let state ← get
  if completion.errorCode ≠ none then
    outcomeFromState now claim
      (((state.steps.get? claim.stepId).map StepState.status).getD .failed)
  else outcomeFromState now claim .succeeded

def driverFailureCode (claim : StepClaim) (error : ExecError) : String :=
  match error with
  | .modelSelection reasonCode =>
    if reasonCode = "budget_unavailable" ∨ reasonCode = "forced_remote_budget_unavailable" ∨
        reasonCode = "forced_profile_budget_unavailable" then
      "MODEL_SELECTION_BUDGET_UNAVAILABLE"
    else planCode
  | _ => planCode
where
  planCode : String :=
    match cfg.plan.bind fun plan => plan.step? claim.stepId with
    | some planStep =>
      if planStep.executionKind = .synthesis then "SYNTHESIS_FAILED" else "AGENT_STEP_FAILED"
    | none => "AGENT_STEP_FAILED"

def failureCode (claim : StepClaim) (error : ExecError) : String :=
  if cfg.completionOwner.isSome then driverFailureCode cfg claim error
  else "STEP_EXECUTION_FAILED"

/-! ## Sections -/

/-- `outcomes[claim.step_id] = ...`. -/
def settle (stepId : String) (x : DateTime.Utc → OutcomeOp) : ExecCall Unit :=
  tryPerform fun i w =>
    match x i.commit.now w.commit.state with
    | .ok outcome state =>
      (.ok (),
        { w with
          commit := { w.commit with state := state }
          outcomes := w.outcomes.set stepId outcome })
    | .error error state => (.error error, { w with commit := { w.commit with state := state } })

/-- A point where the task can be cancelled. -/
def awaitTurn : ExecCall Unit :=
  tryPerform fun i w => if i.interrupted then (.error .cancelled, w) else (.ok (), w)

def checkActive : ExecCall Unit :=
  tryPerform fun i w => (raiseIfInactive i.inactive, w)

def checkFailFast : ExecCall Unit :=
  tryPerform fun _ w => if w.failFastTriggered then (.error .cancelled, w) else (.ok (), w)

def invoke : ExecCall DriverResult := tryPerform fun i w => (i.driver, w)

def onCommitter {α : Type} (x : StepResultCommitter.CommitCall α) :
    Fallible ExecInput ExecWorld PublishError α :=
  ExceptT.mk (zoom ExecWorld.commit (fun w commit => { w with commit := commit }) ExecInput.commit
    x.run)

/-- `raise _FailFastSignal()`; inside the permits the event is set as well. -/
def signalFailFast (trigger : Bool) : ExecCall Unit :=
  if cfg.failureMode = .failFast then do
    if trigger then perform fun _ w => ((), { w with failFastTriggered := true })
    throw .failFast
  else pure ()

/-! ## Publishing -/

/-- `except (EventChannelClosedError, RuntimeError)`. -/
def isRuntimeError : PublishError → Bool
  | .channelClosed | .runtime | .runCancelled | .memoryContext _ => true
  | .publication _ | .cancelled | .deadlineExceeded | .other => false

def planStepOf (claim : StepClaim) : Option PlanStep :=
  cfg.plan.bind fun plan => plan.step? claim.stepId

def startedPayload (claim : StepClaim) : StepStartedPayload where
  status := .running
  agentId := some claim.preferredAgent
  executionKind := (planStepOf cfg claim).map PlanStep.executionKind
  outputPolicy := (planStepOf cfg claim).map PlanStep.outputPolicy
  dependencyCount := (planStepOf cfg claim).map fun planStep => planStep.dependsOn.length

/-- `start_step` outside a publication. -/
def startStep : ExecCall Unit :=
  if cfg.durable = .on false ∨ cfg.durable = .on true ∧ cfg.hasEventEmitter = false then
    tryPerform fun i w =>
      match i.startError with
      | some error => (.error error, w)
      | none => (.ok (), w)
  else pure ()

/-- `durable_attempts[claim.step_id] = durable_attempt`. -/
def noteAttempt (stepId : String) : ExecCall Unit :=
  if cfg.durable = .off then pure ()
  else perform fun _ w => ((), { w with durableAttempts := w.durableAttempts ++ [stepId] })

/-- The outcome of the publication of `STEP_STARTED`. -/
def startPublished (stepId : String) : Except PublishError Unit → ExecCall Unit
  | .ok () => noteAttempt cfg stepId
  | .error error =>
    if isRuntimeError error = true ∧ cfg.durable = .off then pure ()
    else throw (.ofPublish error)

def emitStepStarted (claim : StepClaim) : ExecCall Unit :=
  if cfg.durable = .leaseMissing then
    throw (.infrastructure "DURABLE_LEASE_MISSING" "durable Step 启动缺少 Run lease")
  else do
    startStep cfg
    if cfg.hasEventEmitter = false then noteAttempt cfg claim.stepId
    else do
      let outcome ← attempt (onCommitter (StepResultCommitter.emitStep
        (.started claim.stepId (startedPayload cfg claim)) false fun _ => []))
      startPublished cfg claim.stepId outcome

/-- Whether the emitter is closed, and whether there is an `atomic_mutation`. -/
def readEmitter (stepId : String) (withAttempt : Bool) : ExecCall (Bool × Bool) :=
  perform fun _ w =>
    ((decide (stepId ∈ w.commit.closedEmitters),
      withAttempt && decide (cfg.durable = .on true) && decide (stepId ∈ w.durableAttempts)), w)

/-- The outcome of the publication of `STEP_COMPLETED`. -/
def completionPublished (atomicMutation : Bool) : Except PublishError Unit → ExecCall Unit
  | .ok () => pure ()
  | .error error =>
    if isRuntimeError error = true ∧ atomicMutation = false then pure ()
    else throw (.ofPublish error)

def emitStepCompleted (claim : StepClaim) (planStep : Option PlanStep) (status : StepStatus)
    (safeErrorCode : Option String) (withAttempt : Bool) : ExecCall Unit := do
  if cfg.hasEventEmitter = false then return ()
  let (closed, atomicMutation) ← readEmitter cfg claim.stepId withAttempt
  if closed then return ()
  let outcome ← attempt (onCommitter (StepResultCommitter.emitStep
    (.completed claim.stepId
      (StepResultCommitter.completedPayload planStep status safeErrorCode 0 none)) true fun _ => []))
  completionPublished atomicMutation outcome

/-- `OUTPUT_DELTA`, which leaves no step event. -/
def emitOutput (claim : StepClaim) (result : DriverResult) : ExecCall Unit :=
  match result with
  | .text _ =>
    if cfg.hasEventEmitter = true ∧ cfg.emitsUserOutput = true then
      tryPerform fun i w =>
        if claim.stepId ∈ w.commit.closedEmitters then (.error .other, w)
        else
          match i.commit.beforeAppend with
          | some fault => (.error (.ofPublish (fault.error false)), w)
          | none => (.ok (), w)
    else pure ()
  | _ => pure ()

/-! ## The worker -/

def fail (claim : StepClaim) (error : ExecError) (trigger : Bool) : ExecCall Unit := do
  let code := failureCode cfg claim error
  settle claim.stepId fun now => terminal now claim .failed none (some code)
    (some "步骤业务执行失败")
  emitStepCompleted cfg claim (planStepOf cfg claim) .failed (some code) true
  signalFailFast cfg trigger

def reject (claim : StepClaim) (trigger : Bool) : ExecCall Unit := do
  settle claim.stepId fun now => approvalRejectedTerminal now claim
  emitStepCompleted cfg claim (planStepOf cfg claim) .failed (some "TOOL_APPROVAL_REJECTED") true
  signalFailFast cfg trigger

/-- What follows from `commit`. -/
def committed (claim : StepClaim) : Except PublishError StepCompletionResult → ExecCall Unit
  | .error error => throw (.ofPublish error)
  | .ok completion => do
    perform fun _ w => ((), { w with completions := w.completions.set claim.stepId completion })
    settle claim.stepId fun now => completionOutcome now claim completion
    if completion.errorCode ≠ none then signalFailFast cfg true

/-- A driver that returned: with a completion owner, everything else is up to `commit`. -/
def finish (call : ℕ) (claim : StepClaim) (result : DriverResult) : ExecCall Unit :=
  match cfg.completionOwner with
  | some owner => do
    let outcome ← attempt (onCommitter (StepResultCommitter.commit owner call claim result))
    committed cfg claim outcome
  | none => do
    emitOutput cfg claim result
    settle claim.stepId fun now => terminal now claim .succeeded (some result) none none
    emitStepCompleted cfg claim (planStepOf cfg claim) .succeeded none true

/-- The `except` clauses around the driver. -/
def driverReturned (call : ℕ) (claim : StepClaim) : Except ExecError DriverResult → ExecCall Unit
  | .ok result => finish cfg call claim result
  | .error .approvalRejected => reject cfg claim true
  | .error .failFast => fail cfg claim .failFast true
  | .error .other => fail cfg claim .other true
  | .error (.modelSelection reasonCode) => fail cfg claim (.modelSelection reasonCode) true
  | .error error => throw error

/-- The `try` of a worker. -/
def body (call : ℕ) (claim : StepClaim) : ExecCall Unit := do
  emitStepStarted cfg claim
  checkActive
  awaitTurn
  checkActive
  checkFailFast
  let outcome ← attempt invoke
  driverReturned cfg call claim outcome

/-- A worker that was cancelled. -/
def cancelOwn (claim : StepClaim) (errorCode errorMessage : String) : ExecCall Unit := do
  settle claim.stepId fun now => settleOutcome now claim errorCode errorMessage
  emitStepCompleted cfg claim (planStepOf cfg claim) .cancelled (some errorCode) true

/-- The `except` clauses of a worker. -/
def handle (claim : StepClaim) : Except ExecError Unit → ExecCall Unit
  | .ok () => pure ()
  | .error .cancelled => do
    cancelOwn cfg claim "STEP_CANCELLED" "步骤执行已取消"
    throw .cancelled
  | .error .runCancelled => do
    perform fun _ w => ((), { w with wasTokenCancelled := true })
    cancelOwn cfg claim "RUN_CANCELLED" "运行已请求取消"
  | .error .approvalRejected => reject cfg claim false
  | .error (.modelSelection reasonCode) => fail cfg claim (.modelSelection reasonCode) false
  | .error .other => fail cfg claim .other false
  | .error error => throw error

/-- `worker`: a task that is cancelled before its first instruction never gets into its `try`. -/
def worker (call : ℕ) (claim : StepClaim) : ExecCall Unit := do
  awaitTurn
  let outcome ← attempt (body cfg call claim)
  handle cfg claim outcome

/-! ## Cleanup -/

/-- One claim of `_cancel_claims`; whether it was active. -/
def cancelClaim (claim : StepClaim) (errorCode message : String) : ExecCall Bool :=
  tryPerform fun i w =>
    if (w.commit.state.steps.get? claim.stepId).any fun current => current.status.IsActive then
      match terminal i.commit.now claim .cancelled none (some errorCode) (some message)
          w.commit.state with
      | .ok _ state =>
        (.ok true,
          { w with
            commit := { w.commit with state := state }
            cancelling := some claim.stepId })
      | .error error state => (.error error, { w with commit := { w.commit with state := state } })
    else (.ok false, w)

def cancelClaims (errorCode message : String) : List StepClaim → ExecCall Unit
  | [] => pure ()
  | claim :: claims => do
    if ← cancelClaim claim errorCode message then
      emitStepCompleted cfg claim none .cancelled (some errorCode) false
    cancelClaims errorCode message claims

/-- One claim of `_cancel_unfinished`; whether it had to be cancelled. -/
def cancelUnfinishedClaim (claim : StepClaim) : ExecCall Bool :=
  tryPerform fun i w =>
    if ((w.commit.state.steps.get? claim.stepId).any fun current => ¬ current.status.IsActive) ∨
        claim.stepId ∈ w.outcomes.keys then (.ok false, w)
    else
      match terminal i.commit.now claim .cancelled none (some "STEP_CANCELLED")
          (some "步骤执行已取消") w.commit.state with
      | .ok outcome state =>
        (.ok true,
          { w with
            commit := { w.commit with state := state }
            outcomes := w.outcomes.set claim.stepId outcome
            cancelling := some claim.stepId })
      | .error error state => (.error error, { w with commit := { w.commit with state := state } })

def cancelUnfinished : List StepClaim → ExecCall Unit
  | [] => pure ()
  | claim :: claims => do
    if ← cancelUnfinishedClaim claim then
      emitStepCompleted cfg claim none .cancelled (some "STEP_CANCELLED") true
    cancelUnfinished claims

/-- The report of a batch; a claim without an outcome is a `KeyError`. -/
def report (w : ExecWorld) : Except ExecError ParallelExecutionReport := do
  let ordered ← cfg.claims.mapM fun claim => orRaise (w.outcomes.get? claim.stepId) .other
  let idsWith (status : StepStatus) : List String :=
    (ordered.filter fun outcome => outcome.status = status).map StepExecutionOutcome.stepId
  return {
    failureMode := cfg.failureMode
    outcomes := ordered
    succeededStepIds := idsWith .succeeded
    failedStepIds := idsWith .failed
    cancelledStepIds := idsWith .cancelled
    wasCancelled := w.wasTokenCancelled
    completionResults := cfg.claims.filterMap fun claim => w.completions.get? claim.stepId }

/-! ## The execution -/

/-- What `except*` and the clauses after it make of the exceptions of the group. -/
inductive Verdict where
  | signal (error : ExecError)
  /-- raised after the cleanup, when there is one -/
  | cleanup (error : Option ExecError)
  deriving DecidableEq

/-- Neither of the `except*` clauses takes the exception. -/
def isUnhandled : ExecError → Bool
  | .failFast | .budgetExceeded | .deadlineExceeded | .loopStopped | .loopSuspended
  | .memoryContext _ => false
  | _ => true

/-- The end of the task group. -/
def verdict (errors : List ExecError) (parentCancelled : Bool) : Verdict :=
  if errors = [] then .cleanup (if parentCancelled then some .cancelled else none)
  else if errors.any isUnhandled then
    .cleanup (some (.infrastructure "EXECUTION_INFRASTRUCTURE_ERROR" "并行执行基础设施异常"))
  else
    match errors.find? ExecError.isLoopSignal with
    | some signal => .signal signal
    | none =>
      if .budgetExceeded ∈ errors then .cleanup (some .budgetExceeded)
      else if .deadlineExceeded ∈ errors then .cleanup (some .deadlineExceeded)
      else .cleanup none

inductive ExecPhase where
  | preflight
  /-- in the task group, with the exceptions of the workers that have ended -/
  | working (errors : List ExecError)
  /-- in the cleanup, and what is raised after it -/
  | closing (error : Option ExecError)
  | finished (result : Except ExecError ParallelExecutionReport)

/-- An execution: where it is, and its coroutines. -/
structure ExecRun where
  phase : ExecPhase
  pool : Pool ExecInput ExecWorld (Except ExecError Unit)

inductive Action where
  | preflight (inactive : Option Inactive)
  /-- one step of a worker, or of the cleanup -/
  | advance (n : ℕ) (input : ExecInput)
  /-- all workers have ended; the task of `execute` itself may have been cancelled meanwhile -/
  | join (parentCancelled : Bool)
  | conclude
  | state (call : AgentStateMachine.Call)

/-- The exception a task leaves in its group; a cancelled task leaves none. -/
def leaves : Option (Coroutine ExecInput ExecWorld (Except ExecError Unit)) → List ExecError
  | some (.done (.error error)) => if error = .cancelled then [] else [error]
  | _ => []

def afterPreflight (w : ExecWorld) (inactive : Option Inactive) : ExecRun :=
  match preflight cfg >>= fun _ => raiseIfInactive inactive with
  | .ok () => ⟨.working [], w, cfg.claims.mapIdx fun n claim => (worker cfg n claim).run⟩
  | .error .runCancelled =>
    ⟨.closing (some .runCancelled), w,
      [(cancelClaims cfg "RUN_CANCELLED" "运行已请求取消" cfg.claims).run]⟩
  | .error (.infrastructure errorCode safeMessage) =>
    ⟨.closing (some (.infrastructure errorCode safeMessage)), w,
      [(cancelClaims cfg "EXECUTION_PREFLIGHT_FAILED" "执行前置校验失败" cfg.claims).run]⟩
  | .error error => ⟨.finished (.error error), w, []⟩

/-- The result of an execution after its cleanup. -/
def conclusion (w : ExecWorld) (error : Option ExecError) :
    Except ExecError Unit → Except ExecError ParallelExecutionReport
  | .error raised => .error raised
  | .ok () =>
    match error with
    | some error => .error error
    | none => report cfg w

/-- The step function; `none` when the action is not the next one. -/
def step (run : ExecRun) : Action → Option ExecRun
  | .preflight inactive =>
    match run.phase with
    | .preflight => some (afterPreflight cfg run.pool.world inactive)
    | _ => none
  | .advance n input =>
    match run.phase with
    | .working errors =>
      (run.pool.advance n input).map fun pool =>
        ⟨.working (errors ++ leaves pool.routines[n]?), pool⟩
    | .closing error => (run.pool.advance n input).map fun pool => ⟨.closing error, pool⟩
    | _ => none
  | .join parentCancelled =>
    match run.phase with
    | .working errors =>
      if run.pool.routines.all isDone then
        match verdict errors parentCancelled with
        | .signal error => some ⟨.finished (.error error), run.pool.world, []⟩
        | .cleanup error =>
          some ⟨.closing error, run.pool.world, [(cancelUnfinished cfg cfg.claims).run]⟩
      else none
    | _ => none
  | .conclude =>
    match run.phase, run.pool.routines with
    | .closing error, [.done outcome] =>
      some ⟨.finished (conclusion cfg run.pool.world error outcome), run.pool.world, []⟩
    | _, _ => none
  | .state call =>
    some ⟨run.phase, { run.pool.world with
      commit := { run.pool.world.commit with
        state := Op.after call.op run.pool.world.commit.state } }, run.pool.routines⟩

def start (store : StepResultStore) (state : AgentState) (completedSteps : Dict String ℕ)
    (closedEmitters : List String) : ExecRun :=
  ⟨.preflight, ⟨⟨store, state, completedSteps, closedEmitters, [], []⟩, Dict.empty, Dict.empty, [],
    false, false, none⟩, []⟩

end ParallelExecutor

end LocalAgent.Runtime
