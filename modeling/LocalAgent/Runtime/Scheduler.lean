import LocalAgent.Runtime.Budget
import LocalAgent.Runtime.ClaimGate
import LocalAgent.Runtime.PlanGraph
import LocalAgent.Runtime.StateMachine

/-!
# LocalAgent.Runtime.Scheduler — `core/runtime/scheduler.py`

`SerialScheduler` over a shared `AgentState`.  A call holds `_claim_lock` and the state's
`runtime_lock` from its first read to its last write, so a call is one computation on the `World` of
the scheduler's binding, the state, the claim gate and the budget ledger.  The ledger has its own
lock: what other users of it do between the reservation and the settlement of a claim is the
function `others` of the call.
-/

namespace LocalAgent.Runtime

/-! ## Data -/

/-- `_BLOCKING_DEPENDENCY_STATUSES`. -/
def StepStatus.isBlocking (status : StepStatus) : Bool :=
  status = .failed || status = .cancelled || status = .blocked || status = .skipped

/-- The exceptions a scheduler call can end with. -/
inductive SchedulerError where
  /-- a `ValueError` of the argument checks or of `StepClaim` -/
  | value (message : String)
  | plan (error : PlanError)
  | state (error : StateError)
  | budget (error : BudgetError)
  /-- `SchedulerPlanStateMismatchError` -/
  | planStateMismatch (message planId : String) (planVersion : ℤ) (stepId : Option String)
      (currentState : String)
  /-- `SchedulerPartialClaimError` -/
  | partialClaim (planId : String) (planVersion : ℤ) (succeededStepIds : List String)
      (stepId currentState : String)
  /-- `SchedulerClaimError` -/
  | claim (planId : String) (planVersion : ℤ) (stepId currentState : String)
  /-- `SchedulerClaimGateClosedError` -/
  | gateClosed
  /-- the `RuntimeError` of `exit_claim` -/
  | gateExit
  /-- a `KeyError` -/
  | key (key : String)
  deriving DecidableEq

/-- `StepClaim`; `__post_init__` is the last field. -/
structure StepClaim where
  planId : String
  planVersion : ℤ
  stepId : String
  claimedAt : DateTime
  capabilityRequirements : TaskCapabilityRequirements
  preferredAgent : String
  claimedAt_utc : claimedAt.IsUtc
  deriving DecidableEq

/-- `StepClaim(...)` for a plan step. -/
def StepClaim.make (plan : Plan) (step : PlanStep) (claimedAt : DateTime) :
    Except SchedulerError StepClaim :=
  if h : claimedAt.IsUtc then
    .ok ⟨plan.planId, plan.version, step.stepId, claimedAt, step.capabilityRequirements,
      step.preferredAgent, h⟩
  else .error (.value "claimed_at 必须是带时区的 UTC 时间")

structure SchedulerSnapshot where
  readyStepIds : List String
  runningStepIds : List String
  pendingStepIds : List String
  blockedStepIds : List String
  terminalStepIds : List String
  isComplete : Bool
  isWaiting : Bool
  hasUnresolvedPending : Bool
  claimableStepIds : List String
  maxParallelism : ℤ
  availableSlots : ℤ
  deriving DecidableEq

/-- An entry of the scheduling signature. -/
structure StepSignature where
  stepId : String
  title : String
  dependsOn : List String
  preferredAgent : String
  capabilityRequirements : TaskCapabilityRequirements
  deriving DecidableEq

structure Binding where
  runId : String
  planId : String
  version : ℤ
  schedulingSignature : List StepSignature
  deriving DecidableEq

/-- What the calls of one scheduler share. -/
structure World where
  state : AgentState
  binding : Option Binding
  gate : SchedulerClaimGate
  ledger : BudgetLedger

/-- `enter_claim` at an open gate. -/
def World.enterClaim (w : World) : World :=
  { w with gate := { w.gate with claimInProgress := w.gate.claimInProgress + 1 } }

abbrev SchedulerOp := Op SchedulerError World

/-- The clock readings of `add_step` for each step id: for the step, then for the touch. -/
abbrev StepClock := String → DateTime × DateTime

/-- What a claim reads and does outside the state: whether a ledger is passed, the identity, the
times and the readings of its reservation, and the other users of the ledger. -/
structure ClaimEnv where
  clock : StepClock
  useLedger : Bool
  uuid : String
  createdAt : DateTime
  reading : BudgetReading
  others : BudgetLedger → BudgetLedger

namespace SerialScheduler

def onState {α : Type} (x : StateOp α) : SchedulerOp α := fun w =>
  match x w.state with
  | .ok a s => .ok a { w with state := s }
  | .error e s => .error (.state e) { w with state := s }

/-- A call on the budget ledger. -/
def onLedger {α : Type} (x : LedgerOp α) : SchedulerOp α := fun w =>
  match x w.ledger with
  | .ok a l => .ok a { w with ledger := l }
  | .error e l => .error (.budget e) { w with ledger := l }

def validateParallelism (value : ℤ) : Except SchedulerError Unit :=
  raiseIf (value ≤ 0) (.value "max_parallelism 必须是正整数")

def validateUtc (value : DateTime) : Except SchedulerError Unit :=
  raiseIf (¬ value.IsUtc) (.value "occurred_at 必须是带时区的 UTC 时间")

def effectiveTime (occurredAt : DateTime) (state : AgentState) : DateTime :=
  DateTime.latest occurredAt state.updatedAt

/-- `state.steps[step_id]`. -/
def stepAt (state : AgentState) (stepId : String) : Except SchedulerError StepState :=
  match state.steps.get? stepId with
  | some step => .ok step
  | none => .error (.key stepId)

/-- `any(p(state.steps[id].status) for id in ids)`. -/
def anyStatus (state : AgentState) (p : StepStatus → Bool) :
    List String → Except SchedulerError Bool
  | [] => .ok false
  | id :: ids => do
    let step ← stepAt state id
    if p step.status then return true else anyStatus state p ids

/-- `all(p(state.steps[id].status) for id in ids)`. -/
def allStatus (state : AgentState) (p : StepStatus → Bool) (ids : List String) :
    Except SchedulerError Bool := do
  let failing ← anyStatus state (fun status => !p status) ids
  return !failing

/-- `tuple(id for id in ids if p(state.steps[id].status))`. -/
def withStatus (state : AgentState) (p : StepStatus → Bool) :
    List String → Except SchedulerError (List String)
  | [] => .ok []
  | id :: ids => do
    let step ← stepAt state id
    let rest ← withStatus state p ids
    return if p step.status then id :: rest else rest

/-! ## Binding and registration -/

def bindingValue (plan : Plan) (state : AgentState) : Binding :=
  ⟨state.runId, plan.planId, plan.version, plan.steps.map fun step =>
    ⟨step.stepId, step.title, step.dependsOn, step.preferredAgent, step.capabilityRequirements⟩⟩

/-- `SchedulerPlanStateMismatchError(...)`. -/
def mismatch (plan : Plan) (stepId : Option String) (currentState message : String) :
    SchedulerError :=
  .planStateMismatch message plan.planId plan.version stepId currentState

def validateBinding (plan : Plan) (w : World) : Except SchedulerError Unit :=
  raiseIf (∃ binding ∈ w.binding, binding ≠ bindingValue plan w.state)
    (mismatch plan none w.state.status.value "Scheduler 实例已绑定其他 Run 或 Plan 版本")

/-- The check of one step before anything is registered. -/
def validateName (plan : Plan) (state : AgentState) (step : PlanStep) :
    Except SchedulerError Unit :=
  match state.steps.get? step.stepId with
  | none => .ok ()
  | some existing => raiseIf (existing.name ≠ step.title)
      (mismatch plan (some step.stepId) existing.status.value "相同步骤标识对应的名称不一致")

/-- The registration of one step that is not there yet. -/
def registerMissing (clock : StepClock) (step : PlanStep) : SchedulerOp Unit := do
  let w ← get
  if step.stepId ∉ w.state.steps.keys then
    onState (AgentStateMachine.addStep step.stepId step.title (clock step.stepId).1
      (clock step.stepId).2)

def prepareLocked (plan : Plan) (clock : StepClock) : SchedulerOp PlanGraph := do
  let graph ← Op.lift ((PlanGraphValidator.validate plan).mapError .plan)
  let w ← get
  Op.lift (w.state.validate.mapError .state)
  Op.lift (validateBinding plan w)
  Op.lift (raiseIf (w.state.status ≠ .running)
    (mismatch plan none w.state.status.value "只有 RUNNING Run 可以准备调度步骤"))
  Op.lift (plan.steps.forM (validateName plan w.state))
  plan.steps.forM (registerMissing clock)
  modify fun w => { w with binding := some (bindingValue plan w.state) }
  return graph

/-- The check of one step of `_validate_plan_state_alignment`. -/
def validateRegistered (plan : Plan) (state : AgentState) (step : PlanStep) :
    Except SchedulerError Unit :=
  match state.steps.get? step.stepId with
  | none => .error
      (mismatch plan (some step.stepId) "MISSING" "Plan Step 尚未注册到 AgentState")
  | some existing => raiseIf (existing.name ≠ step.title)
      (mismatch plan (some step.stepId) existing.status.value "相同步骤标识对应的名称不一致")

def validatePlanStateAlignment (plan : Plan) (w : World) : Except SchedulerError Unit := do
  w.state.validate.mapError .state
  validateBinding plan w
  plan.steps.forM (validateRegistered plan w.state)

/-! ## Propagation -/

def emit (data : StepEventData) : SchedulerOp Unit := do
  let event ← Op.lift ((StepStateEvent.make data).mapError .state)
  onState (AgentStateMachine.applyStepEvent event)

/-- The `BLOCKED` event of a step behind an unsuccessful dependency. -/
def blockedEvent (stepId : String) (occurredAt : DateTime) : StepEventData :=
  ⟨.blocked, stepId, occurredAt, some "DEPENDENCY_NOT_SUCCESSFUL",
    some "前置步骤未成功，当前步骤无法执行"⟩

/-- The body of the `for` loop of `_propagate_blocked`; true when an event was applied. -/
def propagateStep (graph : PlanGraph) (occurredAt : DateTime) (stepId : String) :
    SchedulerOp Bool := do
  let w ← get
  let current ← Op.lift (stepAt w.state stepId)
  if current.status ≠ .pending then
    return false
  else
    let blocking ← Op.lift (anyStatus w.state StepStatus.isBlocking (graph.dependenciesOf stepId))
    if blocking then
      emit (blockedEvent stepId (effectiveTime occurredAt w.state))
      return true
    else
      return false

/-- One pass over the order; true when something changed. -/
def propagatePass (graph : PlanGraph) (occurredAt : DateTime) : List String → SchedulerOp Bool
  | [] => pure false
  | id :: ids => do
    let changed ← propagateStep graph occurredAt id
    let later ← propagatePass graph occurredAt ids
    return changed || later

/-- `while changed`: every pass but the last takes a step out of PENDING, so one pass more than there
are steps is enough. -/
def propagateLoop (graph : PlanGraph) (occurredAt : DateTime) : ℕ → SchedulerOp Unit
  | 0 => pure ()
  | fuel + 1 => do
    let changed ← propagatePass graph occurredAt graph.topologicalOrder
    if changed then propagateLoop graph occurredAt fuel else pure ()

def propagateBlocked (graph : PlanGraph) (occurredAt : DateTime) : SchedulerOp Unit := do
  let w ← get
  if w.state.status ≠ .running then pure ()
  else propagateLoop graph occurredAt (graph.topologicalOrder.length + 1)

/-! ## Ready steps and the snapshot -/

/-- One step of `_compute_ready_steps`. -/
def isReady (graph : PlanGraph) (state : AgentState) (stepId : String) :
    Except SchedulerError Bool := do
  let current ← stepAt state stepId
  if current.status ≠ .pending ∨ stepId ∈ state.activeStepIds then return false
  else allStatus state (· = .succeeded) (graph.dependenciesOf stepId)

/-- The loop of `_compute_ready_steps`. -/
def readyAmong (plan : Plan) (graph : PlanGraph) (state : AgentState) :
    List String → Except SchedulerError (List PlanStep)
  | [] => .ok []
  | id :: ids =>
    match plan.steps.find? fun step => step.stepId = id with
    | none => .error (.key id)
    | some step => do
      let ready ← isReady graph state id
      let rest ← readyAmong plan graph state ids
      return if ready then step :: rest else rest

def computeReadySteps (plan : Plan) (graph : PlanGraph) (state : AgentState) :
    Except SchedulerError (List PlanStep) :=
  if state.status ≠ .running then .ok [] else readyAmong plan graph state graph.topologicalOrder

/-- `_running_steps`, the ids. -/
def runningSteps (plan : Plan) (state : AgentState) : Except SchedulerError (List String) :=
  withStatus state (· = .running) (plan.steps.map PlanStep.stepId)

/-- `max(0, max_parallelism - running)`. -/
def availableSlots (maxParallelism : ℤ) (running : List String) : ℤ :=
  max 0 (maxParallelism - running.length)

def buildSnapshot (plan : Plan) (graph : PlanGraph) (state : AgentState) (maxParallelism : ℤ) :
    Except SchedulerError SchedulerSnapshot := do
  let ready ← computeReadySteps plan graph state
  let readyStepIds := ready.map PlanStep.stepId
  let runningPlanSteps ← runningSteps plan state
  let slots := availableSlots maxParallelism runningPlanSteps
  let ordered := graph.topologicalOrder
  let runningStepIds ← withStatus state (· = .running) ordered
  let pendingStepIds ← withStatus state (· = .pending) ordered
  let blockedStepIds ← withStatus state (· = .blocked) ordered
  let terminalStepIds ← withStatus state (fun status => decide status.IsTerminal) ordered
  let isComplete ← allStatus state (· = .succeeded) ordered
  return {
    readyStepIds := readyStepIds
    runningStepIds := runningStepIds
    pendingStepIds := pendingStepIds
    blockedStepIds := blockedStepIds
    terminalStepIds := terminalStepIds
    isComplete := isComplete
    isWaiting := !runningStepIds.isEmpty && readyStepIds.isEmpty
    hasUnresolvedPending :=
      !pendingStepIds.isEmpty && runningStepIds.isEmpty && readyStepIds.isEmpty
    claimableStepIds := readyStepIds.take slots.toNat
    maxParallelism := maxParallelism
    availableSlots := slots }

/-! ## Entry points -/

def prepare (plan : Plan) (occurredAt : DateTime) (maxParallelism : ℤ) (clock : StepClock) :
    SchedulerOp SchedulerSnapshot := do
  Op.lift (validateUtc occurredAt)
  Op.lift (validateParallelism maxParallelism)
  let graph ← prepareLocked plan clock
  let w ← get
  propagateBlocked graph (effectiveTime occurredAt w.state)
  let w ← get
  Op.lift (buildSnapshot plan graph w.state maxParallelism)

/-- `evaluate`; `now` is the reading of `datetime.now(UTC)`. -/
def evaluate (plan : Plan) (maxParallelism : ℤ) (now : DateTime) :
    SchedulerOp SchedulerSnapshot := do
  Op.lift (validateParallelism maxParallelism)
  let graph ← Op.lift ((PlanGraphValidator.validate plan).mapError .plan)
  let w ← get
  Op.lift (validatePlanStateAlignment plan w)
  propagateBlocked graph (effectiveTime now w.state)
  let w ← get
  Op.lift (buildSnapshot plan graph w.state maxParallelism)

/-- `BudgetUsage(step_starts=n)`. -/
def stepStarts (n : ℕ) : BudgetUsage := BudgetUsage.single .stepStarts n (by decide)

def settleEarly (env : ClaimEnv) (reservation : Option BudgetReservation) (claims : List StepClaim) :
    SchedulerOp Unit :=
  match reservation with
  | none => pure ()
  | some r =>
    if claims ≠ [] then
      discard (onLedger (BudgetLedger.commit r (some (stepStarts claims.length)) env.reading))
    else discard (onLedger (BudgetLedger.release r env.reading))

/-- The second check of a candidate, before any `STARTED`. -/
def precheck (plan : Plan) (step : PlanStep) : SchedulerOp Unit := do
  let w ← get
  let current ← Op.lift (stepAt w.state step.stepId)
  Op.lift (raiseIf (current.status ≠ .pending ∨ step.stepId ∈ w.state.activeStepIds)
    (.claim plan.planId plan.version step.stepId current.status.value))

def claimStep (plan : Plan) (effectiveAt : DateTime) (env : ClaimEnv)
    (reservation : Option BudgetReservation) (claims : List StepClaim) (step : PlanStep) :
    SchedulerOp StepClaim := do
  let w ← get
  let claimAt := effectiveTime effectiveAt w.state
  let outcome ← Op.attempt (emit ⟨.started, step.stepId, claimAt, none, none⟩)
  match outcome with
  | .error _ => do
    settleEarly env reservation claims
    let w ← get
    let current := match w.state.steps.get? step.stepId with
      | some step => step.status.value
      | none => "MISSING"
    if claims ≠ [] then
      Op.raise (.partialClaim plan.planId plan.version (claims.map StepClaim.stepId) step.stepId
        current)
    else Op.raise (.claim plan.planId plan.version step.stepId current)
  | .ok () => do
    let w ← get
    let claimed ← Op.lift (stepAt w.state step.stepId)
    if claimed.status ≠ .running ∨ step.stepId ∉ w.state.activeStepIds then do
      settleEarly env reservation claims
      Op.raise (.partialClaim plan.planId plan.version (claims.map StepClaim.stepId) step.stepId
        claimed.status.value)
    else Op.lift (StepClaim.make plan step (claimed.startedAt.getD claimAt))

/-- The `for` loop over the candidates. -/
def claimLoop (plan : Plan) (effectiveAt : DateTime) (env : ClaimEnv)
    (reservation : Option BudgetReservation) :
    List PlanStep → List StepClaim → SchedulerOp (List StepClaim)
  | [], claims => pure claims
  | step :: rest, claims => do
    let claim ← claimStep plan effectiveAt env reservation claims step
    claimLoop plan effectiveAt env reservation rest (claims ++ [claim])

/-- The reservation of a claim, then whatever the other users of the ledger do. -/
def reserveStarts (env : ClaimEnv) (candidates : List PlanStep) :
    SchedulerOp (Option BudgetReservation) :=
  if env.useLedger then do
    let r ← onLedger (BudgetLedger.reserve (stepStarts candidates.length) "step_start" none none
      env.uuid env.createdAt env.reading)
    modify fun w => { w with ledger := env.others w.ledger }
    return some r
  else pure none

/-- The settlement of a claim that went through. -/
def settle (env : ClaimEnv) (reservation : Option BudgetReservation) (claims : List StepClaim) :
    SchedulerOp Unit :=
  match reservation with
  | none => pure ()
  | some r =>
    discard (onLedger (BudgetLedger.commit r (some (stepStarts claims.length)) env.reading))

/-- The part of `_claim_ready_entered` that works on the chosen candidates. -/
def claimCandidates (plan : Plan) (effectiveAt : DateTime) (env : ClaimEnv)
    (candidates : List PlanStep) : SchedulerOp (List StepClaim) := do
  let reservation ← reserveStarts env candidates
  candidates.forM (precheck plan)
  let claims ← claimLoop plan effectiveAt env reservation candidates []
  settle env reservation claims
  return claims

def claimReadyEntered (plan : Plan) (maxParallelism : ℤ) (occurredAt : DateTime) (env : ClaimEnv) :
    SchedulerOp (List StepClaim) := do
  let graph ← prepareLocked plan env.clock
  let w ← get
  let effectiveAt := effectiveTime occurredAt w.state
  propagateBlocked graph effectiveAt
  let w ← get
  let running ← Op.lift (runningSteps plan w.state)
  let ready ← Op.lift (computeReadySteps plan graph w.state)
  claimCandidates plan effectiveAt env
    (ready.take (availableSlots maxParallelism running).toNat)

def exitClaim : SchedulerOp Unit := do
  let w ← get
  Op.lift (raiseIf (w.gate.claimInProgress ≤ 0) .gateExit)
  set { w with gate := { w.gate with claimInProgress := w.gate.claimInProgress - 1 } }

def claimReady (plan : Plan) (maxParallelism : ℤ) (occurredAt : DateTime) (env : ClaimEnv) :
    SchedulerOp (List StepClaim) := do
  Op.lift (validateParallelism maxParallelism)
  Op.lift (validateUtc occurredAt)
  let w ← get
  match w.gate.state with
  | .closed => Op.raise .gateClosed
  | .open => do
    set w.enterClaim
    Op.ensure (claimReadyEntered plan maxParallelism occurredAt env) exitClaim
  | _ => return []

/-- `claim_next`: no ledger is passed on. -/
def claimNext (plan : Plan) (occurredAt : DateTime) (env : ClaimEnv) :
    SchedulerOp (Option StepClaim) := do
  let claims ← claimReady plan 1 occurredAt { env with useLedger := false }
  return claims.head?

end SerialScheduler

end LocalAgent.Runtime
