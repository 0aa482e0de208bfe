import LocalAgent.Runtime.Budget
import LocalAgent.Runtime.RunControl

/-!
# LocalAgent.Runtime.LoopBudget — the durable budget of an agent loop run

`core/persistence/repositories/execution.py` (reserve, settle, recovery settlement) and
`agent_delegation.py` (allocation and release).  The source keeps operations and allocations in one
dictionary, allocations under `delegation:` keys; the ids of operations begin with `model:`,
`formation:` or `tool:`, so here they are two dictionaries.  An amount that is missing from a
sparse dictionary is 0.

* `reserveBudgetOperation`, `settleBudgetOperation`, `settleRecoveryBudget`: the budget operations.
* `createChild`, `commitChildResult`: the envelope of a child frame, from its grant to its release.
-/

namespace LocalAgent.Runtime

/-! ## The rows -/

/-- A sparse dictionary of amounts. -/
abbrev Amounts := Dimension → ℤ

inductive LoopExecutionPolicy where
  | v1 | v2
  deriving DecidableEq

inductive LoopFrameRole where
  | root | child
  deriving DecidableEq

inductive BudgetOperationKind where
  | model | toolAttempt
  deriving DecidableEq

inductive BudgetOperationState where
  | reserved | settled
  deriving DecidableEq

inductive AllocationState where
  | reserved | released
  deriving DecidableEq

/-- An entry of `budget_operations` that is not an allocation. -/
structure BudgetOperation where
  kind : BudgetOperationKind
  state : BudgetOperationState
  reserved : Amounts
  actual : Option Amounts
  source : Option String
  generation : ℕ
  delegationId : Option String
  deriving DecidableEq

/-- A `DELEGATION_ALLOCATION` of `budget_operations`. -/
structure DelegationAllocation where
  state : AllocationState
  reserved : Amounts
  unspent : Amounts
  consumed : Amounts
  overrun : Bool
  released : Amounts
  generation : ℕ
  deriving DecidableEq

/-- The budget columns of `runtime_run_executions`. -/
structure RootBudget where
  executionPolicy : LoopExecutionPolicy
  budgetTotals : Dimension → Option ℤ
  budgetReserved : Amounts
  budgetConsumed : Amounts
  operations : Dict String BudgetOperation
  allocations : Dict String DelegationAllocation
  executionVersion : ℕ
  lastCommittedFencingToken : ℕ

inductive LoopError where
  | value (message : String)
  | runtime (message : String)
  | key (name : String)
  /-- a constraint of the database -/
  | persistence
  /-- an exception of the checks around the budget -/
  | refused (message : String)
  deriving DecidableEq

/-- Raise what a check raised. -/
def LoopError.ofCheck : Option String → Except LoopError Unit
  | none => .ok ()
  | some message => .error (.refused message)

def loopBudgetInconsistent : LoopError := .runtime "LOOP_BUDGET_INCONSISTENT"

/-! ## Amounts -/

def budgetUsage : Option Amounts → Except LoopError Amounts
  | none => .ok 0
  | some values =>
    match Dimension.all.find? (values · < 0) with
    | some d => .error (.value (d.value ++ " 必须是非负整数"))
    | none => .ok values

def budgetAdd (left right : Amounts) (sign : ℤ) : Except LoopError Amounts := do
  raiseIf (∃ d, right d ≠ 0 ∧ left d + sign * right d < 0) loopBudgetInconsistent
  return fun d => left d + sign * right d

/-- The first dimension that is asked for and over its limit. -/
def exceededDimension (root : RootBudget) (values consumed reserved : Amounts) : Option Dimension :=
  Dimension.all.find? fun d =>
    values d ≠ 0 ∧ ∃ limit ∈ root.budgetTotals d, limit < consumed d + reserved d

/-- `LOOP_BUDGET_EXHAUSTED` for that dimension. -/
def raiseExceeded : Option Dimension → Except LoopError Unit
  | some d => .error (.runtime ("LOOP_BUDGET_EXHAUSTED:" ++ d.value))
  | none => .ok ()

namespace RootBudget

variable (root : RootBudget) (lease : RunLease)

/-- The root row after a write. -/
def touch : RootBudget :=
  { root with
    executionVersion := root.executionVersion + 1
    lastCommittedFencingToken := lease.fencingToken }

/-! ## Reserve -/

def takeFromEnvelope (delegationId : String) (allocation : DelegationAllocation)
    (values : Amounts) : Except LoopError (Dict String DelegationAllocation) := do
  raiseIf (allocation.state ≠ .reserved ∨ allocation.overrun = true ∨
    ∃ d, allocation.unspent d < values d) (.runtime "DELEGATION_BUDGET_EXHAUSTED")
  let unspent ← budgetAdd allocation.unspent values (-1)
  return root.allocations.set delegationId { allocation with unspent := unspent }

/-- The envelopes and the reserved amounts of the root with the new reservation. -/
def reservation (delegationId : Option String) (values : Amounts) :
    Except LoopError (Dict String DelegationAllocation × Amounts) :=
  match delegationId.bind fun id => (root.allocations.get? id).map fun a => (id, a) with
  | some (id, allocation) => do
    let allocations ← root.takeFromEnvelope id allocation values
    return (allocations, root.budgetReserved)
  | none => do
    let reserved ← budgetAdd root.budgetReserved values 1
    return (root.allocations, reserved)

/-- `reserve_budget_operation_in_transaction` for a frame with this delegation. -/
def reserveBudgetOperation (delegationId : Option String) (operationId : String)
    (usage : Option Amounts) (kind : BudgetOperationKind) (generation : ℕ) :
    Except LoopError RootBudget := do
  let values ← budgetUsage usage
  match root.operations.get? operationId with
  | some stored =>
    raiseIf (stored.reserved ≠ values ∨ stored.kind ≠ kind)
      (.runtime "LOOP_BUDGET_OPERATION_CONFLICT")
    return root
  | none =>
    raiseIf (512 ≤ root.operations.entries.length + root.allocations.entries.length)
      (.runtime "LOOP_BUDGET_OPERATION_LIMIT")
    let (allocations, reserved) ← root.reservation delegationId values
    raiseExceeded (exceededDimension root values root.budgetConsumed reserved)
    return { root with
      operations := root.operations.set operationId
        ⟨kind, .reserved, values, none, none, generation, delegationId⟩
      allocations := allocations
      budgetReserved := reserved }.touch lease

/-! ## Settle -/

/-- What stays unspent in an envelope when an operation of it is settled. -/
def unspentAfter (allocation : DelegationAllocation) (stored values : Amounts) : Amounts :=
  fun d => max 0 (allocation.unspent d + stored d - values d)

def settlement (stored : BudgetOperation) (values reserved : Amounts) :
    Except LoopError (Dict String DelegationAllocation × Amounts) :=
  match stored.delegationId with
  | none => .ok (root.allocations, reserved)
  | some id => do
    let allocation ← orRaise (root.allocations.get? id) (.key ("delegation:" ++ id))
    let balance ← budgetAdd allocation.unspent stored.reserved 1
    let unspent := unspentAfter allocation stored.reserved values
    let reserved ← budgetAdd reserved (unspent - allocation.unspent) 1
    let consumed ← budgetAdd allocation.consumed values 1
    return (root.allocations.set id { allocation with
      unspent := unspent
      consumed := consumed
      overrun := allocation.overrun || decide (∃ d, balance d < values d) }, reserved)

/-- The amounts a settlement charges. -/
def settledValues (stored : BudgetOperation) (usage : Option Amounts) : Except LoopError Amounts :=
  if usage = none then .ok stored.reserved else budgetUsage usage

/-- The limit check of a settlement; v2 runs make none. -/
def checkLimits (values consumed reserved : Amounts) : Except LoopError Unit :=
  if root.executionPolicy ≠ .v2 then raiseExceeded (exceededDimension root values consumed reserved)
  else .ok ()

/-- `settle_budget_operation_in_transaction`. -/
def settleBudgetOperation (operationId : String) (usage : Option Amounts) (source : String) :
    Except LoopError RootBudget := do
  let stored ← orRaise (root.operations.get? operationId) (.runtime "LOOP_BUDGET_OPERATION_MISSING")
  let values ← settledValues stored usage
  if stored.state = .settled then
    raiseIf (stored.actual ≠ some values) (.runtime "LOOP_BUDGET_SETTLEMENT_CONFLICT")
    return root
  else
    let reserved ← budgetAdd root.budgetReserved stored.reserved (-1)
    let consumed ← budgetAdd root.budgetConsumed values 1
    let (allocations, reserved) ← root.settlement stored values reserved
    root.checkLimits values consumed reserved
    return { root with
      operations := root.operations.set operationId
        { stored with state := .settled, actual := some values, source := some source }
      allocations := allocations
      budgetReserved := reserved
      budgetConsumed := consumed }.touch lease

/-! ## Recovery -/

def recoverEnvelope (operation : BudgetOperation) :
    Except LoopError (Dict String DelegationAllocation) :=
  match operation.delegationId with
  | none => .ok root.allocations
  | some id => do
    let envelope ← orRaise (root.allocations.get? id) (.key ("delegation:" ++ id))
    let consumed ← budgetAdd envelope.consumed operation.reserved 1
    return root.allocations.set id { envelope with consumed := consumed }

/-- One round of the loop of `_settle_recovery_budget`. -/
def recoverOperation (operationId : String) : Except LoopError RootBudget :=
  match root.operations.get? operationId with
  | none => .ok root
  | some operation =>
    if operation.state = .reserved then do
      let reserved ← budgetAdd root.budgetReserved operation.reserved (-1)
      let consumed ← budgetAdd root.budgetConsumed operation.reserved 1
      let allocations ← root.recoverEnvelope operation
      return { root with
        operations := root.operations.set operationId { operation with
          state := .settled
          actual := some operation.reserved
          source := some "RECOVERY_CONSERVATIVE" }
        allocations := allocations
        budgetReserved := reserved
        budgetConsumed := consumed }
    else .ok root

def settleRecoveryBudget : Except LoopError RootBudget := do
  let settled ← root.operations.keys.foldlM recoverOperation root
  let changed := root.operations.values.any (·.state = .reserved)
  return if changed then settled.touch lease else settled

/-! ## Delegations -/

/-- The limits of the target's `LoopPolicyV2` that an allocation and the child frame read. -/
structure TargetLimits where
  maxIterations : ℕ
  totalTokens : ℕ
  maxModelCalls : ℕ
  maxToolCalls : ℕ
  costUnits : ℕ
  maxRetries : ℕ

/-- What the root has left in a dimension with a limit. -/
def available (d : Dimension) : Option ℤ :=
  (root.budgetTotals d).map fun limit => max 0 (limit - root.budgetConsumed d - root.budgetReserved d)

/-- What the root has left in a dimension that must have a limit. -/
def availableOf (d : Dimension) : Except LoopError ℤ :=
  orRaise (root.available d) (.key d.value)

def allocationAmounts (limits : TargetLimits) (total models tools costs : ℤ) : Amounts
  | .modelCalls => models
  | .remoteModelCalls => min models ((root.available .remoteModelCalls).getD models)
  | .toolCalls => tools
  | .inputTokens => min (total * 3 / 4) ((root.available .inputTokens).getD total)
  | .outputTokens => min (total - total * 3 / 4) ((root.available .outputTokens).getD total)
  | .totalTokens => total
  | .costUnits => costs
  | .retries => min limits.maxRetries ((root.available .retries).getD 2)
  | _ => 0

/-- The amounts `create_child` grants. -/
def allocation (limits : TargetLimits) : Except LoopError Amounts := do
  let total := min ((← root.availableOf .totalTokens) / 2) limits.totalTokens
  let models := min 8 (min ((← root.availableOf .modelCalls) / 2) limits.maxModelCalls)
  let tools := min 4 (min ((← root.availableOf .toolCalls) / 2) limits.maxToolCalls)
  let costs := min ((← root.availableOf .costUnits) / 2) limits.costUnits
  raiseIf (min total (min models (min tools costs)) ≤ 0) (.runtime "DELEGATION_BUDGET_EXHAUSTED")
  return root.allocationAmounts limits total models tools costs

/-- The envelope `create_child` adds. -/
def grant (delegationId : String) (limits : TargetLimits) (generation : ℕ) :
    Except LoopError RootBudget := do
  let granted ← root.allocation limits
  let reserved ← budgetAdd root.budgetReserved granted 1
  return { root with
    allocations := root.allocations.set delegationId
      ⟨.reserved, granted, granted, 0, false, 0, generation⟩
    budgetReserved := reserved }.touch lease

/-- The release of an envelope by `commit_child_result`. -/
def releaseEnvelope (delegationId : String) : Except LoopError RootBudget := do
  let envelope ← orRaise (root.allocations.get? delegationId) (.key ("delegation:" ++ delegationId))
  raiseIf (∃ operation ∈ root.operations.values, operation.delegationId = some delegationId ∧
    operation.state = .reserved) (.runtime "DELEGATION_BUDGET_INFLIGHT")
  let reserved ← budgetAdd root.budgetReserved envelope.unspent (-1)
  return { root with
    allocations := root.allocations.set delegationId
      { envelope with state := .released, released := envelope.unspent, unspent := 0 }
    budgetReserved := reserved }.touch lease

end RootBudget

/-! ## Transactions -/

/-- What the budget reads of `runtime_loop_frames`. -/
structure BudgetFrame where
  frameRole : LoopFrameRole
  delegationId : Option String
  deriving DecidableEq

/-- What the budget reads of `runtime_agent_delegations`. -/
structure BudgetDelegation where
  childFrameId : String
  hasResult : Bool
  deriving DecidableEq

structure LoopBudgetTables where
  root : RootBudget
  frames : Dict String BudgetFrame
  delegations : Dict String BudgetDelegation

namespace LoopBudgetTables

variable (tables : LoopBudgetTables) (lease : RunLease)

/-- The frame of a call; `lock` is what `_lock_loop` raises (lease, status, generation, version,
cancellation, deadline). -/
def lockLoop (lock : Option String) (frameId : String) : Except LoopError BudgetFrame := do
  LoopError.ofCheck lock
  orRaise (tables.frames.get? frameId) (.refused "NoResultFound")

/-- `reserve_budget_operation`. -/
def reserve (lock : Option String) (operationId : String) (usage : Option Amounts)
    (kind : BudgetOperationKind) (generation : ℕ) (frameId : String) :
    Except LoopError LoopBudgetTables := do
  let frame ← tables.lockLoop lock frameId
  let root ← tables.root.reserveBudgetOperation lease frame.delegationId operationId usage kind
    generation
  return { tables with root := root }

/-- `settle_budget_operation`. -/
def settle (lock : Option String) (operationId : String) (usage : Option Amounts) (source : String)
    (frameId : String) : Except LoopError LoopBudgetTables := do
  let _ ← tables.lockLoop lock frameId
  let root ← tables.root.settleBudgetOperation lease operationId usage source
  return { tables with root := root }

/-- `create_child`; `lock` also covers what `accept_batch` and the pins of the target check. -/
def createChild (lock : Option String) (frameId delegationId childId : String)
    (limits : RootBudget.TargetLimits) (generation : ℕ) : Except LoopError LoopBudgetTables := do
  let frame ← tables.lockLoop lock frameId
  raiseIf (frame.frameRole ≠ .root ∨ tables.root.executionPolicy ≠ .v2)
    (.runtime "DELEGATION_DEPTH_LIMIT")
  let root ← tables.root.grant lease delegationId limits generation
  -- the primary keys of the two inserted rows
  raiseIf (childId ∈ tables.frames.keys ∨ delegationId ∈ tables.delegations.keys) .persistence
  return { root := root
           frames := tables.frames.set childId ⟨.child, some delegationId⟩
           delegations := tables.delegations.set delegationId ⟨childId, false⟩ }

/-- `commit_child_result`; `checks` is what its checks of the child's rows raise. -/
def commitChildResult (lock : Option String) (frameId : String) (checks : Option String) :
    Except LoopError LoopBudgetTables := do
  let child ← tables.lockLoop lock frameId
  let delegationId ← orRaise child.delegationId (.refused "AttributeError")
  let delegation ← orRaise (tables.delegations.get? delegationId) (.refused "AttributeError")
  raiseIf (child.frameRole ≠ .child ∨ delegation.childFrameId ≠ frameId)
    (.runtime "DELEGATION_SOURCE_INVALID")
  if delegation.hasResult then return tables
  else
    LoopError.ofCheck checks
    let root ← tables.root.releaseEnvelope lease delegationId
    return { tables with
      root := root
      delegations := tables.delegations.set delegationId { delegation with hasResult := true } }

/-- The budget part of `prepare_recovery`. -/
def recover (lock : Option String) : Except LoopError LoopBudgetTables := do
  LoopError.ofCheck lock
  let root ← tables.root.settleRecoveryBudget lease
  return { tables with root := root }

end LoopBudgetTables

end LocalAgent.Runtime
