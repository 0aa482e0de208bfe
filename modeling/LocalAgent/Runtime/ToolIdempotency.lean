import LocalAgent.Runtime.RunControl

/-!
# LocalAgent.Runtime.ToolIdempotency — `core/runtime/tool_idempotency.py`

The durable row of a tool invocation.  Every operation is one transaction that first looks for the
current lease of the run; an exception rolls it back.  `reconcile` and `reconcile_durable_record` are
two transactions with a question to the provider between them, so each is modelled as its take-over
and as what follows the answer.

* `DurableToolInvocationService.prepare`, `start`, `committed`, `unknown`, …: the operations.
* `Edge`: the moves of an invocation's state.
-/

namespace LocalAgent.Runtime

/-! ## The row -/

inductive ToolInvocationState where
  | prepared | started | committed | unknown | notCommitted
  deriving DecidableEq

inductive ProviderReconciliationResult where
  | committed | notCommitted | stillPending | unknown
  deriving DecidableEq

def canonicalJsonDigest (value : Json) : String :=
  Sha256.hexdigest (Json.ensureAscii value.canonical)

/-- `safe_key_digest` of a text. -/
def safeKeyDigest (value : String) : String := Sha256.hexdigest value

/-- `ToolInvocation`, with what its `__post_init__` checks of the texts used here. -/
structure ToolInvocation where
  invocationId : String
  toolName : String
  argumentsDigest : String
  idempotencyKey : Option String
  resourceKey : Option String
  invocationId_text : Text.isBlank invocationId = false
  toolName_text : Text.isBlank toolName = false
  idempotencyKey_text : ∀ key ∈ idempotencyKey, Text.isBlank key = false
  resourceKey_text : ∀ key ∈ resourceKey, Text.isBlank key = false

namespace ToolInvocation

theorem none_text : ∀ key ∈ (none : Option String), Text.isBlank key = false := nofun

variable (invocation : ToolInvocation)

/-- The digest of the idempotency key, or of the invocation's id without one. -/
def idempotencyDigest : String :=
  safeKeyDigest (invocation.idempotencyKey.getD invocation.invocationId)

/-- `tool_invocation_binding_digest`. -/
def bindingDigest : String :=
  canonicalJsonDigest (.obj [("invocation_id", .str invocation.invocationId),
    ("tool_name", .str invocation.toolName), ("arguments_digest", .str invocation.argumentsDigest),
    ("idempotency_key_digest", .ofOption (invocation.idempotencyKey.map safeKeyDigest)),
    ("resource_key_digest", .ofOption (invocation.resourceKey.map safeKeyDigest))])

end ToolInvocation

/-- `runtime_tool_invocations`. -/
structure DurableToolInvocationRow where
  invocationId : String
  runId : String
  stepId : String
  toolName : String
  argumentsDigest : Option String
  invocationBindingDigest : String
  idempotencyKeyDigest : String
  resourceKeyDigest : Option String
  ownerId : String
  fencingToken : ℕ
  approvalId : Option String
  executionClaimId : Option String
  state : ToolInvocationState
  providerOperationId : Option String
  committedResult : Option Json
  committedResultDigest : Option String
  uncertaintyReason : Option String
  startedAt : Option ℤ
  committedAt : Option ℤ
  unknownAt : Option ℤ
  reconciledAt : Option ℤ
  reconcileAttemptCount : ℕ
  lastReconcileAt : Option ℤ
  lastSafeErrorCode : Option String
  nextReconcileAt : Option ℤ
  manualRequired : Bool
  version : ℕ

/-- The row a `prepare` adds, with the database's defaults. -/
def DurableToolInvocationRow.blank (invocationId runId stepId toolName : String)
    (argumentsDigest : Option String) (invocationBindingDigest idempotencyKeyDigest : String)
    (resourceKeyDigest : Option String) (ownerId : String) (fencingToken : ℕ)
    (approvalId executionClaimId : Option String) : DurableToolInvocationRow :=
  ⟨invocationId, runId, stepId, toolName, argumentsDigest, invocationBindingDigest,
    idempotencyKeyDigest, resourceKeyDigest, ownerId, fencingToken, approvalId, executionClaimId,
    .prepared, none, none, none, none, none, none, none, none, 0, none, none, none, false, 1⟩

inductive ToolInvocationError where
  | ownershipLost (message : String)
  | value (message : String)
  | type (message : String)
  /-- a constraint of the database -/
  | persistence
  /-- raised by the loop, budget or memory repository, or by the provider -/
  | external
  deriving DecidableEq

abbrev InvocationTable := Dict String DurableToolInvocationRow

/-- `a or b` for optional texts. -/
def orText (a b : Option String) : Option String :=
  match a with
  | some text => if text = "" then b else some text
  | none => b

/-! ## The operations -/

/-- The lease an operation is called with, the control rows it finds, the database time and the
clock of the process. -/
structure ToolTransaction where
  lease : RunLease
  controls : Dict String RunControlRow
  now : ℤ
  utcNow : ℤ

namespace DurableToolInvocationService

variable (tx : ToolTransaction) (rows : InvocationTable)

def lockCurrentLease : Except ToolInvocationError Unit :=
  raiseIf (¬ (tx.controls.get? tx.lease.runId).any (·.current tx.now tx.lease))
    (.ownershipLost "Tool side-effect mutation 的 Run fencing 已失效")

def lockedRow (invocationId : String) : Except ToolInvocationError DurableToolInvocationRow :=
  match rows.get? invocationId with
  | some row => .ok row
  | none => .error (.value "Tool invocation 不存在")

/-- The owner and the token of the row are those of the lease. -/
def owned (row : DurableToolInvocationRow) : Bool :=
  row.ownerId = tx.lease.ownerId ∧ row.fencingToken = tx.lease.fencingToken

def assertOwner (row : DurableToolInvocationRow) : Except ToolInvocationError Unit :=
  raiseIf (row.runId ≠ tx.lease.runId ∨ owned tx row = false)
    (.ownershipLost "Tool invocation 不属于 current fenced executor")

def assertOwnerRun (row : DurableToolInvocationRow) : Except ToolInvocationError Unit :=
  raiseIf (row.runId ≠ tx.lease.runId) (.ownershipLost "Tool invocation 不属于 current Run")

/-- The row goes to the owner and the token of the lease, with a new version if it changes. -/
def takeOwnership (row : DurableToolInvocationRow) : DurableToolInvocationRow :=
  if owned tx row then row
  else
    { row with
      ownerId := tx.lease.ownerId
      fencingToken := tx.lease.fencingToken
      version := row.version + 1 }

def write (invocationId : String) (row : DurableToolInvocationRow) :
    DurableToolInvocationRow × InvocationTable :=
  (row, rows.set invocationId row)

def requireColumn (value : Option String) (length : ℕ) : Except ToolInvocationError Unit :=
  raiseIf (value.any (length < ·.length)) .persistence

/-- `_committed_result_payload` of what the caller handed in, converted or refused. -/
def committedResultPayload (result : Except ToolInvocationError (Option Json)) :
    Except ToolInvocationError (Option (Json × String)) := do
  return (← result).map fun payload => (payload, canonicalJsonDigest payload)

/-- `_set_result_fields`, when there is a payload. -/
def setResultFields (row : DurableToolInvocationRow) :
    Option (Json × String) → DurableToolInvocationRow
  | none => row
  | some (payload, digest) =>
    { row with committedResult := some payload, committedResultDigest := some digest }

def assertExistingResult (row : DurableToolInvocationRow) :
    Option (Json × String) → Except ToolInvocationError Unit
  | none => .ok ()
  | some (payload, digest) =>
    raiseIf (row.committedResultDigest ≠ some digest ∨
        row.committedResult.map Json.canonical ≠ some payload.canonical)
      (.value "COMMITTED invocation result binding conflict")

/-- What `prepare` is called with. -/
structure PrepareRequest where
  stepId : String
  invocation : ToolInvocation
  toolName : String
  invocationBindingDigest : Option String
  approvalId : Option String
  executionClaimId : Option String

def assertIdentity (row : DurableToolInvocationRow) (request : PrepareRequest) (binding : String)
    (allowNewExecutionClaim : Bool) : Except ToolInvocationError Unit := do
  raiseIf (row.runId ≠ tx.lease.runId ∨ row.stepId ≠ request.stepId ∨
      row.toolName ≠ request.toolName ∨ row.invocationBindingDigest ≠ binding ∨
      row.idempotencyKeyDigest ≠ request.invocation.idempotencyDigest ∨
      row.approvalId ≠ request.approvalId ∨
      (row.executionClaimId ≠ request.executionClaimId ∧
        ¬ (allowNewExecutionClaim ∧ row.executionClaimId = none ∧ request.executionClaimId ≠ none)))
    (.value "Tool invocation immutable binding conflict")
  raiseIf (∃ digest ∈ row.argumentsDigest, digest ≠ request.invocation.argumentsDigest)
    (.value "Tool invocation arguments digest is invalid")

def insertRow (request : PrepareRequest) (binding : String) :
    Except ToolInvocationError (DurableToolInvocationRow × InvocationTable) := do
  let row := DurableToolInvocationRow.blank request.invocation.invocationId tx.lease.runId
    request.stepId request.toolName (some request.invocation.argumentsDigest) binding
    request.invocation.idempotencyDigest (request.invocation.resourceKey.map safeKeyDigest)
    tx.lease.ownerId tx.lease.fencingToken request.approvalId request.executionClaimId
  [some row.invocationId, some row.runId, some row.stepId, some row.toolName, some row.ownerId,
    row.approvalId, row.executionClaimId].forM (requireColumn · 255)
  [row.argumentsDigest, some row.invocationBindingDigest].forM (requireColumn · 64)
  -- `uq_runtime_tool_invocation_idempotency`
  raiseIf (∃ other ∈ rows.values, other.runId = row.runId ∧ other.toolName = row.toolName ∧
    other.idempotencyKeyDigest = row.idempotencyKeyDigest) .persistence
  return write rows request.invocation.invocationId row

def prepareAgain (request : PrepareRequest) (binding : String) (row : DurableToolInvocationRow) :
    Except ToolInvocationError (DurableToolInvocationRow × InvocationTable) := do
  let bindsExecutionClaim := decide (row.state = .prepared ∧ row.executionClaimId = none ∧
    request.executionClaimId ≠ none)
  assertIdentity tx row request binding bindsExecutionClaim
  if row.state = .prepared then
    requireColumn request.executionClaimId 255
    let bound :=
      if bindsExecutionClaim then
        { row with executionClaimId := request.executionClaimId, version := row.version + 1 }
      else row
    return write rows request.invocation.invocationId (takeOwnership tx bound)
  else return (row, rows)

/-- `prepare`; `loopLock` and `loopBind` are the calls of the loop repository. -/
def prepare (request : PrepareRequest) (loopLock loopBind : Except ToolInvocationError Unit) :
    Except ToolInvocationError (DurableToolInvocationRow × InvocationTable) := do
  let binding := (orText request.invocationBindingDigest none).getD request.invocation.bindingDigest
  lockCurrentLease tx
  loopLock
  let result ←
    match rows.get? request.invocation.invocationId with
    | none => insertRow tx rows request binding
    | some row => prepareAgain tx rows request binding row
  loopBind
  return result

/-- `start`; `admission` is the budget and memory repositories' part of the transaction. -/
def start (invocationId : String) (admission : Except ToolInvocationError Unit) :
    Except ToolInvocationError (DurableToolInvocationRow × InvocationTable) := do
  lockCurrentLease tx
  admission
  let row ← lockedRow rows invocationId
  assertOwner tx row
  raiseIf (row.state ≠ .prepared) (.value "STARTED 只能由 PREPARED 获取一次")
  return write rows invocationId
    { row with state := .started, startedAt := some tx.utcNow, version := row.version + 1 }

/-- `committed`; `settlement` is the budget repository's part. -/
def committed (invocationId : String) (providerOperationId : Option String)
    (result : Except ToolInvocationError (Option Json))
    (settlement : Except ToolInvocationError Unit) :
    Except ToolInvocationError (DurableToolInvocationRow × InvocationTable) := do
  let payload ← committedResultPayload result
  lockCurrentLease tx
  settlement
  let row ← lockedRow rows invocationId
  assertOwner tx row
  if row.state = .committed then
    assertExistingResult row payload
    return (row, rows)
  else
    raiseIf (row.state ≠ .started) (.value "COMMITTED 只能从 STARTED 收口")
    requireColumn providerOperationId 255
    return write rows invocationId (setResultFields
      { row with
        state := .committed
        providerOperationId := orText providerOperationId row.providerOperationId
        committedAt := some tx.utcNow
        reconciledAt := none
        version := row.version + 1 } payload)

def unknown (invocationId reason : String) (providerOperationId : Option String)
    (settlement : Except ToolInvocationError Unit) :
    Except ToolInvocationError (DurableToolInvocationRow × InvocationTable) := do
  raiseIf (reason = "" ∨ 128 < reason.length)
    (.value "uncertainty reason 必须是 bounded safe text")
  lockCurrentLease tx
  settlement
  let row ← lockedRow rows invocationId
  assertOwner tx row
  if row.state = .committed ∨ row.state = .unknown then
    return (row, rows)
  else
    raiseIf (row.state ≠ .started) (.value "UNKNOWN 只能由 STARTED 产生")
    requireColumn providerOperationId 255
    return write rows invocationId
      { row with
        state := .unknown
        providerOperationId := orText providerOperationId row.providerOperationId
        uncertaintyReason := some reason
        unknownAt := some tx.utcNow
        version := row.version + 1 }

def recordReconciliationUnknown (invocationId errorCode : String)
    (maxAttempts initialSeconds maxSeconds : ℤ) :
    Except ToolInvocationError (DurableToolInvocationRow × InvocationTable) := do
  raiseIf (errorCode = "" ∨ 128 < errorCode.length ∨ maxAttempts ≤ 0 ∨ initialSeconds ≤ 0 ∨
      maxSeconds < initialSeconds)
    (.value "invalid reconciliation backoff configuration")
  lockCurrentLease tx
  let row ← lockedRow rows invocationId
  assertOwner tx row
  if row.state ≠ .started ∧ row.state ≠ .unknown then
    return (row, rows)
  else
    let attempts := row.reconcileAttemptCount + 1
    let manualRequired := decide (maxAttempts ≤ attempts)
    let delay := min maxSeconds (initialSeconds * 2 ^ (attempts - 1))
    return write rows invocationId
      { row with
        state := .unknown
        unknownAt := if row.state = .started then some tx.utcNow else row.unknownAt
        reconcileAttemptCount := attempts
        lastReconcileAt := some tx.utcNow
        lastSafeErrorCode := some errorCode
        manualRequired := manualRequired
        nextReconcileAt := if manualRequired then none else some (tx.utcNow + delay * 1000000)
        version := row.version + 1 }

def assertReconciliationIdentity (row : DurableToolInvocationRow) (invocation : ToolInvocation)
    (binding : String) : Except ToolInvocationError Unit :=
  raiseIf (row.runId ≠ tx.lease.runId ∨ row.toolName ≠ invocation.toolName ∨
      row.invocationBindingDigest ≠ binding ∨
      row.argumentsDigest ≠ some invocation.argumentsDigest ∨
      row.idempotencyKeyDigest ≠ invocation.idempotencyDigest ∨
      row.resourceKeyDigest ≠ invocation.resourceKey.map safeKeyDigest)
    (.value "Tool invocation immutable binding conflict")

/-- `_takeover_for_reconciliation`, the first transaction of `reconcile`. -/
def takeoverForReconciliation (invocation : ToolInvocation)
    (invocationBindingDigest : Option String) :
    Except ToolInvocationError (DurableToolInvocationRow × InvocationTable) := do
  let binding := (orText invocationBindingDigest none).getD invocation.bindingDigest
  lockCurrentLease tx
  let row ← lockedRow rows invocation.invocationId
  assertReconciliationIdentity tx row invocation binding
  if row.state = .started then
    return write rows invocation.invocationId
      { row with
        ownerId := tx.lease.ownerId
        fencingToken := tx.lease.fencingToken
        state := .unknown
        uncertaintyReason := some "RECOVERY_AFTER_STARTED"
        unknownAt := some tx.utcNow
        version := row.version + 1 }
  else if row.state = .unknown then
    return write rows invocation.invocationId (takeOwnership tx row)
  else return (row, rows)

/-- What the provider of `reconcile` gave. -/
inductive ReconciliationLookup where
  /-- one of the exceptions `reconcile` catches -/
  | failed
  /-- any other exception, also of `_normalize_reconciliation_evidence` -/
  | raised
  /-- an outcome, with a result only next to `COMMITTED` -/
  | answered (outcome : ProviderReconciliationResult)
    (result : Except ToolInvocationError (Option Json))

def settled (row : DurableToolInvocationRow) (isCommitted : Bool)
    (payload : Option (Json × String)) : DurableToolInvocationRow :=
  let reconciled :=
    { row with
      state := if isCommitted then .committed else .notCommitted
      reconciledAt := some tx.utcNow
      version := row.version + 1 }
  if isCommitted then
    setResultFields
      { reconciled with committedAt := some (row.committedAt.getD tx.utcNow) } payload
  else reconciled

/-- The payload of a provider's result, which only `COMMITTED` carries. -/
def reconciledPayload (outcome : ProviderReconciliationResult)
    (result : Except ToolInvocationError (Option Json)) :
    Except ToolInvocationError (Option (Json × String)) :=
  if outcome = .committed then committedResultPayload result else .ok none

/-- `reconcile` after its take-over has returned an `UNKNOWN` row. -/
def reconcile (invocation : ToolInvocation) (invocationBindingDigest : Option String)
    (lookup : ReconciliationLookup) :
    Except ToolInvocationError (DurableToolInvocationRow × InvocationTable) :=
  match lookup with
  | .failed =>
    recordReconciliationUnknown tx rows invocation.invocationId "RECONCILIATION_LOOKUP_FAILED" 5 5 60
  | .raised => .error .external
  | .answered outcome result =>
    if outcome = .stillPending ∨ outcome = .unknown then
      recordReconciliationUnknown tx rows invocation.invocationId "RECONCILIATION_STILL_UNKNOWN"
        5 5 60
    else do
      let binding := (orText invocationBindingDigest none).getD invocation.bindingDigest
      lockCurrentLease tx
      let row ← lockedRow rows invocation.invocationId
      assertOwner tx row
      assertReconciliationIdentity tx row invocation binding
      if row.state = .committed ∨ row.state = .notCommitted then return (row, rows)
      else
        raiseIf (row.state ≠ .unknown) (.value "reconciliation requires UNKNOWN")
        let payload ← reconciledPayload outcome result
        return write rows invocation.invocationId (settled tx row (outcome = .committed) payload)

/-- The first transaction of `reconcile_durable_record`. -/
def takeoverForReconciliationRecord (invocationId : String) :
    Except ToolInvocationError (DurableToolInvocationRow × InvocationTable) := do
  let found ← lockedRow rows invocationId
  raiseIf (found.runId ≠ tx.lease.runId) (.value "Tool invocation Run binding conflict")
  lockCurrentLease tx
  let row ← lockedRow rows invocationId
  assertOwnerRun tx row
  let recovered :=
    if row.state = .started then
      { row with
        state := .unknown
        uncertaintyReason := some "RECOVERY_AFTER_STARTED"
        unknownAt := some tx.utcNow
        version := row.version + 1 }
    else row
  if recovered.state = .unknown then return write rows invocationId (takeOwnership tx recovered)
  else return (row, rows)

/-- What the provider of `reconcile_durable_record` gave. -/
inductive DurableLookup where
  /-- it has no `reconcile_durable` -/
  | unsupported
  | raised
  | answered (outcome : ProviderReconciliationResult)
    (result : Except ToolInvocationError (Option Json))

/-- `reconcile_durable_record` after its take-over has returned a row that is not settled;
`hasResult` is whether that row had a result. -/
def reconcileDurableRecord (invocationId : String) (hasResult : Bool) (lookup : DurableLookup) :
    Except ToolInvocationError (DurableToolInvocationRow × InvocationTable) :=
  match lookup with
  | .unsupported =>
    recordReconciliationUnknown tx rows invocationId "PROVIDER_RECONCILIATION_UNSUPPORTED" 1 5 60
  | .raised =>
    recordReconciliationUnknown tx rows invocationId "RECONCILIATION_LOOKUP_FAILED" 5 5 60
  | .answered outcome result =>
    if outcome = .stillPending ∨ outcome = .unknown then
      recordReconciliationUnknown tx rows invocationId "RECONCILIATION_STILL_UNKNOWN" 5 5 60
    else
      match committedResultPayload result with
      | .error _ =>
        recordReconciliationUnknown tx rows invocationId "RECONCILIATION_RESULT_INVALID" 5 5 60
      | .ok payload =>
        if outcome = .committed ∧ hasResult = false ∧ payload = none then
          recordReconciliationUnknown tx rows invocationId "RECONCILIATION_RESULT_MISSING" 5 5 60
        else do
          lockCurrentLease tx
          let row ← lockedRow rows invocationId
          assertOwner tx row
          if row.state = .committed ∨ row.state = .notCommitted then return (row, rows)
          else
            raiseIf (row.state ≠ .unknown) (.value "reconciliation requires UNKNOWN")
            return write rows invocationId
              { settled tx row (outcome = .committed) payload with
                manualRequired := false
                nextReconcileAt := none
                lastSafeErrorCode := none }

/-- `ManualResolutionAudit`, as far as the resolution reads it. -/
structure ManualResolutionAudit where
  actorId : String
  tenantId : String
  reason : String
  deriving DecidableEq

/-- `_resolve_unknown`: `resolve_unknown_committed` and `resolve_unknown_not_committed`. -/
def resolveUnknown (invocationId : String) (isCommitted : Bool)
    (providerOperationId : Option String) (result : Except ToolInvocationError (Option Json))
    (manualAudit : Option ManualResolutionAudit) :
    Except ToolInvocationError (DurableToolInvocationRow × InvocationTable) := do
  let payload ← committedResultPayload result
  lockCurrentLease tx
  let row ← lockedRow rows invocationId
  if row.state = .committed ∨ row.state = .notCommitted then return (row, rows)
  else
    raiseIf (row.state ≠ .unknown) (.value "manual resolution requires UNKNOWN")
    let taken := takeOwnership tx row
    assertOwner tx taken
    raiseIf (∃ audit ∈ manualAudit, audit.reason = "" ∨ taken.runId ≠ tx.lease.runId)
      (.value "manual audit binding invalid")
    requireColumn providerOperationId 255
    return write rows invocationId
      { settled tx taken isCommitted payload with
        providerOperationId := orText providerOperationId taken.providerOperationId
        manualRequired := false
        nextReconcileAt := none
        lastSafeErrorCode := some "MANUAL_RESOLUTION" }

/-! ## What an operation that returned has done -/

def edge : ToolInvocationState → ToolInvocationState → Bool
  | .prepared, .started | .started, .committed | .started, .unknown | .unknown, .committed
  | .unknown, .notCommitted => true
  | _, _ => false

/-- A row goes on: its state stays or moves along an edge, and any change raises the version. -/
structure RowMove (row row' : DurableToolInvocationRow) : Prop where
  state : row'.state = row.state ∨ edge row.state row'.state = true
  version : row' = row ∨ row.version < row'.version

/-- The lease is current and at most one row was added or went on. -/
structure Accepted (rows' : InvocationTable) : Prop where
  current : ∃ control, tx.controls.get? tx.lease.runId = some control ∧
    control.current tx.now tx.lease = true
  rows : rows' = rows ∨ ∃ invocationId row', rows' = rows.set invocationId row' ∧
    (rows.get? invocationId = none ∧ row'.state = .prepared ∨
      ∃ row, rows.get? invocationId = some row ∧ RowMove row row')

variable {tx rows} {row : DurableToolInvocationRow} {rows' : InvocationTable}

theorem lockCurrentLease_ok (h : lockCurrentLease tx = .ok ()) :
    ∃ control, tx.controls.get? tx.lease.runId = some control ∧
      control.current tx.now tx.lease = true := by
  rw [lockCurrentLease, raiseIf_ok, not_not] at h
  exact (Option.any_eq_true _ _).mp h

variable {invocationId : String} {request : PrepareRequest} {providerOperationId : Option String}

@[simp] theorem lockedRow_eq_ok :
    lockedRow rows invocationId = .ok row ↔ rows.get? invocationId = some row := by
  unfold lockedRow
  split <;> simp_all

theorem Accepted.keep (h : lockCurrentLease tx = .ok ()) : Accepted tx rows rows :=
  ⟨lockCurrentLease_ok h, .inl rfl⟩

variable {row' : DurableToolInvocationRow} {binding : String}
  {result : Except ToolInvocationError (Option Json)} {settlement : Except ToolInvocationError Unit}
  {invocationBindingDigest : Option String} {isCommitted : Bool}

theorem Accepted.move (h : lockCurrentLease tx = .ok ()) (hrow : rows.get? invocationId = some row)
    (hmove : RowMove row row') : Accepted tx rows (rows.set invocationId row') :=
  ⟨lockCurrentLease_ok h, .inr ⟨invocationId, row', rfl, .inr ⟨row, hrow, hmove⟩⟩⟩

theorem RowMove.of_edge
    (hstate : edge row.state row'.state = true) (hversion : row.version < row'.version) :
    RowMove row row' :=
  ⟨.inr hstate, .inr hversion⟩

theorem takeOwnership_move (tx : ToolTransaction) (row : DurableToolInvocationRow) :
    (takeOwnership tx row).state = row.state ∧
      (takeOwnership tx row = row ∨ row.version < (takeOwnership tx row).version) := by
  unfold takeOwnership
  split_ifs
  · exact ⟨rfl, .inl rfl⟩
  · exact ⟨rfl, .inr (Nat.lt_succ_self _)⟩

theorem insertRow_ok (hlease : lockCurrentLease tx = .ok ())
    (hrow : rows.get? request.invocation.invocationId = none)
    (h : insertRow tx rows request binding = .ok (row, rows')) : Accepted tx rows rows' := by
  simp only [insertRow, seq_eq_ok] at h
  cases h.2.2.2
  exact ⟨lockCurrentLease_ok hlease, .inr ⟨_, _, rfl, .inl ⟨hrow, rfl⟩⟩⟩

/-- A second preparation, accepted under the current lease only. -/
theorem prepareAgain_ok {found : DurableToolInvocationRow} (hlease : lockCurrentLease tx = .ok ())
    (hrow : rows.get? request.invocation.invocationId = some found)
    (h : prepareAgain tx rows request binding found = .ok (row, rows')) :
    Accepted tx rows rows' := by
  simp only [prepareAgain, seq_eq_ok] at h
  obtain ⟨-, h⟩ := h
  split at h
  · rw [seq_eq_ok] at h
    cases h.2
    refine .move hlease hrow ?_
    -- first a new claim may be bound, then the row may change hands
    split_ifs
    · obtain ⟨hstate, hversion⟩ := takeOwnership_move tx
        { found with executionClaimId := request.executionClaimId, version := found.version + 1 }
      refine ⟨.inl hstate, .inr ?_⟩
      rcases hversion with heq | hlt
      · rw [heq]
        exact Nat.lt_succ_self _
      · exact (Nat.lt_succ_self _).trans hlt
    · obtain ⟨hstate, hversion⟩ := takeOwnership_move tx found
      exact ⟨.inl hstate, hversion⟩
  · cases h
    exact .keep hlease

theorem prepare_ok {loopLock loopBind : Except ToolInvocationError Unit}
    (h : prepare tx rows request loopLock loopBind = .ok (row, rows')) : Accepted tx rows rows' := by
  simp only [prepare, seq_eq_ok] at h
  obtain ⟨hlease, -, h⟩ := h
  split at h
  · rename_i hrow
    obtain ⟨result, hinsert, h⟩ := bind_eq_ok.mp h
    rw [seq_eq_ok] at h
    cases h.2
    exact insertRow_ok hlease hrow hinsert
  · rename_i found hrow
    obtain ⟨_, hagain, h⟩ := bind_eq_ok.mp h
    rw [seq_eq_ok] at h
    cases h.2
    exact prepareAgain_ok hlease hrow hagain

theorem start_ok {admission : Except ToolInvocationError Unit}
    (h : start tx rows invocationId admission = .ok (row, rows')) : Accepted tx rows rows' := by
  simp only [start, seq_eq_ok] at h
  obtain ⟨hlease, -, h⟩ := h
  obtain ⟨_, hrow, h⟩ := bind_eq_ok.mp h
  simp only [seq_eq_ok, raiseIf_ok, not_not] at h
  obtain ⟨-, hstate, h⟩ := h
  cases h
  exact .move hlease (lockedRow_eq_ok.mp hrow)
    (.of_edge (by rw [hstate]; rfl) (Nat.lt_succ_self _))

theorem setResultFields_eq (row : DurableToolInvocationRow) (payload : Option (Json × String)) :
    (setResultFields row payload).state = row.state ∧
      (setResultFields row payload).version = row.version := by
  cases payload <;> exact ⟨rfl, rfl⟩

/-- A committed result, new or replayed. -/
theorem committed_ok
    (h : committed tx rows invocationId providerOperationId result settlement = .ok (row, rows')) :
    Accepted tx rows rows' := by
  obtain ⟨payload, -, h⟩ := bind_eq_ok.mp h
  simp only [seq_eq_ok] at h
  obtain ⟨hlease, -, h⟩ := h
  obtain ⟨_, hrow, h⟩ := bind_eq_ok.mp h
  rw [seq_eq_ok] at h
  obtain ⟨-, h⟩ := h
  split_ifs at h with hdone
  · rw [seq_eq_ok] at h
    cases h.2
    exact .keep hlease
  · simp only [seq_eq_ok, raiseIf_ok, not_not] at h
    obtain ⟨hstate, -, h⟩ := h
    cases h
    refine .move hlease (lockedRow_eq_ok.mp hrow) (.of_edge ?_ ?_)
    · rw [(setResultFields_eq _ payload).1, hstate]
      rfl
    · rw [(setResultFields_eq _ payload).2]
      exact Nat.lt_succ_self _

theorem unknown_ok {reason : String}
    (h : unknown tx rows invocationId reason providerOperationId settlement = .ok (row, rows')) :
    Accepted tx rows rows' := by
  simp only [unknown, seq_eq_ok] at h
  obtain ⟨-, hlease, -, h⟩ := h
  obtain ⟨_, hrow, h⟩ := bind_eq_ok.mp h
  rw [seq_eq_ok] at h
  obtain ⟨-, h⟩ := h
  split_ifs at h with hdone
  · cases h
    exact .keep hlease
  · simp only [seq_eq_ok, raiseIf_ok, not_not] at h
    obtain ⟨hstate, -, h⟩ := h
    cases h
    exact .move hlease (lockedRow_eq_ok.mp hrow)
      (.of_edge (by rw [hstate]; rfl) (Nat.lt_succ_self _))

theorem recordReconciliationUnknown_ok {errorCode : String}
    {maxAttempts initialSeconds maxSeconds : ℤ}
    (h : recordReconciliationUnknown tx rows invocationId errorCode maxAttempts initialSeconds
      maxSeconds = .ok (row, rows')) : Accepted tx rows rows' := by
  simp only [recordReconciliationUnknown, seq_eq_ok] at h
  obtain ⟨-, hlease, h⟩ := h
  obtain ⟨found, hrow, h⟩ := bind_eq_ok.mp h
  rw [seq_eq_ok] at h
  obtain ⟨-, h⟩ := h
  by_cases hother : found.state ≠ .started ∧ found.state ≠ .unknown
  · rw [if_pos hother] at h
    cases h
    exact .keep hlease
  · rw [if_neg hother] at h
    cases h
    refine .move hlease (lockedRow_eq_ok.mp hrow) ⟨?_, .inr (Nat.lt_succ_self _)⟩
    by_cases hstarted : found.state = .started
    · exact .inr (by rw [hstarted]; rfl)
    · have hunknown : found.state = .unknown := by
        by_contra hne
        exact hother ⟨hstarted, hne⟩
      exact .inl hunknown.symm

/-- A takeover marks a started row unknown, takes over an unknown one and leaves a settled one. -/
theorem takeoverForReconciliation_ok {invocation : ToolInvocation}
    (h : takeoverForReconciliation tx rows invocation invocationBindingDigest = .ok (row, rows')) :
    Accepted tx rows rows' := by
  simp only [takeoverForReconciliation, seq_eq_ok] at h
  obtain ⟨hlease, h⟩ := h
  obtain ⟨found, hrow, h⟩ := bind_eq_ok.mp h
  rw [seq_eq_ok] at h
  obtain ⟨-, h⟩ := h
  split_ifs at h with hstarted hunknown
  · cases h
    exact .move hlease (lockedRow_eq_ok.mp hrow)
      (.of_edge (by rw [hstarted]; rfl) (Nat.lt_succ_self _))
  · cases h
    obtain ⟨hstate, hversion⟩ := takeOwnership_move tx found
    exact .move hlease (lockedRow_eq_ok.mp hrow) ⟨.inl hstate, hversion⟩
  · cases h
    exact .keep hlease

theorem settled_eq (tx : ToolTransaction) (row : DurableToolInvocationRow) (isCommitted : Bool)
    (payload : Option (Json × String)) :
    (settled tx row isCommitted payload).state =
        (if isCommitted then .committed else .notCommitted) ∧
      (settled tx row isCommitted payload).version = row.version + 1 := by
  cases isCommitted with
  | true => exact setResultFields_eq _ payload
  | false => exact ⟨rfl, rfl⟩

theorem settled_edge (tx : ToolTransaction) {payload : Option (Json × String)}
    (hstate : row.state = .unknown) :
    edge row.state (settled tx row isCommitted payload).state = true := by
  rw [(settled_eq tx row isCommitted payload).1, hstate]
  cases isCommitted <;> rfl

/-- A reconciliation, whatever the lookup at the provider gives. -/
theorem reconcile_ok {invocation : ToolInvocation} {lookup : ReconciliationLookup}
    (h : reconcile tx rows invocation invocationBindingDigest lookup = .ok (row, rows')) :
    Accepted tx rows rows' := by
  cases lookup with
  | failed => exact recordReconciliationUnknown_ok h
  | raised => cases h
  | answered =>
    simp only [reconcile] at h
    split_ifs at h with hpending
    · exact recordReconciliationUnknown_ok h
    · rw [seq_eq_ok] at h
      obtain ⟨hlease, h⟩ := h
      obtain ⟨found, hrow, h⟩ := bind_eq_ok.mp h
      simp only [seq_eq_ok] at h
      obtain ⟨-, -, h⟩ := h
      split at h
      · cases h
        exact .keep hlease
      · simp only [seq_eq_ok, raiseIf_ok, not_not] at h
        obtain ⟨hstate, h⟩ := h
        obtain ⟨payload, -, h⟩ := bind_eq_ok.mp h
        cases h
        refine .move hlease (lockedRow_eq_ok.mp hrow) (.of_edge (settled_edge tx hstate) ?_)
        rw [(settled_eq tx found _ payload).2]
        exact Nat.lt_succ_self _

theorem takeoverForReconciliationRecord_ok
    (h : takeoverForReconciliationRecord tx rows invocationId = .ok (row, rows')) :
    Accepted tx rows rows' := by
  obtain ⟨_, -, h⟩ := bind_eq_ok.mp h
  simp only [seq_eq_ok] at h
  obtain ⟨-, hlease, h⟩ := h
  obtain ⟨found, hrow, h⟩ := bind_eq_ok.mp h
  rw [seq_eq_ok] at h
  obtain ⟨-, h⟩ := h
  by_cases hstarted : found.state = .started
  · simp only [hstarted, if_true] at h
    cases h
    refine .move hlease (lockedRow_eq_ok.mp hrow) (.of_edge ?_ ?_)
    · rw [(takeOwnership_move tx _).1, hstarted]
      rfl
    · rcases (takeOwnership_move tx { found with
        state := .unknown
        uncertaintyReason := some "RECOVERY_AFTER_STARTED"
        unknownAt := some tx.utcNow
        version := found.version + 1 }).2 with heq | hlt
      · rw [heq]
        exact Nat.lt_succ_self _
      · exact (Nat.lt_succ_self _).trans hlt
  · simp only [hstarted, if_false] at h
    split_ifs at h with hunknown
    · cases h
      obtain ⟨hstate, hversion⟩ := takeOwnership_move tx found
      exact .move hlease (lockedRow_eq_ok.mp hrow) ⟨.inl hstate, hversion⟩
    · cases h
      exact .keep hlease

theorem reconcileDurableRecord_ok {hasResult : Bool} {lookup : DurableLookup}
    (h : reconcileDurableRecord tx rows invocationId hasResult lookup = .ok (row, rows')) :
    Accepted tx rows rows' := by
  cases lookup with
  | unsupported | raised => exact recordReconciliationUnknown_ok h
  | answered =>
    simp only [reconcileDurableRecord] at h
    split_ifs at h with hpending
    · exact recordReconciliationUnknown_ok h
    · split at h
      · exact recordReconciliationUnknown_ok h
      · split_ifs at h with hmissing
        · exact recordReconciliationUnknown_ok h
        · rw [seq_eq_ok] at h
          obtain ⟨hlease, h⟩ := h
          obtain ⟨found, hrow, h⟩ := bind_eq_ok.mp h
          rw [seq_eq_ok] at h
          obtain ⟨-, h⟩ := h
          split at h
          · cases h
            exact .keep hlease
          · simp only [seq_eq_ok, raiseIf_ok, not_not] at h
            obtain ⟨hstate, h⟩ := h
            cases h
            refine .move hlease (lockedRow_eq_ok.mp hrow) (.of_edge (settled_edge tx hstate) ?_)
            show _ < (settled tx found _ _).version
            rw [(settled_eq tx found _ _).2]
            exact Nat.lt_succ_self _

theorem resolveUnknown_ok {manualAudit : Option ManualResolutionAudit}
    (h : resolveUnknown tx rows invocationId isCommitted providerOperationId result manualAudit =
      .ok (row, rows')) : Accepted tx rows rows' := by
  obtain ⟨payload, -, h⟩ := bind_eq_ok.mp h
  rw [seq_eq_ok] at h
  obtain ⟨hlease, h⟩ := h
  obtain ⟨found, hrow, h⟩ := bind_eq_ok.mp h
  split_ifs at h with hdone
  · cases h
    exact .keep hlease
  · simp only [seq_eq_ok, raiseIf_ok, not_not] at h
    obtain ⟨hstate, -, -, -, h⟩ := h
    cases h
    obtain ⟨htaken, hversion⟩ := takeOwnership_move tx found
    refine .move hlease (lockedRow_eq_ok.mp hrow) (.of_edge ?_ ?_)
    · have hedge : edge (takeOwnership tx found).state
          (settled tx (takeOwnership tx found) isCommitted payload).state = true :=
        settled_edge tx (htaken.trans hstate)
      rwa [htaken] at hedge
    · show _ < (settled tx (takeOwnership tx found) isCommitted payload).version
      rw [(settled_eq tx _ isCommitted payload).2]
      rcases hversion with heq | hlt
      · rw [heq]
        exact Nat.lt_succ_self _
      · exact hlt.trans (Nat.lt_succ_self _)

end DurableToolInvocationService

end LocalAgent.Runtime
