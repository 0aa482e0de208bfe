import LocalAgent.Runtime.RunControl

/-!
# LocalAgent.Runtime.DurableApproval — `core/runtime/durable_approval.py`

The approvals of tool calls and the claims of their execution, as rows of the database.  Every
operation is one transaction, serialised for a run; an exception rolls it back.

* `create`, `decide`, `invalidateRun`, `claimExecution`, `resumeExecutionClaim`: the operations.
* `Moved`: what one step can change, from which every invariant follows.
* `approvals_sound`: a row leaves `PENDING` once, an execution is claimed once, under the current
  fence, for an approved row; and when exactly a stored request comes back as it was created.
-/

namespace LocalAgent.Runtime

open Text (NonBlank)

/-! ## The domain of `core/runtime/approval.py` -/

inductive ApprovalDecisionValue where
  | approve | reject
  deriving DecidableEq

inductive ApprovalStatus where
  | pending | approved | rejected
  | invalidatedCancelled | invalidatedTimeout | invalidatedRunTerminal
  | executionClaimed
  deriving DecidableEq

inductive ApprovalCommandErrorCode where
  | unknownApproval | unknownRun | runInactive | invalidated | invalidState | bindingMismatch
  | duplicateInvocation | alreadyDecided | decisionConflict | controllerClosed | journalUnavailable
  | claimNotApproved | claimAlreadyExecuted | claimBindingMismatch | stateTransitionFailed
  | publicationFailed
  deriving DecidableEq

/-- What its `__post_init__` checks of a field is in the field's type. -/
structure ApprovalRequest where
  approvalId : NonBlank
  runId : NonBlank
  stepId : NonBlank
  invocationId : NonBlank
  toolName : NonBlank
  invocationIdentityDigest : Sha256.Digest
  argumentsDigest : Sha256.Digest
  idempotencyKeyDigest : Option Sha256.Digest
  resourceKeyDigest : Option Sha256.Digest
  riskLevel : Option NonBlank
  riskFacts : List String
  invocationBindingDigest : Sha256.Digest
  requestedAt : DateTime.Utc
  deriving DecidableEq

structure ApprovalCommandResult where
  runId : String
  approvalId : String
  effectiveStatus : ApprovalStatus
  idempotent : Bool := false
  safeErrorCode : Option ApprovalCommandErrorCode := none
  decidedAt : Option DateTime.Utc := none
  invocationBindingDigest : Option String := none
  executionClaimId : Option String := none
  deriving DecidableEq

/-! ## The tables -/

inductive ApprovalRowState where
  | pending | approved | rejected | invalidated
  deriving DecidableEq

inductive InvalidationReason where
  | cancelled | deadlineExceeded | runTerminal
  deriving DecidableEq

def InvalidationReason.ofText (text : String) : Option InvalidationReason :=
  if text = "CANCELLED" then some .cancelled
  else if text = "DEADLINE_EXCEEDED" then some .deadlineExceeded
  else if text = "RUN_TERMINAL" then some .runTerminal
  else none

/-- `runtime_tool_approvals`. -/
structure DurableApprovalRow where
  approvalId : NonBlank
  runId : NonBlank
  stepId : NonBlank
  invocationId : NonBlank
  toolName : NonBlank
  invocationIdentityDigest : Sha256.Digest
  argumentsDigest : Sha256.Digest
  idempotencyKeyDigest : Option Sha256.Digest
  resourceKeyDigest : Option Sha256.Digest
  invocationBindingDigest : Sha256.Digest
  riskLevel : Option NonBlank
  riskFacts : String
  state : ApprovalRowState
  decision : Option ApprovalDecisionValue
  actorIdDigest : Option String
  invalidatedReason : Option InvalidationReason
  createdAt : DateTime.Utc
  decidedAt : Option DateTime.Utc
  invalidatedAt : Option DateTime.Utc
  version : ℕ
  deriving DecidableEq

/-- `runtime_tool_execution_claims`, and what is returned of it. -/
structure DurableExecutionClaim where
  claimId : String
  approvalId : String
  runId : String
  invocationBindingDigest : String
  ownerId : String
  fencingToken : ℕ
  createdAt : DateTime.Utc
  deriving DecidableEq

structure ApprovalTables where
  approvals : Dict String DurableApprovalRow
  claims : List DurableExecutionClaim
  controls : Dict String RunControlRow

inductive ApprovalServiceError where
  | ownershipLost (message : String)
  | value (message : String)
  /-- a constraint of the database -/
  | persistence
  deriving DecidableEq

/-! ## Rows and requests -/

namespace DurableApprovalRow

def status (row : DurableApprovalRow) : ApprovalStatus :=
  match row.state with
  | .invalidated =>
    match row.invalidatedReason with
    | some .cancelled => .invalidatedCancelled
    | some .runTerminal => .invalidatedRunTerminal
    | _ => .invalidatedTimeout
  | .pending => .pending
  | .approved => .approved
  | .rejected => .rejected

/-- The row that `create` adds; `now` is the time of the database. -/
def ofRequest (request : ApprovalRequest) (now : DateTime.Utc) : DurableApprovalRow where
  approvalId := request.approvalId
  runId := request.runId
  stepId := request.stepId
  invocationId := request.invocationId
  toolName := request.toolName
  invocationIdentityDigest := request.invocationIdentityDigest
  argumentsDigest := request.argumentsDigest
  idempotencyKeyDigest := request.idempotencyKeyDigest
  resourceKeyDigest := request.resourceKeyDigest
  invocationBindingDigest := request.invocationBindingDigest
  riskLevel := request.riskLevel
  riskFacts := Text.join '|' (request.riskFacts.insertionSort (· ≤ ·))
  state := .pending
  decision := none
  actorIdDigest := none
  invalidatedReason := none
  createdAt := now
  decidedAt := none
  invalidatedAt := none
  version := 1

def request (row : DurableApprovalRow) : ApprovalRequest where
  approvalId := row.approvalId
  runId := row.runId
  stepId := row.stepId
  invocationId := row.invocationId
  toolName := row.toolName
  invocationIdentityDigest := row.invocationIdentityDigest
  argumentsDigest := row.argumentsDigest
  idempotencyKeyDigest := row.idempotencyKeyDigest
  resourceKeyDigest := row.resourceKeyDigest
  riskLevel := row.riskLevel
  riskFacts := Text.splitNonempty '|' row.riskFacts
  invocationBindingDigest := row.invocationBindingDigest
  requestedAt := row.createdAt

/-- `_invalidate_locked`. -/
def invalidate (reason : InvalidationReason) (now : DateTime.Utc) (row : DurableApprovalRow) :
    DurableApprovalRow :=
  { row with
    state := .invalidated
    invalidatedReason := some reason
    invalidatedAt := some now
    version := row.version + 1 }

def decided (decision : ApprovalDecisionValue) (actorIdDigest : Option String)
    (now : DateTime.Utc) (row : DurableApprovalRow) : DurableApprovalRow :=
  { row with
    state := if decision = .approve then .approved else .rejected
    decision := some decision
    actorIdDigest := actorIdDigest
    decidedAt := some now
    version := row.version + 1 }

end DurableApprovalRow

def computeActorIdDigest : Option String → Except ApprovalServiceError (Option String)
  | none => .ok none
  | some actorId => do
    raiseIf (Text.isBlank actorId) (.value "key must be a non-empty string")
    return some (Sha256.hexdigest actorId)

namespace DurableApprovalService

variable (tables : ApprovalTables)

/-! ## The operations -/

def fits (request : ApprovalRequest) : Bool :=
  [request.approvalId, request.runId, request.stepId, request.invocationId,
      request.toolName].all (·.val.length ≤ 255) &&
    request.riskLevel.all (·.val.length ≤ 64)

def put (approvalId : String) (row : DurableApprovalRow) : ApprovalTables :=
  { tables with approvals := tables.approvals.set approvalId row }

def findInvocation (runId invocationId : NonBlank) : Option DurableApprovalRow :=
  tables.approvals.values.find? fun row => row.runId = runId ∧ row.invocationId = invocationId

def create (request : ApprovalRequest) (now : DateTime.Utc) :
    Except ApprovalServiceError (ApprovalRequest × ApprovalTables) :=
  match findInvocation tables request.runId request.invocationId with
  | some existing => do
    raiseIf (existing.invocationBindingDigest ≠ request.invocationBindingDigest)
      (.value "同一 invocation 的 approval binding 冲突")
    return (existing.request, tables)
  | none => do
    raiseIf (fits request = false ∨ (tables.approvals.get? request.approvalId).isSome)
      .persistence
    return (request, put tables request.approvalId (.ofRequest request now))

def get (approvalId : String) : Option ApprovalRequest :=
  (tables.approvals.get? approvalId).map (·.request)

def status (approvalId : String) : Option ApprovalStatus :=
  (tables.approvals.get? approvalId).map (·.status)

/-- The run may still decide: its control row is active and without a cancel intent. -/
def decidable (runId : String) : Bool :=
  (tables.controls.get? runId).any fun control =>
    control.state = .active ∧ control.cancelCommandId = none

/-- The answer to a decision that has been made. -/
def repeated (runId approvalId : String) (row : DurableApprovalRow)
    (decision : ApprovalDecisionValue) : ApprovalCommandResult :=
  if row.state = .invalidated then
    { runId, approvalId, effectiveStatus := row.status, safeErrorCode := some .invalidated }
  else
    { runId, approvalId
      effectiveStatus := row.status
      idempotent := row.decision = some decision
      safeErrorCode := if row.decision = some decision then none else some .decisionConflict
      decidedAt := row.decidedAt }

def decide (runId approvalId bindingDigest : String) (decision : ApprovalDecisionValue)
    (actorId : Option String) (now : DateTime.Utc) :
    Except ApprovalServiceError (ApprovalCommandResult × ApprovalTables) :=
  match (tables.approvals.get? approvalId).filter (·.runId.val = runId) with
  | none =>
    .ok ({ runId, approvalId, effectiveStatus := .pending,
           safeErrorCode := some .unknownApproval }, tables)
  | some row =>
    if row.invocationBindingDigest.text ≠ bindingDigest then
      .ok ({ runId, approvalId, effectiveStatus := row.status,
             safeErrorCode := some .bindingMismatch }, tables)
    else if row.status ≠ .pending then
      .ok (repeated runId approvalId row decision, tables)
    else if decidable tables runId = false then
      .ok ({ runId, approvalId, effectiveStatus := .invalidatedCancelled,
             safeErrorCode := some .invalidated },
        put tables approvalId (row.invalidate .cancelled now))
    else do
      let actorIdDigest ← computeActorIdDigest actorId
      let decided := row.decided decision actorIdDigest now
      return ({ runId, approvalId, effectiveStatus := decided.status, decidedAt := some now },
        put tables approvalId decided)

def invalidateRun (runId reason : String) (now : DateTime.Utc) :
    Except ApprovalServiceError (List ApprovalCommandResult × ApprovalTables) := do
  let reason ← orRaise (InvalidationReason.ofText reason)
    (.value "invalid approval invalidation reason")
  let invalidated := fun row : DurableApprovalRow =>
    if row.runId.val = runId ∧ row.state = .pending then row.invalidate reason now else row
  let pending := tables.approvals.values.filter fun row =>
    row.runId.val = runId ∧ row.state = .pending
  return (pending.map fun row =>
      { runId, approvalId := row.approvalId, effectiveStatus := (row.invalidate reason now).status },
    { tables with approvals := tables.approvals.mapValues invalidated })

/-- The control row that a lease has to match; `dbNow` is the time of the database. -/
def requireFence (lease : RunLease) (dbNow : ℤ) (message : String) :
    Except ApprovalServiceError Unit :=
  raiseIf ((tables.controls.get? lease.runId).any (·.current dbNow lease) = false)
    (.ownershipLost message)

def findClaim (approvalId : String) : Option DurableExecutionClaim :=
  tables.claims.find? (·.approvalId = approvalId)

def bound (lease : RunLease) (approvalId bindingDigest : String) : Option DurableApprovalRow :=
  (tables.approvals.get? approvalId).filter fun row =>
    row.runId.val = lease.runId ∧ row.invocationBindingDigest.text = bindingDigest

def claimExecution (lease : RunLease) (approvalId bindingDigest claimId : String) (dbNow : ℤ)
    (now : DateTime.Utc) :
    Except ApprovalServiceError (DurableExecutionClaim × ApprovalTables) := do
  requireFence tables lease dbNow "approval execution claim 的 Run fencing 已失效"
  let row ← orRaise (bound tables lease approvalId bindingDigest)
    (.value "approval binding mismatch")
  raiseIf (row.state ≠ .approved) (.value "approval is not approved")
  raiseIf ((findClaim tables approvalId).isSome) (.value "execution claim already exists")
  raiseIf (tables.claims.any (·.claimId = claimId)) .persistence
  let claim : DurableExecutionClaim :=
    ⟨claimId, approvalId, lease.runId, bindingDigest, lease.ownerId, lease.fencingToken, now⟩
  return (claim, { tables with claims := tables.claims ++ [claim] })

def resumeExecutionClaim (lease : RunLease) (approvalId bindingDigest : String) (dbNow : ℤ) :
    Except ApprovalServiceError (DurableExecutionClaim × ApprovalTables) := do
  requireFence tables lease dbNow "approval execution claim resume 的 Run fencing 已失效"
  let found := (bound tables lease approvalId bindingDigest).bind fun row =>
    (findClaim tables approvalId).filter fun claim =>
      row.state = .approved ∧ claim.runId = lease.runId ∧
        claim.invocationBindingDigest = bindingDigest
  let claim ← orRaise found (.value "existing execution claim binding mismatch")
  return (claim, tables)

/-! ## Steps -/

inductive Action where
  | create (request : ApprovalRequest) (now : DateTime.Utc)
  | decide (runId approvalId bindingDigest : String) (decision : ApprovalDecisionValue)
      (actorId : Option String) (now : DateTime.Utc)
  | invalidateRun (runId reason : String) (now : DateTime.Utc)
  | claimExecution (lease : RunLease) (approvalId bindingDigest claimId : String) (dbNow : ℤ)
      (now : DateTime.Utc)
  | resumeExecutionClaim (lease : RunLease) (approvalId bindingDigest : String) (dbNow : ℤ)
  /-- leases and cancel intents change -/
  | control (controls : Dict String RunControlRow)

/-- The tables after a transaction, which an exception rolls back. -/
def commit {α : Type} (x : Except ApprovalServiceError (α × ApprovalTables)) : ApprovalTables :=
  match x with
  | .ok (_, tables') => tables'
  | .error _ => tables

def step : Action → Option ApprovalTables
  | .create request now => some (commit tables (create tables request now))
  | .decide runId approvalId bindingDigest decision actorId now =>
    some (commit tables (decide tables runId approvalId bindingDigest decision actorId now))
  | .invalidateRun runId reason now => some (commit tables (invalidateRun tables runId reason now))
  | .claimExecution lease approvalId bindingDigest claimId dbNow now =>
    some (commit tables (claimExecution tables lease approvalId bindingDigest claimId dbNow now))
  | .resumeExecutionClaim lease approvalId bindingDigest dbNow =>
    some (commit tables (resumeExecutionClaim tables lease approvalId bindingDigest dbNow))
  | .control controls => some { tables with controls := controls }

def start : ApprovalTables := ⟨.empty, [], .empty⟩

/-! ## One step -/

variable {tables} {tables' : ApprovalTables} {row row' : DurableApprovalRow}

/-- The state and the decision of a row agree. -/
def Recorded (row : DurableApprovalRow) : Prop :=
  (row.state = .approved → row.decision = some .approve) ∧
    (row.state = .rejected → row.decision = some .reject)

/-- What a step may do to a row: nothing, or end its waiting. -/
def RowStep (row row' : DurableApprovalRow) : Prop :=
  row' = row ∨
    row.state = .pending ∧ row'.state ≠ .pending ∧ row'.request = row.request ∧ Recorded row'

variable {now : DateTime.Utc} {decision : ApprovalDecisionValue} {bindingDigest : String}

theorem rowStep_invalidate {reason : InvalidationReason}
    (h : row.state = .pending) : RowStep row (row.invalidate reason now) :=
  .inr ⟨h, nofun, rfl, nofun, nofun⟩

theorem rowStep_decided {actorIdDigest : Option String} (h : row.state = .pending) :
    RowStep row (row.decided decision actorIdDigest now) := by
  refine .inr ⟨h, ?_, rfl, ?_⟩
  · cases decision <;> exact nofun
  · cases decision
    · exact ⟨fun _ => rfl, nofun⟩
    · exact ⟨nofun, fun _ => rfl⟩

theorem state_eq_pending_of_status (h : row.status = .pending) : row.state = .pending := by
  unfold DurableApprovalRow.status at h
  split at h
  · split at h <;> exact nomatch h
  · assumption
  all_goals exact nomatch h

/-- Everything one step can do. -/
inductive Moved (tables : ApprovalTables) : Action → ApprovalTables → Prop
  | unchanged (action : Action) : Moved tables action tables
  | created {request : ApprovalRequest} {now : DateTime.Utc}
      (fresh : findInvocation tables request.runId request.invocationId = none)
      (absent : tables.approvals.get? request.approvalId = none) :
      Moved tables (.create request now)
        (put tables request.approvalId (.ofRequest request now))
  | settled (action : Action) {approvals : Dict String DurableApprovalRow}
      (rows : ∀ id, Option.Rel RowStep (tables.approvals.get? id) (approvals.get? id)) :
      Moved tables action { tables with approvals := approvals }
  | claimed {lease : RunLease} {approvalId bindingDigest claimId : String} {dbNow : ℤ}
      {now : DateTime.Utc} {control : RunControlRow} {row : DurableApprovalRow}
      (fence : tables.controls.get? lease.runId = some control)
      (current : control.current dbNow lease = true)
      (found : tables.approvals.get? approvalId = some row)
      (run : row.runId.val = lease.runId)
      (binding : row.invocationBindingDigest.text = bindingDigest)
      (approved : row.state = .approved)
      (first : ∀ claim ∈ tables.claims, claim.approvalId ≠ approvalId) :
      Moved tables (.claimExecution lease approvalId bindingDigest claimId dbNow now)
        { tables with claims := tables.claims ++
          [⟨claimId, approvalId, lease.runId, bindingDigest, lease.ownerId, lease.fencingToken,
            now⟩] }
  | control (controls : Dict String RunControlRow) :
      Moved tables (.control controls) { tables with controls := controls }

variable {action : Action} {id approvalId : String}

/-- One row was rewritten. -/
theorem Moved.of_put
    (hrow : tables.approvals.get? approvalId = some row) (hstep : RowStep row row') :
    Moved tables action (put tables approvalId row') := by
  refine .settled action fun id => ?_
  rw [Dict.get?_set]
  split_ifs with hid
  · rw [hid, hrow]
    exact .some hstep
  · cases tables.approvals.get? id with
    | none => exact .none
    | some => exact .some (.inl rfl)

theorem create_ok {request canonical : ApprovalRequest}
    (h : create tables request now = .ok (canonical, tables')) :
    (∃ existing, findInvocation tables request.runId request.invocationId = some existing ∧
        canonical = existing.request ∧ tables' = tables) ∨
      findInvocation tables request.runId request.invocationId = none ∧
        tables.approvals.get? request.approvalId = none ∧ canonical = request ∧
        tables' = put tables request.approvalId (.ofRequest request now) := by
  unfold create at h
  split at h
  · next existing hfind =>
    obtain ⟨-, hresult⟩ := seq_eq_ok.mp h
    cases hresult
    exact .inl ⟨existing, hfind, rfl, rfl⟩
  · next hfind =>
    obtain ⟨hgood, hresult⟩ := seq_eq_ok.mp h
    cases hresult
    have habsent := (not_or.mp (raiseIf_ok.mp hgood)).2
    exact .inr ⟨hfind, Option.not_isSome_iff_eq_none.mp habsent, rfl, rfl⟩

theorem moved_create {request : ApprovalRequest} :
    Moved tables (.create request now) (commit tables (create tables request now)) := by
  cases hcreate : create tables request now with
  | error => exact .unchanged _
  | ok =>
    rcases create_ok hcreate with ⟨_, -, -, hsame⟩ | ⟨hfind, habsent, -, hput⟩
    · rw [commit, hsame]
      exact .unchanged _
    · rw [commit, hput]
      exact .created hfind habsent

variable {runId claimId : String} {actorId : Option String}
  {approvals : Dict String DurableApprovalRow}

theorem moved_decide : Moved tables action
      (commit tables (decide tables runId approvalId bindingDigest decision actorId now)) := by
  unfold decide
  cases hfind : (tables.approvals.get? approvalId).filter (·.runId.val = runId) with
  | none => exact .unchanged _
  | some row =>
    have hrow : tables.approvals.get? approvalId = some row := (Option.filter_eq_some_iff.mp hfind).1
    dsimp only
    split_ifs with hbinding hstatus hrun
    · exact .unchanged _
    · exact .unchanged _
    · exact .of_put hrow (rowStep_invalidate (state_eq_pending_of_status (not_not.mp hstatus)))
    · cases hactor : computeActorIdDigest actorId with
      | error => exact .unchanged _
      | ok =>
        exact .of_put hrow (rowStep_decided (state_eq_pending_of_status (not_not.mp hstatus)))

/-- A decision without an error code has decided the row. -/
theorem status_of_decide {result : ApprovalCommandResult}
    (h : decide tables runId approvalId bindingDigest decision actorId now = .ok (result, tables'))
    (hcode : result.safeErrorCode = none) :
    ∃ row, tables'.approvals.get? approvalId = some row ∧ row.status = result.effectiveStatus ∧
      (row.status = .approved ∨ row.status = .rejected) := by
  unfold decide at h
  split at h
  · cases h
    cases hcode
  · next row hfind =>
    have hrow : tables.approvals.get? approvalId = some row := (Option.filter_eq_some_iff.mp hfind).1
    split_ifs at h with hbinding hstatus hrun
    · cases h
      cases hcode
    · cases h
      unfold repeated at hcode ⊢
      split_ifs at hcode ⊢ with hstate hsame
      · refine ⟨row, hrow, rfl, ?_⟩
        unfold DurableApprovalRow.status at hstatus ⊢
        cases hkind : row.state with
        | invalidated => exact absurd hkind hstate
        | pending => simp [hkind] at hstatus
        | approved => exact .inl rfl
        | rejected => exact .inr rfl
    · cases h
      cases hcode
    · obtain ⟨actorIdDigest, -, hresult⟩ := bind_eq_ok.mp h
      cases hresult
      refine ⟨row.decided decision actorIdDigest now, ?_, rfl, ?_⟩
      · rw [put, Dict.get?_set, if_pos rfl]
      · cases decision
        · exact .inl rfl
        · exact .inr rfl

theorem moved_invalidateRun {reason : String} :
    Moved tables action (commit tables (invalidateRun tables runId reason now)) := by
  unfold invalidateRun
  cases hreason : InvalidationReason.ofText reason with
  | none => exact .unchanged _
  | some =>
    refine .settled action fun id => ?_
    rw [Dict.get?_mapValues]
    cases hrow : tables.approvals.get? id with
    | none => exact .none
    | some =>
      refine .some ?_
      dsimp only
      split_ifs with hpending
      · exact rowStep_invalidate hpending.2
      · exact .inl rfl

variable {dbNow : ℤ} {lease : RunLease}

theorem moved_claimExecution :
    Moved tables (.claimExecution lease approvalId bindingDigest claimId dbNow now) (commit tables
        (claimExecution tables lease approvalId bindingDigest claimId dbNow now)) := by
  cases hclaim : claimExecution tables lease approvalId bindingDigest claimId dbNow now with
  | error => exact .unchanged _
  | ok =>
    simp only [claimExecution, requireFence, seq_eq_ok, raiseIf_ok] at hclaim
    obtain ⟨hfence, hclaim⟩ := hclaim
    obtain ⟨_, hbound, hclaim⟩ := bind_eq_ok.mp hclaim
    simp only [seq_eq_ok, raiseIf_ok] at hclaim
    obtain ⟨happroved, hfirst, -, hresult⟩ := hclaim
    cases hresult
    obtain ⟨_, hcontrol, hcurrent⟩ :=
      Option.any_eq_true _ _ |>.mp (Bool.eq_true_of_not_eq_false hfence)
    obtain ⟨hrow, hmatch⟩ := Option.filter_eq_some_iff.mp (orRaise_ok.mp hbound)
    have hmatch := of_decide_eq_true hmatch
    refine .claimed hcontrol hcurrent hrow hmatch.1 hmatch.2 (not_not.mp happroved) ?_
    intro claim hmem heq
    refine hfirst (List.find?_isSome.mpr ⟨claim, hmem, decide_eq_true heq⟩)

theorem approved_of_claimExecution {claim : DurableExecutionClaim}
    (h : claimExecution tables lease approvalId bindingDigest claimId dbNow now =
      .ok (claim, tables')) :
    ∃ row, tables.approvals.get? approvalId = some row ∧ row.state = .approved := by
  simp only [claimExecution, seq_eq_ok] at h
  obtain ⟨row, hbound, hrest⟩ := bind_eq_ok.mp h.2
  simp only [seq_eq_ok, raiseIf_ok] at hrest
  exact ⟨row, (Option.filter_eq_some_iff.mp (orRaise_ok.mp hbound)).1, not_not.mp hrest.1⟩

theorem commit_resumeExecutionClaim :
    commit tables (resumeExecutionClaim tables lease approvalId bindingDigest dbNow) = tables := by
  cases hclaim : resumeExecutionClaim tables lease approvalId bindingDigest dbNow with
  | error => rfl
  | ok =>
    simp only [resumeExecutionClaim, requireFence, seq_eq_ok] at hclaim
    obtain ⟨_, -, hresult⟩ := bind_eq_ok.mp hclaim.2
    cases hresult
    rfl

/-- What each transaction does to the rows. -/
theorem moved_of_step (h : step tables action = some tables') : Moved tables action tables' := by
  cases action with
  | create => exact Option.some.inj h ▸ moved_create
  | decide =>
    exact Option.some.inj h ▸ moved_decide
  | invalidateRun => exact Option.some.inj h ▸ moved_invalidateRun
  | claimExecution =>
    exact Option.some.inj h ▸ moved_claimExecution
  | resumeExecutionClaim =>
    rw [← Option.some.inj h, commit_resumeExecutionClaim]
    exact .unchanged _
  | control controls => exact Option.some.inj h ▸ .control controls

/-! ## Runs -/

/-- What holds of the tables in every state. -/
structure Sound (tables : ApprovalTables) : Prop where
  unique : ∀ id id' row row', tables.approvals.get? id = some row →
    tables.approvals.get? id' = some row' → row.runId = row'.runId →
    row.invocationId = row'.invocationId → id = id'
  recorded : ∀ id row, tables.approvals.get? id = some row → Recorded row
  once : (tables.claims.map (·.approvalId)).Nodup
  approved : ∀ claim ∈ tables.claims, ∃ row, tables.approvals.get? claim.approvalId = some row ∧
    row.state = .approved ∧ row.invocationBindingDigest.text = claim.invocationBindingDigest ∧
    row.runId.val = claim.runId

/-- What lasts: a row that is not pending is never written again, and a pending one keeps its
request. -/
structure Lasting (tables tables' : ApprovalTables) : Prop where
  settled : ∀ id row, tables.approvals.get? id = some row → row.state ≠ .pending →
    tables'.approvals.get? id = some row
  kept : ∀ id row, tables.approvals.get? id = some row →
    ∃ row', tables'.approvals.get? id = some row' ∧ row'.request = row.request

theorem Lasting.refl : Lasting tables tables :=
  ⟨fun _ _ h _ => h, fun _ row h => ⟨row, h, rfl⟩⟩

theorem Lasting.trans {tables₁ tables₂ tables₃ : ApprovalTables} (h : Lasting tables₁ tables₂)
    (h' : Lasting tables₂ tables₃) : Lasting tables₁ tables₃ := by
  refine ⟨fun id row hrow hstate => h'.settled id row (h.settled id row hrow hstate) hstate,
    fun id row hrow => ?_⟩
  obtain ⟨row₂, hrow₂, hrequest₂⟩ := h.kept id row hrow
  obtain ⟨row₃, hrow₃, hrequest₃⟩ := h'.kept id row₂ hrow₂
  exact ⟨row₃, hrow₃, hrequest₃.trans hrequest₂⟩

theorem RowStep.request (h : RowStep row row') : row'.request = row.request := by
  rcases h with rfl | h
  · rfl
  · exact h.2.2.1

section

variable (h : ∀ id, Option.Rel RowStep (tables.approvals.get? id) (approvals.get? id))
include h

theorem exists_of_rel (hrow : approvals.get? id = some row') :
    ∃ row, tables.approvals.get? id = some row ∧ RowStep row row' := by
  have hrel := h id
  rw [hrow] at hrel
  cases hget : tables.approvals.get? id with
  | none =>
    rw [hget] at hrel
    cases hrel
  | some row =>
    rw [hget] at hrel
    cases hrel with
    | some hstep => exact ⟨row, rfl, hstep⟩

theorem exists_of_rel_right (hrow : tables.approvals.get? id = some row) :
    ∃ row', approvals.get? id = some row' ∧ RowStep row row' := by
  have hrel := h id
  rw [hrow] at hrel
  cases hget : approvals.get? id with
  | none =>
    rw [hget] at hrel
    cases hrel
  | some row' =>
    rw [hget] at hrel
    cases hrel with
    | some hstep => exact ⟨row', rfl, hstep⟩

end

/-- Rows are never lost, and what they say of the past stays. -/
theorem Moved.lasting (h : Moved tables action tables') : Lasting tables tables' := by
  cases h with
  | unchanged => exact .refl
  | claimed | control => exact ⟨fun _ _ h _ => h, fun _ row h => ⟨row, h, rfl⟩⟩
  | @created request now fresh absent =>
    have hget : ∀ id row, tables.approvals.get? id = some row →
        (tables.approvals.set request.approvalId (.ofRequest request now)).get? id = some row := by
      intro id row hrow
      rw [Dict.get?_set, if_neg, hrow]
      rintro rfl
      cases absent.symm.trans hrow
    exact ⟨fun id row hrow _ => hget id row hrow, fun id row hrow => ⟨row, hget id row hrow, rfl⟩⟩
  | settled _ rows =>
    refine ⟨fun id row hrow hstate => ?_, fun id row hrow => ?_⟩
    · obtain ⟨row', hrow', rfl | hstep⟩ := exists_of_rel_right rows hrow
      · exact hrow'
      · exact absurd hstep.1 hstate
    · obtain ⟨row', hrow', hstep⟩ := exists_of_rel_right rows hrow
      exact ⟨row', hrow', hstep.request⟩

theorem runId_eq_of_request (h : row'.request = row.request) : row'.runId = row.runId :=
  congrArg ApprovalRequest.runId h

theorem invocationId_eq_of_request (h : row'.request = row.request) :
    row'.invocationId = row.invocationId :=
  congrArg ApprovalRequest.invocationId h

theorem Lasting.approved (hsound : Sound tables) (h : Lasting tables tables')
    (hclaims : tables'.claims = tables.claims) :
    ∀ claim ∈ tables'.claims, ∃ row, tables'.approvals.get? claim.approvalId = some row ∧
      row.state = .approved ∧ row.invocationBindingDigest.text = claim.invocationBindingDigest ∧
      row.runId.val = claim.runId := by
  intro claim hclaim
  obtain ⟨row, hrow, hstate, hrest⟩ := hsound.approved claim (hclaims ▸ hclaim)
  exact ⟨row, h.settled _ row hrow (by rw [hstate]; exact nofun), hstate, hrest⟩

/-- Ids, digests and statuses go together, in every state. -/
theorem Moved.sound (h : Moved tables action tables') (hsound : Sound tables) : Sound tables' := by
  have hlasting := h.lasting
  cases h with
  | unchanged => exact hsound
  | control => exact ⟨hsound.unique, hsound.recorded, hsound.once, hsound.approved⟩
  | settled _ rows =>
    refine ⟨fun id id' row row' hrow hrow' hrun hinvocation => ?_, fun id row hrow => ?_,
      hsound.once, hlasting.approved hsound rfl⟩
    · obtain ⟨old, hold, hstep⟩ := exists_of_rel rows hrow
      obtain ⟨old', hold', hstep'⟩ := exists_of_rel rows hrow'
      refine hsound.unique id id' old old' hold hold' ?_ ?_
      · rw [← runId_eq_of_request hstep.request, ← runId_eq_of_request hstep'.request, hrun]
      · rw [← invocationId_eq_of_request hstep.request,
          ← invocationId_eq_of_request hstep'.request, hinvocation]
    · obtain ⟨_, hold, rfl | hstep⟩ := exists_of_rel rows hrow
      · exact hsound.recorded id _ hold
      · exact hstep.2.2.2
  | @created request now fresh absent =>
    -- nobody else has the run and the invocation of the new row
    have hnew : ∀ id row, tables.approvals.get? id = some row → row.runId = request.runId →
        row.invocationId ≠ request.invocationId := by
      intro id row hrow hrun hinvocation
      have := List.find?_eq_none.mp fresh row (Dict.mem_values_iff.mpr ⟨id, hrow⟩)
      exact this (decide_eq_true ⟨hrun, hinvocation⟩)
    have hget : ∀ id row,
        (tables.approvals.set request.approvalId (.ofRequest request now)).get? id = some row →
        id = request.approvalId ∧ row = .ofRequest request now ∨
          tables.approvals.get? id = some row :=
      fun _ _ hrow => (Dict.get?_set_cases hrow).imp_right And.right
    refine ⟨fun id id' row row' hrow hrow' hrun hinvocation => ?_, fun id row hrow => ?_,
      hsound.once, hlasting.approved hsound rfl⟩
    · rcases hget id row hrow with ⟨rfl, rfl⟩ | hold
      · rcases hget id' row' hrow' with ⟨rfl, rfl⟩ | hold'
        · rfl
        · exact absurd hinvocation.symm (hnew id' row' hold' hrun.symm)
      · rcases hget id' row' hrow' with ⟨rfl, rfl⟩ | hold'
        · exact absurd hinvocation (hnew id row hold hrun)
        · exact hsound.unique id id' row row' hold hold' hrun hinvocation
    · rcases hget id row hrow with ⟨rfl, rfl⟩ | hold
      · exact ⟨nofun, nofun⟩
      · exact hsound.recorded id row hold
  | @claimed lease approvalId bindingDigest claimId dbNow now control row fence current found run
      binding approved first =>
    refine ⟨hsound.unique, hsound.recorded, ?_, fun claim hclaim => ?_⟩
    · rw [List.map_append, List.map_singleton, List.nodup_append]
      refine ⟨hsound.once, List.nodup_singleton _, fun id hid id' hid' => ?_⟩
      obtain ⟨claim, hclaim, rfl⟩ := List.mem_map.mp hid
      rw [List.mem_singleton.mp hid']
      exact first claim hclaim
    · rcases mem_snoc hclaim with hclaim | hclaim
      · exact hsound.approved claim hclaim
      · rw [hclaim]
        exact ⟨row, found, approved, binding, run⟩

theorem sound_start : Sound start where
  unique := fun _ _ _ _ hrow => nomatch hrow
  recorded := fun _ _ hrow => nomatch hrow
  once := List.nodup_nil
  approved := fun _ hclaim => absurd hclaim List.not_mem_nil

theorem lasting_of_run {acts : List Action} (h : Trace.run step tables acts = some tables') :
    Lasting tables tables' :=
  Trace.run_invariant (fun _ _ _ hstep hlast => hlast.trans (moved_of_step hstep).lasting) h .refl

/-- What a decision answers to a row that was decided, without any change. -/
def Answers (tables : ApprovalTables) : Prop :=
  ∀ id row recorded, tables.approvals.get? id = some row →
    row.state = (if recorded = .approve then .approved else .rejected) →
    ∀ decision actorId now,
      decide tables row.runId id row.invocationBindingDigest.text decision actorId now =
        .ok ({ runId := row.runId
               approvalId := id
               effectiveStatus := row.status
               idempotent := decision = recorded
               safeErrorCode := if decision = recorded then none else some .decisionConflict
               decidedAt := row.decidedAt }, tables)

/-- The answers that any state gives. -/
theorem Sound.answers (h : Sound tables) : Answers tables := by
  intro id row recorded hrow hstate _ _ _
  have hdecision : row.decision = some recorded := by
    cases recorded with
    | approve => exact (h.recorded id row hrow).1 hstate
    | reject => exact (h.recorded id row hrow).2 hstate
  have hstatus : row.status ≠ .pending := by
    intro hpending
    rw [state_eq_pending_of_status hpending] at hstate
    split_ifs at hstate
  have hlive : row.state ≠ .invalidated := by
    rw [hstate]
    split_ifs <;> exact nofun
  have hfind : (tables.approvals.get? id).filter (·.runId.val = row.runId.val) = some row := by
    rw [hrow, Option.filter_some, if_pos (decide_eq_true rfl)]
  unfold decide
  rw [hfind]
  dsimp only
  rw [if_neg (not_not.mpr rfl), if_pos hstatus, repeated, if_neg hlive, hdecision]
  simp only [Option.some.injEq, eq_comm]

/-- A new claim is granted to the holder of the current fence. -/
def Fenced (tables : ApprovalTables) (action : Action) (tables' : ApprovalTables) : Prop :=
  ∀ claim ∈ tables'.claims, claim ∈ tables.claims ∨
    ∃ lease approvalId bindingDigest claimId dbNow now control,
      action = .claimExecution lease approvalId bindingDigest claimId dbNow now ∧
      claim = ⟨claimId, approvalId, lease.runId, bindingDigest, lease.ownerId, lease.fencingToken,
        now⟩ ∧
      tables.controls.get? lease.runId = some control ∧ control.current dbNow lease = true

theorem Moved.fenced (h : Moved tables action tables') : Fenced tables action tables' := by
  intro _ hclaim
  cases h with
  | unchanged | created | settled | control => exact .inl hclaim
  | claimed fence current =>
    rcases mem_snoc hclaim with hclaim | hclaim
    · exact .inl hclaim
    · exact .inr ⟨_, _, _, _, _, _, _, rfl, hclaim, fence, current⟩

def SameRequest (a b : ApprovalRequest) : Prop :=
  { a with riskFacts := [] } = { b with riskFacts := [] } ∧
    ∀ fact, fact ∈ a.riskFacts ↔ fact ∈ b.riskFacts

/-- A request that survives its row. -/
def Storable (request : ApprovalRequest) (now : DateTime.Utc) : Prop :=
  now = request.requestedAt ∧ ∀ fact ∈ request.riskFacts, fact ≠ "" ∧ '|' ∉ fact.toList

/-- A stored request is read back when its fields fit their columns. -/
theorem sameRequest_ofRequest_iff {request : ApprovalRequest} :
    SameRequest (DurableApprovalRow.ofRequest request now).request request ↔
      Storable request now := by
  have hfacts : (∀ fact, fact ∈ (DurableApprovalRow.ofRequest request now).request.riskFacts ↔
        fact ∈ request.riskFacts) ↔
      ∀ fact ∈ request.riskFacts, fact ≠ "" ∧ '|' ∉ fact.toList := by
    have hsorted : ∀ fact, fact ∈ request.riskFacts.insertionSort (· ≤ ·) ↔
        fact ∈ request.riskFacts := fun _ => (List.perm_insertionSort _ _).mem_iff
    simp only [← hsorted]
    exact Text.forall_mem_split_join_iff
  have htime : { (DurableApprovalRow.ofRequest request now).request with riskFacts := [] } =
      { request with riskFacts := [] } ↔ now = request.requestedAt := by
    constructor
    · exact fun h => congrArg ApprovalRequest.requestedAt h
    · rintro rfl
      rfl
  exact and_congr htime hfacts

/-- What comes back of a request that `create` has stored, in every later state. -/
def Returned (tables : ApprovalTables) : Prop :=
  ∀ request now tables', step tables (.create request now) = some tables' →
    tables.approvals.get? request.approvalId = none →
    (tables'.approvals.get? request.approvalId).isSome →
    ∀ later tables'', Trace.run step tables' later = some tables'' →
      ∃ returned, get tables'' request.approvalId = some returned ∧
        (∀ again now', again.runId = request.runId → again.invocationId = request.invocationId →
          again.invocationBindingDigest = request.invocationBindingDigest →
          create tables'' again now' = .ok (returned, tables'')) ∧
        (SameRequest returned request ↔ Storable request now)

theorem Sound.findInvocation_eq (h : Sound tables) (hrow : tables.approvals.get? id = some row) :
    findInvocation tables row.runId row.invocationId = some row := by
  have hsome : (findInvocation tables row.runId row.invocationId).isSome :=
    List.find?_isSome.mpr
      ⟨row, Dict.mem_values_iff.mpr ⟨id, hrow⟩, decide_eq_true ⟨rfl, rfl⟩⟩
  obtain ⟨found, hfound⟩ := Option.isSome_iff_exists.mp hsome
  obtain ⟨id', hid'⟩ := Dict.mem_values_iff.mp (List.mem_of_find?_eq_some hfound)
  have hmatch : found.runId = row.runId ∧ found.invocationId = row.invocationId := by
    simpa using List.find?_some hfound
  have hid : id' = id := h.unique id' id found row hid' hrow hmatch.1 hmatch.2
  rw [hid, hrow] at hid'
  rw [hfound, Option.some.inj hid']

theorem columns_of_request {request : ApprovalRequest}
    (h : row.request = (DurableApprovalRow.ofRequest request now).request) :
    row.runId = request.runId ∧ row.invocationId = request.invocationId ∧
      row.invocationBindingDigest = request.invocationBindingDigest := by
  simp only [DurableApprovalRow.request, DurableApprovalRow.ofRequest,
    ApprovalRequest.mk.injEq] at h
  obtain ⟨-, hrun, -, hinvocation, -, -, -, -, -, -, -, hbinding, -⟩ := h
  exact ⟨hrun, hinvocation, hbinding⟩

theorem Sound.returned (hsound : Sound tables) : Returned tables := by
  intro request now tables' hcreate habsent hstored _ tables'' hlater
  have hmoved := moved_of_step hcreate
  -- the row that was added
  have hrow : tables'.approvals.get? request.approvalId = some (.ofRequest request now) := by
    cases hmoved with
    | unchanged =>
      rw [habsent] at hstored
      cases hstored
    | created => rw [put, Dict.get?_set, if_pos rfl]
    | settled _ rows =>
      obtain ⟨row, hget⟩ := Option.isSome_iff_exists.mp hstored
      obtain ⟨_, hold, -⟩ := exists_of_rel rows hget
      cases habsent.symm.trans hold
  obtain ⟨row, hlast, hrequest⟩ := (lasting_of_run hlater).kept _ _ hrow
  have hlater : Sound tables'' :=
    Trace.run_invariant (fun _ _ _ hstep hs => (moved_of_step hstep).sound hs) hlater
      (hmoved.sound hsound)
  refine ⟨row.request, ?_, fun again now' hrun hinvocation hbinding => ?_, ?_⟩
  · rw [get, hlast]
    rfl
  · have hfind := hlater.findInvocation_eq hlast
    obtain ⟨hrun', hinvocation', hbinding'⟩ := columns_of_request hrequest
    rw [hrun', hinvocation', ← hrun, ← hinvocation] at hfind
    unfold create
    rw [hfind]
    simp only [raiseIf, hbinding', hbinding, ne_eq, not_true_eq_false, if_false]
    rfl
  · rw [hrequest]
    exact sameRequest_ofRequest_iff

/-- Approvals and claims in every run. -/
theorem approvals_sound {acts : List Action} (hrun : Trace.run step start acts = some tables) :
    Sound tables ∧ Answers tables ∧
      (∀ later tables', Trace.run step tables later = some tables' → Lasting tables tables') ∧
      (∀ action tables', step tables action = some tables' → Fenced tables action tables') ∧
      Returned tables := by
  have hsound : Sound tables :=
    Trace.run_invariant (fun _ _ _ hstep hs => (moved_of_step hstep).sound hs) hrun sound_start
  exact ⟨hsound, hsound.answers, fun _ _ hlater => lasting_of_run hlater,
    fun _ _ hstep => (moved_of_step hstep).fenced, hsound.returned⟩

def sampleDigest : Sha256.Digest := ⟨"".pushn 'a' 64, by decide +kernel⟩

def sampleRequest (facts : List String) : ApprovalRequest where
  approvalId := ⟨"approval", by decide⟩
  runId := ⟨"run", by decide⟩
  stepId := ⟨"step", by decide⟩
  invocationId := ⟨"invocation", by decide⟩
  toolName := ⟨"tool", by decide⟩
  invocationIdentityDigest := sampleDigest
  argumentsDigest := sampleDigest
  idempotencyKeyDigest := none
  resourceKeyDigest := none
  riskLevel := none
  riskFacts := facts
  invocationBindingDigest := sampleDigest
  requestedAt := .epochSecond 0

def sampleLease : RunLease := ⟨"run", "worker", 100, 1, 2⟩

/-- A request is stored, approved under an active run, and its execution is claimed. -/
def sampleApproval : List Action :=
  [.control (Dict.empty.set "run" ⟨some "worker", some 100, 1, .active, 2, none, none, none, none⟩),
    .create (sampleRequest ["WRITE", "NETWORK"]) (.epochSecond 0),
    .decide "run" "approval" sampleDigest.text .approve none (.epochSecond 1),
    .claimExecution sampleLease "approval" sampleDigest.text "claim" 50 (.epochSecond 2)]

theorem approvals_sound_sampleApproval :
    ∃ tables, Trace.run step start sampleApproval = some tables ∧ tables.claims.length = 1 ∧
      Sound tables := by
  have hrun : (Trace.run step start sampleApproval).any (fun tables =>
      Decidable.decide (tables.claims.length = 1)) = true := by decide +kernel
  obtain ⟨tables, htables, hend⟩ := exists_of_any hrun
  exact ⟨tables, htables, hend, (approvals_sound htables).1⟩

/-- A risk fact with the separator comes back as two facts. -/
theorem risk_fact_with_separator_split : ∃ tables, Trace.run step start
        [.create (sampleRequest ["a|b"]) (sampleRequest ["a|b"]).requestedAt] = some tables ∧
      ∃ returned, get tables "approval" = some returned ∧ returned.riskFacts = ["a", "b"] ∧
        ¬ SameRequest returned (sampleRequest ["a|b"]) := by
  have hrun : (Trace.run step start
        [.create (sampleRequest ["a|b"]) (sampleRequest ["a|b"]).requestedAt]).any (fun tables =>
      (get tables "approval").any fun returned =>
        Decidable.decide (returned.riskFacts = ["a", "b"])) = true := by decide +kernel
  obtain ⟨tables, htables, hget⟩ := Option.any_eq_true _ _ |>.mp hrun
  obtain ⟨returned, hreturned, hfacts⟩ := exists_of_any hget
  refine ⟨tables, htables, returned, hreturned, hfacts, fun h => ?_⟩
  have hmem : "a|b" ∈ returned.riskFacts := (h.2 "a|b").mpr List.mem_cons_self
  rw [hfacts] at hmem
  exact absurd hmem (by decide)

end DurableApprovalService

end LocalAgent.Runtime
