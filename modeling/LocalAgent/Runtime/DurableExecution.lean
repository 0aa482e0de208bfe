import LocalAgent.Runtime.DurableApproval
import LocalAgent.Runtime.ToolIdempotency

/-!
# LocalAgent.Runtime.DurableExecution — `core/persistence/repositories/execution.py`, plan runs

The step and model attempt rows of one run.  Every operation is one transaction under the current
lease of the run: it returns the rows it leaves behind, and an exception rolls it back.

* `startStep`, `completeStep`, `prepareRecovery`, `startModelAttempt`, `finishModelAttempt`: the
  operations, for a run without an agent loop.
* `startStep_ok`, `completeStep_ok`, …: what an operation that returned has done.
-/

namespace LocalAgent.Runtime

/-! ## The rows -/

inductive StepExecutionStatus where
  | pending | running | succeeded | failed | cancelled | blocked | skipped
  deriving DecidableEq

/-- The statuses `complete_step` may write. -/
def StepExecutionStatus.isTerminal : StepExecutionStatus → Bool
  | .pending | .running => false
  | .succeeded | .failed | .cancelled | .blocked | .skipped => true

inductive ModelAttemptState where
  | rejected | notStarted | started | completed | unknown
  deriving DecidableEq

def ModelAttemptState.isFinish : ModelAttemptState → Bool
  | .completed | .unknown | .rejected => true
  | .notStarted | .started => false

inductive ModelPurpose where
  | decision | compaction | formation
  deriving DecidableEq

/-- `runtime_step_executions`, without its key. -/
structure StepExecutionRow (Payload : Type) where
  planVersion : ℕ
  status : StepExecutionStatus
  currentAttempt : ℕ
  typedResultPayload : Option Payload
  resultDigest : Option String
  safeError : Option String
  version : ℕ
  lastCommittedFencingToken : ℕ
  deriving DecidableEq

structure ModelAttemptKey where
  stepId : String
  attemptNumber : ℕ
  modelAttemptNumber : ℕ
  deriving DecidableEq

/-- `runtime_model_invocations`, without its key. -/
structure ModelInvocationRow (Payload : Type) where
  requestDigest : String
  providerKind : String
  profileIdentity : String
  purpose : ModelPurpose
  requestAssessment : Option Payload
  state : ModelAttemptState
  resultBinding : Option Payload
  resultDigest : Option String
  safeError : Option String
  version : ℕ
  lastCommittedFencingToken : ℕ
  deriving DecidableEq

structure ExecutionTables (Payload : Type) where
  runId : String
  steps : Dict String (StepExecutionRow Payload)
  models : Dict ModelAttemptKey (ModelInvocationRow Payload)
  tools : List (String × ToolInvocationState)
  approvals : List (String × ApprovalRowState)

inductive ExecutionError where
  | value (message : String)
  | runtime (message : String)
  | control (error : RunControlError)
  /-- a constraint of the database -/
  | persistence
  /-- an exception of the memory admission, the evidence capture or the journal -/
  | other (message : String)
  deriving DecidableEq

/-- A step row as `initialize` writes it. -/
def StepExecutionRow.initial {Payload : Type} (planVersion token : ℕ) : StepExecutionRow Payload :=
  ⟨planVersion, .pending, 0, none, none, none, 1, token⟩

/-- `initialize`: the steps of the plan, no model attempt. -/
def ExecutionTables.initialized {Payload : Type} (runId : String) (planVersion token : ℕ)
    (stepIds : List String) : ExecutionTables Payload where
  runId := runId
  steps := stepIds.foldl (fun d stepId => d.set stepId (.initial planVersion token)) Dict.empty
  models := Dict.empty
  tools := []
  approvals := []

namespace DurableExecutionRepository

variable {Payload : Type} (digest : Payload → String)
variable (control : ControlTables) (now : ℤ) (tables : ExecutionTables Payload) (lease : RunLease)

/-- `run_control.assert_current_in_transaction`. -/
def assertCurrent : Except ExecutionError Unit :=
  (DurableRunControlService.assertCurrent control now lease).mapError .control

/-- The step row of the leased run with this plan version, locked. -/
def selectStep (stepId : String) (planVersion : ℕ) : Option (StepExecutionRow Payload) :=
  if lease.runId = tables.runId then
    (tables.steps.get? stepId).filter (·.planVersion = planVersion)
  else none

def putStep (stepId : String) (row : StepExecutionRow Payload) : ExecutionTables Payload :=
  { tables with steps := tables.steps.set stepId row }

def putModel (key : ModelAttemptKey) (row : ModelInvocationRow Payload) : ExecutionTables Payload :=
  { tables with models := tables.models.set key row }

/-! ## Steps -/

/-- `row.version += 1` and the token of the lease. -/
def touchStep (row : StepExecutionRow Payload) : StepExecutionRow Payload :=
  { row with
    version := row.version + 1
    lastCommittedFencingToken := lease.fencingToken }

/-- `start_step`; `journalAppend` is what the journal callback does. -/
def startStep (stepId : String) (planVersion : ℕ) (attempt : Option ℕ)
    (journalAppend : Except ExecutionError Unit) :
    Except ExecutionError (ℕ × ExecutionTables Payload) := do
  raiseIf (attempt = some 0) (.value "attempt must be a positive integer or None")
  assertCurrent control now lease
  let row ← orRaise (selectStep tables lease stepId planVersion) (.value "unknown durable step")
  if row.status = .running then
    raiseIf (attempt ≠ none ∧ attempt ≠ some row.currentAttempt) (.runtime "stale step attempt")
    return (row.currentAttempt, tables)
  else
    raiseIf (row.status ≠ .pending) (.runtime "durable step is not startable")
    let nextAttempt := row.currentAttempt + 1
    raiseIf (attempt ≠ none ∧ attempt ≠ some nextAttempt) (.runtime "stale step attempt")
    journalAppend
    return (nextAttempt, putStep tables stepId
      (touchStep lease { row with status := .running, currentAttempt := nextAttempt }))

/-- The arguments of `complete_step`. -/
structure StepCompletion (Payload : Type) where
  stepId : String
  planVersion : ℕ
  attempt : ℕ
  result : Payload
  status : StepExecutionStatus
  safeError : Option String

/-- What `complete_step` writes. -/
def completedRow (completion : StepCompletion Payload) (row : StepExecutionRow Payload) :
    StepExecutionRow Payload :=
  touchStep lease
    { row with
      status := completion.status
      typedResultPayload := some completion.result
      resultDigest := some (digest completion.result)
      safeError := completion.safeError }

def completeStep (completion : StepCompletion Payload) (journalAppend : Except ExecutionError Unit) :
    Except ExecutionError (Bool × ExecutionTables Payload) := do
  raiseIf (completion.status.isTerminal = false)
    (.value "complete_step requires a terminal status")
  assertCurrent control now lease
  let row ← orRaise (selectStep tables lease completion.stepId completion.planVersion)
    (.value "unknown durable step")
  if row.status.isTerminal then
    -- the replay: only the digest and the attempt are compared
    if row.resultDigest = some (digest completion.result) ∧ row.currentAttempt = completion.attempt
    then return (true, tables)
    else throw (.runtime "durable step completion conflict")
  else
    raiseIf (row.status ≠ .running) (.runtime "durable step is not running")
    raiseIf (row.currentAttempt ≠ completion.attempt ∨ row.version = 0)
      (.runtime "stale step attempt")
    journalAppend
    return (true, putStep tables completion.stepId (completedRow digest lease completion row))

/-! ## Recovery -/

/-- A model attempt in flight becomes `UNKNOWN`. -/
def abandon (row : ModelInvocationRow Payload) : ModelInvocationRow Payload :=
  if row.state = .started then
    { row with
      state := .unknown
      version := row.version + 1
      lastCommittedFencingToken := lease.fencingToken }
  else row

/-- The `UNKNOWN` attempts of a step over its whole life. -/
def unknownCount (models : Dict ModelAttemptKey (ModelInvocationRow Payload)) (stepId : String) : ℕ :=
  models.entries.countP fun e => e.1.stepId = stepId ∧ e.2.state = .unknown

def unresolvedTool (stepId : String) : Bool :=
  tables.tools.any fun tool => tool.1 = stepId ∧ (tool.2 = .started ∨ tool.2 = .unknown)

def pendingApproval (stepId : String) : Bool :=
  tables.approvals.any fun approval => approval.1 = stepId ∧ approval.2 = .pending

/-- The classification of one step; the attempts of `tables` are abandoned already. -/
def classifyStep (stepId : String) (row : StepExecutionRow Payload) : StepExecutionRow Payload :=
  if row.status ≠ .running then row
  else if unresolvedTool tables stepId then
    touchStep lease { row with status := .blocked, safeError := some "TOOL_OUTCOME_UNKNOWN" }
  else if 2 ≤ unknownCount tables.models stepId then
    touchStep lease { row with status := .blocked, safeError := some "MODEL_RECOVERY_EXHAUSTED" }
  else if pendingApproval tables stepId then row
  else touchStep lease { row with status := .pending }

/-- The rows after the attempts in flight are abandoned. -/
def abandonModels : ExecutionTables Payload :=
  { tables with models := tables.models.mapValues (abandon lease) }

/-- The rows after a recovery. -/
def recovered : ExecutionTables Payload :=
  let abandoned := abandonModels tables lease
  { abandoned with steps := abandoned.steps.mapWithKey (classifyStep abandoned lease) }

/-- `prepare_recovery` of a run without an agent loop. -/
def prepareRecovery : Except ExecutionError (ExecutionTables Payload) := do
  assertCurrent control now lease
  raiseIf (lease.runId ≠ tables.runId) (.value "unknown execution root")
  return recovered tables lease

/-! ## Model attempts -/

/-- The arguments of `start_model_attempt` that reach the row. -/
structure ModelAttemptStart (Payload : Type) where
  key : ModelAttemptKey
  requestDigest : String
  providerKind : String
  profileIdentity : String
  purpose : ModelPurpose
  requestAssessment : Option Payload

/-- A row as `start_model_attempt` inserts it. -/
def startedRow (start : ModelAttemptStart Payload) : ModelInvocationRow Payload where
  requestDigest := start.requestDigest
  providerKind := start.providerKind
  profileIdentity := start.profileIdentity
  purpose := start.purpose
  requestAssessment := start.requestAssessment
  state := .started
  resultBinding := none
  resultDigest := none
  safeError := none
  version := 1
  lastCommittedFencingToken := lease.fencingToken

/-- `start_model_attempt` without a loop frame; `admission` is what the memory checks and the
evidence capture do. -/
def startModelAttempt (start : ModelAttemptStart Payload)
    (admission journalAppend : Except ExecutionError Unit) :
    Except ExecutionError (ExecutionTables Payload) := do
  assertCurrent control now lease
  admission
  match tables.models.get? start.key with
  | none =>
    journalAppend
    -- a foreign key and check constraints of the table
    raiseIf (lease.runId ≠ tables.runId ∨ start.key.attemptNumber = 0 ∨
      start.key.modelAttemptNumber = 0 ∨ start.purpose = .compaction) .persistence
    return putModel tables start.key (startedRow lease start)
  | some row =>
    raiseIf (lease.runId ≠ tables.runId) .persistence
    raiseIf (row.state ≠ .notStarted) (.runtime "model attempt is not startable")
    journalAppend
    return putModel tables start.key
      { row with
        state := .started
        version := row.version + 1
        lastCommittedFencingToken := lease.fencingToken }

/-- The arguments of `finish_model_attempt`. -/
structure ModelAttemptFinish (Payload : Type) where
  key : ModelAttemptKey
  state : ModelAttemptState
  result : Option Payload
  safeError : Option String

/-- What `finish_model_attempt` writes. -/
def finishedRow (finish : ModelAttemptFinish Payload) (row : ModelInvocationRow Payload) :
    ModelInvocationRow Payload :=
  { row with
    state := finish.state
    resultBinding := finish.result
    resultDigest := finish.result.map digest
    safeError := finish.safeError
    version := row.version + 1
    lastCommittedFencingToken := lease.fencingToken }

def finishModelAttempt (finish : ModelAttemptFinish Payload)
    (journalAppend : Except ExecutionError Unit) :
    Except ExecutionError (ExecutionTables Payload) := do
  raiseIf (finish.state.isFinish = false) (.value "model finish state must be COMPLETED or UNKNOWN")
  raiseIf (finish.state ≠ .completed ∧ finish.result ≠ none)
    (.value "UNKNOWN model attempt cannot carry a result")
  assertCurrent control now lease
  let row ← orRaise (if lease.runId = tables.runId then tables.models.get? finish.key else none)
    (.runtime "model attempt transition rejected")
  raiseIf (row.state ≠ .started) (.runtime "model attempt transition rejected")
  raiseIf (finish.state = .rejected ∧
      (row.requestAssessment = none ∨ finish.safeError ≠ some "PROVIDER_CONTEXT_REJECTED"))
    (.runtime "CONTEXT_REJECTION_UNCONFIRMED")
  journalAppend
  return putModel tables finish.key (finishedRow digest lease finish row)

/-! ## What an operation that returned has done -/

variable {digest} {control : ControlTables} {now : ℤ} {tables tables' : ExecutionTables Payload}
variable {lease : RunLease}

/-- The lease that is asserted is the current one of its run. -/
theorem assertCurrent_ok (h : assertCurrent control now lease = .ok ()) :
    ∃ row, control.controls.get? lease.runId = some row ∧ row.current now lease = true := by
  have hcurrent := mapError_ok.mp h
  simp only [DurableRunControlService.assertCurrent, seq_eq_ok] at hcurrent
  obtain ⟨-, hcurrent⟩ := hcurrent
  split at hcurrent
  · rename_i row hrow
    split_ifs at hcurrent with hlive
    exact ⟨row, hrow, hlive⟩
  · cases hcurrent

variable {stepId : String} {planVersion : ℕ}

theorem selectStep_eq_some {row : StepExecutionRow Payload}
    (h : selectStep tables lease stepId planVersion = some row) :
    lease.runId = tables.runId ∧ tables.steps.get? stepId = some row ∧
      row.planVersion = planVersion := by
  unfold selectStep at h
  split_ifs at h with hrun
  obtain ⟨hrow, hversion⟩ := Option.filter_eq_some_iff.mp h
  exact ⟨hrun, hrow, of_decide_eq_true hversion⟩

variable {journalAppend : Except ExecutionError Unit}

theorem startStep_ok {attempt' : ℕ} {attempt : Option ℕ}
    (h : startStep control now tables lease stepId planVersion attempt journalAppend =
      .ok (attempt', tables')) :
    assertCurrent control now lease = .ok () ∧ lease.runId = tables.runId ∧
      ∃ row, tables.steps.get? stepId = some row ∧
        (row.status = .running ∧ attempt' = row.currentAttempt ∧ tables' = tables ∨
          row.status = .pending ∧ attempt' = row.currentAttempt + 1 ∧
            tables' = putStep tables stepId (touchStep lease
              { row with status := .running, currentAttempt := row.currentAttempt + 1 })) := by
  simp only [startStep, seq_eq_ok] at h
  obtain ⟨-, hcurrent, h⟩ := h
  obtain ⟨row, hrow, h⟩ := bind_eq_ok.mp h
  obtain ⟨hrun, hget, -⟩ := selectStep_eq_some (orRaise_ok.mp hrow)
  refine ⟨hcurrent, hrun, row, hget, ?_⟩
  split_ifs at h with hrunning
  · simp only [seq_eq_ok] at h
    cases h.2
    exact .inl ⟨hrunning, rfl, rfl⟩
  · simp only [seq_eq_ok, raiseIf_ok, not_not] at h
    obtain ⟨hpending, -, -, h⟩ := h
    cases h
    exact .inr ⟨hpending, rfl, rfl⟩

theorem completeStep_ok {completion : StepCompletion Payload} {returned : Bool}
    (h : completeStep digest control now tables lease completion journalAppend =
      .ok (returned, tables')) :
    assertCurrent control now lease = .ok () ∧ lease.runId = tables.runId ∧ returned = true ∧
      completion.status.isTerminal = true ∧
      ∃ row, tables.steps.get? completion.stepId = some row ∧
        row.planVersion = completion.planVersion ∧
        (row.status.isTerminal = true ∧ row.resultDigest = some (digest completion.result) ∧
            row.currentAttempt = completion.attempt ∧ tables' = tables ∨
          row.status = .running ∧
            tables' = putStep tables completion.stepId (completedRow digest lease completion row)) := by
  simp only [completeStep, seq_eq_ok, raiseIf_ok, Bool.not_eq_false] at h
  obtain ⟨hterminal, hcurrent, h⟩ := h
  obtain ⟨row, hrow, h⟩ := bind_eq_ok.mp h
  obtain ⟨hrun, hget, hversion⟩ := selectStep_eq_some (orRaise_ok.mp hrow)
  split_ifs at h with hrowTerminal hsame
  · cases h
    exact ⟨hcurrent, hrun, rfl, hterminal, row, hget, hversion,
      .inl ⟨hrowTerminal, hsame.1, hsame.2, rfl⟩⟩
  · simp only [seq_eq_ok, raiseIf_ok, not_not] at h
    obtain ⟨hrunning, -, -, h⟩ := h
    cases h
    exact ⟨hcurrent, hrun, rfl, hterminal, row, hget, hversion, .inr ⟨hrunning, rfl⟩⟩

theorem prepareRecovery_ok (h : prepareRecovery control now tables lease = .ok tables') :
    assertCurrent control now lease = .ok () ∧ lease.runId = tables.runId ∧
      tables' = recovered tables lease := by
  simp only [prepareRecovery, seq_eq_ok, raiseIf_ok, not_not] at h
  exact ⟨h.1, h.2.1, (Except.ok.inj h.2.2).symm⟩

theorem startModelAttempt_ok {start : ModelAttemptStart Payload}
    {admission : Except ExecutionError Unit}
    (h : startModelAttempt control now tables lease start admission journalAppend = .ok tables') :
    assertCurrent control now lease = .ok () ∧ lease.runId = tables.runId ∧
      (∀ row, tables.models.get? start.key = some row → row.state = .notStarted) ∧
      ∃ row, row.state = .started ∧ tables' = putModel tables start.key row := by
  simp only [startModelAttempt, seq_eq_ok] at h
  obtain ⟨hcurrent, -, h⟩ := h
  refine ⟨hcurrent, ?_⟩
  split at h
  · rename_i hnone
    simp only [seq_eq_ok, raiseIf_ok, not_or, not_not] at h
    obtain ⟨-, ⟨hrun, -⟩, h⟩ := h
    refine ⟨hrun, fun row hrow => ?_, startedRow lease start, rfl, (Except.ok.inj h).symm⟩
    cases hnone.symm.trans hrow
  · rename_i row hrow
    simp only [seq_eq_ok, raiseIf_ok, not_not] at h
    obtain ⟨hrun, hstate, -, h⟩ := h
    refine ⟨hrun, fun row' hrow' => ?_, _, rfl, (Except.ok.inj h).symm⟩
    cases hrow.symm.trans hrow'
    exact hstate

theorem finishModelAttempt_ok {finish : ModelAttemptFinish Payload}
    (h : finishModelAttempt digest control now tables lease finish journalAppend = .ok tables') :
    assertCurrent control now lease = .ok () ∧ lease.runId = tables.runId ∧
      finish.state.isFinish = true ∧
      ∃ row, tables.models.get? finish.key = some row ∧ row.state = .started ∧
        tables' = putModel tables finish.key (finishedRow digest lease finish row) := by
  simp only [finishModelAttempt, seq_eq_ok, raiseIf_ok, Bool.not_eq_false] at h
  obtain ⟨hfinish, -, hcurrent, h⟩ := h
  obtain ⟨row, hrow, h⟩ := bind_eq_ok.mp h
  have hfound := orRaise_ok.mp hrow
  split_ifs at hfound with hrun
  simp only [seq_eq_ok, raiseIf_ok, not_not] at h
  obtain ⟨hstate, -, -, h⟩ := h
  exact ⟨hcurrent, hrun, hfinish, row, hfound, hstate, (Except.ok.inj h).symm⟩

end DurableExecutionRepository

end LocalAgent.Runtime
