import LocalAgent.Lib.DateTime
import LocalAgent.Lib.Dict
import LocalAgent.Lib.Json
import LocalAgent.Lib.Op
import LocalAgent.Lib.Text
import Mathlib.Data.Finset.Sort

/-!
# LocalAgent.Runtime.State — `core/runtime/state.py`

The serialisable state of one run: `StepState`, `AgentState` and their `validate`.  Each `validate`
is the source's list of checks, in its order and with its messages; `StepState.Valid` and
`AgentState.Valid` say the same as one proposition (`validate_eq_ok_iff`), and every later proof
uses the proposition.
-/

namespace LocalAgent.Runtime

/-- `AGENT_STATE_SCHEMA_VERSION`. -/
def agentStateSchemaVersion : ℤ := 1

/-- The exceptions of `state.py` and `state_machine.py`. -/
inductive StateError where
  /-- `AgentStateValidationError` -/
  | validation (message : String)
  /-- `UnsupportedStateVersionError` -/
  | unsupportedVersion (message : String)
  /-- a plain `ValueError` of an enum or of `datetime.fromisoformat` -/
  | value (message : String)
  /-- `InvalidStateTransitionError` -/
  | invalidTransition (entityType currentStatus eventType entityId reason : String)
  deriving DecidableEq

inductive RunStatus where
  | created | running | succeeded | failed | cancelled
  deriving DecidableEq

inductive StepStatus where
  | pending | running | waitingForApproval | succeeded | failed | cancelled | blocked | skipped
  deriving DecidableEq

inductive StopReason where
  | completed | unhandledError | deadlineExceeded | userCancelled | clientDisconnected
  | systemShutdown | maxStepsReached | noAction | repeatedAction | budgetExhausted | planningFailed
  deriving DecidableEq

def RunStatus.value : RunStatus → String
  | .created => "CREATED" | .running => "RUNNING" | .succeeded => "SUCCEEDED"
  | .failed => "FAILED" | .cancelled => "CANCELLED"

def StepStatus.value : StepStatus → String
  | .pending => "PENDING" | .running => "RUNNING"
  | .waitingForApproval => "WAITING_FOR_APPROVAL" | .succeeded => "SUCCEEDED"
  | .failed => "FAILED" | .cancelled => "CANCELLED" | .blocked => "BLOCKED"
  | .skipped => "SKIPPED"

def StopReason.value : StopReason → String
  | .completed => "COMPLETED" | .unhandledError => "UNHANDLED_ERROR"
  | .deadlineExceeded => "DEADLINE_EXCEEDED" | .userCancelled => "USER_CANCELLED"
  | .clientDisconnected => "CLIENT_DISCONNECTED" | .systemShutdown => "SYSTEM_SHUTDOWN"
  | .maxStepsReached => "MAX_STEPS_REACHED" | .noAction => "NO_ACTION"
  | .repeatedAction => "REPEATED_ACTION" | .budgetExhausted => "BUDGET_EXHAUSTED"
  | .planningFailed => "PLANNING_FAILED"

/-- `status in _TERMINAL_RUN_STATUSES`. -/
def RunStatus.IsTerminal (status : RunStatus) : Prop :=
  status = .succeeded ∨ status = .failed ∨ status = .cancelled
  deriving Decidable

/-- `status in _TERMINAL_STEP_STATUSES`. -/
def StepStatus.IsTerminal (status : StepStatus) : Prop :=
  status = .succeeded ∨ status = .failed ∨ status = .cancelled ∨ status = .blocked ∨
    status = .skipped
  deriving Decidable

/-- `status in {StepStatus.RUNNING, StepStatus.WAITING_FOR_APPROVAL}`. -/
def StepStatus.IsActive (status : StepStatus) : Prop :=
  status = .running ∨ status = .waitingForApproval
  deriving Decidable

/-- `reason in _CANCELLATION_REASONS`. -/
def StopReason.IsCancellation (reason : StopReason) : Prop :=
  reason = .userCancelled ∨ reason = .clientDisconnected ∨ reason = .systemShutdown
  deriving Decidable

def ensureUtcDatetime (value : DateTime) (fieldName : String) : Except StateError Unit :=
  raiseIf (¬ value.IsUtc)
    (.validation (fieldName ++ " must be a timezone-aware UTC datetime"))

/-- Truth value of an optional text: present and not empty. -/
def HasText (text : Option String) : Prop := text ≠ none ∧ text ≠ some ""
  deriving Decidable

/-! ## Steps -/

structure StepState where
  stepId : String
  name : String
  status : StepStatus
  createdAt : DateTime
  startedAt : Option DateTime
  endedAt : Option DateTime
  errorCode : Option String
  errorMessage : Option String
  deriving DecidableEq

namespace StepState

/-- `StepState(step_id=..., name=...)`: pending, created at the clock reading `now`. -/
def new (stepId name : String) (now : DateTime) : StepState :=
  ⟨stepId, name, .pending, now, none, none, none, none⟩

/-- The checks on `started_at`. -/
def validateStartedAt (step : StepState) : Except StateError Unit :=
  match step.startedAt with
  | none => .ok ()
  | some startedAt => do
    ensureUtcDatetime startedAt ("step " ++ step.stepId ++ ".started_at")
    raiseIf (startedAt < step.createdAt)
      (.validation "step started_at must not be before created_at")

/-- The checks on `ended_at`. -/
def validateEndedAt (step : StepState) : Except StateError Unit :=
  match step.endedAt with
  | none => .ok ()
  | some endedAt => do
    ensureUtcDatetime endedAt ("step " ++ step.stepId ++ ".ended_at")
    raiseIf (endedAt < step.createdAt)
      (.validation "step ended_at must not be before created_at")
    raiseIf (∃ startedAt ∈ step.startedAt, endedAt < startedAt)
      (.validation "step ended_at must not be before started_at")

def validate (step : StepState) : Except StateError Unit := do
  raiseIf (step.stepId = "") (.validation "step_id must not be empty")
  raiseIf (step.name = "") (.validation "step name must not be empty")
  ensureUtcDatetime step.createdAt ("step " ++ step.stepId ++ ".created_at")
  step.validateStartedAt
  step.validateEndedAt
  raiseIf (step.status = .pending ∧ (step.startedAt ≠ none ∨ step.endedAt ≠ none))
    (.validation "pending step must not have started_at or ended_at")
  raiseIf (step.status = .running ∧ (step.startedAt = none ∨ step.endedAt ≠ none))
    (.validation "running step must have started_at and no ended_at")
  raiseIf (step.status = .waitingForApproval ∧ (step.startedAt = none ∨ step.endedAt ≠ none))
    (.validation "waiting-for-approval step must have started_at and no ended_at")
  raiseIf (step.status = .blocked ∧ step.startedAt ≠ none)
    (.validation "blocked step must not have started_at")
  raiseIf (step.status.IsTerminal ∧ step.endedAt = none)
    (.validation "terminal step must have ended_at")
  raiseIf (step.status = .succeeded ∧ (HasText step.errorCode ∨ HasText step.errorMessage))
    (.validation "succeeded step must not contain error information")
  raiseIf (step.status = .failed ∧ ¬ (HasText step.errorCode ∨ HasText step.errorMessage))
    (.validation "failed step must include a safe error summary")

/-- What `validate` accepts. -/
structure Valid (step : StepState) : Prop where
  stepId_ne : step.stepId ≠ ""
  name_ne : step.name ≠ ""
  created : step.createdAt.IsUtc
  started : ∀ t ∈ step.startedAt, t.IsUtc ∧ ¬ t < step.createdAt
  ended : ∀ t ∈ step.endedAt, t.IsUtc ∧ ¬ t < step.createdAt ∧ ∀ u ∈ step.startedAt, ¬ t < u
  pending : step.status = .pending → step.startedAt = none ∧ step.endedAt = none
  active : step.status.IsActive → step.startedAt ≠ none ∧ step.endedAt = none
  blocked : step.status = .blocked → step.startedAt = none
  terminal : step.status.IsTerminal → step.endedAt ≠ none
  succeeded : step.status = .succeeded → ¬ HasText step.errorCode ∧ ¬ HasText step.errorMessage
  failed : step.status = .failed → HasText step.errorCode ∨ HasText step.errorMessage

variable {step : StepState}

theorem validateStartedAt_eq_ok_iff :
    step.validateStartedAt = .ok () ↔ ∀ t ∈ step.startedAt, t.IsUtc ∧ ¬ t < step.createdAt := by
  unfold validateStartedAt
  cases step.startedAt <;> simp [ensureUtcDatetime]

theorem validateEndedAt_eq_ok_iff :
    step.validateEndedAt = .ok () ↔ ∀ t ∈ step.endedAt,
      t.IsUtc ∧ ¬ t < step.createdAt ∧ ∀ u ∈ step.startedAt, ¬ t < u := by
  unfold validateEndedAt
  cases step.endedAt <;> simp [ensureUtcDatetime]

/-- The checks of a step accept exactly the valid steps. -/
theorem validate_eq_ok_iff : step.validate = .ok () ↔ step.Valid := by
  simp only [validate, ensureUtcDatetime, seq_eq_ok, raiseIf_ok,
    validateStartedAt_eq_ok_iff, validateEndedAt_eq_ok_iff, not_not]
  constructor
  · rintro ⟨h1, h2, h3, h4, h5, h6, h7, h8, h9, h10, h11, h12⟩
    refine ⟨h1, h2, h3, h4, h5, ?_, ?_, ?_, ?_, ?_, ?_⟩
    · intro h; simpa [h] using h6
    · rintro (h | h)
      · simpa [h] using h7
      · simpa [h] using h8
    · intro h; simpa [h] using h9
    · intro h; simpa [h] using h10
    · intro h; simpa [h] using h11
    · intro h; by_contra hn; exact h12 ⟨h, hn⟩
  · intro h
    refine ⟨h.stepId_ne, h.name_ne, h.created, h.started, h.ended, ?_, ?_, ?_, ?_, ?_, ?_, ?_⟩
    · rintro ⟨hs, hn⟩; have := h.pending hs; simp [this] at hn
    · rintro ⟨hs, hn⟩; have := h.active (Or.inl hs); simp [this] at hn
    · rintro ⟨hs, hn⟩; have := h.active (Or.inr hs); simp [this] at hn
    · rintro ⟨hs, hn⟩; exact hn (h.blocked hs)
    · rintro ⟨hs, hn⟩; exact h.terminal hs hn
    · rintro ⟨hs, hn⟩; have := h.succeeded hs; simp [this] at hn
    · rintro ⟨hs, hn⟩; exact hn (h.failed hs)

theorem valid_new {stepId name : String} {now : DateTime} (hid : stepId ≠ "") (hname : name ≠ "")
    (hnow : now.IsUtc) : (new stepId name now).Valid := by
  refine ⟨hid, hname, hnow, ?_, ?_, ?_, ?_, ?_, ?_, ?_, ?_⟩ <;>
    simp [new, StepStatus.IsActive, StepStatus.IsTerminal]

end StepState

/-! ## Runs -/

/-- The state of one run.  `steps` keeps insertion order; `activeStepIds` is a set. -/
structure AgentState where
  runId : String
  schemaVersion : ℤ
  status : RunStatus
  createdAt : DateTime
  updatedAt : DateTime
  steps : Dict String StepState
  activeStepIds : Finset String
  stopReason : Option StopReason
  finalOutput : Option String
  errorCode : Option String
  errorMessage : Option String
  deriving DecidableEq

namespace AgentState

def runningStepIds (state : AgentState) : Finset String :=
  ((state.steps.values.filter fun step => step.status.IsActive).map StepState.stepId).toFinset

def validateEntry (entry : String × StepState) : Except StateError Unit := do
  raiseIf (entry.1 ≠ entry.2.stepId) (.validation "step dictionary key must match step_id")
  entry.2.validate

/-- `AgentState.validate`.  The order in which a set is walked is not specified by the language:
a missing active step is reported before one with the wrong status. -/
def validate (state : AgentState) : Except StateError Unit := do
  raiseIf (state.schemaVersion ≠ agentStateSchemaVersion)
    (.unsupportedVersion
      ("unsupported AgentState schema_version: " ++ toString state.schemaVersion))
  raiseIf (state.runId = "") (.validation "run_id must not be empty")
  ensureUtcDatetime state.createdAt "created_at"
  ensureUtcDatetime state.updatedAt "updated_at"
  raiseIf (state.updatedAt < state.createdAt)
    (.validation "updated_at must not be before created_at")
  raiseIf ((state.status = .created ∨ state.status = .running) ∧ state.stopReason ≠ none)
    (.validation "non-terminal run must not have stop_reason")
  raiseIf (state.status.IsTerminal ∧ state.stopReason = none)
    (.validation "terminal run must have stop_reason")
  raiseIf (state.status.IsTerminal ∧ state.activeStepIds ≠ ∅)
    (.validation "terminal run must not have active steps")
  raiseIf (state.status = .succeeded ∧ state.stopReason ≠ some .completed)
    (.validation "succeeded run must use COMPLETED stop_reason")
  raiseIf (state.status = .cancelled ∧ ¬ ∃ reason ∈ state.stopReason, reason.IsCancellation)
    (.validation "cancelled run must use a cancellation stop_reason")
  raiseIf (state.status = .failed ∧
      ∃ reason ∈ state.stopReason, reason.IsCancellation ∨ reason = .completed)
    (.validation "failed run must not use completed or cancellation stop_reason")
  raiseIf (state.steps.keys.length ≠ state.steps.keys.toFinset.card)
    (.validation "step_id must be unique")
  state.steps.entries.forM validateEntry
  raiseIf (∃ stepId ∈ state.activeStepIds, state.steps.get? stepId = none)
    (.validation "active step id must exist in steps")
  raiseIf (∃ stepId ∈ state.activeStepIds, ∃ step ∈ state.steps.get? stepId, ¬ step.status.IsActive)
    (.validation "active step must be RUNNING or WAITING_FOR_APPROVAL")
  raiseIf (state.runningStepIds ≠ state.activeStepIds)
    (.validation "all RUNNING / WAITING_FOR_APPROVAL steps must be present in active_step_ids")

/-- What `validate` accepts. -/
structure Valid (state : AgentState) : Prop where
  version : state.schemaVersion = agentStateSchemaVersion
  runId_ne : state.runId ≠ ""
  created : state.createdAt.IsUtc
  updated : state.updatedAt.IsUtc
  updated_created : ¬ state.updatedAt < state.createdAt
  nonterminal : ¬ state.status.IsTerminal → state.stopReason = none
  terminal : state.status.IsTerminal → state.activeStepIds = ∅
  succeeded : state.status = .succeeded → state.stopReason = some .completed
  cancelled : state.status = .cancelled → ∃ reason ∈ state.stopReason, reason.IsCancellation
  failed : state.status = .failed →
    ∃ reason ∈ state.stopReason, ¬ reason.IsCancellation ∧ reason ≠ .completed
  step : ∀ stepId step, state.steps.get? stepId = some step → step.stepId = stepId ∧ step.Valid
  active : ∀ stepId, stepId ∈ state.activeStepIds ↔
    ∃ step, state.steps.get? stepId = some step ∧ step.status.IsActive

theorem not_isTerminal_iff {status : RunStatus} :
    ¬ status.IsTerminal ↔ status = .created ∨ status = .running := by
  cases status <;> simp [RunStatus.IsTerminal]

variable {state : AgentState}

theorem validateEntries_eq_ok_iff :
    state.steps.entries.forM validateEntry = .ok () ↔
      ∀ stepId step, state.steps.get? stepId = some step → step.stepId = stepId ∧ step.Valid := by
  simp only [except_forM_eq_ok, validateEntry, seq_eq_ok, raiseIf_ok, not_not,
    StepState.validate_eq_ok_iff, Prod.forall, Dict.get?_eq_some_iff]
  constructor
  all_goals
    intro h stepId step hmem
    exact ⟨(h stepId step hmem).1.symm, (h stepId step hmem).2⟩

/-- The last three checks together: the active set is exactly the steps with an active status. -/
theorem active_checks_iff
    (hstep : ∀ stepId step, state.steps.get? stepId = some step → step.stepId = stepId) :
    ((¬ ∃ stepId ∈ state.activeStepIds, state.steps.get? stepId = none) ∧
      (¬ ∃ stepId ∈ state.activeStepIds, ∃ step ∈ state.steps.get? stepId, ¬ step.status.IsActive) ∧
      state.runningStepIds = state.activeStepIds) ↔
    ∀ stepId, stepId ∈ state.activeStepIds ↔
      ∃ step, state.steps.get? stepId = some step ∧ step.status.IsActive := by
  have hrun : ∀ stepId, stepId ∈ state.runningStepIds ↔
      ∃ step, state.steps.get? stepId = some step ∧ step.status.IsActive := by
    intro stepId
    simp only [runningStepIds, List.mem_toFinset, List.mem_map, List.mem_filter, Dict.mem_values_iff,
      decide_eq_true_eq]
    constructor
    · rintro ⟨step, ⟨⟨k, hk⟩, hact⟩, rfl⟩
      exact ⟨step, by rw [hstep k step hk]; exact hk, hact⟩
    · rintro ⟨step, hget, hact⟩
      exact ⟨step, ⟨⟨stepId, hget⟩, hact⟩, hstep stepId step hget⟩
  constructor
  · rintro ⟨-, -, heq⟩ stepId
    rw [← heq]
    exact hrun stepId
  · intro h
    refine ⟨?_, ?_, ?_⟩
    · rintro ⟨stepId, hmem, hnone⟩
      obtain ⟨step, hget, -⟩ := (h stepId).mp hmem
      rw [hget] at hnone
      cases hnone
    · rintro ⟨stepId, hmem, step, hstep', hact⟩
      obtain ⟨step', hget, hact'⟩ := (h stepId).mp hmem
      obtain rfl : step' = step := by simpa [hget] using hstep'
      exact hact hact'
    · ext stepId
      rw [hrun stepId, h stepId]

/-- The checks of the state accept exactly the valid states. -/
theorem validate_eq_ok_iff : state.validate = .ok () ↔ state.Valid := by
  simp only [validate, ensureUtcDatetime, seq_eq_ok, raiseIf_ok, not_not,
    validateEntries_eq_ok_iff, ← not_isTerminal_iff]
  constructor
  · rintro ⟨h1, h2, h3, h4, h5, h6, h7, h8, h9, h10, h11, -, h13, h14, h15, h16⟩
    refine ⟨h1, h2, h3, h4, h5, ?_, ?_, ?_, ?_, ?_, h13, ?_⟩
    · intro h; by_contra hn; exact h6 ⟨h, hn⟩
    · intro h; by_contra hn; exact h8 ⟨h, hn⟩
    · intro h; by_contra hn; exact h9 ⟨h, hn⟩
    · intro h; by_contra hn; exact h10 ⟨h, hn⟩
    · intro h
      cases hr : state.stopReason with
      | none => exact absurd ⟨Or.inr (Or.inl h), hr⟩ h7
      | some reason =>
        refine ⟨reason, rfl, fun hc => h11 ⟨h, reason, hr, Or.inl hc⟩,
          fun hc => h11 ⟨h, reason, hr, Or.inr hc⟩⟩
    · exact (active_checks_iff fun k step hk => (h13 k step hk).1).mp ⟨h14, h15, h16⟩
  · intro h
    have hterm : state.status.IsTerminal → state.stopReason ≠ none := by
      rintro (hs | hs | hs)
      · simp [h.succeeded hs]
      · obtain ⟨reason, hr, -⟩ := h.failed hs
        simp [Option.mem_def.mp hr]
      · obtain ⟨reason, hr, -⟩ := h.cancelled hs
        simp [Option.mem_def.mp hr]
    obtain ⟨h14, h15, h16⟩ := (active_checks_iff fun k step hk => (h.step k step hk).1).mpr h.active
    refine ⟨h.version, h.runId_ne, h.created, h.updated, h.updated_created, ?_, ?_, ?_, ?_, ?_, ?_,
      ?_, h.step, h14, h15, h16⟩
    · rintro ⟨hs, hn⟩; exact hn (h.nonterminal hs)
    · rintro ⟨hs, hn⟩; exact hterm hs hn
    · rintro ⟨hs, hn⟩; exact hn (h.terminal hs)
    · rintro ⟨hs, hn⟩; exact hn (h.succeeded hs)
    · rintro ⟨hs, hn⟩; exact hn (h.cancelled hs)
    · rintro ⟨hs, reason, hr, hn⟩
      obtain ⟨reason', hr', hc, hd⟩ := h.failed hs
      obtain rfl : reason' = reason := Option.mem_unique hr' hr
      exact hn.elim hc hd
    · exact (List.toFinset_card_of_nodup state.steps.keys_nodup).symm

/-- `AgentState(run_id)`, with the two clock readings of its defaults. -/
def new (runId : String) (createdNow updatedNow : DateTime) : Except StateError AgentState := do
  let state : AgentState := ⟨runId, agentStateSchemaVersion, .created, createdNow, updatedNow,
    Dict.empty, ∅, none, none, none, none⟩
  state.validate
  return state

/-- `AgentState.add_step`, with the clock readings of the step and of `_touch_and_validate`. -/
def addStep (state : AgentState) (stepId name : String) (stepNow touchNow : DateTime) :
    Except StateError AgentState := do
  raiseIf (stepId ∈ state.steps.keys) (.validation "step_id must be unique")
  let next := { state with
    steps := state.steps.set stepId (StepState.new stepId name stepNow), updatedAt := touchNow }
  next.validate
  return next

end AgentState

end LocalAgent.Runtime
