import LocalAgent.Runtime.State

/-!
# LocalAgent.Runtime.StateCodec — `to_dict` and `from_dict` of `core/runtime/state.py`

Writing a state to JSON primitives and reading it back, error paths included.  The state machine
clones a state by writing and reading it: `AgentState.clone_eq` says that on a valid state the
clone is the same state with its steps in the order of their ids, so a clone changes nothing that
a lookup can see.
-/

namespace LocalAgent.Runtime

/-- `payload.get(key)`: null when the key is missing. -/
def getField (payload : List (String × Json)) (key : String) : Json :=
  (payload.lookup key).getD .null

/-- `str(value) if value is not None else None`. -/
def optionalText : Json → Option String
  | .null => none
  | value => some value.toStr

@[simp] theorem optionalText_ofOption (text : Option String) :
    optionalText (.ofOption text) = text := by
  cases text <;> rfl

/-- `RunStatus(text)`. -/
def RunStatus.ofValue (text : String) : Except StateError RunStatus :=
  if text = "CREATED" then .ok .created else if text = "RUNNING" then .ok .running
  else if text = "SUCCEEDED" then .ok .succeeded else if text = "FAILED" then .ok .failed
  else if text = "CANCELLED" then .ok .cancelled
  else .error (.value ("'" ++ text ++ "' is not a valid RunStatus"))

/-- `StepStatus(text)`. -/
def StepStatus.ofValue (text : String) : Except StateError StepStatus :=
  if text = "PENDING" then .ok .pending else if text = "RUNNING" then .ok .running
  else if text = "WAITING_FOR_APPROVAL" then .ok .waitingForApproval
  else if text = "SUCCEEDED" then .ok .succeeded else if text = "FAILED" then .ok .failed
  else if text = "CANCELLED" then .ok .cancelled else if text = "BLOCKED" then .ok .blocked
  else if text = "SKIPPED" then .ok .skipped
  else .error (.value ("'" ++ text ++ "' is not a valid StepStatus"))

/-- `StopReason(text)`. -/
def StopReason.ofValue (text : String) : Except StateError StopReason :=
  if text = "COMPLETED" then .ok .completed
  else if text = "UNHANDLED_ERROR" then .ok .unhandledError
  else if text = "DEADLINE_EXCEEDED" then .ok .deadlineExceeded
  else if text = "USER_CANCELLED" then .ok .userCancelled
  else if text = "CLIENT_DISCONNECTED" then .ok .clientDisconnected
  else if text = "SYSTEM_SHUTDOWN" then .ok .systemShutdown
  else if text = "MAX_STEPS_REACHED" then .ok .maxStepsReached
  else if text = "NO_ACTION" then .ok .noAction
  else if text = "REPEATED_ACTION" then .ok .repeatedAction
  else if text = "BUDGET_EXHAUSTED" then .ok .budgetExhausted
  else if text = "PLANNING_FAILED" then .ok .planningFailed
  else .error (.value ("'" ++ text ++ "' is not a valid StopReason"))

@[simp] theorem RunStatus.ofValue_value (status : RunStatus) :
    RunStatus.ofValue status.value = .ok status := by
  cases status <;> simp [RunStatus.ofValue, RunStatus.value]

@[simp] theorem StepStatus.ofValue_value (status : StepStatus) :
    StepStatus.ofValue status.value = .ok status := by
  cases status <;> simp [StepStatus.ofValue, StepStatus.value]

@[simp] theorem StopReason.ofValue_value (reason : StopReason) :
    StopReason.ofValue reason.value = .ok reason := by
  cases reason <;> simp [StopReason.ofValue, StopReason.value]

/-- `_parse_datetime(value, field_name, required=False)`. -/
def parseDatetime (value : Json) (fieldName : String) : Except StateError (Option DateTime) :=
  match value with
  | .null => .ok none
  | .str text =>
    match DateTime.fromisoformat text with
    | none => .error (.value ("Invalid isoformat string: '" ++ text ++ "'"))
    | some parsed => do
      ensureUtcDatetime parsed fieldName
      return some parsed
  | _ => .error (.validation (fieldName ++ " must be an ISO 8601 string"))

/-- `_parse_datetime(value, field_name, required=True)`. -/
def parseRequiredDatetime (value : Json) (fieldName : String) : Except StateError DateTime := do
  match ← parseDatetime value fieldName with
  | none => .error (.validation (fieldName ++ " is required"))
  | some parsed => return parsed

variable {t : DateTime}

theorem parseDatetime_isoformat (h : t.IsUtc) (fieldName : String) :
    parseDatetime (.str t.isoformat) fieldName = .ok (some t) := by
  simp [parseDatetime, DateTime.fromisoformat_isoformat h, ensureUtcDatetime, raiseIf, h, pure,
    Except.pure, bind, Except.bind]

theorem parseRequiredDatetime_isoformat (h : t.IsUtc) (fieldName : String) :
    parseRequiredDatetime (.str t.isoformat) fieldName = .ok t := by
  simp [parseRequiredDatetime, parseDatetime_isoformat h, pure, Except.pure, bind, Except.bind]

theorem parseDatetime_ofOption {t : Option DateTime} (h : ∀ u ∈ t, u.IsUtc) (fieldName : String) :
    parseDatetime (.ofOption (t.map DateTime.isoformat)) fieldName = .ok t := by
  cases t with
  | none => rfl
  | some u => exact parseDatetime_isoformat (h u rfl) fieldName

/-! ## Steps -/

namespace StepState

def fields (step : StepState) : List (String × Json) :=
  [("step_id", .str step.stepId), ("name", .str step.name), ("status", .str step.status.value),
    ("created_at", .str step.createdAt.isoformat),
    ("started_at", .ofOption (step.startedAt.map DateTime.isoformat)),
    ("ended_at", .ofOption (step.endedAt.map DateTime.isoformat)),
    ("error_code", .ofOption step.errorCode), ("error_message", .ofOption step.errorMessage)]

def toDict (step : StepState) : Except StateError Json := do
  step.validate
  return .obj step.fields

def fromDict (payload : List (String × Json)) : Except StateError StepState := do
  let status ← match payload.lookup "status" with
    | none => .error (.validation "step status is required")
    | some value => StepStatus.ofValue value.toStr
  let createdAt ← parseRequiredDatetime (getField payload "created_at") "step.created_at"
  let startedAt ← parseDatetime (getField payload "started_at") "step.started_at"
  let endedAt ← parseDatetime (getField payload "ended_at") "step.ended_at"
  let step : StepState :=
    { stepId := ((payload.lookup "step_id").getD (.str "")).toStr
      name := ((payload.lookup "name").getD (.str "")).toStr
      status, createdAt, startedAt, endedAt
      errorCode := optionalText (getField payload "error_code")
      errorMessage := optionalText (getField payload "error_message") }
  step.validate
  return step

variable {step : StepState}

theorem toDict_of_valid (h : step.Valid) : step.toDict = .ok (.obj step.fields) := by
  simp [toDict, validate_eq_ok_iff.mpr h, pure, Except.pure, bind, Except.bind]

theorem fromDict_fields (h : step.Valid) : fromDict step.fields = .ok step := by
  have hstarted : ∀ u ∈ step.startedAt, u.IsUtc := fun u hu => (h.started u hu).1
  have hended : ∀ u ∈ step.endedAt, u.IsUtc := fun u hu => (h.ended u hu).1
  have hvalidate : step.validate = .ok () := validate_eq_ok_iff.mpr h
  simp [fromDict, fields, getField, List.lookup_cons, parseRequiredDatetime_isoformat h.created,
    parseDatetime_ofOption hstarted, parseDatetime_ofOption hended, pure, Except.pure, bind,
    Except.bind, hvalidate]

end StepState

/-! ## Runs -/

/-- `sorted(state.active_step_ids)`. -/
def sortedIds (ids : Finset String) : List String :=
  Quot.liftOn ids.val (List.insertionSort (· ≤ ·)) fun a b h =>
    List.Perm.eq_of_pairwise (fun _ _ _ _ => le_antisymm) (List.pairwise_insertionSort _ a)
      (List.pairwise_insertionSort _ b)
      ((List.perm_insertionSort _ a).trans (h.trans (List.perm_insertionSort _ b).symm))

@[simp] theorem mem_sortedIds {ids : Finset String} {id : String} :
    id ∈ sortedIds ids ↔ id ∈ ids := by
  obtain ⟨ids, _⟩ := ids
  induction ids using Quot.ind with
  | mk => exact List.mem_insertionSort _

namespace AgentState

def toDict (state : AgentState) : Except StateError (List (String × Json)) := do
  state.validate
  let steps ← state.steps.sorted.values.mapM StepState.toDict
  return [("schema_version", .int state.schemaVersion), ("run_id", .str state.runId),
    ("status", .str state.status.value), ("created_at", .str state.createdAt.isoformat),
    ("updated_at", .str state.updatedAt.isoformat), ("steps", .arr steps),
    ("active_step_ids", .arr ((sortedIds state.activeStepIds).map .str)),
    ("stop_reason", .ofOption (state.stopReason.map StopReason.value)),
    ("final_output", .ofOption state.finalOutput), ("error_code", .ofOption state.errorCode),
    ("error_message", .ofOption state.errorMessage)]

/-- The loop of `from_dict` over the raw steps. -/
def readSteps : List Json → Dict String StepState → Except StateError (Dict String StepState)
  | [], steps => .ok steps
  | .obj payload :: rest, steps => do
    let step ← StepState.fromDict payload
    raiseIf (step.stepId ∈ steps.keys) (.validation "step_id must be unique")
    readSteps rest (steps.set step.stepId step)
  | _ :: _, _ => .error (.validation "each step must be an object")

/-- The stop reason of `from_dict`. -/
def readStopReason : Json → Except StateError (Option StopReason)
  | .null => .ok none
  | value => (StopReason.ofValue value.toStr).map some

/-- The version check of `from_dict`. -/
def checkVersion (payload : List (String × Json)) : Except StateError Unit :=
  match payload.lookup "schema_version" with
  | none => .error (.unsupportedVersion "AgentState schema_version is required")
  | some (.int version) =>
    raiseIf (version ≠ agentStateSchemaVersion)
      (.unsupportedVersion ("unsupported AgentState schema_version: " ++ toString version))
  | some value =>
    .error (.unsupportedVersion ("unsupported AgentState schema_version: " ++ value.toStr))

def fromDict (payload : List (String × Json)) : Except StateError AgentState := do
  checkVersion payload
  let status ← match payload.lookup "status" with
    | none => .error (.validation "status is required")
    | some value => RunStatus.ofValue value.toStr
  let stopReason ← readStopReason (getField payload "stop_reason")
  let steps ← match (payload.lookup "steps").getD (.arr []) with
    | .arr rawSteps => readSteps rawSteps Dict.empty
    | _ => .error (.validation "steps must be a list")
  let activeStepIds ← match (payload.lookup "active_step_ids").getD (.arr []) with
    | .arr rawActive => .ok (rawActive.map Json.toStr).toFinset
    | _ => .error (.validation "active_step_ids must be a list")
  let createdAt ← parseRequiredDatetime (getField payload "created_at") "created_at"
  let updatedAt ← parseRequiredDatetime (getField payload "updated_at") "updated_at"
  let state : AgentState :=
    { runId := ((payload.lookup "run_id").getD (.str "")).toStr
      schemaVersion := agentStateSchemaVersion
      status, createdAt, updatedAt, steps, activeStepIds, stopReason
      finalOutput := optionalText (getField payload "final_output")
      errorCode := optionalText (getField payload "error_code")
      errorMessage := optionalText (getField payload "error_message") }
  state.validate
  return state

def clone (state : AgentState) : Except StateError AgentState := do
  let payload ← state.toDict
  fromDict payload

/-- The steps that are written are read back. -/
theorem readSteps_fields : ∀ (entries : List (String × StepState)) (acc : Dict String StepState),
    (∀ e ∈ entries, e.2.stepId = e.1 ∧ e.2.Valid) → (entries.map Prod.fst).Nodup →
    (∀ e ∈ entries, e.1 ∉ acc.keys) →
    ∃ steps, readSteps (entries.map fun e => .obj e.2.fields) acc = .ok steps ∧
      steps.entries = acc.entries ++ entries
  | [], acc, _, _, _ => ⟨acc, rfl, by simp⟩
  | (stepId, step) :: rest, acc, hvalid, hnodup, hfresh => by
    obtain ⟨hid, hstep⟩ := hvalid (stepId, step) (by simp)
    simp only at hid
    subst hid
    have hnot : step.stepId ∉ acc.keys := hfresh _ (List.mem_cons_self ..)
    simp only [List.map_cons, List.nodup_cons] at hnodup
    obtain ⟨steps, hread, hentries⟩ := readSteps_fields rest (acc.set step.stepId step)
      (fun e he => hvalid e (List.mem_cons_of_mem _ he)) hnodup.2 (by
        intro e he hmem
        rcases Dict.mem_keys_set.mp hmem with h | h
        · exact hnodup.1 (h ▸ List.mem_map_of_mem (f := Prod.fst) he)
        · exact hfresh e (List.mem_cons_of_mem _ he) h)
    refine ⟨steps, ?_, ?_⟩
    · simp [readSteps, StepState.fromDict_fields hstep, raiseIf, hnot, hread, bind, Except.bind]
    · rw [hentries, Dict.entries_set_of_not_mem hnot]
      simp

theorem mapM_toDict_of_valid : ∀ steps : List StepState, (∀ step ∈ steps, step.Valid) →
    steps.mapM StepState.toDict = .ok (steps.map fun step => .obj step.fields)
  | [], _ => rfl
  | step :: rest, h => by
    rw [List.mapM_cons, StepState.toDict_of_valid (h step (by simp)),
      mapM_toDict_of_valid rest fun t ht => h t (List.mem_cons_of_mem _ ht)]
    rfl

theorem readStopReason_value (reason : Option StopReason) :
    readStopReason (.ofOption (reason.map StopReason.value)) = .ok reason := by
  cases reason with
  | none => rfl
  | some => simp [readStopReason, Json.ofOption, Except.map]

/-- A clone of a valid state has the same contents. -/
theorem clone_eq {state : AgentState} (h : state.Valid) :
    state.clone = .ok { state with steps := state.steps.sorted } := by
  have hsorted : ∀ e ∈ state.steps.sorted.entries, e.2.stepId = e.1 ∧ e.2.Valid := by
    rintro ⟨k, step⟩ he
    exact h.step k step (by rw [← Dict.get?_sorted]; exact Dict.get?_eq_some_iff.mpr he)
  have hwrite : state.steps.sorted.values.mapM StepState.toDict =
      .ok (state.steps.sorted.entries.map fun e => .obj e.2.fields) := by
    rw [mapM_toDict_of_valid]
    · simp [Dict.values, Function.comp_def]
    · intro step hstep
      obtain ⟨e, he, rfl⟩ := List.mem_map.mp hstep
      exact (hsorted e he).2
  obtain ⟨steps, hread, hentries⟩ := readSteps_fields state.steps.sorted.entries Dict.empty hsorted
    state.steps.sorted.nodup (by simp)
  obtain rfl : steps = state.steps.sorted := Dict.ext_entries (by simpa using hentries)
  have hactive : (((sortedIds state.activeStepIds).map Json.str).map Json.toStr).toFinset =
      state.activeStepIds := by
    ext k
    simp
  have hvalid : ({ state with steps := state.steps.sorted } : AgentState).validate = .ok () :=
    validate_eq_ok_iff.mpr { h with
      step := by simpa using h.step
      active := by simpa using h.active }
  have hversion := h.version
  simp only [clone, toDict, validate_eq_ok_iff.mpr h, hwrite, pure, Except.pure, bind, Except.bind]
  simp [fromDict, checkVersion, getField, List.lookup_cons, hversion, raiseIf, readStopReason_value,
    hread, parseRequiredDatetime_isoformat h.created, parseRequiredDatetime_isoformat h.updated,
    pure, Except.pure, bind, Except.bind]
  rw [List.map_map] at hactive
  rw [hversion] at hvalid
  rw [hactive, hvalid]

end AgentState

end LocalAgent.Runtime
