import LocalAgent.Lib.DateTime
import LocalAgent.Lib.Dict
import LocalAgent.Lib.Json
import LocalAgent.Lib.Op
import LocalAgent.Lib.Sha256
import LocalAgent.Lib.Text

/-!
# LocalAgent.Runtime.Events — `core/runtime/events.py`

The event envelope and its journal projection.  A payload is its class together with the values of
its attributes; the tables say which attributes of which class a journal may keep.

* `RuntimeEvent.fromDraft`: the sequence owner puts a draft in order; `__post_init__` runs on the
  result.
* `RuntimeEvent.journalPayload`: the `safe_payload` of `to_journal_dict`, the part of the event
  that reaches the journal, checked by `validateJournalPayload`.
-/

namespace LocalAgent.Runtime

/-- The exceptions of `events.py`. -/
inductive EventError where
  | value (message : String)
  | type (message : String)
  /-- reading an attribute a payload does not have -/
  | attribute (name : String)
  deriving DecidableEq

/-! ## Event types and payload tables -/

inductive RuntimeEventType where
  | runStarted | planningStarted | planCreated | stepStarted | modelStarted | modelCompleted
  | toolStarted | toolCompleted | toolApprovalRequested | toolApprovalDecided | retrievalStarted
  | retrievalStageCompleted | retrievalCompleted | outputDelta | stepCompleted
  | memoryFormationCompleted | episodicMemoryFormationCompleted | memoryLifecycleResolved
  | memoryRetrievalCompleted | budgetExhausted | timeout | error | cancellation | runCompleted
  deriving DecidableEq

def RuntimeEventType.value : RuntimeEventType → String
  | .runStarted => "RUN_STARTED" | .planningStarted => "PLANNING_STARTED"
  | .planCreated => "PLAN_CREATED" | .stepStarted => "STEP_STARTED"
  | .modelStarted => "MODEL_STARTED" | .modelCompleted => "MODEL_COMPLETED"
  | .toolStarted => "TOOL_STARTED" | .toolCompleted => "TOOL_COMPLETED"
  | .toolApprovalRequested => "TOOL_APPROVAL_REQUESTED"
  | .toolApprovalDecided => "TOOL_APPROVAL_DECIDED" | .retrievalStarted => "RETRIEVAL_STARTED"
  | .retrievalStageCompleted => "RETRIEVAL_STAGE_COMPLETED"
  | .retrievalCompleted => "RETRIEVAL_COMPLETED" | .outputDelta => "OUTPUT_DELTA"
  | .stepCompleted => "STEP_COMPLETED" | .memoryFormationCompleted => "MEMORY_FORMATION_COMPLETED"
  | .episodicMemoryFormationCompleted => "EPISODIC_MEMORY_FORMATION_COMPLETED"
  | .memoryLifecycleResolved => "MEMORY_LIFECYCLE_RESOLVED"
  | .memoryRetrievalCompleted => "MEMORY_RETRIEVAL_COMPLETED"
  | .budgetExhausted => "BUDGET_EXHAUSTED" | .timeout => "TIMEOUT" | .error => "ERROR"
  | .cancellation => "CANCELLATION" | .runCompleted => "RUN_COMPLETED"

inductive PayloadType where
  | runStarted | planningStarted | planCreated | stepStarted | modelStarted | modelCompleted
  | toolStarted | toolCompleted | toolApprovalRequested | toolApprovalDecided | retrievalStarted
  | retrievalStageCompleted | retrievalCompleted | outputDelta | stepCompleted
  | memoryFormationCompleted | episodicMemoryFormationCompleted | memoryLifecycleResolved
  | memoryRetrievalCompleted | budgetExhausted | timeout | error | cancellation | runCompleted
  deriving DecidableEq

/-- `__name__` of the class. -/
def PayloadType.name : PayloadType → String
  | .runStarted => "RunStartedPayload" | .planningStarted => "PlanningStartedPayload"
  | .planCreated => "PlanCreatedPayload" | .stepStarted => "StepStartedPayload"
  | .modelStarted => "ModelStartedPayload" | .modelCompleted => "ModelCompletedPayload"
  | .toolStarted => "ToolStartedPayload" | .toolCompleted => "ToolCompletedPayload"
  | .toolApprovalRequested => "ToolApprovalRequestedPayload"
  | .toolApprovalDecided => "ToolApprovalDecidedPayload"
  | .retrievalStarted => "RetrievalStartedPayload"
  | .retrievalStageCompleted => "RetrievalStageCompletedPayload"
  | .retrievalCompleted => "RetrievalCompletedPayload" | .outputDelta => "OutputDeltaPayload"
  | .stepCompleted => "StepCompletedPayload"
  | .memoryFormationCompleted => "MemoryFormationCompletedPayload"
  | .episodicMemoryFormationCompleted => "EpisodicMemoryFormationCompletedPayload"
  | .memoryLifecycleResolved => "MemoryLifecycleResolvedPayload"
  | .memoryRetrievalCompleted => "MemoryRetrievalCompletedPayload"
  | .budgetExhausted => "BudgetExhaustedPayload" | .timeout => "TimeoutPayload"
  | .error => "ErrorPayload" | .cancellation => "CancellationPayload"
  | .runCompleted => "RunCompletedPayload"

/-- `_PAYLOAD_TYPES`. -/
def RuntimeEventType.payloadType : RuntimeEventType → PayloadType
  | .runStarted => .runStarted | .planningStarted => .planningStarted
  | .planCreated => .planCreated | .stepStarted => .stepStarted | .modelStarted => .modelStarted
  | .modelCompleted => .modelCompleted | .toolStarted => .toolStarted
  | .toolCompleted => .toolCompleted | .toolApprovalRequested => .toolApprovalRequested
  | .toolApprovalDecided => .toolApprovalDecided | .retrievalStarted => .retrievalStarted
  | .retrievalStageCompleted => .retrievalStageCompleted
  | .retrievalCompleted => .retrievalCompleted | .outputDelta => .outputDelta
  | .stepCompleted => .stepCompleted | .memoryFormationCompleted => .memoryFormationCompleted
  | .episodicMemoryFormationCompleted => .episodicMemoryFormationCompleted
  | .memoryLifecycleResolved => .memoryLifecycleResolved
  | .memoryRetrievalCompleted => .memoryRetrievalCompleted | .budgetExhausted => .budgetExhausted
  | .timeout => .timeout | .error => .error | .cancellation => .cancellation
  | .runCompleted => .runCompleted

/-- `_JOURNAL_PAYLOAD_FIELDS`: the attributes a journal record keeps of a payload. -/
def PayloadType.journalFields : PayloadType → Option (List String)
  | .runStarted => some ["status"]
  | .planningStarted => some ["planner_schema_version", "configured_timeout_ms"]
  | .planCreated => some
      ["plan_id", "plan_version", "fingerprint", "step_count", "planning_source", "shape"]
  | .stepStarted => some
      ["status", "agent_id", "execution_kind", "output_policy", "dependency_count"]
  | .modelStarted => some
      ["profile_id", "candidate_index", "retry_index", "routing_adjustment", "breaker_key"]
  | .modelCompleted => some
      ["profile_id", "candidate_index", "retry_index", "succeeded", "safe_error_code",
       "duration_ms"]
  | .toolStarted => some
      ["tool_name", "invocation_id", "attempt_id", "retry_index", "resource_key_digest"]
  | .toolCompleted => some
      ["tool_name", "succeeded", "safe_error_code", "invocation_id", "attempt_id", "retry_index",
       "side_effect_state", "retry_disposition", "resource_key_digest", "worker_terminated",
       "execution_detached", "resource_release_pending", "duration_ms", "status"]
  | .toolApprovalRequested => some
      ["approval_id", "tool_name", "invocation_identity_digest", "arguments_digest",
       "invocation_binding_digest", "idempotency_key_digest", "risk_level", "risk_facts"]
  | .toolApprovalDecided => some
      ["approval_id", "invocation_identity_digest", "invocation_binding_digest",
       "decision_status", "actor_id_digest"]
  | .retrievalStarted => some
      ["retrieval_id", "query_digest", "collection_count", "top_k", "retrieval_strategy",
       "generation_id", "provenance_sha256"]
  | .retrievalStageCompleted => some
      ["stage", "status", "duration_ms", "input_count", "output_count", "degraded",
       "budget_usage", "safe_error_code", "worker_terminated", "execution_detached",
       "background_work_pending"]
  | .retrievalCompleted => some
      ["retrieval_id", "status", "duration_ms", "chunk_count", "citation_count", "degraded",
       "budget_usage", "safe_error_code", "worker_terminated", "execution_detached",
       "background_work_pending", "retrieval_strategy", "generation_id", "provenance_sha256",
       "dense_candidate_count", "bm25_candidate_count", "rrf_fused_count", "dense_latency_ms",
       "bm25_latency_ms", "rrf_latency_ms"]
  | .outputDelta => none
  | .stepCompleted => some
      ["status", "safe_error_code", "duration_ms", "result_char_count", "delivery_status",
       "delivery_duration_ms", "execution_kind", "output_policy"]
  | .memoryFormationCompleted => some
      ["exchange_id", "agent_id", "memory_scope", "formation_method", "status", "safe_error_code",
       "schema_version", "proposed_count", "accepted_count", "ignored_count", "persisted_count",
       "reused_count", "failed_count", "formation_total_duration_ms",
       "model_extraction_duration_ms", "persistence_duration_ms", "candidate_outcomes"]
  | .episodicMemoryFormationCompleted => some
      ["origin_run_id", "outcome", "memory_id", "lesson_status", "safe_reason", "episode_kind",
       "origin_step_id", "verified_performer_agent_id", "owner_match"]
  | .memoryLifecycleResolved => some
      ["exchange_id", "agent_id", "memory_scope", "memory_type", "operation", "outcome",
       "candidate_outcome", "winner_memory_id", "new_memory_id", "affected_count",
       "affected_transitions", "ids_truncated", "omitted_count", "safe_reason", "safe_error_code",
       "resolution_duration_ms", "mutation_duration_ms", "schema_version"]
  | .memoryRetrievalCompleted => some
      ["retrieval_method", "ranking_method", "status", "schema_version", "candidate_count",
       "eligible_count", "selected_count", "context_record_count", "malformed_count",
       "omitted_count", "budget_used_chars", "registered_selected_count", "open_selected_count",
       "duration_ms", "planning_injected", "direct_entry_supplied", "safe_error_code",
       "episodic_candidate_count", "episodic_selected_count", "episodic_context_record_count"]
  | .budgetExhausted => some ["component", "dimension", "safe_error_code"]
  | .timeout => some ["component", "safe_error_code"]
  | .error => some
      ["safe_error_code", "safe_message", "component", "fatal", "delivery_status",
       "final_step_status", "memory_commit_status"]
  | .cancellation => some ["reason", "component"]
  | .runCompleted => some
      ["status", "stop_reason", "duration_ms", "safe_error_code", "delivery_status",
       "final_step_status", "memory_commit_status", "memory_duration_ms", "shape"]

/-- `_LEGACY_OPTIONAL_JOURNAL_FIELDS`. -/
def RuntimeEventType.legacyOptionalFields : RuntimeEventType → List String
  | .planCreated => ["shape"]
  | .stepStarted => ["agent_id", "execution_kind", "output_policy", "dependency_count"]
  | .modelCompleted => ["duration_ms"]
  | .toolCompleted => ["duration_ms", "status"]
  | .toolApprovalRequested => ["invocation_binding_digest"]
  | .toolApprovalDecided => ["invocation_binding_digest"]
  | .retrievalStarted => ["retrieval_strategy", "generation_id", "provenance_sha256"]
  | .retrievalCompleted =>
      ["retrieval_strategy", "generation_id", "provenance_sha256", "dense_candidate_count",
       "bm25_candidate_count", "rrf_fused_count", "dense_latency_ms", "bm25_latency_ms",
       "rrf_latency_ms"]
  | .stepCompleted =>
      ["duration_ms", "result_char_count", "delivery_status", "delivery_duration_ms",
       "execution_kind", "output_policy"]
  | .budgetExhausted => ["dimension"]
  | .error => ["delivery_status", "final_step_status", "memory_commit_status"]
  | .runCompleted =>
      ["duration_ms", "safe_error_code", "delivery_status", "final_step_status",
       "memory_commit_status", "memory_duration_ms", "shape"]
  | _ => []

/-- `_TOOL_EVIDENCE_FIELDS`. -/
def toolEvidenceFields : List String :=
  ["tool_evidence_schema_version", "invocation_identity_digest", "attempt_identity_digest",
   "side_effect_kind", "idempotency_kind", "idempotency_key_digest", "replay_supported",
   "side_effect_state", "compensation_state", "retry_disposition", "outcome_classification",
   "execution_detached", "worker_terminated", "provider_started", "safe_error_code"]

/-- `_TOOL_STARTED_EVIDENCE_JOURNAL_FIELDS`. -/
def toolStartedEvidenceJournalFields : List String :=
  ["tool_name", "retry_index"] ++ toolEvidenceFields

/-- `_TOOL_COMPLETED_EVIDENCE_JOURNAL_FIELDS`. -/
def toolCompletedEvidenceJournalFields : List String :=
  ["tool_name", "succeeded", "retry_index", "duration_ms", "status"] ++ toolEvidenceFields ++
    ["result_present", "result_digest"]

/-! ## Payloads -/

/-- The retrieval counters of a payload, non-negative by `_require_index`. -/
structure RetrievalBudgetPayload where
  retrievalCalls : ℕ
  embeddingCalls : ℕ
  vectorQueries : ℕ
  keywordQueries : ℕ
  bm25Queries : ℕ
  rrfFusions : ℕ
  documentReads : ℕ
  contextChars : ℕ
  deriving DecidableEq

/-- The counters in the order of `_RETRIEVAL_BUDGET_JOURNAL_FIELDS_V2`. -/
def RetrievalBudgetPayload.toJson (b : RetrievalBudgetPayload) : Json :=
  .obj [("retrieval_calls", .int b.retrievalCalls), ("embedding_calls", .int b.embeddingCalls),
    ("vector_queries", .int b.vectorQueries), ("keyword_queries", .int b.keywordQueries),
    ("document_reads", .int b.documentReads), ("context_chars", .int b.contextChars),
    ("bm25_queries", .int b.bm25Queries), ("rrf_fusions", .int b.rrfFusions)]

inductive Attr where
  | none
  | bool (b : Bool)
  | int (n : ℤ)
  | str (s : String)
  | budget (b : RetrievalBudgetPayload)
  /-- a value of any other type -/
  | other
  deriving DecidableEq

def toJournalValue : Attr → Except EventError Json
  | .none => .ok .null
  | .bool b => .ok (.bool b)
  | .int n => .ok (.int n)
  | .str s => .ok (.str s)
  | .budget b => .ok b.toJson
  | .other => .error (.type "Journal Payload 包含未允许的值类型")

/-- An instance of a payload class: the class and the values of its attributes. -/
structure RuntimeEventPayload where
  type : PayloadType
  attrs : Dict String Attr
  deriving DecidableEq

namespace RuntimeEventPayload

/-- `getattr(payload, name)`. -/
def getattr (payload : RuntimeEventPayload) (name : String) : Except EventError Attr :=
  match payload.attrs.get? name with
  | some value => .ok value
  | none => .error (.attribute name)

/-- `payload.tool_evidence_schema_version is not None`. -/
def hasToolEvidence (payload : RuntimeEventPayload) : Except EventError Bool := do
  let version ← payload.getattr "tool_evidence_schema_version"
  return version ≠ .none

def journalPayloadFields (payload : RuntimeEventPayload) :
    Except EventError (Option (List String)) :=
  match payload.type with
  | .toolStarted => do
    if ← payload.hasToolEvidence then return some toolStartedEvidenceJournalFields
    return PayloadType.toolStarted.journalFields
  | .toolCompleted => do
    if ← payload.hasToolEvidence then return some toolCompletedEvidenceJournalFields
    return PayloadType.toolCompleted.journalFields
  | type => .ok type.journalFields

end RuntimeEventPayload

/-! ## The journal payload -/

/-- The journal payload of an event, a dictionary of JSON values. -/
abbrev SafePayload := Dict String Json

namespace SafePayload

/-- `safe_payload.get(name)`. -/
def get (payload : SafePayload) (name : String) : Json := (payload.get? name).getD .null

/-- `set(safe_payload) <= set(names)`. -/
def fieldsWithin (payload : SafePayload) (names : List String) : Bool :=
  payload.keys.all (· ∈ names)

/-- `set(names) <= set(safe_payload)`. -/
def hasFields (payload : SafePayload) (names : List String) : Bool :=
  names.all (· ∈ payload.keys)

end SafePayload

/-- A string of 64 lower-case hexadecimal digits. -/
def isSha256Json : Json → Bool
  | .str s => Sha256.isHexDigest s
  | _ => false

/-- A non-negative integer. -/
def isIndexJson : Json → Bool
  | .int n => 0 ≤ n
  | _ => false

def isTextJson : Json → Bool
  | .str s => !Text.isBlank s
  | _ => false

def isBoolJson : Json → Bool
  | .bool _ => true
  | _ => false

def isFalseJson : Json → Bool
  | .bool b => !b
  | _ => false

def isNullJson : Json → Bool
  | .null => true
  | _ => false

/-- `TOOL_EVIDENCE_SCHEMA_VERSION`, as an integer and not as a bool. -/
def isToolEvidenceVersion : Json → Bool
  | .int n => n == 1
  | _ => false

/-- The journal payload of an `OutputDeltaPayload`. -/
def validateOutputDeltaPayload (payload : SafePayload) : Except EventError Unit := do
  raiseIf (¬ (payload.fieldsWithin ["text_length", "text_digest"] ∧
      payload.hasFields ["text_length", "text_digest"]))
    (.value "OutputDelta Journal Payload 字段不匹配")
  raiseIf (¬ isIndexJson (payload.get "text_length")) (.value "text_length 必须是非负整数")
  raiseIf (¬ isSha256Json (payload.get "text_digest")) (.value "text_digest 必须是小写 SHA-256")

def validatePersistedToolEvidence (payload : SafePayload) : Except EventError Unit := do
  raiseIf (¬ isToolEvidenceVersion (payload.get "tool_evidence_schema_version"))
    (.value "unsupported tool evidence payload schema")
  ["invocation_identity_digest", "attempt_identity_digest"].forM fun name =>
    raiseIf (¬ isSha256Json (payload.get name))
      (.value (name ++ " must be a lowercase SHA-256 digest"))
  raiseIf (¬ isNullJson (payload.get "idempotency_key_digest") ∧
      ¬ isSha256Json (payload.get "idempotency_key_digest"))
    (.value "idempotency_key_digest must be a lowercase SHA-256 digest")
  raiseIf (¬ isNullJson (payload.get "result_present") ∧
      ¬ isBoolJson (payload.get "result_present"))
    (.type "result_present must be bool")
  raiseIf (¬ isNullJson (payload.get "result_digest") ∧
      ¬ isSha256Json (payload.get "result_digest"))
    (.value "result_digest must be a lowercase SHA-256 digest")
  raiseIf (isFalseJson (payload.get "result_present") ∧
      ¬ isNullJson (payload.get "result_digest"))
    (.value "result_digest requires result_present=true")
  ["side_effect_kind", "idempotency_kind", "side_effect_state", "compensation_state",
    "retry_disposition", "outcome_classification"].forM fun name =>
      raiseIf (¬ isTextJson (payload.get name)) (.value (name ++ " must be a non-empty string"))
  ["replay_supported", "execution_detached", "worker_terminated", "provider_started"].forM
    fun name => raiseIf (¬ isBoolJson (payload.get name)) (.value (name ++ " must be bool"))

/-- `budget_fields`, and with the last two `budget_fields_v2`. -/
def budgetFields : List String :=
  ["retrieval_calls", "embedding_calls", "vector_queries", "keyword_queries", "document_reads",
   "context_chars"]

/-- `set(value) in (budget_fields, budget_fields_v2)`, with non-negative counts. -/
def validateBudgetUsage : Json → Except EventError Unit
  | .obj fields => do
    let names := fields.map Prod.fst
    let same (expected : List String) := names.all (· ∈ expected) && expected.all (· ∈ names)
    raiseIf (¬ (same budgetFields ∨ same (budgetFields ++ ["bm25_queries", "rrf_fusions"])))
      (.value "budget_usage 字段不匹配")
    fields.forM fun field =>
      raiseIf (¬ isIndexJson field.2) (.value "budget_usage 计数必须是非负整数")
  | _ => .error (.value "budget_usage 字段不匹配")

/-- The check of one entry of a journal payload. -/
def validateJournalField (name : String) (value : Json) : Except EventError Unit :=
  if name = "budget_usage" then validateBudgetUsage value
  else
    match value with
    | .null => .ok ()
    | .bool _ => .ok ()
    | .int n => raiseIf (n < 0) (.value (name ++ " 必须是非负整数"))
    | .str s => raiseIf (Text.isBlank s) (.value (name ++ " 包含不允许的 Journal 值"))
    | _ => .error (.value (name ++ " 包含不允许的 Journal 值"))

/-- The fields a journal payload may have and those of them it may lack. -/
def expectedJournalFields (eventType : RuntimeEventType) (payload : SafePayload) :
    Except EventError (Option (List String) × List String) :=
  if eventType = .toolStarted ∧ ¬ isNullJson (payload.get "tool_evidence_schema_version") then do
    validatePersistedToolEvidence payload
    return (some toolStartedEvidenceJournalFields, [])
  else if eventType = .toolCompleted ∧
      ¬ isNullJson (payload.get "tool_evidence_schema_version") then do
    validatePersistedToolEvidence payload
    return (some toolCompletedEvidenceJournalFields, ["result_present", "result_digest"])
  else
    .ok (eventType.payloadType.journalFields, eventType.legacyOptionalFields)

def validateJournalPayload (eventType : RuntimeEventType) (payload : SafePayload) :
    Except EventError Unit :=
  if eventType = .outputDelta then validateOutputDeltaPayload payload
  else do
    let (expected, optional) ← expectedJournalFields eventType payload
    match expected with
    | none => throw (.value "Event Type 没有 Journal Payload allowlist")
    | some expected =>
      raiseIf (¬ (payload.fieldsWithin expected ∧
          payload.hasFields (expected.filter (· ∉ optional))))
        (.value "Journal Payload 字段与 Event Type 不匹配")
      payload.entries.forM fun entry => validateJournalField entry.1 entry.2

/-! ## Events -/

def requireText (value fieldName : String) : Except EventError Unit :=
  raiseIf (Text.isBlank value) (.value (fieldName ++ " 必须是非空字符串"))

def validateCommon (runId traceId : String) (eventType : RuntimeEventType) (component : String)
    (payload : RuntimeEventPayload) (stepId : Option String) (stepSequence : Option ℕ) :
    Except EventError Unit := do
  requireText runId "run_id"
  requireText traceId "trace_id"
  requireText component "component"
  let expected := eventType.payloadType
  raiseIf (payload.type ≠ expected)
    (.type (eventType.value ++ " 必须使用 " ++ expected.name ++ "，不能使用 " ++ payload.type.name))
  match stepId with
  | none => raiseIf (stepSequence ≠ none) (.value "没有 step_id 时不能设置 step_sequence")
  | some stepId =>
    requireText stepId "step_id"
    raiseIf (stepSequence.getD 0 = 0) (.value "Step Event 必须使用正整数 step_sequence")

structure RuntimeEventDraft where
  runId : String
  traceId : String
  eventType : RuntimeEventType
  component : String
  payload : RuntimeEventPayload
  stepId : Option String
  stepSequence : Option ℕ
  spanId : Option String
  parentSpanId : Option String
  deriving DecidableEq

def RuntimeEventDraft.postInit (draft : RuntimeEventDraft) : Except EventError Unit :=
  validateCommon draft.runId draft.traceId draft.eventType draft.component draft.payload
    draft.stepId draft.stepSequence

/-- The envelope the channel has put in order. -/
structure RuntimeEvent where
  schemaVersion : ℕ
  eventId : String
  runId : String
  traceId : String
  sequence : ℕ
  eventType : RuntimeEventType
  emittedAt : DateTime
  component : String
  payload : RuntimeEventPayload
  stepId : Option String
  stepSequence : Option ℕ
  spanId : Option String
  parentSpanId : Option String
  deriving DecidableEq

/-- `RUNTIME_EVENT_SCHEMA_VERSION`. -/
def runtimeEventSchemaVersion : ℕ := 2

namespace RuntimeEvent

def postInit (event : RuntimeEvent) : Except EventError Unit := do
  raiseIf (event.schemaVersion ≠ 1 ∧ event.schemaVersion ≠ runtimeEventSchemaVersion)
    (.value "不支持的 Runtime Event schema_version")
  requireText event.eventId "event_id"
  raiseIf (event.sequence = 0) (.value "sequence 必须是正整数")
  raiseIf (¬ event.emittedAt.IsUtc) (.value "emitted_at 必须是 UTC 时间")
  validateCommon event.runId event.traceId event.eventType event.component event.payload
    event.stepId event.stepSequence

/-- The envelope of a draft, with the fresh `uuid4().hex` and the clock reading as arguments. -/
def ofDraft (draft : RuntimeEventDraft) (sequence : ℕ) (eventId : String) (now : DateTime) :
    RuntimeEvent :=
  ⟨runtimeEventSchemaVersion, eventId, draft.runId, draft.traceId, sequence, draft.eventType, now,
    draft.component, draft.payload, draft.stepId, draft.stepSequence, draft.spanId,
    draft.parentSpanId⟩

/-- `from_draft`: the envelope, when its `__post_init__` accepts it. -/
def fromDraft (draft : RuntimeEventDraft) (sequence : ℕ) (eventId : String) (now : DateTime) :
    Except EventError RuntimeEvent := do
  let event := ofDraft draft sequence eventId now
  event.postInit
  return event

theorem eq_of_fromDraft {draft : RuntimeEventDraft} {sequence : ℕ} {eventId : String}
    {now : DateTime} {event : RuntimeEvent}
    (h : fromDraft draft sequence eventId now = .ok event) :
    event = ofDraft draft sequence eventId now := by
  obtain ⟨-, hevent⟩ := seq_eq_ok.mp h
  exact (Except.ok.inj hevent).symm

/-- The attributes a journal keeps, before they are checked. -/
def projectPayload (event : RuntimeEvent) : Except EventError SafePayload :=
  if event.payload.type = .outputDelta then do
    match ← event.payload.getattr "text" with
    | .str text =>
      return (Dict.empty.set "text_length" (.int text.length)).set "text_digest"
        (.str (Sha256.hexdigest text))
    | _ => throw (.type "text 必须是字符串")
  else do
    match ← event.payload.journalPayloadFields with
    | none => throw (.type "Runtime Event Payload 没有 Journal allowlist")
    | some fields =>
      fields.foldlM (fun payload name => do
        let value ← event.payload.getattr name
        return payload.set name (← toJournalValue value)) Dict.empty

/-- The `safe_payload` of `to_journal_dict`; the other entries of that dictionary are the fields of
the event. -/
def journalPayload (event : RuntimeEvent) : Except EventError SafePayload := do
  let payload ← event.projectPayload
  validateJournalPayload event.eventType payload
  return payload

end RuntimeEvent

end LocalAgent.Runtime
