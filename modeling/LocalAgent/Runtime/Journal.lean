import LocalAgent.Runtime.Events

/-!
# LocalAgent.Runtime.Journal — `core/runtime/event_journal.py`, `event_journal_store.py`

Journal records and the in-memory journal.  A record keeps the identity and the order of its event
and the digests of what it stores; its two digest fields are digests by type, so that the check of
their form in `__post_init__` has nothing left to do.

The in-memory journal keeps two indices, by event id and by run and sequence.  `appendDecision` is
the rule both journals of the source share.
-/

namespace LocalAgent.Runtime

/-! ## Records -/

/-- `JOURNAL_SCHEMA_VERSION`. -/
def journalSchemaVersion : ℕ := 2

/-- `MAX_READ_LIMIT`. -/
def maxReadLimit : ℤ := 1000

inductive JournalAppendStatus where
  | appended | duplicate
  deriving DecidableEq

inductive JournalErrorCode where
  | eventIdConflict | sequenceConflict | outOfOrder | runAlreadyTerminal | journalAppendFailed
  | journalCorrupted
  deriving DecidableEq

structure JournalError where
  errorCode : JournalErrorCode
  safeMessage : String
  deriving DecidableEq

/-- `_require_positive_int`. -/
def requirePositive (value : ℕ) (fieldName : String) : Except EventError Unit :=
  raiseIf (value = 0) (.value (fieldName ++ " 必须是正整数且不能是 bool"))

def requireUtc (value : DateTime) (fieldName : String) : Except EventError Unit :=
  raiseIf (¬ value.IsUtc) (.value (fieldName ++ " 必须是 timezone-aware UTC"))

/-- `_digest`: the SHA-256 of the canonical JSON. -/
def jsonDigest (value : Json) : Sha256.Digest := Sha256.digest value.canonical

/-- An optional number as JSON. -/
def Json.ofNat? : Option ℕ → Json
  | none => .null
  | some n => .int n

structure JournalRecord where
  journalSchemaVersion : ℕ
  eventSchemaVersion : ℕ
  eventId : String
  runId : String
  traceId : String
  sequence : ℕ
  emittedAt : DateTime
  journaledAt : DateTime
  eventType : RuntimeEventType
  component : String
  safePayload : SafePayload
  payloadDigest : Sha256.Digest
  eventDigest : Sha256.Digest
  stepId : Option String
  stepSequence : Option ℕ
  spanId : Option String
  parentSpanId : Option String

namespace JournalRecord

def postInit (record : JournalRecord) : Except EventError Unit := do
  requirePositive record.journalSchemaVersion "journal_schema_version"
  raiseIf (record.journalSchemaVersion ≠ Runtime.journalSchemaVersion)
    (.value "不支持的 journal_schema_version")
  requirePositive record.eventSchemaVersion "event_schema_version"
  requireText record.eventId "event_id"
  requireText record.runId "run_id"
  requireText record.traceId "trace_id"
  requirePositive record.sequence "sequence"
  requireUtc record.emittedAt "emitted_at"
  requireUtc record.journaledAt "journaled_at"
  requireText record.component "component"
  validateJournalPayload record.eventType record.safePayload
  match record.stepId with
  | none =>
    raiseIf (record.stepSequence ≠ none) (.value "没有 step_id 时不能设置 step_sequence")
  | some stepId =>
    requireText stepId "step_id"
    requirePositive (record.stepSequence.getD 0) "step_sequence"
  record.spanId.toList.forM (requireText · "span_id")
  record.parentSpanId.toList.forM (requireText · "parent_span_id")

/-- The `digest_source` of `from_event`. -/
def digestSource (event : RuntimeEvent) (safePayload : SafePayload)
    (payloadDigest : Sha256.Digest) : Json :=
  .obj [("journal_schema_version", .int Runtime.journalSchemaVersion),
    ("event_schema_version", .int event.schemaVersion), ("event_id", .str event.eventId),
    ("run_id", .str event.runId), ("trace_id", .str event.traceId),
    ("sequence", .int event.sequence), ("emitted_at", .str event.emittedAt.isoformat),
    ("event_type", .str event.eventType.value), ("component", .str event.component),
    ("step_id", .ofOption event.stepId), ("step_sequence", Json.ofNat? event.stepSequence),
    ("safe_payload", .obj safePayload.entries), ("payload_digest", .str payloadDigest.text),
    ("span_id", .ofOption event.spanId), ("parent_span_id", .ofOption event.parentSpanId)]

def eventDigestSource (record : JournalRecord) (payloadDigest : Sha256.Digest) : Json :=
  .obj [("journal_schema_version", .int record.journalSchemaVersion),
    ("event_schema_version", .int record.eventSchemaVersion), ("event_id", .str record.eventId),
    ("run_id", .str record.runId), ("trace_id", .str record.traceId),
    ("sequence", .int record.sequence), ("emitted_at", .str record.emittedAt.isoformat),
    ("event_type", .str record.eventType.value), ("component", .str record.component),
    ("step_id", .ofOption record.stepId), ("step_sequence", Json.ofNat? record.stepSequence),
    ("safe_payload", .obj record.safePayload.entries),
    ("payload_digest", .str payloadDigest.text), ("span_id", .ofOption record.spanId),
    ("parent_span_id", .ofOption record.parentSpanId)]

def ofEvent (event : RuntimeEvent) (safePayload : SafePayload) (journaledAt : DateTime) :
    JournalRecord :=
  let payloadDigest := jsonDigest (.obj safePayload.entries)
  ⟨Runtime.journalSchemaVersion, event.schemaVersion, event.eventId, event.runId, event.traceId,
    event.sequence, event.emittedAt, journaledAt, event.eventType, event.component, safePayload,
    payloadDigest, jsonDigest (digestSource event safePayload payloadDigest), event.stepId,
    event.stepSequence, event.spanId, event.parentSpanId⟩

/-- `from_event`; `journaledAt` is the clock reading. -/
def fromEvent (event : RuntimeEvent) (journaledAt : DateTime) :
    Except EventError JournalRecord := do
  let safePayload ← event.journalPayload
  let record := ofEvent event safePayload journaledAt
  record.postInit
  return record

def verify (record : JournalRecord) : Except JournalError Unit :=
  let expectedPayload := jsonDigest (.obj record.safePayload.entries)
  let expectedEvent := jsonDigest (record.eventDigestSource expectedPayload)
  raiseIf (expectedPayload ≠ record.payloadDigest ∨ expectedEvent ≠ record.eventDigest)
    ⟨.journalCorrupted, "Journal 记录摘要校验失败"⟩

def isDuplicateOf (record candidate : JournalRecord) : Bool :=
  if record.runId ≠ candidate.runId ∨ record.sequence ≠ candidate.sequence then false
  else record.eventDigest = candidate.eventDigest

/-- `event_type == _TERMINAL_EVENT_TYPE`. -/
def isTerminal (record : JournalRecord) : Bool := record.eventType = .runCompleted

end JournalRecord

/-! ## The decision of an append -/

/-- `_append_decision`: `none` is a new record. -/
def appendDecision (record : JournalRecord) (existingId existingSequence : Option JournalRecord)
    (lastSequence terminalSequence : Option ℕ) :
    Except JournalError (Option JournalAppendStatus) :=
  match existingId with
  | some existing => do
    existing.verify
    if existing.runId = record.runId ∧ existing.sequence = record.sequence ∧
        existing.isDuplicateOf record then
      return some .duplicate
    throw ⟨.eventIdConflict, "相同 event_id 对应了不同事件内容"⟩
  | none =>
    match existingSequence with
    | some existing => do
      existing.verify
      throw ⟨.sequenceConflict, "Run sequence 已被其他事件占用"⟩
    | none => do
      raiseIf (terminalSequence ≠ none) ⟨.runAlreadyTerminal, "Run 已存在终态事件，不能继续追加"⟩
      raiseIf (∃ last ∈ lastSequence, record.sequence ≤ last)
        ⟨.outOfOrder, "未知事件的 sequence 低于或等于当前最大值"⟩
      return none

/-! ## The in-memory journal -/

structure InMemoryRunEventJournal where
  recordsById : Dict String JournalRecord
  recordsByRun : Dict String (Dict ℕ JournalRecord)
  closed : Bool

/-- What a read may raise. -/
inductive JournalReadError where
  | value (message : String)
  | journal (error : JournalError)
  /-- `PersistenceError` -/
  | persistence (errorCode : String)
  deriving DecidableEq

namespace InMemoryRunEventJournal

def new : InMemoryRunEventJournal := ⟨Dict.empty, Dict.empty, false⟩

/-- `self._records_by_run.get(run_id, {})`. -/
def runRecords (journal : InMemoryRunEventJournal) (runId : String) : Dict ℕ JournalRecord :=
  (journal.recordsByRun.get? runId).getD Dict.empty

def ensureOpen (journal : InMemoryRunEventJournal) : Except JournalError Unit :=
  raiseIf journal.closed ⟨.journalAppendFailed, "Journal 已关闭"⟩

/-- The sequence of the first terminal record, in the order of the dictionary. -/
def terminalSequence (records : Dict ℕ JournalRecord) : Option ℕ :=
  (records.values.find? JournalRecord.isTerminal).map JournalRecord.sequence

/-- Both indices with one more record. -/
def insert (journal : InMemoryRunEventJournal) (record : JournalRecord) : InMemoryRunEventJournal :=
  { journal with
    recordsByRun := journal.recordsByRun.set record.runId
      ((journal.runRecords record.runId).set record.sequence record)
    recordsById := journal.recordsById.set record.eventId record }

/-- `append`, with the clock reading `now`. -/
def append (event : RuntimeEvent) (now : DateTime.Utc) :
    Op JournalError InMemoryRunEventJournal JournalAppendStatus := do
  let record ← Op.lift ((JournalRecord.fromEvent event now).mapError fun _ =>
    ⟨.journalAppendFailed, "Runtime Event 无法安全写入 Journal"⟩)
  let journal ← get
  Op.lift journal.ensureOpen
  let records := journal.runRecords record.runId
  let decision ← Op.lift (appendDecision record (journal.recordsById.get? record.eventId)
    (records.get? record.sequence) records.keys.max? (terminalSequence records))
  match decision with
  | some status => return status
  | none =>
    set (journal.insert record)
    return .appended

def verifyRun (journal : InMemoryRunEventJournal) (runId : String) : Except JournalError Unit := do
  let records := journal.runRecords runId
  let terminals := (records.values.filter JournalRecord.isTerminal).map JournalRecord.sequence
  raiseIf (1 < terminals.length ∨ terminals ≠ [] ∧ terminals.head? ≠ records.keys.max?)
    ⟨.journalCorrupted, "Journal 的 Run 终态不变量被破坏"⟩
  records.values.forM JournalRecord.verify

def validateReadArguments (runId : String) (sequence limit : ℤ) :
    Except JournalReadError Unit := do
  raiseIf (Text.isBlank runId) (.value "run_id 必须是非空字符串")
  raiseIf (sequence < 0) (.value "sequence 必须是非负整数且不能是 bool")
  raiseIf (limit ≤ 0) (.value "limit 必须是正整数且不能是 bool")
  raiseIf (maxReadLimit < limit) (.value ("limit 不能大于 " ++ toString maxReadLimit))

def readAfter (journal : InMemoryRunEventJournal) (runId : String) (sequence limit : ℤ) :
    Except JournalReadError (List JournalRecord) := do
  validateReadArguments runId sequence limit
  journal.ensureOpen.mapError .journal
  (journal.verifyRun runId).mapError .journal
  let records := journal.runRecords runId
  let later := records.keys.filter fun index : ℕ => sequence < index
  let indices := (later.insertionSort (· ≤ ·)).take limit.toNat
  let result := indices.filterMap records.get?
  (result.forM JournalRecord.verify).mapError .journal
  return result

def lastSequence (journal : InMemoryRunEventJournal) (runId : String) :
    Except JournalReadError (Option ℕ) := do
  raiseIf (Text.isBlank runId) (.value "run_id 必须是非空字符串")
  journal.ensureOpen.mapError .journal
  (journal.verifyRun runId).mapError .journal
  return (journal.runRecords runId).keys.max?

def getByEventId (journal : InMemoryRunEventJournal) (eventId : String) :
    Except JournalReadError (Option JournalRecord) := do
  raiseIf (Text.isBlank eventId) (.value "event_id 必须是非空字符串")
  journal.ensureOpen.mapError .journal
  let record := journal.recordsById.get? eventId
  (record.toList.forM JournalRecord.verify).mapError .journal
  return record

def close (journal : InMemoryRunEventJournal) : InMemoryRunEventJournal :=
  { journal with closed := true }

end InMemoryRunEventJournal

end LocalAgent.Runtime
