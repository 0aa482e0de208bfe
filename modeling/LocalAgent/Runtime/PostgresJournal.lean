import LocalAgent.Lib.Trace
import LocalAgent.Runtime.JournalRuns

/-!
# LocalAgent.Runtime.PostgresJournal — `PostgresRunEventJournal`, its transactions

The journal in the database, written by any number of transactions at once at read-committed
isolation.  A read of a transaction sees the committed rows and its own.  `append` and
`append_with_client_projection` own a transaction for one call; `append_in_transaction` runs in a
transaction of its caller, any number of times.  What a column cannot hold the database refuses.

* `selectJournalByEventId` and its siblings: the reads of `repositories/runtime.py`.
* `PgJournal.step`: the next statement of a transaction.
-/

namespace LocalAgent.Runtime

open InMemoryRunEventJournal (AppendCall)

/-! ## The statements of the repository -/

def selectJournalByEventId (rows : List JournalRecord) (eventId : String) : Option JournalRecord :=
  rows.find? (·.eventId = eventId)

def selectJournalBySequence (rows : List JournalRecord) (runId : String) (sequence : ℕ) :
    Option JournalRecord :=
  (JournalLog.ofRun rows runId).find? (·.sequence = sequence)

def selectLastJournalSequence (rows : List JournalRecord) (runId : String) : Option ℕ :=
  ((JournalLog.ofRun rows runId).map JournalRecord.sequence).max?

/-- `select_terminal_sequences`, in the order of the sequences. -/
def selectTerminalSequences (rows : List JournalRecord) (runId : String) : List ℕ :=
  (((JournalLog.ofRun rows runId).filter JournalRecord.isTerminal).map
    JournalRecord.sequence).insertionSort (· ≤ ·)

def selectTerminalSequence (rows : List JournalRecord) (runId : String) : Option ℕ :=
  (selectTerminalSequences rows runId).head?

def selectJournalPage (rows : List JournalRecord) (runId : String) (afterSequence limit : ℤ) :
    List JournalRecord :=
  (((JournalLog.ofRun rows runId).filter fun r => afterSequence < r.sequence).insertionSort
    (fun a b => a.sequence ≤ b.sequence)).take limit.toNat

/-- A row that a unique constraint does not let stand beside `record`: the event id, the run and
sequence, or the one terminal row of a run. -/
def JournalRecord.excludes (row record : JournalRecord) : Bool :=
  row.eventId = record.eventId ∨ row.runId = record.runId ∧ row.sequence = record.sequence ∨
    row.runId = record.runId ∧ row.isTerminal ∧ record.isTerminal

/-! ## Columns -/

/-- A value of a `VARCHAR(size)`. -/
def fitsVarchar (size : ℕ) (text : String) : Bool := text.length ≤ size && !Text.hasNul text

/-- What an `INTEGER` stays below. -/
def integerBound : ℕ := 2 ^ 31

/-- The columns of `runtime_event_journal` can hold the record; its payload is JSON, which escapes
control characters. -/
def JournalRecord.fits (record : JournalRecord) : Bool :=
  fitsVarchar 255 record.eventId && fitsVarchar 255 record.runId &&
    fitsVarchar 255 record.traceId && fitsVarchar 128 record.component &&
    record.stepId.all (fitsVarchar 255) && record.spanId.all (fitsVarchar 255) &&
    record.parentSpanId.all (fitsVarchar 255) && record.journalSchemaVersion < integerBound &&
    record.eventSchemaVersion < integerBound && record.sequence < integerBound &&
    record.stepSequence.all (· < integerBound)

/-! ## Transactions -/

/-- An exception that is no `JournalError`. -/
inductive PgException where
  | integrity
  /-- the database refuses a value -/
  | data
  /-- the driver refuses to send a value -/
  | argument
  | persistence (errorCode : String)
  | event (error : EventError)

/-- What `Database.transaction` makes of an exception of its body: those of the driver are
translated. -/
def PgException.throughTransaction : PgException → PgException
  | integrity => persistence "DATABASE_INTEGRITY_VIOLATION"
  | data | argument => persistence "DATABASE_OPERATION_FAILED"
  | e => e

/-- `except IntegrityError`. -/
def PgException.isIntegrity : PgException → Bool
  | integrity => true
  | _ => false

/-- `_MAX_CONSTRAINT_RETRIES`. -/
def maxConstraintRetries : ℕ := 1

/-- How a call ends. -/
inductive PgAnswer where
  | status (status : JournalAppendStatus)
  | journalError (error : JournalError)
  | raised (exception : PgException)

/-- The answer leaves the transaction of the caller unusable. -/
def PgAnswer.aborts : PgAnswer → Bool
  | raised .integrity | raised .data => true
  | _ => false

structure PgDone where
  call : AppendCall
  record : JournalRecord
  status : JournalAppendStatus

/-- What the call of a transaction has read. -/
inductive PgPhase where
  | locking | locked
  | idRead (existingId : Option JournalRecord)
  | sequenceRead (existingId existingSequence : Option JournalRecord)
  | lastRead (existingId existingSequence : Option JournalRecord) (lastSequence : Option ℕ)
  | inserting

/-- The call that a transaction is in; `seen` are the calls whose transactions had committed when
its event id was read. -/
structure PgActive where
  call : AppendCall
  record : JournalRecord
  seen : List PgDone
  phase : PgPhase

/-- An open transaction; `own` is that of `append`, which ends with its call. -/
structure PgTransaction where
  own : Bool
  attempts : ℕ
  locks : List String
  rows : List JournalRecord
  done : List PgDone
  active : Option PgActive
  aborted : Bool

/-- An answer, with the calls that had committed and those of its own transaction before it. -/
structure PgAnswered where
  committed : List PgDone
  before : List PgDone
  call : AppendCall
  answer : PgAnswer

/-- The committed rows, the open transactions, and what has happened: the calls of the committed
transactions in the order of the commits, and the answers. -/
structure PgJournal where
  rows : List JournalRecord
  transactions : Dict ℕ PgTransaction
  history : List PgDone
  answered : List PgAnswered

namespace PgJournal

variable (s : PgJournal)

def initially : PgJournal := ⟨[], Dict.empty, [], []⟩

/-- The transaction in a new state. -/
def put (t : ℕ) (tx : PgTransaction) : PgJournal :=
  { s with transactions := s.transactions.set t tx }

/-- A call of the transaction raises; a transaction of the caller goes on, if it can. -/
def raise (t : ℕ) (tx : PgTransaction) (committed : List PgDone) (call : AppendCall)
    (answer : PgAnswer) : PgJournal :=
  { s.put t { tx with active := none, aborted := tx.own || answer.aborts } with
    answered := s.answered ++ [⟨committed, tx.done, call, answer⟩] }

/-- A call of the transaction has its status; `append` gives it back after the commit. -/
def settle (t : ℕ) (tx : PgTransaction) (committed : List PgDone) (done : PgDone)
    (rows : List JournalRecord) : PgJournal :=
  { s.put t { tx with active := none, rows := tx.rows ++ rows, done := tx.done ++ [done] } with
    answered := if tx.own then s.answered
      else s.answered ++ [⟨committed, tx.done, done.call, .status done.status⟩] }

/-- Every other open transaction is in `p`. -/
def others (t : ℕ) (p : PgTransaction → Bool) : Bool :=
  s.transactions.entries.all fun entry => entry.1 = t || p entry.2

def begin (t : ℕ) (own : Bool) : Option PgJournal :=
  match s.transactions.get? t with
  | some _ => none
  | none => some (s.put t ⟨own, 0, [], [], [], none, false⟩)

/-- A call starts: `JournalRecord.from_event`. -/
def call (t : ℕ) (tx : PgTransaction) (call : AppendCall) : Option PgJournal :=
  if tx.aborted || tx.active.isSome || (tx.own && !tx.done.isEmpty) then none
  else match JournalRecord.fromEvent call.event call.now with
    | .ok record => some (s.put t { tx with active := some ⟨call, record, [], .locking⟩ })
    | .error e =>
      some (s.raise t tx s.history call (if tx.own then
        .journalError ⟨.journalAppendFailed, "Runtime Event 无法安全写入 Journal"⟩
        else .raised (.event e)))

/-- A statement raises: `append` would try again if the exception were still the driver's. -/
def refuse (t : ℕ) (tx : PgTransaction) (active : PgActive) (exception : PgException) :
    PgJournal :=
  let exception := if tx.own then exception.throughTransaction else exception
  if tx.own ∧ exception.isIntegrity ∧ tx.attempts < maxConstraintRetries then
    s.put t { tx with
      attempts := tx.attempts + 1
      locks := []
      rows := []
      active := some { active with phase := .locking } }
  else s.raise t tx s.history active.call (.raised exception)

/-- The advisory lock of the run, when no other transaction holds it. -/
def lock (t : ℕ) (tx : PgTransaction) (active : PgActive) : Option PgJournal :=
  if Text.hasNul active.record.runId then some (s.refuse t tx active .data)
  else if s.others t fun tx' => !tx'.locks.contains active.record.runId then
    some (s.put t { tx with
      locks := active.record.runId :: tx.locks
      active := some { active with phase := .locked } })
  else none

/-- The next read of the call; the last one decides. -/
def read (t : ℕ) (tx : PgTransaction) (active : PgActive) : Option PgJournal :=
  let rows := s.rows ++ tx.rows
  let record := active.record
  match active.phase with
  | .locked =>
    if Text.hasNul record.eventId then some (s.refuse t tx active .data)
    else some (s.put t { tx with active := some { active with
      seen := s.history
      phase := .idRead (selectJournalByEventId rows record.eventId) } })
  | .idRead existingId =>
    if integerBound ≤ record.sequence then some (s.refuse t tx active .argument)
    else some (s.put t { tx with active := some { active with
      phase := .sequenceRead existingId
        (selectJournalBySequence rows record.runId record.sequence) } })
  | .sequenceRead existingId existingSequence =>
    some (s.put t { tx with active := some { active with
      phase := .lastRead existingId existingSequence
        (selectLastJournalSequence rows record.runId) } })
  | .lastRead existingId existingSequence lastSequence =>
    match appendDecision record existingId existingSequence lastSequence
        (selectTerminalSequence rows record.runId) with
    | .error error => some (s.raise t tx active.seen active.call (.journalError error))
    | .ok (some status) => some (s.settle t tx active.seen ⟨active.call, record, status⟩ [])
    | .ok none => some (s.put t { tx with active := some { active with phase := .inserting } })
  | _ => none

/-- `insert_journal_row`: the columns come first; then it waits for an open transaction with a row
that excludes the new one, and is rejected by a committed one. -/
def insert (t : ℕ) (tx : PgTransaction) (active : PgActive) : Option PgJournal :=
  match active.phase with
  | .inserting =>
    if active.record.fits = false then some (s.refuse t tx active .data)
    else if (s.rows ++ tx.rows).any fun row => row.excludes active.record then
      some (s.refuse t tx active .integrity)
    else if s.others t fun tx' => !tx'.rows.any fun row => row.excludes active.record then
      some (s.settle t tx s.history ⟨active.call, active.record, .appended⟩ [active.record])
    else none
  | _ => none

/-- The transaction commits; `append` gives its status back. -/
def commit (t : ℕ) (tx : PgTransaction) : Option PgJournal :=
  if tx.aborted || tx.active.isSome || (tx.own && tx.done.isEmpty) then none
  else some {
    rows := s.rows ++ tx.rows
    transactions := s.transactions.erase t
    history := s.history ++ tx.done
    answered := if tx.own then
        s.answered ++ tx.done.map fun d => ⟨s.history, [], d.call, .status d.status⟩
      else s.answered }

inductive Action where
  | begin (t : ℕ) (own : Bool)
  | call (t : ℕ) (call : AppendCall)
  | lock (t : ℕ)
  | read (t : ℕ)
  | insert (t : ℕ)
  | commit (t : ℕ)
  | rollback (t : ℕ)

def inCall (t : ℕ) (f : PgTransaction → PgActive → Option PgJournal) : Option PgJournal :=
  (s.transactions.get? t).bind fun tx => tx.active.bind fun active => f tx active

/-- One statement of a transaction, or its end. -/
def step (s : PgJournal) : Action → Option PgJournal
  | .begin t own => s.begin t own
  | .call t call => (s.transactions.get? t).bind fun tx => s.call t tx call
  | .lock t => s.inCall t fun tx active =>
    match active.phase with
    | .locking => s.lock t tx active
    | _ => none
  | .read t => s.inCall t fun tx active => s.read t tx active
  | .insert t => s.inCall t fun tx active => s.insert t tx active
  | .commit t => (s.transactions.get? t).bind fun tx => s.commit t tx
  | .rollback t =>
    (s.transactions.get? t).bind fun _ => some { s with transactions := s.transactions.erase t }

/-! ## Reads of the journal -/

def verifyTerminalInvariant (rows : List JournalRecord) (runId : String) :
    Except JournalError Unit :=
  match selectTerminalSequences rows runId with
  | [] => .ok ()
  | [terminal] =>
    raiseIf (selectLastJournalSequence rows runId ≠ some terminal)
      ⟨.journalCorrupted, "PostgreSQL Journal 的 Run 终态不是最后事件"⟩
  | _ => .error ⟨.journalCorrupted, "PostgreSQL Journal 包含多个 Run 终态事件"⟩

/-- A statement of a read raises. -/
def operationFailed : JournalReadError := .persistence "DATABASE_OPERATION_FAILED"

def readAfter (runId : String) (sequence limit : ℤ) :
    Except JournalReadError (List JournalRecord) := do
  InMemoryRunEventJournal.validateReadArguments runId sequence limit
  raiseIf (Text.hasNul runId) operationFailed
  (verifyTerminalInvariant s.rows runId).mapError .journal
  raiseIf (integerBound ≤ sequence) operationFailed
  let rows := selectJournalPage s.rows runId sequence limit
  (rows.forM JournalRecord.verify).mapError .journal
  return rows

def lastSequence (runId : String) : Except JournalReadError (Option ℕ) := do
  raiseIf (Text.isBlank runId) (.value "run_id 必须是非空字符串")
  raiseIf (Text.hasNul runId) operationFailed
  (verifyTerminalInvariant s.rows runId).mapError .journal
  return selectLastJournalSequence s.rows runId

def getByEventId (eventId : String) : Except JournalReadError (Option JournalRecord) := do
  raiseIf (Text.isBlank eventId) (.value "event_id 必须是非空字符串")
  raiseIf (Text.hasNul eventId) operationFailed
  let record := selectJournalByEventId s.rows eventId
  (record.toList.forM JournalRecord.verify).mapError .journal
  return record

end PgJournal

end LocalAgent.Runtime
