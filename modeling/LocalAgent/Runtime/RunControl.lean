import LocalAgent.Lib.Trace
import LocalAgent.Runtime.JournalLog

/-!
# LocalAgent.Runtime.RunControl — `core/runtime/run_control.py`

The durable control row of a run: owner, lease, fencing token, cancel intent, and its closing with
the terminal event.  Every operation is one transaction; an exception rolls it back, so an operation
is a function from the tables to an error or to the new tables.  Times are microseconds of the
database clock.

* `DurableRunControlService.claim`, `renew`, `release`, `requestCancel`, `assertCurrent`,
  `finalizeTerminal`: the operations.
* `claim_ok`, `renew_ok`, …: what an operation that returned has done.
-/

namespace LocalAgent.Runtime

/-! ## The tables -/

inductive RunControlState where
  | active | closed
  deriving DecidableEq

/-- `runtime_run_control`, without its key. -/
structure RunControlRow where
  ownerId : Option String
  leaseUntil : Option ℤ
  fencingToken : ℕ
  state : RunControlState
  version : ℕ
  cancelCommandId : Option String
  cancelReason : Option String
  cancelRequestedAt : Option ℤ
  terminalSequence : Option ℕ
  deriving DecidableEq

/-- `runtime_run_control_commands`; the only command type is `CANCEL`. -/
structure RunControlCommandRow where
  commandId : String
  runId : String
  reason : String
  createdAt : ℤ
  deriving DecidableEq

structure RunLease where
  runId : String
  ownerId : String
  leaseUntil : ℤ
  fencingToken : ℕ
  version : ℕ
  deriving DecidableEq

structure CancelIntent where
  runId : String
  commandId : String
  reason : String
  createdAt : ℤ
  deriving DecidableEq

inductive RunControlError where
  | ownershipLost (message : String)
  | conflict (message : String)
  | value (message : String)
  /-- a constraint of the database -/
  | persistence
  | journal (error : JournalError)
  /-- the event has no journal record -/
  | event (error : EventError)
  /-- the client event feed raised -/
  | feed
  deriving DecidableEq

/-- The tables the operations share. -/
structure ControlTables where
  controls : Dict String RunControlRow
  commands : List RunControlCommandRow
  journal : List JournalRecord

/-- A row as the database fills it in: `fencing_token` 0, `ACTIVE`, `version` 1. -/
def RunControlRow.blank : RunControlRow := ⟨none, none, 0, .active, 1, none, none, none, none⟩

namespace RunControlRow

variable (row : RunControlRow) (now : ℤ)

/-- `lease_until > now()`. -/
def unexpired : Bool := row.leaseUntil.any fun leaseUntil => now < leaseUntil

/-- Owner and fencing token of a lease. -/
def matchesLease (lease : RunLease) : Bool :=
  row.ownerId = some lease.ownerId ∧ row.fencingToken = lease.fencingToken

def current (lease : RunLease) : Bool :=
  row.matchesLease lease ∧ row.state = .active ∧ row.unexpired now

end RunControlRow

def appendInTransaction (journal : List JournalRecord) (event : RuntimeEvent) (now : DateTime.Utc) :
    Except RunControlError (JournalAppendStatus × List JournalRecord) := do
  let record ← (JournalRecord.fromEvent event now).mapError .event
  let records := JournalLog.ofRun journal record.runId
  let decision ← (appendDecision record (journal.find? (·.eventId = record.eventId))
    (records.find? (·.sequence = record.sequence)) (records.map (·.sequence)).max?
    ((records.find? JournalRecord.isTerminal).map (·.sequence))).mapError .journal
  match decision with
  | some status => return (status, journal)
  | none => return (.appended, journal ++ [record])

/-! ## The operations -/

def validateIdentity (value name : String) : Except RunControlError Unit :=
  raiseIf (Text.isBlank value) (.value (name ++ " 必须是非空字符串"))

/-- A text for a column of the given length. -/
def requireFits (value : String) (length : ℕ) : Except RunControlError Unit :=
  raiseIf (length < value.length) .persistence

def validateLease (lease : RunLease) : Except RunControlError Unit := do
  validateIdentity lease.runId "run_id"
  validateIdentity lease.ownerId "owner_id"

namespace DurableRunControlService

variable (leaseSeconds : ℕ) (tables : ControlTables) (now : ℤ)

def leaseUntilExpr : ℤ := now + leaseSeconds * 1000000

def put (runId : String) (row : RunControlRow) : ControlTables :=
  { tables with controls := tables.controls.set runId row }

def leased (runId ownerId : String) (row : RunControlRow) : RunLease × ControlTables :=
  let leaseUntil := leaseUntilExpr leaseSeconds now
  (⟨runId, ownerId, leaseUntil, row.fencingToken, row.version⟩,
    put tables runId { row with ownerId := some ownerId, leaseUntil := some leaseUntil })

/-- `_renew_locked` with the token of the row. -/
def renewLocked (runId ownerId : String) (row : RunControlRow) :
    Option (RunLease × ControlTables) :=
  if row.ownerId = some ownerId ∧ row.unexpired now then
    some (leased leaseSeconds tables now runId ownerId { row with version := row.version + 1 })
  else none

def takeoverLocked (runId ownerId : String) (row : RunControlRow) :
    Option (RunLease × ControlTables) :=
  if row.state = .active ∧ (row.ownerId = none ∨ row.unexpired now = false) then
    some (leased leaseSeconds tables now runId ownerId
      { row with fencingToken := row.fencingToken + 1, version := row.version + 1 })
  else none

def claim (runId ownerId : String) : Except RunControlError (RunLease × ControlTables) := do
  validateIdentity runId "run_id"
  validateIdentity ownerId "owner_id"
  match tables.controls.get? runId with
  | none =>
    requireFits runId 255
    requireFits ownerId 255
    return leased leaseSeconds tables now runId ownerId { RunControlRow.blank with fencingToken := 1 }
  | some row =>
    raiseIf (row.state = .closed) (.conflict "Run 已关闭，不能 claim")
    if row.ownerId = some ownerId ∧ row.leaseUntil ≠ none then
      match renewLocked leaseSeconds tables now runId ownerId row with
      | some renewed => return renewed
      | none =>
        match takeoverLocked leaseSeconds tables now runId ownerId row with
        | some result => return result
        | none => throw (.ownershipLost "当前 owner 的 lease 已失效")
    else
      match takeoverLocked leaseSeconds tables now runId ownerId row with
      | some takeover =>
        requireFits ownerId 255
        return takeover
      | none => throw (.conflict "Run 当前仍由其他 executor 持有")

def renew (lease : RunLease) : Except RunControlError (RunLease × ControlTables) := do
  validateLease lease
  match tables.controls.get? lease.runId with
  | some row =>
    if row.current now lease then
      return leased leaseSeconds tables now lease.runId lease.ownerId
        { row with version := row.version + 1 }
    else throw (.ownershipLost "Run lease renew 被拒绝")
  | none => throw (.ownershipLost "Run lease renew 被拒绝")

/-- `release`: whether a row was released. -/
def release (lease : RunLease) : Except RunControlError (Bool × ControlTables) := do
  validateLease lease
  match tables.controls.get? lease.runId with
  | some row =>
    if row.matchesLease lease ∧ row.state = .active then
      return (true, put tables lease.runId
        { row with ownerId := none, leaseUntil := some now, version := row.version + 1 })
    else return (false, tables)
  | none => return (false, tables)

def insertCommand (command : RunControlCommandRow) : Except RunControlError ControlTables := do
  requireFits command.commandId 255
  requireFits command.reason 64
  raiseIf (∃ other ∈ tables.commands, other.commandId = command.commandId ∨
    other.runId = command.runId) .persistence
  return { tables with commands := tables.commands ++ [command] }

/-- The row a cancel request works on; the first request may come before any claim. -/
def cancelledControl (runId : String) : Except RunControlError RunControlRow :=
  match tables.controls.get? runId with
  | none => do
    requireFits runId 255
    return RunControlRow.blank
  | some control => do
    raiseIf (control.state = .closed) (.conflict "Run 已关闭，不能请求 CANCEL")
    return control

/-- `request_cancel`; `generated` is the id it makes when none is given. -/
def requestCancel (runId reason : String) (commandId : Option String) (generated : String) :
    Except RunControlError (CancelIntent × ControlTables) := do
  validateIdentity runId "run_id"
  validateIdentity reason "reason"
  let commandId := (commandId.filter (· ≠ "")).getD generated
  validateIdentity commandId "command_id"
  let control ← cancelledControl tables runId
  match tables.commands.find? (·.runId = runId) with
  | some existing =>
    raiseIf (existing.reason ≠ reason) (.conflict "重复 CANCEL 的 payload 与既有 intent 冲突")
    return (⟨runId, existing.commandId, existing.reason, existing.createdAt⟩,
      put tables runId control)
  | none =>
    let inserted ← insertCommand tables ⟨commandId, runId, reason, now⟩
    return (⟨runId, commandId, reason, now⟩,
      put inserted runId
        { control with
          cancelCommandId := some commandId
          cancelReason := some reason
          cancelRequestedAt := some now
          version := control.version + 1 })

def assertCurrent (lease : RunLease) : Except RunControlError Unit := do
  validateLease lease
  match tables.controls.get? lease.runId with
  | some row =>
    if row.current now lease then return ()
    else throw (.ownershipLost "Run fencing token 已过期或不是 current owner")
  | none => throw (.ownershipLost "Run fencing token 已过期或不是 current owner")

def closeTerminalLocked (row : RunControlRow) (sequence : ℕ) : RunControlRow :=
  { row with
    state := .closed
    ownerId := none
    leaseUntil := none
    terminalSequence := some sequence
    version := row.version + 1 }

/-- `finalize_terminal`; `journaledAt` is the clock reading of the journal, `feedRaises` the client
event feed. -/
def finalizeTerminal (lease : RunLease) (event : RuntimeEvent) (journaledAt : DateTime.Utc)
    (feedRaises : Bool) : Except RunControlError (JournalAppendStatus × ControlTables) := do
  validateLease lease
  match tables.controls.get? lease.runId with
  | none => throw (.ownershipLost "terminal write 的 fencing token 已失效")
  | some row =>
    raiseIf (row.state ≠ .active ∨ row.matchesLease lease = false ∨ row.leaseUntil = none)
      (.ownershipLost "terminal write 的 fencing token 已失效")
    raiseIf (row.unexpired now = false) (.ownershipLost "terminal write 时 lease 已过期")
    let (status, journal) ← appendInTransaction tables.journal event journaledAt
    raiseIf (feedRaises = true) .feed
    return (status,
      put { tables with journal := journal } lease.runId (closeTerminalLocked row event.sequence))

/-! ## What an operation that returned has done -/

variable {leaseSeconds : ℕ} {tables tables' : ControlTables} {now : ℤ} {lease : RunLease}

/-- What a claim that is answered has done: a first lease, a takeover, or the lease still held. -/
theorem claim_ok {runId ownerId : String}
    (h : claim leaseSeconds tables now runId ownerId = .ok (lease, tables')) :
    (tables.controls.get? runId = none ∧ (lease, tables') = leased leaseSeconds tables now runId
      ownerId { RunControlRow.blank with fencingToken := 1 }) ∨
    ∃ row, tables.controls.get? runId = some row ∧ row.state = .active ∧
      ((row.ownerId = some ownerId ∧ row.unexpired now = true ∧ (lease, tables') =
          leased leaseSeconds tables now runId ownerId { row with version := row.version + 1 }) ∨
        ((row.ownerId = none ∨ row.unexpired now = false) ∧ (lease, tables') =
          leased leaseSeconds tables now runId ownerId
            { row with fencingToken := row.fencingToken + 1, version := row.version + 1 })) := by
  have hrenew : ∀ {row result}, renewLocked leaseSeconds tables now runId ownerId row =
      some result → row.ownerId = some ownerId ∧ row.unexpired now = true ∧
        leased leaseSeconds tables now runId ownerId { row with version := row.version + 1 } =
          result := by
    intro row result h
    unfold renewLocked at h
    split_ifs at h with hcond
    exact ⟨hcond.1, hcond.2, Option.some.inj h⟩
  have htakeover : ∀ {row result}, takeoverLocked leaseSeconds tables now runId ownerId row =
      some result → (row.ownerId = none ∨ row.unexpired now = false) ∧
        leased leaseSeconds tables now runId ownerId
          { row with fencingToken := row.fencingToken + 1, version := row.version + 1 } =
            result := by
    intro row _ h
    unfold takeoverLocked at h
    split_ifs at h with hcond
    exact ⟨hcond.2, Option.some.inj h⟩
  simp only [claim, seq_eq_ok] at h
  obtain ⟨-, -, h⟩ := h
  split at h
  · rename_i hnone
    simp only [seq_eq_ok] at h
    exact .inl ⟨hnone, (Except.ok.inj h.2.2).symm⟩
  · rename_i row hrow
    simp only [seq_eq_ok, raiseIf_ok] at h
    obtain ⟨hclosed, h⟩ := h
    have hactive : row.state = .active := by
      cases hstate : row.state with
      | active => rfl
      | closed => exact absurd hstate hclosed
    refine .inr ⟨row, hrow, hactive, ?_⟩
    split_ifs at h with hown
    · split at h
      · rename_i renewed hrenewed
        obtain ⟨howner, hlive, hresult⟩ := hrenew hrenewed
        exact .inl ⟨howner, hlive, (hresult.trans (Except.ok.inj h)).symm⟩
      · split at h
        · rename_i taken htaken
          obtain ⟨hfree, hresult⟩ := htakeover htaken
          exact .inr ⟨hfree, (hresult.trans (Except.ok.inj h)).symm⟩
        · cases h
    · split at h
      · rename_i taken htaken
        obtain ⟨hfree, hresult⟩ := htakeover htaken
        rw [seq_eq_ok] at h
        exact .inr ⟨hfree, (hresult.trans (Except.ok.inj h.2)).symm⟩
      · cases h

/-- A renewal is answered to the current owner only. -/
theorem renew_ok {old : RunLease} (h : renew leaseSeconds tables now old = .ok (lease, tables')) :
    ∃ row, tables.controls.get? old.runId = some row ∧ row.current now old = true ∧
      (lease, tables') = leased leaseSeconds tables now old.runId old.ownerId
        { row with version := row.version + 1 } := by
  simp only [renew, seq_eq_ok] at h
  obtain ⟨-, h⟩ := h
  split at h
  · rename_i row hrow
    split_ifs at h with hcurrent
    exact ⟨row, hrow, hcurrent, (Except.ok.inj h).symm⟩
  · cases h

theorem release_ok {released : Bool} (h : release tables now lease = .ok (released, tables')) :
    tables' = tables ∨ ∃ row, tables.controls.get? lease.runId = some row ∧ row.state = .active ∧
      tables' = put tables lease.runId
        { row with ownerId := none, leaseUntil := some now, version := row.version + 1 } := by
  simp only [release, seq_eq_ok] at h
  obtain ⟨-, h⟩ := h
  split at h
  · rename_i row hrow
    split_ifs at h with hmatches
    · exact .inr ⟨row, hrow, hmatches.2, (Prod.mk.inj (Except.ok.inj h)).2.symm⟩
    · exact .inl (Prod.mk.inj (Except.ok.inj h)).2.symm
  · exact .inl (Prod.mk.inj (Except.ok.inj h)).2.symm

/-- A cancellation finds an active row or makes one, and adds at most one command of the run. -/
theorem requestCancel_ok {runId reason generated : String} {commandId : Option String}
    {intent : CancelIntent}
    (h : requestCancel tables now runId reason commandId generated = .ok (intent, tables')) :
    ∃ control, (tables.controls.get? runId = some control ∧ control.state = .active ∨
        tables.controls.get? runId = none ∧ control = RunControlRow.blank) ∧
      (tables' = put tables runId control ∨
        ∃ id, (∀ other ∈ tables.commands, other.runId ≠ runId) ∧
          tables' = put { tables with commands := tables.commands ++ [⟨id, runId, reason, now⟩] }
            runId
            { control with
              cancelCommandId := some id
              cancelReason := some reason
              cancelRequestedAt := some now
              version := control.version + 1 }) := by
  simp only [requestCancel, seq_eq_ok] at h
  obtain ⟨-, -, -, h⟩ := h
  obtain ⟨control, hcontrol, h⟩ := bind_eq_ok.mp h
  refine ⟨control, ?_, ?_⟩
  · unfold cancelledControl at hcontrol
    split at hcontrol
    · rename_i hnone
      rw [seq_eq_ok] at hcontrol
      exact .inr ⟨hnone, (Except.ok.inj hcontrol.2).symm⟩
    · rename_i row hrow
      rw [seq_eq_ok, raiseIf_ok] at hcontrol
      obtain ⟨hclosed, hcontrol⟩ := hcontrol
      obtain rfl := Except.ok.inj hcontrol
      refine .inl ⟨hrow, ?_⟩
      cases hstate : row.state with
      | active => rfl
      | closed => exact absurd hstate hclosed
  · split at h
    · rw [seq_eq_ok] at h
      exact .inl (Prod.mk.inj (Except.ok.inj h.2)).2.symm
    · obtain ⟨_, hinserted, h⟩ := bind_eq_ok.mp h
      simp only [insertCommand, seq_eq_ok, raiseIf_ok] at hinserted
      obtain ⟨-, -, hunique, hinserted⟩ := hinserted
      cases hinserted
      refine .inr ⟨(commandId.filter (· ≠ "")).getD generated, ?_, ?_⟩
      · exact fun other hother hrun => hunique ⟨other, hother, .inr hrun⟩
      · exact (Prod.mk.inj (Except.ok.inj h)).2.symm

variable {event : RuntimeEvent} {journaledAt : DateTime.Utc} {status : JournalAppendStatus}

/-- The journal after an accepted append: one record more, or the record it had. -/
theorem appendInTransaction_ok {journal journal' : List JournalRecord}
    (h : appendInTransaction journal event journaledAt = .ok (status, journal')) :
    ∃ record, JournalRecord.fromEvent event journaledAt = .ok record ∧
      (journal' = journal ++ [record] ∨
        journal' = journal ∧ ∃ existing ∈ journal, existing.isDuplicateOf record = true) := by
  obtain ⟨record, hrecord, h⟩ := bind_eq_ok.mp h
  obtain ⟨decision, hdecision, h⟩ := bind_eq_ok.mp h
  have hrecord : JournalRecord.fromEvent event journaledAt = .ok record := by
    cases hevent : JournalRecord.fromEvent event journaledAt with
    | ok =>
      rw [hevent] at hrecord
      exact congrArg _ (Except.ok.inj hrecord)
    | error =>
      rw [hevent] at hrecord
      cases hrecord
  refine ⟨record, hrecord, ?_⟩
  cases decision with
  | none => exact .inl (Prod.mk.inj (Except.ok.inj h)).2.symm
  | some status =>
    refine .inr ⟨(Prod.mk.inj (Except.ok.inj h)).2.symm, ?_⟩
    -- only the branch of an existing event id answers with a status
    unfold appendDecision at hdecision
    cases hexisting : journal.find? (·.eventId = record.eventId) with
    | none =>
      rw [hexisting] at hdecision
      simp only at hdecision
      split at hdecision
      · rename_i existing _
        cases hverify : existing.verify <;>
          simp [hverify, bind, Except.bind, Except.mapError, throw, throwThe,
            MonadExceptOf.throw] at hdecision
      · unfold raiseIf at hdecision
        split_ifs at hdecision <;>
          simp [bind, Except.bind, Except.mapError, pure, Except.pure] at hdecision
    | some existing =>
      rw [hexisting] at hdecision
      refine ⟨existing, List.mem_of_find?_eq_some hexisting, ?_⟩
      simp only at hdecision
      cases hverify : existing.verify with
      | error =>
        rw [hverify] at hdecision
        cases hdecision
      | ok =>
        rw [hverify] at hdecision
        simp only [ok_bind] at hdecision
        split_ifs at hdecision with hsame
        · exact hsame.2.2
        · cases hdecision

/-- A terminal event is accepted from the current owner only, and closes the run with it. -/
theorem finalizeTerminal_ok {feedRaises : Bool}
    (h : finalizeTerminal tables now lease event journaledAt feedRaises = .ok (status, tables')) :
    ∃ row journal, tables.controls.get? lease.runId = some row ∧ row.current now lease = true ∧
      appendInTransaction tables.journal event journaledAt = .ok (status, journal) ∧
      tables' = put { tables with journal := journal } lease.runId
        (closeTerminalLocked row event.sequence) := by
  simp only [finalizeTerminal, seq_eq_ok] at h
  obtain ⟨-, h⟩ := h
  split at h
  · cases h
  · rename_i row hrow
    simp only [seq_eq_ok, raiseIf_ok, not_or, not_not] at h
    obtain ⟨⟨hactive, hmatches, -⟩, hlive, h⟩ := h
    obtain ⟨⟨status', journal⟩, happend, h⟩ := bind_eq_ok.mp h
    rw [seq_eq_ok] at h
    cases h.2
    refine ⟨row, journal, hrow, ?_, happend, rfl⟩
    simp_all [RunControlRow.current]

end DurableRunControlService

end LocalAgent.Runtime
