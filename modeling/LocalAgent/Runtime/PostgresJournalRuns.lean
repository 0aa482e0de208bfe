import LocalAgent.Runtime.PostgresJournalSteps

/-!
# LocalAgent.Runtime.PostgresJournalRuns — interleaved appends and their serial history

* `readAfter_eq` and its siblings: the reads agree with the in-memory journal.
* `appends_serial`: every interleaving is the serial history of its commits.
* `append_not_serial`: one event id in two runs at once.
-/

namespace LocalAgent.Runtime

open JournalRecord
open InMemoryRunEventJournal (AppendCall AppendRun runAppends Holds)

namespace PgJournal

variable {s : PgJournal} {log : List JournalRecord}

/-! ## Reads agree with the in-memory journal -/

variable {run : AppendRun}

/-- The terminal check passes on every journal that the in-memory one can hold. -/
theorem verifyTerminalInvariant_ok (h : Holds run log) (runId : String) :
    verifyTerminalInvariant log runId = .ok () := by
  have hverify := h.verifyRun_ok runId
  unfold InMemoryRunEventJournal.verifyRun at hverify
  obtain ⟨hterminals, -⟩ := seq_eq_ok.mp hverify
  rw [raiseIf_ok, h.represents.values, h.represents.keys] at hterminals
  unfold verifyTerminalInvariant selectTerminalSequences selectLastJournalSequence
  generalize ((JournalLog.ofRun log runId).filter isTerminal).map sequence = terminals at *
  push Not at hterminals
  obtain ⟨hone, hlast⟩ := hterminals
  match terminals with
  | [] => rfl
  | [terminal] =>
    have hmax := hlast (List.cons_ne_nil _ _)
    refine raiseIf_ok.mpr ?_
    rw [← hmax]
    exact fun hne => hne rfl
  | a :: b :: rest =>
    simp only [List.length_cons] at hone
    omega

theorem selectJournalPage_eq (hlog : JournalLog.Lawful log) (runId : String) (after limit : ℤ) :
    selectJournalPage log runId after limit =
      ((JournalLog.ofRun log runId).filter fun r => after < r.sequence).take limit.toNat := by
  have hsorted : ((JournalLog.ofRun log runId).filter fun r => decide (after < r.sequence)).Pairwise
      fun a b => a.sequence ≤ b.sequence := by
    have hseq := List.pairwise_map.mp (hlog.sequences runId)
    exact (hseq.imp fun hlt => hlt.le).filter _
  unfold selectJournalPage
  rw [hsorted.insertionSort_eq]

/-- What the in-memory journal reads, by the rows that it represents. -/
theorem memory_readAfter (h : Holds run log) (runId : String) (after limit : ℤ) :
    run.journal.readAfter runId after limit = do
      InMemoryRunEventJournal.validateReadArguments runId after limit
      ((selectJournalPage log runId after limit).forM JournalRecord.verify).mapError .journal
      return selectJournalPage log runId after limit := by
  have hpage := selectJournalPage_eq h.lawful runId after limit
  have hkeys : ((((run.journal.runRecords runId).keys.filter fun index : ℕ =>
      after < index).insertionSort (· ≤ ·)).take limit.toNat).filterMap
        (run.journal.runRecords runId).get? = selectJournalPage log runId after limit := by
    have hsorted : ((run.journal.runRecords runId).keys.filter fun index : ℕ =>
        decide (after < index)).Pairwise (· ≤ ·) := by
      rw [h.represents.keys]
      exact ((h.lawful.sequences runId).imp fun hlt => hlt.le).filter _
    rw [hsorted.insertionSort_eq, h.represents.keys, List.filter_map, ← List.map_take,
      List.filterMap_map, hpage]
    have hsome (r : JournalRecord) (hr : r ∈ ((JournalLog.ofRun log runId).filter
        ((fun index : ℕ => decide (after < index)) ∘ sequence)).take limit.toNat) :
        ((run.journal.runRecords runId).get? ∘ sequence) r = some r :=
      h.represents.get?.mpr ⟨(List.mem_filter.mp (List.mem_of_mem_take hr)).1, rfl⟩
    rw [List.filterMap_congr hsome, List.filterMap_some]
    rfl
  unfold InMemoryRunEventJournal.readAfter
  rw [h.verifyRun_ok]
  dsimp only
  rw [hkeys]
  simp only [InMemoryRunEventJournal.ensureOpen, h.opened, raiseIf, Bool.false_eq_true, if_false,
    Except.mapError, ok_bind]

theorem readAfter_eq (h : Holds run s.rows) {runId : String} {after : ℤ} (limit : ℤ)
    (hnul : Text.hasNul runId = false) (hafter : after < integerBound) :
    s.readAfter runId after limit = run.journal.readAfter runId after limit := by
  rw [memory_readAfter h]
  unfold readAfter
  rw [verifyTerminalInvariant_ok h]
  simp only [raiseIf, hnul, Bool.false_eq_true, if_false, if_neg (not_le.mpr hafter),
    Except.mapError, ok_bind]

theorem lastSequence_eq (h : Holds run s.rows) {runId : String}
    (hnul : Text.hasNul runId = false) : s.lastSequence runId = run.journal.lastSequence runId := by
  unfold lastSequence InMemoryRunEventJournal.lastSequence
  rw [verifyTerminalInvariant_ok h, h.verifyRun_ok, h.represents.keys]
  simp only [InMemoryRunEventJournal.ensureOpen, h.opened, raiseIf, hnul, Bool.false_eq_true,
    if_false, Except.mapError, ok_bind]
  rfl

theorem getByEventId_eq (h : Holds run s.rows) {eventId : String}
    (hnul : Text.hasNul eventId = false) :
    s.getByEventId eventId = run.journal.getByEventId eventId := by
  unfold getByEventId InMemoryRunEventJournal.getByEventId
  rw [h.represents.byId]
  simp only [InMemoryRunEventJournal.ensureOpen, h.opened, raiseIf, hnul, Bool.false_eq_true,
    if_false, Except.mapError, ok_bind]
  rfl

/-! ## Runs -/

/-- The calls have a serial history, and the reads agree for arguments that columns can hold. -/
structure Serial (s : PgJournal) : Prop where
  /-- The committed calls have the statuses of the in-memory journal, in the order of the
  commits. -/
  replays : ∀ before d after, s.history = before ++ d :: after →
    inMemoryAnswer (replay before) d.call = .status d.status
  /-- Every answer is that of the in-memory journal at a moment of the call. -/
  answers : ∀ a ∈ s.answered, AnsweredOk s.history a
  readAfter : ∀ (runId : String) (after limit : ℤ), Text.hasNul runId = false →
    after < integerBound →
    s.readAfter runId after limit = (replay s.history).readAfter runId after limit
  getByEventId : ∀ eventId, Text.hasNul eventId = false →
    s.getByEventId eventId = (replay s.history).getByEventId eventId
  lastSequence : ∀ runId, Text.hasNul runId = false →
    s.lastSequence runId = (replay s.history).lastSequence runId

theorem Inv.serial (h : s.Inv true) : s.Serial := by
  have hholds : Holds (runAppends (s.history.map PgDone.call)) s.rows := by
    rw [h.rows]
    exact h.valid.holds
  exact {
    replays := fun before d after heq => by
      have hvalid := h.valid
      rw [heq] at hvalid
      obtain ⟨hbefore, hrecord, happend, -⟩ := valid_append.mp hvalid
      rw [hbefore.answer hrecord]
      rw [List.nil_append] at happend
      rw [happend]
    answers := h.answered rfl
    readAfter := fun _ _ limit => readAfter_eq hholds limit
    getByEventId := fun _ => getByEventId_eq hholds
    lastSequence := fun _ => lastSequence_eq hholds }

/-- **Interleaved appends are serial**: in every run in which no insert meets an event id that
another transaction has committed since the call read it, the events that callers append in
their own transactions can be recorded, and the columns hold what is sent. -/
theorem appends_serial {acts : List Action}
    (hm : Trace.Along step (fun s a => s.Meets a = true ∧ s.Fits a = true) initially acts)
    (hrun : Trace.run step initially acts = some s) : s.Serial :=
  (Trace.run_keeps (P := Inv true) (fun _ _ _ hm hs h => inv_step hm.1 (fun _ => hm.2) hs h) hm
    hrun inv_initially).serial

def sampleCall (eventId runId : String) : AppendCall where
  event := { InMemoryRunEventJournal.sampleModelStarted "local" with
    eventId := eventId
    runId := runId }
  now := .epochSecond 0

/-- A call of `append` up to its insert. -/
def sampleReads (t : ℕ) (eventId runId : String) : List Action :=
  [.begin t true, .call t (sampleCall eventId runId), .lock t, .read t, .read t, .read t, .read t]

/-- Two writers whose transactions overlap, in different runs. -/
def sampleActions (second : String) : List Action :=
  sampleReads 1 "e1" "run" ++ sampleReads 2 second "other" ++
    [Action.insert 1, Action.commit 1, Action.insert 2]

theorem appends_serial_sample :
    ∃ s, Trace.run step initially (sampleActions "e2" ++ [.commit 2]) = some s ∧
      s.history.length = 2 ∧ s.answered.length = 2 ∧ s.Serial := by
  have hrun : ((Trace.run step initially (sampleActions "e2" ++ [.commit 2])).any fun s =>
      s.history.length == 2 && s.answered.length == 2) = true := by
    decide +kernel
  obtain ⟨s, hs, hlengths⟩ := (Option.any_eq_true _ _).mp hrun
  obtain ⟨hhistory, hanswered⟩ := Bool.and_eq_true_iff.mp hlengths
  have hm : Trace.Along step (fun s a => s.Meets a = true ∧ s.Fits a = true) initially
      (sampleActions "e2" ++ [.commit 2]) := by
    decide +kernel
  exact ⟨s, hs, beq_iff_eq.mp hhistory, beq_iff_eq.mp hanswered, appends_serial hm hs⟩

/-! ## Two runs that append one event id at once -/

theorem inMemoryAnswer_ne_raised (journal : InMemoryRunEventJournal) (call : AppendCall)
    (exception : PgException) : inMemoryAnswer journal call ≠ .raised exception := by
  unfold inMemoryAnswer
  split <;> exact fun h => nomatch h

/-- The last answer is the translated rejection of a unique constraint. -/
def rejectedLast (s : PgJournal) : Bool :=
  match s.answered.getLast? with
  | some ⟨_, _, _, .raised (.persistence "DATABASE_INTEGRITY_VIOLATION")⟩ => true
  | _ => false

theorem not_serial_of_rejectedLast (h : s.rejectedLast = true) : ¬s.Serial := by
  intro hs
  unfold rejectedLast at h
  split at h
  · rename_i hlast
    have hanswer := (hs.answers _ (List.mem_of_getLast? hlast)).2
    exact inMemoryAnswer_ne_raised _ _ _ hanswer
  · cases h

/-- The writer that comes second to an event id has read that the id is free; its insert is
rejected, and `append` raises the translated error instead of trying again. -/
theorem append_not_serial :
    ∃ s, Trace.run step initially (sampleActions "e1") = some s ∧
      s.rejectedLast = true ∧ ¬s.Serial := by
  have hrun : ((Trace.run step initially (sampleActions "e1")).any rejectedLast) = true := by
    decide +kernel
  obtain ⟨s, hs, hlast⟩ := (Option.any_eq_true _ _).mp hrun
  exact ⟨s, hs, hlast, not_serial_of_rejectedLast hlast⟩

end PgJournal

end LocalAgent.Runtime
