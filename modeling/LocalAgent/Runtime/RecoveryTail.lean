import LocalAgent.Runtime.PostgresJournalRuns

/-!
# LocalAgent.Runtime.RecoveryTail — the tail of a journal in `core/runtime/recovery_validation.py`

How `RecoveryValidator` reads, page by page, what the journal of a run holds after a snapshot.

* `pagesFrom_eq`: the loop over the pages of a journal that serves a list in order.
* `assessTail_eq`: the tail is read whole, however many pages it has.
* `assessTailAsync_eq`: through the materialized view only an empty tail can be read.
-/

namespace LocalAgent.Runtime

open InMemoryRunEventJournal (AppendCall runAppends Holds)

namespace RecoveryValidator

/-- What the validation reads of a journal. -/
structure JournalView where
  readAfter : String → ℤ → ℤ → Except JournalReadError (List JournalRecord)
  lastSequence : String → Except JournalReadError (Option ℕ)

inductive TailError where
  | journal (error : JournalReadError)
  | journalChanged | snapshotSequenceAheadOfJournal

section Reading

variable (view : JournalView) (runId : String)

/-- The loop over the pages; `stuck` is its end at a page that does not move the cursor. -/
def pagesFrom (stuck : List JournalRecord → Except TailError (List JournalRecord))
    (expectedLast cursor : ℕ) : Except TailError (List JournalRecord) :=
  if cursor < expectedLast then do
    let records ← (view.readAfter runId cursor maxReadLimit).mapError .journal
    let page := records.filter (·.sequence ≤ expectedLast)
    match page.getLast? with
    | none => stuck page
    | some last =>
      if last.sequence ≤ cursor then stuck page
      else return page ++ (← pagesFrom stuck expectedLast last.sequence)
  else return []
termination_by expectedLast - cursor

/-- `_read_tail`. -/
def readTail (after expectedLast : ℕ) : Except TailError (List JournalRecord) := do
  let records ← pagesFrom view runId (fun _ => .error .journalChanged) expectedLast after
  let latest ← (view.lastSequence runId).mapError .journal
  raiseIf (latest.getD 0 ≠ expectedLast) .journalChanged
  return records

/-- The journal part of `assess_snapshot`, for a snapshot taken at the sequence `after`. -/
def assessTail (after : ℕ) : Except TailError (List JournalRecord) := do
  let journalLast ← (view.lastSequence runId).mapError .journal
  raiseIf (journalLast.getD 0 < after) .snapshotSequenceAheadOfJournal
  readTail view runId after (journalLast.getD 0)

/-- `_materialize_async_journal`, with the methods of `_MaterializedJournal`. -/
def materialize (expectedLast : ℕ) : Except TailError JournalView := do
  let records ← pagesFrom view runId .ok expectedLast 0
  let latest ← (view.lastSequence runId).mapError .journal
  return {
    readAfter := fun id after limit =>
      .ok ((records.filter fun r => r.runId = id ∧ after < r.sequence).take limit.toNat)
    lastSequence := fun id => .ok (if id = runId then some (latest.getD 0) else none) }

/-- `assess_async`: what it materializes ends at the sequence of the snapshot. -/
def assessTailAsync (after : ℕ) : Except TailError (List JournalRecord) := do
  let journal ← materialize view runId after
  assessTail journal runId after

end Reading

/-! ## The loop over the pages -/

section Pages

variable {view : JournalView} {runId : String} {rows : List JournalRecord} {C : ℕ → Prop}

/-- The journal serves `rows` as the records of the run, after every cursor in `C`. -/
structure Serves (view : JournalView) (runId : String) (rows : List JournalRecord)
    (C : ℕ → Prop) : Prop where
  sorted : rows.Pairwise fun a b => a.sequence < b.sequence
  zero : C 0
  row : ∀ r ∈ rows, C r.sequence
  readAfter : ∀ cursor : ℕ, C cursor → view.readAfter runId cursor maxReadLimit =
    .ok ((rows.filter fun r => cursor < r.sequence).take 1000)

/-- The records after `cursor`, up to `bound`. -/
def between (rows : List JournalRecord) (cursor bound : ℕ) : List JournalRecord :=
  rows.filter fun r => cursor < r.sequence ∧ r.sequence ≤ bound

/-- In a sorted journal the records after the last one read are the rest. -/
theorem filter_after_last {front back : List JournalRecord} {last : JournalRecord}
    (hsorted : (front ++ back).Pairwise fun a b => a.sequence < b.sequence)
    (hlast : front.getLast? = some last) :
    (front ++ back).filter (fun r => last.sequence < r.sequence) = back := by
  obtain ⟨init, rfl⟩ := List.getLast?_eq_some_iff.mp hlast
  obtain ⟨hfront, -, hback⟩ := List.pairwise_append.mp hsorted
  have hbefore : ∀ a ∈ init ++ [last], a.sequence ≤ last.sequence := by
    intro a ha
    rcases mem_snoc ha with ha | rfl
    · exact ((List.pairwise_append.mp hfront).2.2 a ha last List.mem_cons_self).le
    · exact le_rfl
  rw [List.filter_append, List.filter_eq_nil_iff.mpr, List.filter_eq_self.mpr, List.nil_append]
  · exact fun b hb => decide_eq_true (hback last List.mem_concat_self b hb)
  · exact fun a ha => by simpa using hbefore a ha

/-- A page is the first part of what is still to be read, and empty only when nothing is. -/
theorem page_spec (h : Serves view runId rows C) (cursor bound : ℕ) :
    ∃ page back, ((rows.filter fun r => cursor < r.sequence).take 1000).filter
        (fun r => r.sequence ≤ bound) = page ∧
      between rows cursor bound = page ++ back ∧ (page = [] → back = []) := by
  have hbetween : between rows cursor bound =
      (rows.filter fun r => cursor < r.sequence).filter (fun r => r.sequence ≤ bound) := by
    rw [between, List.filter_filter]
    exact List.filter_congr fun r _ => by simp [and_comm]
  have hsorted := h.sorted.filter fun r => decide (cursor < r.sequence)
  rw [hbetween]
  generalize (rows.filter fun r => decide (cursor < r.sequence)) = later at hsorted ⊢
  refine ⟨_, (later.drop 1000).filter (fun r => r.sequence ≤ bound), rfl, ?_, fun hempty => ?_⟩
  · rw [← List.filter_append, List.take_append_drop]
  · cases later with
    | nil => rfl
    | cons first rest =>
      have hfirst : ¬ first.sequence ≤ bound := by
        simpa using List.filter_eq_nil_iff.mp hempty first List.mem_cons_self
      refine List.filter_eq_nil_iff.mpr fun r hr => ?_
      have hlt := (List.pairwise_cons.mp hsorted).1 r (List.mem_of_mem_drop hr)
      simp only [decide_eq_true_eq]
      omega

/-- **All pages.**  The records up to `bound` are read; the loop ends by itself when it comes to a
record with that sequence, and gets stuck on an empty page otherwise. -/
theorem pagesFrom_eq (h : Serves view runId rows C)
    (stuck : List JournalRecord → Except TailError (List JournalRecord)) (bound cursor : ℕ)
    (hfrom : C cursor) : pagesFrom view runId stuck bound cursor =
      if bound ≤ cursor ∨ ∃ r ∈ rows, r.sequence = bound then .ok (between rows cursor bound)
      else (stuck []).map (between rows cursor bound ++ ·) := by
  induction hmore : bound - cursor using Nat.strong_induction_on generalizing cursor with
  | _ n ih =>
    rw [pagesFrom]
    by_cases hcursor : cursor < bound
    swap
    · have hnone : between rows cursor bound = [] :=
        List.filter_eq_nil_iff.mpr fun r _ => by simp only [decide_eq_true_eq]; omega
      rw [if_neg hcursor, if_pos (.inl (not_lt.mp hcursor)), hnone]
      rfl
    obtain ⟨page, back, hpage, hbetween, hback⟩ := page_spec h cursor bound
    rw [if_pos hcursor, h.readAfter cursor hfrom]
    simp only [Except.mapError, ok_bind, hpage]
    cases hlast : page.getLast? with
    | none =>
      have hnil := List.getLast?_eq_none_iff.mp hlast
      rw [hback hnil, hnil, List.nil_append] at hbetween
      have hbound : ¬ (bound ≤ cursor ∨ ∃ r ∈ rows, r.sequence = bound) := by
        rintro (hle | ⟨r, hr, heq⟩)
        · omega
        · have hmem : r ∈ between rows cursor bound :=
            List.mem_filter.mpr ⟨hr, decide_eq_true ⟨by omega, heq.le⟩⟩
          rw [hbetween] at hmem
          cases hmem
      rw [if_neg hbound, hbetween, hnil]
      cases stuck [] <;> rfl
    | some last =>
      have hmem : last ∈ between rows cursor bound := by
        rw [hbetween]
        exact List.mem_append_left _ (List.mem_of_getLast? hlast)
      obtain ⟨hrow, hin⟩ := List.mem_filter.mp hmem
      obtain ⟨hafter, hle⟩ := of_decide_eq_true hin
      -- what is left starts after the last record of the page
      have hrest : between rows last.sequence bound = back := by
        have hsorted := h.sorted.filter fun r =>
          decide (cursor < r.sequence ∧ r.sequence ≤ bound)
        rw [← between, hbetween] at hsorted
        rw [← filter_after_last hsorted hlast, ← hbetween, between, between, List.filter_filter]
        refine List.filter_congr fun r _ => ?_
        rw [← Bool.decide_and]
        refine decide_eq_decide.mpr ⟨?_, ?_⟩
        · exact fun hr => ⟨hr.1, hafter.trans hr.1, hr.2⟩
        · exact fun hr => ⟨hr.1, hr.2.2⟩
      dsimp only
      rw [if_neg (not_le.mpr hafter), ih _ (by omega) last.sequence (h.row last hrow) rfl, hrest, hbetween]
      by_cases hexists : ∃ r ∈ rows, r.sequence = bound
      · rw [if_pos (.inr hexists), if_pos (.inr hexists)]
        rfl
      · have hlt : ¬ bound ≤ last.sequence := fun hge => hexists ⟨last, hrow, hle.antisymm hge⟩
        rw [if_neg (not_or.mpr ⟨hlt, hexists⟩), if_neg (not_or.mpr ⟨not_le.mpr hcursor, hexists⟩)]
        cases stuck [] with
        | error => rfl
        | ok rest => exact congrArg Except.ok (List.append_assoc ..).symm

/-- The last sequence of the records, 0 if there is none. -/
def lastOf (rows : List JournalRecord) : ℕ := (rows.map JournalRecord.sequence).max?.getD 0

theorem le_lastOf {r : JournalRecord} (hr : r ∈ rows) : r.sequence ≤ lastOf rows := by
  have hmem : r.sequence ∈ rows.map JournalRecord.sequence := List.mem_map_of_mem hr
  unfold lastOf
  cases hmax : (rows.map JournalRecord.sequence).max? with
  | none =>
    rw [List.max?_eq_none_iff.mp hmax] at hmem
    cases hmem
  | some last => exact (List.max?_eq_some_iff.mp hmax).2 _ hmem

theorem lastOf_mem (rows : List JournalRecord) :
    lastOf rows = 0 ∨ ∃ r ∈ rows, r.sequence = lastOf rows := by
  unfold lastOf
  cases hmax : (rows.map JournalRecord.sequence).max? with
  | none => exact .inl rfl
  | some last => exact .inr (List.mem_map.mp (List.max?_eq_some_iff.mp hmax).1)

variable (h : Serves view runId rows C)
  (hlast : view.lastSequence runId = .ok (rows.map JournalRecord.sequence).max?) (after : ℕ)
include h hlast

theorem Serves.assessTail (hafter : C after) : assessTail view runId after =
    if lastOf rows < after then .error .snapshotSequenceAheadOfJournal
    else .ok (rows.filter fun r => after < r.sequence) := by
  simp only [RecoveryValidator.assessTail, readTail, hlast, Except.mapError, ok_bind, raiseIf]
  rw [← lastOf]
  by_cases hahead : lastOf rows < after
  · rw [if_pos hahead, if_pos hahead]
    rfl
  have hreached : lastOf rows ≤ after ∨ ∃ r ∈ rows, r.sequence = lastOf rows :=
    (lastOf_mem rows).imp_left fun hzero => hzero.trans_le (Nat.zero_le _)
  have htail : between rows after (lastOf rows) = rows.filter fun r => after < r.sequence :=
    List.filter_congr fun r hr => decide_eq_decide.mpr (and_iff_left (le_lastOf hr))
  rw [if_neg hahead, if_neg hahead, pagesFrom_eq h _ _ _ hafter, if_pos hreached, htail]
  simp only [ok_bind, ne_eq, not_true, if_false]
  rfl

theorem Serves.assessTailAsync (hrun : ∀ r ∈ rows, r.runId = runId) :
    assessTailAsync view runId after =
      if lastOf rows < after then .error .snapshotSequenceAheadOfJournal
      else if lastOf rows = after then .ok [] else .error .journalChanged := by
  have hpages : pagesFrom view runId .ok after 0 = .ok (between rows 0 after) := by
    rw [pagesFrom_eq h _ _ _ h.zero]
    split_ifs
    · rfl
    · exact congrArg Except.ok (List.append_nil _)
  simp only [RecoveryValidator.assessTailAsync, materialize, hpages, hlast, Except.mapError,
    ok_bind, pure_bind]
  rw [← lastOf]
  generalize hview : JournalView.mk _ _ = materialized
  have hserves : Serves materialized runId (between rows 0 after) fun _ => True := by
    subst hview
    refine ⟨h.sorted.filter _, trivial, fun _ _ => trivial, fun cursor _ => congrArg Except.ok (congrArg (List.take 1000) ?_)⟩
    refine List.filter_congr fun r hr => decide_eq_decide.mpr ?_
    rw [and_iff_right (hrun r (List.mem_filter.mp hr).1), Nat.cast_lt]
  simp only [RecoveryValidator.assessTail, readTail, pagesFrom_eq hserves _ _ _ trivial]
  subst hview
  simp only [if_true, Except.mapError, ok_bind, Option.getD_some, raiseIf]
  by_cases hahead : lastOf rows < after
  · rw [if_pos hahead, if_pos hahead]
    rfl
  rw [if_neg hahead, if_neg hahead]
  by_cases heq : lastOf rows = after
  · have hnone : between (between rows 0 after) after after = [] :=
      List.filter_eq_nil_iff.mpr fun r _ => by simp only [decide_eq_true_eq]; omega
    rw [heq, if_pos (.inl le_rfl), hnone]
    simp
  · have hstuck : ¬ (lastOf rows ≤ after ∨
        ∃ r ∈ between rows 0 after, r.sequence = lastOf rows) := by
      rintro (hle | ⟨r, hr, hr'⟩)
      · omega
      · have := (of_decide_eq_true (List.mem_filter.mp hr).2).2
        omega
    rw [if_neg hstuck, if_neg heq]
    rfl

end Pages

/-! ## The journals -/

variable {s : PgJournal} {run : InMemoryRunEventJournal.AppendRun}

/-- The view of a PostgreSQL journal. -/
def pgView (s : PgJournal) : JournalView := ⟨s.readAfter, s.lastSequence⟩

/-- The view of an in-memory journal. -/
def memoryView (journal : InMemoryRunEventJournal) : JournalView :=
  ⟨journal.readAfter, journal.lastSequence⟩

/-- The in-memory view serves what its journal holds. -/
theorem memoryView_serves {log : List JournalRecord} (h : Holds run log) (runId : Text.NonBlank) :
    Serves (memoryView run.journal) runId (JournalLog.ofRun log runId) fun _ => True where
  sorted := List.pairwise_map.mp (h.lawful.sequences runId)
  zero := trivial
  row _ _ := trivial
  readAfter := fun cursor _ => by
    have hverify : (selectJournalPage log runId cursor maxReadLimit).forM
        JournalRecord.verify = .ok () := by
      rw [PgJournal.selectJournalPage_eq h.lawful]
      exact except_forM_eq_ok.mpr fun r hr => h.lawful.intact r
        (JournalLog.mem_ofRun.mp (List.mem_filter.mp (List.mem_of_mem_take hr)).1).1
    have hargs : InMemoryRunEventJournal.validateReadArguments runId cursor maxReadLimit =
        .ok () := by
      unfold InMemoryRunEventJournal.validateReadArguments
      simp [raiseIf, runId.2, maxReadLimit]
    refine (PgJournal.memory_readAfter h runId cursor maxReadLimit).trans ?_
    rw [hargs]
    simp only [Except.mapError, ok_bind, hverify]
    rw [PgJournal.selectJournalPage_eq h.lawful]
    simp only [Nat.cast_lt]
    rfl

variable {runId : Text.NonBlank}

/-- The database serves what its columns can hold. -/
theorem pgView_serves (h : Holds run s.rows) (hfits : ∀ r ∈ s.rows, r.fits = true)
    (hnul : Text.hasNul runId = false) :
    Serves (pgView s) runId (JournalLog.ofRun s.rows runId) (· < integerBound) where
  sorted := List.pairwise_map.mp (h.lawful.sequences runId)
  zero := by decide
  row r hr := by
    have hfit := hfits r (JournalLog.mem_ofRun.mp hr).1
    simp only [JournalRecord.fits, Bool.and_eq_true, decide_eq_true_eq] at hfit
    exact hfit.1.2
  readAfter := fun cursor hcursor =>
    (PgJournal.readAfter_eq h maxReadLimit hnul (Nat.cast_lt.mpr hcursor)).trans
      ((memoryView_serves h runId).readAfter cursor trivial)

theorem pgView_last (h : Holds run s.rows) (hnul : Text.hasNul runId = false) :
    (pgView s).lastSequence runId =
      .ok ((JournalLog.ofRun s.rows runId).map JournalRecord.sequence).max? :=
  (PgJournal.lastSequence_eq h hnul).trans (h.lastSequence_eq runId.2)

/-- A run id that no statement can carry. -/
theorem assessTailAsync_nul (hnul : Text.hasNul runId = true) (after : ℕ) :
    assessTailAsync (pgView s) runId after = .error (.journal PgJournal.operationFailed) := by
  have hread (cursor : ℕ) : (pgView s).readAfter runId cursor maxReadLimit =
      .error PgJournal.operationFailed := by
    have hargs : InMemoryRunEventJournal.validateReadArguments runId cursor maxReadLimit =
        .ok () := by
      unfold InMemoryRunEventJournal.validateReadArguments
      simp [raiseIf, runId.2, maxReadLimit]
    show s.readAfter runId cursor maxReadLimit = _
    unfold PgJournal.readAfter
    rw [hargs, hnul]
    rfl
  have hlast : (pgView s).lastSequence runId = .error PgJournal.operationFailed := by
    show s.lastSequence runId = _
    unfold PgJournal.lastSequence
    rw [runId.2, hnul]
    rfl
  unfold assessTailAsync materialize
  rw [pagesFrom, hread, hlast]
  split_ifs <;> rfl

/-- The stored records of a run. -/
def recordsOf (journal : InMemoryRunEventJournal) (runId : String) : List JournalRecord :=
  (journal.runRecords runId).values

/-- **The tail is read whole.**  Whatever was appended, the validation of a snapshot reads every
record of the run after it, in the order of their sequences and over any number of pages. -/
theorem assessTail_eq (calls : List AppendCall) (runId : Text.NonBlank) (after : ℕ) :
    (recordsOf (runAppends calls).journal runId).Pairwise (fun a b => a.sequence < b.sequence) ∧
    assessTail (memoryView (runAppends calls).journal) runId after =
      if lastOf (recordsOf (runAppends calls).journal runId) < after then
        .error .snapshotSequenceAheadOfJournal
      else .ok ((recordsOf (runAppends calls).journal runId).filter fun r =>
        after < r.sequence) := by
  obtain ⟨log, h⟩ := InMemoryRunEventJournal.runAppends_holds calls
  have hserves := memoryView_serves h runId
  rw [recordsOf, h.represents.values]
  exact ⟨hserves.sorted, hserves.assessTail (h.lastSequence_eq runId.2) after trivial⟩

/-- **A tail is not read through the materialized view.**  After any interleaving of appends to the
PostgreSQL journal, `assess_async` gets past the journal only when nothing was appended since the
snapshot; otherwise it reports a changed journal, or the database refuses the run id. -/
theorem assessTailAsync_eq {acts : List PgJournal.Action}
    (hm : Trace.Along PgJournal.step (fun s a => s.Meets a = true) PgJournal.initially acts)
    (hrun : Trace.run PgJournal.step PgJournal.initially acts = some s) (runId : Text.NonBlank)
    (after : ℕ) :
    assessTailAsync (pgView s) runId after =
      if Text.hasNul runId = true then .error (.journal PgJournal.operationFailed)
      else if lastOf (recordsOf (replay s.history) runId) < after then
        .error .snapshotSequenceAheadOfJournal
      else if lastOf (recordsOf (replay s.history) runId) = after then .ok []
      else .error .journalChanged := by
  have hinv : s.Inv false := Trace.run_keeps (P := PgJournal.Inv false)
    (fun _ _ _ hm hs h => PgJournal.inv_step hm (fun hstrict => nomatch hstrict) hs h) hm hrun PgJournal.inv_initially
  have h : Holds (runAppends (s.history.map PgDone.call)) s.rows := by
    rw [hinv.rows]
    exact hinv.valid.holds
  have hrecords : recordsOf (replay s.history) runId = JournalLog.ofRun s.rows runId :=
    h.represents.values runId
  by_cases hnul : Text.hasNul runId = true
  · rw [if_pos hnul]
    exact assessTailAsync_nul hnul after
  · rw [if_neg hnul, hrecords]
    have hfree := Bool.eq_false_iff.mpr hnul
    exact (pgView_serves h hinv.fits hfree).assessTailAsync (pgView_last h hfree) after
      fun r hr => (JournalLog.mem_ofRun.mp hr).2

theorem assessTailAsync_eq_sample :
    ∃ s, Trace.run PgJournal.step PgJournal.initially
        (PgJournal.sampleActions "e2" ++ [.commit 2]) = some s ∧
      assessTailAsync (pgView s) "run" 0 = .error .journalChanged := by
  have hrun : (Trace.run PgJournal.step PgJournal.initially
      (PgJournal.sampleActions "e2" ++ [.commit 2])).any (fun s =>
        decide (lastOf (recordsOf (replay s.history) "run") = 1)) = true := by
    decide +kernel
  obtain ⟨s, hs, hone⟩ := exists_of_any hrun
  refine ⟨s, hs, ?_⟩
  rw [assessTailAsync_eq (by decide +kernel) hs ⟨"run", rfl⟩ 0, if_neg (by decide), hone]
  rfl

end RecoveryValidator
end LocalAgent.Runtime
