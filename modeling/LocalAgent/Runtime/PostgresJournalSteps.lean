import LocalAgent.Runtime.PostgresJournal

/-!
# LocalAgent.Runtime.PostgresJournalSteps — what each statement of a transaction keeps

* `appendDecision_rows`: on lawful rows the rule of the source is the append of the log.
* `SerialCalls`, `SerialCalls.frame`: calls in a row, and beside the rows of other runs.
* `Inv`: open transactions hold the locks of different runs and write different ids, and what a
  call has read of its run is still so.
* `inv_step`: every statement keeps the history serial.
-/

namespace LocalAgent.Runtime

open JournalRecord
open InMemoryRunEventJournal (AppendCall AppendRun runAppends Holds Represents)

/-! ## What a transaction decides on -/

variable {rows log log' : List JournalRecord} {record : JournalRecord}

theorem selectTerminalSequence_ne_none {runId : String} : selectTerminalSequence rows runId ≠ none ↔
      ∃ r ∈ JournalLog.ofRun rows runId, r.isTerminal = true := by
  rw [selectTerminalSequence, ne_eq, List.head?_eq_none_iff, selectTerminalSequences]
  constructor
  · intro h
    by_contra hnot
    push Not at hnot
    have hnil : (JournalLog.ofRun rows runId).filter JournalRecord.isTerminal = [] :=
      List.filter_eq_nil_iff.mpr fun r hr => by simpa using hnot r hr
    rw [hnil] at h
    exact h rfl
  · rintro ⟨r, hr, hterm⟩ hnil
    have hlen := List.length_insertionSort (· ≤ ·)
      (((JournalLog.ofRun rows runId).filter isTerminal).map sequence)
    rw [hnil, List.length_map] at hlen
    have hmem := List.mem_filter.mpr ⟨hr, hterm⟩
    have := List.length_pos_of_mem hmem
    simp only [List.length_nil] at hlen
    omega

/-- On a lawful log the database's decision is that of the in-memory journal. -/
theorem appendDecision_rows (record : JournalRecord) (hlog : JournalLog.Lawful rows) :
    appendDecision record (selectJournalByEventId rows record.eventId)
        (selectJournalBySequence rows record.runId record.sequence)
        (selectLastJournalSequence rows record.runId) (selectTerminalSequence rows record.runId) =
      match JournalLog.append rows record with
      | .ok .appended => .ok none
      | .ok .duplicate => .ok (some .duplicate)
      | .error code => .error ⟨code, JournalLog.message code⟩ := by
  refine JournalLog.appendDecision_of_reads hlog (fun r => ⟨fun hget => ?_, fun hr => ?_⟩)
    JournalLog.exists_max_le selectTerminalSequence_ne_none
  · exact ⟨List.mem_of_find?_eq_some hget, by simpa using List.find?_some hget⟩
  · obtain ⟨hmem, hseq⟩ := hr
    unfold selectJournalBySequence
    cases hfind : (JournalLog.ofRun rows record.runId).find? (·.sequence = record.sequence) with
    | none => exact absurd (List.find?_eq_none.mp hfind r hmem) (by simp [hseq])
    | some r' =>
      -- one record of a run has the sequence
      have hmem' := List.mem_of_find?_eq_some hfind
      have hseq' : r'.sequence = record.sequence := by simpa using List.find?_some hfind
      obtain ⟨hr, hrun⟩ := JournalLog.mem_ofRun.mp hmem
      obtain ⟨hr', hrun'⟩ := JournalLog.mem_ofRun.mp hmem'
      rw [hlog.eq_of_sequence hr' hr (hrun'.trans hrun.symm) (hseq'.trans hseq.symm)]

/-! ## Calls in a row -/

/-- The rows that calls have written. -/
def logOf (calls : List PgDone) : List JournalRecord :=
  calls.filterMap fun d => match d.status with
    | .appended => some d.record
    | .duplicate => none

@[simp] theorem logOf_nil : logOf [] = [] := rfl

@[simp] theorem logOf_append (as bs : List PgDone) : logOf (as ++ bs) = logOf as ++ logOf bs :=
  List.filterMap_append

/-- Each call has the status that the log gives after those before it. -/
def SerialCalls : List JournalRecord → List PgDone → Prop
  | _, [] => True
  | log, d :: ds => fromEvent d.call.event d.call.now = .ok d.record ∧
      JournalLog.append log d.record = .ok d.status ∧ SerialCalls (log ++ logOf [d]) ds

theorem valid_append {as bs : List PgDone} :
    SerialCalls log (as ++ bs) ↔ SerialCalls log as ∧ SerialCalls (log ++ logOf as) bs := by
  induction as generalizing log with
  | nil => simp [SerialCalls]
  | cons d ds ih =>
    have hlog : log ++ logOf (d :: ds) = (log ++ logOf [d]) ++ logOf ds := by
      rw [List.append_assoc, ← logOf_append]
      rfl
    rw [List.cons_append, SerialCalls, SerialCalls, ih, hlog]
    tauto

variable {d : PgDone} {ds : List PgDone} {call : AppendCall}

theorem lawful_concat (hlog : JournalLog.Lawful log)
    (hrecord : fromEvent d.call.event d.call.now = .ok d.record)
    (happend : JournalLog.append log d.record = .ok d.status) :
    JournalLog.Lawful (log ++ logOf [d]) := by
  obtain ⟨call, record, status⟩ := d
  cases status with
  | appended => exact hlog.concat (verify_fromEvent hrecord) happend
  | duplicate =>
    rwa [show logOf [⟨call, record, .duplicate⟩] = [] from rfl, List.append_nil]

theorem SerialCalls.lawful (hlog : JournalLog.Lawful log)
    (h : SerialCalls log ds) : JournalLog.Lawful (log ++ logOf ds) := by
  induction ds generalizing log with
  | nil => simpa using hlog
  | cons _ _ ih =>
    obtain ⟨hrecord, happend, hrest⟩ := h
    have hnext := ih (lawful_concat hlog hrecord happend) hrest
    rwa [List.append_assoc, ← logOf_append] at hnext

/-- Calls that are serial stay so when records of other runs are added. -/
theorem SerialCalls.frame (h : SerialCalls log ds)
    (hlog : JournalLog.Lawful log') (hsub : ∀ x ∈ log, x ∈ log')
    (hnew : ∀ x ∈ log', x ∈ log ∨ ∀ r ∈ logOf ds, JournalLog.Before x r) : SerialCalls log' ds := by
  induction ds generalizing log log' with
  | nil => trivial
  | cons d ds ih =>
    obtain ⟨hrecord, happend, hrest⟩ := h
    have happend' : JournalLog.append log' d.record = .ok d.status := by
      cases hstatus : d.status with
      | appended =>
        rw [hstatus] at happend
        refine JournalLog.append_eq_appended_iff.mpr fun x hx => ?_
        rcases hnew x hx with hold | hbefore
        · exact JournalLog.append_eq_appended_iff.mp happend x hold
        · refine hbefore d.record (List.mem_filterMap.mpr ⟨d, List.mem_cons_self, ?_⟩)
          rw [hstatus]
      | duplicate =>
        rw [hstatus] at happend
        obtain ⟨r, hr, hid, hdup⟩ := JournalLog.exists_of_append_duplicate happend
        exact hlog.append_duplicate (hsub r hr) hid hdup
    refine ⟨hrecord, happend', ih hrest (lawful_concat hlog hrecord happend') ?_ ?_⟩
    · intro x hx
      rcases List.mem_append.mp hx with hx | hx
      · exact List.mem_append_left _ (hsub x hx)
      · exact List.mem_append_right _ hx
    · intro x hx
      rcases List.mem_append.mp hx with hx | hx
      · rcases hnew x hx with hold | hbefore
        · exact .inl (List.mem_append_left _ hold)
        · refine .inr fun r hr => hbefore r ?_
          rw [show d :: ds = [d] ++ ds from rfl, logOf_append]
          exact List.mem_append_right _ hr
      · exact .inl (List.mem_append_right _ hx)

/-! ## The in-memory journal after the same calls -/

/-- What `InMemoryRunEventJournal.append` answers. -/
def inMemoryAnswer (journal : InMemoryRunEventJournal) (call : AppendCall) : PgAnswer :=
  match InMemoryRunEventJournal.append call.event call.now journal with
  | .ok status _ => .status status
  | .error error _ => .journalError error

def replay (calls : List PgDone) : InMemoryRunEventJournal :=
  (runAppends (calls.map PgDone.call)).journal

variable {run : AppendRun}

theorem holds_step (h : Holds run log) (hrecord : fromEvent d.call.event d.call.now = .ok d.record)
    (happend : JournalLog.append log d.record = .ok d.status) :
    Holds (run.step d.call) (log ++ logOf [d]) := by
  have hmem := InMemoryRunEventJournal.append_refines h.represents h.lawful h.opened hrecord
  rw [happend] at hmem
  obtain ⟨call, record, status⟩ := d
  cases status with
  | appended =>
    have hstep : run.step call =
        ⟨run.journal.insert record, run.accepted ++ [call.event]⟩ := by
      simp [AppendRun.step, Op.after, Op.value?, hmem]
    rw [hstep]
    exact {
      represents := h.represents.insert (JournalLog.append_eq_appended_iff.mp happend)
      lawful := h.lawful.concat (verify_fromEvent hrecord) happend
      opened := h.opened
      recorded := List.rel_append h.recorded (.cons ⟨call.now, hrecord⟩ .nil) }
  | duplicate =>
    have hstep : run.step call = run := by
      simp [AppendRun.step, Op.after, Op.value?, hmem]
    rwa [hstep, show logOf [⟨call, record, .duplicate⟩] = [] from rfl, List.append_nil]

theorem holds_foldl (h : Holds run log) (hvalid : SerialCalls log ds) :
    Holds ((ds.map PgDone.call).foldl AppendRun.step run) (log ++ logOf ds) := by
  induction ds generalizing run log with
  | nil => simpa using h
  | cons _ _ ih =>
    obtain ⟨hrecord, happend, hrest⟩ := hvalid
    have hnext := ih (holds_step h hrecord happend) hrest
    rwa [List.append_assoc, ← logOf_append] at hnext

theorem lawful_nil : JournalLog.Lawful [] := ⟨.nil, fun _ h => absurd h List.not_mem_nil⟩

theorem SerialCalls.holds (h : SerialCalls [] ds) :
    Holds (runAppends (ds.map PgDone.call)) (logOf ds) := by
  have hnew : Holds ⟨InMemoryRunEventJournal.new, []⟩ [] :=
    ⟨InMemoryRunEventJournal.represents_new, lawful_nil, rfl, .nil⟩
  have hrun := holds_foldl hnew h
  rwa [List.nil_append] at hrun

/-- The in-memory journal gives the answer that a serial history records. -/
theorem SerialCalls.answer (h : SerialCalls [] ds)
    (hrecord : fromEvent call.event call.now = .ok record) : inMemoryAnswer (replay ds) call =
      match JournalLog.append (logOf ds) record with
      | .ok status => .status status
      | .error code => .journalError ⟨code, JournalLog.message code⟩ := by
  have hholds := h.holds
  have happend := InMemoryRunEventJournal.append_refines hholds.represents hholds.lawful
    hholds.opened hrecord
  unfold inMemoryAnswer replay
  rw [happend]
  cases JournalLog.append (logOf ds) record with
  | error => rfl
  | ok status => cases status <;> rfl

/-- The columns can hold what the next statement of the call sends. -/
def PgActive.fits (active : PgActive) : Bool :=
  match active.phase with
  | .locking => !Text.hasNul active.record.runId
  | .locked => !Text.hasNul active.record.eventId
  | .idRead _ => active.record.sequence < integerBound
  | .sequenceRead _ _ | .lastRead _ _ _ => true
  | .inserting => active.record.fits

namespace PgJournal

/-! ## The invariant -/

def PgPhase.Reads (rows : List JournalRecord) (record : JournalRecord) : PgPhase → Prop
  | .locking => True
  | .locked => True
  | .idRead existingId => existingId = selectJournalByEventId rows record.eventId
  | .sequenceRead existingId existingSequence =>
    existingId = selectJournalByEventId rows record.eventId ∧
      existingSequence = selectJournalBySequence rows record.runId record.sequence
  | .lastRead existingId existingSequence lastSequence =>
    existingId = selectJournalByEventId rows record.eventId ∧
      existingSequence = selectJournalBySequence rows record.runId record.sequence ∧
      lastSequence = selectLastJournalSequence rows record.runId
  | .inserting => JournalLog.append rows record = .ok .appended

/-- The call holds the lock of its run. -/
def PgPhase.isLocked : PgPhase → Bool
  | .locking => false
  | _ => true

/-- The call has read the event id. -/
def PgPhase.hasRead : PgPhase → Bool
  | .locking => false
  | .locked => false
  | _ => true

/-- The call's reads are those of a moment since which nothing of its run has been committed. -/
structure ActiveOk (s : PgJournal) (tx : PgTransaction) (active : PgActive) : Prop where
  record : fromEvent active.call.event active.call.now = .ok active.record
  locked : PgPhase.isLocked active.phase = true → active.record.runId ∈ tx.locks
  seen : PgPhase.hasRead active.phase = true → active.seen <+: s.history ∧
    SerialCalls [] (active.seen ++ tx.done) ∧
    JournalLog.ofRun (logOf active.seen) active.record.runId =
      JournalLog.ofRun s.rows active.record.runId
  reads : PgPhase.Reads (logOf (active.seen ++ tx.done)) active.record active.phase

structure TxOk (s : PgJournal) (tx : PgTransaction) : Prop where
  rows : tx.rows = logOf tx.done
  valid : SerialCalls s.rows tx.done
  locked : ∀ r ∈ tx.rows, r.runId ∈ tx.locks
  single : tx.own = true → tx.done.length ≤ 1 ∧ (tx.active.isSome = true → tx.done = [])
  fits : ∀ r ∈ tx.rows, r.fits = true
  active : ∀ active, tx.active = some active → ActiveOk s tx active

/-- Two transactions hold the locks of different runs and write different ids. -/
structure Apart (tx tx' : PgTransaction) : Prop where
  locks : ∀ runId ∈ tx.locks, runId ∉ tx'.locks
  ids : ∀ r ∈ tx.rows, ∀ r' ∈ tx'.rows, r.eventId ≠ r'.eventId

/-- An answer is that of the in-memory journal after the calls of a prefix of the history and
those of the call's own transaction. -/
def AnsweredOk (history : List PgDone) (a : PgAnswered) : Prop :=
  a.committed <+: history ∧ inMemoryAnswer (replay (a.committed ++ a.before)) a.call = a.answer

/-- What every step keeps; `strict` is whether the columns hold whatever is sent. -/
structure Inv (strict : Bool) (s : PgJournal) : Prop where
  rows : s.rows = logOf s.history
  fits : ∀ r ∈ s.rows, r.fits = true
  valid : SerialCalls [] s.history
  tx : ∀ t tx, s.transactions.get? t = some tx → TxOk s tx
  apart : ∀ t t' tx tx', t ≠ t' → s.transactions.get? t = some tx →
    s.transactions.get? t' = some tx' → Apart tx tx'
  answered : strict = true → ∀ a ∈ s.answered, AnsweredOk s.history a

variable {strict : Bool}

theorem inv_initially : initially.Inv strict where
  rows := rfl
  fits _ h := nomatch h
  valid := trivial
  tx _ _ h := nomatch h
  apart _ _ _ _ _ h := nomatch h
  answered _ _ h := nomatch h

variable {s s' : PgJournal} {t : ℕ} {tx tx' : PgTransaction} {active : PgActive}

theorem Inv.lawful (h : s.Inv strict) : JournalLog.Lawful s.rows := by
  have hlaw := h.valid.lawful lawful_nil
  rw [List.nil_append] at hlaw
  rwa [h.rows]

theorem Inv.lawful_tx (h : s.Inv strict) (ht : s.transactions.get? t = some tx) :
    JournalLog.Lawful (s.rows ++ tx.rows) := by
  rw [(h.tx t tx ht).rows]
  exact (h.tx t tx ht).valid.lawful h.lawful

theorem Inv.valid_tx (h : s.Inv strict) (ht : s.transactions.get? t = some tx) :
    SerialCalls [] (s.history ++ tx.done) := by
  refine valid_append.mpr ⟨h.valid, ?_⟩
  rw [List.nil_append, ← h.rows]
  exact (h.tx t tx ht).valid

theorem Apart.symm (h : Apart tx tx') : Apart tx' tx where
  locks runId hr hr' := h.locks runId hr' hr
  ids r hr r' hr' heq := h.ids r' hr' r hr heq.symm

/-- A changed transaction, when it keeps apart from the others. -/
theorem Inv.put (h : s.Inv strict) (hok : TxOk s tx')
    (happart : ∀ u txu, u ≠ t → s.transactions.get? u = some txu → Apart tx' txu) :
    (s.put t tx').Inv strict where
  rows := h.rows
  fits := h.fits
  valid := h.valid
  tx u txu hu := by
    unfold PgJournal.put at hu
    rcases Dict.get?_set_cases hu with ⟨-, rfl⟩ | ⟨-, hu⟩
    · exact ⟨hok.rows, hok.valid, hok.locked, hok.single, hok.fits, fun a ha =>
        ⟨(hok.active a ha).record, (hok.active a ha).locked, (hok.active a ha).seen,
          (hok.active a ha).reads⟩⟩
    · have hold := h.tx u txu hu
      exact ⟨hold.rows, hold.valid, hold.locked, hold.single, hold.fits, fun a ha =>
        ⟨(hold.active a ha).record, (hold.active a ha).locked, (hold.active a ha).seen,
          (hold.active a ha).reads⟩⟩
  apart u v txu txv hne hu hv := by
    unfold PgJournal.put at hu hv
    rw [Dict.get?_set] at hu hv
    split_ifs at hu hv with hut hvt hvt
    · exact absurd (hut.trans hvt.symm) hne
    · cases hu
      exact happart v txv hvt hv
    · cases hv
      exact (happart u txu hut hu).symm
    · exact h.apart u v txu txv hne hu hv
  answered := h.answered

theorem Inv.put_same (h : s.Inv strict) (ht : s.transactions.get? t = some tx) (hok : TxOk s tx')
    (hlocks : tx'.locks = tx.locks) (hrows : tx'.rows = tx.rows) : (s.put t tx').Inv strict := by
  refine h.put hok fun u txu hne hu => ?_
  have happart := h.apart t u tx txu hne.symm ht hu
  exact ⟨hlocks ▸ happart.locks, hrows ▸ happart.ids⟩

theorem Inv.answer (h : s.Inv strict) {a : PgAnswered}
    (ha : strict = true → AnsweredOk s.history a) :
    Inv strict { s with answered := s.answered ++ [a] } where
  rows := h.rows
  fits := h.fits
  valid := h.valid
  tx u txu hu := by
    have hold := h.tx u txu hu
    exact ⟨hold.rows, hold.valid, hold.locked, hold.single, hold.fits, fun a ha =>
      ⟨(hold.active a ha).record, (hold.active a ha).locked, (hold.active a ha).seen,
        (hold.active a ha).reads⟩⟩
  apart := h.apart
  answered hstrict b hb := by
    rcases mem_snoc hb with hb | rfl
    · exact h.answered hstrict b hb
    · exact ha hstrict

variable {committed : List PgDone} {answer : PgAnswer} {txu : PgTransaction}

theorem Inv.raise (h : s.Inv strict) (ht : s.transactions.get? t = some tx)
    (ha : strict = true → AnsweredOk s.history ⟨committed, tx.done, call, answer⟩) :
    (s.raise t tx committed call answer).Inv strict := by
  have hold := h.tx t tx ht
  have hput : Inv strict (s.put t { tx with active := none, aborted := tx.own || answer.aborts }) :=
    h.put_same ht ⟨hold.rows, hold.valid, hold.locked,
      fun hown => ⟨(hold.single hown).1, fun hc => nomatch hc⟩, hold.fits,
      fun _ hc => nomatch hc⟩ rfl rfl
  exact hput.answer ha

/-- A value that does not fit ends the call. -/
theorem Inv.refuse (h : s.Inv strict) (ht : s.transactions.get? t = some tx)
    {exception : PgException} (hexception : exception = .data ∨ exception = .argument)
    (hloose : strict = false) : (s.refuse t tx active exception).Inv strict := by
  unfold PgJournal.refuse
  dsimp only
  rw [if_neg]
  · exact h.raise ht fun hstrict => nomatch hloose.symm.trans hstrict
  · rintro ⟨hown, hintegrity, -⟩
    rw [if_pos hown] at hintegrity
    rcases hexception with rfl | rfl
    · cases hintegrity
    · cases hintegrity

/-! ## What is visible to a transaction -/

theorem mem_others {p : PgTransaction → Bool} (h : s.others t p = true) {u : ℕ}
(hne : u ≠ t) (hu : s.transactions.get? u = some txu) : p txu = true := by
  have hall := List.all_eq_true.mp h (u, txu) (Dict.get?_eq_some_iff.mp hu)
  simpa [hne] using hall

theorem ofRun_append (as bs : List JournalRecord) (runId : String) :
    JournalLog.ofRun (as ++ bs) runId = JournalLog.ofRun as runId ++ JournalLog.ofRun bs runId :=
  List.filter_append ..

theorem ActiveOk.ofRun_eq (hok : TxOk s tx) (h : ActiveOk s tx active)
    (hread : PgPhase.hasRead active.phase = true) :
    JournalLog.ofRun (s.rows ++ tx.rows) active.record.runId =
      JournalLog.ofRun (logOf (active.seen ++ tx.done)) active.record.runId := by
  rw [ofRun_append, logOf_append, ofRun_append, (h.seen hread).2.2, hok.rows]

theorem ActiveOk.lawful (h : ActiveOk s tx active) (hread : PgPhase.hasRead active.phase = true) :
    JournalLog.Lawful (logOf (active.seen ++ tx.done)) := by
  have hlaw := (h.seen hread).2.1.lawful lawful_nil
  rwa [List.nil_append] at hlaw

theorem ActiveOk.mem_rows (h : s.Inv strict) (hok : TxOk s tx) (ha : ActiveOk s tx active)
    (hread : PgPhase.hasRead active.phase = true) {r : JournalRecord}
    (hr : r ∈ logOf (active.seen ++ tx.done)) : r ∈ s.rows ++ tx.rows := by
  rw [logOf_append] at hr
  obtain ⟨_, hrest⟩ := (ha.seen hread).1
  rw [h.rows, ← hrest, logOf_append, hok.rows]
  rcases List.mem_append.mp hr with hr | hr
  · exact List.mem_append_left _ (List.mem_append_left _ hr)
  · exact List.mem_append_right _ hr

/-! ## Each statement keeps the invariant -/

/-- No insert meets an id that another transaction has committed since the call read it, and a
call inside a transaction of the caller has an event that can be recorded. -/
def Meets (s : PgJournal) : Action → Bool
  | .insert t => (s.transactions.get? t).all fun tx => tx.active.all fun active =>
    s.rows.all fun row => row.eventId ≠ active.record.eventId
  | .call t call => (s.transactions.get? t).all fun tx =>
    tx.own || (fromEvent call.event call.now).isOk
  | _ => true

/-- The columns can hold what the statement sends. -/
def Fits (s : PgJournal) : Action → Bool
  | .lock t | .read t | .insert t => (s.transactions.get? t).all fun tx =>
    tx.active.all PgActive.fits
  | .begin _ _ | .call _ _ | .commit _ | .rollback _ => true

theorem inv_begin {own : Bool} (h : s.Inv strict) (hs : s.begin t own = some s') : s'.Inv strict := by
  unfold begin at hs
  split at hs
  · cases hs
  · cases hs
    refine h.put ⟨rfl, trivial, fun _ hr => (nomatch hr),
      fun _ => ⟨Nat.zero_le 1, fun _ => rfl⟩, fun _ hr => (nomatch hr), fun _ ha => nomatch ha⟩ ?_
    exact fun _ _ _ _ => ⟨fun _ hr => (nomatch hr), fun _ hr => nomatch hr⟩

theorem inv_call (h : s.Inv strict) (ht : s.transactions.get? t = some tx)
    (hm : (tx.own || (fromEvent call.event call.now).isOk) = true)
    (hs : s.call t tx call = some s') : s'.Inv strict := by
  have hold := h.tx t tx ht
  unfold PgJournal.call at hs
  split at hs
  · cases hs
  · rename_i hready
    have hdone (hown : tx.own = true) : tx.done = [] := by
      have hfree : (tx.aborted = false ∧ tx.active = none) ∧ tx.done = [] := by
        simpa [hown] using hready
      exact hfree.2
    split at hs
    · rename_i record hrecord
      cases hs
      refine h.put_same ht ⟨hold.rows, hold.valid, hold.locked,
        fun hown => ⟨(hold.single hown).1, fun _ => hdone hown⟩, hold.fits, fun active ha => ?_⟩
        rfl rfl
      cases ha
      exact ⟨hrecord, fun hc => (nomatch hc), fun hc => (nomatch hc), trivial⟩
    · rename_i e hrecord
      cases hs
      have hown : tx.own = true := by
        rw [hrecord] at hm
        simpa [Except.isOk, Except.toBool] using hm
      refine h.raise ht fun _ => ⟨List.prefix_refl _, ?_⟩
      rw [if_pos hown]
      unfold inMemoryAnswer
      rw [InMemoryRunEventJournal.append_unrecordable hrecord]

theorem inv_lock (h : s.Inv strict) (ht : s.transactions.get? t = some tx)
    (hactive : tx.active = some active)
    (hfits : strict = true → Text.hasNul active.record.runId = false)
    (hs : s.lock t tx active = some s') : s'.Inv strict := by
  have hold := h.tx t tx ht
  have ha := hold.active active hactive
  unfold lock at hs
  split_ifs at hs with hnul hothers
  · cases hs
    exact h.refuse ht (.inl rfl) (Bool.eq_false_iff.mpr fun hstrict =>
      nomatch hnul.symm.trans (hfits hstrict))
  · cases hs
    refine h.put ⟨hold.rows, hold.valid, ?_, fun hown => ?_, hold.fits, fun active' hc => ?_⟩
      fun u txu hne hu => ?_
    · exact fun r hr => List.mem_cons_of_mem _ (hold.locked r hr)
    · exact ⟨(hold.single hown).1, fun _ => (hold.single hown).2 (by rw [hactive]; rfl)⟩
    · cases hc
      exact ⟨ha.record, fun _ => List.mem_cons_self, fun hc => (nomatch hc), trivial⟩
    · have happart := h.apart t u tx txu hne.symm ht hu
      have hfree := mem_others hothers hne hu
      refine ⟨fun runId hr => ?_, happart.ids⟩
      rcases List.mem_cons.mp hr with rfl | hr
      · simpa using hfree
      · exact happart.locks runId hr

theorem inv_settle (h : s.Inv strict) (ht : s.transactions.get? t = some tx)
    (hactive : tx.active = some active)
    (hlocked : d.record.runId ∈ tx.locks) (hrecord : fromEvent d.call.event d.call.now = .ok d.record)
    (happend : JournalLog.append (s.rows ++ tx.rows) d.record = .ok d.status)
    (hids : d.status = .appended → ∀ u txu, u ≠ t → s.transactions.get? u = some txu →
      ∀ r ∈ txu.rows, d.record.eventId ≠ r.eventId)
    (hfits : d.status = .appended → d.record.fits = true)
    (hanswer : AnsweredOk s.history ⟨committed, tx.done, d.call, .status d.status⟩) :
    (s.settle t tx committed d (logOf [d])).Inv strict := by
  have hold := h.tx t tx ht
  have hmem (r : JournalRecord) (hr : r ∈ logOf [d]) : r = d.record ∧ d.status = .appended := by
    obtain ⟨_, _, status⟩ := d
    cases status with
    | appended => exact ⟨List.mem_singleton.mp hr, rfl⟩
    | duplicate => cases hr
  have hput : Inv strict (s.put t { tx with
      active := none, rows := tx.rows ++ logOf [d], done := tx.done ++ [d] }) := by
    refine h.put ⟨?_, ?_, ?_, fun hown => ⟨?_, fun hc => nomatch hc⟩, fun r hr => ?_,
      fun _ hc => nomatch hc⟩ fun u txu hne hu => ?_
    · rw [logOf_append, hold.rows]
    · refine valid_append.mpr ⟨hold.valid, hrecord, ?_, trivial⟩
      rwa [← hold.rows]
    · intro r hr
      rcases List.mem_append.mp hr with hr | hr
      · exact hold.locked r hr
      · rwa [(hmem r hr).1]
    · rw [(hold.single hown).2 (by rw [hactive]; rfl)]
      exact le_rfl
    · rcases List.mem_append.mp hr with hr | hr
      · exact hold.fits r hr
      · exact (hmem r hr).1 ▸ hfits (hmem r hr).2
    · have happart := h.apart t u tx txu hne.symm ht hu
      refine ⟨happart.locks, fun r hr r' hr' => ?_⟩
      rcases List.mem_append.mp hr with hr | hr
      · exact happart.ids r hr r' hr'
      · rw [(hmem r hr).1]
        exact hids (hmem r hr).2 u txu hne hu r' hr'
  unfold settle
  by_cases hown : tx.own = true
  · rwa [if_pos hown]
  · rw [if_neg hown]
    exact hput.answer fun _ => hanswer

theorem inv_phase (h : s.Inv strict) (ht : s.transactions.get? t = some tx)
    (hsome : tx.active.isSome = true) {active' : PgActive}
    (hok : ActiveOk s tx active') :
    (s.put t { tx with active := some active' }).Inv strict := by
  have hold := h.tx t tx ht
  refine h.put_same ht ⟨hold.rows, hold.valid, hold.locked,
    fun hown => ⟨(hold.single hown).1, fun _ => (hold.single hown).2 hsome⟩, hold.fits,
    fun _ ha => ?_⟩ rfl rfl
  cases ha
  exact ⟨hok.record, hok.locked, hok.seen, hok.reads⟩

theorem answeredOk_seen (ha : ActiveOk s tx active) (hread : PgPhase.hasRead active.phase = true)
    (hanswer : (match JournalLog.append (logOf (active.seen ++ tx.done)) active.record with
      | .ok status => PgAnswer.status status
      | .error code => .journalError ⟨code, JournalLog.message code⟩) = answer) :
    AnsweredOk s.history ⟨active.seen, tx.done, active.call, answer⟩ := by
  obtain ⟨hpast, hvalid, -⟩ := ha.seen hread
  exact ⟨hpast, (hvalid.answer ha.record).trans hanswer⟩

/-- The reads of a call see a prefix of what the lock protects. -/
theorem inv_read (h : s.Inv strict) (ht : s.transactions.get? t = some tx)
    (hactive : tx.active = some active) (hfits : strict = true → active.fits = true)
    (hs : s.read t tx active = some s') : s'.Inv strict := by
  have hold := h.tx t tx ht
  have ha := hold.active active hactive
  have hsome : tx.active.isSome = true := by rw [hactive]; rfl
  obtain ⟨call, record, seen, phase⟩ := active
  cases phase with
  | locking | inserting => cases hs
  | locked =>
    simp only [PgJournal.read] at hs
    split_ifs at hs with hnul
    · cases hs
      exact h.refuse ht (.inl rfl) (Bool.eq_false_iff.mpr fun hstrict => by
        have hfit := hfits hstrict
        rw [PgActive.fits, hnul] at hfit
        cases hfit)
    cases hs
    refine inv_phase h ht hsome ⟨ha.record, fun _ => ha.locked rfl, fun _ => ?_, ?_⟩
    · exact ⟨List.prefix_refl _, h.valid_tx ht, by rw [h.rows]⟩
    · change selectJournalByEventId _ _ = selectJournalByEventId _ _
      rw [logOf_append, ← h.rows, ← hold.rows]
  | idRead =>
    simp only [PgJournal.read] at hs
    split_ifs at hs with hbound
    · cases hs
      exact h.refuse ht (.inr rfl) (Bool.eq_false_iff.mpr fun hstrict =>
        absurd (of_decide_eq_true (hfits hstrict)) (not_lt.mpr hbound))
    cases hs
    refine inv_phase h ht hsome
      ⟨ha.record, fun _ => ha.locked rfl, fun _ => ha.seen rfl, ha.reads, ?_⟩
    unfold selectJournalBySequence
    rw [ha.ofRun_eq hold rfl]
  | sequenceRead =>
    cases hs
    refine inv_phase h ht hsome ⟨ha.record, fun _ => ha.locked rfl, fun _ => ha.seen rfl,
      ha.reads.1, ha.reads.2, ?_⟩
    unfold selectLastJournalSequence
    rw [ha.ofRun_eq hold rfl]
  | lastRead =>
    obtain ⟨hid, hseq, hlast⟩ := ha.reads
    have hterminal : selectTerminalSequence (s.rows ++ tx.rows) record.runId =
        selectTerminalSequence (logOf (seen ++ tx.done)) record.runId := by
      unfold selectTerminalSequence selectTerminalSequences
      rw [ha.ofRun_eq hold rfl]
    have hdecision := appendDecision_rows record (ha.lawful rfl)
    rw [← hid, ← hseq, ← hlast, ← hterminal] at hdecision
    unfold PgJournal.read at hs
    dsimp only at hs
    rw [hdecision] at hs
    cases happend : JournalLog.append (logOf (seen ++ tx.done)) record with
    | error =>
      rw [happend] at hs
      cases hs
      exact h.raise ht fun _ => answeredOk_seen ha rfl (by rw [happend])
    | ok status =>
      rw [happend] at hs
      cases status with
      | appended =>
        cases hs
        exact inv_phase h ht hsome
          ⟨ha.record, fun _ => ha.locked rfl, fun _ => ha.seen rfl, happend⟩
      | duplicate =>
        cases hs
        obtain ⟨r, hr, hrid, hdup⟩ := JournalLog.exists_of_append_duplicate happend
        have hvisible := ActiveOk.mem_rows h hold ha rfl hr
        exact inv_settle h ht hactive (d := ⟨call, record, .duplicate⟩) (ha.locked rfl) ha.record
          ((h.lawful_tx ht).append_duplicate hvisible hrid hdup) (fun hc => nomatch hc)
          (fun hc => nomatch hc) (answeredOk_seen ha rfl (by rw [happend]))

/-- Rows that exclude the record were seen by the reads. -/
theorem appended_of_seen (h : s.Inv strict) (ht : s.transactions.get? t = some tx)
    (hactive : tx.active = some active) (hphase : active.phase = .inserting)
    (hids : ∀ row ∈ s.rows, row.eventId ≠ active.record.eventId) :
    JournalLog.append (s.rows ++ tx.rows) active.record = .ok .appended := by
  have hold := h.tx t tx ht
  have ha := hold.active active hactive
  have hread : PgPhase.hasRead active.phase = true := by rw [hphase]; rfl
  have hreads := ha.reads
  rw [hphase] at hreads
  have hbefore := JournalLog.append_eq_appended_iff.mp hreads
  refine JournalLog.append_eq_appended_iff.mpr fun r hr => ?_
  by_cases hrun : r.runId = active.record.runId
  · -- nothing of the run has come since the reads
    have hmem : r ∈ JournalLog.ofRun (s.rows ++ tx.rows) active.record.runId :=
      JournalLog.mem_ofRun.mpr ⟨hr, hrun⟩
    rw [ha.ofRun_eq hold hread] at hmem
    exact hbefore r (JournalLog.mem_ofRun.mp hmem).1
  · refine ⟨?_, fun hc => absurd hc hrun⟩
    rcases List.mem_append.mp hr with hr | hr
    · exact hids r hr
    · refine (hbefore r ?_).1
      rw [logOf_append, ← hold.rows]
      exact List.mem_append_right _ hr

theorem not_excludes_of_before {r record : JournalRecord} (h : JournalLog.Before r record) :
    r.excludes record = false := by
  unfold JournalRecord.excludes
  simp only [decide_eq_false_iff_not]
  rintro (hid | ⟨hrun, _⟩ | ⟨hrun, hterm, -⟩)
  · exact h.1 hid
  · have := (h.2 hrun).1
    omega
  · rw [(h.2 hrun).2] at hterm
    exact absurd hterm Bool.false_ne_true

/-- The insertion after the reads. -/
theorem inv_insert (h : s.Inv strict) (ht : s.transactions.get? t = some tx)
    (hactive : tx.active = some active) (hfits : strict = true → active.fits = true)
    (hids : ∀ row ∈ s.rows, row.eventId ≠ active.record.eventId)
    (hs : s.insert t tx active = some s') : s'.Inv strict := by
  have ha := (h.tx t tx ht).active active hactive
  unfold insert at hs
  split at hs
  · rename_i hphase
    rw [PgActive.fits, hphase] at hfits
    by_cases hfit : active.record.fits = false
    · rw [if_pos hfit] at hs
      cases hs
      exact h.refuse ht (.inl rfl) (Bool.eq_false_iff.mpr fun hstrict =>
        nomatch hfit.symm.trans (hfits hstrict))
    rw [if_neg hfit] at hs
    have happend := appended_of_seen h ht hactive hphase hids
    have hbefore := JournalLog.append_eq_appended_iff.mp happend
    have hnone : ((s.rows ++ tx.rows).any fun row => row.excludes active.record) = false :=
      List.any_eq_false.mpr fun r hr => by rw [not_excludes_of_before (hbefore r hr)]; decide
    rw [hnone, if_neg (by decide)] at hs
    split at hs
    · rename_i hothers
      cases hs
      refine inv_settle h ht hactive (d := ⟨active.call, active.record, .appended⟩)
        (ha.locked (by rw [hphase]; rfl)) ha.record happend (fun _ u txu hne hu r hr => ?_)
        (fun _ => Bool.not_eq_false _ ▸ hfit) ?_
      · have hfree := mem_others hothers hne hu
        intro heq
        have hexcludes : r.excludes active.record = true := decide_eq_true (.inl heq.symm)
        simp only [Bool.not_eq_true', List.any_eq_false] at hfree
        exact hfree r hr hexcludes
      · refine ⟨List.prefix_refl _, ?_⟩
        rw [(h.valid_tx ht).answer ha.record, logOf_append, ← h.rows, ← (h.tx t tx ht).rows,
          happend]
    · cases hs
  · cases hs

theorem ActiveOk.commit (hok : TxOk s tx) (ha : ActiveOk s txu active) (happart : Apart tx txu) :
    ActiveOk ⟨s.rows ++ tx.rows, s.transactions.erase t, s.history ++ tx.done, s.answered⟩ txu
      active where
  record := ha.record
  locked := ha.locked
  seen hread := by
    obtain ⟨hpast, hvalid, hrun⟩ := ha.seen hread
    refine ⟨hpast.trans (List.prefix_append _ _), hvalid, ?_⟩
    have hlock : active.record.runId ∈ txu.locks := by
      refine ha.locked ?_
      revert hread
      cases active.phase with
      | locking => exact fun hread => nomatch hread
      | _ => exact fun _ => rfl
    have hnil : JournalLog.ofRun tx.rows active.record.runId = [] := by
      refine List.filter_eq_nil_iff.mpr fun r hr => ?_
      intro hc
      have hheld := hok.locked r hr
      rw [of_decide_eq_true hc] at hheld
      exact happart.locks _ hheld hlock
    rwa [ofRun_append, hnil, List.append_nil]
  reads := ha.reads

/-- A commit makes the rows of its transaction visible at once. -/
theorem inv_commit (h : s.Inv strict) (ht : s.transactions.get? t = some tx)
    (hs : s.commit t tx = some s') : s'.Inv strict := by
  have hold := h.tx t tx ht
  have hlaw := h.lawful_tx ht
  unfold commit at hs
  split at hs
  · cases hs
  · cases hs
    have herase (u : ℕ) (txu : PgTransaction)
        (hu : (s.transactions.erase t).get? u = some txu) :
        u ≠ t ∧ s.transactions.get? u = some txu := by
      rw [Dict.get?_erase] at hu
      split_ifs at hu with heq
      exact ⟨heq, hu⟩
    refine {
      rows := by rw [logOf_append, h.rows, hold.rows]
      fits := List.forall_mem_append.mpr ⟨h.fits, hold.fits⟩
      valid := h.valid_tx ht
      tx := fun u txu hu => ?_
      apart := fun u v txu txv hne hu hv =>
        h.apart u v txu txv hne (herase u txu hu).2 (herase v txv hv).2
      answered := fun hstrict a ha => ?_ }
    · obtain ⟨hne, hu⟩ := herase u txu hu
      have hother := h.tx u txu hu
      have happart := h.apart t u tx txu hne.symm ht hu
      refine ⟨hother.rows, ?_, hother.locked, hother.single, hother.fits,
        fun active ha => ?_⟩
      · refine hother.valid.frame hlaw (fun x hx => List.mem_append_left _ hx) fun x hx => ?_
        rcases List.mem_append.mp hx with hx | hx
        · exact .inl hx
        · refine .inr fun r hr => ?_
          rw [← hother.rows] at hr
          refine ⟨happart.ids x hx r hr, fun hrun => ?_⟩
          have hheld := hold.locked x hx
          rw [hrun] at hheld
          exact absurd (hother.locked r hr) (happart.locks _ hheld)
      · have hcommit := (hother.active active ha).commit (t := t) hold happart
        exact ⟨hcommit.record, hcommit.locked, hcommit.seen, hcommit.reads⟩
    · have hkeep (a : PgAnswered) (ha : AnsweredOk s.history a) :
          AnsweredOk (s.history ++ tx.done) a :=
        ⟨ha.1.trans (List.prefix_append _ _), ha.2⟩
      split_ifs at ha with hown
      · rcases List.mem_append.mp ha with ha | ha
        · exact hkeep a (h.answered hstrict a ha)
        · -- the one call of the transaction, after the history
          obtain ⟨d, hd, rfl⟩ := List.mem_map.mp ha
          refine hkeep _ ⟨List.prefix_refl _, ?_⟩
          obtain ⟨_, hdone⟩ := List.length_eq_one_iff.mp (le_antisymm (hold.single hown).1
            (List.length_pos_of_mem hd))
          rw [hdone] at hd
          cases List.mem_singleton.mp hd
          have hvalid := hold.valid
          rw [hdone] at hvalid
          rw [List.append_nil, h.valid.answer hvalid.1, ← h.rows, hvalid.2.1]
      · exact hkeep a (h.answered hstrict a ha)

/-- A rollback leaves no row. -/
theorem inv_rollback (h : s.Inv strict) :
    Inv strict { s with transactions := s.transactions.erase t } := by
  have herase (u : ℕ) (txu : PgTransaction)
      (hu : (s.transactions.erase t).get? u = some txu) :
      s.transactions.get? u = some txu := by
    rw [Dict.get?_erase] at hu
    split_ifs at hu
    exact hu
  exact {
    rows := h.rows
    fits := h.fits
    valid := h.valid
    tx := fun u txu hu => by
      have hold := h.tx u txu (herase u txu hu)
      exact ⟨hold.rows, hold.valid, hold.locked, hold.single, hold.fits, fun a ha =>
        ⟨(hold.active a ha).record, (hold.active a ha).locked, (hold.active a ha).seen,
          (hold.active a ha).reads⟩⟩
    apart := fun u v txu txv hne hu hv =>
      h.apart u v txu txv hne (herase u txu hu) (herase v txv hv)
    answered := h.answered }

theorem inv_inCall {f : PgTransaction → PgActive → Option PgJournal}
    (hs : s.inCall t f = some s') : ∃ tx active, s.transactions.get? t = some tx ∧
      tx.active = some active ∧ f tx active = some s' := by
  obtain ⟨tx, ht, hs⟩ := Option.bind_eq_some_iff.mp hs
  obtain ⟨active, hactive, hs⟩ := Option.bind_eq_some_iff.mp hs
  exact ⟨tx, active, ht, hactive, hs⟩

theorem inv_step {a : Action} (hm : s.Meets a = true) (hfits : strict = true → s.Fits a = true)
    (hs : s.step a = some s') (h : s.Inv strict) : s'.Inv strict := by
  have hactive {t : ℕ} {tx : PgTransaction} {active : PgActive}
      (ht : s.transactions.get? t = some tx) (ha : tx.active = some active)
      (hall : ((s.transactions.get? t).all fun tx => tx.active.all PgActive.fits) = true) :
      active.fits = true := by
    rwa [ht, Option.all_some, ha, Option.all_some] at hall
  cases a with
  | begin => exact inv_begin h hs
  | call t call =>
    obtain ⟨tx, ht, hs⟩ := Option.bind_eq_some_iff.mp hs
    have hm : ((s.transactions.get? t).all fun tx =>
        tx.own || (fromEvent call.event call.now).isOk) = true := hm
    rw [ht] at hm
    exact inv_call h ht hm hs
  | lock =>
    obtain ⟨tx, active, ht, ha, hs⟩ := inv_inCall hs
    split at hs
    · rename_i hphase
      refine inv_lock h ht ha (fun hstrict => ?_) hs
      have hfit := hactive ht ha (hfits hstrict)
      rwa [PgActive.fits, hphase, Bool.not_eq_true'] at hfit
    · cases hs
  | read =>
    obtain ⟨tx, active, ht, ha, hs⟩ := inv_inCall hs
    exact inv_read h ht ha (fun hstrict => hactive ht ha (hfits hstrict)) hs
  | insert t =>
    obtain ⟨tx, active, ht, ha, hs⟩ := inv_inCall hs
    have hm : ((s.transactions.get? t).all fun tx => tx.active.all fun active =>
        s.rows.all fun row => row.eventId ≠ active.record.eventId) = true := hm
    rw [ht, Option.all_some, ha, Option.all_some] at hm
    refine inv_insert h ht ha (fun hstrict => hactive ht ha (hfits hstrict)) (fun row hrow => ?_) hs
    exact of_decide_eq_true (List.all_eq_true.mp hm row hrow)
  | commit =>
    obtain ⟨tx, ht, hs⟩ := Option.bind_eq_some_iff.mp hs
    exact inv_commit h ht hs
  | rollback =>
    obtain ⟨_, -, hs⟩ := Option.bind_eq_some_iff.mp hs
    cases hs
    exact inv_rollback h

end PgJournal

end LocalAgent.Runtime
