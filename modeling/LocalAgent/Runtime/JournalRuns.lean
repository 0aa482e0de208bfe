import LocalAgent.Runtime.JournalLog

/-!
# LocalAgent.Runtime.JournalRuns — sequences of appends to the in-memory journal

`runAppends calls` is the journal after any sequence of `append` calls, with the events whose
append returned `APPENDED` in the order of the calls.

* `Holds.step`, `runAppends_holds`: the journal represents a lawful log of the accepted events.
* `verifyRun_ok`: the check that reads make never finds a fault.
* `appends_sound`: the law of the store over every sequence of calls.
-/

namespace LocalAgent.Runtime

namespace InMemoryRunEventJournal

open JournalRecord

/-! ## Runs -/

/-- One call of `append`, with the clock reading it takes. -/
structure AppendCall where
  event : RuntimeEvent
  now : DateTime.Utc

structure AppendRun where
  journal : InMemoryRunEventJournal
  accepted : List RuntimeEvent

def AppendRun.step (run : AppendRun) (call : AppendCall) : AppendRun where
  journal := Op.after (append call.event call.now) run.journal
  accepted :=
    if Op.value? (append call.event call.now) run.journal = some .appended then
      run.accepted ++ [call.event]
    else run.accepted

/-- The calls one after the other on an empty journal. -/
def runAppends (calls : List AppendCall) : AppendRun :=
  calls.foldl AppendRun.step ⟨new, []⟩

structure Holds (run : AppendRun) (log : List JournalRecord) : Prop where
  represents : Represents run.journal log
  lawful : JournalLog.Lawful log
  opened : run.journal.closed = false
  recorded : List.Forall₂ (fun event r => ∃ now, fromEvent event now = .ok r) run.accepted log

variable {run : AppendRun} {log : List JournalRecord} {event : RuntimeEvent} {now : DateTime.Utc}

/-- The three outcomes of an append: the record is new and stored, or it is a duplicate, or the
call raises; only the first one changes the store. -/
theorem Holds.append_cases (h : Holds run log) (event : RuntimeEvent) (now : DateTime.Utc) :
    (∃ record, fromEvent event now = .ok record ∧ (∀ r ∈ log, JournalLog.Before r record) ∧
      append event now run.journal = .ok .appended (run.journal.insert record)) ∨
    (∃ record, fromEvent event now = .ok record ∧
      (∃ r ∈ log, r.eventId = record.eventId ∧ r.isDuplicateOf record = true) ∧
      append event now run.journal = .ok .duplicate run.journal) ∨
    ((¬ ∃ record, fromEvent event now = .ok record ∧
      ∃ r ∈ log, r.eventId = record.eventId ∧ r.isDuplicateOf record = true) ∧
      ∃ e, append event now run.journal = .error e run.journal) := by
  cases hrecord : fromEvent event now with
  | error =>
    refine Or.inr (Or.inr ⟨?_, _, append_unrecordable hrecord⟩)
    rintro ⟨record, h, -⟩
    exact absurd h (by simp)
  | ok record =>
    have happend := append_refines h.represents h.lawful h.opened hrecord
    cases hans : JournalLog.append log record with
    | ok status =>
      rw [hans] at happend
      cases status with
      | appended =>
        exact Or.inl ⟨record, rfl, JournalLog.append_eq_appended_iff.mp hans, happend⟩
      | duplicate =>
        refine Or.inr (Or.inl ⟨record, rfl, ?_, happend⟩)
        exact JournalLog.exists_of_append_duplicate hans
    | error =>
      rw [hans] at happend
      refine Or.inr (Or.inr ⟨?_, _, happend⟩)
      rintro ⟨_, heq, r, hr, hid, hdup⟩
      cases heq
      rw [h.lawful.append_duplicate hr hid hdup] at hans
      exact absurd hans (by simp)

/-- Every call leaves the journal holding a log. -/
theorem Holds.step (h : Holds run log) (call : AppendCall) :
    ∃ log', Holds (run.step call) log' := by
  rcases h.append_cases call.event call.now with ⟨record, hrecord, hbefore, happend⟩ |
    ⟨record, hrecord, -, happend⟩ | ⟨-, e, happend⟩
  · refine ⟨log ++ [record], ?_⟩
    have hstep : run.step call = ⟨run.journal.insert record, run.accepted ++ [call.event]⟩ := by
      simp [AppendRun.step, Op.after, Op.value?, happend]
    rw [hstep]
    exact {
      represents := h.represents.insert hbefore
      lawful := h.lawful.concat (verify_fromEvent hrecord)
        (JournalLog.append_eq_appended_iff.mpr hbefore)
      opened := h.opened
      recorded := List.rel_append h.recorded (.cons ⟨call.now, hrecord⟩ .nil) }
  all_goals
    have hstep : run.step call = run := by
      simp [AppendRun.step, Op.after, Op.value?, happend]
    exact ⟨log, hstep.symm ▸ h⟩

theorem foldl_holds (calls : List AppendCall) : ∀ {run : AppendRun} {log : List JournalRecord},
    Holds run log → ∃ log', Holds (calls.foldl AppendRun.step run) log' := by
  induction calls with
  | nil => exact fun {_ log} h => ⟨log, h⟩
  | cons call _ ih =>
    intro _ _ h
    obtain ⟨_, h'⟩ := h.step call
    exact ih h'

theorem runAppends_holds (calls : List AppendCall) : ∃ log, Holds (runAppends calls) log :=
  foldl_holds calls ⟨represents_new, ⟨.nil, by simp⟩, rfl, .nil⟩

/-! ## Reads -/

/-- A journal that holds a log passes its own verification. -/
theorem Holds.verifyRun_ok (h : Holds run log) (runId : String) :
    run.journal.verifyRun runId = .ok () := by
  have hrun : ∀ r ∈ JournalLog.ofRun log runId, r ∈ log ∧ r.runId = runId :=
    fun r hr => JournalLog.mem_ofRun.mp hr
  unfold verifyRun
  simp only [h.represents.values, h.represents.keys, seq_eq_ok, raiseIf_ok,
    except_forM_eq_ok]
  refine ⟨?_, fun r hr => h.lawful.intact r (hrun r hr).1⟩
  -- at most one terminal record, and it is the last of the run
  have hterm : ∀ r ∈ (JournalLog.ofRun log runId).filter JournalRecord.isTerminal,
      r ∈ log ∧ r.runId = runId ∧ r.isTerminal = true := by
    intro r hr
    obtain ⟨hr, ht⟩ := List.mem_filter.mp hr
    exact ⟨(hrun r hr).1, (hrun r hr).2, ht⟩
  have hpair : ((JournalLog.ofRun log runId).filter JournalRecord.isTerminal).Pairwise
      JournalLog.Before := (h.lawful.ordered.filter _).filter _
  cases hts : (JournalLog.ofRun log runId).filter JournalRecord.isTerminal with
  | nil => simp
  | cons t ts =>
    rw [hts] at hpair hterm
    obtain ⟨ht, htrun, hterminal⟩ := hterm t List.mem_cons_self
    have hnil : ts = [] := by
      refine List.eq_nil_iff_forall_not_mem.mpr fun t' ht' => ?_
      have hbefore := (List.pairwise_cons.mp hpair).1 t' ht'
      have hrun' := (hterm t' (List.mem_cons_of_mem _ ht')).2.1
      rw [(hbefore.2 (htrun.trans hrun'.symm)).2] at hterminal
      exact Bool.false_ne_true hterminal
    have hmem : t ∈ JournalLog.ofRun log runId :=
      (List.mem_filter.mp (hts ▸ List.mem_cons_self)).1
    have hmax : ((JournalLog.ofRun log runId).map JournalRecord.sequence).max? =
        some t.sequence := by
      refine List.max?_eq_some_iff.mpr ⟨List.mem_map_of_mem hmem, ?_⟩
      intro n hn
      obtain ⟨r, hr, rfl⟩ := List.mem_map.mp hn
      exact h.lawful.terminal_last ht (hrun r hr).1 (htrun.trans (hrun r hr).2.symm) hterminal
    simp [hnil, hmax]

variable {runId : String}

theorem Holds.lastSequence_eq (h : Holds run log) (hrun : Text.isBlank runId = false) :
    run.journal.lastSequence runId =
      .ok ((JournalLog.ofRun log runId).map JournalRecord.sequence).max? := by
  unfold lastSequence
  simp only [h.verifyRun_ok, ensureOpen, h.opened, hrun, raiseIf, Bool.false_eq_true, if_false,
    Except.mapError, ok_bind, h.represents.keys]
  rfl

theorem Holds.lastSequence_not_corrupted (h : Holds run log) (runId message : String) :
    run.journal.lastSequence runId ≠ .error (.journal ⟨.journalCorrupted, message⟩) := by
  cases hrun : Text.isBlank runId with
  | false =>
    rw [h.lastSequence_eq hrun]
    intro h
    cases h
  | true =>
    simp only [lastSequence, raiseIf, hrun, if_true]
    intro h
    cases h

theorem Holds.readAfter_not_corrupted (h : Holds run log) (runId : String) (sequence limit : ℤ)
    (message : String) :
    run.journal.readAfter runId sequence limit ≠
      .error (.journal ⟨.journalCorrupted, message⟩) := by
  unfold readAfter
  cases hargs : validateReadArguments runId sequence limit with
  | error e =>
    -- the arguments are checked before the journal is read, and that check raises `ValueError`
    intro hread
    have he : e = .journal ⟨.journalCorrupted, message⟩ := Except.error.inj hread
    subst he
    unfold validateReadArguments raiseIf at hargs
    split_ifs at hargs <;> exact absurd hargs (by simp [bind, Except.bind])
  | ok =>
    have hall : ∀ l : List ℕ, ((l.filterMap (run.journal.runRecords runId).get?).forM
        JournalRecord.verify) = .ok () := by
      intro l
      refine except_forM_eq_ok.mpr fun r hr => ?_
      obtain ⟨n, -, hn⟩ := List.mem_filterMap.mp hr
      exact h.lawful.intact r (JournalLog.mem_ofRun.mp (h.represents.get?.mp hn).1).1
    simp only [ok_bind, h.verifyRun_ok, ensureOpen, h.opened, raiseIf, Bool.false_eq_true,
      if_false, Except.mapError, hall]
    intro h
    cases h

/-! ## The law of the store -/

/-- `record` is stored under this run and sequence. -/
def Stored (journal : InMemoryRunEventJournal) (runId : String) (sequence : ℕ)
    (record : JournalRecord) : Prop :=
  (journal.runRecords runId).get? sequence = some record

theorem Holds.stored_iff (h : Holds run log) {sequence : ℕ} {r : JournalRecord} :
    Stored run.journal runId sequence r ↔ r ∈ log ∧ r.runId = runId ∧ r.sequence = sequence := by
  rw [Stored, h.represents.get?, JournalLog.mem_ofRun, and_assoc]

theorem Holds.keys_eq (h : Holds run log) (runId : String) :
    (run.journal.runRecords runId).keys =
      (run.accepted.filter (·.runId = runId)).map RuntimeEvent.sequence := by
  rw [h.represents.keys]
  have hrec := h.recorded
  generalize run.accepted = events at hrec ⊢
  clear h
  induction hrec with
  | nil => rfl
  | @cons event r events log hr _ ih =>
    obtain ⟨_, hr⟩ := hr
    obtain ⟨-, hrun, hseq⟩ := fromEvent_ids hr
    rw [JournalLog.ofRun, List.filter_cons, List.filter_cons, hrun]
    split_ifs
    · rw [List.map_cons, List.map_cons, hseq, ← ih]
      rfl
    · exact ih

/-- An accepted event is a duplicate ever after. -/
theorem Holds.append_accepted (h : Holds run log) (hevent : event ∈ run.accepted)
    (now : DateTime.Utc) : append event now run.journal = .ok .duplicate run.journal := by
  obtain ⟨r, hr, first, hfirst⟩ : ∃ r ∈ log, ∃ first, fromEvent event first = .ok r := by
    have hrec := h.recorded
    generalize run.accepted = events at hrec hevent
    clear h
    induction hrec with
    | nil => exact absurd hevent List.not_mem_nil
    | cons hr _ ih =>
      rcases List.mem_cons.mp hevent with rfl | hevent
      · exact ⟨_, List.mem_cons_self, hr⟩
      · obtain ⟨r, hr, hrest⟩ := ih hevent
        exact ⟨r, List.mem_cons_of_mem _ hr, hrest⟩
  -- the record of the repeated call differs from the stored one in `journaled_at` only
  have hrecord := fromEvent_retime hfirst now.property
  have hdup : r.isDuplicateOf { r with journaledAt := now } = true :=
    isDuplicateOf_iff.mpr ⟨rfl, rfl, rfl⟩
  have happend := append_refines h.represents h.lawful h.opened hrecord
  have hans : JournalLog.append log { r with journaledAt := now } = .ok .duplicate :=
    h.lawful.append_duplicate hr rfl hdup
  rwa [hans] at happend

structure Sound (run : AppendRun) : Prop where
  order : ∀ runId, (run.journal.runRecords runId).keys =
    (run.accepted.filter (·.runId = runId)).map RuntimeEvent.sequence
  increasing : ∀ runId, (run.journal.runRecords runId).keys.Pairwise (· < ·)
  /-- a terminal record is the only one of its run and carries its largest sequence -/
  terminal : ∀ runId s r, Stored run.journal runId s r → r.eventType = .runCompleted →
    ∀ s' r', Stored run.journal runId s' r' →
      s' ≤ s ∧ (r'.eventType = .runCompleted → s' = s)
  eventIds : ∀ runId s r runId' s' r', Stored run.journal runId s r →
    Stored run.journal runId' s' r' → r.eventId = r'.eventId → runId = runId' ∧ s = s'
  reappend : ∀ event ∈ run.accepted, ∀ now,
    append event now run.journal = .ok .duplicate run.journal
  /-- `DUPLICATE` is the answer exactly when the record is stored already: same id, run, sequence
  and event digest -/
  duplicate_iff : ∀ event now, Op.value? (append event now) run.journal = some .duplicate ↔
    ∃ record, fromEvent event now = .ok record ∧
      ∃ r, Stored run.journal record.runId record.sequence r ∧ r.eventId = record.eventId ∧
        r.eventDigest = record.eventDigest
  /-- an append that does not return `APPENDED` changes nothing, and unless it is a duplicate it
  raises -/
  unchanged : ∀ event now, Op.value? (append event now) run.journal ≠ some .appended →
    Op.after (append event now) run.journal = run.journal ∧
      (Op.value? (append event now) run.journal = some .duplicate ∨
        ∃ e, append event now run.journal = .error e run.journal)
  lastSequence : ∀ runId message,
    run.journal.lastSequence runId ≠ .error (.journal ⟨.journalCorrupted, message⟩)
  readAfter : ∀ runId sequence limit message, run.journal.readAfter runId sequence limit ≠
    .error (.journal ⟨.journalCorrupted, message⟩)

theorem Holds.duplicate_iff (h : Holds run log) (event : RuntimeEvent) (now : DateTime.Utc) :
    Op.value? (append event now) run.journal = some .duplicate ↔
      ∃ record, fromEvent event now = .ok record ∧
        ∃ r, Stored run.journal record.runId record.sequence r ∧ r.eventId = record.eventId ∧
          r.eventDigest = record.eventDigest := by
  have hiff : ∀ record r, r ∈ log ∧ r.eventId = record.eventId ∧ r.isDuplicateOf record = true ↔
      Stored run.journal record.runId record.sequence r ∧ r.eventId = record.eventId ∧
        r.eventDigest = record.eventDigest := by
    intro record r
    rw [isDuplicateOf_iff, h.stored_iff]
    tauto
  rcases h.append_cases event now with ⟨record, hrecord, hbefore, happend⟩ |
    ⟨record, hrecord, ⟨r, hr⟩, happend⟩ | ⟨hnot, e, happend⟩
  · -- a new record: nothing stored has its id
    simp only [Op.value?, happend, Option.some.injEq, reduceCtorEq, false_iff]
    rintro ⟨_, hrecord', r, hstored, hid, -⟩
    cases hrecord.symm.trans hrecord'
    exact (hbefore r (h.stored_iff.mp hstored).1).1 hid
  · simp only [Op.value?, happend, true_iff]
    exact ⟨record, hrecord, r, (hiff record r).mp hr⟩
  · simp only [Op.value?, happend, reduceCtorEq, false_iff]
    rintro ⟨record, hrecord, r, hr⟩
    exact hnot ⟨record, hrecord, r, (hiff record r).mpr hr⟩

/-- The law of the store holds after every sequence of appends. -/
theorem appends_sound (calls : List AppendCall) : Sound (runAppends calls) := by
  obtain ⟨_, h⟩ := runAppends_holds calls
  exact {
    order := h.keys_eq
    increasing := fun runId => by
      rw [h.represents.keys]
      exact h.lawful.sequences runId
    terminal := by
      intro runId s r hr hterm s' r' hr'
      obtain ⟨hmem, hrun, rfl⟩ := h.stored_iff.mp hr
      obtain ⟨hmem', hrun', rfl⟩ := h.stored_iff.mp hr'
      have hlast := h.lawful.terminal_last hmem hmem' (hrun.trans hrun'.symm)
        (by simp [isTerminal, hterm])
      refine ⟨hlast, fun hterm' => le_antisymm hlast ?_⟩
      exact h.lawful.terminal_last hmem' hmem (hrun'.trans hrun.symm) (by simp [isTerminal, hterm'])
    eventIds := by
      intro _ s r _ _ _ hr hr' hid
      obtain ⟨hmem, rfl, rfl⟩ := h.stored_iff.mp hr
      obtain ⟨hmem', rfl, rfl⟩ := h.stored_iff.mp hr'
      cases h.lawful.eq_of_eventId hmem hmem' hid
      exact ⟨rfl, rfl⟩
    reappend := fun event hevent now => h.append_accepted hevent now
    duplicate_iff := h.duplicate_iff
    unchanged := by
      intro event now hne
      rcases h.append_cases event now with ⟨_, -, -, happend⟩ | ⟨_, -, -, happend⟩ |
        ⟨-, e, happend⟩
      · exact absurd (Op.value?_ok happend) hne
      · exact ⟨Op.after_ok happend, Or.inl (Op.value?_ok happend)⟩
      · exact ⟨Op.after_error happend, Or.inr ⟨e, happend⟩⟩
    lastSequence := h.lastSequence_not_corrupted
    readAfter := h.readAfter_not_corrupted }

/-! ## An event that was never accepted and is answered `DUPLICATE` -/

/-- `ModelStartedPayload(...)` with the given `provider_kind`, which the journal does not keep. -/
def sampleModelStarted (providerKind : String) : RuntimeEvent where
  schemaVersion := runtimeEventSchemaVersion
  eventId := "e1"
  runId := "run"
  traceId := "trace"
  sequence := 1
  eventType := .modelStarted
  emittedAt := DateTime.epochSecond 0
  component := "model"
  payload := {
    type := .modelStarted
    attrs := ⟨[("profile_id", .str "p"), ("candidate_index", .int 0), ("retry_index", .int 0),
      ("routing_adjustment", .str "NONE"), ("breaker_key", .str "k"),
      ("provider_kind", .str providerKind), ("model_identity", .str "")], by simp⟩ }
  stepId := none
  stepSequence := none
  spanId := none
  parentSpanId := none

/-- The two sample events are accepted by the event's own checks, are different, and leave the same
trace in a journal: the second is answered `DUPLICATE` although it was never appended. -/
theorem duplicate_of_unseen_event :
    ¬ ∀ (calls : List AppendCall) (event : RuntimeEvent) (now : DateTime.Utc),
      event.postInit = .ok () → event ∉ (runAppends calls).accepted →
      Op.value? (append event now) (runAppends calls).journal ≠ some .appended →
        ∃ e, append event now (runAppends calls).journal = .error e (runAppends calls).journal := by
  intro hclaim
  let now : DateTime.Utc := ⟨DateTime.epochSecond 0, rfl⟩
  let first := sampleModelStarted "local"
  let second := sampleModelStarted "remote"
  -- the journal sees one event
  have hrecord : fromEvent second now = fromEvent first now := by
    have hpayload : second.journalPayload = first.journalPayload := rfl
    unfold fromEvent
    rw [hpayload]
    rfl
  have hsame : append second now = append first now := by
    unfold append
    rw [hrecord]
  have hok : (fromEvent first now).toOption.isSome = true := by decide +kernel
  obtain ⟨record, hfirst⟩ : ∃ record, fromEvent first now = .ok record := by
    cases h : fromEvent first now with
    | ok record => exact ⟨record, rfl⟩
    | error =>
      rw [h] at hok
      exact absurd hok Bool.false_ne_true
  have happended : append first now new = .ok .appended (new.insert record) :=
    append_refines represents_new ⟨.nil, by simp⟩ rfl hfirst
  have haccepted : (runAppends [⟨first, now⟩]).accepted = [first] := by
    show (if Op.value? (append first now) new = some .appended then [] ++ [first] else []) = _
    rw [Op.value?_ok happended, if_pos rfl, List.nil_append]
  obtain ⟨_, h⟩ := runAppends_holds [⟨first, now⟩]
  have hdup := h.append_accepted (haccepted ▸ List.mem_singleton_self first) now
  rw [← hsame] at hdup
  obtain ⟨e, he⟩ := hclaim [⟨first, now⟩] second now (by decide +kernel)
    (by rw [haccepted]; decide +kernel) (by rw [Op.value?_ok hdup]; decide)
  rw [hdup] at he
  exact absurd he (by simp)

end InMemoryRunEventJournal

end LocalAgent.Runtime
