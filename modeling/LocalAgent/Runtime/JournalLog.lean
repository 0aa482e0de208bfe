import LocalAgent.Runtime.Journal

/-!
# LocalAgent.Runtime.JournalLog — the journal as one append-only log

What a journal is for, without its indices: a list of records in the order they were accepted.
`JournalLog.append` is the answer to an append, `JournalLog.Lawful` the law of the list: ids never
repeat, sequences of a run go up, and nothing of a run follows its terminal record.

* `Lawful.concat`: an accepted record keeps the law.
* `Represents`: the two indices of the in-memory journal hold exactly such a list.
* `append_refines`: on a represented log the in-memory `append` is `JournalLog.append`.
-/

namespace LocalAgent.Runtime

/-! ## Records of events -/

namespace JournalRecord

variable {event : RuntimeEvent} {now : DateTime}

theorem fromEvent_eq_ok {record : JournalRecord} :
    fromEvent event now = .ok record ↔
      ∃ payload, event.journalPayload = .ok payload ∧ ofEvent event payload now = record ∧
        record.postInit = .ok () := by
  unfold fromEvent
  rw [bind_eq_ok]
  constructor
  · rintro ⟨payload, hpayload, h⟩
    obtain ⟨hinit, hrecord⟩ := seq_eq_ok.mp h
    have hrecord : ofEvent event payload now = record := Except.ok.inj hrecord
    exact ⟨payload, hpayload, hrecord, hrecord ▸ hinit⟩
  · rintro ⟨payload, hpayload, rfl, hinit⟩
    exact ⟨payload, hpayload, seq_eq_ok.mpr ⟨hinit, rfl⟩⟩

theorem verify_fromEvent {record : JournalRecord}
    (h : fromEvent event now = .ok record) : record.verify = .ok () := by
  obtain ⟨_, -, rfl, -⟩ := fromEvent_eq_ok.mp h
  unfold verify
  rw [raiseIf_ok]
  -- the digest source of the event and that of its record are the same fields
  rintro (h | h)
  all_goals exact h rfl

/-- A record that is made later differs in its time alone. -/
theorem fromEvent_retime {later : DateTime} {record : JournalRecord}
    (h : fromEvent event now = .ok record) (hlater : later.IsUtc) :
    fromEvent event later = .ok { record with journaledAt := later } := by
  obtain ⟨payload, hpayload, rfl, hinit⟩ := fromEvent_eq_ok.mp h
  refine fromEvent_eq_ok.mpr ⟨payload, hpayload, rfl, ?_⟩
  unfold postInit at hinit ⊢
  simp only [seq_eq_ok] at hinit ⊢
  obtain ⟨h1, h2, h3, h4, h5, h6, h7, h8, -, h10⟩ := hinit
  refine ⟨h1, h2, h3, h4, h5, h6, h7, h8, ?_, h10⟩
  simpa [requireUtc] using hlater

theorem fromEvent_ids {record : JournalRecord} (h : fromEvent event now = .ok record) :
    record.eventId = event.eventId ∧ record.runId = event.runId ∧
      record.sequence = event.sequence := by
  obtain ⟨_, -, rfl, -⟩ := fromEvent_eq_ok.mp h
  exact ⟨rfl, rfl, rfl⟩

theorem fromEvent_step {record : JournalRecord} (h : fromEvent event now = .ok record) :
    record.stepId = event.stepId ∧ record.stepSequence = event.stepSequence := by
  obtain ⟨_, -, rfl, -⟩ := fromEvent_eq_ok.mp h
  exact ⟨rfl, rfl⟩

theorem isDuplicateOf_iff {record candidate : JournalRecord} :
    record.isDuplicateOf candidate = true ↔ record.runId = candidate.runId ∧
      record.sequence = candidate.sequence ∧ record.eventDigest = candidate.eventDigest := by
  unfold isDuplicateOf
  split_ifs with h
  · simp only [false_iff]
    rintro ⟨h1, h2, -⟩
    exact h.elim (fun h => h h1) (fun h => h h2)
  · push Not at h
    simp [h]

end JournalRecord

/-! ## The log -/

namespace JournalLog

open JournalRecord

/-- What the order of two records in a journal says: two ids, and in one run an increasing
sequence with no terminal record before another. -/
def Before (a b : JournalRecord) : Prop :=
  a.eventId ≠ b.eventId ∧ (a.runId = b.runId → a.sequence < b.sequence ∧ a.isTerminal = false)

structure Lawful (log : List JournalRecord) : Prop where
  ordered : log.Pairwise Before
  intact : ∀ r ∈ log, r.verify = .ok ()

def ofRun (log : List JournalRecord) (runId : String) : List JournalRecord :=
  log.filter (·.runId = runId)

/-- What an append of `record` answers. -/
def append (log : List JournalRecord) (record : JournalRecord) :
    Except JournalErrorCode JournalAppendStatus :=
  match log.find? (·.eventId = record.eventId) with
  | some existing =>
    if existing.isDuplicateOf record then .ok .duplicate else .error .eventIdConflict
  | none =>
    if ∃ r ∈ ofRun log record.runId, r.sequence = record.sequence then .error .sequenceConflict
    else if ∃ r ∈ ofRun log record.runId, r.isTerminal then .error .runAlreadyTerminal
    else if ∃ r ∈ ofRun log record.runId, record.sequence ≤ r.sequence then .error .outOfOrder
    else .ok .appended

/-- The text that goes with a rejection. -/
def message : JournalErrorCode → String
  | .eventIdConflict => "相同 event_id 对应了不同事件内容"
  | .sequenceConflict => "Run sequence 已被其他事件占用"
  | .runAlreadyTerminal => "Run 已存在终态事件，不能继续追加"
  | .outOfOrder => "未知事件的 sequence 低于或等于当前最大值"
  | .journalAppendFailed => "Runtime Event 无法安全写入 Journal"
  | .journalCorrupted => "Journal 记录摘要校验失败"

variable {log : List JournalRecord} {record : JournalRecord} {r : JournalRecord}

theorem mem_ofRun {runId : String} : r ∈ ofRun log runId ↔ r ∈ log ∧ r.runId = runId := by
  simp [ofRun]

/-- An append is accepted exactly when its id is new and everything of its run comes before it and
is not terminal. -/
theorem append_eq_appended_iff : append log record = .ok .appended ↔
    ∀ r ∈ log, Before r record := by
  unfold append
  cases hfind : log.find? (·.eventId = record.eventId) with
  | some existing =>
    have hmem := List.mem_of_find?_eq_some hfind
    have hid : existing.eventId = record.eventId := by simpa using List.find?_some hfind
    constructor
    · intro h
      dsimp only at h
      split_ifs at h
      exact JournalAppendStatus.noConfusion (Except.ok.inj h)
    · intro h
      exact absurd hid (h existing hmem).1
  | none =>
    have hids : ∀ r ∈ log, r.eventId ≠ record.eventId := by
      intro r hr heq
      exact absurd (List.find?_eq_none.mp hfind r hr) (by simp [heq])
    constructor
    · intro h
      split_ifs at h with h1 h2 h3
      intro r hr
      refine ⟨hids r hr, fun hrun => ⟨?_, ?_⟩⟩
      · exact Nat.lt_of_not_le fun hle => h3 ⟨r, mem_ofRun.mpr ⟨hr, hrun⟩, hle⟩
      · exact Bool.eq_false_iff.mpr fun ht => h2 ⟨r, mem_ofRun.mpr ⟨hr, hrun⟩, ht⟩
    · intro h
      have hrun : ∀ r ∈ ofRun log record.runId,
          r.sequence < record.sequence ∧ r.isTerminal = false := by
        intro r hr
        obtain ⟨hr, hrun⟩ := mem_ofRun.mp hr
        exact (h r hr).2 hrun
      rw [if_neg, if_neg, if_neg]
      · rintro ⟨r, hr, _⟩
        have := (hrun r hr).1
        omega
      · rintro ⟨r, hr, ht⟩
        rw [(hrun r hr).2] at ht
        exact Bool.noConfusion ht
      · rintro ⟨r, hr, _⟩
        have := (hrun r hr).1
        omega

section

variable (hlog : Lawful log)
include hlog

/-- An accepted record is the last of a lawful log. -/
theorem Lawful.concat (hrecord : record.verify = .ok ())
    (h : append log record = .ok .appended) : Lawful (log ++ [record]) where
  ordered := by
    rw [List.pairwise_append]
    refine ⟨hlog.ordered, List.pairwise_singleton _ _, ?_⟩
    intro r hr _ hr'
    cases List.mem_singleton.mp hr'
    exact append_eq_appended_iff.mp h r hr
  intact := by
    intro r hr
    rcases List.mem_append.mp hr with hr | hr
    · exact hlog.intact r hr
    · cases List.mem_singleton.mp hr
      exact hrecord

theorem Lawful.eq_of_eventId {a b : JournalRecord} (ha : a ∈ log) (hb : b ∈ log)
    (h : a.eventId = b.eventId) : a = b := by
  have hpair : log.Pairwise fun a b => a.eventId = b.eventId → a = b :=
    hlog.ordered.imp fun hbefore heq => absurd heq hbefore.1
  have hflip : log.Pairwise (flip fun a b => a.eventId = b.eventId → a = b) :=
    hlog.ordered.imp fun hbefore heq => absurd heq.symm hbefore.1
  exact hpair.forall_of_forall_of_flip (fun _ _ _ => rfl) hflip ha hb h

theorem Lawful.sequences (runId : String) :
    ((ofRun log runId).map JournalRecord.sequence).Pairwise (· < ·) := by
  rw [List.pairwise_map]
  have hsub : (ofRun log runId).Pairwise Before := hlog.ordered.filter _
  refine hsub.imp_of_mem fun {a b} ha hb hbefore => ?_
  have hrun : a.runId = b.runId := (mem_ofRun.mp ha).2.trans (mem_ofRun.mp hb).2.symm
  exact (hbefore.2 hrun).1

theorem Lawful.terminal_last {a b : JournalRecord} (ha : a ∈ log)
    (hb : b ∈ log) (hrun : a.runId = b.runId) (hterm : a.isTerminal = true) :
    b.sequence ≤ a.sequence := by
  have hpair : log.Pairwise fun a b =>
      a.runId = b.runId → a.isTerminal = true → b.sequence ≤ a.sequence := by
    refine hlog.ordered.imp fun hbefore hrun hterm => ?_
    rw [(hbefore.2 hrun).2] at hterm
    exact absurd hterm Bool.false_ne_true
  have hflip : log.Pairwise (flip fun a b =>
      a.runId = b.runId → a.isTerminal = true → b.sequence ≤ a.sequence) :=
    hlog.ordered.imp fun hbefore hrun _ => ((hbefore.2 hrun.symm).1).le
  exact hpair.forall_of_forall_of_flip (fun _ _ _ _ => le_rfl) hflip ha hb hrun hterm

/-- A sequence of a run names one record. -/
theorem Lawful.eq_of_sequence {a b : JournalRecord} (ha : a ∈ log) (hb : b ∈ log)
    (hrun : a.runId = b.runId) (h : a.sequence = b.sequence) : a = b := by
  have hpair : log.Pairwise fun a b => a.runId = b.runId → a.sequence = b.sequence → a = b := by
    refine hlog.ordered.imp fun hbefore hrun heq => ?_
    have := (hbefore.2 hrun).1
    omega
  have hflip : log.Pairwise (flip fun a b =>
      a.runId = b.runId → a.sequence = b.sequence → a = b) := by
    refine hlog.ordered.imp fun hbefore hrun heq => ?_
    have := (hbefore.2 hrun.symm).1
    omega
  exact hpair.forall_of_forall_of_flip (fun _ _ _ _ => rfl) hflip ha hb hrun h

theorem Lawful.find? {r : JournalRecord} (hr : r ∈ log) :
    log.find? (·.eventId = r.eventId) = some r := by
  cases hfind : log.find? (·.eventId = r.eventId) with
  | none => exact absurd (List.find?_eq_none.mp hfind r hr) (by simp)
  | some existing =>
    have hid : existing.eventId = r.eventId := by simpa using List.find?_some hfind
    rw [hlog.eq_of_eventId (List.mem_of_find?_eq_some hfind) hr hid]

theorem Lawful.append_duplicate (hr : r ∈ log)
    (hid : r.eventId = record.eventId) (hdup : r.isDuplicateOf record = true) :
    append log record = .ok .duplicate := by
  unfold JournalLog.append
  rw [← hid, hlog.find? hr]
  exact if_pos hdup

end

theorem append_error_of_after {code : JournalErrorCode}
    (hafter : ∀ r ∈ ofRun log record.runId, r.sequence < record.sequence)
    (h : append log record = .error code) : code ≠ .sequenceConflict ∧ code ≠ .outOfOrder := by
  have hconflict : ¬ ∃ r ∈ ofRun log record.runId, r.sequence = record.sequence :=
    fun ⟨r, hr, heq⟩ => (hafter r hr).ne heq
  have horder : ¬ ∃ r ∈ ofRun log record.runId, record.sequence ≤ r.sequence :=
    fun ⟨r, hr, hle⟩ => (hafter r hr).not_ge hle
  unfold append at h
  rw [if_neg hconflict, if_neg horder] at h
  split at h
  all_goals
    split_ifs at h
    cases h
    exact ⟨nofun, nofun⟩

theorem exists_of_append_duplicate (h : append log record = .ok .duplicate) :
    ∃ r ∈ log, r.eventId = record.eventId ∧ r.isDuplicateOf record = true := by
  unfold append at h
  cases hfind : log.find? (·.eventId = record.eventId) with
  | some existing =>
    rw [hfind] at h
    dsimp only at h
    split_ifs at h with hdup
    exact ⟨existing, List.mem_of_find?_eq_some hfind, by simpa using List.find?_some hfind, hdup⟩
  | none =>
    rw [hfind] at h
    dsimp only at h
    split_ifs at h
    exact JournalAppendStatus.noConfusion (Except.ok.inj h)

theorem exists_max_le {rows : List JournalRecord} {n : ℕ} :
    (∃ last ∈ (rows.map JournalRecord.sequence).max?, n ≤ last) ↔ ∃ r ∈ rows, n ≤ r.sequence := by
  constructor
  · rintro ⟨last, hmax, hle⟩
    obtain ⟨r, hr, rfl⟩ := List.mem_map.mp (List.max?_mem hmax)
    exact ⟨r, hr, hle⟩
  · rintro ⟨r, hr, hle⟩
    have hmem := List.mem_map_of_mem (f := JournalRecord.sequence) hr
    cases hmax : (rows.map JournalRecord.sequence).max? with
    | none =>
      rw [List.max?_eq_none_iff] at hmax
      rw [hmax] at hmem
      exact absurd hmem List.not_mem_nil
    | some last =>
      exact ⟨last, rfl, hle.trans ((List.max?_eq_some_iff.mp hmax).2 _ hmem)⟩

/-- The rule of the source on what is read of a lawful log: `verify` never raises there. -/
theorem appendDecision_of_reads (hlog : Lawful log) {existingSequence : Option JournalRecord}
    {lastSequence terminalSequence : Option ℕ}
    (hexisting : ∀ r, existingSequence = some r ↔
      r ∈ ofRun log record.runId ∧ r.sequence = record.sequence)
    (hlast : (∃ last ∈ lastSequence, record.sequence ≤ last) ↔
      ∃ r ∈ ofRun log record.runId, record.sequence ≤ r.sequence)
    (hterm : terminalSequence ≠ none ↔ ∃ r ∈ ofRun log record.runId, r.isTerminal = true) :
    appendDecision record (log.find? (·.eventId = record.eventId)) existingSequence lastSequence
        terminalSequence =
      match append log record with
      | .ok .appended => .ok none
      | .ok .duplicate => .ok (some .duplicate)
      | .error code => .error ⟨code, message code⟩ := by
  unfold appendDecision append
  cases hfind : log.find? (·.eventId = record.eventId) with
  | some existing =>
    have hintact := hlog.intact existing (List.mem_of_find?_eq_some hfind)
    simp only [hintact, ok_bind]
    by_cases hdup : existing.isDuplicateOf record
    · obtain ⟨hrun, hseq, -⟩ := isDuplicateOf_iff.mp hdup
      rw [if_pos ⟨hrun, hseq, hdup⟩, if_pos hdup]
      rfl
    · rw [if_neg fun hc => hdup hc.2.2, if_neg hdup]
      rfl
  | none =>
    cases hget : existingSequence with
    | some existing =>
      obtain ⟨hmem, hseq⟩ := (hexisting existing).mp hget
      have hintact := hlog.intact existing (mem_ofRun.mp hmem).1
      rw [if_pos ⟨existing, hmem, hseq⟩]
      simp only [hintact, ok_bind]
      rfl
    | none =>
      have hnot : ¬ ∃ r ∈ ofRun log record.runId, r.sequence = record.sequence := by
        rintro ⟨r, hr, hseq⟩
        rw [(hexisting r).mpr ⟨hr, hseq⟩] at hget
        exact Option.some_ne_none _ hget
      rw [if_neg hnot]
      simp only [raiseIf, hterm, hlast]
      split_ifs <;> rfl

end JournalLog

/-! ## The in-memory journal holds a log -/

namespace InMemoryRunEventJournal

open JournalRecord

/-- The two indices hold the records of `log`, each run in the order of the log. -/
structure Represents (journal : InMemoryRunEventJournal) (log : List JournalRecord) : Prop where
  byId : ∀ eventId, journal.recordsById.get? eventId = log.find? (·.eventId = eventId)
  byRun : ∀ runId, (journal.runRecords runId).entries =
    (JournalLog.ofRun log runId).map fun r => (r.sequence, r)

variable {journal : InMemoryRunEventJournal} {log : List JournalRecord} {record : JournalRecord}

theorem represents_new : Represents new [] where
  byId := fun _ => rfl
  byRun := fun _ => rfl

namespace Represents

section

variable (h : Represents journal log)
include h

theorem keys (runId : String) :
    (journal.runRecords runId).keys = (JournalLog.ofRun log runId).map JournalRecord.sequence := by
  rw [Dict.keys, h.byRun, List.map_map]
  rfl

theorem values (runId : String) :
    (journal.runRecords runId).values = JournalLog.ofRun log runId := by
  rw [Dict.values, h.byRun, List.map_map]
  exact List.map_id _

theorem get? {runId : String} {sequence : ℕ} {r : JournalRecord} :
    (journal.runRecords runId).get? sequence = some r ↔
      r ∈ JournalLog.ofRun log runId ∧ r.sequence = sequence := by
  rw [Dict.get?_eq_some_iff, h.byRun, List.mem_map]
  constructor
  · rintro ⟨_, hr', heq⟩
    cases heq
    exact ⟨hr', rfl⟩
  · rintro ⟨hr, rfl⟩
    exact ⟨r, hr, rfl⟩

/-- Both indices grow by an accepted record as the log does. -/
theorem insert (haccept : ∀ r ∈ log, JournalLog.Before r record) :
    Represents (journal.insert record) (log ++ [record]) where
  byId := by
    intro eventId
    show (journal.recordsById.set record.eventId record).get? eventId = _
    rw [Dict.get?_set, h.byId, List.find?_append]
    by_cases hid : eventId = record.eventId
    · have hnone : log.find? (·.eventId = eventId) = none := by
        refine List.find?_eq_none.mpr fun r hr => ?_
        simpa [hid] using (haccept r hr).1
      rw [if_pos hid, hnone]
      simp [hid]
    · rw [if_neg hid]
      have hne : record.eventId ≠ eventId := fun h => hid h.symm
      simp [hne]
  byRun := by
    intro runId
    have hget : (journal.insert record).runRecords runId =
        if runId = record.runId then (journal.runRecords runId).set record.sequence record
        else journal.runRecords runId := by
      show ((journal.recordsByRun.set record.runId _).get? runId).getD Dict.empty = _
      rw [Dict.get?_set]
      split_ifs with hrun
      · rw [hrun]
        rfl
      · rfl
    rw [hget, JournalLog.ofRun, List.filter_append, List.map_append, ← JournalLog.ofRun, ← h.byRun]
    split_ifs with hrun
    · have hnew : record.sequence ∉ (journal.runRecords runId).keys := by
        rw [h.keys, List.mem_map]
        rintro ⟨r, hr, _⟩
        obtain ⟨hr, hr'⟩ := JournalLog.mem_ofRun.mp hr
        have := ((haccept r hr).2 (hr'.trans hrun)).1
        omega
      rw [Dict.entries_set_of_not_mem hnew]
      simp [hrun]
    · have hne : record.runId ≠ runId := fun h => hrun h.symm
      simp [hne]

end

end Represents

theorem appendDecision_eq (h : Represents journal log) (hlog : JournalLog.Lawful log) :
    appendDecision record (journal.recordsById.get? record.eventId)
        ((journal.runRecords record.runId).get? record.sequence)
        (journal.runRecords record.runId).keys.max?
        (terminalSequence (journal.runRecords record.runId)) =
      match JournalLog.append log record with
      | .ok .appended => .ok none
      | .ok .duplicate => .ok (some .duplicate)
      | .error code => .error ⟨code, JournalLog.message code⟩ := by
  rw [h.byId]
  refine JournalLog.appendDecision_of_reads hlog (fun r => h.get?) ?_ ?_
  · rw [h.keys]
    exact JournalLog.exists_max_le
  · rw [terminalSequence, h.values, ne_eq, Option.map_eq_none_iff, List.find?_eq_none]
    push Not
    rfl

/-- The journal in memory does what the log does. -/
theorem append_refines (h : Represents journal log) (hlog : JournalLog.Lawful log)
    (hopen : journal.closed = false) {event : RuntimeEvent} {now : DateTime.Utc}
    (hrecord : fromEvent event now = .ok record) :
    append event now journal =
      match JournalLog.append log record with
      | .ok .appended => .ok .appended (journal.insert record)
      | .ok .duplicate => .ok .duplicate journal
      | .error code => .error ⟨code, JournalLog.message code⟩ journal := by
  have hensure : journal.ensureOpen = .ok () := by
    rw [ensureOpen, raiseIf_ok, hopen]
    exact Bool.false_ne_true
  unfold append
  rw [hrecord]
  simp only [Except.mapError, Op.lift_ok, Op.get_bind_apply, Op.pure_bind_apply, hensure,
    appendDecision_eq h hlog]
  cases JournalLog.append log record with
  | error => rfl
  | ok status =>
    cases status with
    | appended => rfl
    | duplicate => rfl

theorem append_unrecordable {event : RuntimeEvent} {now : DateTime.Utc} {e : EventError}
    (hrecord : fromEvent event now = .error e) :
    append event now journal =
      .error ⟨.journalAppendFailed, "Runtime Event 无法安全写入 Journal"⟩ journal := by
  unfold append
  rw [hrecord]
  rfl

end InMemoryRunEventJournal

end LocalAgent.Runtime
