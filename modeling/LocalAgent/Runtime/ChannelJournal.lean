import LocalAgent.Runtime.ChannelStream

/-!
# LocalAgent.Runtime.ChannelJournal — the sequences a channel writes to its journal

The channel owns the sequence of its run: it takes the last one of the journal over once and counts
on from there, one step for every append it hears of.  The journal and the counter part when an
append is committed and its answer is lost, when an append is committed after its call was
interrupted, when the first read of the journal fails and is not tried again, and when an atomic
mutation returns without an append.

* `Faithful`: none of the four happens in this step.
* `Synced`: the counter, the event in hand and the journal agree.
* `journal_contiguous`: along faithful steps the run has no gap and no conflict in the journal.
-/

namespace LocalAgent.Runtime

namespace Channel

variable {cfg : ChannelConfig} {s s' : Channel} {log : List JournalRecord}

/-! ## The watermark of a run -/

theorem le_journalWatermark {r : JournalRecord} (hr : r ∈ JournalLog.ofRun log cfg.runId) :
    r.sequence ≤ journalWatermark cfg log :=
  List.le_max?_getD_of_mem (List.mem_map_of_mem hr)

variable {record : JournalRecord} {action : PublisherAction} {call : PublishCall}
  {stage : PublishStage}

theorem ofRun_concat_foreign (h : record.runId ≠ cfg.runId) :
    JournalLog.ofRun (log ++ [record]) cfg.runId = JournalLog.ofRun log cfg.runId := by
  simp [JournalLog.ofRun, h]

theorem ofRun_concat_own (h : record.runId = cfg.runId) :
    JournalLog.ofRun (log ++ [record]) cfg.runId =
      JournalLog.ofRun log cfg.runId ++ [record] := by
  simp [JournalLog.ofRun, h]

/-- An append of the run moves its watermark. -/
theorem journalWatermark_concat (h : record.runId = cfg.runId)
    (hlt : journalWatermark cfg log < record.sequence) :
    journalWatermark cfg (log ++ [record]) = record.sequence := by
  have hmax : ((JournalLog.ofRun (log ++ [record]) cfg.runId).map JournalRecord.sequence).max? =
      some record.sequence := by
    rw [List.max?_eq_some_iff, ofRun_concat_own h]
    refine ⟨by simp, fun n hn => ?_⟩
    rw [List.map_append, List.mem_append] at hn
    rcases hn with hn | hn
    · obtain ⟨r, hr, rfl⟩ := List.mem_map.mp hn
      exact (le_journalWatermark hr).trans hlt.le
    · exact (List.mem_singleton.mp hn).le
  rw [journalWatermark, hmax]
  rfl

/-- The records of the run grew by records that count on from its last one. -/
def Contiguous (cfg : ChannelConfig) (log log' : List JournalRecord) : Prop :=
  ∃ added, JournalLog.ofRun log' cfg.runId = JournalLog.ofRun log cfg.runId ++ added ∧
    added.map JournalRecord.sequence =
      List.range' (journalWatermark cfg log + 1) added.length ∧
    journalWatermark cfg log' = journalWatermark cfg log + added.length

theorem contiguous_refl (cfg : ChannelConfig) (log : List JournalRecord) : Contiguous cfg log log :=
  ⟨[], (List.append_nil _).symm, rfl, rfl⟩

variable {log' : List JournalRecord} {runId : String}

theorem Contiguous.foreign (h : Contiguous cfg log log') (hforeign : record.runId ≠ cfg.runId) :
    Contiguous cfg log (log' ++ [record]) := by
  obtain ⟨added, hadded, hsequences, hwatermark⟩ := h
  have hsame : JournalLog.ofRun (log' ++ [record]) cfg.runId = JournalLog.ofRun log' cfg.runId :=
    ofRun_concat_foreign hforeign
  refine ⟨added, hsame.trans hadded, hsequences, ?_⟩
  rw [← hwatermark, journalWatermark, hsame, journalWatermark]

theorem Contiguous.own (h : Contiguous cfg log log') (hown : record.runId = cfg.runId)
    (hnext : record.sequence = journalWatermark cfg log' + 1) :
    Contiguous cfg log (log' ++ [record]) := by
  obtain ⟨added, hadded, hsequences, hwatermark⟩ := h
  refine ⟨added ++ [record], ?_, ?_, ?_⟩
  · rw [ofRun_concat_own hown, hadded, List.append_assoc]
  · rw [List.map_append, hsequences, List.length_append, List.length_singleton,
      List.range'_concat]
    simp [hnext, hwatermark]
    omega
  · rw [journalWatermark_concat hown (by omega), hnext, hwatermark, List.length_append,
      List.length_singleton, Nat.add_assoc]

/-! ## Steps after which the counter agrees with the journal -/

/-- The channel does not learn what happened to its event in the journal: an append was committed
and its answer does not arrive, or a mutation returns without an append. -/
def losesAnswer : PublisherAction → PublishStage → Bool
  | .interrupt, .committed _ .appended => true
  | .journalFails, .committed _ .appended => true
  | .cancelAppend, .committed _ .appended => true
  | .mutationReturns, .appending _ => true
  | _, _ => false

/-- The action neither loses an answer nor ends the first read of a journal that has records of
the run, and it is no commit that comes after the end of its call. -/
def Faithful (cfg : ChannelConfig) (s : Channel) : Action → Prop
  | .publisher action => ∀ call stage, s.lock = some (.publisher call stage) →
    losesAnswer action stage = false ∧
      (action = .interrupt → stage = .readingWatermark → journalWatermark cfg s.log = 0)
  | .capture .interrupt => s.lock = some (.capture true) → journalWatermark cfg s.log = 0
  | .lateCommit _ _ => False
  | _ => True

/-- The publication was not rejected for its sequence. -/
def NoConflict (exit : Exit) : Prop :=
  exit ≠ .journalError .sequenceConflict ∧ exit ≠ .journalError .outOfOrder

/-- Nothing but the journal answers with a conflict. -/
theorem exitOf_no_conflict {exit : Exit} (h : s.exitOf cfg call action stage = some exit) :
    NoConflict exit := by
  unfold exitOf at h
  split at h
  case h_6 | h_7 | h_8 =>
    split_ifs at h
    all_goals
      cases h
      exact ⟨nofun, nofun⟩
  case h_10 => exact nomatch h
  all_goals
    cases h
    exact ⟨nofun, nofun⟩

theorem mem_concat_or {exits : List (PublishCall × Exit)} {call' : PublishCall}
    {exit exit' : Exit} (hexit : NoConflict exit) (h : (call', exit') ∈ exits ++ [(call, exit)]) :
    (call', exit') ∈ exits ∨ NoConflict exit' := by
  rcases mem_snoc h with h | h
  · exact .inl h
  · obtain ⟨-, rfl⟩ := Prod.mk.inj h
    exact .inr hexit

/-! ## The invariant -/

/-- How the counter, the journal and the event in hand stand at a stage. -/
def StageAgrees (runId : String) (sequence watermark : ℕ) : PublishStage → Prop
  | .readingWatermark => sequence = 0
  | .beforeAppend event =>
    sequence = watermark ∧ event.sequence = watermark + 1 ∧ event.runId = runId
  | .appending event =>
    sequence = watermark ∧ event.sequence = watermark + 1 ∧ event.runId = runId
  | .committed event status =>
    status = .appended ∧ sequence + 1 = watermark ∧ event.sequence = watermark
  | _ => sequence = watermark

theorem StageAgrees.next {sequence watermark : ℕ} {stage' : PublishStage}
    (h : StageAgrees runId sequence watermark stage) (hnext : nextStage stage = some stage') :
    StageAgrees runId sequence watermark stage' := by
  cases stage with
  | readingWatermark | appending | committed | putting => cases hnext
  | _ =>
    cases hnext
    exact h

/-- How they stand under the holder of the publish lock. -/
def Agrees (runId : String) (loaded : Bool) (sequence watermark : ℕ) : Option Holder → Prop
  | some (.publisher _ stage) => loaded = true ∧ StageAgrees runId sequence watermark stage
  | some (.capture loading) => loaded = true ∧ sequence = if loading then 0 else watermark
  | _ => sequence = if loaded then watermark else 0

/-- The counter agrees with the journal, and the journal has no gap since the channel began. -/
structure Synced (cfg : ChannelConfig) (log : List JournalRecord) (s : Channel) : Prop where
  agrees : Agrees cfg.runId s.watermarkLoaded s.sequence (journalWatermark cfg s.log) s.lock
  lawful : JournalLog.Lawful s.log
  records : Contiguous cfg log s.log
  exits : ∀ call exit, (call, exit) ∈ s.exits → NoConflict exit

theorem synced_new (hjournal : cfg.hasJournal = true) (hlog : JournalLog.Lawful log) :
    Synced cfg log (new cfg log) where
  agrees := by simp [new, Agrees, hjournal]
  lawful := hlog
  records := contiguous_refl cfg log
  exits := fun _ _ h => absurd h List.not_mem_nil

namespace Synced

section

variable (hs : Synced cfg log s)
include hs

theorem keep (hlog : s'.log = s.log)
    (hagrees : Agrees cfg.runId s'.watermarkLoaded s'.sequence (journalWatermark cfg s.log) s'.lock)
    (hexits : ∀ call exit, (call, exit) ∈ s'.exits → (call, exit) ∈ s.exits ∨ NoConflict exit) :
    Synced cfg log s' where
  agrees := hlog ▸ hagrees
  lawful := hlog ▸ hs.lawful
  records := hlog ▸ hs.records
  exits := fun call exit h => (hexits call exit h).elim (hs.exits call exit) id

theorem leave (hloaded : s.watermarkLoaded = true)
    (hsequence : s.sequence = journalWatermark cfg s.log) (call : PublishCall) {exit : Exit}
    (hexit : NoConflict exit) : Synced cfg log (s.leave call exit) := by
  refine hs.keep rfl ?_ fun call' exit' h => ?_
  · show s.sequence = if s.watermarkLoaded = true then _ else 0
    rw [if_pos hloaded, hsequence]
  · exact mem_concat_or hexit h

theorem advance (hloaded : s.watermarkLoaded = true) (call : PublishCall)
    (hstage : StageAgrees cfg.runId s.sequence (journalWatermark cfg s.log) stage) :
    Synced cfg log (s.advance call stage) :=
  hs.keep rfl ⟨hloaded, hstage⟩ fun _ _ => .inl

theorem beginEvent (hjournal : cfg.hasJournal = true)
    (hloaded : s.watermarkLoaded = true) (hsequence : s.sequence = journalWatermark cfg s.log)
    (call : PublishCall) (stamp : Stamp) : Synced cfg log (s.beginEvent cfg call stamp) := by
  unfold Channel.beginEvent
  cases hevent : RuntimeEvent.fromDraft (call.draft cfg) (s.sequence + 1) stamp.eventId
      stamp.now with
  | error => exact hs.leave hloaded hsequence call ⟨nofun, nofun⟩
  | ok =>
    have heq := RuntimeEvent.eq_of_fromDraft hevent
    dsimp only
    rw [if_pos hjournal]
    refine hs.advance hloaded call ⟨hsequence, ?_, ?_⟩
    · rw [heq, ← hsequence]
      rfl
    · rw [heq]
      rfl

/-- The append of the event in hand is accepted, or rejected for another reason than its
sequence. -/
theorem commit (hloaded : s.watermarkLoaded = true)
    (hsequence : s.sequence = journalWatermark cfg s.log) (call : PublishCall)
    {event : RuntimeEvent} (hevent : event.sequence = journalWatermark cfg s.log + 1)
    (hrun : event.runId = cfg.runId) (now : DateTime.Utc) :
    Synced cfg log (s.commit call event now) := by
  unfold Channel.commit journalDecision
  cases hrecord : JournalRecord.fromEvent event now with
  | error => exact hs.leave hloaded hsequence call ⟨nofun, nofun⟩
  | ok record =>
    obtain ⟨-, hown, hnumber⟩ := JournalRecord.fromEvent_ids hrecord
    rw [hrun] at hown
    rw [hevent] at hnumber
    have hafter : ∀ r ∈ JournalLog.ofRun s.log record.runId, r.sequence < record.sequence := by
      intro r hr
      have hle : r.sequence ≤ journalWatermark cfg s.log := le_journalWatermark (hown ▸ hr)
      omega
    dsimp only
    cases hanswer : JournalLog.append s.log record with
    | error =>
      obtain ⟨hconflict, horder⟩ := JournalLog.append_error_of_after hafter hanswer
      refine hs.leave hloaded hsequence call ⟨fun h => ?_, fun h => ?_⟩
      · exact hconflict (Exit.journalError.inj h)
      · exact horder (Exit.journalError.inj h)
    | ok status =>
      cases status with
      | duplicate =>
        obtain ⟨r, hr, -, hdup⟩ := JournalLog.exists_of_append_duplicate hanswer
        obtain ⟨hrunId, hseq, -⟩ := JournalRecord.isDuplicateOf_iff.mp hdup
        exact absurd hseq (hafter r (JournalLog.mem_ofRun.mpr ⟨hr, hrunId⟩)).ne
      | appended =>
        have hverify := JournalRecord.verify_fromEvent hrecord
        exact {
          agrees := by
            have hwatermark : record.sequence = journalWatermark cfg (s.log ++ [record]) :=
              (journalWatermark_concat hown (by omega)).symm
            exact ⟨hloaded, rfl, (by omega : s.sequence + 1 = record.sequence).trans hwatermark,
              (hevent.trans hnumber.symm).trans hwatermark⟩
          lawful := hs.lawful.concat hverify hanswer
          records := hs.records.own hown hnumber
          exits := hs.exits }

/-- The holder leaves: what it has left behind is stranded or answered. -/
theorem exit {exit : Exit} (hlock : s.lock = some (.publisher call stage))
    (hexit : s.exitOf cfg call action stage = some exit)
    (hfaithful : Faithful cfg s (.publisher action)) :
    Synced cfg log ((s.strand stage).leave call exit) := by
  obtain ⟨hanswer, hread⟩ := hfaithful call stage hlock
  have hagrees := hs.agrees
  rw [hlock] at hagrees
  obtain ⟨hloaded, hstage⟩ := hagrees
  have hstranded : Synced cfg log (s.strand stage) := hs.keep rfl hs.agrees fun _ _ => .inl
  refine hstranded.leave hloaded ?_ call (exitOf_no_conflict hexit)
  show s.sequence = journalWatermark cfg s.log
  cases stage with
  | readingWatermark =>
    have hinterrupt : action = .interrupt := by
      cases action with
      | interrupt => rfl
      | _ => cases hexit
    rwa [hread hinterrupt rfl]
  | committed =>
    obtain ⟨rfl, -⟩ := hstage
    cases action with
    | interrupt | journalFails | cancelAppend => cases hanswer
    | _ => cases hexit
  | beforeAppend | appending => exact hstage.1
  | afterAppend | observing | feeding | beforeEnqueue | putting => exact hstage

end

end Synced

/-- The holder goes on: the number follows the journal. -/
theorem Synced.goesOn (hs : Synced cfg log s) (hjournal : cfg.hasJournal = true)
    (hlock : s.lock = some (.publisher call stage)) (hgoes : GoesOn cfg s call action stage s')
    (hfaithful : Faithful cfg s (.publisher action)) : Synced cfg log s' := by
  have hagrees := hs.agrees
  rw [hlock] at hagrees
  obtain ⟨hloaded, hstage⟩ := hagrees
  cases hgoes with
  | watermarkRead stamp =>
    have hread : Synced cfg log { s with sequence := journalWatermark cfg s.log, lock := none } :=
      hs.keep rfl (if_pos hloaded).symm fun _ _ => .inl
    exact hread.beginEvent hjournal hloaded rfl call stamp
  | pass hnext =>
    exact hs.advance hloaded call (hstage.next hnext)
  | journalCommit _ now =>
    obtain ⟨hsequence, hevent, hrun⟩ := hstage
    exact hs.commit hloaded hsequence call hevent hrun now
  | acknowledge => exact hs.keep rfl ⟨hloaded, hstage.2.2⟩ fun _ _ => .inl
  | mutationReturns => exact nomatch (hfaithful call _ hlock).1
  | put event =>
    unfold putEvent
    split
    · exact hs.leave hloaded hstage call ⟨nofun, nofun⟩
    split
    · exact hs.leave hloaded hstage call ⟨nofun, nofun⟩
    · have hput : Synced cfg log
          { s with queue := s.queue ++ [.event event], published := s.published ++ [event] } :=
        hs.keep rfl hs.agrees fun _ _ => .inl
      exact hput.leave hloaded hstage call ⟨nofun, nofun⟩

theorem Synced.captures (hs : Synced cfg log s) {action : CaptureAction}
    (hcaptures : Captures cfg s action s') (hfaithful : Faithful cfg s (.capture action)) :
    Synced cfg log s' := by
  have hagrees := hs.agrees
  cases hcaptures with
  | start hlock =>
    rw [hlock] at hagrees
    refine hs.keep rfl ⟨rfl, ?_⟩ fun _ _ => .inl
    show s.sequence = if (!s.watermarkLoaded) = true then 0 else _
    cases hloaded : s.watermarkLoaded with
    | true | false => simpa [Agrees, hloaded] using hagrees
  | loaded hlock =>
    rw [hlock] at hagrees
    exact hs.keep rfl ⟨hagrees.1, rfl⟩ fun _ _ => .inl
  | finish hlock =>
    rw [hlock] at hagrees
    obtain ⟨hloaded, hsequence⟩ := hagrees
    exact hs.keep rfl (hsequence.trans (if_pos hloaded).symm) fun _ _ => .inl
  | @interrupt loading hlock =>
    rw [hlock] at hagrees
    obtain ⟨hloaded, hsequence⟩ := hagrees
    refine hs.keep rfl (Eq.trans ?_ (if_pos hloaded).symm) fun _ _ => .inl
    cases loading with
    | true =>
      rwa [hfaithful hlock]
    | false => exact hsequence

theorem Agrees.idle {loaded : Bool} {sequence watermark : ℕ}
    (h : Agrees runId loaded sequence watermark s.lock) (hs : s.Idle) (hs' : s'.Idle) :
    Agrees runId loaded sequence watermark s'.lock := by
  have hcount : sequence = if loaded then watermark else 0 := by
    cases hlock : s.lock with
    | none =>
      rwa [hlock] at h
    | some holder =>
      obtain ⟨endPut, rfl⟩ := hs holder hlock
      rwa [hlock] at h
  cases hlock : s'.lock with
  | none => exact hcount
  | some holder =>
    obtain ⟨_, rfl⟩ := hs' holder hlock
    exact hcount

theorem Synced.sameWriting (hs : Synced cfg log s) (hsame : SameWriting s s') :
    Synced cfg log s' := by
  refine hs.keep hsame.log ?_ fun _ _ h => .inl (hsame.exits ▸ h)
  rw [hsame.watermarkLoaded, hsame.sequence]
  rcases hsame.lock with hlock | ⟨hidle, hidle'⟩
  · rw [hlock]
    exact hs.agrees
  · exact hs.agrees.idle hidle hidle'

/-- The number of the channel is the watermark, after every faithful step. -/
theorem Synced.step {action : Action} (hjournal : cfg.hasJournal = true) (hs : Synced cfg log s)
    (hfaithful : Faithful cfg s action) (h : s.step cfg action = some s') :
    Synced cfg log s' := by
  cases step_writes h with
  | @refuse request exit hexit =>
    refine hs.keep rfl hs.agrees fun call' exit' => mem_concat_or ?_
    rcases hexit with rfl | rfl
    all_goals exact ⟨nofun, nofun⟩
  | enqueueCall => exact hs.keep rfl hs.agrees fun _ _ => .inl
  | @enter index stamp call hlock hwaits =>
    have hagrees := hs.agrees
    rw [hlock] at hagrees
    have hdequeue : Synced cfg log (s.dequeueCall index) := hs.keep rfl hs.agrees fun _ _ => .inl
    unfold enter
    split_ifs with hstate hloaded
    · exact hdequeue.keep rfl hagrees fun _ _ => mem_concat_or ⟨nofun, nofun⟩
    · exact hdequeue.beginEvent hjournal hloaded (hagrees.trans (if_pos hloaded)) call stamp
    · exact hdequeue.keep rfl ⟨rfl, hagrees.trans (if_neg hloaded)⟩ fun _ _ => .inl
  | @giveUp index call hwaits =>
    exact hs.keep rfl hs.agrees fun _ _ => mem_concat_or ⟨nofun, nofun⟩
  | exit hlock hexit => exact hs.exit hlock hexit hfaithful
  | goOn hlock hgoes => exact hs.goesOn hjournal hlock hgoes hfaithful
  | capture hcaptures => exact hs.captures hcaptures hfaithful
  | lifecycle hsame | consumer hsame => exact hs.sameWriting hsame
  | lateCommit => exact hfaithful.elim
  | @foreignAppend record hforeign hintact haccepted =>
    have hwatermark : journalWatermark cfg (s.log ++ [record]) = journalWatermark cfg s.log := by
      rw [journalWatermark, ofRun_concat_foreign hforeign, journalWatermark]
    exact {
      agrees := hwatermark ▸ hs.agrees
      lawful := hs.lawful.concat hintact haccepted
      records := hs.records.foreign hforeign
      exits := hs.exits }

/-! ## Every run -/

/-- The law of the sequences that a channel writes on a journal that held `log` when it began. -/
structure SequencesSound (cfg : ChannelConfig) (log : List JournalRecord) (s : Channel) : Prop where
  distinct : ((JournalLog.ofRun s.log cfg.runId).map JournalRecord.sequence).Nodup
  /-- every record of the channel comes one after the last one of its run -/
  contiguous : Contiguous cfg log s.log
  /-- no publication is rejected for its sequence -/
  accepted : ∀ call exit, (call, exit) ∈ s.exits → NoConflict exit

/-- In every run whose steps are faithful, in every state it reaches. -/
theorem journal_contiguous {acts : List Action} (hjournal : cfg.hasJournal = true)
    (hlog : JournalLog.Lawful log) (hrun : runSteps cfg log acts = some s)
    (hfaithful : Trace.Along (step cfg) (Faithful cfg) (new cfg log) acts) :
    SequencesSound cfg log s := by
  have hsynced : Synced cfg log s :=
    Trace.run_keeps (fun _ _ _ hf h hs => Synced.step hjournal hs hf h) hfaithful hrun
      (synced_new hjournal hlog)
  exact ⟨(hsynced.lawful.sequences cfg.runId).imp Nat.ne_of_lt, hsynced.records, hsynced.exits⟩

/-- Actions that are faithful wherever they are taken. -/
def neverLoses : Action → Bool
  | .publisher .interrupt => false
  | .publisher .journalFails => false
  | .publisher .cancelAppend => false
  | .publisher .mutationReturns => false
  | .capture .interrupt => false
  | .lateCommit _ _ => false
  | _ => true

theorem faithful_of_neverLoses {action : Action} (h : neverLoses action = true) (s : Channel) :
    Faithful cfg s action := by
  cases action with
  | publisher action =>
    intro _ _ _
    cases action with
    | interrupt | journalFails | cancelAppend | mutationReturns => cases h
    | _ => exact ⟨rfl, fun h => nomatch h⟩
  | capture action =>
    cases action with
    | interrupt => cases h
    | _ => exact trivial
  | lateCommit => cases h
  | _ => exact trivial

def sampleJournalConfig : ChannelConfig := ⟨"run", "trace", 2, Nat.two_pos, true, true⟩

/-- The call that has just been made publishes up to the decision of the journal. -/
def sampleAppend : List Action :=
  [.acquire 0 (sampleStamp "e1"), .publisher (.watermarkRead (sampleStamp "e1")),
    .publisher .pass, .publisher (.journalCommit (sampleStamp "e1").now)]

/-- The channel hears of its append, and the event goes into the queue. -/
def sampleFinish : List Action :=
  [.publisher .acknowledge, .publisher .pass, .publisher .pass, .publisher .pass, .publisher .pass,
    .publisher .put]

/-- Two events of the step, one after the other. -/
def sampleAnswered : List Action :=
  .emit (sampleDelta false) :: sampleAppend ++ sampleFinish ++
    [.emit (sampleDelta false), .acquire 0 (sampleStamp "e2"), .publisher .pass,
      .publisher (.journalCommit (sampleStamp "e2").now)] ++ sampleFinish

theorem journal_contiguous_sampleAnswered :
    ∃ s, runSteps sampleJournalConfig [] sampleAnswered = some s ∧
      s.log.map JournalRecord.sequence = [1, 2] ∧ s.exits.map Prod.snd = [.returned, .returned] ∧
      SequencesSound sampleJournalConfig [] s := by
  have hrun : (runSteps sampleJournalConfig [] sampleAnswered).any
      (fun s => s.log.map JournalRecord.sequence = [1, 2] ∧
        s.exits.map Prod.snd = [.returned, .returned]) = true := by
    decide +kernel
  obtain ⟨s, hs, hsequences, hexits⟩ := exists_of_any hrun
  refine ⟨s, hs, hsequences, hexits, journal_contiguous rfl ⟨.nil, ?_⟩ hs ?_⟩
  · exact fun _ h => absurd h List.not_mem_nil
  · exact Trace.along_of_forall
      (fun action h => faithful_of_neverLoses (List.all_eq_true.mp rfl action h)) _

/-- The run is cancelled while an `OUTPUT_DELTA` waits for the publish lock: its append is
committed, then the cancellation is seen.  The next publication gets the same sequence. -/
def sampleLostAnswer : List Action :=
  Action.emit (sampleDelta false) :: Action.lifecycle .cancelRun :: sampleAppend ++
    [Action.publisher .cancelAppend, Action.emit (sampleDelta true),
      Action.acquire 0 (sampleStamp "e2"),
      Action.publisher .pass, Action.publisher (.journalCommit (sampleStamp "e2").now)]

theorem sequence_conflict_after_lost_answer :
    ∃ s, runSteps sampleJournalConfig [] sampleLostAnswer = some s ∧
      s.exits.map Prod.snd = [.runCancelled, .journalError .sequenceConflict] ∧
      ¬ SequencesSound sampleJournalConfig [] s := by
  have hrun : (runSteps sampleJournalConfig [] sampleLostAnswer).any
      (fun s => s.exits.map Prod.snd = [.runCancelled, .journalError .sequenceConflict]) =
        true := by
    decide +kernel
  obtain ⟨s, hs, hexits⟩ := exists_of_any hrun
  refine ⟨s, hs, hexits, fun hsound => ?_⟩
  have hmem : Exit.journalError .sequenceConflict ∈ s.exits.map Prod.snd := by
    rw [hexits]
    exact List.mem_cons_of_mem _ List.mem_cons_self
  obtain ⟨⟨call, _⟩, hcall, rfl⟩ := List.mem_map.mp hmem
  exact (hsound.accepted call _ hcall).1 rfl

end Channel

end LocalAgent.Runtime
