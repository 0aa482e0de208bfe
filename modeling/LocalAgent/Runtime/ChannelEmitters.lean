import LocalAgent.Runtime.ChannelJournal

/-!
# LocalAgent.Runtime.ChannelEmitters — the numbers of one step's events

`StepEventEmitter.emit` gives its events the numbers 1, 2, … of its step and counts a number as used
when `publish` returned, or when it raised an `EventPublicationError` that says so.  Every other
exception leaves the counter where it was, also when the event is already in the journal.

* `Flights`: the calls under way are numbered one after the counter of their emitter, whose lock
  they hold.
* `Accounts`: no publication of the step is abandoned in this step after its number was journaled.
* `step_sequences_increasing`: along such steps the numbers of a step in the journal go up.
-/

namespace LocalAgent.Runtime

namespace Channel

variable {cfg : ChannelConfig} {s s' : Channel} {stepId : String}

/-! ## The calls under way -/

def holding : Option Holder → List PublishCall
  | some (.publisher call _) => [call]
  | _ => []

def inFlight (s : Channel) : List PublishCall := holding s.lock ++ s.waiting

def OtherStep (a b : PublishCall) : Prop :=
  ∀ stepId, a.request.stepId = some stepId → b.request.stepId ≠ some stepId

theorem OtherStep.symm {a b : PublishCall} (h : OtherStep a b) : OtherStep b a :=
  fun stepId hb ha => h stepId ha hb

structure Flights (emitters : String → StepEventEmitter) (calls : List PublishCall) : Prop where
  one : calls.Pairwise OtherStep
  numbered : ∀ call ∈ calls, ∀ stepId, call.request.stepId = some stepId →
    (emitters stepId).locked = true ∧
      call.stepSequence = some ((emitters stepId).sequence + 1)

variable {call : PublishCall} {exit : Exit} {t : Channel} {action : PublisherAction}
  {stage : PublishStage}

theorem settle_self (h : call.request.stepId = some stepId) :
    (s.settle call exit).emitters stepId = settleEmitter (s.emitters stepId) call exit := by
  simp [settle, h]

theorem settle_other (h : call.request.stepId ≠ some stepId) :
    (s.settle call exit).emitters stepId = s.emitters stepId := by
  cases hcall : call.request.stepId with
  | none => simp [settle, hcall]
  | some other =>
    have hne : stepId ≠ other := by
      rintro rfl
      exact h hcall
    simp [settle, hcall, hne]

namespace Flights

variable {emitters : String → StepEventEmitter} {calls calls' : List PublishCall}

theorem perm (h : Flights emitters calls) (hperm : calls.Perm calls') : Flights emitters calls' where
  one := (hperm.pairwise_iff fun h => h.symm).mp h.one
  numbered := fun call hcall => h.numbered call (hperm.mem_iff.mpr hcall)

/-- The first call of a step has ended: the lock of its emitter is free. -/
theorem ends (h : Flights s.emitters (call :: calls)) :
    Flights (s.settle call exit).emitters calls where
  one := (List.pairwise_cons.mp h.one).2
  numbered := by
    intro other hother stepId hstep
    have hne : call.request.stepId ≠ some stepId :=
      fun hcall => (List.pairwise_cons.mp h.one).1 other hother stepId hcall hstep
    rw [settle_other hne]
    exact h.numbered other (List.mem_cons_of_mem _ hother) stepId hstep

/-- A new call takes the free lock of its emitter. -/
theorem begins {request : EmitRequest} (h : Flights s.emitters calls)
    (hunlocked : ∀ stepId ∈ request.stepId, (s.emitters stepId).locked = false) :
    Flights (s.enqueueCall request).emitters (s.newCall request :: calls) := by
  have hfree : ∀ stepId, request.stepId = some stepId → ∀ call ∈ calls,
      call.request.stepId ≠ some stepId := by
    intro stepId hstep call hcall hsame
    have hlocked := (h.numbered call hcall stepId hsame).1
    rw [hunlocked stepId hstep] at hlocked
    cases hlocked
  refine ⟨List.pairwise_cons.mpr ⟨fun call hcall stepId hstep => ?_, h.one⟩, ?_⟩
  · exact hfree stepId hstep call hcall
  · intro call hcall stepId hstep
    rcases List.mem_cons.mp hcall with rfl | hcall
    · have hrequest : request.stepId = some stepId := hstep
      simp [enqueueCall, newCall, hrequest]
    · have hne : request.stepId ≠ some stepId := fun hrequest =>
        hfree stepId hrequest call hcall hstep
      have hsame : (s.enqueueCall request).emitters stepId = s.emitters stepId := by
        cases hrequest : request.stepId with
        | none => simp [enqueueCall, hrequest]
        | some other =>
          have hother : stepId ≠ other := by
            rintro rfl
            exact hne hrequest
          simp [enqueueCall, hrequest, hother]
      rw [hsame]
      exact h.numbered call hcall stepId hstep

end Flights

theorem flights_new (cfg : ChannelConfig) (log : List JournalRecord) :
    Flights (new cfg log).emitters (new cfg log).inFlight :=
  ⟨.nil, fun _ h => absurd h List.not_mem_nil⟩

theorem holding_of_idle (h : s.Idle) : holding s.lock = [] := by
  cases hlock : s.lock with
  | none => rfl
  | some holder =>
    obtain ⟨_, rfl⟩ := h holder hlock
    rfl

variable {index : ℕ} {stage' : PublishStage} {log : List JournalRecord} {record : JournalRecord}

theorem waiting_perm (h : s.waiting[index]? = some call) :
    s.waiting.Perm (call :: (s.dequeueCall index).waiting) := by
  obtain ⟨hlt, rfl⟩ := List.getElem?_eq_some_iff.mp h
  exact (List.getElem_cons_eraseIdx_perm hlt).symm

inductive Flies (s s' : Channel) : Prop where
  | same (calls : s'.inFlight.Perm s.inFlight) (emitters : s'.emitters = s.emitters)
  | begins (request : EmitRequest)
      (unlocked : ∀ stepId ∈ request.stepId, (s.emitters stepId).locked = false)
      (calls : s'.inFlight.Perm (s.newCall request :: s.inFlight))
      (emitters : s'.emitters = (s.enqueueCall request).emitters)
  | ends (call : PublishCall) (exit : Exit) (calls : s.inFlight.Perm (call :: s'.inFlight))
      (emitters : s'.emitters = (s.settle call exit).emitters)

/-- In every state, a step has one call in flight and its emitter is locked by that. -/
theorem Flights.step (hs : Flights s.emitters s.inFlight) (h : Flies s s') :
    Flights s'.emitters s'.inFlight := by
  cases h with
  | same calls emitters =>
    rw [emitters]
    exact hs.perm calls.symm
  | begins _ unlocked calls emitters =>
    rw [emitters]
    exact (hs.begins unlocked).perm calls.symm
  | ends _ _ calls emitters =>
    rw [emitters]
    exact (hs.perm calls).ends

theorem beginEvent_flies (call : PublishCall) (stamp : Stamp)
    (hcalls : s.inFlight.Perm (call :: t.waiting)) (hemitters : t.emitters = s.emitters) :
    Flies s (t.beginEvent cfg call stamp) := by
  unfold beginEvent
  split
  · refine .ends call .failed hcalls ?_
    simp [leave, settle, hemitters]
  · exact .same hcalls.symm hemitters

theorem enter_flies (hlock : s.lock = none)
    (hwaits : s.waiting[index]? = some call) (stamp : Stamp) :
    Flies s ((s.dequeueCall index).enter cfg call stamp) := by
  have hcalls : s.inFlight.Perm (call :: (s.dequeueCall index).waiting) := by
    rw [inFlight, hlock]
    exact waiting_perm hwaits
  unfold enter
  split_ifs
  · exact .ends call .channelClosed hcalls rfl
  · exact beginEvent_flies call stamp hcalls rfl
  · exact .same hcalls.symm rfl

theorem goesOn_flies
    (hlock : s.lock = some (.publisher call stage)) (hgoes : GoesOn cfg s call action stage s') :
    Flies s s' := by
  have hcalls : s.inFlight = call :: s.waiting := by rw [inFlight, hlock]; rfl
  cases hgoes with
  | watermarkRead stamp => exact beginEvent_flies call stamp (.of_eq hcalls) rfl
  | pass | acknowledge | mutationReturns => exact .same (.of_eq hcalls.symm) rfl
  | journalCommit =>
    unfold commit
    split
    · exact .ends call _ (.of_eq hcalls) rfl
    · exact .same (.of_eq hcalls.symm) rfl
  | put =>
    unfold putEvent
    split
    · exact .ends call _ (.of_eq hcalls) rfl
    split
    · exact .ends call _ (.of_eq hcalls) rfl
    · exact .ends call .returned (.of_eq hcalls) rfl

/-- Every step starts a call, ends one, or leaves the calls in flight. -/
theorem step_flies {action : Action} (h : s.step cfg action = some s') : Flies s s' := by
  have hsame : ∀ {t : Channel}, SameWriting s t → Flies s t := by
    intro t hsame
    refine .same (.of_eq ?_) hsame.emitters
    rw [inFlight, inFlight, hsame.waiting]
    rcases hsame.lock with hlock | ⟨hidle, hidle'⟩
    · rw [hlock]
    · rw [holding_of_idle hidle, holding_of_idle hidle']
  cases step_writes h with
  | refuse | lateCommit | foreignAppend => exact .same (.refl _) rfl
  | @enqueueCall request hunlocked =>
    refine .begins request hunlocked ?_ rfl
    show (holding s.lock ++ (s.waiting ++ [s.newCall request])).Perm _
    rw [← List.append_assoc]
    exact List.perm_append_singleton _ _
  | enter hlock hwaits => exact enter_flies hlock hwaits _
  | @giveUp index call hwaits =>
    refine .ends call .failed ?_ rfl
    exact ((waiting_perm hwaits).append_left _).trans List.perm_middle
  | @exit action call stage exit hlock hexit =>
    refine .ends call exit (.of_eq ?_) rfl
    rw [inFlight, hlock]
    rfl
  | goOn hlock hgoes => exact goesOn_flies hlock hgoes
  | capture hcaptures =>
    cases hcaptures with
    | start hlock | loaded hlock | finish hlock | interrupt hlock =>
      exact .same (.of_eq (by rw [inFlight, inFlight, hlock]; rfl)) rfl
  | lifecycle h | consumer h => exact hsame h

/-! ## The event in hand -/

/-- The event in hand is the call's. -/
def Drafted (cfg : ChannelConfig) (s : Channel) : Prop :=
  ∀ call stage event, s.lock = some (.publisher call stage) → stageEvent stage = some event →
    event.runId = cfg.runId ∧ event.stepId = call.request.stepId ∧
      event.stepSequence = call.stepSequence

namespace Drafted

theorem idle (hidle : s.Idle) : Drafted cfg s :=
  fun _ _ _ hlock => absurd hlock hidle.not_publishing

theorem same (hs : Drafted cfg s) (hlock : s'.lock = s.lock) : Drafted cfg s' := by
  unfold Drafted
  rwa [hlock]

theorem sameWriting (hs : Drafted cfg s) (hsame : SameWriting s s') : Drafted cfg s' := by
  rcases hsame.lock with hlock | ⟨-, hidle⟩
  · exact hs.same hlock
  · exact idle hidle

theorem advance (hs : Drafted cfg s) (hlock : s.lock = some (.publisher call stage))
    (hevent : stageEvent stage' = stageEvent stage) : Drafted cfg (t.advance call stage') := by
  intro _ _ event hlock' h
  obtain ⟨rfl, rfl⟩ := Holder.publisher.inj (Option.some.inj hlock')
  exact hs _ stage event hlock (hevent ▸ h)

theorem beginEvent (s : Channel) (call : PublishCall) (stamp : Stamp) :
    Drafted cfg (s.beginEvent cfg call stamp) := by
  unfold Channel.beginEvent
  cases hevent : RuntimeEvent.fromDraft (call.draft cfg) (s.sequence + 1) stamp.eventId
      stamp.now with
  | error => exact idle (idle_of_unlocked rfl)
  | ok event =>
    intro _ _ event' hlock h
    obtain ⟨rfl, rfl⟩ := Holder.publisher.inj (Option.some.inj hlock)
    have heq : event' = event := by
      split at h
      all_goals exact (Option.some.inj h).symm
    rw [heq, RuntimeEvent.eq_of_fromDraft hevent]
    exact ⟨rfl, rfl, rfl⟩

theorem step {action : Action} (hs : Drafted cfg s) (h : s.step cfg action = some s') :
    Drafted cfg s' := by
  cases step_writes h with
  | refuse | enqueueCall | giveUp | lateCommit | foreignAppend => exact hs.same rfl
  | enter =>
    unfold enter
    split_ifs
    · exact idle (idle_of_unlocked rfl)
    · exact beginEvent _ _ _
    · intro call stage _ hlock h
      obtain ⟨-, rfl⟩ := Holder.publisher.inj (Option.some.inj hlock)
      cases h
  | exit => exact idle (idle_of_unlocked rfl)
  | @goOn action call stage _ hlock hgoes =>
    cases hgoes with
    | watermarkRead => exact beginEvent _ _ _
    | pass hnext => exact hs.advance hlock (nextStage_event hnext).1
    | journalCommit =>
      unfold commit
      split
      · exact idle (idle_of_unlocked rfl)
      · exact hs.advance hlock rfl
    | acknowledge | mutationReturns => exact hs.advance hlock rfl
    | put =>
      unfold putEvent
      split_ifs
      all_goals exact idle (idle_of_unlocked rfl)
  | capture hcaptures =>
    cases hcaptures with
    | start | loaded | finish | interrupt => exact fun _ _ _ h => nomatch h
  | lifecycle hsame | consumer hsame => exact hs.sameWriting hsame

end Drafted

/-! ## The numbers in the journal -/

/-- The numbers of a step's events in the journal, in the order of the journal. -/
def stepSequences (cfg : ChannelConfig) (stepId : String) (log : List JournalRecord) : List ℕ :=
  ((JournalLog.ofRun log cfg.runId).filter (·.stepId = some stepId)).filterMap
    JournalRecord.stepSequence

theorem journalDecision_appended {event : RuntimeEvent} {now : DateTime.Utc}
    (h : s.journalDecision event now = .ok (.appended, log)) :
    ∃ record, JournalRecord.fromEvent event now = .ok record ∧ log = s.log ++ [record] := by
  unfold journalDecision at h
  cases hrecord : JournalRecord.fromEvent event now with
  | error => rw [hrecord] at h; cases h
  | ok record =>
    rw [hrecord] at h
    dsimp only at h
    split at h <;> cases h
    exact ⟨record, rfl, rfl⟩

theorem stepSequences_foreign (h : record.runId ≠ cfg.runId ∨ record.stepId ≠ some stepId) :
    stepSequences cfg stepId (log ++ [record]) = stepSequences cfg stepId log := by
  unfold stepSequences JournalLog.ofRun
  rcases h with h | h
  · simp [h]
  · simp [List.filter_append, List.filter_filter, h]

theorem stepSequences_own {n : ℕ}
    (hrun : record.runId = cfg.runId) (hstep : record.stepId = some stepId)
    (hn : record.stepSequence = some n) :
    stepSequences cfg stepId (log ++ [record]) = stepSequences cfg stepId log ++ [n] := by
  unfold stepSequences JournalLog.ofRun
  simp [hrun, hstep, hn]

/-- The stages after the journal's decision. -/
def journaled : PublishStage → Bool
  | .committed _ _ => true
  | stage => acknowledged stage

def written (stepId : String) : Option Holder → Bool
  | some (.publisher call stage) => call.request.stepId = some stepId && journaled stage
  | _ => false

/-- `StepEventEmitter.emit` counts the number as used. -/
def counts : Exit → Bool
  | .returned => true
  | .publicationError true => true
  | _ => false

/-- The action ends the call with an exception that does not tell its emitter about the journal. -/
def abandons (cfg : ChannelConfig) (s : Channel) (call : PublishCall) : PublisherAction → Bool
  | .journalFails => true
  | .cancelAppend => true
  | .stopWaiting => true
  | .interrupt => true
  | .put => s.state = .aborted || s.tokenStops cfg call
  | _ => false

/-- No publication of the step is abandoned once its number is in the journal, and no append of the
step is committed after its publication has ended. -/
def Accounts (cfg : ChannelConfig) (stepId : String) (s : Channel) : Action → Prop
  | .publisher action => ∀ call stage, s.lock = some (.publisher call stage) →
    call.request.stepId = some stepId → abandons cfg s call action = true →
      ∀ n ∈ call.stepSequence, n ∉ stepSequences cfg stepId s.log
  | .lateCommit index _ => ∀ event, s.adrift[index]? = some event → event.stepId ≠ some stepId
  | _ => True

instance (cfg : ChannelConfig) (stepId : String) (s : Channel) :
    ∀ action, Decidable (Accounts cfg stepId s action)
  | .publisher action =>
    match hlock : s.lock with
    | some (.publisher call _) =>
      decidable_of_iff (call.request.stepId = some stepId → abandons cfg s call action = true →
        ∀ n ∈ call.stepSequence, n ∉ stepSequences cfg stepId s.log) (by simp [Accounts, hlock])
    | none | some (.closer _) | some (.capture _) => .isTrue (by simp [Accounts, hlock])
  | .lateCommit index _ =>
    inferInstanceAs (Decidable (∀ event ∈ s.adrift[index]?, event.stepId ≠ some stepId))
  | .emit _ | .acquire .. | .giveUp _ | .capture _ | .lifecycle _ | .consumer .. |
    .foreignAppend _ => .isTrue trivial

/-- Behind the append, an exit counts the number or abandons it. -/
theorem exitOf_journaled (hjournal : cfg.hasJournal = true)
    (h : s.exitOf cfg call action stage = some exit) (hstage : journaled stage = true) :
    counts exit = true ∨ abandons cfg s call action = true := by
  cases action with
  | journalFails | cancelAppend | stopWaiting | interrupt => exact .inr rfl
  | fault =>
    cases stage with
    | afterAppend =>
      cases h
      exact .inl rfl
    | beforeEnqueue =>
      cases h
      rw [hjournal]
      exact .inl rfl
    | beforeAppend => cases hstage
    | _ => cases h
  | _ => cases h

/-- The numbers in the journal go up to the counter of the step, or to one more while a publication
of the step is past the journal. -/
structure Counted (cfg : ChannelConfig) (stepId : String) (s : Channel) : Prop where
  increasing : (stepSequences cfg stepId s.log).Pairwise (· < ·)
  bound : ∀ n ∈ stepSequences cfg stepId s.log,
    n ≤ (s.emitters stepId).sequence + (written stepId s.lock).toNat

theorem Counted.keep (hs : Counted cfg stepId s) (hlog : s'.log = s.log)
    (hbound : (s.emitters stepId).sequence + (written stepId s.lock).toNat ≤
      (s'.emitters stepId).sequence + (written stepId s'.lock).toNat) :
    Counted cfg stepId s' where
  increasing := hlog ▸ hs.increasing
  bound := fun n hn => (hs.bound n (hlog ▸ hn)).trans hbound

/-- The journal grows by a record that is none of the step. -/
theorem Counted.foreign (hs : Counted cfg stepId s)
    (hsame : stepSequences cfg stepId s'.log = stepSequences cfg stepId s.log)
    (hemitters : s'.emitters = s.emitters) (hlock : s'.lock = s.lock) :
    Counted cfg stepId s' where
  increasing := hsame ▸ hs.increasing
  bound := by
    rw [hsame, hemitters, hlock]
    exact hs.bound

theorem settle_sequence (hnumber : call.request.stepId = some stepId →
      call.stepSequence = some ((s.emitters stepId).sequence + 1)) (exit : Exit) :
    ((s.settle call exit).emitters stepId).sequence = (s.emitters stepId).sequence +
      (decide (call.request.stepId = some stepId) && counts exit).toNat := by
  by_cases hstep : call.request.stepId = some stepId
  · rw [settle_self hstep]
    simp only [hstep, decide_true, Bool.true_and]
    rcases exit with _ | (_ | _) | _ | _ | _ | _
    · simp [settleEmitter, counts, hnumber hstep]
    · rfl
    · simp [settleEmitter, counts, hnumber hstep]
    all_goals rfl
  · rw [settle_other hstep]
    simp [hstep]

/-- The holder of the publish lock leaves, and its emitter counts or not. -/
theorem Counted.leave (hs : Counted cfg stepId s) (hlock : s.lock = some (.publisher call stage))
    (hnumber : call.request.stepId = some stepId →
      call.stepSequence = some ((s.emitters stepId).sequence + 1))
    (hcounts : call.request.stepId = some stepId → journaled stage = true →
      counts exit = true ∨ ∀ n ∈ call.stepSequence, n ∉ stepSequences cfg stepId s.log) :
    Counted cfg stepId (s.leave call exit) where
  increasing := hs.increasing
  bound := by
    intro n hn
    have hbound := hs.bound n hn
    rw [hlock] at hbound
    show n ≤ ((s.settle call exit).emitters stepId).sequence + 0
    rw [settle_sequence hnumber exit]
    by_cases hwritten : written stepId (some (.publisher call stage)) = true
    · obtain ⟨hstep, hstage⟩ := Bool.and_eq_true_iff.mp hwritten
      have hstep := of_decide_eq_true hstep
      rw [hwritten] at hbound
      rcases hcounts hstep hstage with hcount | hunused
      · rwa [hcount, decide_eq_true hstep]
      · -- the number of the call is not there, so all are below it
        have hne : n ≠ (s.emitters stepId).sequence + 1 := by
          rintro rfl
          exact hunused _ (hnumber hstep) hn
        have hle : n ≤ (s.emitters stepId).sequence + 1 := hbound
        omega
    · rw [Bool.eq_false_iff.mpr hwritten] at hbound
      exact hbound.trans (Nat.le_add_right _ _)

/-- An accepted record of the step has the number after the counter. -/
theorem Counted.commit (hs : Counted cfg stepId s) {event : RuntimeEvent}
    (hlock : s.lock = some (.publisher call (.appending event)))
    (hnumber : call.request.stepId = some stepId →
      call.stepSequence = some ((s.emitters stepId).sequence + 1))
    (hrun : event.runId = cfg.runId) (hstep : event.stepId = call.request.stepId)
    (hsequence : event.stepSequence = call.stepSequence) (now : DateTime.Utc) :
    Counted cfg stepId (s.commit call event now) := by
  have hleave : ∀ exit, Counted cfg stepId (s.leave call exit) := fun exit =>
    hs.leave hlock hnumber fun _ h => nomatch h
  have hbelow : ∀ n ∈ stepSequences cfg stepId s.log, n ≤ (s.emitters stepId).sequence := by
    intro n hn
    have hbound := hs.bound n hn
    rw [hlock] at hbound
    simpa [written, journaled, acknowledged] using hbound
  unfold Channel.commit journalDecision
  cases hrecord : JournalRecord.fromEvent event now with
  | error => exact hleave _
  | ok record =>
    obtain ⟨-, hrecordRun, -⟩ := JournalRecord.fromEvent_ids hrecord
    obtain ⟨hrecordStep, hrecordNumber⟩ := JournalRecord.fromEvent_step hrecord
    dsimp only
    cases hanswer : JournalLog.append s.log record with
    | error => exact hleave _
    | ok status =>
      cases status with
      | duplicate =>
        exact ⟨hs.increasing, fun n hn => (hbelow n hn).trans (Nat.le_add_right _ _)⟩
      | appended =>
        by_cases hown : call.request.stepId = some stepId
        · have happend : stepSequences cfg stepId (s.log ++ [record]) =
              stepSequences cfg stepId s.log ++ [(s.emitters stepId).sequence + 1] :=
            stepSequences_own (hrecordRun.trans hrun) (hrecordStep.trans (hstep.trans hown))
              (hrecordNumber.trans (hsequence.trans (hnumber hown)))
          constructor
          · show (stepSequences cfg stepId (s.log ++ [record])).Pairwise _
            rw [happend, List.pairwise_append]
            refine ⟨hs.increasing, List.pairwise_singleton _ _, fun n hn m hm => ?_⟩
            rw [List.mem_singleton.mp hm]
            exact Nat.lt_succ_of_le (hbelow n hn)
          · show ∀ n ∈ stepSequences cfg stepId (s.log ++ [record]),
              n ≤ (s.emitters stepId).sequence + (decide (call.request.stepId = some stepId) &&
                journaled (.committed event .appended)).toNat
            rw [happend, decide_eq_true hown]
            intro n hn
            rcases mem_snoc hn with hn | hn
            · exact (hbelow n hn).trans (Nat.le_add_right _ _)
            · exact hn.le
        · have hsame : stepSequences cfg stepId (s.log ++ [record]) =
              stepSequences cfg stepId s.log := by
            refine stepSequences_foreign (.inr ?_)
            rwa [hrecordStep, hstep]
          constructor
          · show (stepSequences cfg stepId (s.log ++ [record])).Pairwise _
            rw [hsame]
            exact hs.increasing
          · show ∀ n ∈ stepSequences cfg stepId (s.log ++ [record]), _
            rw [hsame]
            exact fun n hn => (hbelow n hn).trans (Nat.le_add_right _ _)

theorem enqueueCall_sequence (request : EmitRequest) :
    ((s.enqueueCall request).emitters stepId).sequence = (s.emitters stepId).sequence := by
  cases hrequest : request.stepId with
  | none => simp [enqueueCall, hrequest]
  | some other =>
    by_cases hother : stepId = other
    · subst hother
      simp [enqueueCall, hrequest]
    · simp [enqueueCall, hrequest, hother]

theorem written_of_idle (h : s.Idle) : written stepId s.lock = false := by
  cases hlock : s.lock with
  | none => rfl
  | some holder =>
    obtain ⟨_, rfl⟩ := h holder hlock
    rfl

theorem nextStage_journaled (h : nextStage stage = some stage') :
    journaled stage' = journaled stage := by
  cases stage with
  | readingWatermark | appending | committed | putting => cases h
  | _ =>
    cases h
    rfl

theorem Counted.beginEvent (hs : Counted cfg stepId s)
    (hwritten : written stepId s.lock = false) (hlog : t.log = s.log)
    (hemitters : t.emitters = s.emitters) (hnumber : call.request.stepId = some stepId →
      call.stepSequence = some ((s.emitters stepId).sequence + 1)) (stamp : Stamp) :
    Counted cfg stepId (t.beginEvent cfg call stamp) := by
  unfold Channel.beginEvent
  split
  · refine hs.keep hlog ?_
    rw [← hemitters] at hnumber
    show _ ≤ ((t.settle call .failed).emitters stepId).sequence + 0
    rw [settle_sequence hnumber, hwritten, hemitters]
    exact Nat.le_add_right _ _
  · refine hs.keep hlog ?_
    show _ ≤ (t.emitters stepId).sequence + _
    rw [hwritten, hemitters]
    exact Nat.le_add_right _ _

/-- The holder of the publish lock goes on to its next stage. -/
theorem Counted.goesOn (hs : Counted cfg stepId s) (hdrafted : Drafted cfg s)
    (hlock : s.lock = some (.publisher call stage)) (hnumber : call.request.stepId = some stepId →
      call.stepSequence = some ((s.emitters stepId).sequence + 1))
    (hgoes : GoesOn cfg s call action stage s')
    (haccounts : Accounts cfg stepId s (.publisher action)) : Counted cfg stepId s' := by
  cases hgoes with
  | watermarkRead stamp =>
    refine hs.beginEvent ?_ (by rfl) (by rfl) hnumber stamp
    rw [hlock]
    exact Bool.and_false _
  | pass hnext =>
    refine hs.keep rfl ?_
    rw [hlock]
    show _ ≤ (s.emitters stepId).sequence +
      (decide (call.request.stepId = some stepId) && journaled _).toNat
    rw [nextStage_journaled hnext]
    exact le_rfl
  | journalCommit event now =>
    obtain ⟨hrun, hstep, hsequence⟩ := hdrafted call _ event hlock rfl
    exact hs.commit hlock hnumber hrun hstep hsequence now
  | acknowledge =>
    refine hs.keep rfl ?_
    rw [hlock]
    exact le_rfl
  | mutationReturns =>
    refine hs.keep rfl ?_
    have hunwritten : written stepId s.lock = false := by
      rw [hlock]
      exact Bool.and_false _
    rw [hunwritten]
    exact Nat.le_add_right _ _
  | put event =>
    have hunused : ∀ {exit : Exit}, abandons cfg s call .put = true →
        Counted cfg stepId (s.leave call exit) := fun habandons =>
      hs.leave hlock hnumber fun hstep _ => .inr (haccounts call _ hlock hstep habandons)
    unfold putEvent
    split
    · rename_i haborted
      exact hunused (by simp [abandons, haborted])
    split
    · rename_i hstops
      exact hunused (by simp [abandons, hstops])
    · have hput : Counted cfg stepId { s with
          queue := s.queue ++ [.event event]
          published := s.published ++ [event]
          sequence := if cfg.hasJournal then s.sequence else event.sequence } :=
        hs.keep rfl le_rfl
      exact hput.leave hlock hnumber fun _ _ => .inl rfl

/-- The numbers that are journaled are those the emitter has counted, and at most one more. -/
theorem Counted.step {action : Action} (hjournal : cfg.hasJournal = true)
    (hs : Counted cfg stepId s) (hflights : Flights s.emitters s.inFlight)
    (hdrafted : Drafted cfg s) (haccounts : Accounts cfg stepId s action)
    (h : s.step cfg action = some s') : Counted cfg stepId s' := by
  have hsame : ∀ {t : Channel}, SameWriting s t → Counted cfg stepId t := by
    intro t hsame
    refine hs.keep hsame.log ?_
    rw [hsame.emitters]
    rcases hsame.lock with hlock | ⟨hidle, hidle'⟩
    · rw [hlock]
    · rw [written_of_idle hidle, written_of_idle hidle']
  have hwaiting : ∀ {index : ℕ} {call : PublishCall}, s.waiting[index]? = some call →
      call.request.stepId = some stepId →
        call.stepSequence = some ((s.emitters stepId).sequence + 1) := by
    intro index call hwaits hstep
    refine (hflights.numbered call ?_ stepId hstep).2
    exact List.mem_append_right _ (List.mem_of_getElem? hwaits)
  have hholding : ∀ {call : PublishCall} {stage : PublishStage},
      s.lock = some (.publisher call stage) → call.request.stepId = some stepId →
        call.stepSequence = some ((s.emitters stepId).sequence + 1) := by
    intro call _ hlock hstep
    refine (hflights.numbered call ?_ stepId hstep).2
    rw [inFlight, hlock]
    exact List.mem_cons_self
  cases step_writes h with
  | refuse => exact hs.keep rfl le_rfl
  | @enqueueCall request =>
    refine hs.keep rfl ?_
    rw [enqueueCall_sequence]
    exact le_rfl
  | @enter index stamp call hlock hwaits =>
    have hunwritten : written stepId s.lock = false := by
      rw [hlock]
      rfl
    unfold enter
    split_ifs
    · refine hs.keep rfl ?_
      show _ ≤ ((settle (s.dequeueCall index) call .channelClosed).emitters stepId).sequence + 0
      rw [settle_sequence (s := s.dequeueCall index) (hwaiting hwaits), hunwritten]
      exact Nat.le_add_right _ _
    · exact hs.beginEvent hunwritten (by rfl) (by rfl) (hwaiting hwaits) stamp
    · refine hs.keep rfl ?_
      rw [hunwritten]
      exact Nat.le_add_right _ _
  | @giveUp index call hwaits =>
    refine hs.keep rfl ?_
    rw [settle_sequence (s := s.dequeueCall index) (hwaiting hwaits)]
    show _ ≤ (s.emitters stepId).sequence + _ + (written stepId s.lock).toNat
    omega
  | @exit action call stage _ hlock hexit =>
    have hstranded : Counted cfg stepId (s.strand stage) := hs.keep rfl le_rfl
    refine hstranded.leave hlock (hholding hlock) fun hstep hstage => ?_
    exact (exitOf_journaled hjournal hexit hstage).imp_right (haccounts _ _ hlock hstep)
  | goOn hlock hgoes => exact hs.goesOn hdrafted hlock (hholding hlock) hgoes haccounts
  | capture hcaptures =>
    cases hcaptures with
    | start hlock | loaded hlock | finish hlock | interrupt hlock =>
      exact hs.keep rfl (by rw [hlock]; exact le_rfl)
  | lifecycle h | consumer h => exact hsame h
  | lateCommit hadrift hdecides =>
    obtain ⟨record, hrecord, rfl⟩ := journalDecision_appended hdecides
    have hother : record.stepId ≠ some stepId := by
      rw [(JournalRecord.fromEvent_step hrecord).1]
      exact haccounts _ hadrift
    exact hs.foreign (stepSequences_foreign (.inr hother)) rfl rfl
  | foreignAppend hforeign => exact hs.foreign (stepSequences_foreign (.inl hforeign)) rfl rfl

/-! ## Every run -/

/-- In every run that begins without an event of the step in the journal and abandons no
publication of the step after its number was journaled, in every state it reaches. -/
theorem step_sequences_increasing {log : List JournalRecord} {acts : List Action}
    (hjournal : cfg.hasJournal = true) (hfresh : stepSequences cfg stepId log = [])
    (hrun : runSteps cfg log acts = some s)
    (haccounts : Trace.Along (step cfg) (Accounts cfg stepId) (new cfg log) acts) :
    (stepSequences cfg stepId s.log).Pairwise (· < ·) := by
  have hnew : Counted cfg stepId (new cfg log) := by
    refine ⟨?_, fun n hn => ?_⟩
    · exact hfresh ▸ .nil
    · exact absurd (hfresh ▸ hn) List.not_mem_nil
  have hall : (Flights s.emitters s.inFlight ∧ Drafted cfg s) ∧ Counted cfg stepId s := by
    refine Trace.run_keeps (P := fun s =>
      (Flights s.emitters s.inFlight ∧ Drafted cfg s) ∧ Counted cfg stepId s) ?_ haccounts hrun
      ⟨⟨flights_new cfg log, Drafted.idle (idle_of_unlocked rfl)⟩, hnew⟩
    rintro s _ _ hstep h ⟨⟨hflights, hdrafted⟩, hs⟩
    exact ⟨⟨hflights.step (step_flies h), hdrafted.step h⟩,
      hs.step hjournal hflights hdrafted hstep h⟩
  exact hall.2.increasing

theorem step_sequences_increasing_sampleAnswered :
    ∃ s, runSteps sampleJournalConfig [] sampleAnswered = some s ∧
      stepSequences sampleJournalConfig "step" s.log = [1, 2] ∧
      s.exits.map Prod.snd = [.returned, .returned] ∧
      (stepSequences sampleJournalConfig "step" s.log).Pairwise (· < ·) := by
  have hrun : (runSteps sampleJournalConfig [] sampleAnswered).any
      (fun s => stepSequences sampleJournalConfig "step" s.log = [1, 2] ∧
        s.exits.map Prod.snd = [.returned, .returned]) = true := by
    decide +kernel
  obtain ⟨s, hs, hnumbers, hexits⟩ := exists_of_any hrun
  exact ⟨s, hs, hnumbers, hexits,
    step_sequences_increasing rfl rfl hs (by decide +kernel)⟩

/-- The run is cancelled after an event of the step was journaled and before it is in the queue;
the next event of the step gets the same number. -/
def sampleReused : List Action :=
  Action.emit (sampleDelta false) :: sampleAppend ++
    [Action.publisher .acknowledge, Action.publisher .pass, Action.publisher .pass,
      Action.publisher .pass,
      Action.publisher .pass, Action.lifecycle .cancelRun, Action.publisher .put,
        Action.emit (sampleDelta true),
      Action.acquire 0 (sampleStamp "e2"), Action.publisher .pass,
      Action.publisher (.journalCommit (sampleStamp "e2").now)]

theorem step_sequence_reused :
    ∃ s, runSteps sampleJournalConfig [] sampleReused = some s ∧
      stepSequences sampleJournalConfig "step" s.log = [1, 1] ∧
      ¬ (stepSequences sampleJournalConfig "step" s.log).Pairwise (· < ·) := by
  have hrun : (runSteps sampleJournalConfig [] sampleReused).any
      (fun s => stepSequences sampleJournalConfig "step" s.log = [1, 1]) = true := by
    decide +kernel
  obtain ⟨s, hs, hreused⟩ := exists_of_any hrun
  refine ⟨s, hs, hreused, ?_⟩
  rw [hreused]
  decide

end Channel

end LocalAgent.Runtime
