import LocalAgent.Runtime.Channel

/-!
# LocalAgent.Runtime.ChannelSteps — what a step of the channel can do

The cases of every action, stated once; the proofs about whole runs use these and never unfold the
step function.

* `emit_cases`, `acquire_cases`, `giveUp_cases`, `publisherStep_cases`, `captureStep_cases`,
  `lifecycleStep_cases`, `consumerStep_same`: the actions one by one.
* `StreamStep`, `step_stream`: what any of them does to the queue, the publish lock and the state
  of the channel.
* `Writes`, `step_writes`: what any of them does to the counters, the journal and the emitters.
-/

namespace LocalAgent.Runtime

namespace Channel

variable {cfg : ChannelConfig} {s s' : Channel}

/-! ## What a step does to the stream -/

def Publishing (s : Channel) (call : PublishCall) : Prop :=
  ∃ stage, s.lock = some (.publisher call stage)

/-- The effect of a step, as far as the stream of events is concerned. -/
inductive StreamStep (s s' : Channel) : Prop where
  /-- neither the queue nor the state changes; a new holder of the publish lock has found the
  channel open -/
  | quiet (state : s'.state = s.state) (queue : s'.queue = s.queue)
      (received : s'.received = s.received) (published : s'.published = s.published)
      (returned : ∀ call, (call, .returned) ∈ s'.exits → (call, .returned) ∈ s.exits)
      (lock : ∀ call, s'.Publishing call → s.Publishing call ∨ s.state = .opened)
      (closer : s'.closeBusy = true → s.closeBusy = true)
      (marked : s'.lock = some (.closer true) → s.lock = some (.closer true))
  | put (call : PublishCall) (event : RuntimeEvent) (holder : s.Publishing call)
      (alive : s.state ≠ .aborted) (state : s'.state = s.state)
      (queue : s'.queue = s.queue ++ [.event event]) (received : s'.received = s.received)
      (published : s'.published = s.published ++ [event])
      (exits : s'.exits = s.exits ++ [(call, .returned)]) (lock : s'.lock = none)
      (closer : s'.closeBusy = true → s.closeBusy = true)
  | pop (id : ℕ) (item : QueueItem) (state : s'.state = s.state)
      (queue : s.queue = item :: s'.queue)
      (received : s'.received = s.received ++ [⟨id, item⟩] ∨
        s.state = .aborted ∧ item ≠ .endOfStream)
      (published : s'.published = s.published) (exits : s'.exits = s.exits)
      (lock : s'.lock = s.lock) (closer : s'.closeBusy = s.closeBusy)
  | endPut (lock : s.lock = some (.closer false)) (state : s'.state = s.state)
      (queue : s'.queue = s.queue ++ [.endOfStream]) (received : s'.received = s.received)
      (published : s'.published = s.published) (exits : s'.exits = s.exits)
      (lock' : s'.lock = some (.closer true))
  /-- `close` begins or ends -/
  | turn (alive : s.state ≠ .aborted) (keep : s.state = .closed → s'.state = .closed)
      (state : s'.state = .closing ∨ s'.state = .closed) (queue : s'.queue = s.queue)
      (received : s'.received = s.received) (published : s'.published = s.published)
      (exits : s'.exits = s.exits) (lock : ∀ call, s'.Publishing call → s.Publishing call)
      (marked : s'.state = .closed ∨ s'.lock = some (.closer true) → s.lock = some (.closer true))
  | abort (alive : s.state ≠ .closed ∧ s.state ≠ .aborted) (state : s'.state = .aborted)
      (queue : s'.queue = [.endOfStream]) (received : s'.received = s.received)
      (published : s'.published = s.published) (exits : s'.exits = s.exits)
      (lock : s'.lock = s.lock)

variable {call : PublishCall} {exit : Exit}

theorem mem_concat_of_ne {exits : List (PublishCall × Exit)} {call' : PublishCall}
(hne : exit ≠ .returned)
    (h : (call', .returned) ∈ exits ++ [(call, exit)]) : (call', .returned) ∈ exits := by
  rcases mem_snoc h with h | h
  · exact h
  · have heq := h
    exact absurd (Prod.mk.inj heq).2.symm hne

theorem closeBusy_of_no_closer (h : ∀ endPut, s.lock ≠ some (.closer endPut)) :
    s.closeBusy = s.closeWaiting := by
  unfold closeBusy
  split
  · rename_i endPut heq
    exact absurd heq (h endPut)
  · simp

theorem closeWaiting_le_closeBusy (h : s.closeWaiting = true) : s.closeBusy = true := by
  simp [closeBusy, h]

/-- Nothing of the stream differs. -/
structure SameStream (s t : Channel) : Prop where
  state : t.state = s.state
  queue : t.queue = s.queue
  received : t.received = s.received
  published : t.published = s.published
  exits : t.exits = s.exits
  closeWaiting : t.closeWaiting = s.closeWaiting

variable {t : Channel}

theorem StreamStep.leave (h : SameStream s t) (call : PublishCall)
    (hne : exit ≠ .returned) : StreamStep s (t.leave call exit) := by
  refine .quiet h.state h.queue h.received h.published ?_ ?_ ?_ (fun hlock => nomatch hlock)
  · intro _ hmem
    exact h.exits ▸ mem_concat_of_ne hne hmem
  · rintro _ ⟨_, hlock⟩
    cases hlock
  · intro hbusy
    rw [closeBusy_of_no_closer (s := t.leave call exit) (fun _ => nofun)] at hbusy
    exact closeWaiting_le_closeBusy (h.closeWaiting ▸ hbusy)

theorem StreamStep.advance (h : SameStream s t)
    (hlock : s.Publishing call ∨ s.state = .opened) (stage : PublishStage) :
    StreamStep s (t.advance call stage) := by
  refine .quiet h.state h.queue h.received h.published ?_ ?_ ?_ (fun hlock => nomatch hlock)
  · intro call' hmem
    exact h.exits ▸ hmem
  · rintro _ ⟨_, heq⟩
    obtain ⟨rfl, -⟩ := Holder.publisher.inj (Option.some.inj heq)
    exact hlock
  · intro hbusy
    rw [closeBusy_of_no_closer (s := t.advance call stage) (fun _ => nofun)] at hbusy
    exact closeWaiting_le_closeBusy (h.closeWaiting ▸ hbusy)

theorem StreamStep.beginEvent (h : SameStream s t)
    (hlock : s.Publishing call ∨ s.state = .opened) (stamp : Stamp) :
    StreamStep s (t.beginEvent cfg call stamp) := by
  unfold Channel.beginEvent
  split
  · exact .leave h call nofun
  · exact .advance h hlock _

theorem StreamStep.idle (h : SameStream s s') (hlock : s'.lock = s.lock) : StreamStep s s' := by
  refine .quiet h.state h.queue h.received h.published (fun _ hmem => h.exits ▸ hmem) ?_ ?_
    (fun h => hlock ▸ h)
  · rintro _ ⟨stage, heq⟩
    exact .inl ⟨stage, hlock ▸ heq⟩
  · intro hbusy
    simpa [closeBusy, hlock, h.closeWaiting] using hbusy

/-! ## The actions one by one -/

variable {request : EmitRequest} {stamp : Stamp}

/-- An emission is refused at once, waits for its emitter, or enters. -/
theorem emit_cases (h : s.emit cfg request = some s') :
    (∃ exit, (exit = .failed ∨ exit = .channelClosed) ∧ s' = s.refuse request exit) ∨
    ((∀ stepId ∈ request.stepId, (s.emitters stepId).locked = false) ∧ s.state = .opened ∧
      s' = s.enqueueCall request) := by
  unfold Channel.emit at h
  split_ifs at h with hlocked hclosed hpost hstate
  · exact .inl ⟨.failed, .inl rfl, (Option.some.inj h).symm⟩
  · exact .inl ⟨.failed, .inl rfl, (Option.some.inj h).symm⟩
  · exact .inl ⟨.channelClosed, .inr rfl, (Option.some.inj h).symm⟩
  · refine .inr ⟨?_, not_not.mp hstate, (Option.some.inj h).symm⟩
    intro _ hstep
    rw [Option.mem_def.mp hstep] at hlocked
    simpa using hlocked

variable {index : ℕ}

theorem acquire_cases (h : s.acquire cfg index stamp = some s') :
    ∃ call, s.lock = none ∧ s.waiting[index]? = some call ∧
      s' = (s.dequeueCall index).enter cfg call stamp := by
  unfold Channel.acquire at h
  split at h
  · rename_i call hlock hcall
    exact ⟨call, hlock, hcall, (Option.some.inj h).symm⟩
  · cases h

theorem giveUp_cases (h : s.giveUp index = some s') :
    ∃ call, s.waiting[index]? = some call ∧ s' = (s.dequeueCall index).settle call .failed := by
  unfold Channel.giveUp at h
  split at h
  · rename_i call hcall
    exact ⟨call, hcall, (Option.some.inj h).symm⟩
  · cases h

/-- What the holder of the publish lock can do without raising. -/
inductive GoesOn (cfg : ChannelConfig) (s : Channel) (call : PublishCall) :
    PublisherAction → PublishStage → Channel → Prop where
  | watermarkRead (stamp : Stamp) : GoesOn cfg s call (.watermarkRead stamp) .readingWatermark
      ({ s with sequence := journalWatermark cfg s.log }.beginEvent cfg call stamp)
  | pass {stage stage' : PublishStage} (h : nextStage stage = some stage') :
      GoesOn cfg s call .pass stage (s.advance call stage')
  | journalCommit (event : RuntimeEvent) (now : DateTime.Utc) :
      GoesOn cfg s call (.journalCommit now) (.appending event) (s.commit call event now)
  | acknowledge (event : RuntimeEvent) (status : JournalAppendStatus) :
      GoesOn cfg s call .acknowledge (.committed event status) (s.acknowledge call event)
  | mutationReturns (event : RuntimeEvent) :
      GoesOn cfg s call .mutationReturns (.appending event) (s.acknowledge call event)
  | put (event : RuntimeEvent) :
      GoesOn cfg s call .put (.putting event) (s.putEvent cfg call event)

variable {action : PublisherAction} {stage : PublishStage}

/-- What one action does to the publisher that holds the lock. -/
theorem goOn_cases
    (h : s.goOn cfg call action stage = some s') : GoesOn cfg s call action stage s' := by
  unfold goOn at h
  split at h
  · cases h
    exact .watermarkRead _
  · obtain ⟨_, hnext, rfl⟩ := Option.map_eq_some_iff.mp h
    exact .pass hnext
  · cases h
    exact .journalCommit _ _
  · cases h
    exact .acknowledge _ _
  · split_ifs at h
    cases h
    exact .mutationReturns _
  · split_ifs at h
    cases h
    exact .put _
  · cases h

theorem publisherStep_cases (h : s.publisherStep cfg call action stage = some s') :
    (∃ exit, s.exitOf cfg call action stage = some exit ∧ s' = (s.strand stage).leave call exit) ∨
      GoesOn cfg s call action stage s' := by
  unfold publisherStep at h
  split at h
  · rename_i exit hexit
    exact .inl ⟨exit, hexit, (Option.some.inj h).symm⟩
  · exact .inr (goOn_cases h)

/-- The commit of an append that was interrupted: the log grows, and nothing else. -/
theorem lateCommit_cases {index : ℕ} {now : DateTime.Utc} (h : s.lateCommit index now = some s') :
    ∃ event log, s.adrift[index]? = some event ∧
      s.journalDecision event now = .ok (.appended, log) ∧
      s' = { s with log := log, adrift := s.adrift.eraseIdx index } := by
  unfold lateCommit at h
  split at h
  · cases h
  · rename_i event hadrift
    split at h
    · rename_i log hdecides
      exact ⟨event, log, hadrift, hdecides, (Option.some.inj h).symm⟩
    · cases h

theorem exitOf_ne_returned (h : s.exitOf cfg call action stage = some exit) : exit ≠ .returned := by
  rintro rfl
  unfold exitOf at h
  split at h
  case h_8 => split_ifs at h <;> simp at h
  all_goals simp at h

/-- What `capture_journal_watermark` does. -/
inductive Captures (cfg : ChannelConfig) (s : Channel) : CaptureAction → Channel → Prop where
  | start (h : s.lock = none) : Captures cfg s .start
      { s with watermarkLoaded := true, lock := some (.capture (!s.watermarkLoaded)) }
  | loaded (h : s.lock = some (.capture true)) : Captures cfg s .loaded
      { s with sequence := journalWatermark cfg s.log, lock := some (.capture false) }
  | finish (h : s.lock = some (.capture false)) : Captures cfg s .finish { s with lock := none }
  | interrupt {loading : Bool} (h : s.lock = some (.capture loading)) :
      Captures cfg s .interrupt { s with lock := none }

/-- What one action does to `capture_journal_watermark`. -/
theorem captureStep_cases {action : CaptureAction} (h : s.captureStep cfg action = some s') :
    Captures cfg s action s' := by
  cases action with
  | start =>
    simp only [captureStep] at h
    split at h
    · cases h
    · rename_i hlock
      cases h
      exact .start hlock
  | loaded =>
    simp only [captureStep] at h
    split at h
    · rename_i hlock
      cases h
      exact .loaded hlock
    · cases h
  | finish =>
    simp only [captureStep] at h
    split at h
    · rename_i hlock
      cases h
      exact .finish hlock
    · cases h
  | interrupt =>
    simp only [captureStep] at h
    split at h
    · rename_i hlock
      cases h
      exact .interrupt hlock
    · cases h

/-- What `close`, `abort` and the cancellation of the run do. -/
inductive Closes (cfg : ChannelConfig) (s : Channel) : LifecycleAction → Channel → Prop where
  | cancelRun : Closes cfg s .cancelRun { s with tokenCancelled := true }
  /-- `abort` and `close` on a final state -/
  | unchanged {action : LifecycleAction} : Closes cfg s action s
  | abort (closed : s.state ≠ .closed) (aborted : s.state ≠ .aborted) : Closes cfg s .abort
      { s with state := .aborted, queue := [.endOfStream], endEnqueued := true, owner := .aborted }
  | close (closed : s.state ≠ .closed) (aborted : s.state ≠ .aborted) :
      Closes cfg s .close { s with state := .closing, closeWaiting := true }
  /-- `close` is cancelled or finds the channel aborted before it has the publish lock -/
  | closeEnds {action : LifecycleAction} (waits : s.closeWaiting = true) :
      Closes cfg s action { s with closeWaiting := false }
  | closeAcquire (waits : s.closeWaiting = true) (lock : s.lock = none) :
      Closes cfg s .closeAcquire { s with closeWaiting := false, lock := some (.closer false) }
  | endPut (lock : s.lock = some (.closer false)) : Closes cfg s .endPut
      { s with queue := s.queue ++ [.endOfStream], lock := some (.closer true) }
  | closed (lock : s.lock = some (.closer true)) (aborted : s.state ≠ .aborted) :
      Closes cfg s .closeFinish { s with endEnqueued := true, state := .closed, lock := none }
  /-- the same while it has the publish lock -/
  | closerLeaves {action : LifecycleAction} {endPut : Bool}
      (lock : s.lock = some (.closer endPut)) : Closes cfg s action { s with lock := none }

/-- What one action does to `close` and `abort`. -/
theorem lifecycleStep_cases {action : LifecycleAction}
    (h : s.lifecycleStep cfg action = some s') : Closes cfg s action s' := by
  cases action with
  | cancelRun =>
    cases h
    exact .cancelRun
  | abort =>
    simp only [lifecycleStep] at h
    split_ifs at h with hdone
    · cases h
      exact .unchanged
    · cases h
      exact .abort (not_or.mp hdone).1 (not_or.mp hdone).2
  | close =>
    simp only [lifecycleStep] at h
    split_ifs at h with hbusy hdone
    · cases h
      exact .unchanged
    · cases h
      exact .close (not_or.mp hdone).1 (not_or.mp hdone).2
  | closeAcquire =>
    simp only [lifecycleStep] at h
    split_ifs at h with hwait haborted
    · cases h
      exact .closeEnds hwait.1
    · cases h
      exact .closeAcquire hwait.1 (Option.isNone_iff_eq_none.mp hwait.2)
  | endPut =>
    simp only [lifecycleStep] at h
    split at h
    · rename_i hlock
      split_ifs at h
      cases h
      exact .endPut hlock
    · cases h
  | closeFinish =>
    simp only [lifecycleStep] at h
    split at h
    · rename_i endPut hlock
      split_ifs at h with haborted hput
      · cases h
        exact .closerLeaves hlock
      · cases h
        subst hput
        exact .closed hlock haborted
    · cases h
  | closeInterrupt =>
    simp only [lifecycleStep] at h
    split at h
    · rename_i hwait
      cases h
      exact .closeEnds hwait
    · split at h
      · rename_i hlock
        cases h
        exact .closerLeaves hlock
      · cases h

/-- Neither a publisher nor a capture holds the publish lock. -/
def Idle (s : Channel) : Prop := ∀ holder, s.lock = some holder → ∃ endPut, holder = .closer endPut

theorem idle_of_unlocked (h : s.lock = none) : s.Idle := by
  intro _ hholder
  rw [h] at hholder
  cases hholder

theorem idle_of_closer {endPut : Bool} (h : s.lock = some (.closer endPut)) : s.Idle := by
  intro _ hholder
  exact ⟨endPut, Option.mem_unique hholder h⟩

theorem Idle.not_publishing (h : s.Idle) : s.lock ≠ some (.publisher call stage) := by
  intro hlock
  obtain ⟨_, heq⟩ := h _ hlock
  cases heq

theorem Idle.not_capturing (h : s.Idle) {loading : Bool} : s.lock ≠ some (.capture loading) := by
  intro hlock
  obtain ⟨_, heq⟩ := h _ hlock
  cases heq

/-- Closing, aborting and reading do not publish. -/
structure SameWriting (s t : Channel) : Prop where
  sequence : t.sequence = s.sequence
  watermarkLoaded : t.watermarkLoaded = s.watermarkLoaded
  log : t.log = s.log
  waiting : t.waiting = s.waiting
  emitters : t.emitters = s.emitters
  published : t.published = s.published
  exits : t.exits = s.exits
  lock : t.lock = s.lock ∨ s.Idle ∧ t.Idle

theorem lifecycleStep_same {action : LifecycleAction}
    (h : s.lifecycleStep cfg action = some s') : SameWriting s s' := by
  cases lifecycleStep_cases h with
  | cancelRun | unchanged | abort | close | closeEnds =>
    exact ⟨rfl, rfl, rfl, rfl, rfl, rfl, rfl, .inl rfl⟩
  | closeAcquire _ hlock =>
    exact ⟨rfl, rfl, rfl, rfl, rfl, rfl, rfl, .inr ⟨idle_of_unlocked hlock, idle_of_closer rfl⟩⟩
  | endPut hlock =>
    exact ⟨rfl, rfl, rfl, rfl, rfl, rfl, rfl, .inr ⟨idle_of_closer hlock, idle_of_closer rfl⟩⟩
  | closed hlock | closerLeaves hlock =>
    exact ⟨rfl, rfl, rfl, rfl, rfl, rfl, rfl, .inr ⟨idle_of_closer hlock, idle_of_unlocked rfl⟩⟩

/-! ## Their effect on the stream -/

theorem emit_stream (h : s.emit cfg request = some s') : StreamStep s s' := by
  rcases emit_cases h with ⟨exit, hexit, rfl⟩ | ⟨-, -, rfl⟩
  · have hne : exit ≠ .returned := by
      rcases hexit with rfl | rfl <;> exact nofun
    exact .quiet rfl rfl rfl rfl (fun _ => mem_concat_of_ne hne) (fun _ => .inl) id id
  · exact .idle ⟨rfl, rfl, rfl, rfl, rfl, rfl⟩ rfl

theorem acquire_stream (h : s.acquire cfg index stamp = some s') : StreamStep s s' := by
  obtain ⟨call, -, -, rfl⟩ := acquire_cases h
  have hsame : SameStream s (s.dequeueCall index) := ⟨rfl, rfl, rfl, rfl, rfl, rfl⟩
  unfold enter
  split_ifs with hstate
  · exact .leave hsame call nofun
  · exact .beginEvent hsame (.inr (not_not.mp hstate)) stamp
  · have hopen : s.state = .opened := not_not.mp hstate
    exact .advance (by constructor <;> rfl) (.inr hopen) _

theorem giveUp_stream (h : s.giveUp index = some s') : StreamStep s s' := by
  obtain ⟨_, -, rfl⟩ := giveUp_cases h
  exact .quiet rfl rfl rfl rfl (fun _ => mem_concat_of_ne nofun) (fun _ => .inl) id id

theorem putEvent_stream {event : RuntimeEvent} (hlock : s.Publishing call) :
    StreamStep s (s.putEvent cfg call event) := by
  have hsame : SameStream s s := ⟨rfl, rfl, rfl, rfl, rfl, rfl⟩
  unfold putEvent
  split
  · exact .leave hsame call nofun
  rename_i haborted
  split
  · exact .leave hsame call nofun
  · refine .put call event hlock haborted rfl rfl rfl rfl rfl rfl fun hbusy => ?_
    rw [closeBusy_of_no_closer (by exact fun _ => nofun)] at hbusy
    exact closeWaiting_le_closeBusy hbusy

theorem publisherStep_stream (hlock : s.lock = some (.publisher call stage))
    (h : s.publisherStep cfg call action stage = some s') : StreamStep s s' := by
  have hsame : SameStream s s := ⟨rfl, rfl, rfl, rfl, rfl, rfl⟩
  have hpub : s.Publishing call := ⟨stage, hlock⟩
  rcases publisherStep_cases h with ⟨_, hexit, rfl⟩ | hgo
  · exact .leave (by constructor <;> rfl) call (exitOf_ne_returned hexit)
  cases hgo with
  | watermarkRead stamp => exact .beginEvent (by constructor <;> rfl) (.inl hpub) stamp
  | pass => exact .advance hsame (.inl hpub) _
  | journalCommit =>
    unfold commit
    split
    · exact .leave hsame call nofun
    · exact .advance (by constructor <;> rfl) (.inl hpub) _
  | acknowledge | mutationReturns => exact .advance (by constructor <;> rfl) (.inl hpub) _
  | put => exact putEvent_stream hpub

theorem captureStep_stream {action : CaptureAction} (h : s.captureStep cfg action = some s') :
    StreamStep s s' := by
  -- whoever holds the lock afterwards, it is neither a publisher nor `close`
  have hquiet : ∀ {t : Channel}, SameStream s t →
      (∀ call stage, t.lock ≠ some (.publisher call stage)) →
      (∀ endPut, t.lock ≠ some (.closer endPut)) → StreamStep s t := by
    intro t hsame hpub hcloser
    refine .quiet hsame.state hsame.queue hsame.received hsame.published
      (fun _ hmem => hsame.exits ▸ hmem) ?_ ?_ (fun h => absurd h (hcloser true))
    · rintro call ⟨stage, hlock⟩
      exact absurd hlock (hpub call stage)
    · intro hbusy
      rw [closeBusy_of_no_closer hcloser, hsame.closeWaiting] at hbusy
      exact closeWaiting_le_closeBusy hbusy
  cases captureStep_cases h with
  | start | loaded | finish | interrupt =>
    exact hquiet (by constructor <;> rfl) (fun _ _ => nofun) (fun _ => nofun)

theorem lifecycleStep_stream {action : LifecycleAction}
    (h : s.lifecycleStep cfg action = some s') : StreamStep s s' := by
  cases lifecycleStep_cases h with
  | cancelRun | unchanged => exact .idle (by constructor <;> rfl) rfl
  | abort hclosed haborted => exact .abort ⟨hclosed, haborted⟩ rfl rfl rfl rfl rfl rfl
  | close hclosed haborted =>
    exact .turn haborted (fun heq => absurd heq hclosed) (.inl rfl) rfl rfl rfl rfl (fun _ => id)
      fun h => h.resolve_left nofun
  | closeEnds hwait =>
    exact .quiet rfl rfl rfl rfl (fun _ => id) (fun _ => .inl)
      (fun _ => closeWaiting_le_closeBusy hwait) id
  | closeAcquire hwait =>
    refine .quiet rfl rfl rfl rfl (fun _ => id) ?_ (fun _ => closeWaiting_le_closeBusy hwait)
      fun h => nomatch h
    rintro call ⟨stage, hlock⟩
    cases hlock
  | endPut hlock => exact .endPut hlock rfl rfl rfl rfl rfl rfl
  | closed hlock haborted =>
    refine .turn haborted (fun _ => rfl) (.inr rfl) rfl rfl rfl rfl ?_ fun _ => hlock
    rintro call ⟨stage, hlock⟩
    cases hlock
  | closerLeaves hlock =>
    refine .quiet rfl rfl rfl rfl (fun _ => id) ?_ (fun _ => by simp [closeBusy, hlock])
      fun h => nomatch h
    rintro _ ⟨_, hlock⟩
    cases hlock

/-- Readers touch nothing of the publishing side. -/
structure SamePublishing (s t : Channel) : Prop where
  state : t.state = s.state
  sequence : t.sequence = s.sequence
  watermarkLoaded : t.watermarkLoaded = s.watermarkLoaded
  log : t.log = s.log
  lock : t.lock = s.lock
  waiting : t.waiting = s.waiting
  closeWaiting : t.closeWaiting = s.closeWaiting
  emitters : t.emitters = s.emitters
  published : t.published = s.published
  exits : t.exits = s.exits

theorem SamePublishing.ofQueue {t : Channel} {queue : List QueueItem}
    (h : SamePublishing { s with queue := queue } t) : SamePublishing s t :=
  ⟨h.state, h.sequence, h.watermarkLoaded, h.log, h.lock, h.waiting, h.closeWaiting, h.emitters,
    h.published, h.exits⟩

inductive Reads (s t : Channel) : Prop where
  | nothing (queue : t.queue = s.queue) (received : t.received = s.received)
  | head (id : ℕ) (item : QueueItem) (queue : s.queue = item :: t.queue)
      (received : t.received = s.received ++ [⟨id, item⟩] ∨
        s.state = .aborted ∧ item ≠ .endOfStream)

theorem release_same (id reads : ℕ) (active completed : Bool) :
    SamePublishing s (s.release id reads active completed) ∧
      (s.release id reads active completed).queue = s.queue ∧
      (s.release id reads active completed).received = s.received := by
  cases active with
  | true | false => exact ⟨by constructor <;> rfl, rfl, rfl⟩

theorem deliver_same (id reads : ℕ) (active : Bool) (item : QueueItem) :
    SamePublishing s (s.deliver id reads active item) ∧
      (s.deliver id reads active item).queue = s.queue ∧
      ((s.deliver id reads active item).received = s.received ++ [⟨id, item⟩] ∨
        s.state = .aborted ∧ item ≠ .endOfStream) := by
  cases item with
  | endOfStream =>
    obtain ⟨hsame, hqueue, -⟩ := release_same (s := s) id reads active (decide (s.state ≠ .aborted))
    exact ⟨⟨hsame.state, hsame.sequence, hsame.watermarkLoaded, hsame.log, hsame.lock,
      hsame.waiting, hsame.closeWaiting, hsame.emitters, hsame.published, hsame.exits⟩, hqueue,
      .inl rfl⟩
  | event =>
    unfold deliver
    split_ifs with haborted
    · obtain ⟨hsame, hqueue, -⟩ := release_same (s := s) id reads active false
      exact ⟨hsame, hqueue, .inr ⟨haborted, nofun⟩⟩
    · exact ⟨by constructor <;> rfl, rfl, .inl rfl⟩

theorem discard_same (id : ℕ) (item : QueueItem) :
    SamePublishing s (s.discard id item) ∧ (s.discard id item).queue = s.queue ∧
      (s.discard id item).received = s.received ++ [⟨id, item⟩] := by
  unfold discard
  split_ifs
  all_goals exact ⟨by constructor <;> rfl, rfl, rfl⟩

/-- A consumer touches nothing of the publishing side, and reads the front of the queue. -/
theorem consumerStep_same {id : ℕ} {action : ConsumerAction} {consumer : Consumer}
    (h : s.consumerStep id action consumer = some s') : SamePublishing s s' ∧ Reads s s' := by
  have hlocal : ∀ {t : Channel}, SamePublishing s t → t.queue = s.queue → t.received = s.received →
      SamePublishing s t ∧ Reads s t := fun hsame hqueue hreceived =>
    ⟨hsame, .nothing hqueue hreceived⟩
  unfold consumerStep at h
  split at h
  case h_1 =>
    cases h
    unfold attach
    split_ifs
    all_goals exact hlocal (by constructor <;> rfl) rfl rfl
  case h_2 =>
    cases h
    unfold drain
    split_ifs
    all_goals exact hlocal (by constructor <;> rfl) rfl rfl
  case h_3 =>
    cases h
    unfold handoff
    split_ifs
    all_goals exact hlocal (by constructor <;> rfl) rfl rfl
  case h_7 active reads =>
    cases h
    obtain ⟨hsame, hqueue, hreceived⟩ := release_same (s := s) id (reads - 1) active false
    exact hlocal hsame hqueue hreceived
  case h_9 active reads =>
    split at h
    · cases h
    · rename_i item rest hq
      cases h
      obtain ⟨hsame, hqueue, hreceived⟩ :=
        deliver_same (s := { s with queue := rest }) id reads active item
      exact ⟨hsame.ofQueue, .head id item (hqueue ▸ hq) hreceived⟩
  case h_10 =>
    split at h
    · cases h
    · rename_i item rest hq
      cases h
      obtain ⟨hsame, hqueue, hreceived⟩ := discard_same (s := { s with queue := rest }) id item
      exact ⟨hsame.ofQueue, .head id item (hqueue ▸ hq) (.inl hreceived)⟩
  case h_11 active reads =>
    cases h
    obtain ⟨hsame, hqueue, hreceived⟩ := release_same (s := s) id reads active false
    exact hlocal hsame hqueue hreceived
  case h_12 => exact nomatch h
  all_goals
    cases h
    exact hlocal (by constructor <;> rfl) rfl rfl

/-- Every step publishes one more event, ends the stream or leaves it. -/
theorem step_stream {action : Action} (h : s.step cfg action = some s') : StreamStep s s' := by
  cases action with
  | emit => exact emit_stream h
  | acquire => exact acquire_stream h
  | giveUp => exact giveUp_stream h
  | publisher =>
    simp only [step] at h
    split at h
    · rename_i call stage hlock
      exact publisherStep_stream hlock h
    · cases h
  | capture => exact captureStep_stream h
  | lifecycle => exact lifecycleStep_stream h
  | consumer id =>
    obtain ⟨hsame, hreads⟩ := consumerStep_same h
    have hbusy : s'.closeBusy = s.closeBusy := by
      unfold closeBusy
      rw [hsame.lock, hsame.closeWaiting]
    cases hreads with
    | nothing hqueue hreceived =>
      exact .idle ⟨hsame.state, hqueue, hreceived, hsame.published, hsame.exits,
        hsame.closeWaiting⟩ hsame.lock
    | head id item hqueue hreceived =>
      exact .pop id item hsame.state hqueue hreceived hsame.published hsame.exits hsame.lock hbusy
  | lateCommit =>
    obtain ⟨_, _, -, -, rfl⟩ := lateCommit_cases h
    exact .idle (by constructor <;> rfl) rfl
  | foreignAppend =>
    simp only [step] at h
    split_ifs at h
    cases h
    exact .idle (by constructor <;> rfl) rfl

/-! ## All actions, seen from the writing side -/

/-- What a step does to the counters, the journal, the publish lock and the emitters. -/
inductive Writes (cfg : ChannelConfig) (s : Channel) : Action → Channel → Prop where
  | refuse {request : EmitRequest} {exit : Exit} (exits : exit = .failed ∨ exit = .channelClosed) :
      Writes cfg s (.emit request) (s.refuse request exit)
  | enqueueCall {request : EmitRequest}
      (unlocked : ∀ stepId ∈ request.stepId, (s.emitters stepId).locked = false) :
      Writes cfg s (.emit request) (s.enqueueCall request)
  | enter {index : ℕ} {stamp : Stamp} {call : PublishCall} (lock : s.lock = none)
      (waits : s.waiting[index]? = some call) :
      Writes cfg s (.acquire index stamp) ((s.dequeueCall index).enter cfg call stamp)
  | giveUp {index : ℕ} {call : PublishCall} (waits : s.waiting[index]? = some call) :
      Writes cfg s (.giveUp index) ((s.dequeueCall index).settle call .failed)
  | exit {action : PublisherAction} {call : PublishCall} {stage : PublishStage} {exit : Exit}
      (lock : s.lock = some (.publisher call stage))
      (exits : s.exitOf cfg call action stage = some exit) :
      Writes cfg s (.publisher action) ((s.strand stage).leave call exit)
  | goOn {action : PublisherAction} {call : PublishCall} {stage : PublishStage} {s' : Channel}
      (lock : s.lock = some (.publisher call stage)) (goes : GoesOn cfg s call action stage s') :
      Writes cfg s (.publisher action) s'
  | capture {action : CaptureAction} {s' : Channel} (captures : Captures cfg s action s') :
      Writes cfg s (.capture action) s'
  | lifecycle {action : LifecycleAction} {s' : Channel} (same : SameWriting s s') :
      Writes cfg s (.lifecycle action) s'
  | consumer {id : ℕ} {action : ConsumerAction} {s' : Channel} (same : SameWriting s s') :
      Writes cfg s (.consumer id action) s'
  | lateCommit {index : ℕ} {now : DateTime.Utc} {event : RuntimeEvent} {log : List JournalRecord}
      (adrift : s.adrift[index]? = some event)
      (decides : s.journalDecision event now = .ok (.appended, log)) :
      Writes cfg s (.lateCommit index now) { s with log := log, adrift := s.adrift.eraseIdx index }
  | foreignAppend {record : JournalRecord} (foreign : record.runId ≠ cfg.runId)
      (intact : record.verify = .ok ()) (accepted : JournalLog.append s.log record = .ok .appended) :
      Writes cfg s (.foreignAppend record) { s with log := s.log ++ [record] }

/-- What a step writes to the journal. -/
theorem step_writes {action : Action} (h : s.step cfg action = some s') :
    Writes cfg s action s' := by
  cases action with
  | emit =>
    rcases emit_cases h with ⟨exit, hexit, rfl⟩ | ⟨hunlocked, -, rfl⟩
    · exact .refuse hexit
    · exact .enqueueCall hunlocked
  | acquire =>
    obtain ⟨call, hlock, hcall, rfl⟩ := acquire_cases h
    exact .enter hlock hcall
  | giveUp =>
    obtain ⟨call, hcall, rfl⟩ := giveUp_cases h
    exact .giveUp hcall
  | publisher =>
    simp only [step] at h
    split at h
    · rename_i call stage hlock
      rcases publisherStep_cases h with ⟨_, hexit, rfl⟩ | hgo
      · exact .exit hlock hexit
      · exact .goOn hlock hgo
    · cases h
  | capture => exact .capture (captureStep_cases h)
  | lifecycle => exact .lifecycle (lifecycleStep_same h)
  | consumer =>
    obtain ⟨hsame, -⟩ := consumerStep_same h
    exact .consumer ⟨hsame.sequence, hsame.watermarkLoaded, hsame.log, hsame.waiting,
      hsame.emitters, hsame.published, hsame.exits, .inl hsame.lock⟩
  | lateCommit =>
    obtain ⟨event, log, hadrift, hdecides, rfl⟩ := lateCommit_cases h
    exact .lateCommit hadrift hdecides
  | foreignAppend =>
    simp only [step] at h
    split_ifs at h with hguard
    cases h
    exact .foreignAppend hguard.1 hguard.2.1 hguard.2.2

end Channel

end LocalAgent.Runtime
