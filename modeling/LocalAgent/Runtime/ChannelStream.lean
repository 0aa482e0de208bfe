import LocalAgent.Runtime.ChannelSteps
import Mathlib.Data.List.Infix

/-!
# LocalAgent.Runtime.ChannelStream — what the readers of a channel see

* `Stream`: what was taken off the queue followed by what is still in it is the published events
  in order, then end markers.
* `Order`: the published sequences go up.
* `Ownership`: at most one reader owns the queue.
* `stream_sound`: the three over every run, with the rules of closing.
-/

namespace LocalAgent.Runtime

namespace Channel

variable {cfg : ChannelConfig} {s s' : Channel}

/-! ## The stream of events -/

def QueueItem.event? : QueueItem → Option RuntimeEvent
  | .event event => some event
  | .endOfStream => none

def entries (events : List RuntimeEvent) (ends : ℕ) : List QueueItem :=
  events.map .event ++ List.replicate ends .endOfStream

theorem entries_concat_event (events : List RuntimeEvent) (event : RuntimeEvent) :
    entries events 0 ++ [.event event] = entries (events ++ [event]) 0 := by
  simp [entries]

theorem entries_concat_end (events : List RuntimeEvent) (ends : ℕ) :
    entries events ends ++ [.endOfStream] = entries events (ends + 1) := by
  simp [entries, List.replicate_succ']

theorem filterMap_entries (events : List RuntimeEvent) (ends : ℕ) :
    (entries events ends).filterMap QueueItem.event? = events := by
  have hevents : (events.map QueueItem.event).filterMap QueueItem.event? = events := by
    rw [List.filterMap_map]
    exact List.filterMap_some
  have hends : (List.replicate ends QueueItem.endOfStream).filterMap QueueItem.event? = [] := by
    rw [List.filterMap_eq_nil_iff]
    intro _ hitem
    rw [List.eq_of_mem_replicate hitem]
    rfl
  rw [entries, List.filterMap_append, hevents, hends, List.append_nil]

variable {events : List RuntimeEvent} {ends : ℕ} {action : Action}

theorem entries_split {before after : List QueueItem} (h : before ++ after = entries events ends) :
    ∃ events' ends', before = entries events' ends' ∧ events' <+: events := by
  rcases List.append_eq_append_iff.mp h with ⟨rest, hmap, -⟩ | ⟨rest, hbefore, hrest⟩
  · obtain ⟨events', _, rfl, rfl, -⟩ := List.map_eq_append_iff.mp hmap
    exact ⟨events', 0, by simp [entries], List.prefix_append _ _⟩
  · refine ⟨events, rest.length, ?_, List.prefix_refl _⟩
    rw [hbefore, entries]
    congr 1
    refine List.eq_replicate_of_mem fun item hitem => ?_
    have hmem : item ∈ rest ++ after := List.mem_append_left _ hitem
    rw [← hrest] at hmem
    exact List.eq_of_mem_replicate hmem

theorem entries_after_end {before after : List QueueItem}
    (h : before ++ .endOfStream :: after = entries events ends) :
    before.filterMap QueueItem.event? = events ∧ after.filterMap QueueItem.event? = [] := by
  have hall : ∀ item ∈ after, item = .endOfStream := by
    have hpair : (entries events ends).Pairwise
        fun a b => a = .endOfStream → b = .endOfStream := by
      rw [entries, List.pairwise_append]
      refine ⟨?_, ?_, ?_⟩
      · rw [List.pairwise_map]
        exact List.pairwise_of_forall fun _ _ h => nomatch h
      · exact List.pairwise_replicate.mpr (.inr fun _ => rfl)
      · intro a ha b _ hend
        obtain ⟨_, -, rfl⟩ := List.mem_map.mp ha
        cases hend
    rw [← h, List.pairwise_append] at hpair
    intro item hitem
    exact (List.pairwise_cons.mp hpair.2.1).1 item hitem rfl
  have hafter : after.filterMap QueueItem.event? = [] := by
    rw [List.filterMap_eq_nil_iff]
    intro item hitem
    rw [hall item hitem]
    rfl
  refine ⟨?_, hafter⟩
  have hevents := filterMap_entries events ends
  rw [← h, List.filterMap_append, List.filterMap_cons, hafter] at hevents
  simpa [QueueItem.event?] using hevents

def taken (s : Channel) : List QueueItem := s.received.map Receipt.item

/-- What was taken followed by what is queued is a beginning of the published events, all of them
unless the channel was aborted, and then end markers, which no publisher outlives and without which
no channel is closed. -/
structure Stream (s : Channel) : Prop where
  closer : s.closeBusy = true → s.state ≠ .opened
  aborted : s.state = .aborted → ∀ item ∈ s.queue, item = .endOfStream
  flow : ∃ events ends, s.taken ++ s.queue = entries events ends ∧ events <+: s.published ∧
    (s.state ≠ .aborted → events = s.published ∧
      (0 < ends → s.state ≠ .opened ∧ ∀ call, ¬ s.Publishing call) ∧
      (s.state = .closed ∨ s.lock = some (.closer true) → 0 < ends))

theorem stream_new (cfg : ChannelConfig) (log : List JournalRecord) : Stream (new cfg log) where
  closer := nofun
  aborted := nofun
  flow := ⟨[], 0, rfl, List.prefix_refl _, fun _ =>
    ⟨rfl, fun h => absurd h (lt_irrefl _), fun h => by rcases h with h | h <;> exact nomatch h⟩⟩

theorem taken_of_received (h : s'.received = s.received) : s'.taken = s.taken := by
  rw [taken, h, taken]

theorem Stream.step (hs : Stream s) (h : StreamStep s s') : Stream s' := by
  obtain ⟨events, ends, hflow, hbegin, halive⟩ := hs.flow
  cases h with
  | quiet state queue received published _ lock closer marked =>
    refine ⟨fun hbusy => state ▸ hs.closer (closer hbusy), ?_, events, ends, ?_, ?_, ?_⟩
    · rw [state, queue]
      exact hs.aborted
    · rw [taken_of_received received, queue, hflow]
    · rwa [published]
    · rw [state, published]
      intro hstate
      obtain ⟨hevents, hends, hmarked⟩ := halive hstate
      refine ⟨hevents, fun h => ?_, fun h => hmarked (h.imp_right marked)⟩
      obtain ⟨hopen, hfree⟩ := hends h
      exact ⟨hopen, fun call hcall => (lock call hcall).elim (hfree call) hopen⟩
  | put call event holder alive state queue received published _ lock closer =>
    obtain ⟨rfl, hfree, hmarked⟩ := halive alive
    -- a publisher is at work, so no end marker is in the queue
    obtain rfl : ends = 0 := by
      by_contra hne
      exact (hfree (Nat.pos_of_ne_zero hne)).2 call holder
    refine ⟨fun hbusy => state ▸ hs.closer (closer hbusy), ?_, s.published ++ [event], 0, ?_, ?_, ?_⟩
    · rw [state]
      exact fun haborted => absurd haborted alive
    · rw [taken_of_received received, queue, ← List.append_assoc, hflow, entries_concat_event]
    · rw [published]
    · rw [published, state, lock]
      refine fun _ => ⟨rfl, fun h => absurd h (lt_irrefl _), fun h => hmarked (.inl ?_)⟩
      exact h.resolve_right (by simp)
  | pop id item state queue received published _ lock closer =>
    have hreceived : s'.received = s.received ++ [⟨id, item⟩] := by
      refine received.resolve_right fun haborted => haborted.2 ?_
      exact hs.aborted haborted.1 item (queue ▸ List.mem_cons_self)
    refine ⟨?_, ?_, events, ends, ?_, ?_, ?_⟩
    · rw [closer, state]
      exact hs.closer
    · rw [state]
      exact fun haborted i hi => hs.aborted haborted i (queue ▸ List.mem_cons_of_mem _ hi)
    · rw [taken, hreceived, List.map_append, List.append_assoc, ← hflow, taken, queue]
      rfl
    · rwa [published]
    · rw [state, published]
      intro hstate
      obtain ⟨hevents, hends, hmarked⟩ := halive hstate
      refine ⟨hevents, fun h => ?_, fun h => hmarked (lock ▸ h)⟩
      obtain ⟨hopen, hfree⟩ := hends h
      refine ⟨hopen, ?_⟩
      rintro call ⟨stage, hlock⟩
      exact hfree call ⟨stage, lock ▸ hlock⟩
  | endPut lock state queue received published _ lock' =>
    have hbusy : s.closeBusy = true := by simp [closeBusy, lock]
    refine ⟨fun _ => state ▸ hs.closer hbusy, ?_, events, ends + 1, ?_, ?_, ?_⟩
    · rw [state, queue]
      intro haborted item hitem
      rcases mem_snoc hitem with hitem | hitem
      · exact hs.aborted haborted item hitem
      · exact hitem
    · rw [taken_of_received received, queue, ← List.append_assoc, hflow, entries_concat_end]
    · rwa [published]
    · rw [state, published]
      refine fun hstate => ⟨(halive hstate).1, fun _ => ⟨hs.closer hbusy, ?_⟩, fun _ => by omega⟩
      rintro call ⟨_, hlock⟩
      rw [lock'] at hlock
      cases hlock
  | turn alive _ state queue received published _ lock marked =>
    obtain ⟨hevents, hfree, hmarked⟩ := halive alive
    have hopen : s'.state ≠ .opened ∧ s'.state ≠ .aborted := by
      rcases state with h | h <;> rw [h] <;> exact ⟨(by simp), (by simp)⟩
    refine ⟨fun _ => hopen.1, fun h => absurd h hopen.2, events, ends, ?_, ?_, ?_⟩
    · rw [taken_of_received received, queue, hflow]
    · rwa [published]
    · rw [published]
      refine fun _ => ⟨hevents, fun hends => ⟨hopen.1, fun call hcall => ?_⟩,
        fun h => hmarked (.inr (marked h))⟩
      exact (hfree hends).2 call (lock call hcall)
  | abort _ state queue received published =>
    -- the queue is emptied: what was taken stays a beginning of the published events
    obtain ⟨events', ends', htaken, hprefix⟩ := entries_split hflow
    refine ⟨fun _ => by rw [state]; simp, ?_, events', ends' + 1, ?_, ?_, ?_⟩
    · rw [queue]
      exact fun _ item hitem => List.mem_singleton.mp hitem
    · rw [taken_of_received received, queue, htaken, entries_concat_end]
    · rw [published]
      exact hprefix.trans hbegin
    · exact fun h => absurd state h

/-! ## The order of the published events -/

def stageEvent : PublishStage → Option RuntimeEvent
  | .readingWatermark => none
  | .beforeAppend event => some event
  | .appending event => some event
  | .committed event _ => some event
  | .afterAppend event => some event
  | .observing event => some event
  | .feeding event => some event
  | .beforeEnqueue event => some event
  | .putting event => some event

/-- The stages after `self._sequence = sequence`. -/
def acknowledged : PublishStage → Bool
  | .afterAppend _ => true
  | .observing _ => true
  | .feeding _ => true
  | .beforeEnqueue _ => true
  | .putting _ => true
  | _ => false

/-- The published sequences go up to the counter, and the event in hand comes after them. -/
structure Order (cfg : ChannelConfig) (s : Channel) : Prop where
  increasing : s.published.Pairwise fun a b => a.sequence < b.sequence
  bound : ∀ e ∈ s.published, e.sequence ≤ s.sequence
  unloaded : s.watermarkLoaded = false →
    s.published = [] ∧ ∀ call stage, s.lock ≠ some (.publisher call stage)
  loading : (∃ call, s.lock = some (.publisher call .readingWatermark)) ∨
    s.lock = some (.capture true) → s.published = []
  inHand : ∀ call stage event, s.lock = some (.publisher call stage) →
    stageEvent stage = some event → (∀ e ∈ s.published, e.sequence < event.sequence) ∧
      (cfg.hasJournal = true → acknowledged stage = true → event.sequence = s.sequence)

theorem order_new (cfg : ChannelConfig) (log : List JournalRecord) : Order cfg (new cfg log) where
  increasing := .nil
  bound := fun _ he => absurd he List.not_mem_nil
  unloaded := fun _ => ⟨rfl, fun _ _ hlock => nomatch hlock⟩
  loading := fun _ => rfl
  inHand := fun _ _ _ hlock => nomatch hlock

variable {call : PublishCall} {stage : PublishStage}

namespace Order

theorem idle (hs : Order cfg s) (hsequence : s'.sequence = s.sequence)
    (hloaded : s'.watermarkLoaded = s.watermarkLoaded) (hpublished : s'.published = s.published)
    (hidle : s'.Idle) : Order cfg s' where
  increasing := hpublished ▸ hs.increasing
  bound := by
    rw [hpublished, hsequence]
    exact hs.bound
  unloaded := by
    rw [hpublished, hloaded]
    exact fun h => ⟨(hs.unloaded h).1, fun _ _ => hidle.not_publishing⟩
  loading := by
    rintro (⟨_, hlock⟩ | hlock)
    · exact absurd hlock hidle.not_publishing
    · exact absurd hlock hidle.not_capturing
  inHand := fun _ _ _ hlock => absurd hlock hidle.not_publishing

theorem same (hs : Order cfg s) (hsequence : s'.sequence = s.sequence)
    (hloaded : s'.watermarkLoaded = s.watermarkLoaded) (hpublished : s'.published = s.published)
    (hlock : s'.lock = s.lock) : Order cfg s' where
  increasing := hpublished ▸ hs.increasing
  bound := by
    rw [hpublished, hsequence]
    exact hs.bound
  unloaded := by
    rw [hpublished, hloaded, hlock]
    exact hs.unloaded
  loading := by
    rw [hpublished, hlock]
    exact hs.loading
  inHand := by
    rw [hpublished, hlock, hsequence]
    exact hs.inHand

theorem sameWriting (hs : Order cfg s) (hsame : SameWriting s s') : Order cfg s' := by
  rcases hsame.lock with hlock | ⟨-, hidle⟩
  · exact hs.same hsame.sequence hsame.watermarkLoaded hsame.published hlock
  · exact hs.idle hsame.sequence hsame.watermarkLoaded hsame.published hidle

theorem hold (hs : Order cfg s) (hloaded : s'.watermarkLoaded = true)
    (hpublished : s'.published = s.published) (hbound : ∀ e ∈ s.published, e.sequence ≤ s'.sequence)
(hlock : s'.lock = some (.publisher call stage))
    (hloading : stage = .readingWatermark → s.published = [])
    (hevent : ∀ event, stageEvent stage = some event →
      (∀ e ∈ s.published, e.sequence < event.sequence) ∧
        (cfg.hasJournal = true → acknowledged stage = true → event.sequence = s'.sequence)) :
    Order cfg s' where
  increasing := hpublished ▸ hs.increasing
  bound := by
    rwa [hpublished]
  unloaded := fun h => absurd (hloaded.symm.trans h) nofun
  loading := by
    rw [hpublished, hlock]
    rintro (⟨call', h⟩ | h)
    · exact hloading (Holder.publisher.inj (Option.some.inj h)).2
    · cases h
  inHand := by
    rw [hpublished, hlock]
    intro _ _ event h hstage
    obtain ⟨-, rfl⟩ := Holder.publisher.inj (Option.some.inj h)
    exact hevent event hstage

theorem ofEmpty (hempty : s'.published = []) (hloaded : s'.watermarkLoaded = true)
    (hlock : ∀ call stage event, s'.lock = some (.publisher call stage) →
      stageEvent stage ≠ some event) : Order cfg s' where
  increasing := hempty ▸ .nil
  bound := fun _ he => absurd (hempty ▸ he) List.not_mem_nil
  unloaded := fun h => absurd (hloaded.symm.trans h) nofun
  loading := fun _ => hempty
  inHand := fun call stage event h hevent => absurd hevent (hlock call stage event h)

theorem leave (hs : Order cfg s) (call : PublishCall) (exit : Exit) :
    Order cfg (s.leave call exit) :=
  hs.idle rfl rfl rfl (idle_of_unlocked rfl)

theorem beginEvent (hs : Order cfg s) (hloaded : s.watermarkLoaded = true) (call : PublishCall)
    (stamp : Stamp) : Order cfg (s.beginEvent cfg call stamp) := by
  unfold Channel.beginEvent
  cases hevent : RuntimeEvent.fromDraft (call.draft cfg) (s.sequence + 1) stamp.eventId
      stamp.now with
  | error => exact hs.leave call .failed
  | ok event =>
    have hseq : event.sequence = s.sequence + 1 := by
      rw [RuntimeEvent.eq_of_fromDraft hevent]
      rfl
    have hafter : ∀ e ∈ s.published, e.sequence < event.sequence := by
      intro e he
      have := hs.bound e he
      omega
    cases hjournal : cfg.hasJournal with
    | true =>
      refine hs.hold hloaded rfl hs.bound rfl (fun h => nomatch h) fun event' h => ?_
      cases h
      exact ⟨hafter, fun _ h => nomatch h⟩
    | false =>
      refine hs.hold hloaded rfl hs.bound rfl (fun h => nomatch h) fun event' h => ?_
      cases h
      exact ⟨hafter, fun h => absurd (hjournal.symm.trans h) nofun⟩

variable {event : RuntimeEvent}

theorem acknowledge (hs : Order cfg s) (hloaded : s.watermarkLoaded = true)
    (hafter : ∀ e ∈ s.published, e.sequence < event.sequence) (call : PublishCall) :
    Order cfg (s.acknowledge call event) := by
  refine hs.hold hloaded rfl (fun e he => (hafter e he).le) rfl (fun h => nomatch h) ?_
  intro _ h
  cases h
  exact ⟨hafter, fun _ _ => rfl⟩

theorem putEvent (hs : Order cfg s)
    (hloaded : s.watermarkLoaded = true) (hlock : s.lock = some (.publisher call (.putting event))) :
    Order cfg (s.putEvent cfg call event) := by
  obtain ⟨hafter, hack⟩ := hs.inHand call _ event hlock rfl
  unfold Channel.putEvent
  split
  · exact hs.leave call _
  split
  · exact hs.leave call _
  · exact {
      increasing := by
        show (s.published ++ [event]).Pairwise _
        rw [List.pairwise_append]
        refine ⟨hs.increasing, List.pairwise_singleton _ _, fun e he e' he' => ?_⟩
        cases List.mem_singleton.mp he'
        exact hafter e he
      bound := by
        show ∀ e ∈ s.published ++ [event],
          e.sequence ≤ if cfg.hasJournal then s.sequence else event.sequence
        have hlast : ∀ e ∈ s.published ++ [event], e.sequence ≤ event.sequence := by
          intro e he
          rcases mem_snoc he with he | he
          · exact (hafter e he).le
          · rw [he]
        split_ifs with hjournal
        · rwa [← hack hjournal rfl]
        · exact hlast
      unloaded := fun h => absurd (hloaded.symm.trans h) nofun
      loading := by rintro (⟨_, hlock⟩ | hlock) <;> exact nomatch hlock
      inHand := fun _ _ _ hlock => nomatch hlock }

end Order

theorem nextStage_event {stage' : PublishStage} (h : nextStage stage = some stage') :
    stageEvent stage' = stageEvent stage ∧ stage' ≠ .readingWatermark ∧
      (acknowledged stage' = true → acknowledged stage = true) := by
  cases stage with
  | readingWatermark | appending | committed | putting => cases h
  | beforeAppend =>
    cases h
    exact ⟨rfl, nofun, nofun⟩
  | _ =>
    cases h
    exact ⟨rfl, nofun, fun _ => rfl⟩

/-- Numbers increase along the queue, and what was journaled is not above the channel's own. -/
theorem Order.step (hs : Order cfg s) (h : s.step cfg action = some s') : Order cfg s' := by
  cases step_writes h with
  | refuse | enqueueCall | giveUp | lateCommit | foreignAppend => exact hs.same rfl rfl rfl rfl
  | @enter index stamp call hlock hwaits =>
    have hdequeue : Order cfg (s.dequeueCall index) := hs.same rfl rfl rfl rfl
    unfold enter
    split_ifs with hstate hloaded
    · exact hdequeue.leave call _
    · exact hdequeue.beginEvent hloaded call stamp
    · have hempty : s.published = [] := (hs.unloaded (Bool.eq_false_iff.mpr hloaded)).1
      exact hs.hold rfl rfl hs.bound rfl (fun _ => hempty) fun event h => nomatch h
  | @exit action call stage =>
    have hstranded : Order cfg (s.strand stage) := hs.same rfl rfl rfl rfl
    exact hstranded.leave call _
  | @goOn action call stage _ hlock hgoes =>
    have hloaded : s.watermarkLoaded = true := by
      refine Bool.eq_false_imp_eq_true.mp fun h => ?_
      exact absurd hlock ((hs.unloaded h).2 call stage)
    cases hgoes with
    | watermarkRead stamp =>
      have hempty : s.published = [] := hs.loading (.inl ⟨call, hlock⟩)
      have hread : Order cfg { s with sequence := journalWatermark cfg s.log } := by
        refine ofEmpty hempty hloaded fun call' stage event h hevent => ?_
        obtain ⟨-, rfl⟩ := Holder.publisher.inj (Option.mem_unique hlock h)
        cases hevent
      exact hread.beginEvent hloaded call stamp
    | pass hnext =>
      obtain ⟨hevent, hne, hack⟩ := nextStage_event hnext
      refine hs.hold hloaded rfl hs.bound rfl (fun h => absurd h hne) fun event h => ?_
      obtain ⟨hafter, hseq⟩ := hs.inHand call stage event hlock (hevent ▸ h)
      exact ⟨hafter, fun hjournal h => hseq hjournal (hack h)⟩
    | journalCommit event =>
      unfold commit
      split
      · exact hs.leave call _
      · refine hs.hold hloaded rfl hs.bound rfl (fun h => nomatch h) fun event' h => ?_
        cases h
        exact ⟨(hs.inHand call _ event hlock rfl).1, fun _ h => nomatch h⟩
    | acknowledge event | mutationReturns event =>
      exact hs.acknowledge hloaded (hs.inHand call _ event hlock rfl).1 call
    | put => exact hs.putEvent hloaded hlock
  | capture hcaptures =>
    cases hcaptures with
    | start =>
      exact {
        increasing := hs.increasing
        bound := hs.bound
        unloaded := fun h => nomatch h
        loading := by
          rintro (⟨_, h⟩ | h)
          · cases h
          · have hload : (!s.watermarkLoaded) = true := Holder.capture.inj (Option.some.inj h)
            exact (hs.unloaded (by simpa using hload)).1
        inHand := fun _ _ _ h => nomatch h }
    | loaded hlock =>
      have hempty : s.published = [] := hs.loading (.inr hlock)
      exact {
        increasing := hs.increasing
        bound := fun _ he => absurd (hempty ▸ he) List.not_mem_nil
        unloaded := fun h => ⟨hempty, fun _ _ h => nomatch h⟩
        loading := fun _ => hempty
        inHand := fun _ _ _ h => nomatch h }
    | finish | interrupt => exact hs.idle rfl rfl rfl (idle_of_unlocked rfl)
  | lifecycle hsame | consumer hsame => exact hs.sameWriting hsame

/-! ## The owner of the queue -/

/-- The reader may take entries off the queue: a lease that was not released, or a drain in its
loop. -/
def Consumer.Owns : Consumer → Prop
  | .lease active _ => active = true
  | .draining _ => True
  | _ => False

/-- At most one reader owns the queue, and `_consumer_owner` says which kind. -/
structure Ownership (s : Channel) : Prop where
  unique : ∀ i j, Consumer.Owns (s.consumers i) → Consumer.Owns (s.consumers j) → i = j
  lease : ∀ i reads, s.consumers i = .lease true reads →
    s.owner = .transport ∨ s.owner = .aborted
  draining : ∀ i reading, s.consumers i = .draining reading →
    s.owner = .drain ∨ s.owner = .aborted

theorem ownership_new (cfg : ChannelConfig) (log : List JournalRecord) :
    Ownership (new cfg log) where
  unique := fun _ _ h => h.elim
  lease := fun _ _ h => nomatch h
  draining := fun _ _ h => nomatch h

theorem beginEvent_readers (s : Channel) (call : PublishCall) (stamp : Stamp) :
    (s.beginEvent cfg call stamp).consumers = s.consumers ∧
      (s.beginEvent cfg call stamp).owner = s.owner := by
  unfold beginEvent
  split
  all_goals exact ⟨rfl, rfl⟩

theorem enter_readers (cfg : ChannelConfig) (s : Channel) (call : PublishCall) (stamp : Stamp) :
    (s.enter cfg call stamp).consumers = s.consumers ∧
      (s.enter cfg call stamp).owner = s.owner := by
  unfold enter
  split_ifs
  · exact ⟨rfl, rfl⟩
  · exact beginEvent_readers s call stamp
  · exact ⟨rfl, rfl⟩

theorem publisherStep_readers {action : PublisherAction}
(h : s.publisherStep cfg call action stage = some s') :
    s'.consumers = s.consumers ∧ s'.owner = s.owner := by
  rcases publisherStep_cases h with ⟨_, -, rfl⟩ | hgo
  · exact ⟨rfl, rfl⟩
  cases hgo with
  | watermarkRead stamp =>
    exact beginEvent_readers { s with sequence := journalWatermark cfg s.log } call stamp
  | pass | acknowledge | mutationReturns => exact ⟨rfl, rfl⟩
  | journalCommit =>
    unfold commit
    split
    all_goals exact ⟨rfl, rfl⟩
  | put =>
    unfold putEvent
    split_ifs
    all_goals exact ⟨rfl, rfl⟩

theorem lifecycleStep_readers {action : LifecycleAction}
    (h : s.lifecycleStep cfg action = some s') :
    s'.consumers = s.consumers ∧ (s'.owner = s.owner ∨ s'.owner = .aborted) := by
  cases lifecycleStep_cases h with
  | abort => exact ⟨rfl, .inr rfl⟩
  | _ => exact ⟨rfl, .inl rfl⟩

namespace Ownership

theorem free (hs : Ownership s) (h : s.owner = .released) (i : ℕ) :
    ¬ Consumer.Owns (s.consumers i) := by
  intro howns
  cases hi : s.consumers i with
  | absent | handoff | finished => rw [hi] at howns; exact howns
  | lease active reads =>
    rw [hi] at howns
    obtain rfl : active = true := howns
    rcases hs.lease i reads hi with h' | h' <;> exact absurd (h.symm.trans h') nofun
  | draining reading =>
    rcases hs.draining i reading hi with h' | h' <;> exact absurd (h.symm.trans h') nofun

theorem same (hs : Ownership s) (hconsumers : s'.consumers = s.consumers)
    (howner : s'.owner = s.owner ∨ s'.owner = .aborted) : Ownership s' where
  unique := hconsumers ▸ hs.unique
  lease := by
    rw [hconsumers]
    intro i reads hi
    rcases howner with h | h
    · exact h ▸ hs.lease i reads hi
    · exact .inr h
  draining := by
    rw [hconsumers]
    intro i reading hi
    rcases howner with h | h
    · exact h ▸ hs.draining i reading hi
    · exact .inr h

variable {id : ℕ} {consumer : Consumer} {active reading : Bool}

section

variable (hs : Ownership s)
include hs

/-- A reader that does not own the queue, or that owned it before, changes its own state. -/
theorem update (hconsumers : s'.consumers = Function.update s.consumers id consumer)
    (howns : Consumer.Owns consumer → Consumer.Owns (s.consumers id) ∨ s.owner = .released)
    (hself : (∀ reads, consumer = .lease true reads → s'.owner = .transport ∨ s'.owner = .aborted) ∧
      ∀ reading, consumer = .draining reading → s'.owner = .drain ∨ s'.owner = .aborted)
    (howner : s'.owner = s.owner ∨ s'.owner = .aborted ∨
      ∀ i, i ≠ id → ¬ Consumer.Owns (s.consumers i)) : Ownership s' where
  unique := by
    have hone : ∀ i, i ≠ id → Consumer.Owns consumer → ¬ Consumer.Owns (s.consumers i) := by
      intro i hne hc hi
      rcases howns hc with h | h
      · exact hne (hs.unique i id hi h)
      · exact hs.free h i hi
    rw [hconsumers]
    intro i j hi hj
    by_cases hid : i = id
    · subst hid
      rw [Function.update_self] at hi
      by_contra hne
      rw [Function.update_of_ne (Ne.symm hne)] at hj
      exact hone j (Ne.symm hne) hi hj
    · rw [Function.update_of_ne hid] at hi
      by_cases hjd : j = id
      · subst hjd
        rw [Function.update_self] at hj
        exact absurd hi (hone i hid hj)
      · rw [Function.update_of_ne hjd] at hj
        exact hs.unique i j hi hj
  lease := by
    rw [hconsumers]
    intro i reads hi
    by_cases hid : i = id
    · subst hid
      rw [Function.update_self] at hi
      exact hself.1 reads hi
    · rw [Function.update_of_ne hid] at hi
      rcases howner with h | h | h
      · exact h ▸ hs.lease i reads hi
      · exact .inr h
      · exact absurd (by rw [hi]; rfl) (h i hid)
  draining := by
    rw [hconsumers]
    intro i reading hi
    by_cases hid : i = id
    · subst hid
      rw [Function.update_self] at hi
      exact hself.2 reading hi
    · rw [Function.update_of_ne hid] at hi
      rcases howner with h | h | h
      · exact h ▸ hs.draining i reading hi
      · exact .inr h
      · exact absurd (by rw [hi]; trivial) (h i hid)

theorem release {reads reads' : ℕ} (completed : Bool)
    (hid : s.consumers id = .lease active reads') :
    Ownership (s.release id reads active completed) := by
  cases active with
  | false =>
    refine hs.update rfl (fun h => nomatch h) ⟨(fun _ h => nomatch h), fun _ h => nomatch h⟩ (.inl rfl)
  | true =>
    have hown : Consumer.Owns (s.consumers id) := by
      rw [hid]
      rfl
    refine hs.update rfl (fun h => nomatch h) ⟨(fun _ h => nomatch h), fun _ h => nomatch h⟩ ?_
    exact .inr (.inr fun i hne hi => hne (hs.unique i id hi hown))

theorem endDrain (completed : Bool)
    (hid : s.consumers id = .draining reading) : Ownership (s.endDrain id completed) := by
  have hown : Consumer.Owns (s.consumers id) := by
    rw [hid]
    trivial
  refine hs.update rfl (fun h => h.elim) ⟨(fun _ h => nomatch h), fun _ h => nomatch h⟩ ?_
  exact .inr (.inr fun i hne hi => hne (hs.unique i id hi hown))

theorem keep (hconsumers : s'.consumers = Function.update s.consumers id consumer)
    (howner : s'.owner = s.owner) (hsame : Consumer.Owns consumer → Consumer.Owns (s.consumers id))
    (hlease : ∀ reads, consumer = .lease true reads → ∃ reads', s.consumers id = .lease true reads')
    (hdrain : ∀ reading, consumer = .draining reading → ∃ b, s.consumers id = .draining b) :
    Ownership s' := by
  refine hs.update hconsumers (fun h => .inl (hsame h)) ⟨?_, ?_⟩ (.inl howner)
  · intro reads h
    obtain ⟨reads', h'⟩ := hlease reads h
    exact howner ▸ hs.lease id reads' h'
  · intro reading h
    obtain ⟨b, h'⟩ := hdrain reading h
    exact howner ▸ hs.draining id b h'

theorem attach (id : ℕ) : Ownership (s.attach id) := by
  unfold Channel.attach
  split_ifs with haborted hrefused
  · exact hs.same rfl (.inr rfl)
  · exact hs
  · push Not at hrefused
    refine hs.update rfl (fun _ => .inr hrefused.2.1) ⟨fun _ _ => .inl rfl, fun _ h => nomatch h⟩ ?_
    exact .inr (.inr fun i _ => hs.free hrefused.2.1 i)

theorem drain (id : ℕ) : Ownership (s.drain id) := by
  unfold Channel.drain
  split_ifs with haborted hrefused
  · exact hs.same rfl (.inr rfl)
  · exact hs
  · exact hs.keep rfl rfl (fun h => h.elim) (fun _ h => nomatch h) (fun _ h => nomatch h)

theorem handoff (id : ℕ) : Ownership (s.handoff id) := by
  unfold Channel.handoff
  split_ifs with haborted howner
  · exact hs.update rfl (fun h => h.elim) ⟨(fun _ h => nomatch h), fun _ h => nomatch h⟩
      (.inr (.inl rfl))
  · exact hs.keep rfl rfl (fun h => h.elim) (fun _ h => nomatch h) (fun _ h => nomatch h)
  · have hfree : s.owner = .released := not_not.mp howner
    refine hs.update rfl (fun _ => .inr hfree) ⟨(fun _ h => nomatch h), fun _ _ => .inl rfl⟩ ?_
    exact .inr (.inr fun i _ => hs.free hfree i)

theorem deliver {reads reads' : ℕ} (item : QueueItem)
    (hid : s.consumers id = .lease active reads') : Ownership (s.deliver id reads active item) := by
  cases item with
  | endOfStream => exact (hs.release _ hid).same rfl (.inl rfl)
  | event =>
    unfold Channel.deliver
    split_ifs
    · exact hs.release _ hid
    · refine hs.keep rfl rfl (fun h => ?_) (fun reads h => ?_) (fun _ h => nomatch h)
      · rwa [hid]
      · obtain ⟨rfl, -⟩ := Consumer.lease.inj h
        exact ⟨reads', hid⟩

theorem discard (item : QueueItem)
    (hid : s.consumers id = .draining reading) : Ownership (s.discard id item) := by
  unfold Channel.discard
  split_ifs
  · exact (hs.endDrain true hid).same rfl (.inl rfl)
  · refine hs.keep rfl rfl (fun _ => ?_) (fun _ h => nomatch h) (fun _ _ => ⟨reading, hid⟩)
    rw [hid]
    trivial

theorem consumerStep {action : ConsumerAction}
    (h : s.consumerStep id action (s.consumers id) = some s') : Ownership s' := by
  generalize hid : s.consumers id = consumer at h
  unfold Channel.consumerStep at h
  split at h
  case h_1 =>
    cases h
    exact hs.attach id
  case h_2 =>
    cases h
    exact hs.drain id
  case h_3 =>
    cases h
    exact hs.handoff id
  case h_4 =>
    cases h
    exact hs.keep rfl rfl (fun h => h.elim) (fun _ h => nomatch h) (fun _ h => nomatch h)
  case h_5 reads =>
    cases h
    refine hs.keep rfl rfl (fun h => ?_) (fun _ _ => ⟨reads, hid⟩) (fun _ h => nomatch h)
    rwa [hid]
  case h_6 =>
    cases h
    refine hs.keep rfl rfl (fun _ => ?_) (fun _ h => nomatch h) (fun _ _ => ⟨false, hid⟩)
    rw [hid]
    trivial
  case h_7 =>
    cases h
    exact hs.release false hid
  case h_8 =>
    cases h
    exact hs.endDrain false hid
  case h_9 =>
    split at h
    · cases h
    · rename_i item rest hq
      cases h
      have hpop : Ownership { s with queue := rest } := hs.same rfl (.inl rfl)
      exact hpop.deliver item hid
  case h_10 =>
    split at h
    · cases h
    · rename_i item rest hq
      cases h
      have hpop : Ownership { s with queue := rest } := hs.same rfl (.inl rfl)
      exact hpop.discard item hid
  case h_11 =>
    cases h
    exact hs.release false hid
  case h_12 => exact nomatch h

/-- At most one consumer owns the transport, in every state. -/
theorem step (h : s.step cfg action = some s') : Ownership s' := by
  cases action with
  | emit =>
    rcases emit_cases h with ⟨_, -, rfl⟩ | ⟨-, -, rfl⟩
    all_goals exact hs.same rfl (.inl rfl)
  | acquire index stamp =>
    obtain ⟨call, -, -, rfl⟩ := acquire_cases h
    obtain ⟨hconsumers, howner⟩ := enter_readers cfg (s.dequeueCall index) call stamp
    exact hs.same hconsumers (.inl howner)
  | giveUp =>
    obtain ⟨_, -, rfl⟩ := giveUp_cases h
    exact hs.same rfl (.inl rfl)
  | publisher =>
    simp only [Channel.step] at h
    split at h
    · obtain ⟨hconsumers, howner⟩ := publisherStep_readers h
      exact hs.same hconsumers (.inl howner)
    · cases h
  | capture =>
    cases captureStep_cases h with
    | start | loaded | finish | interrupt => exact hs.same rfl (.inl rfl)
  | lifecycle =>
    obtain ⟨hconsumers, howner⟩ := lifecycleStep_readers h
    exact hs.same hconsumers howner
  | consumer => exact hs.consumerStep h
  | lateCommit =>
    obtain ⟨_, _, -, -, rfl⟩ := lateCommit_cases h
    exact hs.same rfl (.inl rfl)
  | foreignAppend =>
    simp only [Channel.step] at h
    split_ifs at h
    cases h
    exact hs.same rfl (.inl rfl)

end

end Ownership

/-! ## Every run -/

/-- The events that one reader got, in its order. -/
def eventsOf (s : Channel) (id : ℕ) : List RuntimeEvent :=
  (s.received.filter (·.consumer = id)).filterMap fun receipt => QueueItem.event? receipt.item

theorem eventsOf_sublist_taken (s : Channel) (id : ℕ) :
    (s.eventsOf id).Sublist (s.taken.filterMap QueueItem.event?) := by
  rw [taken, List.filterMap_map]
  exact List.filter_sublist.filterMap _

theorem Stream.taken_prefix (hs : Stream s) :
    s.taken.filterMap QueueItem.event? <+: s.published := by
  obtain ⟨_, _, hflow, hbegin, -⟩ := hs.flow
  obtain ⟨_, _, htaken, hprefix⟩ := entries_split hflow
  rw [htaken, filterMap_entries]
  exact hprefix.trans hbegin

/-- The end mark comes after every published event. -/
theorem Stream.before_end (hs : Stream s) (halive : s.state ≠ .aborted)
    {before after : List QueueItem} (h : s.taken = before ++ .endOfStream :: after) :
    before.filterMap QueueItem.event? = s.published ∧ after.filterMap QueueItem.event? = [] := by
  obtain ⟨_, _, hflow, -, hall⟩ := hs.flow
  obtain ⟨rfl, -, -⟩ := hall halive
  rw [h, List.append_assoc, List.cons_append] at hflow
  obtain ⟨hbefore, hafter⟩ := entries_after_end hflow
  rw [List.filterMap_append, List.append_eq_nil_iff] at hafter
  exact ⟨hbefore, hafter.1⟩

theorem Stream.closed_flow (hs : Stream s) (hclosed : s.state = .closed) :
    ∃ ends, 0 < ends ∧ s.taken ++ s.queue = entries s.published ends := by
  obtain ⟨_, ends, hflow, -, hall⟩ := hs.flow
  obtain ⟨rfl, -, hmarked⟩ := hall (by rw [hclosed]; exact nofun)
  exact ⟨ends, hmarked (.inl hclosed), hflow⟩

/-- What can still come of a channel that has left `OPEN` in the state `s`. -/
structure Leaving (s t : Channel) : Prop where
  state : t.state ≠ .opened
  publishing : ∀ call, t.Publishing call → s.Publishing call
  returned : ∀ call, (call, .returned) ∈ t.exits →
    (call, .returned) ∈ s.exits ∨ s.Publishing call

theorem Leaving.step {t t' : Channel} (hs : Leaving s t) (h : StreamStep t t') : Leaving s t' := by
  cases h with
  | quiet state _ _ _ returned lock =>
    refine ⟨state ▸ hs.state, fun call hcall => ?_, fun call hcall => hs.returned _ (returned _ hcall)⟩
    exact hs.publishing call ((lock call hcall).resolve_right hs.state)
  | put call _ holder _ state _ _ _ exits lock =>
    refine ⟨state ▸ hs.state, ?_, fun call' hcall => ?_⟩
    · rintro call' ⟨stage, hlock⟩
      rw [lock] at hlock
      cases hlock
    · rw [exits] at hcall
      rcases mem_snoc hcall with hcall | hcall
      · exact hs.returned call' hcall
      · obtain rfl : call' = call := (Prod.mk.inj hcall).1
        exact .inr (hs.publishing _ holder)
  | pop _ _ state _ _ _ exits lock =>
    refine ⟨state ▸ hs.state, ?_, fun call hcall => hs.returned call (exits ▸ hcall)⟩
    exact fun call ⟨stage, hlock⟩ => hs.publishing call ⟨stage, lock ▸ hlock⟩
  | endPut _ state _ _ _ exits lock' =>
    refine ⟨state ▸ hs.state, ?_, fun call hcall => hs.returned call (exits ▸ hcall)⟩
    rintro call ⟨stage, hlock⟩
    rw [lock'] at hlock
    cases hlock
  | turn _ _ state _ _ _ exits lock =>
    refine ⟨?_, fun call hcall => hs.publishing call (lock call hcall),
      fun call hcall => hs.returned call (exits ▸ hcall)⟩
    rcases state with h | h <;> rw [h] <;> nofun
  | abort _ state _ _ _ exits lock =>
    refine ⟨by rw [state]; nofun, ?_, fun call hcall => hs.returned call (exits ▸ hcall)⟩
    exact fun call ⟨stage, hlock⟩ => hs.publishing call ⟨stage, lock ▸ hlock⟩

theorem StreamStep.final {t t' : Channel} (h : StreamStep t t') :
    (t.state = .closed → t'.state = .closed) ∧ (t.state = .aborted → t'.state = .aborted) := by
  cases h with
  | quiet state | put _ _ _ _ state | pop _ _ state | endPut _ state =>
    exact ⟨state.trans, state.trans⟩
  | turn alive keep => exact ⟨keep, fun h => absurd h alive⟩
  | abort alive state => exact ⟨fun h => absurd h alive.1, fun _ => state⟩

/-- What holds of a channel at every moment of its life, and for the rest of it. -/
structure StreamSound (cfg : ChannelConfig) (s : Channel) : Prop where
  /-- a reader gets published events, in the order of their sequences -/
  received : ∀ id, (s.eventsOf id).Sublist s.published ∧
    (s.eventsOf id).Pairwise fun a b => a.sequence < b.sequence
  /-- on a channel that was not aborted, whoever sees the end of the stream sees it after
  everything that was published and before nothing -/
  ends : s.state ≠ .aborted → ∀ before after, s.taken = before ++ .endOfStream :: after →
    before.filterMap QueueItem.event? = s.published ∧ after.filterMap QueueItem.event? = []
  /-- all events of a closed channel were received or are in the queue, with the end after them -/
  complete : s.state = .closed →
    ∃ ends, 0 < ends ∧ s.taken ++ s.queue = entries s.published ends
  closed : ∀ acts t, Trace.run (step cfg) s acts = some t → s.state = .closed → t.state = .closed
  aborted : ∀ acts t, Trace.run (step cfg) s acts = some t → s.state = .aborted →
    t.state = .aborted
  /-- only the holder of the publish lock still returns -/
  left : ∀ acts t, Trace.run (step cfg) s acts = some t → s.state ≠ .opened →
    t.state ≠ .opened ∧ ∀ call, (call, .returned) ∈ t.exits →
      (call, .returned) ∈ s.exits ∨ s.Publishing call
  /-- one owner, of the kind that `_consumer_owner` says -/
  owner : Ownership s

/-- Every state that a new channel reaches, however its publishers, readers, `close` and `abort`
interleave. -/
theorem stream_sound {log : List JournalRecord} {acts : List Action}
    (hrun : runSteps cfg log acts = some s) : StreamSound cfg s := by
  have hstream : Stream s :=
    Trace.run_invariant (fun _ _ _ h hs => Stream.step hs (step_stream h)) hrun
      (stream_new cfg log)
  have horder : Order cfg s :=
    Trace.run_invariant (fun _ _ _ h hs => Order.step hs h) hrun (order_new cfg log)
  have howner : Ownership s :=
    Trace.run_invariant (fun _ _ _ h hs => Ownership.step hs h) hrun (ownership_new cfg log)
  have hsub : ∀ id, (s.eventsOf id).Sublist s.published := fun id =>
    (s.eventsOf_sublist_taken id).trans hstream.taken_prefix.sublist
  exact {
    received := fun id => ⟨hsub id, horder.increasing.sublist (hsub id)⟩
    ends := fun halive _ _ h => hstream.before_end halive h
    complete := hstream.closed_flow
    closed := fun acts t h => Trace.run_invariant
      (fun _ _ _ hstep => (step_stream hstep).final.1) h
    aborted := fun acts t h => Trace.run_invariant
      (fun _ _ _ hstep => (step_stream hstep).final.2) h
    left := fun acts t h hstate => by
      have hleaving : Leaving s t := Trace.run_invariant
        (fun _ _ _ hstep hs => Leaving.step hs (step_stream hstep)) h
        ⟨hstate, fun _ => id, fun _ => .inl⟩
      exact ⟨hleaving.state, hleaving.returned⟩
    owner := howner }

/-- An output event of a step. -/
def sampleDelta (ignoreRunCancellation : Bool) : EmitRequest where
  eventType := .outputDelta
  payload := ⟨.outputDelta, ⟨[("text", .str "hi")], by decide⟩⟩
  component := "output_gate"
  stepId := some "step"
  close := false
  ignoreRunCancellation := ignoreRunCancellation
  atomicMutation := false
  spanId := none
  parentSpanId := none

def sampleStamp (eventId : String) : Stamp := ⟨eventId, .epochSecond 0⟩

/-- One event goes through a queue with one place, then the channel closes. -/
def sampleClosing : List Action :=
  [.consumer 0 .attach, .emit (sampleDelta false), .acquire 0 (sampleStamp "e1"),
    .publisher .pass, .publisher .pass, .consumer 0 .beginReceive, .publisher .put,
    .consumer 0 .receive, .lifecycle .close, .lifecycle .closeAcquire, .lifecycle .endPut,
    .lifecycle .closeFinish, .consumer 0 .beginReceive, .consumer 0 .receive]

theorem stream_sound_sampleClosing :
    ∃ s, runSteps ⟨"run", "trace", 1, Nat.one_pos, false, true⟩ [] sampleClosing = some s ∧
      s.state = .closed ∧ (s.eventsOf 0).length = 1 ∧ s.taken.length = 2 ∧
      StreamSound ⟨"run", "trace", 1, Nat.one_pos, false, true⟩ s := by
  have hrun : (runSteps ⟨"run", "trace", 1, Nat.one_pos, false, true⟩ [] sampleClosing).any
      (fun s => s.state = .closed ∧ (s.eventsOf 0).length = 1 ∧ s.taken.length = 2) = true := by
    decide +kernel
  obtain ⟨s, hs, hclosed, hevents, htaken⟩ := exists_of_any hrun
  exact ⟨s, hs, hclosed, hevents, htaken, stream_sound hs⟩

end Channel

end LocalAgent.Runtime
