import LocalAgent.Runtime.TraceExportDispatcher

/-!
# LocalAgent.Runtime.TraceExportDispatcherRuns — the accounts of the dispatcher

* `Counts`: the counters against what happened.
* `Lifecycle`: the marker, the threads inside `close`, and when everything is done.
* `accounts_sound`: what holds of every run in which no dispatcher without a worker is finalized
  with the marker in its queue.
-/

namespace LocalAgent.Runtime

namespace TraceExportDispatcher

variable {dies expired : Bool}

section Counters

variable {Envelope : Type} {s s' : TraceExportDispatcher Envelope}

/-! ## The queue -/

theorem envelopes_append (a b : List (Item Envelope)) :
    envelopes (a ++ b) = envelopes a ++ envelopes b := by
  induction a with
  | nil => rfl
  | cons item _ ih =>
    cases item with
    | envelope e => exact congrArg (e :: ·) ih
    | sentinel => exact ih

theorem sentinels_append (a b : List (Item Envelope)) :
    sentinels (a ++ b) = sentinels a + sentinels b := by
  induction a with
  | nil => exact (Nat.zero_add _).symm
  | cons item a ih =>
    cases item with
    | envelope => exact ih
    | sentinel =>
      show sentinels (a ++ b) + 1 = sentinels a + 1 + sentinels b
      omega

theorem queue_length (items : List (Item Envelope)) :
    items.length = (envelopes items).length + sentinels items := by
  induction items with
  | nil => rfl
  | cons item items =>
    cases item with
    | envelope =>
      show items.length + 1 = (envelopes items).length + 1 + sentinels items
      omega
    | sentinel =>
      show items.length + 1 = (envelopes items).length + (sentinels items + 1)
      omega

/-! ## The worker -/

/-- The envelope that was taken from the queue and not handed over yet. -/
def Worker.dequeued : Worker Envelope → List Envelope
  | .got e => [e]
  | _ => []

/-- The attempts that run. -/
def Worker.running : Worker Envelope → ℕ
  | .sending => 1
  | _ => 0

/-- The attempts that are not completed. -/
def Worker.unfinished : Worker Envelope → ℕ
  | .sending | .finishing _ => 1
  | _ => 0

/-- No attempt was cut off. -/
def Worker.intact : Worker Envelope → Bool
  | .idle | .got _ | .sending | .finishing false | .closing | .finalizing _ => true
  | _ => false

def Worker.holdsMarker : Worker Envelope → Bool
  | .closing | .finalizing _ => true
  | _ => false

/-! ## The counters -/

/-- The counters against what happened. -/
structure Counts (s : TraceExportDispatcher Envelope) : Prop where
  order : s.history.accepted = s.history.handed ++ (s.worker.dequeued ++ envelopes s.queue)
  accepted : s.acceptedTotal = s.history.accepted.length
  attempted : s.attemptedTotal = s.history.handed.length
  outcomes : s.attemptedTotal = s.sentTotal + s.history.transportFailures + s.history.cutOff +
    s.worker.running
  completed : s.attemptedTotal = s.completedAttemptCount + s.worker.unfinished
  dropped : s.droppedTotal = s.history.refused + s.history.transportFailures + s.history.abandoned
  whole : s.worker.intact = true → s.history.cutOff = 0

/-- `close` has begun and every accepted envelope has completed its attempt. -/
def Drained (s : TraceExportDispatcher Envelope) : Prop :=
  s.closeStarted = true ∧ s.completedAttemptCount = s.acceptedTotal

theorem Counts.accepted_eq (h : Counts s) : s.acceptedTotal =
    s.attemptedTotal + s.worker.dequeued.length + (envelopes s.queue).length := by
  rw [h.accepted, h.order, h.attempted, List.length_append, List.length_append]
  omega

theorem Counts.idle_of_drained (h : Counts s) (hdrained : Drained s) :
    s.worker.unfinished = 0 ∧ s.worker.dequeued = [] ∧ envelopes s.queue = [] := by
  have haccepted := h.accepted_eq
  have hcompleted := h.completed
  have hall := hdrained.2
  refine ⟨by omega, List.eq_nil_of_length_eq_zero (by omega),
    List.eq_nil_of_length_eq_zero (by omega)⟩

theorem Counts.completed_le (h : Counts s) : s.completedAttemptCount ≤ s.acceptedTotal := by
  have haccepted := h.accepted_eq
  have hcompleted := h.completed
  omega

theorem counts_new (queueCapacity : ℕ) :
    Counts (new queueCapacity : TraceExportDispatcher Envelope) :=
  ⟨rfl, rfl, rfl, rfl, rfl, rfl, fun _ => rfl⟩

section

variable (h : Counts s)
include h

theorem Counts.same (hqueue : envelopes s'.queue = envelopes s.queue)
    (haccepted : s'.acceptedTotal = s.acceptedTotal)
    (hattempted : s'.attemptedTotal = s.attemptedTotal)
    (hsent : s'.sentTotal = s.sentTotal) (hdropped : s'.droppedTotal = s.droppedTotal)
    (hcompleted : s'.completedAttemptCount = s.completedAttemptCount)
    (hworker : s'.worker = s.worker) (hhistory : s'.history = { s.history with
      flushes := s'.history.flushes, closes := s'.history.closes }) : Counts s' := by
  refine ⟨?_, ?_, ?_, ?_, ?_, ?_, ?_⟩
  · rw [hhistory, hqueue, hworker]
    exact h.order
  · rw [hhistory, haccepted]
    exact h.accepted
  · rw [hhistory, hattempted]
    exact h.attempted
  · rw [hhistory, hattempted, hsent, hworker]
    exact h.outcomes
  · rw [hattempted, hcompleted, hworker]
    exact h.completed
  · rw [hhistory, hdropped]
    exact h.dropped
  · rw [hhistory, hworker]
    exact h.whole

theorem Counts.refuse : Counts s.refuse := by
  refine ⟨h.order, h.accepted, h.attempted, h.outcomes, h.completed, ?_, h.whole⟩
  have hdropped := h.dropped
  show s.droppedTotal + 1 = s.history.refused + 1 + s.history.transportFailures +
    s.history.abandoned
  omega

/-- An observed span is queued or dropped. -/
theorem Counts.observe (projected : Option Envelope) :
    Counts (s.observeCompletedSpan projected) := by
  cases projected with
  | none => exact h.refuse
  | some e =>
    unfold observeCompletedSpan
    split_ifs with hstate hfull
    · exact h.refuse
    · exact h.refuse
    · refine ⟨?_, ?_, h.attempted, h.outcomes, h.completed, h.dropped, h.whole⟩
      · show s.history.accepted ++ [e] = s.history.handed ++ (s.worker.dequeued ++
          envelopes (s.queue ++ [.envelope e]))
        rw [envelopes_append, h.order]
        simp [envelopes]
      · show s.acceptedTotal + 1 = (s.history.accepted ++ [e]).length
        rw [h.accepted, List.length_append]
        rfl

theorem Counts.finalizeDead (hmarker : sentinels s.queue = 0) :
    Counts s.finalizeCloseDeadWorkerLocked := by
  refine ⟨h.order, h.accepted, h.attempted, h.outcomes, h.completed, ?_, h.whole⟩
  have hdropped := h.dropped
  have hlength := queue_length s.queue
  show s.droppedTotal + s.queue.length = s.history.refused + s.history.transportFailures +
    (s.history.abandoned + (envelopes s.queue).length)
  omega

/-- What the counters say where the worker is. -/
theorem Counts.ofWorker {w : Worker Envelope} (hworker : s.worker = w) :
    s.history.accepted = s.history.handed ++ (w.dequeued ++ envelopes s.queue) ∧
      s.attemptedTotal = s.sentTotal + s.history.transportFailures + s.history.cutOff + w.running ∧
      s.attemptedTotal = s.completedAttemptCount + w.unfinished ∧
      (w.intact = true → s.history.cutOff = 0) :=
  hworker ▸ ⟨h.order, h.outcomes, h.completed, h.whole⟩

/-- The worker takes an item. -/
theorem Counts.get (hworker : s.worker = .idle) (hget : s.get = some s') : Counts s' := by
  obtain ⟨horder, houtcomes, hcompleted, hwhole⟩ := h.ofWorker hworker
  unfold TraceExportDispatcher.get at hget
  cases hqueue : s.queue with
  | nil =>
    rw [hqueue] at hget
    cases hget
  | cons item =>
    rw [hqueue] at hget horder
    cases item with
    | envelope | sentinel =>
      cases hget
      exact ⟨horder, h.accepted, h.attempted, houtcomes, hcompleted, h.dropped, hwhole⟩

theorem Counts.attempt {e : Envelope} (hworker : s.worker = .got e) : Counts (s.attempt e) := by
  obtain ⟨horder, houtcomes, hcompleted, hwhole⟩ := h.ofWorker hworker
  refine ⟨?_, h.accepted, ?_, ?_, ?_, h.dropped, hwhole⟩
  · show s.history.accepted = s.history.handed ++ [e] ++ ([] ++ envelopes s.queue)
    rw [horder]
    simp [Worker.dequeued]
  · show s.attemptedTotal + 1 = (s.history.handed ++ [e]).length
    rw [h.attempted, List.length_append]
    rfl
  · exact congrArg (· + 1) houtcomes
  · exact congrArg (· + 1) hcompleted

/-- The send ends, with or without success. -/
theorem Counts.sendEnds (hworker : s.worker = .sending) (outcome : SendOutcome) :
    Counts (s.sendEnds outcome) := by
  obtain ⟨horder, houtcomes, hcompleted, hwhole⟩ := h.ofWorker hworker
  have hdropped := h.dropped
  cases outcome with
  | sent =>
    refine ⟨horder, h.accepted, h.attempted, ?_, hcompleted, h.dropped, hwhole⟩
    show s.attemptedTotal = s.sentTotal + 1 + s.history.transportFailures + s.history.cutOff + 0
    have hrunning : (Worker.sending : Worker Envelope).running = 1 := rfl
    omega
  | transportFailed =>
    refine ⟨horder, h.accepted, h.attempted, ?_, hcompleted, ?_, hwhole⟩
    · show s.attemptedTotal = s.sentTotal + (s.history.transportFailures + 1) + s.history.cutOff + 0
      have hrunning : (Worker.sending : Worker Envelope).running = 1 := rfl
      omega
    · show s.droppedTotal + 1 = s.history.refused + (s.history.transportFailures + 1) +
        s.history.abandoned
      omega
  | died =>
    refine ⟨horder, h.accepted, h.attempted, ?_, hcompleted, h.dropped, nofun⟩
    show s.attemptedTotal = s.sentTotal + s.history.transportFailures + (s.history.cutOff + 1) + 0
    have hrunning : (Worker.sending : Worker Envelope).running = 1 := rfl
    omega

theorem Counts.finishAttempt (hworker : s.worker = .finishing dies) :
    Counts (s.finishAttempt dies) := by
  obtain ⟨horder, houtcomes, hcompleted, hwhole⟩ := h.ofWorker hworker
  cases dies with
  | true =>
    exact ⟨horder, h.accepted, h.attempted, houtcomes, hcompleted, h.dropped, nofun⟩
  | false =>
    exact ⟨horder, h.accepted, h.attempted, houtcomes, hcompleted, h.dropped, hwhole⟩

theorem Counts.work {worker : Worker Envelope} (hdequeued : s.worker.dequeued = [])
    (hrunning : s.worker.unfinished = 0) (hdequeued' : worker.dequeued = [])
    (hrunning' : worker.unfinished = 0) (hintact : worker.intact = true → s.worker.intact = true) :
    Counts { s with worker := worker } := by
  have hle : ∀ w : Worker Envelope, w.unfinished = 0 → w.running = 0 := by
    intro w hw
    cases w <;> first | rfl | exact nomatch hw
  have horder := h.order
  have houtcomes := h.outcomes
  have hcompleted := h.completed
  rw [hle _ hrunning] at houtcomes
  rw [hdequeued] at horder
  rw [hrunning] at hcompleted
  refine ⟨?_, h.accepted, h.attempted, ?_, ?_, h.dropped, fun hw => h.whole (hintact hw)⟩
  · show s.history.accepted = s.history.handed ++ (worker.dequeued ++ envelopes s.queue)
    rwa [hdequeued']
  · show s.attemptedTotal = s.sentTotal + s.history.transportFailures + s.history.cutOff +
      worker.running
    rwa [hle _ hrunning']
  · show s.attemptedTotal = s.completedAttemptCount + worker.unfinished
    rwa [hrunning']

theorem Counts.go {id : ℕ} {client : Client} : Counts (s.go id client) :=
  h.same rfl rfl rfl rfl rfl rfl rfl rfl

theorem Counts.answerClose {id : ℕ} {result : Bool} : Counts (s.answerClose id result) :=
  h.same rfl rfl rfl rfl rfl rfl rfl rfl

theorem Counts.flush (id : ℕ) : Counts (s.flush id) := by
  unfold TraceExportDispatcher.flush
  split_ifs
  · exact h.same rfl rfl rfl rfl rfl rfl rfl rfl
  · exact h.go

theorem Counts.checkFlush (id target : ℕ) (expired : Bool) :
    Counts (s.checkFlush id target expired) := by
  unfold TraceExportDispatcher.checkFlush
  split_ifs
  · exact h.same rfl rfl rfl rfl rfl rfl rfl rfl
  · exact h.same rfl rfl rfl rfl rfl rfl rfl rfl
  · exact h

/-- A close that finds the worker dead finalizes at once, before there is a marker. -/
theorem Counts.close (id : ℕ) (hmarker : s.closeStarted ≠ true → sentinels s.queue = 0) :
    Counts (s.close id) := by
  unfold TraceExportDispatcher.close
  split_ifs with hfinal hstarted hdead
  · exact h.answerClose
  · exact h.go
  · have hbegun : Counts { s with closeStarted := true } := h.same rfl rfl rfl rfl rfl rfl rfl rfl
    exact (hbegun.finalizeDead (hmarker hstarted)).answerClose
  · exact h.same rfl rfl rfl rfl rfl rfl rfl rfl

theorem Counts.checkClose (id : ℕ) (expired : Bool) : Counts (s.checkClose id expired) := by
  unfold TraceExportDispatcher.checkClose
  split_ifs
  · exact h.go
  · exact h

theorem Counts.decideClose (id : ℕ) (hmarker : s.closeFinalized = false →
    s.worker.isDead = true → sentinels s.queue = 0) : Counts (s.decideClose id) := by
  unfold TraceExportDispatcher.decideClose
  split_ifs with hfinal hdead hleft
  · exact h.answerClose
  · exact (h.finalizeDead (hmarker (by simpa using hfinal) hdead)).answerClose
  · exact h.answerClose
  · exact h.go

theorem Counts.markClose (id : ℕ) (expired : Bool) : Counts (s.markClose id expired) := by
  unfold TraceExportDispatcher.markClose
  split_ifs
  · exact h.go
  · exact h.answerClose
  · exact h.same rfl rfl rfl rfl rfl rfl rfl rfl

theorem Counts.putSentinel {id : ℕ} (hput : s.putSentinel id expired = some s') : Counts s' := by
  unfold TraceExportDispatcher.putSentinel at hput
  split_ifs at hput
  · cases hput
    refine h.same ?_ rfl rfl rfl rfl rfl rfl rfl
    show envelopes (s.queue ++ [Item.sentinel]) = envelopes s.queue
    rw [envelopes_append]
    exact List.append_nil _
  · cases hput
    exact h.same rfl rfl rfl rfl rfl rfl rfl rfl

theorem Counts.awaitClose (id : ℕ) (expired : Bool) : Counts (s.awaitClose id expired) := by
  unfold TraceExportDispatcher.awaitClose
  split_ifs
  · exact h.answerClose
  · exact h.answerClose
  · exact h

theorem Counts.adapterCloseEnds (hworker : s.worker = .closing) (outcome : AdapterClose) :
    Counts (s.adapterCloseEnds outcome) := by
  have hwork : ∀ worker : Worker Envelope, worker.dequeued = [] → worker.unfinished = 0 →
      Counts { s with worker := worker } := fun worker hdequeued hunfinished =>
    h.work (by rw [hworker]; rfl) (by rw [hworker]; rfl) hdequeued hunfinished
      (fun _ => by rw [hworker]; rfl)
  rcases outcome with (_ | _) | _ | _
  · exact (hwork (.finalizing false) rfl rfl).same rfl rfl rfl rfl rfl rfl rfl rfl
  · exact hwork (.finalizing true) rfl rfl
  · exact (hwork (.finalizing false) rfl rfl).same rfl rfl rfl rfl rfl rfl rfl rfl
  · exact hwork .dying rfl rfl

/-- A worker with nothing in its hands leaves. -/
theorem Counts.leave {worker : Worker Envelope} (hdequeued : s.worker.dequeued = [])
    (hunfinished : s.worker.unfinished = 0) (hdequeued' : worker.dequeued = [])
    (hunfinished' : worker.unfinished = 0) (hintact : worker.intact = false) :
    Counts { s with worker := worker } :=
  h.work hdequeued hunfinished hdequeued' hunfinished' fun hm => by rw [hintact] at hm; cases hm

end

end Counters

section Lives

variable {Envelope : Type} {s s' : TraceExportDispatcher Envelope}

/-! ## The life of the dispatcher -/

/-- The thread is inside `close`. -/
def Client.closing : Client → Bool
  | .waiting | .decided | .ready | .enqueuing | .awaiting => true
  | .flushing _ | .answered => false

/-- Every accepted envelope has completed its attempt, and none was cut off. -/
def Succeeded (s : TraceExportDispatcher Envelope) : Prop := Drained s ∧ s.history.cutOff = 0

/-- The marker, the threads inside `close`, and when everything is done. -/
structure Lifecycle (s : TraceExportDispatcher Envelope) : Prop where
  running : s.state = .running → s.closeStarted = false
  closed : s.state = .closed → Drained s
  target : s.closeStarted = true → s.closeFinalized = true ∨ s.closeTarget = s.acceptedTotal
  result : s.closeResult = some true → Succeeded s
  unmarked : s.sentinelEnqueued = false → sentinels s.queue = 0 ∧ s.history.exporterCloses = 0
  marked : s.sentinelEnqueued = true → Drained s
  once : sentinels s.queue + s.history.exporterCloses ≤ 1
  holds : s.worker.holdsMarker = true → s.history.exporterCloses = 1
  /-- what the threads inside `close` have seen -/
  begun : ∀ id client, s.clients.get? id = some client → client.closing = true →
    s.closeStarted = true
  ready : ∀ id, s.clients.get? id = some .ready → Drained s
  enqueuing : ∀ id, s.clients.get? id = some .enqueuing →
    s.sentinelEnqueued = true ∧ sentinels s.queue = 0 ∧ s.history.exporterCloses = 0
  unique : ∀ i j, s.clients.get? i = some .enqueuing → s.clients.get? j = some .enqueuing → i = j
  flushes : ∀ target, (target, true) ∈ s.history.flushes → target ≤ s.completedAttemptCount
  closes : true ∈ s.history.closes → Succeeded s

theorem lifecycle_new (queueCapacity : ℕ) :
    Lifecycle (new queueCapacity : TraceExportDispatcher Envelope) where
  running _ := rfl
  closed h := nomatch h
  target h := nomatch h
  result h := nomatch h
  unmarked _ := ⟨rfl, rfl⟩
  marked h := nomatch h
  once := Nat.zero_le 1
  holds h := nomatch h
  begun _ _ h := nomatch h
  ready _ h := nomatch h
  enqueuing _ h := nomatch h
  unique _ _ h := nomatch h
  flushes _ h := nomatch h
  closes h := nomatch h

namespace Lifecycle

/-- A client goes on. -/
theorem go (h : Lifecycle s) {id : ℕ} {client : Client}
    (hbegun : client.closing = true → s.closeStarted = true)
    (hready : client = .ready → Drained s) (hput : client ≠ .enqueuing) :
    Lifecycle (s.go id client) := by
  have henqueuing : ∀ i, (s.clients.set id client).get? i = some .enqueuing →
      s.clients.get? i = some .enqueuing := by
    intro i hi
    rw [Dict.get?_set] at hi
    split_ifs at hi with hid
    · exact absurd (Option.some.inj hi) hput
    · exact hi
  refine { h with
    begun := fun i c hi hc => ?_
    ready := fun i hi => ?_
    enqueuing := fun i hi => h.enqueuing i (henqueuing i hi)
    unique := fun i j hi hj => h.unique i j (henqueuing i hi) (henqueuing j hj) }
  · have hi' : (s.clients.set id client).get? i = some c := hi
    rcases Dict.get?_set_cases hi' with ⟨-, rfl⟩ | ⟨-, hi'⟩
    · exact hbegun hc
    · exact h.begun i c hi' hc
  · have hi' : (s.clients.set id client).get? i = some .ready := hi
    rw [Dict.get?_set] at hi'
    split_ifs at hi' with hid
    · exact hready (Option.some.inj hi')
    · exact h.ready i hi'

variable {id : ℕ}

section

variable (h : Lifecycle s)
include h

theorem answerFlush {target : ℕ} {succeeded : Bool}
    (hsucceeded : succeeded = true → target ≤ s.completedAttemptCount) :
    Lifecycle (s.answerFlush id target succeeded) := by
  have hgo : Lifecycle (s.go id .answered) := h.go nofun nofun nofun
  refine { hgo with flushes := fun t ht => ?_ }
  rcases List.mem_cons.mp ht with heq | ht
  · obtain ⟨rfl, hresult⟩ := Prod.mk.inj heq
    exact hsucceeded hresult.symm
  · exact h.flushes t ht

theorem answerClose {result : Bool}
    (hresult : result = true → Succeeded s) : Lifecycle (s.answerClose id result) := by
  have hgo : Lifecycle (s.go id .answered) := h.go nofun nofun nofun
  refine { hgo with closes := fun ht => ?_ }
  rcases List.mem_cons.mp ht with heq | ht
  · exact hresult heq.symm
  · exact h.closes ht

theorem answerCached : Lifecycle (s.answerClose id (s.closeResult.getD false)) := by
  refine h.answerClose fun hresult => h.result ?_
  cases hcase : s.closeResult with
  | none =>
    rw [hcase] at hresult
    cases hresult
  | some =>
    rw [hcase] at hresult
    exact congrArg some hresult

theorem observe (projected : Option Envelope) : Lifecycle (s.observeCompletedSpan projected) := by
  have hrefuse : Lifecycle s.refuse := { h with }
  cases projected with
  | none => exact hrefuse
  | some e =>
    unfold observeCompletedSpan
    split_ifs with hstate hfull
    · exact hrefuse
    · exact hrefuse
    · -- nothing is drained while the dispatcher runs
      have hopen : s.closeStarted = false := h.running (not_not.mp hstate)
      have hnot : ¬ Drained s := fun hd => by
        have := hd.1
        rw [hopen] at this
        cases this
      have hsame : sentinels (s.queue ++ [.envelope e]) = sentinels s.queue := by
        rw [sentinels_append]
        rfl
      refine ⟨h.running, fun hc => absurd (h.closed hc) hnot, fun hs => ?_,
        fun hr => absurd (h.result hr).1 hnot, fun hm => ?_, fun hm => absurd (h.marked hm) hnot,
        ?_, h.holds, h.begun, fun i hi => absurd (h.ready i hi) hnot, fun i hi => ?_,
        h.unique, h.flushes, fun hr => absurd (h.closes hr).1 hnot⟩
      · rw [hopen] at hs
        cases hs
      · show sentinels (s.queue ++ [.envelope e]) = 0 ∧ _
        rw [hsame]
        exact h.unmarked hm
      · show sentinels (s.queue ++ [.envelope e]) + _ ≤ 1
        rw [hsame]
        exact h.once
      · show _ ∧ sentinels (s.queue ++ [.envelope e]) = 0 ∧ _
        rw [hsame]
        exact h.enqueuing i hi

theorem flush (id : ℕ) : Lifecycle (s.flush id) := by
  unfold TraceExportDispatcher.flush
  split_ifs with hclosed
  · exact h.answerFlush fun _ => (h.closed hclosed).2.ge
  · exact h.go nofun nofun nofun

theorem checkFlush (id target : ℕ) (expired : Bool) :
    Lifecycle (s.checkFlush id target expired) := by
  unfold TraceExportDispatcher.checkFlush
  split_ifs with hdone
  · exact h.answerFlush fun _ => hdone
  · exact h.answerFlush nofun
  · exact h

theorem finalizeDead : Lifecycle s.finalizeCloseDeadWorkerLocked :=
  { h with target := fun _ => Or.inl rfl, result := nofun }

/-- A close begins. -/
theorem close (id : ℕ) : Lifecycle (s.close id) := by
  unfold TraceExportDispatcher.close
  split_ifs with hfinal hstarted hdead
  · exact h.answerCached
  · exact h.go (fun _ => hstarted) nofun nofun
  all_goals
    have hopen : s.closeStarted = false := by simpa using hstarted
    have hnot : ¬ Drained s := fun hd => by
      have := hd.1
      rw [hopen] at this
      cases this
    have hunmarked : ¬ s.sentinelEnqueued = true := fun hm => hnot (h.marked hm)
  · have hbegun : Lifecycle { s with closeStarted := true, closeFinalized := true } := by
      refine ⟨fun hs => ?_, fun hc => absurd (h.closed hc) hnot, fun _ => Or.inl rfl,
        fun hr => absurd (h.result hr).1 hnot, h.unmarked, fun hm => absurd hm hunmarked, h.once,
        h.holds, fun _ _ _ _ => rfl, fun i hi => absurd (h.ready i hi) hnot,
        h.enqueuing, h.unique, h.flushes, fun hr => absurd (h.closes hr).1 hnot⟩
      have hfailed : s.state = .running := hs
      rw [hdead.1] at hfailed
      cases hfailed
    have hfinalized := hbegun.finalizeDead
    have hdeadState : Lifecycle { s with closeStarted := true }.finalizeCloseDeadWorkerLocked :=
      { hfinalized with }
    exact hdeadState.answerClose nofun
  · have hbegun : Lifecycle { s with
        closeStarted := true, state := s.state.beginClose, closeTarget := s.acceptedTotal } := by
      refine ⟨fun hs => ?_, fun hc => ?_, fun _ => Or.inr rfl,
        fun hr => absurd (h.result hr).1 hnot, h.unmarked, fun hm => absurd hm hunmarked, h.once,
        h.holds, fun _ _ _ _ => rfl, fun i hi => absurd (h.ready i hi) hnot,
        h.enqueuing, h.unique, h.flushes, fun hr => absurd (h.closes hr).1 hnot⟩
      · have hs' : s.state.beginClose = .running := hs
        cases hstate : s.state <;> rw [hstate] at hs' <;> exact nomatch hs'
      · have hc' : s.state.beginClose = .closed := hc
        have hclosed : s.state = .closed := by
          cases hstate : s.state <;> rw [hstate] at hc' <;> first | rfl | exact nomatch hc'
        exact absurd (h.closed hclosed) hnot
    exact hbegun.go (fun _ => rfl) nofun nofun

theorem checkClose (hid : s.clients.get? id = some .waiting)
    (expired : Bool) : Lifecycle (s.checkClose id expired) := by
  unfold TraceExportDispatcher.checkClose
  split_ifs
  · exact h.go (fun _ => h.begun id _ hid rfl) nofun nofun
  · exact h

theorem decideClose (hcounts : Counts s)
    (hid : s.clients.get? id = some .decided) : Lifecycle (s.decideClose id) := by
  have hbegun := h.begun id _ hid rfl
  unfold TraceExportDispatcher.decideClose
  split_ifs with hfinal hdead hleft
  · exact h.answerCached
  · exact h.finalizeDead.answerClose nofun
  · exact h.answerClose nofun
  · refine h.go (fun _ => hbegun) (fun _ => ⟨hbegun, ?_⟩) nofun
    have htarget := (h.target hbegun).resolve_left (by simpa using hfinal)
    have hle := hcounts.completed_le
    omega

theorem markClose (hid : s.clients.get? id = some .ready)
    (expired : Bool) : Lifecycle (s.markClose id expired) := by
  have hbegun := h.begun id _ hid rfl
  have hdrained := h.ready id hid
  unfold TraceExportDispatcher.markClose
  split_ifs with hmarked
  · exact h.go (fun _ => hbegun) (by simp) (by simp)
  · exact h.answerClose (by simp)
  · have hfree : s.sentinelEnqueued = false := by simpa using hmarked
    obtain ⟨hnone, hcloses⟩ := h.unmarked hfree
    have hnobody : ∀ i, s.clients.get? i ≠ some .enqueuing := by
      intro i hi
      have := (h.enqueuing i hi).1
      rw [hfree] at this
      cases this
    have honly : ∀ i, (s.clients.set id .enqueuing).get? i = some .enqueuing → i = id := by
      intro i hi
      rw [Dict.get?_set] at hi
      split_ifs at hi with heq
      · exact heq
      · exact absurd hi (hnobody i)
    refine { h with
      unmarked := fun hm => by cases hm
      marked := fun _ => hdrained
      begun := fun _ _ _ _ => hbegun
      ready := fun _ _ => hdrained
      enqueuing := fun _ _ => ⟨rfl, hnone, hcloses⟩
      unique := fun i j hi hj => (honly i hi).trans (honly j hj).symm }

/-- The close marker is put once. -/
theorem putSentinel (hid : s.clients.get? id = some .enqueuing)
    (hput : s.putSentinel id expired = some s') : Lifecycle s' := by
  have hbegun := h.begun id _ hid rfl
  obtain ⟨hmarked, hnone, hcloses⟩ := h.enqueuing id hid
  have hdrained := h.marked hmarked
  -- no other thread is at the `put`
  have hothers : ∀ client : Client, client ≠ .enqueuing → ∀ i,
      (s.clients.set id client).get? i ≠ some .enqueuing := by
    intro _ hne i hi
    rw [Dict.get?_set] at hi
    split_ifs at hi with heq
    · exact hne (Option.some.inj hi)
    · exact heq (h.unique i id hi hid)
  have hawaiting := hothers .awaiting (by simp)
  have hanswered := hothers .answered (by simp)
  unfold TraceExportDispatcher.putSentinel at hput
  split_ifs at hput
  · cases hput
    refine { h with
      unmarked := fun hm => ?_
      once := ?_
      begun := fun _ _ _ _ => hbegun
      ready := fun _ _ => hdrained
      enqueuing := fun i hi => absurd hi (hawaiting i)
      unique := fun i _ hi => absurd hi (hawaiting i) }
    · have hfree : s.sentinelEnqueued = false := hm
      rw [hmarked] at hfree
      cases hfree
    · show sentinels (s.queue ++ [Item.sentinel]) + s.history.exporterCloses ≤ 1
      rw [sentinels_append, hnone, hcloses]
      exact le_refl 1
  · cases hput
    refine { h with
      unmarked := fun _ => ⟨hnone, hcloses⟩
      marked := fun hm => by cases hm
      begun := fun _ _ _ _ => hbegun
      ready := fun _ _ => hdrained
      enqueuing := fun i hi => absurd hi (hanswered i)
      unique := fun i _ hi => absurd hi (hanswered i)
      closes := fun ht => ?_ }
    rcases List.mem_cons.mp ht with heq | ht
    · cases heq
    · exact h.closes ht

theorem awaitClose (id : ℕ) (expired : Bool) : Lifecycle (s.awaitClose id expired) := by
  unfold TraceExportDispatcher.awaitClose
  split_ifs
  · exact h.answerCached
  · exact h.answerClose nofun
  · exact h

/-- The worker takes an envelope or the marker. -/
theorem get (hget : s.get = some s') : Lifecycle s' := by
  have honce := h.once
  have hunmarked := h.unmarked
  have henqueuing := h.enqueuing
  unfold TraceExportDispatcher.get at hget
  cases hqueue : s.queue with
  | nil =>
    rw [hqueue] at hget
    cases hget
  | cons item items =>
    rw [hqueue] at hget honce hunmarked henqueuing
    cases item with
    | envelope =>
      cases hget
      exact { h with
        unmarked := hunmarked
        once := honce
        holds := nofun
        enqueuing := henqueuing }
    | sentinel =>
      cases hget
      have hone : sentinels items + 1 + s.history.exporterCloses ≤ 1 := honce
      refine { h with
        unmarked := fun hm => nomatch (hunmarked hm).1
        once := by
          show sentinels items + (s.history.exporterCloses + 1) ≤ 1
          omega
        holds := fun _ => by
          show s.history.exporterCloses + 1 = 1
          omega
        enqueuing := fun i hi => ?_ }
      exact nomatch (henqueuing i hi).2.1

theorem attempt (e : Envelope) : Lifecycle (s.attempt e) :=
  { h with holds := nofun }

theorem sendEnds (hcounts : Counts s) (hworker : s.worker = .sending)
    (outcome : SendOutcome) : Lifecycle (s.sendEnds outcome) := by
  have hnot : ¬ Drained s := by
    intro hd
    have hidle := (hcounts.idle_of_drained hd).1
    rw [hworker] at hidle
    cases hidle
  cases outcome with
  | sent | transportFailed => exact { h with holds := nofun }
  | died =>
    exact { h with
      holds := nofun
      result := fun hr => absurd (h.result hr).1 hnot
      closes := fun hr => absurd (h.closes hr).1 hnot }

theorem finishAttempt (hcounts : Counts s)
    (hworker : s.worker = .finishing dies) : Lifecycle (s.finishAttempt dies) := by
  have hnot : ¬ Drained s := by
    intro hd
    have hidle := (hcounts.idle_of_drained hd).1
    rw [hworker] at hidle
    cases hidle
  exact { h with
    closed := fun hc => absurd (h.closed hc) hnot
    result := fun hr => absurd (h.result hr).1 hnot
    marked := fun hm => absurd (h.marked hm) hnot
    holds := by cases dies <;> nofun
    ready := fun i hi => absurd (h.ready i hi) hnot
    flushes := fun t ht => Nat.le_succ_of_le (h.flushes t ht)
    closes := fun hr => absurd (h.closes hr).1 hnot }

theorem succeeded_of_holds (hcounts : Counts s)
    (hholds : s.worker.holdsMarker = true) (hintact : s.worker.intact = true) : Succeeded s := by
  refine ⟨h.marked ?_, hcounts.whole hintact⟩
  by_contra hfree
  have hone := h.holds hholds
  have hzero := (h.unmarked (by simpa using hfree)).2
  omega

theorem adapterCloseEnds (hworker : s.worker = .closing)
    (outcome : AdapterClose) : Lifecycle (s.adapterCloseEnds outcome) := by
  have hone : s.history.exporterCloses = 1 := h.holds (by rw [hworker]; rfl)
  rcases outcome with (_ | _) | _ | _
  · exact { h with holds := fun _ => hone }
  · exact { h with holds := fun _ => hone }
  · exact { h with holds := fun _ => hone }
  · exact { h with holds := nofun }

theorem finalizeClose (hcounts : Counts s) {ok : Bool}
    (hworker : s.worker = .finalizing ok) : Lifecycle (s.finalizeClose ok) := by
  have hsucceeded : Succeeded s :=
    h.succeeded_of_holds hcounts (by rw [hworker]; rfl) (by rw [hworker]; rfl)
  exact { h with
    running := nofun
    closed := fun _ => hsucceeded.1
    target := fun _ => Or.inl rfl
    result := fun _ => hsucceeded
    holds := nofun }

theorem markWorkerFailed : Lifecycle s.markWorkerFailed := by
  unfold TraceExportDispatcher.markWorkerFailed
  split_ifs
  · exact { h with holds := nofun }
  · exact { h with running := nofun, closed := nofun, holds := nofun }

theorem exit : Lifecycle { s with worker := .dead } :=
  { h with holds := nofun }

end

end Lifecycle

end Lives

section Ledgers

variable {Envelope : Type} {s s' : TraceExportDispatcher Envelope}

/-! ## Runs -/

/-- The accounts between two steps. -/
structure Accounts (s : TraceExportDispatcher Envelope) : Prop where
  /-- accepted envelopes are handed to the exporter once, in the order of their acceptance -/
  order : s.history.accepted = s.history.handed ++ (s.worker.dequeued ++ envelopes s.queue)
  acceptedTotal : s.acceptedTotal = s.history.accepted.length
  attemptedTotal : s.attemptedTotal = s.history.handed.length
  accepted : s.acceptedTotal = s.attemptedTotal + (envelopes s.queue).length +
    s.worker.dequeued.length ∧ s.worker.dequeued.length ≤ 1
  attempted : s.attemptedTotal = s.sentTotal + s.history.transportFailures + s.history.cutOff +
    s.worker.running
  dropped : s.droppedTotal = s.history.refused + s.history.transportFailures + s.history.abandoned
  exporterCloses : s.history.exporterCloses ≤ 1
  flushes : ∀ target, (target, true) ∈ s.history.flushes → target ≤ s.completedAttemptCount
  completed : s.completedAttemptCount ≤ s.sentTotal + s.history.transportFailures +
    s.history.cutOff
  closes : true ∈ s.history.closes →
    s.acceptedTotal = s.sentTotal + s.history.transportFailures ∧
      s.completedAttemptCount = s.acceptedTotal

/-- What one step keeps to. -/
structure Sound (s s' : TraceExportDispatcher Envelope) : Prop where
  accounts : Accounts s'
  /-- nothing is accepted once `close` has begun -/
  refused : s.closeStarted = true → s'.history.accepted = s.history.accepted

def Harmless (s : TraceExportDispatcher Envelope) : Action Envelope → Prop
  | .decideClose _ => s.closeFinalized = false → s.worker.isDead = true → sentinels s.queue = 0
  | _ => True

instance (s : TraceExportDispatcher Envelope) (action : Action Envelope) :
    Decidable (Harmless s action) := by
  cases action <;> unfold Harmless <;> infer_instance

/-- Counts and lifecycle give the accounts. -/
theorem accounts_of (hcounts : Counts s) (h : Lifecycle s) : Accounts s := by
  have haccepted := hcounts.accepted_eq
  have houtcomes := hcounts.outcomes
  have hcompleted := hcounts.completed
  have hone := h.once
  have hwait : s.worker.dequeued.length ≤ 1 := by
    cases s.worker <;> first | exact Nat.zero_le 1 | exact le_refl 1
  have hrunning : s.worker.running ≤ s.worker.unfinished := by
    cases s.worker <;> first | exact Nat.zero_le _ | exact le_refl 1
  refine ⟨hcounts.order, hcounts.accepted, hcounts.attempted, ⟨by omega, hwait⟩, houtcomes,
    hcounts.dropped, by omega, h.flushes, by omega, fun ht => ?_⟩
  obtain ⟨hdrained, hcut⟩ := h.closes ht
  obtain ⟨hunfinished, hdequeued, hqueue⟩ := hcounts.idle_of_drained hdrained
  have hall := hdrained.2
  rw [hdequeued, hqueue] at haccepted
  refine ⟨?_, hall⟩
  simp only [List.length_nil] at haccepted
  omega

/-- Every step keeps the counters and the life of the dispatcher. -/
theorem step_keeps {action : Action Envelope} (hcounts : Counts s) (h : Lifecycle s)
    (hharmless : Harmless s action) (hstep : s.step action = some s') :
    Counts s' ∧ Lifecycle s' := by
  cases action with
  | observe projected =>
    cases hstep
    exact ⟨hcounts.observe projected, h.observe projected⟩
  | flush id =>
    simp only [step] at hstep
    split_ifs at hstep
    cases hstep
    exact ⟨hcounts.flush id, h.flush id⟩
  | checkFlush id expired =>
    simp only [step] at hstep
    split at hstep
    · next target hid =>
      cases hstep
      exact ⟨hcounts.checkFlush id target expired, h.checkFlush id target expired⟩
    · cases hstep
  | close id =>
    simp only [step] at hstep
    split_ifs at hstep
    cases hstep
    refine ⟨hcounts.close id fun hstarted => ?_, h.close id⟩
    have hfree : s.sentinelEnqueued = false := by
      by_contra hmarked
      exact hstarted (h.marked (by simpa using hmarked)).1
    exact (h.unmarked hfree).1
  | checkClose id expired =>
    simp only [step] at hstep
    split_ifs at hstep with hid
    cases hstep
    exact ⟨hcounts.checkClose id expired, h.checkClose hid expired⟩
  | decideClose id =>
    simp only [step] at hstep
    split_ifs at hstep with hid
    cases hstep
    exact ⟨hcounts.decideClose id hharmless, h.decideClose hcounts hid⟩
  | markClose id expired =>
    simp only [step] at hstep
    split_ifs at hstep with hid
    cases hstep
    exact ⟨hcounts.markClose id expired, h.markClose hid expired⟩
  | putSentinel =>
    simp only [step] at hstep
    split_ifs at hstep with hid
    exact ⟨hcounts.putSentinel hstep, h.putSentinel hid hstep⟩
  | awaitClose id expired =>
    simp only [step] at hstep
    split_ifs at hstep with hid
    cases hstep
    exact ⟨hcounts.awaitClose id expired, h.awaitClose id expired⟩
  | get =>
    simp only [step] at hstep
    split at hstep
    · next hworker => exact ⟨hcounts.get hworker hstep, h.get hstep⟩
    · cases hstep
  | attempt =>
    simp only [step] at hstep
    split at hstep
    · next e hworker =>
      cases hstep
      exact ⟨hcounts.attempt hworker, h.attempt e⟩
    · cases hstep
  | sendEnds outcome =>
    simp only [step] at hstep
    split at hstep
    · next hworker =>
      cases hstep
      exact ⟨hcounts.sendEnds hworker outcome, h.sendEnds hcounts hworker outcome⟩
    · cases hstep
  | finishAttempt =>
    simp only [step] at hstep
    split at hstep
    · next dies hworker =>
      cases hstep
      exact ⟨hcounts.finishAttempt hworker, h.finishAttempt hcounts hworker⟩
    · cases hstep
  | adapterCloseEnds outcome =>
    simp only [step] at hstep
    split at hstep
    · next hworker =>
      cases hstep
      exact ⟨hcounts.adapterCloseEnds hworker outcome, h.adapterCloseEnds hworker outcome⟩
    · cases hstep
  | finalizeClose =>
    simp only [step] at hstep
    split at hstep
    · next ok hworker =>
      cases hstep
      have hleft : Counts { s with worker := .exiting } :=
        hcounts.leave (by rw [hworker]; rfl) (by rw [hworker]; rfl) rfl rfl rfl
      exact ⟨hleft.same rfl rfl rfl rfl rfl rfl rfl rfl, h.finalizeClose hcounts hworker⟩
    · cases hstep
  | markWorkerFailed =>
    simp only [step] at hstep
    split at hstep
    · next hworker =>
      cases hstep
      have hleft : Counts { s with worker := .exiting } :=
        hcounts.leave (by rw [hworker]; rfl) (by rw [hworker]; rfl) rfl rfl rfl
      refine ⟨?_, h.markWorkerFailed⟩
      unfold TraceExportDispatcher.markWorkerFailed
      split_ifs
      · exact hleft
      · exact hleft.same rfl rfl rfl rfl rfl rfl rfl rfl
    · cases hstep
  | exit =>
    simp only [step] at hstep
    split at hstep
    · next hworker =>
      cases hstep
      exact ⟨hcounts.leave (by rw [hworker]; rfl) (by rw [hworker]; rfl) rfl rfl rfl, h.exit⟩
    · cases hstep

end Ledgers

section Results

variable {Envelope : Type} {s s' : TraceExportDispatcher Envelope}

/-- No client's step accepts an envelope. -/
theorem clients_accept_nothing (s : TraceExportDispatcher Envelope) (id target : ℕ)
    (expired : Bool) : (s.flush id).history.accepted = s.history.accepted ∧
    (s.checkFlush id target expired).history.accepted = s.history.accepted ∧
    (s.close id).history.accepted = s.history.accepted ∧
    (s.checkClose id expired).history.accepted = s.history.accepted ∧
    (s.decideClose id).history.accepted = s.history.accepted ∧
    (s.markClose id expired).history.accepted = s.history.accepted ∧
    (s.awaitClose id expired).history.accepted = s.history.accepted := by
  refine ⟨?_, ?_, ?_, ?_, ?_, ?_, ?_⟩
  · unfold TraceExportDispatcher.flush
    split_ifs <;> rfl
  · unfold TraceExportDispatcher.checkFlush
    split_ifs <;> rfl
  · unfold TraceExportDispatcher.close
    split_ifs <;> rfl
  · unfold TraceExportDispatcher.checkClose
    split_ifs <;> rfl
  · unfold TraceExportDispatcher.decideClose
    split_ifs <;> rfl
  · unfold TraceExportDispatcher.markClose
    split_ifs <;> rfl
  · unfold TraceExportDispatcher.awaitClose
    split_ifs <;> rfl

theorem putSentinel_accepted {id : ℕ}
    (h : s.putSentinel id expired = some s') : s'.history.accepted = s.history.accepted := by
  unfold TraceExportDispatcher.putSentinel at h
  split_ifs at h
  all_goals
    cases h
    rfl

theorem get_accepted (h : s.get = some s') : s'.history.accepted = s.history.accepted := by
  unfold TraceExportDispatcher.get at h
  split at h
  · cases h
  all_goals
    cases h
    rfl

/-- Once `close` has begun, no step accepts an envelope. -/
theorem step_accepts_nothing {action : Action Envelope} (h : Lifecycle s)
    (hstep : s.step action = some s') (hbegun : s.closeStarted = true) :
    s'.history.accepted = s.history.accepted := by
  cases action with
  | observe projected =>
    cases hstep
    cases projected with
    | none => rfl
    | some =>
      have hstate : s.state ≠ .running := fun hrunning => by
        rw [h.running hrunning] at hbegun
        cases hbegun
      simp only [observeCompletedSpan, if_pos hstate]
      rfl
  | flush id =>
    simp only [step] at hstep
    split_ifs at hstep
    cases hstep
    exact (clients_accept_nothing s id 0 true).1
  | checkFlush id expired =>
    simp only [step] at hstep
    split at hstep
    · next target hid =>
      cases hstep
      exact (clients_accept_nothing s id target expired).2.1
    · cases hstep
  | close id =>
    simp only [step] at hstep
    split_ifs at hstep
    cases hstep
    exact (clients_accept_nothing s id 0 true).2.2.1
  | checkClose id expired =>
    simp only [step] at hstep
    split_ifs at hstep
    cases hstep
    exact (clients_accept_nothing s id 0 expired).2.2.2.1
  | decideClose id =>
    simp only [step] at hstep
    split_ifs at hstep
    cases hstep
    exact (clients_accept_nothing s id 0 true).2.2.2.2.1
  | markClose id expired =>
    simp only [step] at hstep
    split_ifs at hstep
    cases hstep
    exact (clients_accept_nothing s id 0 expired).2.2.2.2.2.1
  | putSentinel =>
    simp only [step] at hstep
    split_ifs at hstep
    exact putSentinel_accepted hstep
  | awaitClose id expired =>
    simp only [step] at hstep
    split_ifs at hstep
    cases hstep
    exact (clients_accept_nothing s id 0 expired).2.2.2.2.2.2
  | get =>
    simp only [step] at hstep
    split at hstep
    · exact get_accepted hstep
    · cases hstep
  | attempt | finishAttempt | finalizeClose | exit =>
    simp only [step] at hstep
    split at hstep
    · cases hstep
      rfl
    · cases hstep
  | sendEnds outcome =>
    simp only [step] at hstep
    split at hstep
    · cases hstep
      cases outcome <;> rfl
    · cases hstep
  | adapterCloseEnds outcome =>
    simp only [step] at hstep
    split at hstep
    · cases hstep
      rcases outcome with (_ | _) | _ | _ <;> rfl
    · cases hstep
  | markWorkerFailed =>
    simp only [step] at hstep
    split at hstep
    · cases hstep
      unfold TraceExportDispatcher.markWorkerFailed
      split_ifs <;> rfl
    · cases hstep

/-- **The accounts balance.**  In every run in which no dispatcher whose worker is dead is finalized
with the marker in its queue, every step leaves the accounts balanced and accepts nothing once
`close` has begun. -/
theorem accounts_sound (queueCapacity : ℕ) {acts : List (Action Envelope)}
    {action : Action Envelope} (hrun : Trace.run step (new queueCapacity) acts = some s)
    (hstep : s.step action = some s')
    (hharmless : Trace.Along step Harmless (new queueCapacity) (acts ++ [action])) :
    Sound s s' := by
  obtain ⟨hbefore, hlast⟩ := (Trace.along_append hrun).mp hharmless
  obtain ⟨hcounts, h⟩ : Counts s ∧ Lifecycle s :=
    Trace.run_keeps (P := fun t => Counts t ∧ Lifecycle t)
      (fun _ _ _ hc ht hi => step_keeps hi.1 hi.2 hc ht) hbefore hrun
      ⟨counts_new queueCapacity, lifecycle_new queueCapacity⟩
  obtain ⟨hcounts', h'⟩ := step_keeps hcounts h hlast.1 hstep
  exact ⟨accounts_of hcounts' h', step_accepts_nothing h hstep⟩

/-- Of two envelopes that are accepted one is sent and one lost, and the dispatcher is closed. -/
def sampleClosing : List (Action ℕ) :=
  [.observe (some 7), .observe (some 8), .get, .attempt, .close 1, .sendEnds .sent, .finishAttempt,
    .get, .attempt, .sendEnds .transportFailed, .finishAttempt, .checkClose 1 false,
    .decideClose 1, .markClose 1 false, .putSentinel 1 false, .get,
    .adapterCloseEnds (.returned true), .finalizeClose]

theorem accounts_sound_sample :
    ∃ s s' : TraceExportDispatcher ℕ, Trace.run step (new 4) sampleClosing = some s ∧
      s.step (.awaitClose 1 false) = some s' ∧ s'.history.closes = [true] ∧ Sound s s' := by
  have hsample : ((Trace.run step (new 4) sampleClosing).bind fun s =>
      (s.step (.awaitClose 1 false)).map fun s' => s'.history.closes) = some [true] := by
    decide +kernel
  obtain ⟨s, hrun, hlast⟩ := Option.bind_eq_some_iff.mp hsample
  obtain ⟨s', hstep, hcloses⟩ := Option.map_eq_some_iff.mp hlast
  have hharmless : Trace.Along step Harmless (new 4)
      (sampleClosing ++ [.awaitClose 1 false]) := by decide +kernel
  exact ⟨s, s', hrun, hstep, hcloses, accounts_sound 4 hrun hstep hharmless⟩

/-- The worker dies in its only attempt; a thread inside `close` sees the attempt completed and the
worker alive, and puts the marker; the next `close` finds the worker dead. -/
def markerLeft : List (Action ℕ) :=
  [.observe (some 7), .get, .attempt, .close 1, .sendEnds .died, .finishAttempt,
    .checkClose 1 false, .decideClose 1, .markClose 1 false, .putSentinel 1 false,
    .markWorkerFailed, .exit,
    .awaitClose 1 true, .close 2, .checkClose 2 false, .decideClose 2]

/-- Nothing was refused, no transport failed and no envelope was left, but one is counted as
dropped. -/
theorem marker_counted : ∃ s : TraceExportDispatcher ℕ, Trace.run step (new 4) markerLeft = some s ∧
      s.droppedTotal ≠ s.history.refused + s.history.transportFailures + s.history.abandoned := by
  have hsample : (Trace.run step (new 4) markerLeft).map (fun s => (s.droppedTotal,
      s.history.refused + s.history.transportFailures + s.history.abandoned)) = some (1, 0) := by
    decide +kernel
  obtain ⟨s, hrun, hcounts⟩ := Option.map_eq_some_iff.mp hsample
  obtain ⟨hdropped, hrest⟩ := Prod.mk.inj hcounts
  refine ⟨s, hrun, ?_⟩
  rw [hdropped, hrest]
  decide

end Results

end TraceExportDispatcher

end LocalAgent.Runtime
