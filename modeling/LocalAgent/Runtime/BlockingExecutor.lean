import LocalAgent.Lib.DateTime
import LocalAgent.Lib.Text
import LocalAgent.Lib.Trace

/-!
# LocalAgent.Runtime.BlockingExecutor — `core/runtime/blocking_executor.py`

A bounded executor of blocking calls.  A submission takes an admission permit, inserts a record,
hands the operation to the thread pool and registers the callback that gives the permit back.  The
thread pool puts the operation into its queue before it may start a thread, so that a submission it
has refused can still run.  The sections of one submission, of its worker, of its callback and of those who wait for it are the
steps of one `Submission`; what they share is the number of free permits and `_accepting`.

* `advance`: one section, as a change of the submission, the permits and the history.
* `step`: a new submission, a section of one of them, or `close_admission`.
* `executor_sound`: permits, records and admissions under way add up to the capacity, every permit
  is given back once, that of an accepted operation not before its future is done, and nothing is
  recorded after the close.
-/

namespace LocalAgent.Runtime

inductive BlockingTaskKind where
  | runtimeStep | planningModel | queryRewrite | embedding | vectorQuery | keywordQuery | rerank
  | documentLoad | contextBuild
  deriving DecidableEq

inductive BlockingTaskState where
  | pending | running
  deriving DecidableEq

/-- `BlockingTaskRecord`; its `task_id` is the number of the submission. -/
structure BlockingTaskRecord where
  kind : BlockingTaskKind
  runId : String
  operationId : String
  state : BlockingTaskState
  submittedAt : DateTime.Utc
  startedAt : Option DateTime.Utc
  detached : Bool
  deriving DecidableEq

structure BlockingTaskWaitState where
  workerTerminated : Bool
  executionDetached : Bool
  backgroundWorkPending : Bool
  deriving DecidableEq

/-- What `submit` and `submit_nowait` raise. -/
inductive BlockingError where
  | nestedSubmission
  | invalidValue
  /-- what `cancellation_check` has raised -/
  | cancelled
  | admissionTimeout
  | closed
  /-- what the `submit` of the thread pool has raised -/
  | refused
  deriving DecidableEq

/-- The state of a `concurrent.futures.Future`. -/
inductive FutureState where
  | pending | running | cancelled | finished
  deriving DecidableEq

def FutureState.isDone : FutureState → Bool
  | .cancelled | .finished => true
  | .pending | .running => false

inductive SubmitPhase where
  | waiting
  /-- `_accepting` was seen, and `acquire` is next -/
  | checked
  | admitted
  | recorded
  /-- the thread pool has raised: the record is out, and the permit is still held -/
  | removed
  /-- the thread pool has it, and the callback is next -/
  | scheduled
  | returned
  | raised (error : BlockingError)
  deriving DecidableEq

/-- A submission: its thread, its entry in `_records`, its future and its waiters. -/
structure Submission where
  nowait : Bool
  kind : BlockingTaskKind
  runId : String
  operationId : String
  phase : SubmitPhase
  record : Option BlockingTaskRecord
  future : FutureState
  /-- the queue of the thread pool has got the operation -/
  pooled : Bool
  /-- the callback has run -/
  completed : Bool
  /-- calls of `cancel_or_detach` between `cancel()` and `done()` -/
  uncancelled : ℕ
  /-- calls of `cancel_or_detach` between `done()` and `_mark_detached` -/
  detaching : ℕ
  /-- what the calls of `cancel_or_detach` have returned -/
  waits : List BlockingTaskWaitState
  deriving DecidableEq

/-- What an observer writes down, with the number of the submission. -/
inductive BlockingEvent where
  | acquired (n : ℕ)
  | recorded (n : ℕ)
  | scheduled (n : ℕ)
  | started (n : ℕ)
  /-- the future is done -/
  | ended (n : ℕ)
  /-- a permit is given back -/
  | released (n : ℕ)
  | closed
  deriving DecidableEq

def BlockingEvent.Justified (before : List BlockingEvent) : BlockingEvent → Prop
  | .acquired n => .acquired n ∉ before
  | .recorded _ => .closed ∉ before
  | .started n => .recorded n ∈ before
  | .released n => .acquired n ∈ before ∧ .released n ∉ before ∧
      (.scheduled n ∈ before → .ended n ∈ before)
  | _ => True

/-- The submission an event is about. -/
def BlockingEvent.number : BlockingEvent → Option ℕ
  | .acquired n | .recorded n | .scheduled n | .started n | .ended n | .released n => some n
  | .closed => none

/-- `max_workers` and `max_pending_tasks`, as `__init__` accepts them. -/
structure BlockingConfig where
  maxWorkers : ℕ
  maxPendingTasks : ℕ
  positive : 0 < maxWorkers

def BlockingConfig.capacity (cfg : BlockingConfig) : ℕ := cfg.maxWorkers + cfg.maxPendingTasks

structure BlockingWorld where
  accepting : Bool
  /-- the value of `_admission` -/
  permits : ℕ
  submissions : List Submission
  history : List BlockingEvent

namespace BlockingExecutor

/-- What a section changes; `permits` is the number of free permits after it. -/
structure Change where
  submission : Submission
  permits : ℕ
  event : Option BlockingEvent

/-! ## `submit` -/

/-- The loop head of `submit`, or the checks of `submit_nowait`; `cancelled` and `expired` are what
`cancellation_check` and `remaining_seconds` answer. -/
def checkAdmission (accepting : Bool) (permits : ℕ) (cancelled expired : Bool) (s : Submission) :
    Option Change :=
  if s.phase = .waiting then
    if cancelled then some ⟨{ s with phase := .raised .cancelled }, permits, none⟩
    else if expired ∧ s.nowait = false then
      some ⟨{ s with phase := .raised .admissionTimeout }, permits, none⟩
    else if accepting = false then some ⟨{ s with phase := .raised .closed }, permits, none⟩
    else some ⟨{ s with phase := .checked }, permits, none⟩
  else none

/-- `_admission.acquire`; a timed wait that fails goes round the loop. -/
def acquire (permits n : ℕ) (s : Submission) : Option Change :=
  if s.phase = .checked then
    if 0 < permits then some ⟨{ s with phase := .admitted }, permits - 1, some (.acquired n)⟩
    else if s.nowait then some ⟨{ s with phase := .raised .admissionTimeout }, permits, none⟩
    else some ⟨{ s with phase := .waiting }, permits, none⟩
  else none

/-- The first locked section of `_submit_admitted`. -/
def insertRecord (accepting : Bool) (permits n : ℕ) (now : DateTime.Utc) (s : Submission) :
    Option Change :=
  if s.phase = .admitted then
    if accepting = false then
      some ⟨{ s with phase := .raised .closed }, permits + 1, some (.released n)⟩
    else
      some ⟨{ s with
        phase := .recorded
        record := some ⟨s.kind, s.runId, s.operationId, .pending, now, none, false⟩ }, permits,
        some (.recorded n)⟩
  else none

/-- `_work_queue.put` of `_executor.submit`, before a thread is started. -/
def enqueue (permits : ℕ) (s : Submission) : Option Change :=
  if s.phase = .recorded then some ⟨{ s with pooled := true }, permits, none⟩ else none

/-- The end of `_executor.submit`; when it raises, before the queue has got the operation or when no
thread can be started, the record is taken out. -/
def schedule (permits n : ℕ) (refused : Bool) (s : Submission) : Option Change :=
  if s.phase = .recorded then
    if refused then some ⟨{ s with phase := .removed, record := none }, permits, none⟩
    else if s.pooled then some ⟨{ s with phase := .scheduled }, permits, some (.scheduled n)⟩
    else none
  else none

/-- The release after the thread pool has raised. -/
def releaseRefused (permits n : ℕ) (s : Submission) : Option Change :=
  if s.phase = .removed then
    some ⟨{ s with phase := .raised .refused }, permits + 1, some (.released n)⟩
  else none

/-- `add_done_callback`, and the return of the handle. -/
def register (permits : ℕ) (s : Submission) : Option Change :=
  if s.phase = .scheduled then some ⟨{ s with phase := .returned }, permits, none⟩ else none

/-! ## The worker -/

/-- A worker takes the operation from the queue; a cancelled future is dropped. -/
def startWork (permits n : ℕ) (s : Submission) : Option Change :=
  if s.pooled = true ∧ s.future = .pending then
    some ⟨{ s with future := .running }, permits, some (.started n)⟩
  else none

/-- The locked section of `_run`. -/
def markRunning (permits : ℕ) (now : DateTime.Utc) (s : Submission) : Option Change :=
  if s.future = .running then
    some ⟨{ s with
      record := s.record.map fun record =>
        { record with state := .running, startedAt := some now } }, permits, none⟩
  else none

/-- The operation has returned or raised. -/
def finishWork (permits n : ℕ) (s : Submission) : Option Change :=
  if s.future = .running then some ⟨{ s with future := .finished }, permits, some (.ended n)⟩
  else none

/-- `_complete`, called by the worker, by the canceller or, when the future was done before, by the
submitter. -/
def complete (permits n : ℕ) (s : Submission) : Option Change :=
  if s.phase = .returned ∧ s.future.isDone = true ∧ s.completed = false then
    match s.record with
    | some _ => some ⟨{ s with record := none, completed := true }, permits + 1, some (.released n)⟩
    | none => some ⟨{ s with completed := true }, permits, none⟩
  else none

/-! ## `cancel_or_detach` -/

def terminated : BlockingTaskWaitState := ⟨true, false, false⟩

/-- `_future.cancel()`; it refuses a future that is running or has finished. -/
def tryCancel (permits n : ℕ) (s : Submission) : Option Change :=
  if s.phase = .returned then
    match s.future with
    | .pending =>
      some ⟨{ s with future := .cancelled, waits := s.waits ++ [terminated] }, permits,
        some (.ended n)⟩
    | .cancelled => some ⟨{ s with waits := s.waits ++ [terminated] }, permits, none⟩
    | .running | .finished => some ⟨{ s with uncancelled := s.uncancelled + 1 }, permits, none⟩
  else none

/-- `_future.done()`. -/
def checkDone (permits : ℕ) (s : Submission) : Option Change :=
  if 0 < s.uncancelled then
    if s.future.isDone then
      some ⟨{ s with
        uncancelled := s.uncancelled - 1
        waits := s.waits ++ [terminated] }, permits, none⟩
    else
      some ⟨{ s with
        uncancelled := s.uncancelled - 1
        detaching := s.detaching + 1 }, permits, none⟩
  else none

def markDetached (permits : ℕ) (s : Submission) : Option Change :=
  if 0 < s.detaching then
    some ⟨{ s with
      detaching := s.detaching - 1
      record := s.record.map fun record => { record with detached := true }
      waits := s.waits ++ [⟨false, true, true⟩] }, permits, none⟩
  else none

/-! ## Steps -/

inductive Section where
  | checkAdmission (cancelled expired : Bool)
  | acquire
  | insertRecord (now : DateTime.Utc)
  | enqueue
  | schedule (refused : Bool)
  | releaseRefused
  | register
  | startWork
  | markRunning (now : DateTime.Utc)
  | finishWork
  | complete
  | tryCancel
  | checkDone
  | markDetached

/-- One section of the submission `n`. -/
def advance (accepting : Bool) (permits n : ℕ) (s : Submission) : Section → Option Change
  | .checkAdmission cancelled expired => checkAdmission accepting permits cancelled expired s
  | .acquire => acquire permits n s
  | .insertRecord now => insertRecord accepting permits n now s
  | .enqueue => enqueue permits s
  | .schedule refused => schedule permits n refused s
  | .releaseRefused => releaseRefused permits n s
  | .register => register permits s
  | .startWork => startWork permits n s
  | .markRunning now => markRunning permits now s
  | .finishWork => finishWork permits n s
  | .complete => complete permits n s
  | .tryCancel => tryCancel permits n s
  | .checkDone => checkDone permits s
  | .markDetached => markDetached permits s

inductive Action where
  /-- `submit` or `submit_nowait`; `nested` when the caller is a worker of this executor -/
  | submit (nowait nested : Bool) (kind : BlockingTaskKind) (runId operationId : String)
  | advance (n : ℕ) (part : Section)
  | closeAdmission

/-- A submission after the checks of its arguments. -/
def enter (nowait nested : Bool) (kind : BlockingTaskKind) (runId operationId : String) :
    Submission where
  nowait := nowait
  kind := kind
  runId := runId
  operationId := operationId
  phase :=
    if nested then .raised .nestedSubmission
    else if Text.isBlank runId = true ∨ Text.isBlank operationId = true then .raised .invalidValue
    else .waiting
  record := none
  future := .pending
  pooled := false
  completed := false
  uncancelled := 0
  detaching := 0
  waits := []

/-- The step function; `none` when the section is not the next one. -/
def step (w : BlockingWorld) : Action → Option BlockingWorld
  | .submit nowait nested kind runId operationId =>
    some { w with
      submissions := w.submissions ++ [enter nowait nested kind runId operationId] }
  | .advance n part =>
    w.submissions[n]?.bind fun s =>
      (advance w.accepting w.permits n s part).map fun change =>
        { w with
          permits := change.permits
          submissions := w.submissions.set n change.submission
          history := w.history ++ change.event.toList }
  | .closeAdmission => some { w with accepting := false, history := w.history ++ [.closed] }

/-- `BoundedBlockingExecutor(...)`. -/
def start (cfg : BlockingConfig) : BlockingWorld := ⟨true, cfg.capacity, [], []⟩

/-! ## One submission -/

def holds (s : Submission) : Bool :=
  decide (s.phase = .admitted) || decide (s.phase = .removed) || s.record.isSome

/-- How the thread, the record and the future of a submission go together. -/
structure Valid (s : Submission) : Prop where
  tracked : s.record.isSome = true ↔ s.phase = .recorded ∨
    (s.phase = .scheduled ∨ s.phase = .returned) ∧ s.completed = false
  completed : s.completed = true → s.phase = .returned ∧ s.future.isDone = true

/-- The permits of the submission `n`: one that was taken has been given back once, or is held. -/
structure Counted (n : ℕ) (history : List BlockingEvent) (s : Submission) : Prop where
  balance : history.count (.acquired n) = history.count (.released n) + (holds s).toNat
  once : history.count (.acquired n) ≤ 1
  fresh : s.phase = .waiting ∨ s.phase = .checked → history.count (.acquired n) = 0

/-- What the history says about the thread and the future of the submission `n`. -/
structure Noted (n : ℕ) (history : List BlockingEvent) (s : Submission) : Prop where
  recorded : s.phase = .recorded ∨ s.pooled = true → .recorded n ∈ history
  scheduled : .scheduled n ∈ history → s.phase = .scheduled ∨ s.phase = .returned
  ended : s.future.isDone = true → .ended n ∈ history

variable {accepting : Bool} {permits n : ℕ} {s s' : Submission} {change : Change}
variable {history : List BlockingEvent} {e : BlockingEvent}

section

variable (h : Counted n history s)
include h

/-- An event that is not about the permits of this submission. -/
theorem Counted.other (hholds : holds s' = holds s)
    (hfresh : s'.phase = .waiting ∨ s'.phase = .checked → s.phase = .waiting ∨ s.phase = .checked)
    (hacquired : e ≠ .acquired n) (hreleased : e ≠ .released n) :
    Counted n (history ++ [e]) s' := by
  have htaken : (history ++ [e]).count (.acquired n) = history.count (.acquired n) := by
    rw [List.count_append, List.count_singleton, beq_eq_false_iff_ne.mpr hacquired]
    rfl
  have hgiven : (history ++ [e]).count (.released n) = history.count (.released n) := by
    rw [List.count_append, List.count_singleton, beq_eq_false_iff_ne.mpr hreleased]
    rfl
  refine ⟨?_, htaken ▸ h.once, fun hphase => ?_⟩
  · rw [htaken, hgiven, hholds]
    exact h.balance
  · rw [htaken]
    exact h.fresh (hfresh hphase)

theorem Counted.same (hholds : holds s' = holds s)
    (hfresh : s'.phase = .waiting ∨ s'.phase = .checked →
      s.phase = .waiting ∨ s.phase = .checked) : Counted n history s' :=
  ⟨hholds ▸ h.balance, h.once, fun hphase => h.fresh (hfresh hphase)⟩

/-- A first permit is taken. -/
theorem Counted.acquired (hfresh : s.phase = .checked)
    (hheld : holds s = false) (hholds : holds s' = true) (hphase : s'.phase = .admitted) :
    Counted n (history ++ [.acquired n]) s' := by
  have hzero := h.fresh (.inr hfresh)
  have hbalance := h.balance
  rw [hheld, hzero] at hbalance
  refine ⟨?_, ?_, fun h => ?_⟩
  · simp only [List.count_append, List.count_singleton, hholds, hzero]
    simp only [beq_self_eq_true, if_true, Bool.toNat_true]
    have : (BlockingEvent.acquired n == .released n) = false := rfl
    simp only [this, Bool.false_eq_true, if_false]
    simp only [Bool.toNat_false] at hbalance
    omega
  · rw [List.count_append, hzero, List.count_singleton, beq_self_eq_true]
    exact le_rfl
  · rw [hphase] at h
    exact absurd h (by decide)

/-- The permit that is held is given back. -/
theorem Counted.released (hheld : holds s = true)
    (hholds : holds s' = false) (hphase : ¬ (s'.phase = .waiting ∨ s'.phase = .checked)) :
    Counted n (history ++ [.released n]) s' := by
  have hbalance := h.balance
  rw [hheld] at hbalance
  have htaken : (history ++ [BlockingEvent.released n]).count (.acquired n) =
      history.count (.acquired n) := by
    rw [List.count_append]
    rfl
  have hgiven : (history ++ [BlockingEvent.released n]).count (.released n) =
      history.count (.released n) + 1 := by
    rw [List.count_append, List.count_singleton, beq_self_eq_true]
    rfl
  refine ⟨?_, htaken ▸ h.once, fun h => absurd h hphase⟩
  rw [htaken, hgiven, hholds, hbalance]
  rfl

/-- A permit that is held may be given back, after the end of a scheduled operation. -/
theorem Counted.justified (hheld : holds s = true)
    (hdone : .scheduled n ∈ history → .ended n ∈ history) :
    BlockingEvent.Justified history (.released n) := by
  have hbalance := h.balance
  have honce := h.once
  rw [hheld, Bool.toNat_true] at hbalance
  refine ⟨List.count_pos_iff.mp (by omega), fun hmem => ?_, hdone⟩
  have := List.count_pos_iff.mpr hmem
  omega

end

/-- What a section does to its submission. -/
structure Moves (accepting : Bool) (permits n : ℕ) (s : Submission) (change : Change) : Prop where
  valid : Valid change.submission
  balance : change.permits + (holds change.submission).toNat = permits + (holds s).toNat
  own : ∀ event ∈ change.event, event.number = some n
  counted : ∀ history, Counted n history s →
    Counted n (history ++ change.event.toList) change.submission
  noted : ∀ history, Noted n history s → Noted n (history ++ change.event.toList) change.submission
  justified : ∀ history, Counted n history s → Noted n history s →
    (.closed ∈ history → accepting = false) →
    ∀ event ∈ change.event, BlockingEvent.Justified history event

/-- A section without an event. -/
theorem Moves.quiet (hvalid : Valid s') (hholds : holds s' = holds s)
    (hfresh : s'.phase = .waiting ∨ s'.phase = .checked → s.phase = .waiting ∨ s.phase = .checked)
    (hrecorded : s'.phase = .recorded ∨ s'.pooled = true → s.phase = .recorded ∨ s.pooled = true)
    (hscheduled : s.phase = .scheduled ∨ s.phase = .returned →
      s'.phase = .scheduled ∨ s'.phase = .returned)
    (hended : s'.future.isDone = true → s.future.isDone = true) :
    Moves accepting permits n s ⟨s', permits, none⟩ where
  valid := hvalid
  balance := by rw [hholds]
  own := nofun
  counted := fun history h => by
    rw [Option.toList_none, List.append_nil]
    exact h.same hholds hfresh
  noted := fun history h => by
    rw [Option.toList_none, List.append_nil]
    exact ⟨fun hp => h.recorded (hrecorded hp), fun hp => hscheduled (h.scheduled hp),
      fun hp => h.ended (hended hp)⟩
  justified := nofun

/-- A section with an event that is neither about permits nor about the thread pool. -/
theorem Moves.event (hvalid : Valid s') (hholds : holds s' = holds s)
    (hphase : s'.phase = .recorded ∨ s'.phase = s.phase) (hown : e.number = some n)
    (hacquired : e ≠ .acquired n) (hreleased : e ≠ .released n) (hscheduled : e ≠ .scheduled n)
    (hkeeps : s.phase = .scheduled ∨ s.phase = .returned →
      s'.phase = .scheduled ∨ s'.phase = .returned)
    (hrecorded : e = .recorded n ∨ s'.phase = s.phase ∧ s'.pooled = s.pooled)
    (hended : s'.future.isDone = true → s.future.isDone = true ∨ e = .ended n)
    (hjust : ∀ history, Counted n history s → Noted n history s →
      (.closed ∈ history → accepting = false) → BlockingEvent.Justified history e) :
    Moves accepting permits n s ⟨s', permits, some e⟩ where
  valid := hvalid
  balance := by rw [hholds]
  own := fun event hevent => Option.some.inj hevent ▸ hown
  counted := fun history h => by
    refine h.other hholds (fun hfresh => ?_) hacquired hreleased
    rcases hphase with hphase | hphase
    · rw [hphase] at hfresh
      exact absurd hfresh (by decide)
    · exact hphase ▸ hfresh
  noted := fun history h => by
    refine ⟨fun hp => ?_, fun hmem => ?_, fun hdone => ?_⟩
    · rcases hrecorded with rfl | ⟨hsame, hpooled⟩
      · exact List.mem_concat_self
      · rw [hsame, hpooled] at hp
        exact List.mem_append_left _ (h.recorded hp)
    · rcases mem_snoc hmem with hmem | hmem
      · exact hkeeps (h.scheduled hmem)
      · exact absurd hmem.symm hscheduled
    · rcases hended hdone with hdone | rfl
      · exact List.mem_append_left _ (h.ended hdone)
      · exact List.mem_concat_self
  justified := fun history hc hn hclosed event hevent =>
    Option.some.inj hevent ▸ hjust history hc hn hclosed

/-- A section that gives the permit back. -/
theorem Moves.release (hvalid : Valid s') (hheld : holds s = true) (hholds : holds s' = false)
    (hfresh : ¬ (s'.phase = .waiting ∨ s'.phase = .checked))
    (hrecorded : s'.phase = .recorded ∨ s'.pooled = true → s.phase = .recorded ∨ s.pooled = true)
    (hkeeps : s.phase = .scheduled ∨ s.phase = .returned →
      s'.phase = .scheduled ∨ s'.phase = .returned)
    (hended : s'.future.isDone = true → s.future.isDone = true)
    (hdone : s.phase = .scheduled ∨ s.phase = .returned → s.future.isDone = true) :
    Moves accepting permits n s ⟨s', permits + 1, some (.released n)⟩ where
  valid := hvalid
  balance := by
    rw [hholds, hheld]
    rfl
  own := fun event hevent => Option.some.inj hevent ▸ rfl
  counted := fun history h => h.released hheld hholds hfresh
  noted := fun history h => by
    refine ⟨fun hp => List.mem_append_left _ (h.recorded (hrecorded hp)), fun hmem => ?_,
      fun hd => List.mem_append_left _ (h.ended (hended hd))⟩
    rcases mem_snoc hmem with hmem | hmem
    · exact hkeeps (h.scheduled hmem)
    · exact nomatch hmem
  justified := fun history hc hn _ event hevent => by
    cases hevent
    exact hc.justified hheld fun hmem => hn.ended (hdone (hn.scheduled hmem))

section

variable (hs : Valid s)
include hs

theorem moves_checkAdmission {cancelled expired : Bool}
    (h : checkAdmission accepting permits cancelled expired s = some change) :
    Moves accepting permits n s change := by
  have hrecord : s.phase = .waiting → s.record = none := fun hphase => by
    simpa [hphase] using hs.tracked
  unfold checkAdmission at h
  split_ifs at h with hphase hcancelled hexpired hclosed
  all_goals
    cases h
    have hnone := hrecord hphase
    obtain ⟨htracked, hcompleted⟩ := hs
    refine .quiet ⟨?_, ?_⟩ ?_ ?_ ?_ ?_ ?_ <;> simp_all [holds]

theorem moves_acquire (h : acquire permits n s = some change) :
    Moves accepting permits n s change := by
  unfold acquire at h
  split_ifs at h with hphase hpermits hnowait
  · cases h
    have hnone : s.record = none := by simpa [hphase] using hs.tracked
    obtain ⟨htracked, hcompleted⟩ := hs
    refine ⟨⟨?_, ?_⟩, ?_, ?_, fun history hc => ?_, fun history hn => ⟨?_, ?_, ?_⟩, ?_⟩
    · simp_all
    · simp_all
    · simp [holds, hphase, hnone]
      omega
    · exact fun event hevent => Option.some.inj hevent ▸ rfl
    · exact hc.acquired hphase (by simp [holds, hphase, hnone]) (by simp [holds]) rfl
    · exact fun hp => List.mem_append_left _ (hn.recorded (hp.imp nofun id))
    · intro hmem
      rcases mem_snoc hmem with hmem | hmem
      · simpa [hphase] using hn.scheduled hmem
      · exact nomatch hmem
    · exact fun hdone => List.mem_append_left _ (hn.ended hdone)
    · intro _ hc _ _ _ hevent
      cases hevent
      exact List.count_eq_zero.mp (hc.fresh (.inr hphase))
  all_goals
    cases h
    have hnone : s.record = none := by simpa [hphase] using hs.tracked
    obtain ⟨htracked, hcompleted⟩ := hs
    refine .quiet ⟨?_, ?_⟩ ?_ ?_ ?_ ?_ ?_ <;> simp_all [holds]

theorem moves_insertRecord {now : DateTime.Utc}
    (h : insertRecord accepting permits n now s = some change) :
    Moves accepting permits n s change := by
  unfold insertRecord at h
  split_ifs at h with hphase hclosed
  · cases h
    have hnone : s.record = none := by simpa [hphase] using hs.tracked
    obtain ⟨htracked, hcompleted⟩ := hs
    refine .release ⟨?_, ?_⟩ ?_ ?_ ?_ ?_ ?_ ?_ ?_ <;> simp_all [holds]
  · cases h
    have hnone : s.record = none := by simpa [hphase] using hs.tracked
    obtain ⟨htracked, hcompleted⟩ := hs
    refine .event ⟨?_, ?_⟩ ?_ (.inl rfl) rfl nofun nofun nofun ?_ (.inl rfl) ?_ ?_
    · simp
    · simp_all
    · simp [holds, hphase]
    · simp [hphase]
    · simp_all
    · exact fun history hc hn hclosing hmem => hclosed (hclosing hmem)

theorem moves_enqueue (h : enqueue permits s = some change) :
    Moves accepting permits n s change := by
  unfold enqueue at h
  split_ifs at h with hphase
  cases h
  obtain ⟨htracked, hcompleted⟩ := hs
  refine .quiet ⟨?_, ?_⟩ ?_ ?_ ?_ ?_ ?_ <;> simp_all [holds]

theorem moves_schedule {refused : Bool}
    (h : schedule permits n refused s = some change) : Moves accepting permits n s change := by
  unfold schedule at h
  split_ifs at h with hphase hrefused hpooled
  · cases h
    have hrecord : s.record.isSome = true := hs.tracked.mpr (.inl hphase)
    obtain ⟨htracked, hcompleted⟩ := hs
    refine .quiet ⟨?_, ?_⟩ ?_ ?_ ?_ ?_ ?_ <;> simp_all [holds]
  · cases h
    have hrecord : s.record.isSome = true := hs.tracked.mpr (.inl hphase)
    obtain ⟨htracked, hcompleted⟩ := hs
    have hholds : holds { s with phase := .scheduled } = holds s := by simp [holds, hrecord]
    refine ⟨⟨?_, ?_⟩, ?_, ?_, fun history hc => ?_, fun history hn => ⟨?_, ?_, ?_⟩, ?_⟩
    · simp_all
    · simp_all
    · rw [hholds]
    · exact fun event hevent => Option.some.inj hevent ▸ rfl
    · exact hc.other hholds (fun hp => absurd hp (by simp)) nofun nofun
    · exact fun _ => List.mem_append_left _ (hn.recorded (.inl hphase))
    · exact fun _ => .inl rfl
    · exact fun hdone => List.mem_append_left _ (hn.ended hdone)
    · exact fun history hc hn _ event hevent => Option.some.inj hevent ▸ trivial

theorem moves_releaseRefused (h : releaseRefused permits n s = some change) :
    Moves accepting permits n s change := by
  unfold releaseRefused at h
  split_ifs at h with hphase
  cases h
  have hnone : s.record = none := by simpa [hphase] using hs.tracked
  obtain ⟨htracked, hcompleted⟩ := hs
  refine .release ⟨?_, ?_⟩ ?_ ?_ ?_ ?_ ?_ ?_ ?_ <;> simp_all [holds]

theorem moves_register (h : register permits s = some change) :
    Moves accepting permits n s change := by
  unfold register at h
  split_ifs at h with hphase
  cases h
  obtain ⟨htracked, hcompleted⟩ := hs
  refine .quiet ⟨?_, ?_⟩ ?_ ?_ ?_ ?_ ?_ <;> simp_all [holds]

theorem moves_startWork (h : startWork permits n s = some change) :
    Moves accepting permits n s change := by
  unfold startWork at h
  split_ifs at h with hphase
  cases h
  have hcompleted : s.completed = false := Bool.eq_false_iff.mpr fun htrue => by
    have := (hs.completed htrue).2
    rw [hphase.2] at this
    cases this
  refine .event ⟨hs.tracked, fun htrue => ?_⟩ rfl (.inr rfl) rfl nofun nofun nofun id
    (.inr ⟨rfl, rfl⟩) ?_ ?_
  · cases hcompleted.symm.trans htrue
  · exact nofun
  · exact fun history hc hn _ => hn.recorded (.inr hphase.1)

theorem moves_finishWork (h : finishWork permits n s = some change) :
    Moves accepting permits n s change := by
  unfold finishWork at h
  split_ifs at h with hrunning
  cases h
  refine .event ⟨hs.tracked, fun htrue => ⟨(hs.completed htrue).1, rfl⟩⟩ rfl
    (.inr rfl) rfl nofun nofun nofun id (.inr ⟨rfl, rfl⟩) (fun _ => .inr rfl) ?_
  exact fun history hc hn _ => trivial

/-- A section that changes neither the phase nor the future. -/
theorem Moves.rewrite (hphase : s'.phase = s.phase) (hpooled : s'.pooled = s.pooled)
    (hrecord : s'.record.isSome = s.record.isSome) (hfuture : s'.future = s.future)
    (hcompleted : s'.completed = s.completed) :
    Moves accepting permits n s ⟨s', permits, none⟩ := by
  refine .quiet ⟨?_, ?_⟩ ?_ ?_ ?_ ?_ ?_
  · rw [hrecord, hphase, hcompleted]
    exact hs.tracked
  · rw [hcompleted, hphase, hfuture]
    exact hs.completed
  · rw [holds, holds, hphase, hrecord]
  · exact fun h => hphase ▸ h
  · rw [hphase, hpooled]
    exact id
  · exact fun h => hphase.symm ▸ h
  · exact fun h => hfuture ▸ h

theorem moves_complete (h : complete permits n s = some change) :
    Moves accepting permits n s change := by
  unfold complete at h
  split_ifs at h with hready
  obtain ⟨hphase, hdone, hcompleted⟩ := hready
  have hrecord : s.record.isSome = true := hs.tracked.mpr (.inr ⟨.inr hphase, hcompleted⟩)
  obtain ⟨_, hsome⟩ := Option.isSome_iff_exists.mp hrecord
  rw [hsome] at h
  cases h
  refine .release ⟨?_, fun _ => ⟨hphase, hdone⟩⟩ ?_ ?_ ?_ id id id fun _ => hdone
  · simp [hphase]
  · simp [holds, hrecord]
  · simp [holds, hphase]
  · simp [hphase]

theorem moves_tryCancel (h : tryCancel permits n s = some change) :
    Moves accepting permits n s change := by
  unfold tryCancel at h
  split_ifs at h with hphase
  split at h
  · next hpending =>
    cases h
    refine .event ⟨hs.tracked, fun htrue => ⟨hphase, rfl⟩⟩ rfl (.inr rfl) rfl
      nofun nofun nofun id (.inr ⟨rfl, rfl⟩) (fun _ => .inr rfl) ?_
    exact fun history hc hn _ => trivial
  all_goals
    cases h
    exact .rewrite hs rfl rfl rfl rfl rfl

/-- One lemma for each section. -/
theorem moves_of_advance {part : Section} (h : advance accepting permits n s part = some change) :
    Moves accepting permits n s change := by
  cases part with
  | checkAdmission => exact moves_checkAdmission hs h
  | acquire => exact moves_acquire hs h
  | insertRecord => exact moves_insertRecord hs h
  | enqueue => exact moves_enqueue hs h
  | schedule => exact moves_schedule hs h
  | releaseRefused => exact moves_releaseRefused hs h
  | register => exact moves_register hs h
  | startWork => exact moves_startWork hs h
  | finishWork => exact moves_finishWork hs h
  | complete => exact moves_complete hs h
  | tryCancel => exact moves_tryCancel hs h
  | markRunning =>
    simp only [advance, markRunning] at h
    split_ifs at h
    cases h
    exact .rewrite hs rfl rfl Option.isSome_map rfl rfl
  | checkDone =>
    simp only [advance, checkDone] at h
    split_ifs at h
    all_goals
      cases h
      exact .rewrite hs rfl rfl rfl rfl rfl
  | markDetached =>
    simp only [advance, markDetached] at h
    split_ifs at h
    cases h
    exact .rewrite hs rfl rfl Option.isSome_map rfl rfl

end

/-! ## Runs -/

variable (cfg : BlockingConfig)
variable {w w' : BlockingWorld}

/-- What holds between any two sections. -/
structure Inv (w : BlockingWorld) : Prop where
  valid : ∀ s ∈ w.submissions, Valid s
  balance : w.permits + w.submissions.countP holds = cfg.capacity
  traced : ∀ n s, w.submissions[n]? = some s → Counted n w.history s ∧ Noted n w.history s
  unused : ∀ n, w.submissions.length ≤ n → ∀ event ∈ w.history, event.number ≠ some n
  closed : .closed ∈ w.history → w.accepting = false
  justified : Trace.EachAfter BlockingEvent.Justified w.history

variable {cfg}

/-- What an event of another submission leaves. -/
theorem traced_other (hc : Counted n history s) (hn : Noted n history s)
    (he : e.number ≠ some n) : Counted n (history ++ [e]) s ∧ Noted n (history ++ [e]) s := by
  refine ⟨hc.other rfl id ?_ ?_, fun hp => List.mem_append_left _ (hn.recorded hp), fun hmem => ?_,
    fun hdone => List.mem_append_left _ (hn.ended hdone)⟩
  · rintro rfl
    exact he rfl
  · rintro rfl
    exact he rfl
  · rcases mem_snoc hmem with hmem | hmem
    · exact hn.scheduled hmem
    · rw [← hmem] at he
      exact absurd rfl he

theorem Inv.submit (hw : Inv cfg w) {nowait nested : Bool} {kind : BlockingTaskKind}
    {runId operationId : String} :
    Inv cfg { w with
      submissions := w.submissions ++ [enter nowait nested kind runId operationId] } := by
  have hphase : (enter nowait nested kind runId operationId).phase = .waiting ∨
      ∃ error, (enter nowait nested kind runId operationId).phase = .raised error := by
    unfold enter
    split_ifs
    · exact .inr ⟨_, rfl⟩
    · exact .inr ⟨_, rfl⟩
    · exact .inl rfl
  have hrecord : (enter nowait nested kind runId operationId).record = none := rfl
  have hholds : holds (enter nowait nested kind runId operationId) = false := by
    rcases hphase with hphase | ⟨error, hphase⟩
    all_goals simp [holds, hphase, hrecord]
  refine ⟨fun s hmem => ?_, ?_, fun n s hs => ?_, fun n hn => ?_, hw.closed, hw.justified⟩
  · rcases mem_snoc hmem with hmem | rfl
    · exact hw.valid s hmem
    · refine ⟨⟨nofun, fun h => ?_⟩, nofun⟩
      rcases hphase with hphase | ⟨error, hphase⟩
      all_goals simp [hphase] at h
  · rw [List.countP_append, List.countP_singleton, hholds]
    exact hw.balance
  · rw [List.getElem?_append] at hs
    split_ifs at hs with hlt
    · exact hw.traced n s hs
    · rw [List.getElem?_singleton] at hs
      split_ifs at hs with hzero
      cases hs
      have hfresh : ∀ event : BlockingEvent, event.number = some n → event ∉ w.history :=
        fun event hnumber hmem => hw.unused n (by omega) event hmem hnumber
      have htaken : w.history.count (.acquired n) = 0 := List.count_eq_zero.mpr (hfresh _ rfl)
      have hgiven : w.history.count (.released n) = 0 := List.count_eq_zero.mpr (hfresh _ rfl)
      refine ⟨⟨?_, ?_, fun _ => htaken⟩, fun h => ?_, fun h => absurd h (hfresh _ rfl), nofun⟩
      · rw [htaken, hgiven, hholds]
        rfl
      · exact htaken.le.trans (Nat.zero_le 1)
      · have hout : (enter nowait nested kind runId operationId).pooled = false := rfl
        rcases hphase with hphase | ⟨_, hphase⟩
        all_goals simp [hphase, hout] at h
  · rw [List.length_append] at hn
    exact hw.unused n (by omega)

/-- A section of one submission keeps what holds between all of them. -/
theorem Inv.moved (hw : Inv cfg w) (hs : w.submissions[n]? = some s)
    (hmoves : Moves w.accepting w.permits n s change) :
    Inv cfg { w with
      permits := change.permits
      submissions := w.submissions.set n change.submission
      history := w.history ++ change.event.toList } := by
  obtain ⟨hcounted, hnoted⟩ := hw.traced n s hs
  have hlt : n < w.submissions.length := (List.getElem?_eq_some_iff.mp hs).1
  refine ⟨fun t ht => ?_, ?_, fun m t ht => ?_, fun m hm event hevent => ?_, fun hmem => ?_, ?_⟩
  · rcases List.mem_or_eq_of_mem_set ht with ht | rfl
    · exact hw.valid t ht
    · exact hmoves.valid
  · have hcount : (w.submissions.set n change.submission).countP holds + (holds s).toNat =
        w.submissions.countP holds + (holds change.submission).toNat := Trace.countP_set_add hs
    have hbalance := hmoves.balance
    have htotal := hw.balance
    show change.permits + (w.submissions.set n change.submission).countP holds = cfg.capacity
    omega
  · rw [List.getElem?_set] at ht
    split_ifs at ht with hmn
    · subst hmn
      cases ht
      exact ⟨hmoves.counted _ hcounted, hmoves.noted _ hnoted⟩
    · obtain ⟨hc, hn⟩ := hw.traced m t ht
      cases hevent : change.event with
      | none =>
        rw [Option.toList_none, List.append_nil]
        exact ⟨hc, hn⟩
      | some event =>
        refine traced_other hc hn fun hnumber => hmn ?_
        exact Option.some.inj ((hmoves.own event hevent).symm.trans hnumber)
  · rw [List.length_set] at hm
    rcases List.mem_append.mp hevent with hevent | hevent
    · exact hw.unused m hm event hevent
    · rw [hmoves.own event (Option.mem_toList.mp hevent)]
      intro heq
      have : n = m := Option.some.inj heq
      omega
  · rcases List.mem_append.mp hmem with hmem | hmem
    · exact hw.closed hmem
    · exact nomatch hmoves.own _ (Option.mem_toList.mp hmem)
  · cases hevent : change.event with
    | none =>
      rw [Option.toList_none, List.append_nil]
      exact hw.justified
    | some event =>
      exact hw.justified.snoc (hmoves.justified _ hcounted hnoted hw.closed event hevent)

theorem Inv.step {action : Action} (hw : Inv cfg w) (h : step w action = some w') : Inv cfg w' := by
  cases action with
  | submit =>
    cases h
    exact hw.submit
  | advance =>
    obtain ⟨s, hs, hmap⟩ := Option.bind_eq_some_iff.mp h
    obtain ⟨_, hchange, rfl⟩ := Option.map_eq_some_iff.mp hmap
    exact hw.moved hs (moves_of_advance (hw.valid s (List.mem_of_getElem? hs)) hchange)
  | closeAdmission =>
    cases h
    refine ⟨hw.valid, hw.balance, fun n s hs => ?_, fun n hn event hevent => ?_, fun _ => rfl,
      hw.justified.snoc trivial⟩
    · obtain ⟨hc, hn⟩ := hw.traced n s hs
      exact traced_other hc hn nofun
    · rcases mem_snoc hevent with hevent | hevent
      · exact hw.unused n hn event hevent
      · rw [hevent]
        exact nofun

theorem Inv.start : Inv cfg (start cfg) where
  valid := fun _ hs => absurd hs List.not_mem_nil
  balance := rfl
  traced := fun _ _ hs => nomatch hs
  unused := fun _ _ _ hevent => absurd hevent List.not_mem_nil
  closed := fun h => absurd h List.not_mem_nil
  justified := Trace.eachAfter_nil

/-- The entries of `_records`. -/
def tracked (w : BlockingWorld) : ℕ := w.submissions.countP fun s => s.record.isSome

/-- The admissions between `acquire` and the insertion of their record. -/
def admitting (w : BlockingWorld) : ℕ := w.submissions.countP fun s => decide (s.phase = .admitted)

/-- The failed admissions between the removal of their record and the release of their permit. -/
def removing (w : BlockingWorld) : ℕ := w.submissions.countP fun s => decide (s.phase = .removed)

/-- A permit is held by an admission, by a failed one or by a record. -/
theorem countP_holds : ∀ {submissions : List Submission}, (∀ s ∈ submissions, Valid s) →
    submissions.countP holds = (submissions.countP fun s => s.record.isSome) +
      (submissions.countP fun s => decide (s.phase = .admitted)) +
      submissions.countP fun s => decide (s.phase = .removed) := by
  intro submissions
  induction submissions with
  | nil => exact fun _ => rfl
  | cons s _ ih =>
    intro hvalid
    obtain ⟨hs, hrest⟩ := List.forall_mem_cons.mp hvalid
    have hone : (if holds s = true then 1 else 0) = (if s.record.isSome = true then 1 else 0) +
        (if decide (s.phase = .admitted) = true then 1 else 0) +
        (if decide (s.phase = .removed) = true then 1 else 0) := by
      have htracked := hs.tracked
      by_cases hadmitted : s.phase = .admitted
      · simp_all [holds]
      · by_cases hremoved : s.phase = .removed
        · simp_all [holds]
        · simp [holds, hadmitted, hremoved]
    simp only [List.countP_cons, ih hrest, hone]
    omega

/-- What holds in every state of an executor. -/
structure Sound (cfg : BlockingConfig) (w : BlockingWorld) : Prop where
  balance : w.permits + tracked w + admitting w + removing w = cfg.capacity
  /-- a permit is taken once, and it is held or was given back once -/
  once : ∀ n s, w.submissions[n]? = some s → w.history.count (.acquired n) ≤ 1 ∧
    w.history.count (.acquired n) = w.history.count (.released n) + (holds s).toNat
  /-- and, when the thread pool has accepted the operation, not before its future is done -/
  released : ∀ before n after, w.history = before ++ .released n :: after →
    .scheduled n ∈ before → .ended n ∈ before
  recorded : ∀ before n after, w.history = before ++ .recorded n :: after → .closed ∉ before
  started : ∀ before n after, w.history = before ++ .started n :: after →
    ∃ earlier later, before = earlier ++ .recorded n :: later ∧ .closed ∉ earlier

/-- Permits, records and admissions add up in every state of every run. -/
theorem executor_sound {acts : List Action} (hrun : Trace.run step (start cfg) acts = some w) :
    Sound cfg w := by
  have hw : Inv cfg w := Trace.run_invariant (fun _ _ _ h hw => hw.step h) hrun .start
  refine ⟨?_, fun n s hs => ?_, fun before n after heq => ?_, fun before n after heq => ?_,
    fun before n after heq => ?_⟩
  · have hbalance := hw.balance
    rw [countP_holds hw.valid] at hbalance
    unfold tracked admitting removing
    omega
  · exact ⟨(hw.traced n s hs).1.once, (hw.traced n s hs).1.balance⟩
  · exact (hw.justified before _ after heq).2.2
  · exact hw.justified before _ after heq
  · obtain ⟨earlier, later, rfl⟩ := List.append_of_mem (hw.justified before _ after heq)
    refine ⟨earlier, later, rfl, ?_⟩
    refine hw.justified earlier (.recorded n) (later ++ .started n :: after) ?_
    rw [heq, List.append_assoc, List.cons_append]

def sampleConfig : BlockingConfig := ⟨1, 1, Nat.one_pos⟩

/-- One submission up to the thread pool. -/
def sampleSubmission (refused : Bool) : List Action :=
  [.submit false false .embedding "run" "operation", .advance 0 (.checkAdmission false false),
    .advance 0 .acquire, .advance 0 (.insertRecord (.epochSecond 0)), .advance 0 .enqueue,
    .advance 0 (.schedule refused)]

/-- It ends after the close and after a detach. -/
def sampleDetached : List Action :=
  sampleSubmission false ++
    [Action.advance 0 .startWork, Action.closeAdmission, Action.advance 0 .register,
      Action.advance 0 .tryCancel,
      Action.advance 0 .checkDone, Action.advance 0 .markDetached, Action.advance 0 .finishWork,
        Action.advance 0 .complete]

theorem executor_sound_sampleDetached :
    ∃ w, Trace.run step (start sampleConfig) sampleDetached = some w ∧
      w.history.count (.released 0) = 1 ∧ w.permits = 2 ∧ Sound sampleConfig w := by
  have hrun : (Trace.run step (start sampleConfig) sampleDetached).any (fun w =>
      decide (w.history.count (.released 0) = 1 ∧ w.permits = 2)) = true := by decide +kernel
  obtain ⟨w, hw, hend⟩ := exists_of_any hrun
  exact ⟨w, hw, hend.1, hend.2, executor_sound hw⟩

/-- After a failed submission the record is out, and its permit is still taken. -/
theorem refused_submission_unbalanced :
    ∃ w, Trace.run step (start sampleConfig) (sampleSubmission true) = some w ∧
      w.permits + tracked w + admitting w ≠ sampleConfig.capacity :=
  ⟨_, rfl, by decide⟩

end BlockingExecutor

end LocalAgent.Runtime
