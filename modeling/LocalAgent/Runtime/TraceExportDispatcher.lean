import LocalAgent.Lib.Dict
import LocalAgent.Lib.Trace

/-!
# LocalAgent.Runtime.TraceExportDispatcher — `core/runtime/trace_export_dispatcher.py`

A bounded queue, one worker thread, and any number of threads that submit, flush and close.  What a
thread does under the condition's lock is one step, and so are `queue.get` and the `queue.put` of
the marker.  Whether a deadline has passed is an input of the step that looks at it; the projection
of a span and the outcomes of the exporter are inputs too.  `History` is what happened, kept beside the
counters the program keeps.
-/

namespace LocalAgent.Runtime

inductive TraceExportDispatcherState where
  | running | closing | closed | failed
  deriving DecidableEq

/-- The state `close` begins with. -/
def TraceExportDispatcherState.beginClose :
    TraceExportDispatcherState → TraceExportDispatcherState
  | .running | .failed => .closing
  | .closing => .closing
  | .closed => .closed

namespace TraceExportDispatcher

variable {Envelope : Type}

/-- What stands in the queue: envelopes and the marker. -/
inductive Item (Envelope : Type) where
  | envelope (envelope : Envelope)
  | sentinel

def envelopes : List (Item Envelope) → List Envelope
  | [] => []
  | .envelope e :: items => e :: envelopes items
  | .sentinel :: items => envelopes items

/-- How many markers are in the queue. -/
def sentinels : List (Item Envelope) → ℕ
  | [] => 0
  | .envelope _ :: items => sentinels items
  | .sentinel :: items => sentinels items + 1

/-- How `exporter.send` ends. -/
inductive SendOutcome where
  | sent
  /-- an `Exception` -/
  | transportFailed
  /-- a `BaseException` that is no `Exception` -/
  | died
  deriving DecidableEq

/-- How `exporter.close` ends. -/
inductive AdapterClose where
  | returned (ok : Bool)
  | raised
  /-- a `BaseException` that is no `Exception` -/
  | died
  deriving DecidableEq

inductive Worker (Envelope : Type) where
  /-- at `queue.get` -/
  | idle
  | got (envelope : Envelope)
  /-- inside `exporter.send` -/
  | sending
  /-- before the `finally` of `_handle_envelope` -/
  | finishing (dies : Bool)
  /-- inside `exporter.close` -/
  | closing
  /-- before the `finally` of `_perform_adapter_close` -/
  | finalizing (ok : Bool)
  /-- before `_mark_worker_failed` -/
  | dying
  | exiting
  /-- not `is_alive()` -/
  | dead

/-- Where a thread inside `flush` or `close` is. -/
inductive Client where
  | flushing (target : ℕ)
  /-- phase A of `close` -/
  | waiting
  | decided
  | ready
  /-- at the `queue.put` of the marker -/
  | enqueuing
  /-- phase C -/
  | awaiting
  | answered
  deriving DecidableEq

/-- What happened so far. -/
structure History (Envelope : Type) where
  accepted : List Envelope
  /-- the envelopes given to `exporter.send`, in order -/
  handed : List Envelope
  refused : ℕ
  transportFailures : ℕ
  cutOff : ℕ
  /-- envelopes in the queue when the dispatcher was finalized without a worker -/
  abandoned : ℕ
  exporterCloses : ℕ
  /-- `accepted_total` at the beginning of a `flush`, and its answer -/
  flushes : List (ℕ × Bool)
  closes : List Bool

end TraceExportDispatcher

open TraceExportDispatcher in
structure TraceExportDispatcher (Envelope : Type) where
  queueCapacity : ℕ
  queue : List (Item Envelope)
  state : TraceExportDispatcherState
  acceptedTotal : ℕ
  attemptedTotal : ℕ
  sentTotal : ℕ
  droppedTotal : ℕ
  failedTotal : ℕ
  flushFailures : ℕ
  closeFailures : ℕ
  completedAttemptCount : ℕ
  closeStarted : Bool
  sentinelEnqueued : Bool
  closeTarget : ℕ
  closeResult : Option Bool
  closeFinalized : Bool
  worker : Worker Envelope
  clients : Dict ℕ Client
  history : History Envelope

namespace TraceExportDispatcher

variable {Envelope : Type}

/-- `__init__`, for a positive capacity. -/
def new (queueCapacity : ℕ) : TraceExportDispatcher Envelope where
  queueCapacity := queueCapacity
  queue := []
  state := .running
  acceptedTotal := 0
  attemptedTotal := 0
  sentTotal := 0
  droppedTotal := 0
  failedTotal := 0
  flushFailures := 0
  closeFailures := 0
  completedAttemptCount := 0
  closeStarted := false
  sentinelEnqueued := false
  closeTarget := 0
  closeResult := none
  closeFinalized := false
  worker := .idle
  clients := Dict.empty
  history := ⟨[], [], 0, 0, 0, 0, 0, [], []⟩

/-! ## Submissions -/

/-- A submission is refused. -/
def refuse (s : TraceExportDispatcher Envelope) : TraceExportDispatcher Envelope :=
  { s with
    droppedTotal := s.droppedTotal + 1
    history := { s.history with refused := s.history.refused + 1 } }

/-- `observe_completed_span`; `none` where the projection fails or the envelope is incompatible. -/
def observeCompletedSpan (s : TraceExportDispatcher Envelope) :
    Option Envelope → TraceExportDispatcher Envelope
  | none => s.refuse
  | some e =>
    if s.state ≠ .running then s.refuse
    else if s.queueCapacity ≤ s.queue.length then s.refuse
    else
      { s with
        queue := s.queue ++ [.envelope e]
        acceptedTotal := s.acceptedTotal + 1
        history := { s.history with accepted := s.history.accepted ++ [e] } }

/-! ## `flush` and `close` -/

def go (s : TraceExportDispatcher Envelope) (id : ℕ) (client : Client) :
    TraceExportDispatcher Envelope :=
  { s with clients := s.clients.set id client }

/-- `flush` answers. -/
def answerFlush (s : TraceExportDispatcher Envelope) (id target : ℕ) (succeeded : Bool) :
    TraceExportDispatcher Envelope :=
  { s with
    flushFailures := if succeeded then s.flushFailures else s.flushFailures + 1
    clients := s.clients.set id .answered
    history := { s.history with flushes := (target, succeeded) :: s.history.flushes } }

/-- `close` answers. -/
def answerClose (s : TraceExportDispatcher Envelope) (id : ℕ) (result : Bool) :
    TraceExportDispatcher Envelope :=
  { s with
    clients := s.clients.set id .answered
    history := { s.history with closes := result :: s.history.closes } }

/-- The beginning of `flush`. -/
def flush (s : TraceExportDispatcher Envelope) (id : ℕ) : TraceExportDispatcher Envelope :=
  if s.state = .closed then s.answerFlush id s.acceptedTotal true
  else s.go id (.flushing s.acceptedTotal)

/-- The loop of `flush`. -/
def checkFlush (s : TraceExportDispatcher Envelope) (id target : ℕ) (expired : Bool) :
    TraceExportDispatcher Envelope :=
  if target ≤ s.completedAttemptCount then s.answerFlush id target true
  else if expired then s.answerFlush id target false else s

def finalizeCloseDeadWorkerLocked (s : TraceExportDispatcher Envelope) :
    TraceExportDispatcher Envelope :=
  { s with
    closeFailures := s.closeFailures + 1
    closeResult := some false
    closeFinalized := true
    droppedTotal := s.droppedTotal + s.queue.length
    history := { s.history with
      abandoned := s.history.abandoned + (envelopes s.queue).length } }

/-- The thread of the worker has ended. -/
def Worker.isDead : Worker Envelope → Bool
  | .dead => true
  | _ => false

/-- The beginning of `close`. -/
def close (s : TraceExportDispatcher Envelope) (id : ℕ) : TraceExportDispatcher Envelope :=
  if s.closeFinalized then s.answerClose id (s.closeResult.getD false)
  else if s.closeStarted then s.go id .waiting
  else if s.state = .failed ∧ s.worker.isDead = true then
    { s with closeStarted := true }.finalizeCloseDeadWorkerLocked.answerClose id false
  else
    { s with
      closeStarted := true
      state := s.state.beginClose
      closeTarget := s.acceptedTotal }.go id .waiting

/-- The loop of phase A. -/
def checkClose (s : TraceExportDispatcher Envelope) (id : ℕ) (expired : Bool) :
    TraceExportDispatcher Envelope :=
  if s.closeFinalized ∨ s.closeTarget ≤ s.completedAttemptCount ∨ s.worker.isDead = true ∨ expired
  then s.go id .decided
  else s

/-- What phase A comes to. -/
def decideClose (s : TraceExportDispatcher Envelope) (id : ℕ) : TraceExportDispatcher Envelope :=
  if s.closeFinalized then s.answerClose id (s.closeResult.getD false)
  else if s.worker.isDead then s.finalizeCloseDeadWorkerLocked.answerClose id false
  else if s.completedAttemptCount < s.closeTarget then s.answerClose id false
  else s.go id .ready

/-- The section of phase B. -/
def markClose (s : TraceExportDispatcher Envelope) (id : ℕ) (expired : Bool) :
    TraceExportDispatcher Envelope :=
  if s.sentinelEnqueued then s.go id .awaiting
  else if expired then s.answerClose id false
  else { s with sentinelEnqueued := true }.go id .enqueuing

/-- The `put` of phase B; `none` while it waits for room. -/
def putSentinel (s : TraceExportDispatcher Envelope) (id : ℕ) (expired : Bool) :
    Option (TraceExportDispatcher Envelope) :=
  if s.queue.length < s.queueCapacity then
    some ({ s with queue := s.queue ++ [Item.sentinel] }.go id .awaiting)
  else if expired then some ({ s with sentinelEnqueued := false }.answerClose id false)
  else none

/-- The loop of phase C. -/
def awaitClose (s : TraceExportDispatcher Envelope) (id : ℕ) (expired : Bool) :
    TraceExportDispatcher Envelope :=
  if s.closeFinalized then s.answerClose id (s.closeResult.getD false)
  else if expired then s.answerClose id false
  else s

/-! ## The worker -/

/-- `queue.get`; with the marker the worker goes into `exporter.close`. -/
def get (s : TraceExportDispatcher Envelope) : Option (TraceExportDispatcher Envelope) :=
  match s.queue with
  | [] => none
  | .envelope e :: items => some { s with queue := items, worker := .got e }
  | .sentinel :: items =>
    some { s with
      queue := items
      worker := .closing
      history := { s.history with exporterCloses := s.history.exporterCloses + 1 } }

/-- The first section of `_handle_envelope`, and the call of `exporter.send`. -/
def attempt (s : TraceExportDispatcher Envelope) (e : Envelope) : TraceExportDispatcher Envelope :=
  { s with
    attemptedTotal := s.attemptedTotal + 1
    worker := .sending
    history := { s.history with handed := s.history.handed ++ [e] } }

/-- `exporter.send` ends, with the section that counts it. -/
def sendEnds (s : TraceExportDispatcher Envelope) : SendOutcome → TraceExportDispatcher Envelope
  | .sent => { s with sentTotal := s.sentTotal + 1, worker := .finishing false }
  | .transportFailed =>
    { s with
      failedTotal := s.failedTotal + 1
      droppedTotal := s.droppedTotal + 1
      worker := .finishing false
      history := { s.history with transportFailures := s.history.transportFailures + 1 } }
  | .died =>
    { s with
      worker := .finishing true
      history := { s.history with cutOff := s.history.cutOff + 1 } }

/-- The `finally` of `_handle_envelope`. -/
def finishAttempt (s : TraceExportDispatcher Envelope) (dies : Bool) :
    TraceExportDispatcher Envelope :=
  { s with
    completedAttemptCount := s.completedAttemptCount + 1
    worker := if dies then .dying else .idle }

/-- `exporter.close` ends; after a `BaseException` the `finally` finds no `ok` and raises. -/
def adapterCloseEnds (s : TraceExportDispatcher Envelope) :
    AdapterClose → TraceExportDispatcher Envelope
  | .returned true => { s with worker := .finalizing true }
  | .returned false | .raised =>
    { s with closeFailures := s.closeFailures + 1, worker := .finalizing false }
  | .died => { s with worker := .dying }

/-- The `finally` of `_perform_adapter_close`. -/
def finalizeClose (s : TraceExportDispatcher Envelope) (ok : Bool) :
    TraceExportDispatcher Envelope :=
  { s with closeResult := some ok, closeFinalized := true, state := .closed, worker := .exiting }

def markWorkerFailed (s : TraceExportDispatcher Envelope) : TraceExportDispatcher Envelope :=
  if s.state = .closed then { s with worker := .exiting }
  else { s with state := .failed, failedTotal := s.failedTotal + 1, worker := .exiting }

/-! ## Steps -/

inductive Action (Envelope : Type) where
  | observe (projected : Option Envelope)
  | flush (id : ℕ)
  | checkFlush (id : ℕ) (expired : Bool)
  | close (id : ℕ)
  | checkClose (id : ℕ) (expired : Bool)
  | decideClose (id : ℕ)
  | markClose (id : ℕ) (expired : Bool)
  | putSentinel (id : ℕ) (expired : Bool)
  | awaitClose (id : ℕ) (expired : Bool)
  | get
  | attempt
  | sendEnds (outcome : SendOutcome)
  | finishAttempt
  | adapterCloseEnds (outcome : AdapterClose)
  | finalizeClose
  | markWorkerFailed
  | exit

/-- One step; `none` where the thread is somewhere else. -/
def step (s : TraceExportDispatcher Envelope) :
    Action Envelope → Option (TraceExportDispatcher Envelope)
  | .observe projected => some (s.observeCompletedSpan projected)
  | .flush id => if s.clients.get? id = none then some (s.flush id) else none
  | .checkFlush id expired =>
    match s.clients.get? id with
    | some (.flushing target) => some (s.checkFlush id target expired)
    | _ => none
  | .close id => if s.clients.get? id = none then some (s.close id) else none
  | .checkClose id expired =>
    if s.clients.get? id = some .waiting then some (s.checkClose id expired) else none
  | .decideClose id =>
    if s.clients.get? id = some .decided then some (s.decideClose id) else none
  | .markClose id expired =>
    if s.clients.get? id = some .ready then some (s.markClose id expired) else none
  | .putSentinel id expired =>
    if s.clients.get? id = some .enqueuing then s.putSentinel id expired else none
  | .awaitClose id expired =>
    if s.clients.get? id = some .awaiting then some (s.awaitClose id expired) else none
  | .get =>
    match s.worker with
    | .idle => s.get
    | _ => none
  | .attempt =>
    match s.worker with
    | .got e => some (s.attempt e)
    | _ => none
  | .sendEnds outcome =>
    match s.worker with
    | .sending => some (s.sendEnds outcome)
    | _ => none
  | .finishAttempt =>
    match s.worker with
    | .finishing dies => some (s.finishAttempt dies)
    | _ => none
  | .adapterCloseEnds outcome =>
    match s.worker with
    | .closing => some (s.adapterCloseEnds outcome)
    | _ => none
  | .finalizeClose =>
    match s.worker with
    | .finalizing ok => some (s.finalizeClose ok)
    | _ => none
  | .markWorkerFailed =>
    match s.worker with
    | .dying => some s.markWorkerFailed
    | _ => none
  | .exit =>
    match s.worker with
    | .exiting => some { s with worker := .dead }
    | _ => none

end TraceExportDispatcher

end LocalAgent.Runtime
