import LocalAgent.Lib.Trace
import LocalAgent.Runtime.JournalLog

/-!
# LocalAgent.Runtime.Channel — `core/runtime/event_channel.py`, `event_emitter.py`

The event channel of one run with everything that works on it: the emitters that publish, the
journal it writes first, the transport consumer and the drain that empty its queue, `close` and
`abort`.  All of them are coroutines of one event loop, so that only an `await` lets another one
run: a step of the model is what one coroutine does between two awaits.

`publish` is a walk through `PublishStage` under the publish lock.  Every stage that awaits may end
in an exception; `Exit` is how a call ended, as far as its caller can tell.  The journal is a
`JournalLog`: its answer and the moment the channel hears of it are two steps, and the answer can
get lost in between.
-/

namespace LocalAgent.Runtime

/-! ## Calls -/

inductive EventChannelState where
  | opened | closing | closed | aborted
  deriving DecidableEq

/-- Who may take entries off the queue. -/
inductive EventChannelConsumerOwner where
  | transport | drain | released | aborted
  deriving DecidableEq

structure ChannelConfig where
  runId : String
  traceId : String
  capacity : ℕ
  capacity_pos : 0 < capacity
  hasJournal : Bool
  hasToken : Bool

/-- The arguments of `RunEventEmitter.emit`, or of `StepEventEmitter.emit` when `stepId` is set. -/
structure EmitRequest where
  eventType : RuntimeEventType
  payload : RuntimeEventPayload
  component : String
  stepId : Option String
  close : Bool
  ignoreRunCancellation : Bool
  atomicMutation : Bool
  spanId : Option String
  parentSpanId : Option String

/-- A call of `publish`: what is emitted, and the sequence its step's emitter gave it. -/
structure PublishCall where
  id : ℕ
  request : EmitRequest
  stepSequence : Option ℕ

/-- The draft that the emitter hands to `publish`. -/
def PublishCall.draft (cfg : ChannelConfig) (call : PublishCall) : RuntimeEventDraft where
  runId := cfg.runId
  traceId := cfg.traceId
  eventType := call.request.eventType
  component := call.request.component
  payload := call.request.payload
  stepId := call.request.stepId
  stepSequence := call.stepSequence
  spanId := call.request.spanId
  parentSpanId := call.request.parentSpanId

/-- How a call of `publish` ended. -/
inductive Exit where
  | returned
  /-- `EventPublicationError` -/
  | publicationError (partiallyPersisted : Bool)
  | journalError (code : JournalErrorCode)
  /-- `EventChannelClosedError` -/
  | channelClosed
  /-- `RunCancelledError` -/
  | runCancelled
  /-- any other exception, the cancellation of the task among them -/
  | failed
  deriving DecidableEq

inductive PublishStage where
  /-- awaits `journal.last_sequence` -/
  | readingWatermark
  /-- the fault point before the append -/
  | beforeAppend (event : RuntimeEvent)
  | appending (event : RuntimeEvent)
  | committed (event : RuntimeEvent) (status : JournalAppendStatus)
  /-- `EVENT_AFTER_JOURNAL_APPEND` -/
  | afterAppend (event : RuntimeEvent)
  | observing (event : RuntimeEvent)
  /-- `client_event_feed.append_event` -/
  | feeding (event : RuntimeEvent)
  /-- `EVENT_BEFORE_CHANNEL_ENQUEUE` -/
  | beforeEnqueue (event : RuntimeEvent)
  /-- `_put_interruptibly` -/
  | putting (event : RuntimeEvent)

inductive Holder where
  | publisher (call : PublishCall) (stage : PublishStage)
  /-- `close`, before and after its end marker is in the queue -/
  | closer (endPut : Bool)
  /-- `capture_journal_watermark`, while it loads the watermark and while it compares it -/
  | capture (loading : Bool)

inductive QueueItem where
  | event (event : RuntimeEvent)
  /-- `_END` -/
  | endOfStream
  deriving DecidableEq

inductive Consumer where
  | absent
  /-- `_RuntimeEventTransportConsumer`, with the number of its reads that await the queue -/
  | lease (active : Bool) (reads : ℕ)
  /-- `drain_to_discard` before it owns the queue -/
  | handoff
  /-- `drain_to_discard` in its loop -/
  | draining (reading : Bool)
  | finished
  deriving DecidableEq

/-- What a reader took off the queue. -/
structure Receipt where
  consumer : ℕ
  item : QueueItem
  deriving DecidableEq

structure StepEventEmitter where
  sequence : ℕ
  closed : Bool
  locked : Bool
  deriving DecidableEq

/-- A channel with its journal, its readers, its emitters and what has happened so far. -/
structure Channel where
  state : EventChannelState
  queue : List QueueItem
  sequence : ℕ
  watermarkLoaded : Bool
  log : List JournalRecord
  tokenCancelled : Bool
  lock : Option Holder
  waiting : List PublishCall
  /-- `close` holds the close lock and awaits the publish lock -/
  closeWaiting : Bool
  endEnqueued : Bool
  owner : EventChannelConsumerOwner
  transportCompleted : Bool
  drainCompleted : Bool
  drainHandoffPending : Bool
  consumers : ℕ → Consumer
  emitters : String → StepEventEmitter
  calls : ℕ
  /-- appends that were interrupted while they were under way; the journal may still commit them -/
  adrift : List RuntimeEvent
  /-- the events whose `publish` returned -/
  published : List RuntimeEvent
  exits : List (PublishCall × Exit)
  received : List Receipt

namespace Channel

def new (cfg : ChannelConfig) (log : List JournalRecord) : Channel where
  state := .opened
  queue := []
  sequence := 0
  watermarkLoaded := !cfg.hasJournal
  log := log
  tokenCancelled := false
  lock := none
  waiting := []
  closeWaiting := false
  endEnqueued := false
  owner := .released
  transportCompleted := false
  drainCompleted := false
  drainHandoffPending := false
  consumers := fun _ => .absent
  emitters := fun _ => ⟨0, false, false⟩
  calls := 0
  adrift := []
  published := []
  exits := []
  received := []

/-! ## Publishing -/

/-- `await journal.last_sequence(run_id) or 0`. -/
def journalWatermark (cfg : ChannelConfig) (log : List JournalRecord) : ℕ :=
  ((JournalLog.ofRun log cfg.runId).map JournalRecord.sequence).max?.getD 0

/-- What the emitter of the call does with its counter when the call ends. -/
def settleEmitter (emitter : StepEventEmitter) (call : PublishCall) (exit : Exit) :
    StepEventEmitter :=
  match exit with
  | .returned => ⟨call.stepSequence.getD 0, emitter.closed || call.request.close, false⟩
  | .publicationError true =>
    { emitter with sequence := call.stepSequence.getD 0, locked := false }
  | _ => { emitter with locked := false }

/-- The end of a call: its emitter settles and unlocks. -/
def settle (s : Channel) (call : PublishCall) (exit : Exit) : Channel :=
  { s with
    exits := s.exits ++ [(call, exit)]
    emitters :=
      match call.request.stepId with
      | none => s.emitters
      | some stepId =>
        Function.update s.emitters stepId (settleEmitter (s.emitters stepId) call exit) }

/-- The holder of the publish lock leaves. -/
def leave (s : Channel) (call : PublishCall) (exit : Exit) : Channel :=
  { s.settle call exit with lock := none }

/-- The holder moves on. -/
def advance (s : Channel) (call : PublishCall) (stage : PublishStage) : Channel :=
  { s with lock := some (.publisher call stage) }

/-- The fresh id and the clock reading of an envelope. -/
structure Stamp where
  eventId : String
  now : DateTime.Utc

/-- Put the draft in order and go to the journal, or past it when there is none. -/
def beginEvent (cfg : ChannelConfig) (s : Channel) (call : PublishCall) (stamp : Stamp) : Channel :=
  match RuntimeEvent.fromDraft (call.draft cfg) (s.sequence + 1) stamp.eventId stamp.now with
  | .error _ => s.leave call .failed
  | .ok event =>
    s.advance call (if cfg.hasJournal then .beforeAppend event else .feeding event)

/-- The call that an emitter makes next: `step_sequence = self._sequence + 1`. -/
def newCall (s : Channel) (request : EmitRequest) : PublishCall where
  id := s.calls
  request := request
  stepSequence := request.stepId.map fun stepId => (s.emitters stepId).sequence + 1

/-- The call ends before it waits for the publish lock. -/
def refuse (s : Channel) (request : EmitRequest) (exit : Exit) : Channel :=
  { s with calls := s.calls + 1, exits := s.exits ++ [(s.newCall request, exit)] }

/-- The call waits for the publish lock, its step's emitter locked. -/
def enqueueCall (s : Channel) (request : EmitRequest) : Channel :=
  { s with
    calls := s.calls + 1
    waiting := s.waiting ++ [s.newCall request]
    emitters :=
      match request.stepId with
      | none => s.emitters
      | some stepId =>
        Function.update s.emitters stepId { s.emitters stepId with locked := true } }

/-- `emit` up to the publish lock: the lock and the guard of the step's emitter, the checks of the
draft, `_ensure_open`. -/
def emit (cfg : ChannelConfig) (s : Channel) (request : EmitRequest) : Option Channel :=
  if request.stepId.any fun stepId => (s.emitters stepId).locked then none
  else if request.stepId.any fun stepId => (s.emitters stepId).closed then
    some (s.refuse request .failed)
  else if ((s.newCall request).draft cfg).postInit ≠ .ok () then some (s.refuse request .failed)
  else if s.state ≠ .opened then some (s.refuse request .channelClosed)
  else some (s.enqueueCall request)

/-- The channel without the waiting call at this place. -/
def dequeueCall (s : Channel) (index : ℕ) : Channel :=
  { s with waiting := s.waiting.eraseIdx index }

/-- A call enters the publish lock: `_ensure_open` again, then `_ensure_watermark_loaded`. -/
def enter (cfg : ChannelConfig) (s : Channel) (call : PublishCall) (stamp : Stamp) : Channel :=
  if s.state ≠ .opened then s.leave call .channelClosed
  else if s.watermarkLoaded then s.beginEvent cfg call stamp
  else { s with watermarkLoaded := true }.advance call .readingWatermark

/-- A waiting call gets the publish lock. -/
def acquire (cfg : ChannelConfig) (s : Channel) (index : ℕ) (stamp : Stamp) : Option Channel :=
  match s.lock, s.waiting[index]? with
  | none, some call => some ((s.dequeueCall index).enter cfg call stamp)
  | _, _ => none

/-- The task of a waiting call is cancelled. -/
def giveUp (s : Channel) (index : ℕ) : Option Channel :=
  match s.waiting[index]? with
  | some call => some ((s.dequeueCall index).settle call .failed)
  | none => none

/-- What happens to the holder of the publish lock. -/
inductive PublisherAction where
  | watermarkRead (stamp : Stamp)
  /-- the stage ends normally -/
  | pass
  | fault
  | journalCommit (now : DateTime.Utc)
  /-- the append raises `JOURNAL_APPEND_FAILED` -/
  | journalFails
  /-- the journal's answer arrives -/
  | acknowledge
  | mutationReturns
  /-- the run is cancelled while an `OUTPUT_DELTA` is appended -/
  | cancelAppend
  /-- the event goes into the queue -/
  | put
  /-- the wait for space ends with the abort of the channel or the cancellation of the run -/
  | stopWaiting
  /-- any other exception at an await -/
  | interrupt

/-- The append is awaited together with the cancellation of the run. -/
def interruptible (cfg : ChannelConfig) (call : PublishCall) : Bool :=
  call.request.eventType = .outputDelta && !call.request.ignoreRunCancellation &&
    !call.request.atomicMutation && cfg.hasToken

def tokenStops (cfg : ChannelConfig) (s : Channel) (call : PublishCall) : Bool :=
  cfg.hasToken && s.tokenCancelled && !call.request.ignoreRunCancellation

def journalDecision (s : Channel) (event : RuntimeEvent) (now : DateTime.Utc) :
    Except JournalErrorCode (JournalAppendStatus × List JournalRecord) :=
  match JournalRecord.fromEvent event now with
  | .error _ => .error .journalAppendFailed
  | .ok record =>
    match JournalLog.append s.log record with
    | .error code => .error code
    | .ok .duplicate => .ok (.duplicate, s.log)
    | .ok .appended => .ok (.appended, s.log ++ [record])

/-- The append reaches the journal. -/
def commit (s : Channel) (call : PublishCall) (event : RuntimeEvent) (now : DateTime.Utc) :
    Channel :=
  match s.journalDecision event now with
  | .error code => s.leave call (.journalError code)
  | .ok (status, log) => { s with log := log }.advance call (.committed event status)

/-- `_put_interruptibly` once the queue has space, and the end of `publish`. -/
def putEvent (cfg : ChannelConfig) (s : Channel) (call : PublishCall) (event : RuntimeEvent) :
    Channel :=
  if s.state = .aborted then s.leave call .channelClosed
  else if s.tokenStops cfg call then s.leave call .runCancelled
  else
    leave { s with
      queue := s.queue ++ [.event event]
      published := s.published ++ [event]
      sequence := if cfg.hasJournal then s.sequence else event.sequence } call .returned

/-- The exception that ends the call here, if the action brings one. -/
def exitOf (cfg : ChannelConfig) (s : Channel) (call : PublishCall) :
    PublisherAction → PublishStage → Option Exit
  | .fault, .beforeAppend _ => some (.publicationError false)
  | .fault, .afterAppend _ => some (.publicationError true)
  | .fault, .beforeEnqueue _ => some (.publicationError cfg.hasJournal)
  | .journalFails, .appending _ => some (.journalError .journalAppendFailed)
  | .journalFails, .committed _ _ => some (.journalError .journalAppendFailed)
  | .cancelAppend, .appending _ =>
    if interruptible cfg call ∧ s.tokenCancelled then some .runCancelled else none
  | .cancelAppend, .committed _ _ =>
    if interruptible cfg call ∧ s.tokenCancelled then some .runCancelled else none
  | .stopWaiting, .putting _ =>
    if s.state = .aborted then some .channelClosed
    else if s.tokenStops cfg call then some .runCancelled
    else none
  | .interrupt, _ => some .failed
  | _, _ => none

/-- The stage after one that has nothing to report. -/
def nextStage : PublishStage → Option PublishStage
  | .beforeAppend event => some (.appending event)
  | .afterAppend event => some (.observing event)
  | .observing event => some (.feeding event)
  | .feeding event => some (.beforeEnqueue event)
  | .beforeEnqueue event => some (.putting event)
  | _ => none

/-- `self._sequence = sequence`, once the journal has answered. -/
def acknowledge (s : Channel) (call : PublishCall) (event : RuntimeEvent) : Channel :=
  { s with sequence := event.sequence }.advance call (.afterAppend event)

/-- A step of the holder of the publish lock that does not raise. -/
def goOn (cfg : ChannelConfig) (s : Channel) (call : PublishCall) :
    PublisherAction → PublishStage → Option Channel
  | .watermarkRead stamp, .readingWatermark =>
    some ({ s with sequence := journalWatermark cfg s.log }.beginEvent cfg call stamp)
  | .pass, stage => (nextStage stage).map (s.advance call)
  | .journalCommit now, .appending event => some (s.commit call event now)
  | .acknowledge, .committed event _ => some (s.acknowledge call event)
  | .mutationReturns, .appending event =>
    if call.request.atomicMutation then some (s.acknowledge call event) else none
  | .put, .putting event =>
    if s.queue.length < cfg.capacity then some (s.putEvent cfg call event) else none
  | _, _ => none

/-- The stage is left by an exception; an append that is under way cannot be taken back. -/
def strand (s : Channel) (stage : PublishStage) : Channel :=
  { s with
    adrift :=
      match stage with
      | .appending event => s.adrift ++ [event]
      | _ => s.adrift }

def publisherStep (cfg : ChannelConfig) (s : Channel) (call : PublishCall)
    (action : PublisherAction) (stage : PublishStage) : Option Channel :=
  match s.exitOf cfg call action stage with
  | some exit => some ((s.strand stage).leave call exit)
  | none => s.goOn cfg call action stage

/-- The journal commits an append whose call has ended: its `COMMIT` was on the way when the task
was cancelled or the connection broke. -/
def lateCommit (s : Channel) (index : ℕ) (now : DateTime.Utc) : Option Channel :=
  match s.adrift[index]? with
  | none => none
  | some event =>
    match s.journalDecision event now with
    | .ok (.appended, log) => some { s with log := log, adrift := s.adrift.eraseIdx index }
    | _ => none

/-! ## The watermark of a checkpoint -/

inductive CaptureAction where
  | start | loaded | finish | interrupt

/-- `capture_journal_watermark`; what it returns or raises leaves no trace in the channel. -/
def captureStep (cfg : ChannelConfig) (s : Channel) : CaptureAction → Option Channel
  | .start =>
    match s.lock with
    | some _ => none
    | none => some { s with watermarkLoaded := true, lock := some (.capture (!s.watermarkLoaded)) }
  | .loaded =>
    match s.lock with
    | some (.capture true) =>
      some { s with sequence := journalWatermark cfg s.log, lock := some (.capture false) }
    | _ => none
  | .finish =>
    match s.lock with
    | some (.capture false) => some { s with lock := none }
    | _ => none
  | .interrupt =>
    match s.lock with
    | some (.capture _) => some { s with lock := none }
    | _ => none

/-! ## Closing -/

inductive LifecycleAction where
  /-- `CancellationSource.cancel` -/
  | cancelRun
  | abort
  /-- `close` up to the publish lock -/
  | close
  /-- `close` gets the publish lock -/
  | closeAcquire
  | endPut
  /-- `close` goes on after its end marker or after an abort -/
  | closeFinish
  /-- the task of `close` is cancelled -/
  | closeInterrupt

/-- `close` is under way. -/
def closeBusy (s : Channel) : Bool :=
  s.closeWaiting ||
    match s.lock with
    | some (.closer _) => true
    | _ => false

/-- `close`, `abort` and the cancellation of the run. -/
def lifecycleStep (cfg : ChannelConfig) (s : Channel) : LifecycleAction → Option Channel
  | .cancelRun => some { s with tokenCancelled := true }
  | .abort =>
    if s.state = .closed ∨ s.state = .aborted then some s
    else
      some { s with
        state := .aborted
        queue := [.endOfStream]
        endEnqueued := true
        owner := .aborted }
  | .close =>
    if s.closeBusy then none
    else if s.state = .closed ∨ s.state = .aborted then some s
    else some { s with state := .closing, closeWaiting := true }
  | .closeAcquire =>
    if s.closeWaiting ∧ s.lock.isNone then
      if s.state = .aborted then some { s with closeWaiting := false }
      else some { s with closeWaiting := false, lock := some (.closer false) }
    else none
  | .endPut =>
    match s.lock with
    | some (.closer false) =>
      if s.queue.length < cfg.capacity then
        some { s with queue := s.queue ++ [.endOfStream], lock := some (.closer true) }
      else none
    | _ => none
  | .closeFinish =>
    match s.lock with
    | some (.closer endPut) =>
      if s.state = .aborted then some { s with lock := none }
      else if endPut then some { s with endEnqueued := true, state := .closed, lock := none }
      else none
    | _ => none
  | .closeInterrupt =>
    if s.closeWaiting then some { s with closeWaiting := false }
    else
      match s.lock with
      | some (.closer _) => some { s with lock := none }
      | _ => none

/-! ## Receiving -/

inductive ConsumerAction where
  /-- `__aiter__` -/
  | attach
  /-- `drain_to_discard` up to its hand-off -/
  | drain
  | handoff
  | handoffFails
  /-- `_before_receive` has passed, the read awaits the queue -/
  | beginReceive
  /-- `_before_receive` or the wait for the queue ends with an exception -/
  | receiveFails
  /-- the read gets the head of the queue -/
  | receive
  | aclose

/-- `_release` and `_release_transport`. -/
def release (s : Channel) (id : ℕ) (reads : ℕ) (active completed : Bool) : Channel :=
  if active then
    { s with
      consumers := Function.update s.consumers id (.lease false reads)
      owner := if s.owner = .transport then .released else s.owner
      transportCompleted := s.transportCompleted || completed }
  else { s with consumers := Function.update s.consumers id (.lease false reads) }

/-- The `finally` of `drain_to_discard`. -/
def endDrain (s : Channel) (id : ℕ) (completed : Bool) : Channel :=
  { s with
    consumers := Function.update s.consumers id .finished
    owner := if s.owner = .drain then .released else s.owner
    drainCompleted := s.drainCompleted || completed }

/-- `__aiter__`: `_claim_consumer(TRANSPORT)` and a new lease. -/
def attach (s : Channel) (id : ℕ) : Channel :=
  if s.state = .aborted then { s with owner := .aborted }
  else if s.drainHandoffPending ∨ s.owner ≠ .released ∨ s.transportCompleted ∨
      s.drainCompleted then s
  else { s with owner := .transport, consumers := Function.update s.consumers id (.lease true 0) }

/-- The guards of `drain_to_discard` and the reservation of the hand-off. -/
def drain (s : Channel) (id : ℕ) : Channel :=
  if s.state = .aborted then { s with owner := .aborted }
  else if s.drainCompleted ∨ s.transportCompleted ∨ s.owner ≠ .released ∨
      s.drainHandoffPending then s
  else
    { s with
      drainHandoffPending := true
      consumers := Function.update s.consumers id .handoff }

/-- The drain takes over. -/
def handoff (s : Channel) (id : ℕ) : Channel :=
  if s.state = .aborted then
    { s with
      owner := .aborted
      drainHandoffPending := false
      consumers := Function.update s.consumers id .finished }
  else if s.owner ≠ .released then
    { s with
      drainHandoffPending := false
      consumers := Function.update s.consumers id .finished }
  else
    { s with
      owner := .drain
      drainHandoffPending := false
      consumers := Function.update s.consumers id (.draining false) }

/-- A lease gets an item: the rest of `__anext__`. -/
def deliver (s : Channel) (id reads : ℕ) (active : Bool) (item : QueueItem) : Channel :=
  match item with
  | .endOfStream =>
    { s.release id reads active (s.state ≠ .aborted) with
      received := s.received ++ [⟨id, .endOfStream⟩] }
  | .event event =>
    if s.state = .aborted then s.release id reads active false
    else
      { s with
        consumers := Function.update s.consumers id (.lease active reads)
        received := s.received ++ [⟨id, .event event⟩] }

/-- The drain gets an item. -/
def discard (s : Channel) (id : ℕ) (item : QueueItem) : Channel :=
  if item = .endOfStream ∨ s.state = .aborted then
    { s.endDrain id true with received := s.received ++ [⟨id, item⟩] }
  else
    { s with
      consumers := Function.update s.consumers id (.draining false)
      received := s.received ++ [⟨id, item⟩] }

/-- A step of the reader `id`. -/
def consumerStep (s : Channel) (id : ℕ) : ConsumerAction → Consumer → Option Channel
  | .attach, .absent => some (s.attach id)
  | .drain, .absent => some (s.drain id)
  | .handoff, .handoff => some (s.handoff id)
  | .handoffFails, .handoff =>
    some { s with
      drainHandoffPending := false
      consumers := Function.update s.consumers id .finished }
  | .beginReceive, .lease true reads =>
    some { s with consumers := Function.update s.consumers id (.lease true (reads + 1)) }
  | .beginReceive, .draining false =>
    some { s with consumers := Function.update s.consumers id (.draining true) }
  | .receiveFails, .lease active reads => some (s.release id (reads - 1) active false)
  | .receiveFails, .draining _ => some (s.endDrain id false)
  | .receive, .lease active (reads + 1) =>
    match s.queue with
    | [] => none
    | item :: rest => some ({ s with queue := rest }.deliver id reads active item)
  | .receive, .draining true =>
    match s.queue with
    | [] => none
    | item :: rest => some ({ s with queue := rest }.discard id item)
  | .aclose, .lease active reads => some (s.release id reads active false)
  | _, _ => none

/-! ## Steps -/

/-- One thing that happens next. -/
inductive Action where
  | emit (request : EmitRequest)
  | acquire (index : ℕ) (stamp : Stamp)
  | giveUp (index : ℕ)
  | publisher (action : PublisherAction)
  | capture (action : CaptureAction)
  | lifecycle (action : LifecycleAction)
  | consumer (id : ℕ) (action : ConsumerAction)
  | lateCommit (index : ℕ) (now : DateTime.Utc)
  /-- another run writes to the journal -/
  | foreignAppend (record : JournalRecord)

/-- The step function; `none` when the action is not possible now. -/
def step (cfg : ChannelConfig) (s : Channel) : Action → Option Channel
  | .emit request => s.emit cfg request
  | .acquire index stamp => s.acquire cfg index stamp
  | .giveUp index => s.giveUp index
  | .publisher action =>
    match s.lock with
    | some (.publisher call stage) => s.publisherStep cfg call action stage
    | _ => none
  | .capture action => s.captureStep cfg action
  | .lifecycle action => s.lifecycleStep cfg action
  | .consumer id action => s.consumerStep id action (s.consumers id)
  | .lateCommit index now => s.lateCommit index now
  | .foreignAppend record =>
    if record.runId ≠ cfg.runId ∧ record.verify = .ok () ∧
        JournalLog.append s.log record = .ok .appended then
      some { s with log := s.log ++ [record] }
    else none

def runSteps (cfg : ChannelConfig) (log : List JournalRecord) (acts : List Action) :
    Option Channel :=
  Trace.run (step cfg) (new cfg log) acts

end Channel

end LocalAgent.Runtime
