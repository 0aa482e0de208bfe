import LocalAgent.Lib.Dict
import LocalAgent.Lib.SlidingWindow
import LocalAgent.Lib.Json
import LocalAgent.Lib.Sha256
import LocalAgent.Lib.Trace

/-!
# LocalAgent.Runtime.Guardian — `core/stage13/guardian.py`

The rows of one guardian scope and the transactions of its workers: a claim of due work, the
preparation of a claimed work, and the finish with what the provider has answered.

* `Guardian.claimDue`, `Guardian.prepare`, `Guardian.finish`: the transactions.
* `Guardian.stop`, `bind`, `observe`, `reconcileDue`, `pollDue`, `resultRetry`, `progress`: the
  parts that the outcomes share, under the source's names.
* `LookupResult`, `CISummary`: answers that the wire models have accepted.
-/

namespace LocalAgent.Runtime

/-! ## Wire contracts -/

inductive RemoteState where
  | queued | running | completed | infraFailed | cancelled
  deriving DecidableEq

/-- `TERMINAL_STATES`. -/
def RemoteState.terminal : RemoteState → Bool
  | completed | infraFailed | cancelled => true
  | queued | running => false

structure SubmitReceipt where
  providerNamespaceId : String
  remoteExecutionBusinessKey : String
  requestDigest : String
  remoteExecutionId : String
  acceptedAt : ℤ
  statusRevision : ℕ
  deriving DecidableEq

structure SealReceipt where
  providerNamespaceId : String
  remoteExecutionBusinessKey : String
  requestDigest : String
  sealedAt : ℤ
  deriving DecidableEq

/-- `LookupResult`; its validator allows a receipt with `FOUND` only, a seal with
`NOT_CREATED_FINAL` only. -/
inductive LookupResult where
  | found (receipt : SubmitReceipt)
  | notCreated
  | notCreatedFinal (sealed : SealReceipt)
  deriving DecidableEq

structure CaseCounts where
  pass : ℕ
  failed : ℕ
  error : ℕ
  skipped : ℕ
  deriving DecidableEq

inductive CaseOutcome where
  | failed | error
  deriving DecidableEq

structure FailureIndex where
  providerCaseId : String
  outcome : CaseOutcome
  deriving DecidableEq

structure PlanFields where
  environmentId : String
  channelGroup : String
  automationProjectId : String
  suiteId : String
  ordinal : ℕ
  productVersion : String
  deriving DecidableEq

/-- `CISummary`; `semantic` is the canonical text of its semantic fields. -/
structure CISummary where
  remoteState : RemoteState
  remoteExecutionId : String
  plan : PlanFields
  statusRevision : ℤ
  resultRevision : ℤ
  resultAvailable : Bool
  caseCounts : Option CaseCounts
  failureIndex : List FailureIndex
  semantic : String
  visibleSemanticDigest : String
  deriving DecidableEq

/-- `EvidencePacket`, with the summary that its content holds. -/
structure EvidencePacket where
  type : String
  ownerScopeId : String
  remoteExecutionId : String
  summary : CISummary
  deriving DecidableEq

/-- What is used of a `SubmitRequest`. -/
structure SubmitRequest where
  providerNamespaceId : String
  ownerScopeId : String
  plan : PlanFields
  deriving DecidableEq

def businessKey (domain : String) (parts : List Json) : String :=
  Sha256.hexdigest (Json.canonical (.arr (.str "stage13.v1" :: .str domain :: parts)))

/-- `hash_offset`: the first eight bytes of the digest as a number. -/
def hashOffset (value : String) (modulus : ℕ) : ℕ :=
  ((Sha256.hexdigest value).toList.take 16).foldl
    (fun n c => 16 * n + (if c.toNat < 58 then c.toNat - 48 else c.toNat - 87)) 0 % modulus

def pollJitter (key : String) (sequence : ℕ) : ℤ :=
  hashOffset (businessKey "poll-jitter" [.str key, .int sequence]) 61 - 30

def reconcileJitter (key : String) (sequence : ℕ) : ℤ :=
  hashOffset (businessKey "reconcile-jitter" [.str key, .int sequence]) 11 - 5

/-! ## Rows -/

inductive CycleStatus where
  | created | ready | running | succeeded | completedWithFailures | failed | unresolved
  | cancelled | skippedOverlap
  deriving DecidableEq

/-- `CYCLE_TERMINAL`. -/
def CycleStatus.terminal : CycleStatus → Bool
  | created | ready | running => false
  | succeeded | completedWithFailures | failed | unresolved | cancelled | skippedOverlap => true

inductive VersionStatus where
  | planned | dispatching | active | completed | infraFailed | dispatchFailed | unresolved
  | cancelled | skipped
  deriving DecidableEq

/-- `VERSION_TERMINAL`. -/
def VersionStatus.terminal : VersionStatus → Bool
  | planned | dispatching | active => false
  | completed | infraFailed | dispatchFailed | unresolved | cancelled | skipped => true

/-- The status that `_stop` gives to the cycle. -/
def VersionStatus.stopped : VersionStatus → CycleStatus
  | unresolved => .unresolved
  | cancelled => .cancelled
  | planned | dispatching | active | completed | infraFailed | dispatchFailed | skipped => .failed

inductive GuardianOperation where
  | dispatchVersion | pollRemote | reconcileRemote | fetchTerminalResult
  deriving DecidableEq

/-- `READ_OPERATIONS`. -/
def GuardianOperation.read : GuardianOperation → Bool
  | dispatchVersion => false
  | pollRemote | reconcileRemote | fetchTerminalResult => true

/-- `CycleRow`, with the environment of its guardian; times are microseconds. -/
structure Cycle where
  cycleId : String
  environment : String
  eligibleAt : ℤ
  deadlineAt : ℤ
  status : CycleStatus
  reason : Option String
  completedAt : Option ℤ
  deriving DecidableEq

/-- `VersionRow`. -/
structure Version where
  versionExecutionId : String
  versionExecutionKey : String
  cycleId : String
  ordinal : ℕ
  expectedCases : ℕ
  request : SubmitRequest
  businessKey : String
  requestDigest : String
  status : VersionStatus := .planned
  reason : Option String := none
  bound : Bool := false
  known : Bool := true
  remoteId : Option String := none
  receipt : Option SubmitReceipt := none
  intentAt : Option ℤ := none
  boundAt : Option ℤ := none
  completedAt : Option ℤ := none
  submitAttempts : ℕ := 0
  reconciliationRequests : ℕ := 0
  reconciliationErrors : ℕ := 0
  unknownEntries : ℕ := 0
  unknownRecoveries : ℕ := 0
  firstUnknownAt : Option ℤ := none
  nextPollAt : Option ℤ := none
  lastPollAt : Option ℤ := none
  lastSuccessfulPollAt : Option ℤ := none
  lastObservedState : Option RemoteState := none
  lastObservedDigest : Option String := none
  lastStatusRevision : ℤ := 0
  lastResultRevision : ℤ := 0
  pollSequence : ℕ := 0
  pollRequests : ℕ := 0
  successfulPolls : ℕ := 0
  consecutivePollErrors : ℕ := 0
  resultRetries : ℕ := 0
  counts : Option CaseCounts := none
  terminalSummary : Option CISummary := none
  deriving DecidableEq

/-- What the key of a due row is made of; the database keeps it unique. -/
structure WorkKey where
  versionId : String
  operation : GuardianOperation
  sequence : ℕ
  deriving DecidableEq

inductive WorkState where
  | ready | claimed | completed
  deriving DecidableEq

/-- `DueRow`. -/
structure DueWork where
  eligibleAt : ℤ
  originalDueAt : ℤ
  nextAvailableAt : ℤ
  state : WorkState := .ready
  claimToken : Option String := none
  claimEpoch : ℕ := 0
  claimedAt : Option ℤ := none
  leaseUntil : Option ℤ := none
  startedAt : Option ℤ := none
  businessStartedAt : Option ℤ := none
  completedAt : Option ℤ := none
  takeovers : ℕ := 0
  error : Option String := none
  /-- for the observer: the operation that was prepared under the present claim -/
  prepared : Option GuardianOperation := none
  deriving DecidableEq

/-- A row that waits from `due` on. -/
def DueWork.new (eligibleAt due : ℤ) : DueWork where
  eligibleAt := eligibleAt
  originalDueAt := due
  nextAvailableAt := due

/-- `OccupancyRow`. -/
structure Occupancy where
  cycleId : Option String
  safetyHold : Bool
  holdAcquiredAt : Option ℤ
  deriving DecidableEq

structure WorkClaim where
  workKey : WorkKey
  token : String
  epoch : ℕ
  versionId : String
  deriving DecidableEq

inductive PreparedPayload where
  | submit (request : SubmitRequest)
  | lookup (businessKey requestDigest : String)
  | remote (businessKey requestDigest : String) (remoteId : Option String)
  deriving DecidableEq

/-- `PreparedWork`; a read is identified with its claim. -/
structure PreparedWork where
  claim : WorkClaim
  operation : GuardianOperation
  payload : PreparedPayload
  identityEpoch : Option ℕ
  deriving DecidableEq

structure Guardian where
  scope : String
  submitStarts : List ℤ
  readStarts : List ℤ
  staleWritesRejected : ℕ
  cycles : Dict String Cycle
  versions : Dict String Version
  due : Dict WorkKey DueWork
  occupancies : Dict String Occupancy

/-- `lease_until > db_now`. -/
def leaseLive (leaseUntil : Option ℤ) (dbNow : ℤ) : Bool :=
  match leaseUntil with
  | none => false
  | some lease => dbNow < lease

/-- `lease_until <= db_now`. -/
def leaseOver (leaseUntil : Option ℤ) (dbNow : ℤ) : Bool :=
  match leaseUntil with
  | none => false
  | some lease => lease ≤ dbNow

/-- What ends a transaction without a commit. -/
inductive GuardianError where
  | staleClaim
  | raised (error : String)
  deriving DecidableEq

def second : ℤ := 1000000

namespace Version

/-- `_unknown`. -/
def markUnknown (version : Version) (since : ℤ) : Version :=
  { version with
    unknownEntries := version.unknownEntries + (if version.known then 1 else 0)
    known := false
    firstUnknownAt := some (version.firstUnknownAt.getD since) }

/-- `_known`. -/
def markKnown (version : Version) : Version :=
  { version with
    unknownRecoveries := version.unknownRecoveries + (if version.known then 0 else 1)
    known := true }

/-- The binding that `_bind` writes. -/
def bindTo (version : Version) (receipt : SubmitReceipt) (now : ℤ) : Version :=
  markKnown { version with
    remoteId := some receipt.remoteExecutionId
    receipt := some receipt
    bound := true
    status := .active
    boundAt := some (version.boundAt.getD now) }

/-- What `_observe` writes of every summary. -/
def seen (version : Version) (polled : Bool) (summary : CISummary) (now : ℤ) : Version :=
  markKnown { version with
    successfulPolls := version.successfulPolls + (if polled then 1 else 0)
    lastSuccessfulPollAt := some now
    consecutivePollErrors := 0
    lastObservedState := some summary.remoteState
    lastObservedDigest := some summary.visibleSemanticDigest
    lastStatusRevision := summary.statusRevision
    lastResultRevision := summary.resultRevision }

def unknownExpired (version : Version) (cycle : Cycle) (now : ℤ) : Bool :=
  60 ≤ version.reconciliationRequests || cycle.deadlineAt ≤ now ||
    (match version.firstUnknownAt with
      | none => false
      | some first => first + 1800 * second ≤ now)

/-- The seconds to the next lookup. -/
def reconcileDelay (version : Version) : ℤ :=
  if version.reconciliationErrors = 0 then
    30 + reconcileJitter version.versionExecutionKey version.reconciliationRequests
  else [30, 60, 120, 300].getD (min (version.reconciliationErrors - 1) 3) 0

/-- The seconds to the next submit; the index is `min(submit_attempts - 1, 1)`. -/
def redispatchDelay (version : Version) : ℤ := if version.submitAttempts = 1 then 30 else 120

/-- The remote execution is known to have ended. -/
def terminalKnown (version : Version) : Bool :=
  match version.lastObservedState with
  | none => false
  | some state => state.terminal

/-- The identity that `_check_receipt` asks for. -/
def agrees (version : Version) (providerNamespaceId businessKey requestDigest : String) : Bool :=
  providerNamespaceId = version.request.providerNamespaceId && businessKey = version.businessKey &&
    requestDigest = version.requestDigest

/-- `_check_receipt` of a submit receipt. -/
def checkSubmit (version : Version) (receipt : SubmitReceipt) : Bool :=
  version.agrees receipt.providerNamespaceId receipt.remoteExecutionBusinessKey
    receipt.requestDigest &&
  (version.receipt = none || version.receipt = some receipt)

/-- `_check_receipt` of a seal. -/
def checkSeal (version : Version) (sealed : SealReceipt) : Bool :=
  version.agrees sealed.providerNamespaceId sealed.remoteExecutionBusinessKey
    sealed.requestDigest

/-- `_summary`, which raises when it is false. -/
def checkSummary (version : Version) (packet : EvidencePacket) : Bool :=
  packet.ownerScopeId = version.request.ownerScopeId &&
  some packet.remoteExecutionId = version.remoteId && packet.type = "CI_SUMMARY" &&
  packet.summary.plan = version.request.plan &&
  some packet.summary.remoteExecutionId = version.remoteId &&
  version.lastStatusRevision ≤ packet.summary.statusRevision &&
  version.lastResultRevision ≤ packet.summary.resultRevision &&
  (!version.terminalKnown || version.lastObservedState = some packet.summary.remoteState) &&
  Sha256.hexdigest packet.summary.semantic = packet.summary.visibleSemanticDigest

end Version

/-- The check of a completed summary before its version is completed. -/
def CISummary.valid (summary : CISummary) (expectedCases : ℕ) : Bool :=
  match summary.caseCounts with
  | none => false
  | some counts =>
    summary.resultAvailable && 1 ≤ summary.resultRevision &&
    counts.pass + counts.failed + counts.error + counts.skipped = expectedCases &&
    summary.failureIndex.length = counts.failed + counts.error &&
    (summary.failureIndex.map FailureIndex.providerCaseId).dedup.length =
      summary.failureIndex.length &&
    summary.failureIndex.countP (fun f => f.outcome = .failed) = counts.failed

namespace Guardian

/-! ## Parts of the transactions -/

def setVersion (s : Guardian) (version : Version) : Guardian :=
  { s with versions := s.versions.set version.versionExecutionId version }

def setCycle (s : Guardian) (cycle : Cycle) : Guardian :=
  { s with cycles := s.cycles.set cycle.cycleId cycle }

/-- `_due`. -/
def dueWork (s : Guardian) (cycle : Cycle) (version : Version) (operation : GuardianOperation)
    (sequence : ℕ) (due : ℤ) : Guardian :=
  let key : WorkKey := ⟨version.versionExecutionId, operation, sequence⟩
  if key ∈ s.due.keys then s
  else { s with due := s.due.set key (.new cycle.eligibleAt due) }

/-- What `_stop` does to the occupancy of the cycle's environment. -/
def stopOccupancy (cycle : Cycle) (hold : Bool) (now : ℤ) (occupancy : Occupancy) : Occupancy :=
  if hold then
    { occupancy with
      safetyHold := true
      holdAcquiredAt := some (occupancy.holdAcquiredAt.getD now) }
  else if occupancy.cycleId = some cycle.cycleId then { occupancy with cycleId := none }
  else occupancy

def skipPlanned (cycle : Cycle) (reason : String) (now : ℤ) (version : Version) : Version :=
  if version.cycleId = cycle.cycleId ∧ version.status = .planned then
    { version with status := .skipped, reason := some reason, completedAt := some now }
  else version

def mapOccupancy (s : Guardian) (cycle : Cycle) (f : Occupancy → Occupancy) : Guardian :=
  match s.occupancies.get? cycle.environment with
  | none => s
  | some occupancy =>
    { s with occupancies := s.occupancies.set cycle.environment (f occupancy) }

/-- The rows of the cycle and its versions after `_stop`. -/
def stopRows (s : Guardian) (cycle : Cycle) (version : Version) (status : VersionStatus)
    (reason : String) (now : ℤ) : Guardian :=
  let s := s.setVersion
    { version with status := status, reason := some reason, completedAt := some now }
  let s := s.setCycle
    { cycle with status := status.stopped, reason := some reason, completedAt := some now }
  { s with versions := s.versions.mapValues (skipPlanned cycle reason now) }

def stop (s : Guardian) (cycle : Cycle) (version : Version) (status : VersionStatus)
    (reason : String) (now : ℤ) (hold : Bool) : Guardian :=
  (s.stopRows cycle version status reason now).mapOccupancy cycle (stopOccupancy cycle hold now)

def release (s : Guardian) (cycle : Cycle) : Guardian :=
  s.mapOccupancy cycle fun occupancy =>
    if occupancy.cycleId = some cycle.cycleId ∧ occupancy.safetyHold = false then
      { occupancy with cycleId := none }
    else occupancy

def reconcileDue (s : Guardian) (cycle : Cycle) (version : Version) (now : ℤ) :
    Except GuardianError Guardian :=
  if version.unknownExpired cycle now then
    .ok (s.stop cycle version .unresolved "RECONCILIATION_DEADLINE" now true)
  else
    match version.firstUnknownAt with
    | none => .error (.raised "TypeError")
    | some first =>
      .ok ((s.setVersion version).dueWork cycle version .reconcileRemote
        version.reconciliationRequests
        (min (now + version.reconcileDelay * second)
          (min cycle.deadlineAt (first + 1800 * second))))

def pollDue (s : Guardian) (cycle : Cycle) (version : Version) (now : ℤ) (backoff : Bool) :
    Guardian :=
  let sequence := version.pollSequence + 1
  let delay : ℤ :=
    if backoff then [30, 60, 120, 300].getD (min (version.consecutivePollErrors - 1) 3) 0
    else 300 + pollJitter version.versionExecutionKey sequence
  let next := min (now + delay * second) cycle.deadlineAt
  let version := { version with pollSequence := sequence, nextPollAt := some next }
  (s.setVersion version).dueWork cycle version .pollRemote sequence next

def resultRetry (s : Guardian) (cycle : Cycle) (version : Version) (now : ℤ) : Guardian :=
  if 3 ≤ version.resultRetries ∨ cycle.deadlineAt ≤ now then
    s.stop cycle version .infraFailed "RESULT_COLLECTION_FAILED" now false
  else
    let delay : ℤ := [30, 120, 300].getD version.resultRetries 0
    let version := { version with resultRetries := version.resultRetries + 1 }
    (s.setVersion version).dueWork cycle version .fetchTerminalResult version.resultRetries
      (min (now + delay * second) cycle.deadlineAt)

/-- `_bind`, after `_check_receipt`; the remote id is unique among the versions. -/
def bind (s : Guardian) (cycle : Cycle) (version : Version) (receipt : SubmitReceipt) (now : ℤ) :
    Except GuardianError Guardian :=
  if version.remoteId ≠ none ∧ version.remoteId ≠ some receipt.remoteExecutionId then
    .ok (s.stop cycle version .unresolved "PROVIDER_IDENTITY_CONFLICT" now true)
  else if s.versions.entries.any fun e =>
      e.1 ≠ version.versionExecutionId ∧ e.2.remoteId = some receipt.remoteExecutionId then
    .error (.raised "IntegrityError")
  else
    let version := version.bindTo receipt now
    if version.lastObservedState = some .completed then
      .ok ((s.setVersion version).dueWork cycle version .fetchTerminalResult
        version.resultRetries now)
    else .ok (s.pollDue cycle version now false)

def versionsOf (s : Guardian) (cycle : Cycle) : List Version :=
  s.versions.values.filter fun v => v.cycleId = cycle.cycleId

/-- `_progress` after `version` was completed. -/
def progress (s : Guardian) (cycle : Cycle) (version : Version) (now : ℤ) :
    Except GuardianError Guardian :=
  if version.ordinal < 3 then
    match (s.versionsOf cycle).find? fun v => v.ordinal = version.ordinal + 1 with
    | none => .error (.raised "NoResultFound")
    | some successor =>
      if successor.status = .planned then
        .ok (s.dueWork cycle successor .dispatchVersion 0 (version.completedAt.getD now))
      else .ok s
  else if (s.versionsOf cycle).all fun v => v.status = .completed then
    let failures := (s.versionsOf cycle).any fun v =>
      match v.counts with
      | none => false
      | some counts => counts.failed ≠ 0 ∨ counts.error ≠ 0
    let cycle := { cycle with
      status := if failures then .completedWithFailures else .succeeded
      completedAt := some now }
    .ok ((s.setCycle cycle).release cycle)
  else .error (.raised "SERIAL_PROGRESSION_CONFLICT")

/-- `_observe`, with the row of the work that has read the summary. -/
def observe (s : Guardian) (cycle : Cycle) (version : Version) (key : WorkKey)
    (summary : CISummary) (now : ℤ) : Except GuardianError Guardian :=
  let version := version.seen (key.operation = .pollRemote) summary now
  match summary.remoteState with
  | .completed =>
    if summary.valid version.expectedCases then
      let version := { version with
        status := .completed
        completedAt := some now
        counts := summary.caseCounts
        terminalSummary := some summary }
      (s.setVersion version).progress cycle version now
    else .ok (s.resultRetry cycle version now)
  | .infraFailed =>
    .ok (s.stop cycle version .infraFailed "REMOTE_INFRA_FAILED" now false)
  | .cancelled => .ok (s.stop cycle version .cancelled "REMOTE_CANCELLED" now false)
  | .queued | .running => .ok (s.pollDue cycle version now false)

/-- A poll that has brought nothing: again later, or the version becomes unknown. -/
def pollFailed (s : Guardian) (cycle : Cycle) (version : Version) (now : ℤ) :
    Except GuardianError Guardian :=
  let version :=
    { version with consecutivePollErrors := version.consecutivePollErrors + 1 }
  match version.lastSuccessfulPollAt.or version.boundAt with
  | none => .error (.raised "TypeError")
  | some last =>
    if last + 900 * second ≤ now then
      s.reconcileDue cycle (version.markUnknown (last + 900 * second)) now
    else .ok (s.pollDue cycle version now true)

/-! ## Claims -/

/-- The conditions of `claim_due` on a row. -/
def claimable (work : DueWork) (dbNow now : ℤ) : Bool :=
  work.completedAt = none && work.nextAvailableAt ≤ now &&
    (work.state = .ready ||
      (work.state = .claimed &&
        leaseOver work.leaseUntil dbNow))

/-- The row that a claim leaves. -/
def claimed (work : DueWork) (token : String) (dbNow : ℤ) : DueWork :=
  { work with
    takeovers := work.takeovers + (if work.state = .claimed then 1 else 0)
    state := .claimed
    claimToken := some token
    claimEpoch := work.claimEpoch + 1
    claimedAt := some dbNow
    leaseUntil := some (dbNow + 30 * second)
    prepared := none }

/-- `claim_due`, on the rows that it has locked, with a fresh token for each. -/
def claimDue (s : Guardian) (dbNow now : ℤ) : List (WorkKey × String) → Guardian × List WorkClaim
  | [] => (s, [])
  | (key, token) :: rows =>
    match s.due.get? key with
    | none => s.claimDue dbNow now rows
    | some work =>
      if claimable work dbNow now then
        let s' := { s with due := s.due.set key (claimed work token dbNow) }
        let (s'', claims) := s'.claimDue dbNow now rows
        (s'', ⟨key, token, work.claimEpoch + 1, key.versionId⟩ :: claims)
      else s.claimDue dbNow now rows

def holds (work : DueWork) (claim : WorkClaim) (dbNow : ℤ) : Bool :=
  work.state = .claimed && work.claimToken = some claim.token && work.claimEpoch = claim.epoch &&
    claim.versionId = claim.workKey.versionId &&
    leaseLive work.leaseUntil dbNow

def locked (s : Guardian) (dbNow : ℤ) (claim : WorkClaim) :
    Except GuardianError (DueWork × Cycle × Version) :=
  match s.due.get? claim.workKey with
  | none => .error .staleClaim
  | some work =>
    if holds work claim dbNow then
      match s.versions.get? claim.versionId with
      | none => .error (.raised "NoResultFound")
      | some version =>
        match s.cycles.get? version.cycleId with
        | none => .error (.raised "NoResultFound")
        | some cycle => .ok (work, cycle, version)
    else .error .staleClaim

/-- `work.state, work.completed_at = "COMPLETED", db_now`. -/
def complete (s : Guardian) (key : WorkKey) (work : DueWork) (dbNow : ℤ) : Guardian :=
  { s with due := s.due.set key { work with state := .completed, completedAt := some dbNow } }

/-! ## Preparation -/

def operationOf (key : WorkKey) (work : DueWork) (version : Version) (now : ℤ) :
    GuardianOperation × Version :=
  -- a dispatch that was started before may have reached the provider
  let reclaimed := key.operation = .dispatchVersion ∧ work.startedAt ≠ none
  let version := if reclaimed then version.markUnknown (version.intentAt.getD now) else version
  if reclaimed ∨ version.known = false then (.reconcileRemote, version)
  else (key.operation, version)

/-- `read_busy` of a row, by what is known of its version. -/
def readBusy (s : Guardian) (key : WorkKey) : Bool :=
  key.operation.read ||
    (key.operation = .dispatchVersion &&
      match s.versions.get? key.versionId with
      | none => false
      | some version => version.known = false)

/-- `submit_busy` of a row. -/
def submitBusy (s : Guardian) (key : WorkKey) : Bool :=
  key.operation = .dispatchVersion &&
    match s.versions.get? key.versionId with
    | none => false
    | some version => version.known

/-- The row was started and its lease is live. -/
def busyRow (work : DueWork) (dbNow : ℤ) : Bool :=
  work.state = .claimed && work.startedAt ≠ none &&
    leaseLive work.leaseUntil dbNow

/-- The rows, other than `own`, that count against the limit of the lane. -/
def busy (s : Guardian) (dbNow : ℤ) (own : WorkKey) (isSubmit : Bool) : ℕ :=
  s.due.countBy fun key work => busyRow work dbNow && key ≠ own &&
    (if isSubmit then s.submitBusy key else s.readBusy key)

/-- A work that is not admitted is available again after a second. -/
def requeue (s : Guardian) (key : WorkKey) (work : DueWork) (now : ℤ) : Guardian :=
  { s with due := s.due.set key { work with
      state := .ready
      claimToken := none
      leaseUntil := none
      nextAvailableAt := now + second
      prepared := none } }

/-- The starts of the last second. -/
def recent (starts : List ℤ) (now : ℤ) : List ℤ := SlidingWindow.recent second starts now

/-- `work.started_at, work.business_started_at = db_now, now`. -/
def start (s : Guardian) (key : WorkKey) (work : DueWork) (operation : GuardianOperation)
    (dbNow now : ℤ) : Guardian :=
  { s with due := s.due.set key { work with
      startedAt := some dbNow
      businessStartedAt := some now
      prepared := some operation } }

/-- The admission of a submit request. -/
def admitSubmit (s : Guardian) (dbNow now : ℤ) (claim : WorkClaim) (work : DueWork) (cycle : Cycle)
    (version : Version) : Guardian × Option PreparedWork :=
  let starts := recent s.submitStarts now
  if 10 ≤ starts.length ∨ 10 ≤ s.busy dbNow claim.workKey true then
    (s.requeue claim.workKey work now, none)
  else
    let s := { s with submitStarts := starts ++ [now] }
    if 3 ≤ version.submitAttempts then
      ((s.stop cycle version .dispatchFailed "DISPATCH_BUDGET_EXHAUSTED" now false).complete
        claim.workKey work dbNow, none)
    else
      let version := { version with
        submitAttempts := version.submitAttempts + 1
        intentAt := some (version.intentAt.getD now)
        status := .dispatching }
      (((s.setVersion version).setCycle { cycle with status := .running }).start claim.workKey work
        .dispatchVersion dbNow now,
        some ⟨claim, .dispatchVersion, .submit version.request, none⟩)

def readVersion (operation : GuardianOperation) (version : Version) (now : ℤ) : Version :=
  if operation = .reconcileRemote then
    { version with reconciliationRequests := version.reconciliationRequests + 1 }
  else
    { version with
      pollRequests := version.pollRequests + (if operation = .pollRemote then 1 else 0)
      lastPollAt := some now }

def readPayload (operation : GuardianOperation) (version : Version) : PreparedPayload :=
  if operation = .reconcileRemote then .lookup version.businessKey version.requestDigest
  else .remote version.businessKey version.requestDigest version.remoteId

/-- The admission of a read; `collections` is the number of detail collections in flight. -/
def admitRead (s : Guardian) (dbNow now : ℤ) (claim : WorkClaim) (work : DueWork)
    (version : Version) (operation : GuardianOperation) (collections : ℕ) :
    Guardian × Option PreparedWork :=
  let starts := recent s.readStarts now
  if 20 ≤ starts.length ∨ 20 ≤ s.busy dbNow claim.workKey false + collections then
    (s.requeue claim.workKey work now, none)
  else
    (({ s with readStarts := starts ++ [now] }.setVersion
        (readVersion operation version now)).start claim.workKey work operation dbNow now,
      some ⟨claim, operation, readPayload operation version, some claim.epoch⟩)

/-- `prepare` of a work that the claim holds. -/
def prepareLocked (s : Guardian) (dbNow now : ℤ) (claim : WorkClaim) (work : DueWork)
    (cycle : Cycle) (version : Version) (collections : ℕ) : Guardian × Option PreparedWork :=
  if cycle.status.terminal ∨ version.status.terminal then
    (s.complete claim.workKey work dbNow, none)
  else
    let (operation, version) := operationOf claim.workKey work version now
    let s := s.setVersion version
    if version.terminalKnown ∧ operation = .fetchTerminalResult ∧ cycle.deadlineAt < now then
      ((s.stop cycle version .infraFailed "RESULT_COLLECTION_FAILED" now false).complete
        claim.workKey work dbNow, none)
    else if version.terminalKnown = false ∧ (cycle.deadlineAt ≤ now ∨
        operation = .reconcileRemote ∧ version.unknownExpired cycle now) then
      ((s.stop cycle version .unresolved "RECONCILIATION_DEADLINE" now true).complete
        claim.workKey work dbNow, none)
    else if operation = .dispatchVersion then s.admitSubmit dbNow now claim work cycle version
    else s.admitRead dbNow now claim work version operation collections

def prepare (s : Guardian) (dbNow now : ℤ) (claim : WorkClaim) (collections : ℕ) :
    Except GuardianError (Guardian × Option PreparedWork) :=
  match s.locked dbNow claim with
  | .error error => .error error
  | .ok (work, cycle, version) =>
    .ok (s.prepareLocked dbNow now claim work cycle version collections)

/-! ## The provider's answers -/

/-- What the call of the provider has brought; `none` is a result that its wire model refuses. -/
inductive ProviderOutcome where
  | error (code : String) (uncertain : Bool)
  | submitted (receipt : Option SubmitReceipt)
  | looked (lookup : Option LookupResult)
  | read (packet : Option EvidencePacket)
  deriving DecidableEq

def finishError (s : Guardian) (cycle : Cycle) (version : Version) (operation : GuardianOperation)
    (now : ℤ) (code : String) (uncertain : Bool) : Except GuardianError Guardian :=
  match operation with
  | .dispatchVersion =>
    if uncertain then
      s.reconcileDue cycle (version.markUnknown (version.intentAt.getD now)) now
    else .ok (s.stop cycle version .dispatchFailed code now false)
  | .reconcileRemote =>
    let version := { version with reconciliationErrors := version.reconciliationErrors + 1 }
    s.reconcileDue cycle (version.markUnknown now) now
  | .fetchTerminalResult => .ok (s.resultRetry cycle version now)
  | .pollRemote => s.pollFailed cycle version now

def finishSubmit (s : Guardian) (cycle : Cycle) (version : Version) (now : ℤ)
    (receipt : Option SubmitReceipt) : Except GuardianError Guardian :=
  match receipt.filter version.checkSubmit with
  | none => .ok (s.stop cycle version .unresolved "PROVIDER_RECEIPT_CONFLICT" now true)
  | some receipt => s.bind cycle version receipt now

def finishLookup (s : Guardian) (cycle : Cycle) (version : Version) (now : ℤ) :
    LookupResult → Except GuardianError Guardian
  | .found receipt =>
    if version.checkSubmit receipt then
      s.bind cycle { version with reconciliationErrors := 0 } receipt now
    else .ok (s.stop cycle version .unresolved "PROVIDER_IDENTITY_CONFLICT" now true)
  | .notCreatedFinal sealed =>
    if version.checkSeal sealed then
      .ok (s.stop cycle version .dispatchFailed "NOT_CREATED_FINAL" now false)
    else .ok (s.stop cycle version .unresolved "PROVIDER_IDENTITY_CONFLICT" now true)
  | .notCreated =>
    if version.remoteId ≠ none then s.reconcileDue cycle version now
    else if version.submitAttempts < 3 then
      .ok ((s.setVersion version.markKnown).dueWork cycle version.markKnown .dispatchVersion
        version.submitAttempts (now + version.redispatchDelay * second))
    else .ok (s.stop cycle version .unresolved "DISPATCH_BUDGET_UNCERTAIN" now true)

/-- A summary that was polled or fetched. -/
def finishRead (s : Guardian) (cycle : Cycle) (version : Version) (key : WorkKey)
    (operation : GuardianOperation) (now : ℤ) (packet : Option EvidencePacket) :
    Except GuardianError Guardian :=
  match packet.filter version.checkSummary with
  | some packet => s.observe cycle version key packet.summary now
  | none =>
    if operation = .fetchTerminalResult ∨ version.lastObservedState = some .completed then
      .ok (s.resultRetry cycle version now)
    else s.pollFailed cycle version now

/-- The rows after the outcome of `operation`, before the work is completed. -/
def settle (s : Guardian) (cycle : Cycle) (version : Version) (key : WorkKey)
    (operation : GuardianOperation) (now : ℤ) (outcome : ProviderOutcome) :
    Except GuardianError Guardian :=
  match outcome, operation with
  | .error code uncertain, operation => s.finishError cycle version operation now code uncertain
  | .submitted receipt, .dispatchVersion => s.finishSubmit cycle version now receipt
  | .looked (some lookup), .reconcileRemote => s.finishLookup cycle version now lookup
  | .read packet, .pollRemote => s.finishRead cycle version key .pollRemote now packet
  | .read packet, .fetchTerminalResult =>
    s.finishRead cycle version key .fetchTerminalResult now packet
  -- an answer that the operation's wire model refuses
  | _, .dispatchVersion => s.finishSubmit cycle version now none
  | _, .reconcileRemote => .error (.raised "ValidationError")
  | _, .pollRemote => s.finishRead cycle version key .pollRemote now none
  | _, .fetchTerminalResult => s.finishRead cycle version key .fetchTerminalResult now none

/-- The error that `finish` writes to the work. -/
def outcomeError (work : DueWork) : ProviderOutcome → DueWork
  | .error code _ => { work with error := some code }
  | .submitted _ | .looked _ | .read _ => work

def finish (s : Guardian) (dbNow now : ℤ) (prepared : PreparedWork) (outcome : ProviderOutcome) :
    Except GuardianError Guardian :=
  match s.locked dbNow prepared.claim with
  | .error error => .error error
  | .ok (work, cycle, version) =>
    if cycle.status.terminal ∨ version.status.terminal then .error .staleClaim
    else
      match s.settle cycle version prepared.claim.workKey prepared.operation now outcome with
      | .error error => .error error
      | .ok s' => .ok (s'.complete prepared.claim.workKey (outcomeError work outcome) dbNow)

/-- `_record_stale` after a stale claim, nothing after another error. -/
def rejected (s : Guardian) : GuardianError → Guardian
  | .staleClaim => { s with staleWritesRejected := s.staleWritesRejected + 1 }
  | .raised _ => s

end Guardian

end LocalAgent.Runtime
