import LocalAgent.Runtime.GuardianRows

/-!
# LocalAgent.Runtime.GuardianLimits — the requests of one scope

The guardian (`core/stage13/guardian.py`) and the collection of failure details
(`core/stage13/incident.py`) share the limits of a scope: 10 submit requests and 20 reads in a
second, 20 reads in flight.

* `GuardedScope.step`: a transaction of either service, over both clocks.
* `GuardedScope.readsInFlight`: works prepared as reads and collections, with a live lease.
-/

namespace LocalAgent.Runtime

/-! ## Detail collections -/

inductive CollectionState where
  | pending | claimed | complete | missing
  deriving DecidableEq

/-- `CollectionRow`, without the pages. -/
structure Collection where
  state : CollectionState
  token : Option String
  epoch : ℕ
  leaseUntil : Option ℤ
  nextAvailableAt : ℤ
  attempts : ℕ
  error : Option String
  deriving DecidableEq

structure CollectionClaim where
  versionId : String
  token : String
  epoch : ℕ
  exhausted : Bool
  deriving DecidableEq

namespace Collection

/-- A claim with a live lease. -/
def live (row : Collection) (dbNow : ℤ) : Bool :=
  row.state = .claimed && leaseLive row.leaseUntil dbNow

/-- The conditions of `IncidentAggregationService.claim` on a row. -/
def claimable (row : Collection) (dbNow now : ℤ) : Bool :=
  row.nextAvailableAt ≤ now &&
    (row.state = .pending ||
      (row.state = .claimed && leaseOver row.leaseUntil dbNow))

def claimed (row : Collection) (token : String) (dbNow : ℤ) : Collection :=
  { row with
    state := .claimed
    token := some token
    epoch := row.epoch + 1
    leaseUntil := some (dbNow + 30 * second)
    attempts := if 3 ≤ row.attempts then row.attempts else row.attempts + 1 }

/-- `IncidentAggregationService._fence`. -/
def holds (row : Collection) (claim : CollectionClaim) (dbNow : ℤ) : Bool :=
  row.live dbNow && row.token = some claim.token && row.epoch = claim.epoch

/-- What `ingest` leaves of a row. -/
def settled (row : Collection) (missing : Bool) : Collection :=
  { row with state := if missing then .missing else .complete }

/-- What `fail` leaves of a claimed row, with the answer whether it is exhausted. -/
def failed (row : Collection) (code : String) (now : ℤ) : Collection × Bool :=
  if row.attempts < 3 then
    ({ row with
      error := some code
      state := .pending
      nextAvailableAt := now + (if row.attempts = 1 then 30 else 120) * second }, false)
  else ({ row with error := some code }, true)

end Collection

/-! ## The scope -/

/-- The rows of both services, with what the observer keeps: the works that were prepared, and the
business times of the submit requests and reads that were admitted. -/
structure GuardedScope where
  dbNow : ℤ
  now : ℤ
  guardian : Guardian
  collections : Dict String Collection
  prepared : List PreparedWork
  submits : List ℤ
  reads : List ℤ

namespace GuardedScope

def busyCollections (s : GuardedScope) : ℕ := s.collections.countBy fun _ row => row.live s.dbNow

/-- `busy_guardian` of `IncidentAggregationService.claim`. -/
def busyGuardian (s : GuardedScope) : ℕ :=
  s.guardian.due.countBy fun key work => Guardian.busyRow work s.dbNow && key.operation.read

/-- `IncidentAggregationService.claim` on the rows that it has locked, with fresh tokens. -/
def claimRows (dbNow now : ℤ) :
    Dict String Collection → List (String × String) → Dict String Collection × List CollectionClaim
  | rows, [] => (rows, [])
  | rows, (id, token) :: rest =>
    match rows.get? id with
    | none => claimRows dbNow now rows rest
    | some row =>
      if row.claimable dbNow now then
        let (rows', claims) := claimRows dbNow now (rows.set id (row.claimed token dbNow)) rest
        (rows', ⟨id, token, row.epoch + 1, 3 ≤ row.attempts⟩ :: claims)
      else claimRows dbNow now rows rest

/-- The rows that a claim may take. -/
def room (s : GuardedScope) (limit : ℕ) : ℕ := min limit (20 - s.busyCollections - s.busyGuardian)

/-- `IncidentAggregationService.claim`; `rows` are those that its query finds, in its order. -/
def claimCollections (s : GuardedScope) (limit : ℕ) (rows : List (String × String)) :
    Except String (GuardedScope × List CollectionClaim) :=
  if 1 ≤ limit ∧ limit ≤ 20 then
    let (collections, claims) := claimRows s.dbNow s.now s.collections (rows.take (s.room limit))
    .ok ({ s with collections := collections }, claims)
  else .error "collection concurrency must be in 1..20"

/-- The row of a collection after `ingest`, whose other writes no limit depends on. -/
def ingest (s : GuardedScope) (versionId : String) (claim : Option CollectionClaim)
    (missing : Bool) : Except String GuardedScope :=
  match s.collections.get? versionId with
  | none => .error "MISSING_COLLECTION_INTENT"
  | some row =>
    if claim.all fun c => row.holds c s.dbNow then
      .ok { s with collections := s.collections.set versionId (row.settled missing) }
    else .error "COLLECTION_STALE_WRITER"

/-- `fail`, whose exhausted claim goes on with `ingest`. -/
def fail (s : GuardedScope) (claim : CollectionClaim) (code : String) :
    Except String GuardedScope :=
  match s.collections.get? claim.versionId with
  | none => .error "COLLECTION_STALE_WRITER"
  | some row =>
    if row.holds claim s.dbNow then
      .ok { s with collections := s.collections.set claim.versionId (row.failed code s.now).1 }
    else .error "COLLECTION_STALE_WRITER"

/-- `prepare`, seen from the scope. -/
def prepareWork (s : GuardedScope) (claim : WorkClaim) : GuardedScope :=
  match s.guardian.prepare s.dbNow s.now claim s.busyCollections with
  | .error error => { s with guardian := s.guardian.rejected error }
  | .ok (guardian, none) => { s with guardian := guardian }
  | .ok (guardian, some work) =>
    { s with
      guardian := guardian
      prepared := s.prepared ++ [work]
      submits := if work.operation.read then s.submits else s.submits ++ [s.now]
      reads := if work.operation.read then s.reads ++ [s.now] else s.reads }

/-- `finish`, seen from the scope. -/
def finishWork (s : GuardedScope) (work : PreparedWork) (outcome : Guardian.ProviderOutcome) :
    GuardedScope :=
  match s.guardian.finish s.dbNow s.now work outcome with
  | .error error => { s with guardian := s.guardian.rejected error }
  | .ok guardian => { s with guardian := guardian }

inductive Action where
  /-- microseconds of the database's clock and of the business clock -/
  | tick (database business : ℕ)
  /-- rows that a query of `claim_due` finds, with a fresh token for each -/
  | claimDue (rows : List (WorkKey × String))
  | prepare (claim : WorkClaim)
  | finish (work : PreparedWork) (outcome : Guardian.ProviderOutcome)
  | claimCollections (limit : ℕ) (rows : List (String × String))
  | ingest (versionId : String) (claim : Option CollectionClaim) (missing : Bool)
  | fail (claim : CollectionClaim) (code : String)

def step (s : GuardedScope) : Action → Option GuardedScope
  | .tick database business =>
    some { s with dbNow := s.dbNow + database, now := s.now + business }
  | .claimDue rows =>
    some { s with guardian := (s.guardian.claimDue s.dbNow s.now rows).1 }
  | .prepare claim => some (s.prepareWork claim)
  | .finish work outcome => if work ∈ s.prepared then some (s.finishWork work outcome) else none
  | .claimCollections limit rows =>
    some (((s.claimCollections limit rows).map Prod.fst).toOption.getD s)
  | .ingest versionId claim missing => some ((s.ingest versionId claim missing).toOption.getD s)
  | .fail claim code => some ((s.fail claim code).toOption.getD s)

/-! ## In flight -/

/-- The work is prepared as a read under a live lease. -/
def inFlight (work : DueWork) (dbNow : ℤ) : Bool :=
  work.state = .claimed && leaseLive work.leaseUntil dbNow &&
    match work.prepared with
    | none => false
    | some operation => operation.read

def readsInFlight (s : GuardedScope) : ℕ :=
  s.guardian.due.countBy (fun _ work => inFlight work s.dbNow) + s.busyCollections

def lookupsOfDispatches (s : GuardedScope) : ℕ :=
  s.guardian.due.countBy fun key work =>
    inFlight work s.dbNow && key.operation = .dispatchVersion

/-- What discovery has left: cycles with planned versions, a dispatch for the first version of a
cycle that is not blocked, nothing claimed. -/
structure Discovered (s : GuardedScope) : Prop where
  cycles : ∀ e ∈ s.guardian.cycles.entries, e.2.cycleId = e.1
  versions : ∀ e ∈ s.guardian.versions.entries, e.2.versionExecutionId = e.1 ∧ 1 ≤ e.2.ordinal ∧
    (e.2.status = .planned ∨ e.2.status = .skipped) ∧ e.2.submitAttempts = 0
  ordinals : ∀ e ∈ s.guardian.versions.entries, ∀ f ∈ s.guardian.versions.entries,
    e.2.cycleId = f.2.cycleId → e.2.ordinal = f.2.ordinal → e.1 = f.1
  due : ∀ e ∈ s.guardian.due.entries, e.1.operation = .dispatchVersion ∧ e.1.sequence = 0 ∧
    e.2.state = .ready ∧ e.2.startedAt = none ∧
    ∃ f ∈ s.guardian.versions.entries, f.1 = e.1.versionId ∧ f.2.ordinal = 1
  collections : ∀ e ∈ s.collections.entries, e.2.state ≠ .claimed
  starts : s.guardian.submitStarts = [] ∧ s.guardian.readStarts = [] ∧ s.submits = [] ∧
    s.reads = [] ∧ s.prepared = []

end GuardedScope

end LocalAgent.Runtime
