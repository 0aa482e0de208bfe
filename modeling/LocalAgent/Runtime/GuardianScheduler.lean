import LocalAgent.Runtime.GuardianHolds

/-!
# LocalAgent.Runtime.GuardianScheduler — all transactions of a guardian scope

* `Guardian.recover`: the spreading of polls that are due, and the successors without work.
* `SchedulerScope.step`: a transaction of any worker, or time that passes.
-/

namespace LocalAgent.Runtime

namespace Guardian

/-! ## Recovery -/

def pollKey (version : Version) (sequence : ℕ) : String :=
  businessKey "due" [.str version.versionExecutionKey, .str "POLL_REMOTE", .int sequence]

/-- The condition of `recover` on a row, apart from its generation. -/
def spreadable (s : Guardian) (key : WorkKey) (work : DueWork) (version : Version)
    (dbNow now : ℤ) : Bool :=
  key.operation = .pollRemote && work.completedAt = none && work.originalDueAt ≤ now &&
    ((s.cycles.get? version.cycleId).any fun cycle => !cycle.status.terminal) &&
    (work.state = .ready || leaseOver work.leaseUntil dbNow)

/-- The polls that are due are spread over five minutes. -/
def spread (s : Guardian) (dbNow now : ℤ) (generation : ℕ) : List WorkKey → Guardian
  | [] => s
  | key :: keys =>
    match s.due.get? key, s.versions.get? key.versionId with
    | some work, some version =>
      if s.spreadable key work version dbNow now then
        let offset : ℤ := hashOffset (businessKey "recovery-spread"
          [.str (pollKey version key.sequence), .int generation]) 301
        let next := max now work.originalDueAt + offset * second
        spread { s with due := s.due.set key { work with nextAvailableAt := next } } dbNow now
          generation keys
      else s.spread dbNow now generation keys
    | _, _ => s.spread dbNow now generation keys

def dispatched (s : Guardian) (versionId : String) : Bool :=
  s.due.keys.any fun key => key.versionId = versionId && key.operation = .dispatchVersion

/-- The version is completed, and its successor waits without a dispatch. -/
def stranded (s : Guardian) (version : Version) : Bool :=
  version.status = .completed &&
    ((s.cycles.get? version.cycleId).any fun cycle => cycle.status = .running) &&
    s.versions.values.any fun successor => successor.cycleId = version.cycleId &&
      successor.ordinal = version.ordinal + 1 && successor.status = .planned &&
      !s.dispatched successor.versionExecutionId

/-- `_progress` of the versions that were found. -/
def progressAll (s : Guardian) (now : ℤ) : List String → Except GuardianError Guardian
  | [] => .ok s
  | id :: ids =>
    match s.versions.get? id with
    | none => .error (.raised "AttributeError")
    | some version =>
      match s.cycles.get? version.cycleId with
      | none => .error (.raised "AttributeError")
      | some cycle =>
        if cycle.status = .running then
          match s.progress cycle version now with
          | .error error => .error error
          | .ok s' => s'.progressAll now ids
        else s.progressAll now ids

/-- `recover`, with the rows and the versions that its queries look at. -/
def recover (s : Guardian) (dbNow now : ℤ) (generation : ℕ) (keys : List WorkKey)
    (ids : List String) : Except GuardianError Guardian :=
  let s := s.spread dbNow now generation keys
  s.progressAll now (ids.filter fun id => (s.versions.get? id).any s.stranded)

end Guardian

/-! ## The scope -/

structure GuardianRow where
  guardianKey : String
  environment : String
  active : Bool
  deriving DecidableEq

structure SchedulerScope where
  dbNow : ℤ
  now : ℤ
  guardian : Guardian
  prepared : List PreparedWork
  guardians : Dict String GuardianRow
  days : Dict String String

namespace SchedulerScope

def setEnabled (s : SchedulerScope) (guardianId : String) (enabled : Bool) : SchedulerScope :=
  match s.guardians.get? guardianId with
  | none => s
  | some row => { s with guardians := s.guardians.set guardianId { row with active := enabled } }

def planOf (row : GuardianRow) (day : String) (plan : CyclePlan) : CyclePlan :=
  { plan with
    environment := row.environment
    cycleKey := businessKey "cycle" [.str row.guardianKey, .str day] }

/-- `discover`; a day that has a cycle, and a guardian that is not active, change nothing. -/
def discover (s : SchedulerScope) (row : GuardianRow) (day : String) (plan : CyclePlan)
    (resumed : Bool) : SchedulerScope :=
  let plan := planOf row day plan
  if plan.cycleKey ∈ s.days.keys ∨ row.active = false then s
  else { s with
    guardian := s.guardian.discover plan resumed s.now
    days := s.days.set plan.cycleKey plan.cycleId }

/-- What a transaction leaves. -/
def settled (s : SchedulerScope) : Except GuardianError Guardian → SchedulerScope
  | .error error => { s with guardian := s.guardian.rejected error }
  | .ok guardian => { s with guardian := guardian }

def prepare (s : SchedulerScope) (claim : WorkClaim) (collections : ℕ) : SchedulerScope :=
  match s.guardian.prepare s.dbNow s.now claim collections with
  | .error error => s.settled (.error error)
  | .ok (guardian, prepared) =>
    { s with guardian := guardian, prepared := s.prepared ++ prepared.toList }

inductive Action where
  /-- microseconds of the database's clock and of the business clock -/
  | tick (database business : ℕ)
  | setEnabled (guardianId : String) (enabled : Bool)
  /-- with the ids that are drawn, and whether the last resolution lets this day begin -/
  | discover (guardianId day : String) (plan : CyclePlan) (resumed : Bool)
  /-- rows that a query of `claim_due` finds, with a fresh token for each -/
  | claimDue (rows : List (WorkKey × String))
  /-- with the number of detail collections in flight -/
  | prepare (claim : WorkClaim) (collections : ℕ)
  | finish (work : PreparedWork) (outcome : Guardian.ProviderOutcome)
  | recover (generation : ℕ) (keys : List WorkKey) (ids : List String)
  | resolveHold (versionId : String) (lookup : LookupResult) (packet : Option EvidencePacket)

def step (s : SchedulerScope) : Action → Option SchedulerScope
  | .tick database business =>
    some { s with dbNow := s.dbNow + database, now := s.now + business }
  | .setEnabled guardianId enabled => some (s.setEnabled guardianId enabled)
  | .discover guardianId day plan resumed =>
    if s.guardian.Fresh plan then
      match s.guardians.get? guardianId with
      | none => some s
      | some row => some (s.discover row day plan resumed)
    else none
  | .claimDue rows => some { s with guardian := (s.guardian.claimDue s.dbNow s.now rows).1 }
  | .prepare claim collections => some (s.prepare claim collections)
  | .finish work outcome =>
    if work ∈ s.prepared then some (s.settled (s.guardian.finish s.dbNow s.now work outcome))
    else none
  | .recover generation keys ids =>
    some (s.settled (s.guardian.recover s.dbNow s.now generation keys ids))
  | .resolveHold versionId lookup packet =>
    some (s.settled ((s.guardian.resolveHold versionId lookup packet).map Prod.fst))

def initial (scope : String) (guardians : Dict String GuardianRow) (dbNow now : ℤ) :
    SchedulerScope where
  dbNow := dbNow
  now := now
  guardian := ⟨scope, [], [], 0, Dict.empty, Dict.empty, Dict.empty, Dict.empty⟩
  prepared := []
  guardians := guardians
  days := Dict.empty

end SchedulerScope

end LocalAgent.Runtime
