import LocalAgent.Runtime.GuardianRows

/-!
# LocalAgent.Runtime.GuardianHolds — the safety hold of an environment

An environment that a cycle occupies is free for another one when the cycle has ended, unless its
end leaves a safety hold that an operator resolves.

* `Guardian.discover`: the cycle of a day, or its overlap with what occupies the environment.
* `Guardian.resolveHold`: the operator's resolution.
* `HeldScope.step`: the transactions of a scope, with the fate of its submit requests as it is
  observed.
* `HeldScope.Released`: what the release of an environment asks of the versions of its cycle.
-/

namespace LocalAgent.Runtime

/-- A version of a day's plan, before it has a row. -/
structure PlannedVersion where
  versionExecutionId : String
  versionExecutionKey : String
  expectedCases : ℕ
  request : SubmitRequest
  businessKey : String
  requestDigest : String
  deriving DecidableEq

/-- The plan of a day for one environment, of three versions, with the ids that are drawn. -/
structure CyclePlan where
  cycleId : String
  cycleKey : String
  environment : String
  eligibleAt : ℤ
  first : PlannedVersion
  second : PlannedVersion
  third : PlannedVersion
  deriving DecidableEq

namespace PlannedVersion

/-- The row that `discover` adds. -/
def row (planned : PlannedVersion) (cycleId : String) (ordinal : ℕ) (blocked : Bool) : Version where
  versionExecutionId := planned.versionExecutionId
  versionExecutionKey := planned.versionExecutionKey
  cycleId := cycleId
  ordinal := ordinal
  expectedCases := planned.expectedCases
  request := planned.request
  businessKey := planned.businessKey
  requestDigest := planned.requestDigest
  status := if blocked then .skipped else .planned
  reason := if blocked then some "SKIPPED_OVERLAP" else none

end PlannedVersion

/-- The copy of a version against which a resolution checks its packet. -/
def Version.shadow (version : Version) (receipt : SubmitReceipt) : Version :=
  { version with remoteId := some receipt.remoteExecutionId }

/-- The error of `_check_receipt`. -/
def Version.receiptError (version : Version)
    (providerNamespaceId businessKey requestDigest : String) : GuardianError :=
  if version.agrees providerNamespaceId businessKey requestDigest then
    .raised "PROVIDER_IDENTITY_CONFLICT"
  else .raised "PROVIDER_RECEIPT_CONFLICT"

/-- The error of `_summary`. -/
def Version.summaryError (version : Version) (packet : EvidencePacket) : GuardianError :=
  if packet.ownerScopeId ≠ version.request.ownerScopeId ∨
      some packet.remoteExecutionId ≠ version.remoteId ∨ packet.type ≠ "CI_SUMMARY" then
    .raised "SUMMARY_BINDING_INVALID"
  else if packet.summary.plan ≠ version.request.plan then .raised "SUMMARY_PLAN_INVALID"
  else if some packet.summary.remoteExecutionId ≠ version.remoteId ∨
      packet.summary.statusRevision < version.lastStatusRevision ∨
      packet.summary.resultRevision < version.lastResultRevision then
    .raised "SUMMARY_REVISION_INVALID"
  else if version.terminalKnown = true ∧
      version.lastObservedState ≠ some packet.summary.remoteState then
    .raised "REMOTE_TERMINAL_REWRITE"
  else .raised "SUMMARY_SEMANTIC_DIGEST_INVALID"

namespace Guardian

/-! ## Discovery -/

/-- The occupancy of an environment, which `discover` adds where there is none. -/
def occupancyOf (s : Guardian) (environment : String) : Occupancy :=
  (s.occupancies.get? environment).getD ⟨none, false, none⟩

/-- The environment is not free; `resumed` is whether the last resolution lets this day begin. -/
def blocked (s : Guardian) (environment : String) (resumed : Bool) : Bool :=
  (s.occupancyOf environment).cycleId ≠ none || (s.occupancyOf environment).safetyHold || !resumed

def addVersions (s : Guardian) (plan : CyclePlan) (blocked : Bool) : Guardian :=
  ((s.setVersion (plan.first.row plan.cycleId 1 blocked)).setVersion
    (plan.second.row plan.cycleId 2 blocked)).setVersion (plan.third.row plan.cycleId 3 blocked)

/-- The row of the cycle that `discover` leaves. -/
def cycleOf (plan : CyclePlan) (blocked : Bool) (now : ℤ) : Cycle where
  cycleId := plan.cycleId
  environment := plan.environment
  eligibleAt := plan.eligibleAt
  deadlineAt := plan.eligibleAt + 36000 * second
  status := if blocked then .skippedOverlap else .ready
  reason := if blocked then some "SKIPPED_OVERLAP" else none
  completedAt := if blocked then some now else none

/-- `discover` of a day that has no cycle yet, by a guardian that is active. -/
def discover (s : Guardian) (plan : CyclePlan) (resumed : Bool) (now : ℤ) : Guardian :=
  let blocked := s.blocked plan.environment resumed
  let occupancy := s.occupancyOf plan.environment
  let cycle := cycleOf plan blocked now
  let s' := (s.addVersions plan blocked).setCycle cycle
  if blocked then
    { s' with occupancies := s.occupancies.set plan.environment occupancy }
  else
    { s'.dueWork cycle (plan.first.row plan.cycleId 1 false) .dispatchVersion 0
        (plan.eligibleAt + hashOffset plan.cycleKey 480 * Runtime.second) with
      occupancies := s.occupancies.set plan.environment
        { occupancy with cycleId := some plan.cycleId } }

/-- The ids that `discover` draws are new. -/
def Fresh (s : Guardian) (plan : CyclePlan) : Prop :=
  plan.cycleId ∉ s.cycles.keys ∧
    plan.first.versionExecutionId ∉ s.versions.keys ∧
    plan.second.versionExecutionId ∉ s.versions.keys ∧
    plan.third.versionExecutionId ∉ s.versions.keys ∧
    plan.first.versionExecutionId ≠ plan.second.versionExecutionId ∧
    plan.first.versionExecutionId ≠ plan.third.versionExecutionId ∧
    plan.second.versionExecutionId ≠ plan.third.versionExecutionId

instance (s : Guardian) (plan : CyclePlan) : Decidable (s.Fresh plan) := by
  unfold Fresh
  infer_instance

/-! ## Resolution -/

/-- The proof of a resolution: a seal, or a terminal packet of the execution that was found; the
packet is checked against a copy of the version that is bound to it. -/
def checkProof (version : Version) (lookup : LookupResult) (packet : Option EvidencePacket) :
    Except GuardianError Unit :=
  match lookup, packet with
  | .notCreatedFinal sealed, _ =>
    if version.checkSeal sealed then .ok ()
    else .error (version.receiptError sealed.providerNamespaceId
      sealed.remoteExecutionBusinessKey sealed.requestDigest)
  | .found receipt, some packet =>
    if version.checkSubmit receipt = false then
      .error (version.receiptError receipt.providerNamespaceId
        receipt.remoteExecutionBusinessKey receipt.requestDigest)
    else if version.remoteId ≠ none ∧ version.remoteId ≠ some receipt.remoteExecutionId then
      .error (.raised "RESOLUTION_REMOTE_CONFLICT")
    else if (version.shadow receipt).checkSummary packet = false then
      .error ((version.shadow receipt).summaryError packet)
    else if packet.summary.remoteState.terminal then .ok ()
    else .error (.raised "RESOLUTION_NOT_TERMINAL")
  | _, _ => .error (.raised "RESOLUTION_REQUIRES_FINAL_PROOF")

/-- `occupancy.safety_hold, occupancy.cycle_id = False, None`. -/
def freed (occupancy : Occupancy) : Occupancy :=
  { occupancy with safetyHold := false, cycleId := none }

/-- `resolve_hold`, with the answer whether a hold was released. -/
def resolveHold (s : Guardian) (versionId : String) (lookup : LookupResult)
    (packet : Option EvidencePacket) : Except GuardianError (Guardian × Bool) :=
  match s.versions.get? versionId with
  | none => .error (.raised "RESOLUTION_SCOPE_MISMATCH")
  | some version =>
    if version.request.ownerScopeId ≠ s.scope then .error (.raised "RESOLUTION_SCOPE_MISMATCH")
    else match s.cycles.get? version.cycleId with
    | none => .error (.raised "AttributeError")
    | some cycle =>
      if cycle.status ≠ .unresolved then .error (.raised "RESOLUTION_REQUIRES_UNRESOLVED")
      else match s.occupancies.get? cycle.environment with
      | none => .error (.raised "AttributeError")
      | some occupancy =>
        if occupancy.safetyHold = false then .ok (s, false)
        else if occupancy.cycleId ≠ some cycle.cycleId then
          .error (.raised "RESOLUTION_OCCUPANCY_CONFLICT")
        else match checkProof version lookup packet with
        | .error error => .error error
        | .ok () =>
          .ok (s.mapOccupancy cycle freed, true)

end Guardian

/-! ## The scope, as it is observed -/

namespace Version

/-- The namespace, the key and the digest are those of the version's request. -/
def Named (version : Version) (providerNamespaceId businessKey requestDigest : String) : Prop :=
  providerNamespaceId = version.request.providerNamespaceId ∧ businessKey = version.businessKey ∧
    requestDigest = version.requestDigest

/-- A seal of the version's request. -/
def SealedBy (version : Version) (sealed : SealReceipt) : Prop :=
  version.Named sealed.providerNamespaceId sealed.remoteExecutionBusinessKey sealed.requestDigest

instance (version : Version) (sealed : SealReceipt) : Decidable (version.SealedBy sealed) := by
  unfold SealedBy Named
  infer_instance

theorem agrees_iff {version : Version} {providerNamespaceId businessKey requestDigest : String} :
    version.agrees providerNamespaceId businessKey requestDigest = true ↔
      version.Named providerNamespaceId businessKey requestDigest := by
  simp only [agrees, Named, Bool.and_eq_true, decide_eq_true_eq, and_assoc]

theorem checkSeal_iff {version : Version} {sealed : SealReceipt} :
    version.checkSeal sealed = true ↔ version.SealedBy sealed :=
  agrees_iff

/-- The packet shows that the execution of the receipt, which is that of the version, has ended. -/
structure EndedBy (version : Version) (receipt : SubmitReceipt) (packet : EvidencePacket) :
    Prop where
  named : version.Named receipt.providerNamespaceId receipt.remoteExecutionBusinessKey
    receipt.requestDigest
  bound : ∀ id ∈ version.remoteId, id = receipt.remoteExecutionId
  about : packet.type = "CI_SUMMARY" ∧ packet.remoteExecutionId = receipt.remoteExecutionId ∧
    packet.summary.remoteExecutionId = receipt.remoteExecutionId ∧
    packet.summary.plan = version.request.plan
  ended : packet.summary.remoteState = .completed ∨ packet.summary.remoteState = .infraFailed ∨
    packet.summary.remoteState = .cancelled

end Version

/-- What an operator has presented for a version when a hold was released. -/
structure Resolution where
  versionId : String
  version : Version
  lookup : LookupResult
  packet : Option EvidencePacket

/-- Final proof: the request was sealed, or its execution is found and has ended. -/
def Resolution.Final (r : Resolution) : Prop :=
  (∃ sealed, r.lookup = .notCreatedFinal sealed ∧ r.version.SealedBy sealed) ∨
    ∃ receipt packet, r.lookup = .found receipt ∧ r.packet = some packet ∧
      r.version.EndedBy receipt packet

/-- The rows of a scope and the works that were prepared, with the versions of which a submit
request had an uncertain outcome, those that a lookup has shown to be sealed, and the resolutions
that have released a hold. -/
structure HeldScope where
  dbNow : ℤ
  now : ℤ
  guardian : Guardian
  prepared : List PreparedWork
  uncertain : List String
  sealedIds : List String
  resolutions : List Resolution

namespace HeldScope

/-- The outcome of a submit request is uncertain: the call says so, or its answer is not a receipt
of the version. -/
def uncertainOutcome (version : Version) : Guardian.ProviderOutcome → Bool
  | .error _ uncertain => uncertain
  | .submitted receipt => (receipt.filter version.checkSubmit).isNone
  | .looked _ | .read _ => true

/-- A submit request whose worker is lost is one of an uncertain outcome. -/
def lost (key : WorkKey) (work : DueWork) : Bool :=
  key.operation = .dispatchVersion && work.startedAt ≠ none

/-- `prepare`, seen from the scope. -/
def prepareWork (s : HeldScope) (claim : WorkClaim) (collections : ℕ) : HeldScope :=
  match s.guardian.locked s.dbNow claim with
  | .error error => { s with guardian := s.guardian.rejected error }
  | .ok (work, cycle, version) =>
    let (guardian, prepared) :=
      s.guardian.prepareLocked s.dbNow s.now claim work cycle version collections
    { s with
      guardian := guardian
      prepared := s.prepared ++ prepared.toList
      uncertain :=
        if lost claim.workKey work then claim.workKey.versionId :: s.uncertain else s.uncertain }

def sealing (version : Version) (operation : GuardianOperation) :
    Guardian.ProviderOutcome → List String
  | .looked (some (.notCreatedFinal sealed)) =>
    if operation = .reconcileRemote ∧ version.SealedBy sealed then
      [version.versionExecutionId]
    else []
  | .looked _ | .error _ _ | .submitted _ | .read _ => []

/-- `finish`, seen from the scope. -/
def finishWork (s : HeldScope) (work : PreparedWork) (outcome : Guardian.ProviderOutcome) :
    HeldScope :=
  match s.guardian.locked s.dbNow work.claim, s.guardian.finish s.dbNow s.now work outcome with
  | .ok (_, _, version), .ok guardian =>
    { s with
      guardian := guardian
      uncertain :=
        if work.operation = .dispatchVersion ∧ uncertainOutcome version outcome = true then
          version.versionExecutionId :: s.uncertain
        else s.uncertain
      sealedIds := sealing version work.operation outcome ++ s.sealedIds }
  | _, .error error => { s with guardian := s.guardian.rejected error }
  | .error _, .ok _ => s

/-- `resolve_hold`, seen from the scope. -/
def resolve (s : HeldScope) (versionId : String) (lookup : LookupResult)
    (packet : Option EvidencePacket) : HeldScope :=
  match s.guardian.versions.get? versionId, s.guardian.resolveHold versionId lookup packet with
  | some version, .ok (guardian, true) =>
    { s with
      guardian := guardian
      resolutions := ⟨versionId, version, lookup, packet⟩ :: s.resolutions }
  | _, _ => s

inductive Action where
  /-- microseconds of the database's clock and of the business clock -/
  | tick (database business : ℕ)
  | discover (plan : CyclePlan) (resumed : Bool)
  /-- rows that a query of `claim_due` finds, with a fresh token for each -/
  | claimDue (rows : List (WorkKey × String))
  /-- with the number of detail collections in flight -/
  | prepare (claim : WorkClaim) (collections : ℕ)
  | finish (work : PreparedWork) (outcome : Guardian.ProviderOutcome)
  | resolveHold (versionId : String) (lookup : LookupResult) (packet : Option EvidencePacket)

def step (s : HeldScope) : Action → Option HeldScope
  | .tick database business =>
    some { s with dbNow := s.dbNow + database, now := s.now + business }
  | .discover plan resumed =>
    if s.guardian.Fresh plan then
      some { s with guardian := s.guardian.discover plan resumed s.now }
    else none
  | .claimDue rows =>
    some { s with guardian := (s.guardian.claimDue s.dbNow s.now rows).1 }
  | .prepare claim collections => some (s.prepareWork claim collections)
  | .finish work outcome => if work ∈ s.prepared then some (s.finishWork work outcome) else none
  | .resolveHold versionId lookup packet => some (s.resolve versionId lookup packet)

/-- A scope without rows. -/
def initial (scope : String) (dbNow now : ℤ) : HeldScope where
  dbNow := dbNow
  now := now
  guardian := ⟨scope, [], [], 0, Dict.empty, Dict.empty, Dict.empty, Dict.empty⟩
  prepared := []
  uncertain := []
  sealedIds := []
  resolutions := []

/-! ## Releases -/

end HeldScope

def Guardian.Occupied (s : Guardian) (cycle : Cycle) : Prop :=
  ∃ occupancy, s.occupancies.get? cycle.environment = some occupancy ∧
    occupancy.cycleId = some cycle.cycleId

/-- A lookup or a resolution has shown that the version was sealed or has ended. -/
def HeldScope.Proven (s : HeldScope) (versionId : String) : Prop :=
  versionId ∈ s.sealedIds ∨ ∃ r ∈ s.resolutions, r.versionId = versionId ∧ r.Final

/-- A cycle gives its environment up only when each of its versions that was submitted is known to
have ended, or sealed, or never had an uncertain outcome, and the version that is unresolved has
final proof; a resolution releases a hold with final proof about an unresolved version. -/
def HeldScope.Released (s : HeldScope) : Prop :=
  (∀ id version cycle, s.guardian.versions.get? id = some version →
    s.guardian.cycles.get? version.cycleId = some cycle → s.guardian.Occupied cycle ∨
      ((version.submitAttempts ≠ 0 →
        version.terminalKnown = true ∨ s.Proven id ∨ id ∉ s.uncertain) ∧
      (version.status = .unresolved → s.Proven id))) ∧
  ∀ r ∈ s.resolutions, r.Final ∧ r.version.status = .unresolved

/-- A submit request fails for certain only if no earlier one of its version was uncertain, and a
resolution with final proof is about a version that is unresolved. -/
def HeldScope.Safe (s : HeldScope) : HeldScope.Action → Prop
  | .finish work (.error _ false) =>
    ∀ row cycle version, s.guardian.locked s.dbNow work.claim = .ok (row, cycle, version) →
      work.operation = .dispatchVersion → version.firstUnknownAt = none
  | .resolveHold versionId lookup packet =>
    ∀ version, s.guardian.versions.get? versionId = some version →
      Resolution.Final ⟨versionId, version, lookup, packet⟩ → version.status = .unresolved
  | .finish _ _ | .tick _ _ | .discover _ _ | .claimDue _ | .prepare _ _ => True

end LocalAgent.Runtime
