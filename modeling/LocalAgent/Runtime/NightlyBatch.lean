import LocalAgent.Runtime.IncidentResolution
import Mathlib.Data.Finset.Card

/-!
# LocalAgent.Runtime.NightlyBatch — `core/incidents/nightly.py`, the nightly rehearsals

A batch freezes its plan when it is created, is advanced step by step under a simulated clock, and
is sealed by the call that completes its last version.  Each call is one transaction that holds the
batch row, so a call is a function of the batch and its rows; a call that raises changes nothing.

* `expandEnvironment`: the versions and the two cases of each, frozen when a batch is created.
* `Nightly.advanceStep`, `Nightly.seal`: one step of a call, and the test at its end.
* `NightlyDesk.step`: one call of `create`, `clock` or `advance` by some user.
-/

namespace LocalAgent.Runtime

inductive NightlyFailure where
  | raised (failure : CIFailure)
  | integrityError (constraint : String)
  | indexError
  | typeError
  deriving DecidableEq

/-- `raise CIError(code, status)`. -/
def ciRaise (code : String) (status : ℕ) : NightlyFailure := .raised (.ciError code status)

/-! ## The plan -/

inductive ScenarioKey where
  | reportPipelineFailure | environmentConfigurationFailure | staleCaseInput
  | bufferBehaviorChange | limitedDiagnostics
  deriving DecidableEq

/-- `initial_state`. -/
def scenarioState (key : ScenarioKey) : CIState :=
  let environment : CIEnvironment :=
    { environmentId := "env-report", ip := "192.0.2.15", softwareVersion := "product-2.0"
      parserVersion := "parser-1.0", decoderTableVersion := "decoder-1.0"
      parserSupportedFieldRevision := 1, decoderSupportedFieldRevision := 1
      featureFlags := some ⟨[("compressed_transport", true)], by simp⟩
      bufferBehavior := some "compatible" }
  let upgraded : CIEnvironment :=
    { environment with
      parserVersion := "parser-2.0", decoderTableVersion := "decoder-2.0"
      parserSupportedFieldRevision := 2, decoderSupportedFieldRevision := 2 }
  let case : CICase :=
    { caseId := "case-report-compare", featureId := "feature-report-fields"
      requiredFieldRevision := 2, inputRevision := 2, goldenId := "golden-report"
      goldenVersion := "2", comparisonRuleId := "semantic-fields-equal/1"
      caseId_text := by decide }
  let report : CIReport := ⟨"report-input", 2, true⟩
  match key with
  | .reportPipelineFailure => ⟨environment, case, report, true, none⟩
  | .limitedDiagnostics => ⟨environment, case, report, false, none⟩
  | .environmentConfigurationFailure =>
    let flagged : CICase :=
      { case with
        caseId := "case-legacy-report", featureId := "feature-legacy-report"
        compressedTransport := some false, caseId_text := by decide }
    ⟨upgraded, flagged, report, true, none⟩
  | .staleCaseInput =>
    let stale : CICase :=
      { case with
        caseId := "case-tlv-report", featureId := "feature-tlv-report"
        inputRevision := 1, inputContract := some "tlv", caseId_text := by decide }
    ⟨upgraded, stale, { report with fieldRevision := 1 }, true, none⟩
  | .bufferBehaviorChange =>
    let legacy : CICase :=
      { case with
        caseId := "case-legacy-buffer", featureId := "feature-legacy-buffer"
        bufferRequirement := some "legacy", caseId_text := by decide }
    ⟨{ upgraded with softwareVersion := "product-2.1", bufferBehavior := some "compact" },
      legacy, report, true, none⟩

inductive NightlyProfile where
  | parser | configuration | input | buffer | missing
  deriving DecidableEq

def NightlyProfile.value : NightlyProfile → String
  | .parser => "parser"
  | .configuration => "configuration"
  | .input => "input"
  | .buffer => "buffer"
  | .missing => "missing"

/-- `PROFILES`. -/
def NightlyProfile.scenario : NightlyProfile → ScenarioKey
  | .parser => .reportPipelineFailure
  | .configuration => .environmentConfigurationFailure
  | .input => .staleCaseInput
  | .buffer => .bufferBehaviorChange
  | .missing => .limitedDiagnostics

/-- `ENVIRONMENTS`; the profile of a selection is the caller's, not the environment's own. -/
inductive NightlyEnvironment where
  | parserA | parserB | config | input | buffer | evidence
  deriving DecidableEq

def NightlyEnvironment.environmentId : NightlyEnvironment → String
  | .parserA => "env-parser-a"
  | .parserB => "env-parser-b"
  | .config => "env-config"
  | .input => "env-input"
  | .buffer => "env-buffer"
  | .evidence => "env-evidence"

def NightlyEnvironment.ip : NightlyEnvironment → String
  | .parserA => "192.0.2.21"
  | .parserB => "192.0.2.22"
  | .config => "192.0.2.23"
  | .input => "192.0.2.24"
  | .buffer => "192.0.2.25"
  | .evidence => "192.0.2.26"

inductive DurationProfile where
  | normal | slow
  deriving DecidableEq

def DurationProfile.value : DurationProfile → String
  | .normal => "normal"
  | .slow => "slow"

/-- `DURATIONS`, in minutes. -/
def DurationProfile.minutes : DurationProfile → ℤ
  | .normal => 60
  | .slow => 80

/-- One environment of a create request. -/
structure NightlySelection where
  environment : NightlyEnvironment
  profileKey : NightlyProfile
  ownerUserId : String
  durationProfile : DurationProfile
  deriving DecidableEq

/-- One of `frozen_cases`. -/
structure NightlySlot where
  caseId : String
  initialState : CIState
  durationMinutes : ℤ

/-- One of the versions of a planned environment. -/
structure PlanVersion where
  softwareVersion : String
  frozenCases : List NightlySlot

/-- One of the environments of `frozen_plan`. -/
structure PlanEnvironment where
  environmentId : String
  ip : String
  ownerUserId : String
  profileKey : NightlyProfile
  durationProfile : DurationProfile
  versions : List PlanVersion

def microsPerMinute : ℤ := 60000000

/-- `scheduled_start`: midnight of the business date, given in days, at UTC+8. -/
def scheduledStart (businessDate : ℤ) : ℤ := businessDate * dayMicros - 480 * microsPerMinute

def plannedSlot (shared : CIEnvironment) (complete : Bool) (minutes : ℤ) (case other : CICase) :
    Except NightlyFailure NightlySlot := do
  let revision ← orRaise case.reportFieldRevision (.raised (.keyError "report_field_revision"))
  let matching ← orRaise case.payloadMatchesGolden (.raised (.keyError "payload_matches_golden"))
  return {
    caseId := case.caseId
    initialState := ⟨shared, case, ⟨"report-input", revision, matching⟩, complete, some other⟩
    durationMinutes := minutes }

/-- The two slots of a version, each case with the other one as its companion. -/
def plannedVersion (state : CIState) (minutes : ℤ) (primary companion : CICase)
    (release : String × ProductRelease) : Except NightlyFailure PlanVersion := do
  let shared : CIEnvironment :=
    { state.environment with
      softwareVersion := release.1, bufferBehavior := some release.2.bufferBehavior }
  let first ← plannedSlot shared state.diagnosticsComplete minutes primary companion
  let second ← plannedSlot shared state.diagnosticsComplete minutes companion primary
  return ⟨release.1, [first, second]⟩

def expandEnvironment (selection : NightlySelection) : Except NightlyFailure PlanEnvironment :=
  let start := scenarioState selection.profileKey.scenario
  let state : CIState :=
    { start with environment :=
      { start.environment with
        environmentId := selection.environment.environmentId, ip := selection.environment.ip } }
  match state.caseCatalog with
  | [primary, companion] => do
    let primary : CICase :=
      { primary with
        payloadMatchesGolden := some state.report.payloadMatchesGolden
        reportFieldRevision := some state.report.fieldRevision }
    let companion : CICase :=
      { companion with reportFieldRevision := some companion.requiredFieldRevision }
    let versions ← productReleases.mapM
      (plannedVersion state selection.durationProfile.minutes primary companion)
    return {
      environmentId := selection.environment.environmentId
      ip := selection.environment.ip
      ownerUserId := selection.ownerUserId
      profileKey := selection.profileKey
      durationProfile := selection.durationProfile
      versions }
  | _ => .error (.raised (.valueError "not enough values to unpack"))

/-! ## Rows -/

inductive NightlyStatus where
  | planned | running | completed
  deriving DecidableEq

inductive NightlyVersionStatus where
  | pending | running | completed
  deriving DecidableEq

/-- `NightlyVersionExecutionRow` of the batch that holds it. -/
structure NightlyVersion where
  versionExecutionId : String
  environmentId : String
  ownerUserId : String
  ordinal : ℕ
  softwareVersion : String
  frozenCases : List NightlySlot
  status : NightlyVersionStatus
  nextCaseIndex : ℕ
  startedBusinessAt : Option ℤ
  completedBusinessAt : Option ℤ
  startedByUserId : Option String

/-- `CIExecutionRow` of a nightly case. -/
structure NightlyExecution where
  executionId : String
  instanceId : String
  environmentId : String
  caseId : String
  featureId : String
  nightlyVersionExecutionId : String
  businessCompletedAt : ℤ
  result : ExecutionResult

/-- `IncidentRow` as a nightly failure opens it. -/
structure NightlyIncident where
  incidentId : String
  executionId : String
  tenantId : String
  ownerUserId : String
  title : String
  sessionId : String
  createdAt : ℤ

def NightlyVersion.caseDue (version : NightlyVersion) (index : ℕ) : Option ℤ :=
  version.startedBusinessAt.map fun started =>
    started + (((version.frozenCases.take (index + 1)).map (·.durationMinutes)).sum) *
      microsPerMinute

/-! ## Summaries -/

/-- An execution with its version and its incident, as `original_facts` joins them. -/
structure NightlyFact where
  execution : NightlyExecution
  version : NightlyVersion
  incident : Option NightlyIncident

/-- What `fact_payload` returns. -/
structure FactPayload where
  executionId : String
  versionExecutionId : String
  environmentId : String
  ownerUserId : String
  softwareVersion : String
  caseId : String
  outcome : CIOutcome
  incidentId : Option String
  businessCompletedAt : String
  recordedAt : String
  deriving DecidableEq

/-- `fact_payload`. -/
def NightlyFact.payload (fact : NightlyFact) : FactPayload where
  executionId := fact.execution.executionId
  versionExecutionId := fact.version.versionExecutionId
  environmentId := fact.version.environmentId
  ownerUserId := fact.version.ownerUserId
  softwareVersion := fact.version.softwareVersion
  caseId := fact.execution.caseId
  outcome := fact.execution.result.outcome
  incidentId := fact.incident.map (·.incidentId)
  businessCompletedAt := isoTime fact.execution.businessCompletedAt
  recordedAt := isoTime fact.execution.result.completedAt

def FactPayload.toJson (item : FactPayload) : Json :=
  .obj [("execution_id", .str item.executionId),
    ("version_execution_id", .str item.versionExecutionId),
    ("environment_id", .str item.environmentId), ("owner_user_id", .str item.ownerUserId),
    ("software_version", .str item.softwareVersion), ("case_id", .str item.caseId),
    ("outcome", .str item.outcome.value), ("incident_id", .ofOption item.incidentId),
    ("business_completed_at", .str item.businessCompletedAt),
    ("recorded_at", .str item.recordedAt)]

/-- The counts of one value of a key. -/
structure FactCount where
  total : ℕ
  failed : ℕ
  deriving DecidableEq

/-- What `summarize` returns. -/
structure NightlySummary where
  total : ℕ
  passed : ℕ
  failed : ℕ
  items : List FactPayload
  byEnvironmentId : List (String × FactCount)
  byVersionExecutionId : List (String × FactCount)
  byOwnerUserId : List (String × FactCount)
  deriving DecidableEq

/-- The counts under one key, for each of its values in order. -/
def countsBy (key : FactPayload → String) (items : List FactPayload) : List (String × FactCount) :=
  ((items.map key).dedup.insertionSort (· ≤ ·)).map fun value =>
    (value, ⟨items.countP fun item => key item = value,
      items.countP fun item => key item = value ∧ item.outcome = .fail⟩)

def summarize (facts : List NightlyFact) : NightlySummary :=
  let items := facts.map NightlyFact.payload
  { total := items.length
    passed := items.countP fun item => item.outcome = .pass
    failed := items.countP fun item => item.outcome = .fail
    items
    byEnvironmentId := countsBy FactPayload.environmentId items
    byVersionExecutionId := countsBy FactPayload.versionExecutionId items
    byOwnerUserId := countsBy FactPayload.ownerUserId items }

def countsJson (counts : List (String × FactCount)) : Json :=
  .obj (counts.map fun entry =>
    (entry.1, .obj [("total", .int entry.2.total), ("failed", .int entry.2.failed)]))

def NightlySummary.toJson (summary : NightlySummary) : Json :=
  .obj [("total", .int summary.total), ("passed", .int summary.passed),
    ("failed", .int summary.failed), ("items", .arr (summary.items.map FactPayload.toJson)),
    ("by_environment_id", countsJson summary.byEnvironmentId),
    ("by_version_execution_id", countsJson summary.byVersionExecutionId),
    ("by_owner_user_id", countsJson summary.byOwnerUserId)]

/-! ## Batches -/

structure CreateNightly where
  requestId : String
  businessDate : ℤ
  planKey : String
  environments : List NightlySelection
  four_to_six : 4 ≤ environments.length ∧ environments.length ≤ 6
  unique_environments : (environments.map NightlySelection.environment).Nodup
  two_owners : (environments.map NightlySelection.ownerUserId).dedup.length = 2

def NightlySelection.toJson (selection : NightlySelection) : Json :=
  .obj [("environment_id", .str selection.environment.environmentId),
    ("profile_key", .str selection.profileKey.value),
    ("owner_user_id", .str selection.ownerUserId),
    ("duration_profile", .str selection.durationProfile.value)]

/-- `isoformat()` of a date given in days. -/
def isoDate (days : ℤ) : String :=
  let (year, month, day) := civil days
  String.ofList (digits 4 year.toNat ++ '-' :: digits 2 month.toNat ++ '-' :: digits 2 day.toNat)

def CreateNightly.toJson (body : CreateNightly) : Json :=
  .obj [("request_id", .str body.requestId), ("business_date", .str (isoDate body.businessDate)),
    ("plan_key", .str body.planKey),
    ("environments", .arr (body.environments.map NightlySelection.toJson))]

/-- `NightlyCIBatchRow`. -/
structure NightlyBatch where
  batchId : String
  tenantId : String
  createdByUserId : String
  requestId : String
  businessDate : ℤ
  planKey : String
  planDigest : String
  frozenPlan : List PlanEnvironment
  simulatedNow : ℤ
  status : NightlyStatus
  sealedAt : Option ℤ
  sealedSummary : Option NightlySummary
  sealedDigest : Option String

/-- A batch with its rows; the ids are primary keys, so a version's rows are its batch's. -/
structure Nightly where
  batch : NightlyBatch
  versions : List NightlyVersion
  executions : List NightlyExecution
  incidents : List NightlyIncident

namespace Nightly

variable (night : Nightly)

def versionOf (versionExecutionId : String) : Option NightlyVersion :=
  night.versions.find? (·.versionExecutionId = versionExecutionId)

def executionOf (versionExecutionId caseId : String) : Option NightlyExecution :=
  night.executions.find? fun e =>
    e.nightlyVersionExecutionId = versionExecutionId ∧ e.caseId = caseId

def incidentOf (executionId : String) : Option NightlyIncident :=
  night.incidents.find? (·.executionId = executionId)

/-- Write a version row. -/
def setVersion (version : NightlyVersion) : Nightly :=
  { night with versions := night.versions.map fun v =>
      if v.versionExecutionId = version.versionExecutionId then version else v }

/-- The order of the rows of `original_facts`. -/
def factBefore (a b : NightlyFact) : Prop :=
  a.version.environmentId < b.version.environmentId ∨
    a.version.environmentId = b.version.environmentId ∧
      (a.version.ordinal < b.version.ordinal ∨
        a.version.ordinal = b.version.ordinal ∧ a.execution.caseId ≤ b.execution.caseId)

instance : DecidableRel factBefore := fun a b => by unfold factBefore; infer_instance

/-- The facts of one execution: an inner join with its version, an outer join with incidents. -/
def factsOf (execution : NightlyExecution) : List NightlyFact :=
  (night.versions.filter (·.versionExecutionId = execution.nightlyVersionExecutionId)).flatMap
    fun version =>
      match night.incidents.filter (·.executionId = execution.executionId) with
      | [] => [⟨execution, version, none⟩]
      | incidents => incidents.map fun incident => ⟨execution, version, some incident⟩

def originalFacts : List NightlyFact :=
  (night.executions.flatMap night.factsOf).insertionSort factBefore

end Nightly

/-! ## Steps of an advance -/

/-- A step of an advance request. -/
inductive NightlyStep where
  | start (versionExecutionId : String)
  | completeCase (versionExecutionId caseId : String)
  deriving DecidableEq

def NightlyStep.versionExecutionId : NightlyStep → String
  | .start id => id
  | .completeCase id _ => id

/-- One entry of the results of an advance. -/
inductive NightlyResult where
  | started (versionExecutionId : String) (startedBusinessAt : Option ℤ) (reused : Bool)
  | fact (payload : FactPayload) (reused : Bool)
  deriving DecidableEq

/-- The generated ids and the clock reading of one step. -/
structure NightlyStamp where
  now : ℤ
  instanceId : String
  executionId : String
  incidentId : String
  sessionId : String

namespace Nightly

variable (uuid5 : String → String) (night : Nightly)

def recorded : NightlyStep → Option NightlyResult
  | .start id =>
    (night.versionOf id).bind fun version =>
      if version.status ≠ .pending then some (.started id version.startedBusinessAt true) else none
  | .completeCase id caseId =>
    (night.versionOf id).bind fun version => (night.executionOf id caseId).map fun old =>
      .fact (NightlyFact.payload ⟨old, version, night.incidentOf old.executionId⟩) true

def startedVersion (userId : String) (version : NightlyVersion) : NightlyVersion :=
  { version with
    status := .running
    startedBusinessAt := some night.batch.simulatedNow
    startedByUserId := some userId }

def withStarted (started : NightlyVersion) : Nightly :=
  { night.setVersion started with batch := { night.batch with status := .running } }

/-- `START` of a version that is pending. -/
def startVersion (userId : String) (version : NightlyVersion) :
    Except NightlyFailure (Nightly × NightlyResult) := do
  raiseIf (night.batch.simulatedNow < scheduledStart night.batch.businessDate)
    (ciRaise "CI_NIGHTLY_NOT_DUE" 409)
  raiseIf (∃ v ∈ night.versions, v.environmentId = version.environmentId ∧
    v.ordinal < version.ordinal ∧ v.status ≠ .completed) (ciRaise "CI_NIGHTLY_ORDER_CONFLICT" 409)
  let started := night.startedVersion userId version
  return (night.withStarted started,
    .started version.versionExecutionId started.startedBusinessAt false)

/-- `persist_nightly_case`; the execution id is a primary key. -/
def persistNightlyCase (version : NightlyVersion) (slot : NightlySlot) (stamp : NightlyStamp) :
    Except NightlyFailure NightlyExecution := do
  let result ← (slot.initialState.execute uuid5 stamp.executionId none stamp.now).mapError .raised
  raiseIf (∃ e ∈ night.executions, e.executionId = stamp.executionId)
    (.integrityError "ci_executions_pkey")
  return {
    executionId := stamp.executionId
    instanceId := stamp.instanceId
    environmentId := version.environmentId
    caseId := slot.caseId
    featureId := result.executionSnapshot.testCase.featureId
    nightlyVersionExecutionId := version.versionExecutionId
    businessCompletedAt := night.batch.simulatedNow
    result }

/-- The incident that a failed execution opens, for the owner of its version. -/
def failureIncident (version : NightlyVersion) (execution : NightlyExecution)
    (stamp : NightlyStamp) : Option NightlyIncident :=
  if execution.result.outcome = .fail then
    some {
      incidentId := stamp.incidentId
      executionId := execution.executionId
      tenantId := night.batch.tenantId
      ownerUserId := version.ownerUserId
      title := "夜间 CI 失败 · " ++ execution.caseId
      sessionId := stamp.sessionId
      createdAt := stamp.now }
  else none

/-- `next_case_index += 1`; the second case completes the version. -/
def caseDone (version : NightlyVersion) : NightlyVersion :=
  let counted := { version with nextCaseIndex := version.nextCaseIndex + 1 }
  if counted.nextCaseIndex = 2 then
    { counted with
      status := .completed, completedBusinessAt := some night.batch.simulatedNow }
  else counted

def withCase (version : NightlyVersion) (execution : NightlyExecution)
    (incident : Option NightlyIncident) : Nightly :=
  { night.setVersion (night.caseDone version) with
    executions := night.executions ++ [execution]
    incidents := night.incidents ++ incident.toList }

/-- `COMPLETE_CASE` of a case that is not recorded. -/
def completeCase (version : NightlyVersion) (caseId : String) (stamp : NightlyStamp) :
    Except NightlyFailure (Nightly × NightlyResult) := do
  raiseIf (version.status ≠ .running) (ciRaise "CI_NIGHTLY_ORDER_CONFLICT" 409)
  let slot ← orRaise version.frozenCases[version.nextCaseIndex]? .indexError
  raiseIf (slot.caseId ≠ caseId) (ciRaise "CI_NIGHTLY_ORDER_CONFLICT" 409)
  let due ← orRaise (version.caseDue version.nextCaseIndex) .typeError
  raiseIf (night.batch.simulatedNow < due) (ciRaise "CI_NIGHTLY_NOT_DUE" 409)
  let execution ← night.persistNightlyCase uuid5 version slot stamp
  let incident := night.failureIncident version execution stamp
  return (night.withCase version execution incident,
    .fact (NightlyFact.payload ⟨execution, version, incident⟩) false)

/-- One step: a step that was taken before returns its fact before any other check. -/
def advanceStep (userId : String) (stamp : NightlyStamp) (step : NightlyStep) :
    Except NightlyFailure (Nightly × NightlyResult) := do
  let version ← orRaise (night.versionOf step.versionExecutionId) (ciRaise "CI_NOT_FOUND" 404)
  match night.recorded step with
  | some fact => return (night, fact)
  | none =>
    raiseIf (night.batch.status = .completed) (ciRaise "CI_NIGHTLY_SEALED" 409)
    match step with
    | .start _ => night.startVersion userId version
    | .completeCase _ caseId => night.completeCase uuid5 version caseId stamp

/-- The steps of a call, each reading what the earlier ones wrote. -/
def advanceSteps (userId : String) (stamps : String → NightlyStamp) :
    Nightly → List NightlyStep → Except NightlyFailure (Nightly × List NightlyResult)
  | night, [] => .ok (night, [])
  | night, step :: steps => do
    let (night, result) ←
      night.advanceStep uuid5 userId (stamps step.versionExecutionId) step
    let (night, results) ← advanceSteps userId stamps night steps
    return (night, result :: results)

/-- Every version is completed. -/
def AllCompleted : Prop := ∀ v ∈ night.versions, v.status = .completed

instance : Decidable night.AllCompleted := by unfold AllCompleted; infer_instance

/-- The cases that the plan names. -/
def expectedCases : Finset (String × String) :=
  (night.versions.flatMap fun v =>
    v.frozenCases.map fun slot => (v.versionExecutionId, slot.caseId)).toFinset

/-- The end of a call: seal the batch when its last version is completed. -/
def sealBatch (now : ℤ) : Except NightlyFailure Nightly :=
  if night.batch.status ≠ .completed ∧ night.AllCompleted then do
    let facts := night.originalFacts
    let found := (facts.map fun f =>
      (f.execution.nightlyVersionExecutionId, f.execution.caseId)).toFinset
    raiseIf (found ≠ night.expectedCases ∨ facts.length ≠ night.expectedCases.card)
      (ciRaise "CI_NIGHTLY_SEAL_INCOMPLETE" 409)
    let summary := summarize facts
    return { night with batch :=
      { night.batch with
        sealedSummary := some summary
        sealedDigest := some (sha256Digest summary.toJson)
        sealedAt := some now
        status := .completed } }
  else .ok night

end Nightly

/-! ## Calls -/

structure NightlyPrincipal extends CIPrincipal where
  roles : List String
  deriving DecidableEq

def NightlyPrincipal.controller (principal : NightlyPrincipal) : Except NightlyFailure Bool := do
  raiseIf (principal.human = false) (ciRaise "CI_HUMAN_REQUIRED" 403)
  return decide ("OPERATOR" ∈ principal.roles ∨ "ADMIN" ∈ principal.roles)

/-- `scope` with `manage` set. -/
def Nightly.scope (night : Nightly) (principal : NightlyPrincipal) :
    Except NightlyFailure Unit := do
  let controls ← principal.controller
  let allowed := controls && night.batch.createdByUserId = principal.userId
  raiseIf (allowed = false ∧ ∀ e ∈ night.batch.frozenPlan, e.ownerUserId ≠ principal.userId)
    (ciRaise "CI_NOT_FOUND" 404)
  raiseIf (allowed = false) (ciRaise "CI_NIGHTLY_CONTROL_REQUIRED" 403)

def Nightly.clock (night : Nightly) (principal : NightlyPrincipal) (targetBusinessTime : ℤ) :
    Except NightlyFailure Nightly := do
  night.scope principal
  raiseIf (night.batch.status = .completed) (ciRaise "CI_NIGHTLY_SEALED" 409)
  raiseIf (targetBusinessTime < night.batch.simulatedNow)
    (ciRaise "CI_NIGHTLY_CLOCK_BACKWARDS" 409)
  return { night with batch := { night.batch with simulatedNow := targetBusinessTime } }

/-- `advance`: the steps in the order of their versions' ids, then the test for sealing. -/
def Nightly.advance (uuid5 : String → String) (night : Nightly) (principal : NightlyPrincipal)
    (steps : List NightlyStep) (stamps : String → NightlyStamp) (sealedAt : ℤ) :
    Except NightlyFailure (Nightly × List NightlyResult) := do
  night.scope principal
  let targets ← steps.mapM fun step =>
    orRaise (night.versionOf step.versionExecutionId) (ciRaise "CI_NOT_FOUND" 404)
  raiseIf (¬ (targets.map NightlyVersion.environmentId).Nodup)
    (ciRaise "CI_NIGHTLY_DUPLICATE_ENVIRONMENT" 422)
  let (advanced, results) ← Nightly.advanceSteps uuid5 principal.userId stamps night
    (steps.insertionSort fun a b => a.versionExecutionId ≤ b.versionExecutionId)
  let sealedNight ← advanced.sealBatch sealedAt
  return (sealedNight, results)

structure NightlyUser where
  userId : String
  tenantId : String
  human : Bool
  disabled : Bool
  deriving DecidableEq

def plannedRows (versionId : String → ℕ → String) (plan : List PlanEnvironment) :
    List NightlyVersion :=
  plan.flatMap fun env => (env.versions.zipIdx 1).map fun entry =>
    { versionExecutionId := versionId env.environmentId entry.2
      environmentId := env.environmentId
      ownerUserId := env.ownerUserId
      ordinal := entry.2
      softwareVersion := entry.1.softwareVersion
      frozenCases := entry.1.frozenCases
      status := .pending
      nextCaseIndex := 0
      startedBusinessAt := none
      completedBusinessAt := none
      startedByUserId := none }

/-- A new batch, before its simulated clock reaches the scheduled start. -/
def newNightly (principal : NightlyPrincipal) (body : CreateNightly) (batchId : String)
    (plan : List PlanEnvironment) (rows : List NightlyVersion) : Nightly where
  batch :=
    { batchId
      tenantId := principal.tenantId
      createdByUserId := principal.userId
      requestId := body.requestId
      businessDate := body.businessDate
      planKey := body.planKey
      planDigest := sha256Digest body.toJson
      frozenPlan := plan
      simulatedNow := scheduledStart body.businessDate - 5 * microsPerMinute
      status := .planned
      sealedAt := none
      sealedSummary := none
      sealedDigest := none }
  versions := rows
  executions := []
  incidents := []

/-- The batches, with what belongs to each. -/
abbrev NightlyDesk := List Nightly

namespace NightlyDesk

variable (desk : NightlyDesk)

/-- The batch of the same creator under the same request, or under the same date and plan. -/
def sameIntent (principal : NightlyPrincipal) (body : CreateNightly) : Option Nightly :=
  desk.find? fun night =>
    night.batch.tenantId = principal.tenantId ∧ night.batch.createdByUserId = principal.userId ∧
      (night.batch.requestId = body.requestId ∨
        night.batch.businessDate = body.businessDate ∧ night.batch.planKey = body.planKey)

/-- The batch of an earlier call of the same intent, if its plan is the same. -/
def reuse (existing : Nightly) (body : CreateNightly) : Except NightlyFailure NightlyDesk := do
  raiseIf (existing.batch.planDigest ≠ sha256Digest body.toJson)
    (ciRaise "CI_REQUEST_CONFLICT" 409)
  return desk

/-- `create`.  When `raced` is set the first read missed a batch that was committed meanwhile; the
insertion then does nothing and the batch is read again. -/
def create (principal : NightlyPrincipal) (body : CreateNightly) (users : List NightlyUser)
    (raced : Bool) (batchId : String) (versionId : String → ℕ → String) :
    Except NightlyFailure NightlyDesk := do
  let controls ← principal.controller
  raiseIf (controls = false) (ciRaise "CI_NIGHTLY_CONTROL_REQUIRED" 403)
  match if raced then none else desk.sameIntent principal body with
  | some existing => desk.reuse existing body
  | none =>
    raiseIf (∃ e ∈ body.environments, ¬ ∃ u ∈ users, u.userId = e.ownerUserId ∧
      u.tenantId = principal.tenantId ∧ u.disabled = false ∧ u.human = true)
      (ciRaise "CI_NIGHTLY_OWNER_INVALID" 422)
    let plan ← body.environments.mapM expandEnvironment
    if (desk.sameIntent principal body).isSome ∨ ∃ night ∈ desk, night.batch.batchId = batchId then
      match desk.sameIntent principal body with
      | none => .error (ciRaise "CI_REQUEST_CONFLICT" 409)
      | some retry => desk.reuse retry body
    else
      let rows := plannedRows versionId plan
      raiseIf (¬ (rows.map NightlyVersion.versionExecutionId).Nodup)
        (.integrityError "nightly_version_executions_pkey")
      return desk ++ [newNightly principal body batchId plan rows]

def onBatch (principal : NightlyPrincipal) (batchId : String)
    (call : Nightly → Except NightlyFailure Nightly) : Except NightlyFailure NightlyDesk := do
  raiseIf (principal.human = false) (ciRaise "CI_HUMAN_REQUIRED" 403)
  raiseIf (¬ ∃ night ∈ desk, night.batch.batchId = batchId ∧
    night.batch.tenantId = principal.tenantId) (ciRaise "CI_NOT_FOUND" 404)
  desk.mapM fun night => if night.batch.batchId = batchId then call night else .ok night

end NightlyDesk

inductive NightlyCall where
  | create (principal : NightlyPrincipal) (body : CreateNightly) (users : List NightlyUser)
      (raced : Bool) (batchId : String) (versionId : String → ℕ → String)
  | clock (principal : NightlyPrincipal) (batchId : String) (targetBusinessTime : ℤ)
  | advance (principal : NightlyPrincipal) (batchId : String) (steps : List NightlyStep)
      (stamps : String → NightlyStamp) (sealedAt : ℤ)

namespace NightlyDesk

variable (uuid5 : String → String)

def transact (desk : NightlyDesk) : NightlyCall → Except NightlyFailure NightlyDesk
  | .create principal body users raced batchId versionId =>
    desk.create principal body users raced batchId versionId
  | .clock principal batchId target =>
    desk.onBatch principal batchId fun night => night.clock principal target
  | .advance principal batchId steps stamps sealedAt =>
    desk.onBatch principal batchId fun night =>
      (night.advance uuid5 principal steps stamps sealedAt).map Prod.fst

/-- A call: the transaction is committed, or rolled back when it raises. -/
def step (desk : NightlyDesk) (call : NightlyCall) : NightlyDesk :=
  match desk.transact uuid5 call with
  | .ok desk' => desk'
  | .error _ => desk

/-- Calls in the order in which their transactions are serialised. -/
def run (desk : NightlyDesk) (calls : List NightlyCall) : NightlyDesk :=
  calls.foldl (NightlyDesk.step uuid5) desk

end NightlyDesk

end LocalAgent.Runtime
