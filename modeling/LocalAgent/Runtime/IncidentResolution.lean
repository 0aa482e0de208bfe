import LocalAgent.Runtime.CISimulation

/-!
# LocalAgent.Runtime.IncidentResolution — `core/incidents`, actions, verifications and the close

The manual way from a failed execution to a closed incident.  Every operation is one transaction
under the lock of the scenario instance, so it is one function of the tables; an exception leaves
them as they were.

* `ResolutionDesk`: the tables and the clock.
* `executeInstance`, `createAction`, `confirmAction`, `createVerification`, `closeIncident`.
* `ResolutionDesk.step`: one call by some user, or the passing of time.
-/

namespace LocalAgent.Runtime

/-! ## Rows -/

structure CIPrincipal where
  tenantId : String
  userId : String
  human : Bool
  deriving DecidableEq

/-- `ScenarioInstanceRow`. -/
structure ScenarioInstance where
  tenantId : String
  ownerUserId : String
  stateRevision : ℕ
  currentState : CIState

/-- `CIExecutionRow`, with what `execute` returned. -/
structure CIExecution where
  executionId : String
  instanceId : String
  requestId : String
  environmentId : String
  caseId : String
  featureId : String
  stateRevision : ℕ
  result : ExecutionResult

structure CloseRequest where
  requestId : String
  expectedStateRevision : ℕ
  actionId : String
  singleVerificationId : String
  groupVerificationId : String
  rootCause : String
  fixConfirmation : String
  regressionConfirmed : Bool
  deriving DecidableEq

/-- `closed_at`, `closed_by_user_id` and `closure_payload`. -/
structure IncidentClosure where
  closedAt : ℤ
  closedByUserId : String
  stateRevision : ℕ
  actionId : String
  singleVerificationId : String
  groupVerificationId : String
  confirmation : CloseRequest

inductive CIIncidentStatus where
  | opened | pendingVerification
  | closed (closure : IncidentClosure)

def CIIncidentStatus.closure : CIIncidentStatus → Option IncidentClosure
  | opened | pendingVerification => none
  | closed c => some c

/-- `IncidentRow`. -/
structure CIIncident where
  incidentId : String
  executionId : String
  tenantId : String
  ownerUserId : String
  title : String
  createdAt : ℤ
  status : CIIncidentStatus

/-- `preview_payload`. -/
structure FrozenPreview where
  instanceId : String
  baseStateRevision : ℕ
  preview : ActionPreview
  deriving DecidableEq

def FieldValue.toJson : FieldValue → Json
  | text s => .str s
  | number n => .int n
  | flag b => .bool b

def ActionKind.value : ActionKind → String
  | upgradeParserDecoder => "UPGRADE_PARSER_DECODER"
  | setFeatureFlag => "SET_FEATURE_FLAG"
  | refreshCaseInput => "REFRESH_CASE_INPUT"
  | deliverProductFix => "DELIVER_PRODUCT_FIX"

def FrozenPreview.digest (frozen : FrozenPreview) : String :=
  let p := frozen.preview
  sha256Digest (.obj [("instance_id", .str frozen.instanceId),
    ("base_state_revision", .int frozen.baseStateRevision),
    ("action_kind", .str p.actionKind.value), ("target_case_id", .ofOption p.targetCaseId),
    ("changes", .arr (p.changes.map fun c => .obj [("path", .arr (c.field.path.map .str)),
      ("before", (c.before.map FieldValue.toJson).getD .null), ("after", c.after.toJson)])),
    ("environment_id", .str p.environmentId), ("case_ids", .arr (p.caseIds.map .str)),
    ("description", .str p.description), ("source_kind", .str "HUMAN_MANUAL")])

/-- What the confirmation of an action records. -/
structure ActionResult where
  confirmedByUserId : String
  confirmedAt : ℤ
  appliedStateRevision : ℕ
  instanceId : String
  changes : List StateChange

/-- `PREVIEWED`, or `APPLIED` with the confirmation's columns. -/
inductive IncidentActionStatus where
  | previewed
  | applied (result : ActionResult)

def IncidentActionStatus.result : IncidentActionStatus → Option ActionResult
  | previewed => none
  | applied r => some r

/-- `IncidentActionRow`. -/
structure IncidentAction where
  actionId : String
  incidentId : String
  requestId : String
  actionKind : ActionKind
  createdByUserId : String
  createdAt : ℤ
  baseStateRevision : ℕ
  parameters : ActionParameters
  previewPayload : FrozenPreview
  previewDigest : String
  status : IncidentActionStatus

inductive VerificationMode where
  | single | group
  deriving DecidableEq

/-- `IncidentVerificationRow`; an item is a case with its execution. -/
structure IncidentVerification where
  verificationId : String
  incidentId : String
  instanceId : String
  requestId : String
  mode : VerificationMode
  policyVersion : String
  stateRevision : ℕ
  requestedCaseIds : List String
  items : List (String × String)
  createdByUserId : String
  completedAt : ℤ

/-- `VERIFICATION_POLICY`. -/
def verificationPolicy : String := "ci-manual-verification.v1"

/-! ## The tables -/

structure ResolutionDesk where
  instances : Dict String ScenarioInstance
  executions : Dict String CIExecution
  incidents : Dict String CIIncident
  actions : Dict String IncidentAction
  verifications : Dict String IncidentVerification
  now : ℤ

/-- `CI_NOT_FOUND`. -/
def ciNotFound : CIFailure := .ciError "CI_NOT_FOUND" 404

/-- What `resolution_scope` returns. -/
structure ResolutionScope where
  incident : CIIncident
  origin : CIExecution
  instanceId : String
  scenario : ScenarioInstance

namespace ResolutionDesk

variable (s : ResolutionDesk)

/-- The instance of an owner, under its lock. -/
def ownedInstance (principal : CIPrincipal) (instanceId : String) :
    Except CIFailure ScenarioInstance :=
  match s.instances.get? instanceId with
  | none => .error ciNotFound
  | some row =>
    if row.ownerUserId = principal.userId ∧ row.tenantId = principal.tenantId then .ok row
    else .error ciNotFound

def ownedIncident (principal : CIPrincipal) (incidentId : String) : Except CIFailure CIIncident :=
  match s.incidents.get? incidentId with
  | none => .error ciNotFound
  | some row =>
    if row.tenantId = principal.tenantId ∧ row.ownerUserId = principal.userId then .ok row
    else .error ciNotFound

def resolutionScope (principal : CIPrincipal) (incidentId : String) :
    Except CIFailure ResolutionScope := do
  raiseIf (principal.human = false) (.ciError "CI_HUMAN_REQUIRED" 403)
  let incident ← s.ownedIncident principal incidentId
  let origin ← orRaise (s.executions.get? incident.executionId) (.valueError "origin")
  let row ← s.ownedInstance principal origin.instanceId
  return ⟨incident, origin, origin.instanceId, row⟩

/-! ## Actions -/

def actionOf (incidentId requestId : String) : Option IncidentAction :=
  s.actions.values.find? fun row => row.incidentId = incidentId ∧ row.requestId = requestId

/-- `action_payload`: the row, and whether its preview is stale. -/
structure ActionPayload where
  row : IncidentAction
  stale : Bool

def actionPayload (row : IncidentAction) (currentRevision : ℕ) : ActionPayload :=
  ⟨row, row.status.result.isNone && currentRevision != row.baseStateRevision⟩

structure ActionIntent where
  requestId : String
  actionKind : ActionKind
  targetCaseId : Option String
  parameters : ActionParameters

def createAction (principal : CIPrincipal) (incidentId : String) (body : ActionIntent)
    (actionId : String) : Except CIFailure (ResolutionDesk × ActionPayload) := do
  let scope ← s.resolutionScope principal incidentId
  let revision := scope.scenario.stateRevision
  match s.actionOf incidentId body.requestId with
  | some old =>
    raiseIf (old.actionKind ≠ body.actionKind ∨ old.parameters ≠ body.parameters ∨
      old.previewPayload.preview.targetCaseId ≠ body.targetCaseId)
      (.ciError "CI_REQUEST_CONFLICT" 409)
    return (s, actionPayload old revision)
  | none =>
    raiseIf (scope.incident.status.closure.isSome = true) (.ciError "CI_INCIDENT_CLOSED" 409)
    let preview ← scope.scenario.currentState.preview body.actionKind body.targetCaseId
      body.parameters
    let frozen : FrozenPreview := ⟨scope.instanceId, revision, preview⟩
    let row : IncidentAction := {
      actionId, incidentId, requestId := body.requestId, actionKind := body.actionKind
      createdByUserId := principal.userId, createdAt := s.now, baseStateRevision := revision
      parameters := body.parameters, previewPayload := frozen, previewDigest := frozen.digest
      status := .previewed }
    return ({ s with actions := s.actions.set actionId row }, actionPayload row revision)

def incidentAction (incidentId actionId : String) : Except CIFailure IncidentAction :=
  match s.actions.get? actionId with
  | none => .error ciNotFound
  | some row => if row.incidentId = incidentId then .ok row else .error ciNotFound

def confirmAction (principal : CIPrincipal) (incidentId actionId : String) (confirmed : Bool)
    (previewDigest : String) : Except CIFailure (ResolutionDesk × ActionPayload) := do
  let scope ← s.resolutionScope principal incidentId
  let row ← s.incidentAction incidentId actionId
  raiseIf (confirmed = false ∨ previewDigest ≠ row.previewDigest ∨
    row.previewPayload.digest ≠ row.previewDigest) (.ciError "CI_ACTION_CONFIRMATION_INVALID" 409)
  if row.status.result.isSome then
    return (s, actionPayload row scope.scenario.stateRevision)
  raiseIf (scope.incident.status.closure.isSome = true) (.ciError "CI_INCIDENT_CLOSED" 409)
  raiseIf (row.baseStateRevision ≠ scope.scenario.stateRevision) (.ciError "CI_ACTION_STALE" 409)
  let frozen := row.previewPayload.preview
  let updated ← scope.scenario.currentState.applyPreview row.actionKind frozen.targetCaseId
    row.parameters frozen
  let revision := scope.scenario.stateRevision + 1
  let applied := { row with
    status := .applied ⟨principal.userId, s.now, revision, scope.instanceId, frozen.changes⟩ }
  return ({ s with
    instances := s.instances.set scope.instanceId
      { scope.scenario with currentState := updated, stateRevision := revision }
    actions := s.actions.set actionId applied
    incidents :=
      s.incidents.set incidentId { scope.incident with status := .pendingVerification } },
    actionPayload applied revision)

/-! ## Executions -/

def executionOf (instanceId requestId : String) : Option CIExecution :=
  s.executions.values.find? fun row => row.instanceId = instanceId ∧ row.requestId = requestId

/-- `execute_instance`: the execution, and whether it is new. -/
def executeInstance (uuid5 : String → String) (principal : CIPrincipal)
    (instanceId requestId : String) (caseId : Option String) (expected : Option ℕ)
    (executionId : String) : Except CIFailure (ResolutionDesk × CIExecution × Bool) := do
  let row ← s.ownedInstance principal instanceId
  match s.executionOf instanceId requestId with
  | some old =>
    raiseIf ((∃ c ∈ caseId, old.caseId ≠ c) ∨ ∃ r ∈ expected, old.stateRevision ≠ r)
      (.ciError "CI_REQUEST_CONFLICT" 409)
    return (s, old, false)
  | none =>
    raiseIf (∃ r ∈ expected, row.stateRevision ≠ r) (.ciError "CI_STATE_STALE" 409)
    raiseIf (∃ c ∈ caseId, c ∉ row.currentState.caseIds) (.ciError "CI_CASE_UNKNOWN" 422)
    let result ← row.currentState.execute uuid5 executionId caseId s.now
    let snapshot := result.executionSnapshot
    let execution : CIExecution := {
      executionId, instanceId, requestId, environmentId := snapshot.environment.environmentId
      caseId := snapshot.testCase.caseId, featureId := snapshot.testCase.featureId
      stateRevision := row.stateRevision, result }
    return ({ s with executions := s.executions.set executionId execution }, execution, true)

/-- `execute`: a failed new execution opens an incident. -/
def execute (uuid5 : String → String) (principal : CIPrincipal) (instanceId requestId : String)
    (caseId : Option String) (expected : Option ℕ) (executionId incidentId : String) :
    Except CIFailure (ResolutionDesk × CIExecution × Option CIIncident × Bool) := do
  let (desk, execution, created) ← s.executeInstance uuid5 principal instanceId requestId caseId
    expected executionId
  if created ∧ execution.result.outcome = .fail then
    let incident : CIIncident := {
      incidentId, executionId := execution.executionId, tenantId := principal.tenantId
      ownerUserId := principal.userId, title := "CI 执行失败 · " ++ execution.caseId
      createdAt := execution.result.completedAt, status := .opened }
    return ({ desk with incidents := desk.incidents.set incidentId incident }, execution,
      some incident, true)
  return (desk, execution,
    desk.incidents.values.find? (·.executionId = execution.executionId), created)

/-! ## Verifications -/

def verificationOf (incidentId requestId : String) : Option IncidentVerification :=
  s.verifications.values.find? fun row => row.incidentId = incidentId ∧ row.requestId = requestId

/-- `state_differences`, in the order of the source's paths. -/
def stateDifferences (before after : CIState) :
    List (StateField × Option FieldValue × Option FieldValue) :=
  ([.softwareVersion, .parserVersion, .decoderTableVersion, .parserSupportedFieldRevision,
    .decoderSupportedFieldRevision, .bufferBehavior, .compressedTransport, .inputRevision,
    .reportFieldRevision].filter fun f => before.read f ≠ after.read f).map
      fun f => (f, before.read f, after.read f)

/-- `verification_payload`: the row, its executions and the comparison with the origin. -/
structure VerificationPayload where
  row : IncidentVerification
  items : List CIExecution
  passed : Bool
  newExecution : Option CIExecution
  changes : List (StateField × Option FieldValue × Option FieldValue)

def verificationItem (row : IncidentVerification) (item : String × String) :
    Except CIFailure CIExecution :=
  match s.executions.get? item.2 with
  | none => .error (.ciError "CI_VERIFICATION_INCOMPLETE" 409)
  | some execution =>
    if execution.instanceId = row.instanceId ∧ execution.caseId = item.1 ∧
      execution.stateRevision = row.stateRevision then .ok execution
    else .error (.ciError "CI_VERIFICATION_INCOMPLETE" 409)

def verificationPayload (row : IncidentVerification) (origin : CIExecution) :
    Except CIFailure VerificationPayload := do
  let items ← row.items.mapM (s.verificationItem row)
  let primary := items.reverse.find? (·.caseId = origin.caseId)
  return ⟨row, items, items.all (·.result.outcome = .pass), primary,
    (primary.map fun e => stateDifferences origin.result.executionSnapshot
      e.result.executionSnapshot).getD []⟩

structure VerificationIntent where
  requestId : String
  mode : VerificationMode
  caseIds : List String
  expectedStateRevision : ℕ

def executeCases (uuid5 : String → String) (principal : CIPrincipal)
    (instanceId verificationId : String) (revision : ℕ) (executionIds : String → String) :
    ResolutionDesk → List String → Except CIFailure (ResolutionDesk × List CIExecution)
  | desk, [] => .ok (desk, [])
  | desk, caseId :: rest => do
    let (desk', execution, _) ← desk.executeInstance uuid5 principal instanceId
      (uuid5 (verificationId ++ ":" ++ caseId)) (some caseId) (some revision) (executionIds caseId)
    let (desk'', executions) ←
      executeCases uuid5 principal instanceId verificationId revision executionIds desk' rest
    return (desk'', execution :: executions)

/-- `create_verification`; `executionIds` gives the new id of each case's execution. -/
def createVerification (uuid5 : String → String) (principal : CIPrincipal) (incidentId : String)
    (body : VerificationIntent) (verificationId : String) (executionIds : String → String) :
    Except CIFailure (ResolutionDesk × VerificationPayload) := do
  let scope ← s.resolutionScope principal incidentId
  match s.verificationOf incidentId body.requestId with
  | some old =>
    raiseIf (old.mode ≠ body.mode ∨ old.requestedCaseIds ≠ body.caseIds ∨
      old.stateRevision ≠ body.expectedStateRevision) (.ciError "CI_REQUEST_CONFLICT" 409)
    let payload ← s.verificationPayload old scope.origin
    return (s, payload)
  | none =>
    let revision := scope.scenario.stateRevision
    raiseIf (scope.incident.status.closure.isSome = true) (.ciError "CI_INCIDENT_CLOSED" 409)
    raiseIf (revision ≠ body.expectedStateRevision) (.ciError "CI_STATE_STALE" 409)
    let required := match body.mode with
      | .single => [scope.origin.caseId]
      | .group => scope.scenario.currentState.caseIds
    raiseIf (body.caseIds ≠ required ∨ required.head? ≠ some scope.origin.caseId)
      (.ciError "CI_VERIFICATION_CASES_INVALID" 422)
    let (desk, executions) ← executeCases uuid5 principal scope.instanceId verificationId revision
      executionIds s required
    let row : IncidentVerification := {
      verificationId, incidentId, instanceId := scope.instanceId, requestId := body.requestId
      mode := body.mode, policyVersion := verificationPolicy, stateRevision := revision
      requestedCaseIds := required
      items := List.zip required (executions.map CIExecution.executionId)
      createdByUserId := principal.userId
      completedAt := (executions.getLast?.map (·.result.completedAt)).getD s.now }
    let done := { desk with verifications := desk.verifications.set verificationId row }
    let payload ← done.verificationPayload row scope.origin
    return (done, payload)

/-! ## The close -/

/-- `closure_inputs`: the latest applied action. -/
def latestAction (incidentId : String) : Option (IncidentAction × ActionResult) :=
  ((s.actions.values.filterMap fun row =>
    if row.incidentId = incidentId then row.status.result.map (row, ·) else none).insertionSort
      fun a b => b.2.appliedStateRevision ≤ a.2.appliedStateRevision).head?

/-- `closure_inputs`: the latest verification of a mode on a revision. -/
def latestVerification (incidentId : String) (mode : VerificationMode) (revision : ℕ) :
    Option IncidentVerification :=
  ((s.verifications.values.filter fun row => row.incidentId = incidentId ∧ row.mode = mode ∧
    row.stateRevision = revision).insertionSort fun a b => b.completedAt < a.completedAt ∨
      (a.completedAt = b.completedAt ∧ a.verificationId ≤ b.verificationId)).head?

/-- One item of a batch in `validate_closure`. -/
def validateItem (instanceId : String) (revision : ℕ) (confirmedAt : ℤ)
    (item : (String × String) × String) : Except CIFailure Unit := do
  match s.executions.get? item.1.2 with
  | none => .error (.ciError "CI_VERIFICATION_INCOMPLETE" 409)
  | some execution =>
    raiseIf (item.1.1 ≠ item.2 ∨ execution.caseId ≠ item.2 ∨ execution.instanceId ≠ instanceId ∨
      execution.stateRevision ≠ revision ∨ execution.result.startedAt < confirmedAt)
      (.ciError "CI_VERIFICATION_INCOMPLETE" 409)
    raiseIf (execution.result.outcome ≠ .pass) (.ciError "CI_VERIFICATION_FAILED" 409)

/-- One batch in `validate_closure`. -/
def validateBatch (scope : ResolutionScope) (confirmedAt : ℤ) (batch : IncidentVerification)
    (mode : VerificationMode) (cases : List String) : Except CIFailure Unit := do
  raiseIf (batch.incidentId ≠ scope.incident.incidentId ∨ batch.instanceId ≠ scope.instanceId ∨
    batch.stateRevision ≠ scope.scenario.stateRevision ∨ batch.mode ≠ mode ∨
    batch.policyVersion ≠ verificationPolicy ∨ batch.requestedCaseIds ≠ cases ∨
    batch.items.length ≠ cases.length ∨ batch.completedAt < confirmedAt)
    (.ciError "CI_VERIFICATION_INCOMPLETE" 409)
  (List.zip batch.items cases).forM
    (s.validateItem scope.instanceId scope.scenario.stateRevision confirmedAt)

def validateClosure (scope : ResolutionScope) (action : Option (IncidentAction × ActionResult))
    (single group : Option IncidentVerification) : Except CIFailure Unit :=
  match action, single, group with
  | some (_, result), some single, some group => do
    raiseIf (result.appliedStateRevision ≠ scope.scenario.stateRevision)
      (.ciError "CI_VERIFICATION_INCOMPLETE" 409)
    s.validateBatch scope result.confirmedAt single .single [scope.origin.caseId]
    s.validateBatch scope result.confirmedAt group .group scope.scenario.currentState.caseIds
  | _, _, _ => .error (.ciError "CI_VERIFICATION_INCOMPLETE" 409)

/-- What `closure_eligibility` answers. -/
structure ClosureEligibility where
  eligible : Bool
  reason : Option CIFailure
  actionId : Option String
  singleVerificationId : Option String
  groupVerificationId : Option String

def closureEligibility (scope : ResolutionScope) : ClosureEligibility :=
  let incidentId := scope.incident.incidentId
  let revision := scope.scenario.stateRevision
  let action := s.latestAction incidentId
  let single := s.latestVerification incidentId .single revision
  let group := s.latestVerification incidentId .group revision
  let reason := if scope.incident.status.closure.isSome then
      some (.ciError "CI_INCIDENT_CLOSED" 409)
    else match s.validateClosure scope action single group with
      | .ok _ => none
      | .error e => some e
  ⟨reason.isNone, reason, action.map (·.1.actionId), single.map (·.verificationId),
    group.map (·.verificationId)⟩

structure ClosedPayload where
  incidentId : String
  closure : IncidentClosure

def closeIncident (principal : CIPrincipal) (incidentId : String) (body : CloseRequest) :
    Except CIFailure (ResolutionDesk × ClosedPayload) := do
  let scope ← s.resolutionScope principal incidentId
  match scope.incident.status.closure with
  | some closure =>
    raiseIf (closure.confirmation ≠ body) (.ciError "CI_INCIDENT_CLOSED" 409)
    return (s, ⟨incidentId, closure⟩)
  | none =>
    let revision := scope.scenario.stateRevision
    raiseIf (body.regressionConfirmed = false ∨ revision ≠ body.expectedStateRevision)
      (.ciError "CI_VERIFICATION_INCOMPLETE" 409)
    let action := s.latestAction incidentId
    let single := s.latestVerification incidentId .single revision
    let group := s.latestVerification incidentId .group revision
    raiseIf (action.map (·.1.actionId) ≠ some body.actionId ∨
      single.map (·.verificationId) ≠ some body.singleVerificationId ∨
      group.map (·.verificationId) ≠ some body.groupVerificationId)
      (.ciError "CI_VERIFICATION_INCOMPLETE" 409)
    s.validateClosure scope action single group
    let closure : IncidentClosure := ⟨s.now, principal.userId, revision, body.actionId,
      body.singleVerificationId, body.groupVerificationId, body⟩
    return ({ s with incidents :=
      s.incidents.set incidentId { scope.incident with status := .closed closure } },
      ⟨incidentId, closure⟩)

/-! ## Calls -/

/-- The random ids a call may give its new rows. -/
structure FreshIds where
  object : String
  incident : String
  executions : String → String

inductive ResolutionCall where
  | execute (instanceId requestId : String) (caseId : Option String) (expected : Option ℕ)
  | createAction (incidentId : String) (body : ActionIntent)
  | confirmAction (incidentId actionId : String) (confirmed : Bool) (previewDigest : String)
  | createVerification (incidentId : String) (body : VerificationIntent)
  | closeIncident (incidentId : String) (body : CloseRequest)

def ResolutionCall.caseIds : ResolutionCall → List String
  | .createVerification _ body => body.caseIds
  | _ => []

/-- The ids are new, and two cases have two of them. -/
def IsFresh (ids : FreshIds) (call : ResolutionCall) : Prop :=
  ids.object ∉ s.actions.keys ∧ ids.object ∉ s.verifications.keys ∧
    ids.object ∉ s.executions.keys ∧ ids.incident ∉ s.incidents.keys ∧
    ∀ a ∈ call.caseIds, ids.executions a ∉ s.executions.keys ∧
      ∀ b ∈ call.caseIds, ids.executions a = ids.executions b → a = b
  deriving Decidable

inductive ResolutionReply where
  | executed (execution : CIExecution) (incident : Option CIIncident)
  | action (payload : ActionPayload)
  | verification (payload : VerificationPayload)
  | closed (payload : ClosedPayload)

/-- One transaction: the tables after it and its answer. -/
def perform (uuid5 : String → String) (principal : CIPrincipal) (ids : FreshIds) :
    ResolutionCall → Except CIFailure (ResolutionDesk × ResolutionReply)
  | .execute instanceId requestId caseId expected =>
    (s.execute uuid5 principal instanceId requestId caseId expected ids.object ids.incident).map
      fun r => (r.1, .executed r.2.1 r.2.2.1)
  | .createAction incidentId body =>
    (s.createAction principal incidentId body ids.object).map fun r => (r.1, .action r.2)
  | .confirmAction incidentId actionId confirmed digest =>
    (s.confirmAction principal incidentId actionId confirmed digest).map
      fun r => (r.1, .action r.2)
  | .createVerification incidentId body =>
    (s.createVerification uuid5 principal incidentId body ids.object ids.executions).map
      fun r => (r.1, .verification r.2)
  | .closeIncident incidentId body =>
    (s.closeIncident principal incidentId body).map fun r => (r.1, .closed r.2)

/-- A call by some user, a new instance (`create_instance`, or one of a nightly case), a nightly
execution with the incident of its failure, or the passing of time. -/
inductive ResolutionAction where
  | call (principal : CIPrincipal) (ids : FreshIds) (call : ResolutionCall)
  | createInstance (instanceId : String) (row : ScenarioInstance)
  | nightlyCase (execution : CIExecution) (incident : Option CIIncident)
  | tick (elapsed : ℕ)

/-- The rows of a nightly case are new, and the incident is open. -/
def IsNewCase (execution : CIExecution) (incident : Option CIIncident) : Prop :=
  execution.executionId ∉ s.executions.keys ∧
    (s.executionOf execution.instanceId execution.requestId).isNone = true ∧
    ∀ i ∈ incident, i.incidentId ∉ s.incidents.keys ∧ i.status.closure.isNone = true
  deriving Decidable

/-- The tables with one more incident, if there is one. -/
def withIncident : Option CIIncident → ResolutionDesk
  | some i => { s with incidents := s.incidents.set i.incidentId i }
  | none => s

/-- One transaction, which changes nothing when it raises, or the passing of time. -/
def step (uuid5 : String → String) (s : ResolutionDesk) : ResolutionAction → Option ResolutionDesk
  | .call principal ids call =>
    if s.IsFresh ids call then
      match s.perform uuid5 principal ids call with
      | .ok (s', _) => some s'
      | .error _ => some s
    else none
  | .createInstance instanceId row =>
    if instanceId ∉ s.instances.keys then
      some { s with instances := s.instances.set instanceId row }
    else none
  | .nightlyCase execution incident =>
    if s.IsNewCase execution incident then
      some (withIncident { s with
        executions := s.executions.set execution.executionId execution } incident)
    else none
  | .tick elapsed => some { s with now := s.now + elapsed }

end ResolutionDesk

end LocalAgent.Runtime
