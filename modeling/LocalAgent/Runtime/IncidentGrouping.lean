import LocalAgent.Runtime.IncidentResolution

/-!
# LocalAgent.Runtime.IncidentGrouping — `core/incidents/grouping.py`

The groups that the failures of a nightly batch fall into by what their evidence shows, and the
decisions people take on them.  `observe` and `decide` run in their callers' transactions, under the
lock of the group; an exception leaves the tables as they were.

* `signature`: what the evidence of an execution shows, if it is complete and consistent.
* `GroupingDesk.observe`, `GroupingDesk.decide`, `GroupingDesk.payload`.
* `GroupingDesk.step`: one observed failure, one decision, or a change of an incident's status.
-/

namespace LocalAgent.Json

/-! ## Reading JSON records -/

/-- `dict.get(key)`: an absent field is `None`. -/
def getField (value : Json) (key : String) : Json :=
  match value with
  | .obj fields => (fields.lookup key).getD .null
  | _ => .null

/-- Equality of two recorded values. -/
def same (a b : Json) : Bool := a.canonical = b.canonical

/-- `bool(value)`. -/
def truthy : Json → Bool
  | .null => false
  | .bool b => b
  | .int n => n != 0
  | .str s => s != ""
  | .arr items => !items.isEmpty
  | .obj fields => !fields.isEmpty

/-- The value as an integer, if it is one. -/
def asInt : Json → Option ℤ
  | .int n => some n
  | .bool b => some (if b then 1 else 0)
  | _ => none

end LocalAgent.Json

namespace LocalAgent.Runtime

/-! ## Signatures -/

/-- `RULE`. -/
def groupingRule : String := "parser-compatibility.v1"

structure EvidenceRef where
  evidenceId : String
  digest : String
  kind : String
  deriving DecidableEq

/-- What `signature` returns: the payload or a reason, and the evidence it used. -/
structure SignatureResult where
  payload : Option Json
  reason : Option String
  refs : List EvidenceRef

def requiredContent (execution : CIExecution) (kind : String) : Option (Json × EvidenceRef) :=
  match execution.result.evidenceManifest.reverse.find? (·.kind = kind) with
  | none => none
  | some entry =>
    match entry.content with
    | some (.obj fields) =>
      let content : Json := .obj fields
      if entry.availability = "AVAILABLE" ∧ entry.digest = some (sha256Digest content) ∧
          (content.getField "execution_id").same (.str execution.executionId) = true then
        some (content, ⟨entry.evidenceId, sha256Digest content, kind⟩)
      else none
    | _ => none

/-- The parser's tools, which the environment's record must repeat. -/
def signatureTools : List String :=
  ["parser_version", "decoder_table_version", "parser_supported_field_revision",
    "decoder_supported_field_revision"]

/-- The evidence agrees that the comparison called the parser and the parser failed. -/
def consistentFailure (parser compare summary : Json) : Bool :=
  let stages := match summary.getField "stages" with
    | .arr items => items
    | _ => []
  let failure := (stages.find? fun s => (s.getField "error").truthy).getD (.obj [])
  (parser.getField "status").same (.str "EXECUTED") &&
    (parser.getField "skipped_reason").same .null &&
    (failure.getField "stage").same (.str "PARSER") &&
    (failure.getField "error").same (parser.getField "error") &&
    (compare.getField "caller").same (.str "COMPARE") &&
    (compare.getField "callee").same (.str "PARSER") &&
    (compare.getField "error").same (.str "PARSE_RESULT_EMPTY") &&
    (compare.getField "skipped_reason").same .null &&
    (compare.getField "call_id").same (parser.getField "call_id") &&
    (compare.getField "artifact_id").same (parser.getField "artifact_id")

/-- The revision of the report is above what the tools support, and as the case requires. -/
def unsupportedRevision (parser env case : Json) : Bool :=
  match (parser.getField "field_revision").asInt,
      (parser.getField "parser_supported_field_revision").asInt,
      (parser.getField "decoder_supported_field_revision").asInt with
  | some revision, some supported, some decoded =>
    (parser.getField "field_revision").same (case.getField "required_field_revision") &&
      decide (min supported decoded < revision) && (case.getField "feature_id").truthy &&
      (case.getField "comparison_rule_id").truthy && (env.getField "software_version").truthy
  | _, _, _ => false

def signature (execution : CIExecution) : SignatureResult :=
  if manifestDigestOf execution.result.evidenceManifest ≠ execution.result.evidenceDigest then
    ⟨none, some "INSUFFICIENT_EVIDENCE", []⟩
  else match requiredContent execution "PARSER_LOG", requiredContent execution "ENVIRONMENT_RECORD",
      requiredContent execution "CASE_REQUIREMENTS", requiredContent execution "COMPARISON_LOG",
      requiredContent execution "CI_SUMMARY" with
  | some (parser, r1), some (env, r2), some (case, r3), some (compare, r4), some (summary, r5) =>
    let refs := [r1, r2, r3, r4, r5]
    if (parser.getField "error").same (.str "UNSUPPORTED_FIELD_REVISION") = false then
      ⟨none, some "NOT_SUPPORTED_SIGNATURE", refs⟩
    else if consistentFailure parser compare summary = true ∧
        (∀ k ∈ signatureTools, (parser.getField k).same .null = false ∧
          (parser.getField k).same (env.getField k) = true) ∧
        unsupportedRevision parser env case = true then
      ⟨some (.obj ([("rule_version", .str groupingRule),
        ("software_version", env.getField "software_version"),
        ("feature_id", case.getField "feature_id"),
        ("comparison_rule_id", case.getField "comparison_rule_id"),
        ("field_revision", parser.getField "field_revision"),
        ("required_field_revision", case.getField "required_field_revision")] ++
        signatureTools.map (fun k => (k, parser.getField k)) ++
        [("stage", .str "PARSER"), ("error", parser.getField "error"), ("caller", .str "COMPARE"),
          ("callee", .str "PARSER")])), none, refs⟩
    else ⟨none, some "INSUFFICIENT_EVIDENCE", refs⟩
  | _, _, _, _, _ => ⟨none, some "INSUFFICIENT_EVIDENCE", []⟩

/-! ## Rows -/

inductive GroupKind where
  | auto | manualSplit
  deriving DecidableEq

inductive MemberDecision where
  | candidate | confirmed | excluded
  deriving DecidableEq

inductive DecisionKind where
  | confirm | exclude | split
  deriving DecidableEq

def DecisionKind.value : DecisionKind → String
  | confirm => "CONFIRM"
  | exclude => "EXCLUDE"
  | split => "SPLIT"

/-- A membership as an event keeps it. -/
structure MemberSnapshot where
  incidentId : String
  groupId : String
  decision : MemberDecision

structure DecisionResult where
  groupId : String
  revision : ℕ
  targetGroupId : Option String

/-- One entry of a group's history. -/
structure GroupEvent where
  requestId : String
  digest : String
  kind : DecisionKind
  actorUserId : String
  at' : ℤ
  incidentIds : List String
  reason : String
  before : List MemberSnapshot
  after : List MemberSnapshot
  result : DecisionResult

/-- `IncidentGroupRow`, under its id. -/
structure IncidentGroup where
  batchId : String
  ruleVersion : String
  signatureDigest : String
  signaturePayload : Json
  kind : GroupKind
  revision : ℕ
  createdAt : ℤ
  history : List GroupEvent

/-- `IncidentGroupMembershipRow`, under its group and incident. -/
structure GroupMember where
  executionId : String
  evidenceRefs : List EvidenceRef
  decision : MemberDecision
  createdAt : ℤ
  decidedAt : Option ℤ
  decidedByUserId : Option String

structure JoinedMember where
  member : GroupMember
  incident : CIIncident
  execution : CIExecution

/-- `GroupDecision`; the validator refuses repeated ids. -/
structure GroupDecision where
  requestId : String
  expectedGroupRevision : ℕ
  kind : DecisionKind
  incidentIds : List String
  reason : String
  incidentIds_nodup : incidentIds.Nodup
  incidentIds_ne : incidentIds ≠ []

def GroupDecision.digest (body : GroupDecision) : String :=
  sha256Digest (.obj [("request_id", .str body.requestId),
    ("expected_group_revision", .int body.expectedGroupRevision), ("kind", .str body.kind.value),
    ("incident_ids", .arr (body.incidentIds.map .str)), ("reason", .str body.reason)])

structure GroupingDesk where
  groups : Dict String IncidentGroup
  members : Dict (String × String) GroupMember
  incidents : Dict String CIIncident
  executions : Dict String CIExecution
  now : ℤ

namespace GroupingDesk

variable (s : GroupingDesk)

/-! ## Observation -/

def autoGroup (batchId digest : String) : Option (String × IncidentGroup) :=
  s.groups.entries.find? fun g => g.2.batchId = batchId ∧ g.2.kind = .auto ∧
    g.2.ruleVersion = groupingRule ∧ g.2.signatureDigest = digest

/-- `observe`; `newId` is the id of a group it may have to add. -/
def observe (batchId : String) (execution : CIExecution) (incident : CIIncident)
    (newId : String) : GroupingDesk :=
  let found := signature execution
  match found.payload with
  | none => s
  | some payload =>
    let digest := sha256Digest payload
    let (groupId, group) : String × IncidentGroup := match s.autoGroup batchId digest with
      | some (id, group) => (id, { group with revision := group.revision + 1 })
      | none => (newId, ⟨batchId, groupingRule, digest, payload, .auto, 1, s.now, []⟩)
    { s with
      groups := s.groups.set groupId group
      members := s.members.set (groupId, incident.incidentId)
        ⟨execution.executionId, found.refs, .candidate, s.now, none, none⟩ }

/-! ## Reading -/

/-- `members`: those with their incident and execution, in the order of incident ids. -/
def membersOf (groupId : String) : List JoinedMember :=
  (s.members.entries.filterMap fun e =>
    if e.1.1 = groupId then
      match s.incidents.get? e.1.2, s.executions.get? e.2.executionId with
      | some incident, some execution => some ⟨e.2, incident, execution⟩
      | _, _ => none
    else none).insertionSort fun a b => a.incident.incidentId ≤ b.incident.incidentId

structure MemberPayload where
  incidentId : String
  executionId : String
  environmentId : String
  softwareVersion : String
  ownerUserId : String
  decision : MemberDecision
  status : CIIncidentStatus
  canOpen : Bool
  evidenceRefs : List EvidenceRef

structure EventPayload where
  kind : DecisionKind
  at' : ℤ
  incidentIds : List String
  actorUserId : Option String
  reason : Option String
  before : List MemberSnapshot
  after : List MemberSnapshot

structure GroupPayload where
  groupId : String
  kind : GroupKind
  revision : ℕ
  state : String
  scope : String
  signature : Json
  members : List MemberPayload
  history : List EventPayload

/-- One member as a user sees it. -/
def memberPayload (principal : CIPrincipal) (m : JoinedMember) : MemberPayload :=
  let mine := decide (m.incident.ownerUserId = principal.userId)
  ⟨m.incident.incidentId, m.execution.executionId, m.execution.environmentId,
    m.execution.result.executionSnapshot.environment.softwareVersion, m.incident.ownerUserId,
    m.member.decision, m.incident.status, mine, if mine then m.member.evidenceRefs else []⟩

/-- One event as a user sees it, of whom `ids` are the visible incidents. -/
def eventPayload (principal : CIPrincipal) (manager : Bool) (ids : List String)
    (event : GroupEvent) : Option EventPayload :=
  let selected := event.incidentIds.filter (· ∈ ids)
  let named := manager || decide (event.actorUserId = principal.userId)
  if selected = [] then none
  else some ⟨event.kind, event.at', selected, if named then some event.actorUserId else none,
    if named then some event.reason else none, event.before.filter (·.incidentId ∈ ids),
    event.after.filter (·.incidentId ∈ ids)⟩

def payload (principal : CIPrincipal) (groupId : String) (group : IncidentGroup)
    (manager : Bool) : Except CIFailure GroupPayload := do
  let visible := (s.membersOf groupId).filter fun m =>
    manager || decide (m.incident.ownerUserId = principal.userId)
  raiseIf (visible = []) ciNotFound
  let ids := visible.map (·.incident.incidentId)
  let current := visible.filter (·.member.decision ≠ .excluded)
  let cross := decide (2 ≤ (current.map (·.execution.environmentId)).dedup.length)
  let state := if manager = true ∧ cross = true then
      if current.all (·.member.decision = .confirmed) then "CONFIRMED_ASSOCIATION" else "CANDIDATE"
    else if manager then "INDEPENDENT" else "OWN_SCOPE_ONLY"
  return ⟨groupId, group.kind, group.revision, state, if manager then "MANAGEMENT" else "OWN_ONLY",
    group.signaturePayload, visible.map (memberPayload principal),
    group.history.filterMap (eventPayload principal manager ids)⟩

def getGroup (principal : CIPrincipal) (batchId groupId : String) (manager : Bool) :
    Except CIFailure IncidentGroup :=
  match s.groups.get? groupId with
  | none => .error ciNotFound
  | some group =>
    if group.batchId = batchId ∧ (manager = true ∨
        ∃ m ∈ s.membersOf groupId, m.incident.ownerUserId = principal.userId) then .ok group
    else .error ciNotFound

/-! ## Decisions -/

/-- The decided rows of a group, updated in place. -/
def decideMembers (groupId : String) (ids : List String) (decision : MemberDecision)
    (principal : CIPrincipal) : Dict (String × String) GroupMember :=
  s.members.mapWithKey fun k m =>
    if k.1 = groupId ∧ k.2 ∈ ids ∧ m.decision ≠ .excluded then
      { m with decision, decidedAt := some s.now, decidedByUserId := some principal.userId }
    else m

def addMembers (now : ℤ) (target : String) (members : Dict (String × String) GroupMember) :
    List JoinedMember → Dict (String × String) GroupMember
  | [] => members
  | m :: rest => addMembers now target (members.set (target, m.incident.incidentId)
      ⟨m.member.executionId, m.member.evidenceRefs, .candidate, now, none, none⟩) rest

def DecisionKind.decision : DecisionKind → MemberDecision
  | .confirm => .confirmed
  | .exclude | .split => .excluded

/-- `current`: the members of a group that are not excluded. -/
def currentMembers (groupId : String) : List JoinedMember :=
  (s.membersOf groupId).filter (·.member.decision ≠ .excluded)

/-- `selected`: the current members that a decision names. -/
def selectedMembers (groupId : String) (body : GroupDecision) : List JoinedMember :=
  (s.currentMembers groupId).filter (·.incident.incidentId ∈ body.incidentIds)

def decisionResult (groupId : String) (group : IncidentGroup) (body : GroupDecision)
    (newId : String) : DecisionResult :=
  ⟨groupId, group.revision + 1, if body.kind = .split then some newId else none⟩

def decisionEvent (principal : CIPrincipal) (groupId : String) (group : IncidentGroup)
    (body : GroupDecision) (newId : String) : GroupEvent where
  requestId := body.requestId
  digest := body.digest
  kind := body.kind
  actorUserId := principal.userId
  at' := s.now
  incidentIds := body.incidentIds
  reason := body.reason
  before := (s.selectedMembers groupId body).map fun m =>
    ⟨m.incident.incidentId, groupId, m.member.decision⟩
  after := (s.selectedMembers groupId body).map fun m =>
    ⟨m.incident.incidentId, if body.kind = .split then newId else groupId,
      if body.kind = .split then .candidate else DecisionKind.decision body.kind⟩
  result := decisionResult groupId group body newId

def decidedGroups (principal : CIPrincipal) (groupId : String) (group : IncidentGroup)
    (body : GroupDecision) (newId : String) : Dict String IncidentGroup :=
  let event := s.decisionEvent principal groupId group body newId
  let groups := s.groups.set groupId
    { group with revision := group.revision + 1, history := group.history ++ [event] }
  if body.kind = .split then
    groups.set newId
      { group with kind := .manualSplit, revision := 1, createdAt := s.now, history := [event] }
  else groups

/-- The memberships after a decision, with those of a split's target. -/
def decidedMembers (principal : CIPrincipal) (groupId : String) (body : GroupDecision)
    (newId : String) : Dict (String × String) GroupMember :=
  let marked := s.decideMembers groupId body.incidentIds (DecisionKind.decision body.kind) principal
  if body.kind = .split then addMembers s.now newId marked (s.selectedMembers groupId body)
  else marked

/-- `decide`; `newId` is the id of a split's group. -/
def decideGroup (principal : CIPrincipal) (batchId groupId : String) (manager : Bool)
    (body : GroupDecision) (newId : String) : Except CIFailure (GroupingDesk × DecisionResult) := do
  let group ← s.getGroup principal batchId groupId manager
  match group.history.find? (·.requestId = body.requestId) with
  | some previous =>
    raiseIf (previous.digest ≠ body.digest ∨ previous.actorUserId ≠ principal.userId)
      (.ciError "CI_REQUEST_CONFLICT" 409)
    return (s, previous.result)
  | none =>
    raiseIf (group.revision ≠ body.expectedGroupRevision)
      (.ciError "CI_GROUP_REVISION_CONFLICT" 409)
    let selected := s.selectedMembers groupId body
    raiseIf (selected.length ≠ body.incidentIds.length ∨ (manager = false ∧
      ∃ m ∈ selected, m.incident.ownerUserId ≠ principal.userId)) ciNotFound
    raiseIf (body.kind = .split ∧ selected.length = (s.currentMembers groupId).length)
      (.ciError "CI_GROUP_SPLIT_SUBSET_REQUIRED" 409)
    return ({ s with
      groups := s.decidedGroups principal groupId group body newId
      members := s.decidedMembers principal groupId body newId },
      decisionResult groupId group body newId)

/-! ## Steps -/

inductive GroupingAction where
  | observed (batchId : String) (execution : CIExecution) (incident : CIIncident) (newId : String)
  | decided (principal : CIPrincipal) (batchId groupId : String) (manager : Bool)
      (body : GroupDecision) (newId : String)
  | statusChanged (incidentId : String) (status : CIIncidentStatus)
  | tick (elapsed : ℕ)

/-- The tables with the failure of a nightly case. -/
def withFailure (execution : CIExecution) (incident : CIIncident) : GroupingDesk :=
  { s with
    incidents := s.incidents.set incident.incidentId incident
    executions := s.executions.set execution.executionId execution }

/-- One step: a new failure and its observation, in one transaction; a decision, which changes
nothing when it raises; another service's change of an incident's status; or time. -/
def step (s : GroupingDesk) : GroupingAction → Option GroupingDesk
  | .observed batchId execution incident newId =>
    if incident.incidentId ∉ s.incidents.keys ∧ execution.executionId ∉ s.executions.keys ∧
        newId ∉ s.groups.keys ∧ incident.executionId = execution.executionId then
      some ((s.withFailure execution incident).observe batchId execution incident newId)
    else none
  | .decided principal batchId groupId manager body newId =>
    if newId ∉ s.groups.keys then
      match s.decideGroup principal batchId groupId manager body newId with
      | .ok (s', _) => some s'
      | .error _ => some s
    else none
  | .statusChanged incidentId status =>
    match s.incidents.get? incidentId with
    | some incident =>
      some { s with incidents := s.incidents.set incidentId { incident with status } }
    | none => none
  | .tick elapsed => some { s with now := s.now + elapsed }

end GroupingDesk

end LocalAgent.Runtime
