import LocalAgent.Lib.JsonSize
import LocalAgent.Lib.DateTime
import LocalAgent.Runtime.Guardian

/-!
# LocalAgent.Runtime.IncidentAdmission — `core/stage13/incident.py`, the admission of analyses

The incidents of one scope, project, suite and day, their frozen revisions, and the analysis jobs
that a daily budget admits.

* `Incident.refreshDraft`: the material digest and the draft of an incident, of bounded size.
* `Analysis.ingest`, `Analysis.refresh`: what these transactions do to the incidents.
* `Analysis.admitDay`: one call, which serves the incidents in their order.
-/

namespace LocalAgent.Runtime

/-! ## Times -/

/-- The year, month and day of a number of days since 1970-01-01. -/
def civil (days : ℤ) : ℤ × ℤ × ℤ :=
  let z := days + 719468
  let dayOfEra := z % 146097
  let yearOfEra := (dayOfEra - dayOfEra / 1460 + dayOfEra / 36524 - dayOfEra / 146096) / 365
  let dayOfYear := dayOfEra - (365 * yearOfEra + yearOfEra / 4 - yearOfEra / 100)
  let shifted := (5 * dayOfYear + 2) / 153
  let day := dayOfYear - (153 * shifted + 2) / 5 + 1
  let month := if shifted < 10 then shifted + 3 else shifted - 9
  (yearOfEra + z / 146097 * 400 + (if month ≤ 2 then 1 else 0), month, day)

/-- `isoformat()` of a UTC time in microseconds. -/
def isoTime (time : ℤ) : String :=
  let (year, month, day) := civil (time / dayMicros)
  let micros := (time % dayMicros).toNat
  String.ofList (digits 4 year.toNat ++ '-' :: digits 2 month.toNat ++ '-' :: digits 2 day.toNat ++
    'T' :: digits 2 (micros / 3600000000) ++ ':' :: digits 2 (micros / 60000000 % 60) ++
    ':' :: digits 2 (micros / 1000000 % 60) ++ DateTime.fractionText (micros % 1000000) ++
    DateTime.offsetText (some 0))

/-! ## Rows -/

inductive IncidentState where
  | opened | sealed
  deriving DecidableEq

/-- `IncidentRow`. -/
structure Incident where
  incidentId : String
  incidentKey : String
  signature : String
  components : List String
  state : IncidentState
  firstSeenAt : ℤ
  changes : List String
  materialDigest : String
  draft : Json
  evidenceRevision : ℕ
  evidenceManifestDigest : Option String

/-- `RevisionRow`, under its incident and number. -/
structure EvidenceRevision where
  materialDigest : String
  manifestDigest : String
  manifest : Json
  frozenAt : ℤ

inductive IncidentJobStatus where
  | ready | deferredBudget
  deriving DecidableEq

inductive AnalysisKind where
  | initial | reanalysis
  deriving DecidableEq

/-- `AnalysisJobRow` of the controlled subject. -/
structure IncidentJob where
  incidentId : String
  revision : ℕ
  status : IncidentJobStatus
  kind : AnalysisKind
  admittedAt : Option ℤ
  input : Json
  inputDigest : String

/-- `BudgetRow`; the cutoff is the incident that was admitted last. -/
structure AnalysisBudget where
  admittedTotal : ℕ
  cutoff : Option (String × String)

/-- The rows of one scope, project, suite and day; a job is under its incident and revision, as the
database keeps it unique. -/
structure Analysis where
  now : ℤ
  incidents : Dict String Incident
  revisions : Dict (String × ℕ) EvidenceRevision
  jobs : Dict (String × ℕ) IncidentJob
  budget : Option AnalysisBudget

/-! ## Drafts -/

/-- What `_refresh_draft` reads from the memberships of an incident: their number, how many are
missing, the other items of the summary and of the draft, and how many references it has. -/
structure DraftParts where
  totalMembers : ℕ
  missing : ℕ
  summary : List (String × Json)
  others : List (String × Json)
  refs : ℕ

/-- The policy that every draft carries. -/
def evidencePolicy : Json :=
  .obj [("allowed_types", .arr [.str "CI_SUMMARY", .str "ERROR_EXCERPT", .str "FAILURE_DETAIL",
      .str "AUTHORIZED_ARTIFACT", .str "CHANGE_METADATA"]),
    ("max_tool_reads", .int 8), ("max_artifact_reads", .int 4), ("max_bytes", .int 131072),
    ("job_deadline_seconds", .int 180)]

def DraftParts.draft (parts : DraftParts) : Json :=
  .obj (("failure_summary", .obj (("total_members", .int parts.totalMembers) :: parts.summary)) ::
    ("evidence_policy", evidencePolicy) :: parts.others)

namespace Incident

/-- The material digest: neither the number of members nor a time is in it. -/
def materialDigestOf (incident : Incident) (missing : ℕ) : String :=
  Sha256.hexdigest (Json.canonical (.obj [("normalizer_version", .str "stage13.signature.v1"),
    ("signature", .str incident.signature), ("components", .arr (incident.components.map .str)),
    ("changes", .arr (incident.changes.map .str)), ("evidence_complete", .bool (missing = 0))]))

def refreshDraft (incident : Incident) (parts : DraftParts) : Except String Incident :=
  if 32 < parts.refs ∨ 128 * 1024 - 1024 < parts.draft.size then
    .error "INCIDENT_INPUT_BYTE_BUDGET"
  else
    .ok { incident with
      materialDigest := incident.materialDigestOf parts.missing
      draft := parts.draft }

/-- `incident.draft["failure_summary"]["total_members"]`, as a condition. -/
def hasMembers (incident : Incident) : Except String Bool :=
  match (incident.draft.get? "failure_summary").bind
      fun summary => summary.get? "total_members" with
  | some (.int n) => .ok (n ≠ 0)
  | _ => .error "KeyError"

end Incident

/-- What one `ingest` does to an incident that its cases belong, or belonged, to. -/
structure IncidentTouch where
  incidentId : String
  incidentKey : String
  signature : String
  components : List String
  changeRefs : List String
  parts : DraftParts

/-- The row that `ingest` inserts. -/
def IncidentTouch.row (touch : IncidentTouch) (now : ℤ) : Incident where
  incidentId := touch.incidentId
  incidentKey := touch.incidentKey
  signature := touch.signature
  components := touch.components
  state := .opened
  firstSeenAt := now
  changes := []
  materialDigest := Sha256.hexdigest (Json.canonical (.obj []))
  draft := .obj []
  evidenceRevision := 0
  evidenceManifestDigest := none

namespace Analysis

/-! ## Ingestion -/

/-- `sorted(set(changes) | set(refs))`. -/
def mergeChanges (changes refs : List String) : List String :=
  (changes ++ refs).dedup.insertionSort (· ≤ ·)

/-- The row of the incident that is touched, with the changes of the cases. -/
def touched (s : Analysis) (touch : IncidentTouch) : Incident :=
  let incident := (s.incidents.get? touch.incidentId).getD (touch.row s.now)
  { incident with changes := mergeChanges incident.changes touch.changeRefs }

def ingestTouch (s : Analysis) (touch : IncidentTouch) : Except String Analysis :=
  match (s.touched touch).refreshDraft touch.parts with
  | .error error => .error error
  | .ok incident => .ok { s with incidents := s.incidents.set touch.incidentId incident }

/-- `ingest`, on the incidents that it touches. -/
def ingest (s : Analysis) : List IncidentTouch → Except String Analysis
  | [] => .ok s
  | touch :: touches =>
    match s.ingestTouch touch with
    | .error error => .error error
    | .ok s => s.ingest touches

/-- `refresh`, on the incidents of its version. -/
def refresh (s : Analysis) (ids : List String) : Analysis :=
  { s with incidents := s.incidents.mapValues fun i =>
      if i.incidentId ∈ ids then { i with state := .opened } else i }

/-! ## Admission -/

def admittedTotal (s : Analysis) : ℕ := (s.budget.map AnalysisBudget.admittedTotal).getD 0

/-- The jobs of an incident that were admitted, in the order of their times. -/
def admittedJobs (s : Analysis) (incidentId : String) : List IncidentJob :=
  let jobs := s.jobs.values.filter fun job => job.incidentId = incidentId ∧ job.admittedAt ≠ none
  jobs.insertionSort fun a b => a.admittedAt.getD 0 ≤ b.admittedAt.getD 0

/-- An incident has had its two jobs, or the last one was admitted less than half an hour ago. -/
def waits (jobs : List IncidentJob) (now : ℤ) : Bool :=
  2 ≤ jobs.length ||
    match jobs.getLast? with
    | none => false
    | some job => now < job.admittedAt.getD 0 + 1800 * second

/-- `RevisionRow` of the incident's present number. -/
def latest (s : Analysis) (incident : Incident) : Option EvidenceRevision :=
  if incident.evidenceRevision = 0 then none
  else s.revisions.get? (incident.incidentId, incident.evidenceRevision)

def frozen (s : Analysis) (incident : Incident) : EvidenceRevision where
  materialDigest := incident.materialDigest
  manifestDigest := Sha256.hexdigest (Json.canonical incident.draft)
  manifest := incident.draft
  frozenAt := s.now

/-- The incident of a draft that is frozen. -/
def advanced (s : Analysis) (incident : Incident) : Incident :=
  { incident with
    evidenceRevision := incident.evidenceRevision + 1
    evidenceManifestDigest := some (s.frozen incident).manifestDigest }

/-- The rows after a draft was frozen. -/
def freeze (s : Analysis) (incident : Incident) : Analysis :=
  { s with
    incidents := s.incidents.set incident.incidentId (s.advanced incident)
    revisions := s.revisions.set (incident.incidentId, incident.evidenceRevision + 1)
      (s.frozen incident) }

/-- The input of a job. -/
def payloadOf (incidentId : String) (revision : ℕ) (latest : EvidenceRevision) (now : ℤ) :
    Option Json :=
  (latest.manifest.setItem "incident_ref" (.obj [("incident_id", .str incidentId),
    ("evidence_revision", .int revision), ("manifest_digest", .str latest.manifestDigest)])).bind
  fun payload => (payload.get? "evidence_policy").bind
  fun policy => (policy.setItem "deadline_at" (.str (isoTime (now + 180 * second)))).bind
  fun policy => payload.setItem "evidence_policy" policy

/-- What a call of `admit` does with an incident; `kept` is one whose job was deferred before. -/
inductive Served where
  | skipped | kept | admitted | deferred
  deriving DecidableEq

def addJob (s : Analysis) (incident : Incident) (kind : AnalysisKind) (payload : Json) : Analysis :=
  let admitted := decide (s.admittedTotal < 60)
  { s with
    jobs := s.jobs.set (incident.incidentId, incident.evidenceRevision)
      { incidentId := incident.incidentId
        revision := incident.evidenceRevision
        status := if admitted then .ready else .deferredBudget
        kind := kind
        admittedAt := if admitted then some s.now else none
        input := payload
        inputDigest := Sha256.hexdigest (Json.canonical payload) }
    budget :=
      if admitted then
        some ⟨s.admittedTotal + 1, some (isoTime incident.firstSeenAt, incident.incidentKey)⟩
      else s.budget }

/-- The job of an incident's present revision, unless it has one. -/
def enqueue (s : Analysis) (incident : Incident) (latest : EvidenceRevision)
    (kind : AnalysisKind) : Except String (Analysis × Served) :=
  match s.jobs.get? (incident.incidentId, incident.evidenceRevision) with
  | some job => .ok (s, if job.admittedAt = none then .kept else .skipped)
  | none =>
    match payloadOf incident.incidentId incident.evidenceRevision latest s.now with
    | none => .error "KeyError"
    | some payload =>
      if 128 * 1024 < payload.size then .error "ANALYSIS_INPUT_BYTE_BUDGET"
      else .ok (s.addJob incident kind payload,
        if s.admittedTotal < 60 then .admitted else .deferred)

/-- One turn of the loop of `admit`. -/
def admitIncident (s : Analysis) (incident : Incident) : Except String (Analysis × Served) :=
  match incident.hasMembers with
  | .error error => .error error
  | .ok false => .ok (s, .skipped)
  | .ok true =>
    let jobs := s.admittedJobs incident.incidentId
    if waits jobs s.now then .ok (s, .skipped)
    else
      match s.latest incident with
      | none =>
        if jobs ≠ [] then .error "AttributeError"
        else (s.freeze incident).enqueue (s.advanced incident) (s.frozen incident) .initial
      | some latest =>
        if latest.materialDigest = incident.materialDigest then
          if jobs ≠ [] then .ok (s, .skipped)
          else s.enqueue incident latest .initial
        -- the number of a revision is a 32-bit integer of the database
        else if 2147483647 ≤ incident.evidenceRevision then .error "DataError"
        else (s.freeze incident).enqueue (s.advanced incident) (s.frozen incident)
          (if jobs ≠ [] then .reanalysis else .initial)

/-- The loop of `admit`. -/
def admitAll (s : Analysis) : List Incident → Except String (Analysis × List (Incident × Served))
  | [] => .ok (s, [])
  | incident :: incidents =>
    match s.admitIncident incident with
    | .error error => .error error
    | .ok (s', served) =>
      match s'.admitAll incidents with
      | .error error => .error error
      | .ok (s'', rest) => .ok (s'', (incident, served) :: rest)

/-- `ORDER BY first_seen_at, incident_key`. -/
def Before (a b : Incident) : Prop :=
  a.firstSeenAt < b.firstSeenAt ∨ a.firstSeenAt = b.firstSeenAt ∧ a.incidentKey ≤ b.incidentKey

instance : DecidableRel Before := fun _ _ => inferInstanceAs (Decidable (_ ∨ _))

/-- The incidents that a call may serve. -/
def eligible (s : Analysis) : List Incident :=
  (s.incidents.values.filter fun i => i.firstSeenAt ≤ s.now - 600 * second).insertionSort Before

/-- `admit`, with what was done with each incident in turn. -/
def admitDay (s : Analysis) : Except String (Analysis × List (Incident × Served)) :=
  { s with budget := some (s.budget.getD ⟨0, none⟩) }.admitAll s.eligible

/-! ## Runs -/

inductive Action where
  | tick (business : ℕ)
  | ingest (touches : List IncidentTouch)
  | refresh (ids : List String)
  /-- with whether the process lives until the commit -/
  | admitDay (commits : Bool)

/-- A transaction; one that fails leaves nothing behind. -/
def step (s : Analysis) : Action → Option Analysis
  | .tick business => some { s with now := s.now + business }
  | .ingest touches =>
    -- the ids are the texts of UUIDs
    if ∀ touch ∈ touches, touch.incidentId.length = 36 then
      some ((s.ingest touches).toOption.getD s)
    else none
  | .refresh ids => some (s.refresh ids)
  | .admitDay commits =>
    if commits then some ((s.admitDay.map Prod.fst).toOption.getD s) else some s

/-- A day without incidents. -/
def initial (now : ℤ) : Analysis where
  now := now
  incidents := Dict.empty
  revisions := Dict.empty
  jobs := Dict.empty
  budget := none

end Analysis

end LocalAgent.Runtime
