import LocalAgent.Lib.Dict
import LocalAgent.Lib.Json
import LocalAgent.Lib.Sha256
import LocalAgent.Lib.Trace

/-!
# LocalAgent.Runtime.TriageExecution — `core/stage13/triage_execution.py`

The durable state of the triage workers, with the transactions of `TriageExecutionService`.

* `JobTable.step`: `claim`, `renew` and `finish`, each on locked rows of one job.
* `ReadTable.step`: `reserve_run`, and `read_evidence` in the parts between which others run: the
  lock of the anchor row, the reads below it, the insert with the commit.
* `TriageWorld.step`: both over the clock of the database.
-/

namespace LocalAgent.Runtime

/-! ## Rows -/

/-- `AnalysisJobRow.status`. -/
inductive AnalysisStatus where
  | ready | running | completed | failed | unresolved | deferredBudget
  deriving DecidableEq

/-- A job waits or runs. -/
def AnalysisStatus.isOpen : AnalysisStatus → Bool
  | ready | running => true
  | completed | failed | unresolved | deferredBudget => false

structure SubjectManifest where
  agentId : String
  executionEnabled : Bool
  subjectManifestDigest : String
  deriving DecidableEq

/-- `AnalysisJobRow`, with the scope of its `BudgetRow`. -/
structure AnalysisJob where
  scope : String
  subjectManifest : SubjectManifest
  admittedAt : Option ℤ
  status : AnalysisStatus
  deriving DecidableEq

/-- `validation`, as `validate_output` or `finish` writes it; `output` is the text of a value that
is not empty. -/
structure TriageValidation where
  status : String
  output : Option String
  error : Option String
  deriving DecidableEq

/-- `JobExecutionRow`; times are microseconds. -/
structure JobExecution where
  owner : Option String
  token : Option String
  epoch : ℕ
  leaseUntil : Option ℤ
  selectedFinalRunId : Option String
  rawAnswerDigest : Option String
  structuredOutputDigest : Option String
  validation : Option TriageValidation
  actualSubjectReceiptDigest : Option String
  completedAt : Option ℤ
  deriving DecidableEq

/-- The execution row that an admission adds. -/
def JobExecution.admitted : JobExecution :=
  ⟨none, none, 0, none, none, none, none, none, none, none⟩

/-- A job with its execution, which jobs of other admissions do not have. -/
structure JobEntry where
  job : AnalysisJob
  execution : Option JobExecution
  deriving DecidableEq

structure JobClaim where
  jobId : String
  owner : String
  token : String
  epoch : ℕ
  deriving DecidableEq

inductive TriageRole where
  | initial | schemaRepair
  deriving DecidableEq

inductive TriageLane where
  | nightly | contractTest | offline
  deriving DecidableEq

/-- The columns of a `TriageRunRow` that a reservation writes. -/
structure TriageRun where
  runId : String
  anchorRunId : String
  analysisJobId : Option String
  evaluationAttemptId : Option String
  scope : String
  lane : TriageLane
  role : TriageRole
  subjectDigest : String
  query : String
  inputDigest : String
  executionPolicy : Option String
  deadlineAt : ℤ
  deriving DecidableEq

/-- A key of an evidence dictionary. -/
inductive EvidenceField where
  | absent | null
  | text (s : String)
  deriving DecidableEq

/-- `evidence.get(key)`. -/
def EvidenceField.get : EvidenceField → Option String
  | absent | null => none
  | text s => some s

inductive EvidenceContent where
  | text (s : String)
  | value (canonical : String)
  deriving DecidableEq

namespace EvidenceContent

/-- `len(content_bytes(content))`. -/
def size : EvidenceContent → ℕ
  | text s => (Json.quote s).utf8ByteSize
  | value canonical => canonical.utf8ByteSize

/-- `sha256` of a string's own bytes, of the canonical bytes of anything else. -/
def sha256 : EvidenceContent → String
  | text s => Sha256.hexdigest s
  | value canonical => Sha256.hexdigest canonical

end EvidenceContent

structure Evidence where
  evidenceId : EvidenceField
  type : EvidenceField
  availability : EvidenceField
  ownerScopeId : EvidenceField
  digest : EvidenceField
  content : Option EvidenceContent
  deriving DecidableEq

/-- `{"evidence_id": evidence_id}`. -/
def Evidence.bare (evidenceId : Option String) : Evidence :=
  ⟨(evidenceId.map .text).getD .null, .absent, .absent, .absent, .absent, none⟩

/-- `EvidenceReadRow`. -/
structure EvidenceRead where
  operationId : String
  runId : String
  evidence : Evidence
  byteCount : ℕ
  successful : Bool
  deriving DecidableEq

def EvidenceRead.artifact (read : EvidenceRead) : Bool :=
  read.evidence.type = .text "AUTHORIZED_ARTIFACT"

/-! ## The service -/

/-- What is used of the payload of a query. -/
structure TriagePayload where
  visibleEvidence : List Evidence
  deadlineAt : ℤ
  inputDigest : String
  deriving DecidableEq

/-- The arguments of `reserve_run`. -/
structure ReserveRequest where
  runId : String
  query : String
  manifest : SubjectManifest
  anchor : Option String
  role : TriageRole
  jobId : Option String
  attemptId : Option String
  lane : TriageLane
  executionPolicy : Option String
  deriving DecidableEq

/-- A `TriageExecutionService`, with the checks of other modules that it calls. -/
structure TriageService where
  scope : String
  /-- `check_manifest` against the service's registered manifests -/
  checkManifest : SubjectManifest → Except String Unit
  /-- the payload of a request that passes the checks which look at nothing else -/
  authorize : ReserveRequest → Except String TriagePayload
  /-- `strict_json(query)`, or the original input in it -/
  payload : String → Except String TriagePayload

/-! ## Jobs -/

/-- `_fence`, on the locked row. -/
def fence (execution : Option JobExecution) (claim : JobClaim) (now : ℤ) :
    Except String JobExecution :=
  match execution with
  | none => .error "JOB_OWNERSHIP_LOST"
  | some row =>
    if (row.owner, row.token, row.epoch) ≠ (some claim.owner, some claim.token, claim.epoch) then
      .error "JOB_OWNERSHIP_LOST"
    else if ∃ lease ∈ row.leaseUntil, now < lease then .ok row
    else .error "JOB_OWNERSHIP_LOST"

/-- 30 seconds. -/
def leaseDuration : ℤ := 30000000

/-- What `finish` uses of the row of the final run. -/
structure FinalRun where
  runId : String
  rawAnswer : String
  validation : TriageValidation
  receiptDigest : String
  modelCallState : Option String
  runtimeStatus : String
  deriving DecidableEq

/-- The last arguments of `finish`. -/
inductive FinishRequest where
  | final (run : FinalRun)
  | unresolved (error : Option String)
  deriving DecidableEq

/-- The status that `finish` gives to the job. -/
def FinishRequest.status : FinishRequest → AnalysisStatus
  | unresolved _ => .unresolved
  | final run =>
    if run.modelCallState = some "STARTED" ∨ run.modelCallState = some "UNKNOWN" then .unresolved
    else if run.runtimeStatus = "SUCCEEDED" ∧ run.validation.status = "VALID" then .completed
    else .failed

/-- The row of the execution that `finish` leaves. -/
def FinishRequest.bind (now : ℤ) (row : JobExecution) : FinishRequest → JobExecution
  | final run => { row with
      selectedFinalRunId := some run.runId
      rawAnswerDigest := some (Sha256.hexdigest run.rawAnswer)
      structuredOutputDigest := run.validation.output.map Sha256.hexdigest
      validation := some run.validation
      actualSubjectReceiptDigest := some run.receiptDigest
      completedAt := some now
      leaseUntil := some now }
  | unresolved error => { row with
      validation := some ⟨"UNRESOLVED", none, error⟩
      completedAt := some now
      leaseUntil := some now }

/-- A transaction of `finish` that has committed. -/
structure JobClosing where
  claim : JobClaim
  finishedAt : ℤ
  before : JobEntry
  after : JobEntry
  deriving DecidableEq

structure JobTable where
  rows : Dict String JobEntry
  issued : List JobClaim
  closed : List JobClosing

namespace JobTable

/-- What `claim` asks of a row before it takes it. -/
def claimable (scope : String) (jobId : Option String) (now : ℤ) (id : String) (entry : JobEntry) :
    Bool :=
  entry.job.scope = scope && entry.job.status.isOpen && entry.job.subjectManifest.executionEnabled &&
  (match entry.execution with
    | none => false
    | some row => match row.leaseUntil with
      | none => true
      | some lease => lease ≤ now) &&
  (match jobId with
    | none => true
    | some wanted => id = wanted)

/-- `order_by(admitted_at, job_id)`; the database puts nulls last. -/
def claimsBefore (a b : String × JobEntry) : Prop :=
  match a.2.job.admittedAt, b.2.job.admittedAt with
  | some m, some n => m < n ∨ m = n ∧ a.1 ≤ b.1
  | some _, none => True
  | none, some _ => False
  | none, none => a.1 ≤ b.1

instance : DecidableRel claimsBefore := by
  intro a b
  unfold claimsBefore
  split <;> infer_instance

/-- The row that `claim` locks: the first one that no other transaction holds. -/
def nextJob (s : JobTable) (scope : String) (jobId : Option String) (locked : List String)
    (now : ℤ) : Option (String × JobEntry) :=
  ((s.rows.entries.filter fun e => claimable scope jobId now e.1 e.2 && e.1 ∉ locked).insertionSort
    claimsBefore).head?

/-- The entry that `claim` leaves. -/
def taken (entry : JobEntry) (row : JobExecution) (owner token : String) (now : ℤ) : JobEntry where
  job := { entry.job with status := .running }
  execution := some { row with
    owner := some owner
    token := some token
    epoch := row.epoch + 1
    leaseUntil := some (now + leaseDuration) }

inductive Action where
  /-- `token` is the fresh UUID, `locked` the rows that other transactions hold -/
  | claim (service : TriageService) (owner token : String) (jobId : Option String)
      (locked : List String)
  | renew (claim : JobClaim)
  | finish (claim : JobClaim) (request : FinishRequest)

/-- `claim`; what it returns besides the rows. -/
def claim (s : JobTable) (now : ℤ) (service : TriageService) (owner token : String)
    (jobId : Option String) (locked : List String) : Except String (JobTable × Option JobClaim) :=
  match s.nextJob service.scope jobId locked now with
  | none => .ok (s, none)
  | some (id, entry) =>
    match entry.execution, service.checkManifest entry.job.subjectManifest with
    | none, _ => .ok (s, none)
    | some _, .error error => .error error
    | some row, .ok () =>
      let claim : JobClaim := ⟨id, owner, token, row.epoch + 1⟩
      .ok ({ s with
        rows := s.rows.set id (taken entry row owner token now)
        issued := s.issued ++ [claim] }, some claim)

def renew (s : JobTable) (now : ℤ) (claim : JobClaim) : Except String JobTable :=
  match s.rows.get? claim.jobId with
  | none => .error "JOB_OWNERSHIP_LOST"
  | some entry =>
    match fence entry.execution claim now with
    | .error error => .error error
    | .ok row =>
      .ok { s with rows := s.rows.set claim.jobId { entry with
        execution := some { row with leaseUntil := some (now + leaseDuration) } } }

def finish (s : JobTable) (now : ℤ) (claim : JobClaim) (request : FinishRequest) :
    Except String JobTable :=
  match s.rows.get? claim.jobId with
  | none => .error "JOB_OWNERSHIP_LOST"
  | some entry =>
    match fence entry.execution claim now with
    | .error error => .error error
    | .ok row =>
      let entry' : JobEntry :=
        ⟨{ entry.job with status := request.status }, some (request.bind now row)⟩
      .ok { s with
        rows := s.rows.set claim.jobId entry'
        closed := s.closed ++ [⟨claim, now, entry, entry'⟩] }

/-- A transaction that raises is rolled back. -/
def step (s : JobTable) (now : ℤ) : Action → JobTable
  | .claim service owner token jobId locked =>
    ((s.claim now service owner token jobId locked).map Prod.fst).toOption.getD s
  | .renew claim => (s.renew now claim).toOption.getD s
  | .finish claim request => (s.finish now claim request).toOption.getD s

end JobTable

/-! ## Evidence reads -/

/-- The arguments of `read_evidence`. -/
structure ReadCall where
  runId : String
  operationId : String
  evidenceId : Option String
  deriving DecidableEq

/-- The answer to an operation that was recorded before. -/
def replayRead (existing : EvidenceRead) (call : ReadCall) : Except String Evidence :=
  if existing.runId ≠ call.runId ∨ existing.evidence.evidenceId.get ≠ call.evidenceId then
    .error "EVIDENCE_REPLAY_CONFLICT"
  else if existing.successful = false then .error "EVIDENCE_NOT_AVAILABLE"
  else .ok existing.evidence

def findEvidence (evidenceId : Option String) : List Evidence → Except String (Option Evidence)
  | [] => .ok none
  | source :: rest =>
    if source.evidenceId = .absent then .error "KeyError: 'evidence_id'"
    else if source.evidenceId.get = evidenceId then .ok (some source)
    else findEvidence evidenceId rest

def Evidence.available (source : Evidence) : Option EvidenceContent :=
  if source.availability = .absent ∨ source.availability = .text "AVAILABLE" then source.content
  else none

/-- The evidence is of the scope; a legacy one need not name it when there is a policy. -/
def Evidence.inScope (source : Evidence) (scope : String) (executionPolicy : Option String) :
    Bool :=
  source.ownerScopeId = .text scope ||
    (source.ownerScopeId = .absent && executionPolicy.isSome)

/-- Both limits of `ARTIFACT_READ_BUDGET_EXCEEDED`. -/
def withinArtifactBudget (reads : List EvidenceRead) (size : ℕ) (artifact : Bool) : Bool :=
  (reads.map EvidenceRead.byteCount).sum + size ≤ 1048576 &&
    !(artifact && 4 ≤ reads.countP EvidenceRead.artifact)

/-- The row for the evidence that was found, with the reads of the whole analysis. -/
def recordSource (scope : String) (run : TriageRun) (call : ReadCall) (reads : List EvidenceRead)
    (source : Option Evidence) : Except String EvidenceRead :=
  match source, source.bind Evidence.available with
  | some source, some content =>
    if source.inScope scope run.executionPolicy = false ∨ source.digest ≠ .text content.sha256 then
      .error "EVIDENCE_DIGEST_MISMATCH"
    else if withinArtifactBudget reads content.size (source.type = .text "AUTHORIZED_ARTIFACT") then
      .ok ⟨call.operationId, call.runId, source, content.size, true⟩
    else .error "ARTIFACT_READ_BUDGET_EXCEEDED"
  | _, _ =>
    if withinArtifactBudget reads 0 false then
      .ok ⟨call.operationId, call.runId, .bare call.evidenceId, 0, false⟩
    else .error "ARTIFACT_READ_BUDGET_EXCEEDED"

/-- The row that a new operation adds. -/
def recordRead (service : TriageService) (run : TriageRun) (call : ReadCall)
    (reads : List EvidenceRead) (now : ℤ) : Except String EvidenceRead :=
  if run.deadlineAt ≤ now ∨ 8 ≤ reads.length then .error "EVIDENCE_READ_BUDGET_EXCEEDED"
  else
    match service.payload run.query with
    | .error error => .error error
    | .ok payload =>
      match findEvidence call.evidenceId payload.visibleEvidence with
      | .error error => .error error
      | .ok source => recordSource service.scope run call reads source

/-- What a read returns once its row is committed. -/
def EvidenceRead.result (read : EvidenceRead) : Except String Evidence :=
  if read.successful then .ok read.evidence else .error "EVIDENCE_NOT_AVAILABLE"

/-- A transaction of `read_evidence` that holds the lock of its anchor row; `row` is what it will
insert. -/
structure PendingRead where
  service : TriageService
  call : ReadCall
  run : TriageRun
  row : Option EvidenceRead

/-- A call of `read_evidence` that has come to its end, with the reads that were recorded before. -/
structure ReadAnswer where
  scope : String
  call : ReadCall
  table : List EvidenceRead
  result : Except String Evidence

/-- The rows of runs and reads, the values of the reservations that returned, the transactions
that are open, and the answers. -/
structure ReadTable where
  runs : List TriageRun
  reads : List EvidenceRead
  reserved : List TriageRun
  pending : Dict ℕ PendingRead
  answers : List ReadAnswer

namespace ReadTable

/-- `session.get(TriageRunRow, run_id)`. -/
def run? (s : ReadTable) (runId : String) : Option TriageRun :=
  s.runs.find? fun run => run.runId = runId

/-- `session.get(EvidenceReadRow, operation_id)`. -/
def read? (s : ReadTable) (operationId : String) : Option EvidenceRead :=
  s.reads.find? fun read => read.operationId = operationId

def inGroup (s : ReadTable) (anchor : String) (read : EvidenceRead) : Bool :=
  (s.run? read.runId).map TriageRun.anchorRunId = some anchor

def group (s : ReadTable) (anchor : String) : List EvidenceRead := s.reads.filter (s.inGroup anchor)

/-- `values` of `reserve_run`. -/
def values (service : TriageService) (request : ReserveRequest) (payload : TriagePayload) :
    TriageRun where
  runId := request.runId
  anchorRunId := request.anchor.getD request.runId
  analysisJobId := request.jobId
  evaluationAttemptId := request.attemptId
  scope := service.scope
  lane := request.lane
  role := request.role
  subjectDigest := request.manifest.subjectManifestDigest
  query := request.query
  inputDigest := payload.inputDigest
  executionPolicy := request.executionPolicy
  deadlineAt := payload.deadlineAt

def checkVisible (scope : String) (executionPolicy : Option String) (evidence : Evidence) :
    Except String Unit :=
  if evidence.inScope scope executionPolicy = false then .error "EVIDENCE_SCOPE_DENIED"
  else if evidence.availability = .text "AVAILABLE" then
    match evidence.content with
    | none => .error "KeyError: 'content'"
    | some content =>
      if evidence.digest = .text content.sha256 then .ok ()
      else .error "EVIDENCE_DIGEST_MISMATCH"
  else .ok ()

/-- `insert(TriageRunRow).values(**values).on_conflict_do_nothing()`. -/
def insertRun (runs : List TriageRun) (values : TriageRun) : List TriageRun :=
  if runs.any fun run => run.runId = values.runId ∨
      run.anchorRunId = values.anchorRunId ∧ run.role = values.role then runs
  else runs ++ [values]

/-- `reserve_run`; `absentAt` is the time of the transaction when it found no row of the id. -/
def reserveRun (s : ReadTable) (service : TriageService) (request : ReserveRequest)
    (absentAt : Option ℤ) : Except String ReadTable := do
  service.checkManifest request.manifest
  let payload ← service.authorize request
  let values := values service request payload
  if ∃ now ∈ absentAt, now + 180000000 < values.deadlineAt then
    .error "ANALYSIS_DEADLINE_INVALID"
  else do
    payload.visibleEvidence.forM (checkVisible service.scope request.executionPolicy)
    let s' := { s with runs := insertRun s.runs values }
    if s'.run? request.runId = some values then .ok { s' with reserved := s.reserved ++ [values] }
    else .error "RUN_BINDING_CONFLICT"

/-- Another transaction holds the lock of the row. -/
def lockedBy (s : ReadTable) (anchor : String) : Bool :=
  (s.run? anchor).isSome &&
    s.pending.entries.any fun e => e.2.run.anchorRunId = anchor

def answer (s : ReadTable) (service : TriageService) (call : ReadCall)
    (result : Except String Evidence) : ReadTable :=
  { s with answers := s.answers ++ [⟨service.scope, call, s.reads, result⟩] }

inductive Action where
  /-- `absentAt` is when the transaction has found no row, if it has found none -/
  | reserveRun (service : TriageService) (request : ReserveRequest) (absentAt : Option ℤ)
  /-- a worker begins `read_evidence` and takes the lock of the anchor row -/
  | beginRead (worker : ℕ) (service : TriageService) (call : ReadCall)
  | decideRead (worker : ℕ)
  | commitRead (worker : ℕ)
  /-- the transaction is rolled back by something else -/
  | abortRead (worker : ℕ)

/-- The transaction below the lock: a recorded operation, an error, or a row to insert. -/
def belowLock (s : ReadTable) (now : ℤ) (worker : ℕ) (p : PendingRead) : ReadTable :=
  let ended := { s with pending := s.pending.erase worker }
  match s.read? p.call.operationId with
  | some existing => ended.answer p.service p.call (replayRead existing p.call)
  | none =>
    match recordRead p.service p.run p.call (s.group p.run.anchorRunId) now with
    | .error error => ended.answer p.service p.call (.error error)
    | .ok row => { s with pending := s.pending.set worker { p with row := some row } }

/-- The insert and the commit; the operation id is the primary key. -/
def commit (s : ReadTable) (worker : ℕ) (p : PendingRead) (row : EvidenceRead) : ReadTable :=
  let ended := { s with pending := s.pending.erase worker }
  if (s.read? row.operationId).isSome then ended.answer p.service p.call (.error "IntegrityError")
  else { ended.answer p.service p.call row.result with reads := s.reads ++ [row] }

def step (s : ReadTable) (now : ℤ) : Action → Option ReadTable
  | .reserveRun service request absentAt =>
    -- a repair run is reserved by who has loaded the row of its initial run, and a transaction
    -- has found a row only when there is one
    if (∀ anchor ∈ request.anchor, anchor ≠ request.runId → (s.run? anchor).isSome) ∧
        (absentAt = none → (s.run? request.runId).isSome) ∧ (∀ t ∈ absentAt, t ≤ now) then
      some ((s.reserveRun service request absentAt).toOption.getD s)
    else none
  | .beginRead worker service call =>
    if worker ∈ s.pending.keys then none
    else
      match s.run? call.runId with
      | none => some (s.answer service call (.error "EVIDENCE_SCOPE_DENIED"))
      | some run =>
        if run.scope ≠ service.scope then
          some (s.answer service call (.error "EVIDENCE_SCOPE_DENIED"))
        else if s.lockedBy run.anchorRunId then none
        else some { s with pending := s.pending.set worker ⟨service, call, run, none⟩ }
  | .decideRead worker =>
    match s.pending.get? worker with
    | some ⟨service, call, run, none⟩ => some (s.belowLock now worker ⟨service, call, run, none⟩)
    | _ => none
  | .commitRead worker =>
    match s.pending.get? worker with
    | some ⟨service, call, run, some row⟩ =>
      some (s.commit worker ⟨service, call, run, some row⟩ row)
    | _ => none
  | .abortRead worker =>
    if worker ∈ s.pending.keys then some { s with pending := s.pending.erase worker } else none

end ReadTable

/-! ## The workers -/

/-- The tables over the clock of the database. -/
structure TriageWorld where
  clock : ℤ
  jobs : JobTable
  table : ReadTable

namespace TriageWorld

/-- Admitted jobs, those in `triaged` with an execution; nothing is claimed or reserved. -/
def new (clock : ℤ) (jobs : Dict String AnalysisJob) (triaged : List String) : TriageWorld where
  clock := clock
  jobs :=
    { rows := jobs.mapWithKey fun id job =>
        ⟨job, if id ∈ triaged then some .admitted else none⟩
      issued := []
      closed := [] }
  table := ⟨[], [], [], Dict.empty, []⟩

inductive Action where
  | tick (microseconds : ℕ)
  | job (action : JobTable.Action)
  | read (action : ReadTable.Action)

def step (s : TriageWorld) : Action → Option TriageWorld
  | .tick microseconds => some { s with clock := s.clock + microseconds }
  | .job action => some { s with jobs := s.jobs.step s.clock action }
  | .read action => (s.table.step s.clock action).map fun table => { s with table := table }

end TriageWorld

end LocalAgent.Runtime
