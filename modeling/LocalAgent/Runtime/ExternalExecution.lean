import LocalAgent.Lib.Dict
import LocalAgent.Lib.Trace

/-!
# LocalAgent.Runtime.ExternalExecution — `core/stage8/execution.py`, the jobs of external executions

The job rows with the callers of `start_execution` and `triage` that are under way.  A database
block is one step and an invocation of the start tool another; a caller may stop between any two of
its steps.  What a tool answers, and whether the checks of the mission, the plan and the artifact
pass, are inputs of a step.

* `ExternalExecution.plan`: the transaction that adds a job, or adopts one that is still pending.
* `ExternalExecution.settle`: what a caller writes after the start tool answered.
* `ExternalExecution.adopts`: the pending job that a step takes in hand without adding it.
-/

namespace LocalAgent.Runtime

inductive ExternalExecutionStatus where
  | pending | running | succeeded | failed | unknown | cancelled
  deriving DecidableEq

namespace ExternalExecutionStatus

/-- The statuses that keep another job of the same request from being added. -/
def isOpen : ExternalExecutionStatus → Bool
  | pending | running | unknown => true
  | succeeded | failed | cancelled => false

/-- The statuses that `ingest_result` leaves as they are. -/
def isSettled : ExternalExecutionStatus → Bool
  | succeeded | failed | unknown | cancelled => true
  | pending | running => false

/-- The statuses that a result may have. -/
def isResult : ExternalExecutionStatus → Bool
  | succeeded | failed | unknown => true
  | pending | running | cancelled => false

end ExternalExecutionStatus

/-- `triage_payload`. -/
inductive JobTriage where
  | running
  | completed (result : String)
  deriving DecidableEq

/-- The columns of a `Stage8ExternalExecutionJobRow` that the steps read or write. -/
structure ExternalJob where
  missionId : String
  requestDigest : String
  executionId : Option String
  status : ExternalExecutionStatus
  resultPayload : Option String
  triage : Option JobTriage
  deriving DecidableEq

/-- Where a caller of `start_execution` is. -/
inductive StartCall where
  | planning (missionId requestDigest : String)
  | ready (jobId : String)
  | invoked (jobId : String)
  deriving DecidableEq

/-- The job that a caller has in hand. -/
def StartCall.job : StartCall → Option String
  | planning _ _ => none
  | ready jobId | invoked jobId => some jobId

inductive StartOutcome where
  | toolError (safeErrorCode : String) (outcomeUnknown : Bool)
  | raised
  | executionIdMissing
  | started (executionId : String)
  deriving DecidableEq

/-- A caller of `triage` that claimed the triage of an execution, and whether it wrote its
result. -/
structure TriageCall where
  executionId : String
  written : Bool
  deriving DecidableEq

/-- The jobs by their ids, the callers, and the jobs for which the start tool was invoked. -/
structure ExternalExecution where
  jobs : Dict String ExternalJob
  calls : Dict ℕ StartCall
  triages : Dict ℕ TriageCall
  starts : List String

namespace ExternalExecution

variable (s : ExternalExecution)

def new : ExternalExecution := ⟨.empty, .empty, .empty, []⟩

/-! ## `start_execution` -/

def openJob (missionId requestDigest : String) : Option (String × ExternalJob) :=
  s.jobs.entries.reverse.find? fun e =>
    e.2.missionId = missionId ∧ e.2.requestDigest = requestDigest ∧ e.2.status.isOpen

/-- The first read: an open job is returned, or adopted when it is pending. -/
def begin (call : ℕ) (missionId requestDigest : String) (bound : Bool) : Option ExternalExecution :=
  if call ∈ s.calls.keys then none
  else if bound = false then some s
  else match s.openJob missionId requestDigest with
    | none => some { s with calls := s.calls.set call (.planning missionId requestDigest) }
    | some (jobId, job) =>
      if job.status = .pending then some { s with calls := s.calls.set call (.ready jobId) }
      else some s

/-- The row that a plan adds. -/
def plannedJob (missionId requestDigest : String) : ExternalJob :=
  ⟨missionId, requestDigest, none, .pending, none, none⟩

/-- The transaction of the plan; `admitted` says whether its checks pass. -/
def plan (call : ℕ) (newJobId : String) (admitted : Bool) : Option ExternalExecution :=
  match s.calls.get? call with
  | some (.planning missionId requestDigest) =>
    if admitted = false then some { s with calls := s.calls.erase call }
    else match s.openJob missionId requestDigest with
      | some (jobId, job) =>
        if job.status = .pending then some { s with calls := s.calls.set call (.ready jobId) }
        else some { s with calls := s.calls.erase call }
      | none =>
        -- a primary key that is taken raises
        if newJobId ∈ s.jobs.keys then some { s with calls := s.calls.erase call }
        else some { s with
          jobs := s.jobs.set newJobId (plannedJob missionId requestDigest)
          calls := s.calls.set call (.ready newJobId) }
  | _ => none

/-- The invocation of `stage8_start_execution`. -/
def invoke (call : ℕ) : Option ExternalExecution :=
  match s.calls.get? call with
  | some (.ready jobId) => some { s with
      calls := s.calls.set call (.invoked jobId)
      starts := s.starts ++ [jobId] }
  | _ => none

/-- `update_execution_job_by_id`: no check of the row's status. -/
def updateById (jobId : String) (write : ExternalJob → ExternalJob) : Dict String ExternalJob :=
  match s.jobs.get? jobId with
  | none => s.jobs
  | some job => s.jobs.set jobId (write job)

def startFailed (status : ExternalExecutionStatus) (code : String) (job : ExternalJob) :
    ExternalJob :=
  { job with status := status, resultPayload := some code }

def byExecution (executionId : String) : Option (String × ExternalJob) :=
  s.jobs.entries.find? fun e => e.2.executionId = some executionId

/-- The transaction after a start that succeeded: only a pending job is set running.  Two rows
with one execution id raise; `committed` says whether the mission's part goes through. -/
def startSucceeded (jobId executionId : String) (committed : Bool) : Dict String ExternalJob :=
  match s.jobs.get? jobId with
  | none => s.jobs
  | some job =>
    if job.status = .pending ∧ committed = true ∧ s.byExecution executionId = none then
      s.jobs.set jobId { job with executionId := some executionId, status := .running }
    else s.jobs

/-- What a caller writes to its job once the tool answered. -/
def settledJobs (jobId : String) (committed : Bool) : StartOutcome → Dict String ExternalJob
  | .toolError code outcomeUnknown =>
    s.updateById jobId (startFailed (if outcomeUnknown then .unknown else .cancelled) code)
  | .raised => s.updateById jobId (startFailed .unknown "STAGE8_START_OUTCOME_UNKNOWN")
  | .executionIdMissing => s.updateById jobId (startFailed .unknown "STAGE8_EXECUTION_ID_MISSING")
  | .started executionId => s.startSucceeded jobId executionId committed

/-- The end of a call whose tool answered. -/
def settle (call : ℕ) (outcome : StartOutcome) (committed : Bool) : Option ExternalExecution :=
  match s.calls.get? call with
  | some (.invoked jobId) => some { s with
      jobs := s.settledJobs jobId committed outcome
      calls := s.calls.erase call }
  | _ => none

/-! ## Results and triage -/

/-- The row that `ingest_result` reads. -/
def ingestRow (expectedJobId : Option String) (executionId : String) :
    Option (String × ExternalJob) :=
  (s.byExecution executionId).filter fun e => expectedJobId.all fun jobId => jobId = e.1

def withResult (status : ExternalExecutionStatus) (payload : String) (job : ExternalJob) :
    ExternalJob :=
  { job with status := status, resultPayload := some payload }

/-- `ingest_result`; `observe_once` ends in it with the result that the provider gave. -/
def ingest (expectedJobId : Option String) (executionId : String)
    (status : ExternalExecutionStatus) (payload : String) (committed : Bool) :
    ExternalExecution :=
  match s.ingestRow expectedJobId executionId with
  | none => s
  | some (jobId, job) =>
    if job.status.isSettled ∨ status.isResult = false ∨ committed = false then s
    else { s with jobs := s.jobs.set jobId (withResult status payload job) }

/-- `claim_execution_triage` with the answer for a triage that is not free. -/
def claimTriage (call : ℕ) (executionId : String) : Option ExternalExecution :=
  if call ∈ s.triages.keys then none
  else match s.byExecution executionId with
    | none => some s
    | some (jobId, job) =>
      if job.status = .failed ∧ job.triage = none then
        some { s with
          jobs := s.jobs.set jobId { job with triage := some .running }
          triages := s.triages.set call ⟨executionId, false⟩ }
      else some s

def completeTriage (call : ℕ) (result : String) : Option ExternalExecution :=
  match s.triages.get? call with
  | some ⟨executionId, false⟩ =>
    match s.byExecution executionId with
    | none => some s
    | some (jobId, job) => some { s with
        jobs := s.jobs.set jobId { job with triage := some (.completed result) }
        triages := s.triages.set call ⟨executionId, true⟩ }
  | _ => none

/-- The `except` of a triage: a triage that is still running becomes free. -/
def failTriage (call : ℕ) : Option ExternalExecution :=
  match s.triages.get? call with
  | some ⟨executionId, _⟩ =>
    match s.byExecution executionId with
    | none => some { s with triages := s.triages.erase call }
    | some (jobId, job) =>
      if job.triage = some .running then
        some { s with
          jobs := s.jobs.set jobId { job with triage := none }
          triages := s.triages.erase call }
      else some { s with triages := s.triages.erase call }
  | none => none

/-! ## Steps -/

/-- One step of some caller. -/
inductive Action where
  | begin (call : ℕ) (missionId requestDigest : String) (bound : Bool)
  | plan (call : ℕ) (newJobId : String) (admitted : Bool)
  | invoke (call : ℕ)
  | settle (call : ℕ) (outcome : StartOutcome) (committed : Bool)
  | stop (call : ℕ)
  | ingest (expectedJobId : Option String) (executionId : String)
      (status : ExternalExecutionStatus) (payload : String) (committed : Bool)
  | claimTriage (call : ℕ) (executionId : String)
  | completeTriage (call : ℕ) (result : String)
  | failTriage (call : ℕ)
  | stopTriage (call : ℕ)
  deriving DecidableEq

/-- A step; `stop` is a caller that returns, crashes or is cancelled. -/
def step : Action → Option ExternalExecution
  | .begin call missionId requestDigest bound => s.begin call missionId requestDigest bound
  | .plan call newJobId admitted => s.plan call newJobId admitted
  | .invoke call => s.invoke call
  | .settle call outcome committed => s.settle call outcome committed
  | .stop call => some { s with calls := s.calls.erase call }
  | .ingest expectedJobId executionId status payload committed =>
    some (s.ingest expectedJobId executionId status payload committed)
  | .claimTriage call executionId => s.claimTriage call executionId
  | .completeTriage call result => s.completeTriage call result
  | .failTriage call => s.failTriage call
  | .stopTriage call => some { s with triages := s.triages.erase call }

/-- The pending job of the request, which a read of the open jobs adopts. -/
def pendingJob (missionId requestDigest : String) : Option String :=
  (s.openJob missionId requestDigest).bind fun e =>
    if e.2.status = .pending then some e.1 else none

/-- The job that the step takes in hand without having added it. -/
def adopts : Action → Option String
  | .begin _ missionId requestDigest true => s.pendingJob missionId requestDigest
  | .plan call _ true =>
    match s.calls.get? call with
    | some (.planning missionId requestDigest) => s.pendingJob missionId requestDigest
    | _ => none
  | _ => none

/-- No caller has the job in hand, and the start tool was not invoked for it. -/
def Untouched (jobId : String) : Prop :=
  jobId ∉ s.starts ∧ ∀ e ∈ s.calls.entries, e.2.job ≠ some jobId

instance (jobId : String) : Decidable (s.Untouched jobId) := by unfold Untouched; infer_instance

/-- A job is adopted only while no caller has it in hand and its start was not tried. -/
def AdoptsUntouched (action : Action) : Prop :=
  ∀ jobId ∈ s.adopts action, s.Untouched jobId

instance (action : Action) : Decidable (s.AdoptsUntouched action) := by
  unfold AdoptsUntouched; infer_instance

end ExternalExecution

end LocalAgent.Runtime
