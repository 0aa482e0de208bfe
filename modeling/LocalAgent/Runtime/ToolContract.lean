import LocalAgent.Lib.Text

/-!
# LocalAgent.Runtime.ToolContract — `core/runtime/tool_contract.py`

What the results and the errors of a tool say of a side effect and of another attempt.
-/

namespace LocalAgent.Runtime

inductive ToolSideEffectState where
  | notStarted | started | committed | compensated | unknown
  deriving DecidableEq

inductive RetryDisposition where
  | safe | safeWithIdempotencyKey | unsafeToRetry | outcomeUnknown
  deriving DecidableEq

/-- A `ToolOutput` with what its `__post_init__` checks. -/
structure ToolOutput where
  contentType : String
  content : String
  originalSizeBytes : ℤ
  returnedSizeBytes : ℤ
  truncated : Bool
  digest : String
  contentType_text : Text.isBlank contentType = false
  sizes_nonneg : 0 ≤ originalSizeBytes ∧ 0 ≤ returnedSizeBytes
  digest_text : Text.isBlank digest = false

inductive ToolErrorCategory where
  | validation | notFound | permissionDenied | resourceConflict | transient
  | postCommitResponseFailure | timeout | cancelled | deadlineExceeded | budgetExhausted
  | outputInvalid | outputTooLarge | sideEffectUnknown | compensationFailed | internal
  deriving DecidableEq

inductive OperationIdempotency where
  | readOnly | idempotent | idempotentWithKey | nonIdempotent | unknown
  deriving DecidableEq

/-- `retry_disposition_for` of an error without compensation or output; the key is
`idempotency_key`. -/
def retryDispositionFor (category : ToolErrorCategory) (idempotency : OperationIdempotency)
    (key : Option String) (state : ToolSideEffectState) (supportsReplay : Bool) :
    RetryDisposition :=
  let keyed := key.any fun k => !Text.isBlank k
  if category ∉ [.transient, .postCommitResponseFailure, .timeout, .resourceConflict] then
    .unsafeToRetry
  else match state with
    | .unknown => .outcomeUnknown
    | .committed =>
      if idempotency = .idempotentWithKey ∧ keyed = true ∧ supportsReplay = true ∧
        category = .postCommitResponseFailure then .safeWithIdempotencyKey else .unsafeToRetry
    | .compensated => .unsafeToRetry
    | .notStarted | .started =>
      match idempotency with
      | .idempotentWithKey => if keyed then .safeWithIdempotencyKey else .unsafeToRetry
      | .readOnly | .idempotent => .safe
      | .nonIdempotent | .unknown => .unsafeToRetry

end LocalAgent.Runtime
