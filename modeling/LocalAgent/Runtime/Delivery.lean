import LocalAgent.Lib.JsonSize
import LocalAgent.Runtime.ToolContract
import LocalAgent.Runtime.ToolIdempotencyRuns

/-!
# LocalAgent.Runtime.Delivery — `core/stage13/delivery.py`

`DeliveryService.deliver` for one delivery id.  A call verifies with the authority, and then goes
through three transactions on the delivery row and the sink: the admission, the sink and the
receipt; an `OSError` or a `TimeoutError` between the last two leads to a fourth.  The answer of the
authority and the outcome read from the triage tables are inputs of the call.  Every transaction is
one step, and a call can end between any two of them.
-/

namespace LocalAgent

namespace Json

mutual

/-- The value with `True` and `False` as the numbers they are equal to. -/
def unbool : Json → Json
  | .bool b => .int (if b then 1 else 0)
  | .arr items => .arr (unboolItems items)
  | .obj fields => .obj (unboolFields fields)
  | .null => .null
  | .int n => .int n
  | .str s => .str s

def unboolItems : List Json → List Json
  | [] => []
  | v :: vs => unbool v :: unboolItems vs

/-- The items of an object. -/
def unboolFields : List (String × Json) → List (String × Json)
  | [] => []
  | (k, v) :: fs => (k, unbool v) :: unboolFields fs

end

/-- `a == b`: the order of the keys does not matter. -/
def equals (a b : Json) : Bool := a.unbool.canonical = b.unbool.canonical

/-- `value.get(k)`. -/
def getOrNull (value : Json) (k : String) : Json := (value.get? k).getD .null

end Json

namespace Runtime

/-! ## Requests, receipts and rows -/

/-- `VERSION`. -/
def deliveryAuthorizationVersion : String := "stage13.delivery-authorization.v1"

/-- `PROTOCOL`. -/
def deliveryProtocol : String := "stage13.delivery.v1"

/-- `digest`. -/
@[irreducible] def deliveryDigest (value : Json) : String := Sha256.hexdigest value.canonical

/-- `DeliveryRequest`; `binding` and `gate_authorization` are objects. -/
structure DeliveryRequest where
  protocolVersion : String
  deliveryId : String
  binding : List (String × Json)
  gateAuthorization : Option (List (String × Json))

/-- `model_dump`. -/
def DeliveryRequest.toJson (request : DeliveryRequest) : Json :=
  .obj [("protocol_version", .str request.protocolVersion),
    ("delivery_id", .str request.deliveryId), ("binding", .obj request.binding),
    ("gate_authorization", (request.gateAuthorization.map Json.obj).getD .null)]

def deliveryIdentity (binding : List (String × Json)) : String :=
  deliveryDigest (.obj [("Domain", .str deliveryProtocol), ("Request", .obj binding)])

/-- `authorization_digest`; `none` where `dict` refuses the value. -/
def authorizationDigest (a : Json) : Option String :=
  (a.setItem "authorization_digest" (.str "")).map deliveryDigest

/-- The values the table allows as status; those of a receipt are among them. -/
inductive DeliveryRowStatus where
  | denied | authorized | delivering | delivered | failed | outcomeUnknown
  deriving DecidableEq

def DeliveryRowStatus.value : DeliveryRowStatus → String
  | .denied => "DENIED" | .authorized => "AUTHORIZED" | .delivering => "DELIVERING"
  | .delivered => "DELIVERED" | .failed => "FAILED" | .outcomeUnknown => "OUTCOME_UNKNOWN"

/-- The check of the column. -/
def DeliveryRowStatus.ofJson : Json → Option DeliveryRowStatus
  | .str "DENIED" => some .denied
  | .str "AUTHORIZED" => some .authorized
  | .str "DELIVERING" => some .delivering
  | .str "DELIVERED" => some .delivered
  | .str "FAILED" => some .failed
  | .str "OUTCOME_UNKNOWN" => some .outcomeUnknown
  | _ => none

def ToolSideEffectState.value : ToolSideEffectState → String
  | .notStarted => "NOT_STARTED" | .started => "STARTED" | .committed => "COMMITTED"
  | .compensated => "COMPENSATED" | .unknown => "UNKNOWN"

structure SinkReceipt where
  deliveryId : String
  payloadDigest : String
  destination : Json

def SinkReceipt.toJson (sink : SinkReceipt) : Json :=
  .obj [("delivery_id", .str sink.deliveryId), ("payload_digest", .str sink.payloadDigest),
    ("destination", sink.destination)]

structure DeliveryReceiptBody where
  deliveryId : String
  authorizationDigest : Json
  outcome : Json
  destination : Json
  deliveryStatus : DeliveryRowStatus
  reason : Json
  sideEffectState : ToolSideEffectState
  startedAt : String
  terminalAt : String
  sinkReceipt : Option SinkReceipt
  sinkResultDigest : Option String
  reconciliationStatus : String

def DeliveryReceiptBody.toJson (body : DeliveryReceiptBody) : Json :=
  .obj [("protocol_version", .str deliveryProtocol), ("delivery_id", .str body.deliveryId),
    ("authorization_digest", body.authorizationDigest), ("outcome", body.outcome),
    ("destination", body.destination), ("delivery_status", .str body.deliveryStatus.value),
    ("reason", body.reason), ("side_effect_state", .str body.sideEffectState.value),
    ("side_effect_identity", .str body.deliveryId), ("started_at", .str body.startedAt),
    ("terminal_at", .str body.terminalAt),
    ("sink_receipt", (body.sinkReceipt.map SinkReceipt.toJson).getD .null),
    ("sink_result_digest", Json.ofOption body.sinkResultDigest),
    ("reconciliation_status", .str body.reconciliationStatus)]

/-- What `_receipt` returns. -/
structure DeliveryReceipt extends DeliveryReceiptBody where
  deliveryReceiptDigest : String

structure DeliveryRow where
  requestDigest : String
  authorization : Json
  status : DeliveryRowStatus
  token : Option String
  epoch : ℕ
  /-- `lease_until`, in microseconds -/
  leaseUntil : Option ℤ
  startedAt : ℤ
  receipt : Option DeliveryReceipt

structure ControlledSinkRow where
  payload : Json
  payloadDigest : String
  receipt : SinkReceipt

inductive DeliverError where
  | value (code : String)
  | key (name : String)
  /-- the check of the status column -/
  | check
  /-- an exception that no handler of the call names -/
  | other
  deriving DecidableEq

/-- The configuration of a service, and how its timestamps are written. -/
structure DeliveryService where
  project : String
  destinationId : String
  isoformat : ℤ → String

/-- `authority.verify`. -/
inductive AuthorityAnswer where
  | answered (value : Json)
  /-- it raises one of the exceptions the call handles -/
  | unavailable
  /-- it raises another one -/
  | broken

/-- `_outcome`. -/
inductive OutcomeRead where
  | read (outcome : Json)
  /-- it raises one of the exceptions the call handles -/
  | refused
  /-- it raises another one -/
  | broken

namespace DeliveryService

variable (service : DeliveryService)

/-! ## Verification -/

/-- `status`, `reason`, `verified`, `audit_authorization` and `outcome`. -/
structure Verdict where
  status : Json
  reason : Json
  verified : Json
  audit : Json
  outcome : Option Json

def Verdict.denied (reason : String) (verified audit : Json) : Verdict :=
  ⟨.str "DENIED", .str reason, verified, audit, none⟩

/-- `status == "AUTHORIZED"`. -/
def Verdict.isAuthorized (verdict : Verdict) : Bool :=
  match verdict.status with
  | .str status => status = "AUTHORIZED"
  | _ => false

/-- The comparison of the answer with the request; `none` where it raises. -/
def mismatched (binding authorization : List (String × Json)) (verified : Json) : Option Bool := do
  if ¬ verified.equals (.obj authorization) then return true
  if ¬ (verified.getOrNull "authorization_version").equals (.str deliveryAuthorizationVersion) then
    return true
  if ¬ (verified.getOrNull "project_id").equals (.str service.project) then return true
  let expected ← authorizationDigest verified
  if ¬ (verified.getOrNull "authorization_digest").equals (.str expected) then return true
  if ¬ (verified.getOrNull "gate").equals (← binding.lookup "gate") then return true
  if ¬ (verified.getOrNull "outcome").equals (← binding.lookup "outcome") then return true
  return ¬ (verified.getOrNull "destination").equals (← binding.lookup "destination")

def askAuthority (request : DeliveryRequest) (answer : AuthorityAnswer) :
    Except DeliverError Verdict :=
  match request.gateAuthorization with
  | none | some [] => .ok (.denied "MISSING_GATE" (.obj []) (.obj []))
  | some authorization =>
    match answer with
    | .broken => .error .other
    | .unavailable => .ok (.denied "GATE_UNAVAILABLE_OR_MALFORMED" (.obj []) (.obj []))
    | .answered verified =>
      match service.mismatched request.binding authorization verified with
      | none => .ok (.denied "GATE_UNAVAILABLE_OR_MALFORMED" verified (.obj []))
      | some true => .ok (.denied "AUTHORIZATION_BINDING_MISMATCH" verified (.obj []))
      | some false =>
        match verified.get? "authorization_status", verified.get? "reason" with
        | some status, some reason => .ok ⟨status, reason, verified, verified, none⟩
        | _, _ => .ok (.denied "GATE_UNAVAILABLE_OR_MALFORMED" verified verified)

/-- The only destination of the service. -/
def destination : Json :=
  .obj [("kind", .str "CONTROLLED_DELIVERY_SINK"), ("scope", .str "TEST_SCOPE"),
    ("id", .str service.destinationId)]

def checkDestination (request : DeliveryRequest) (verdict : Verdict) :
    Except DeliverError Verdict :=
  match request.binding.lookup "destination" with
  | none => .error (.key "destination")
  | some destination =>
    if destination.equals service.destination then .ok verdict
    else .ok (.denied "DESTINATION_DENIED" verdict.verified verdict.audit)

/-- The outcome of an authorised delivery. -/
def readOutcome (verdict : Verdict) (read : OutcomeRead) : Except DeliverError Verdict :=
  if verdict.isAuthorized then
    match read with
    | .read outcome => .ok { verdict with outcome := some outcome }
    | .refused => .ok (.denied "OUTCOME_BINDING_MISMATCH" verdict.verified verdict.audit)
    | .broken => .error .other
  else .ok verdict

/-- `deliver` up to its first transaction. -/
def verify (request : DeliveryRequest) (answer : AuthorityAnswer) (read : OutcomeRead) :
    Except DeliverError Verdict := do
  raiseIf (request.protocolVersion ≠ deliveryProtocol ∨
    request.deliveryId ≠ deliveryIdentity request.binding) (.value "DELIVERY_IDENTITY_MISMATCH")
  let verdict ← service.askAuthority request answer
  let verdict ← service.checkDestination request verdict
  readOutcome verdict read

structure Verified where
  request : DeliveryRequest
  answer : AuthorityAnswer
  read : OutcomeRead
  verdict : Verdict
  computed : service.verify request answer read = .ok verdict

/-! ## Transactions -/

def receipt (deliveryId : String) (authorization : Json) (status : DeliveryRowStatus)
    (reason : Json) (started terminal : ℤ) (sink : Option SinkReceipt) (reconciled : String) :
    DeliveryReceipt :=
  let body : DeliveryReceiptBody :=
    { deliveryId := deliveryId
      authorizationDigest := authorization.getOrNull "authorization_digest"
      outcome := authorization.getOrNull "outcome"
      destination := authorization.getOrNull "destination"
      deliveryStatus := status
      reason := reason
      sideEffectState :=
        if status = .delivered then .committed
        else if status = .outcomeUnknown then .unknown else .notStarted
      startedAt := service.isoformat started
      terminalAt := service.isoformat terminal
      sinkReceipt := sink
      sinkResultDigest := sink.map fun sr => deliveryDigest sr.toJson
      reconciliationStatus := reconciled }
  ⟨body, deliveryDigest body.toJson⟩

inductive Admission where
  | returned (receipt : DeliveryReceipt)
  | owner (epoch : ℕ)

/-- A lease of the row still runs. -/
def Leased (row : DeliveryRow) (now : ℤ) : Prop := ∃ t ∈ row.leaseUntil, now < t
  deriving Decidable

variable {service}

/-- The first transaction. -/
def admission (call : Verified service) (token : String) (now : ℤ) (stored : Option DeliveryRow) :
    Except DeliverError (DeliveryRow × Admission) := do
  let deliveryId := call.request.deliveryId
  let intentDigest := deliveryDigest call.request.toJson
  let row ← match DeliveryRowStatus.ofJson call.verdict.status with
    | none => .error .check
    | some status => pure (stored.getD
        ⟨intentDigest, call.verdict.audit, status, none, 0, none, now, none⟩)
  raiseIf (row.requestDigest ≠ intentDigest) (.value "DELIVERY_BINDING_CONFLICT")
  if call.verdict.isAuthorized then
    match row.receipt with
    | some receipt => return (row, .returned receipt)
    | none =>
      if Leased row now then
        return (row, .returned (service.receipt deliveryId call.verdict.verified .outcomeUnknown
          (.str "PUBLICATION_OWNER_ACTIVE") row.startedAt now none "PENDING"))
      else
        return ({ row with
          token := some token, epoch := row.epoch + 1, leaseUntil := some (now + 30000000),
          status := .delivering }, .owner (row.epoch + 1))
  else
    let denial := service.receipt deliveryId call.verdict.audit .denied call.verdict.reason
      row.startedAt now none "NOT_REQUIRED"
    match row.receipt with
    | some _ => return (row, .returned denial)
    | none => return ({ row with receipt := some denial, status := .denied }, .returned denial)

/-- The token and the epoch are those of the row, and their lease runs. -/
def Owns (stored : Option DeliveryRow) (token : String) (epoch : ℕ) (now : ℤ) : Prop :=
  ∃ row ∈ stored, row.token = some token ∧ row.epoch = epoch ∧ Leased row now
  deriving Decidable

def fence (stored : Option DeliveryRow) (token : String) (epoch : ℕ) (now : ℤ) :
    Except DeliverError DeliveryRow :=
  match stored with
  | none => .error (.value "DELIVERY_OWNERSHIP_LOST")
  | some row => do
    raiseIf (row.token ≠ some token ∨ row.epoch ≠ epoch ∨ ¬ Leased row now)
      (.value "DELIVERY_OWNERSHIP_LOST")
    return row

/-- The second transaction: the sink row, its receipt, and whether it was there. -/
def sinkTransaction (call : Verified service) (token : String) (epoch : ℕ) (now : ℤ)
    (stored : Option DeliveryRow) (sink : Option ControlledSinkRow) :
    Except DeliverError (ControlledSinkRow × SinkReceipt × Bool) := do
  let _ ← fence stored token epoch now
  let payload := call.verdict.outcome.getD .null
  match sink with
  | none =>
    let sr : SinkReceipt := ⟨call.request.deliveryId, deliveryDigest payload,
      (call.request.binding.lookup "destination").getD .null⟩
    return (⟨payload, sr.payloadDigest, sr⟩, sr, false)
  | some sink =>
    raiseIf (sink.payloadDigest ≠ deliveryDigest payload) (.value "SINK_BINDING_CONFLICT")
    return (sink, sink.receipt, true)

def receiptTransaction (call : Verified service) (token : String) (epoch : ℕ) (now : ℤ)
    (sr : SinkReceipt) (reconciled : Bool) (stored : Option DeliveryRow) :
    Except DeliverError (DeliveryRow × DeliveryReceipt) := do
  let row ← fence stored token epoch now
  let receipt := service.receipt call.request.deliveryId call.verdict.verified .delivered
    (.str "SINK_COMMITTED") row.startedAt now (some sr)
    (if reconciled then "FOUND_EXISTING" else "NOT_REQUIRED")
  return ({ row with receipt := some receipt, status := .delivered, leaseUntil := none }, receipt)

def unconfirmedTransaction (call : Verified service) (token : String) (epoch : ℕ) (now : ℤ)
    (stored : Option DeliveryRow) : Except DeliverError (DeliveryRow × DeliveryReceipt) := do
  let row ← fence stored token epoch now
  return ({ row with status := .outcomeUnknown, leaseUntil := none },
    service.receipt call.request.deliveryId call.verdict.verified .outcomeUnknown
      (.str "SINK_OR_RESPONSE_UNCONFIRMED") row.startedAt now none "REQUIRED")

/-! ## Calls in any order -/

variable (service)

inductive Phase where
  | verified (call : Verified service)
  | admitted (call : Verified service) (token : String) (epoch : ℕ)
  | sunk (call : Verified service) (token : String) (epoch : ℕ) (sr : SinkReceipt)
      (reconciled : Bool)
  | receipted (call : Verified service) (token : String) (epoch : ℕ) (receipt : DeliveryReceipt)
  | unconfirmed (call : Verified service) (token : String) (epoch : ℕ)
  | ended

structure World where
  /-- the time of the database, in microseconds -/
  clock : ℤ
  row : Option DeliveryRow
  sink : Option ControlledSinkRow
  calls : Dict ℕ (Phase service)
  returned : List DeliveryReceipt

/-- Nobody has called yet. -/
def World.start (clock : ℤ) : World service := ⟨clock, none, none, Dict.empty, []⟩

inductive Action where
  | tick (duration : ℕ)
  /-- the call `id` comes in, and the authority and the triage tables answer -/
  | call (id : ℕ) (request : DeliveryRequest) (answer : AuthorityAnswer) (read : OutcomeRead)
  | enter (id : ℕ) (token : String)
  | sink (id : ℕ)
  | settle (id : ℕ)
  /-- an `OSError` or a `TimeoutError` inside the `try` -/
  | lose (id : ℕ)
  | unconfirmed (id : ℕ)
  | finish (id : ℕ)
  /-- the call ends here -/
  | crash (id : ℕ)

variable {service}

namespace World

/-- The call goes on to `phase`. -/
def go (w : World service) (id : ℕ) (phase : Phase service) : World service :=
  { w with calls := w.calls.set id phase }

/-- The call returns the receipt. -/
def answer (w : World service) (id : ℕ) (receipt : DeliveryReceipt) : World service :=
  { w with calls := w.calls.set id .ended, returned := receipt :: w.returned }

/-- One step; `none` where the action is not the next one of the call. -/
def step (deliveryId : String) (w : World service) : Action → Option (World service)
  | .tick duration => some { w with clock := w.clock + duration }
  | .call id request answer read =>
    if w.calls.get? id = none ∧ request.deliveryId = deliveryId then
      match h : service.verify request answer read with
      | .error _ => some (w.go id .ended)
      | .ok verdict => some (w.go id (.verified ⟨request, answer, read, verdict, h⟩))
    else none
  | .enter id token =>
    match w.calls.get? id with
    | some (.verified call) =>
      match admission call token w.clock w.row with
      | .error _ => some (w.go id .ended)
      | .ok (row, .returned receipt) => some ({ w with row := some row }.answer id receipt)
      | .ok (row, .owner epoch) =>
        some ({ w with row := some row }.go id (.admitted call token epoch))
    | _ => none
  | .sink id =>
    match w.calls.get? id with
    | some (.admitted call token epoch) =>
      match sinkTransaction call token epoch w.clock w.row w.sink with
      | .error _ => some (w.go id .ended)
      | .ok (sink, sr, reconciled) =>
        some ({ w with sink := some sink }.go id (.sunk call token epoch sr reconciled))
    | _ => none
  | .settle id =>
    match w.calls.get? id with
    | some (.sunk call token epoch sr reconciled) =>
      match receiptTransaction call token epoch w.clock sr reconciled w.row with
      | .error _ => some (w.go id .ended)
      | .ok (row, receipt) =>
        some ({ w with row := some row }.go id (.receipted call token epoch receipt))
    | _ => none
  | .lose id =>
    match w.calls.get? id with
    | some (.admitted call token epoch) => some (w.go id (.unconfirmed call token epoch))
    | some (.sunk call token epoch _ _) => some (w.go id (.unconfirmed call token epoch))
    | some (.receipted call token epoch _) => some (w.go id (.unconfirmed call token epoch))
    | _ => none
  | .unconfirmed id =>
    match w.calls.get? id with
    | some (.unconfirmed call token epoch) =>
      match unconfirmedTransaction call token epoch w.clock w.row with
      | .error _ => some (w.go id .ended)
      | .ok (row, receipt) => some ({ w with row := some row }.answer id receipt)
    | _ => none
  | .finish id =>
    match w.calls.get? id with
    | some (.receipted _ _ _ receipt) => some (w.answer id receipt)
    | _ => none
  | .crash id => if w.calls.get? id = none then none else some (w.go id .ended)

end World

end DeliveryService

end Runtime

end LocalAgent
