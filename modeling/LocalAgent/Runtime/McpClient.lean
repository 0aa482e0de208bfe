import LocalAgent.Runtime.IncidentGrouping

/-!
# LocalAgent.Runtime.McpClient — `mcp/client.py`, the requests of one stdio session

The client of one server process after its handshake: the table of pending requests, the tasks that
wait on it, the reader, the process watcher and `close`.  What runs between two awaits is one step.

* `McpText`, `McpMessage.dumps`: the text of a message, code point by code point.
* `McpClient.send`, `McpClient.breakWith`, `McpClient.handleLine`: the parts of a step.
* `McpClient.step`: what a task, the server, the pipe or the clock does next.
-/

namespace LocalAgent.Runtime

/-! ## Texts -/

/-- A string of the language: code points, among them lone surrogates. -/
abbrev McpText := List ℕ

def isSurrogate (c : ℕ) : Bool := decide (55296 ≤ c) && decide (c ≤ 57343)

/-- `str.encode("utf-8")` succeeds. -/
def encodable (text : McpText) : Bool := text.all fun c => !isSurrogate c

/-- The code points of a literal of the source. -/
def asciiText (s : String) : McpText := s.toList.map Char.toNat

def decimalText (n : ℕ) : McpText :=
  if n = 0 then [48] else (Nat.digits 10 n).reverse.map (48 + ·)

/-- One code point inside a JSON string, non-ASCII kept. -/
def escapePoint (c : ℕ) : McpText :=
  if c = 34 then [92, 34]
  else if c = 92 then [92, 92]
  else if c = 10 then [92, 110]
  else if c = 13 then [92, 114]
  else if c = 9 then [92, 116]
  else if c = 8 then [92, 98]
  else if c = 12 then [92, 102]
  else if c < 32 then
    [92, 117, 48, 48, 48 + c / 16, if c % 16 < 10 then 48 + c % 16 else 87 + c % 16]
  else [c]

def quoteText (text : McpText) : McpText := 34 :: text.flatMap escapePoint ++ [34]

/-- A float as `json.dumps` writes it: digits, a sign, a point, an exponent, or a name. -/
structure FloatText where
  text : McpText
  text_ascii : ∀ c ∈ text, 33 ≤ c ∧ c < 127

/-- The most digits that the text of an integer may have. -/
def maxStrDigits : ℕ := 4300

/-- The number is not too long for a text. -/
def hasText (n : ℤ) : Bool := decide (n.natAbs < 10 ^ maxStrDigits)

/-- `int.__repr__`, which raises for a number that is too long. -/
def integerText (n : ℤ) : Option McpText :=
  if hasText n then
    some (if n < 0 then 45 :: decimalText n.natAbs else decimalText n.natAbs)
  else none

inductive ArgumentValue where
  | text (value : McpText)
  | integer (value : ℤ)
  | float (value : FloatText)

def ArgumentValue.dumps : ArgumentValue → Option McpText
  | text value => some (quoteText value)
  | integer value => integerText value
  | float value => some value.text

/-- The members of an object between its braces. -/
def dumpMembers : List (McpText × ArgumentValue) → Option McpText
  | [] => some []
  | (key, value) :: rest => do
    let head ← value.dumps
    let tail ← dumpMembers rest
    pure (quoteText key ++ 58 :: head ++ (if rest.isEmpty then [] else 44 :: tail))

/-! ## Requests -/

/-- What a request asks: `tools/call` with a name and arguments, or one page of `tools/list`. -/
inductive McpRequest where
  | callTool (name : McpText) (arguments : List (McpText × ArgumentValue))
  | listTools (cursor : Option McpText)

def McpRequest.isCall : McpRequest → Bool
  | .callTool _ _ => true
  | .listTools _ => false

/-- A message the client writes. -/
inductive McpMessage where
  | request (id : ℕ) (request : McpRequest)
  | cancelled (requestId : ℕ)

/-- The part of a message before its id, and its method with the opening of its parameters. -/
def requestHead (id : ℕ) (method : String) : McpText :=
  asciiText "\x7b\"jsonrpc\":\"2.0\",\"id\":" ++ decimalText id ++ asciiText ",\"method\":\"" ++
    asciiText method ++ asciiText "\",\"params\":\x7b"

/-- `json.dumps(message, ensure_ascii=False, separators=(",", ":"))`. -/
def McpMessage.dumps : McpMessage → Option McpText
  | request id (.callTool name arguments) => do
    let members ← dumpMembers arguments
    pure (requestHead id "tools/call" ++ asciiText "\"name\":" ++ quoteText name ++
      asciiText ",\"arguments\":\x7b" ++ members ++ asciiText "\x7d\x7d\x7d")
  | request id (.listTools none) =>
    some (requestHead id "tools/list" ++ asciiText "\x7d\x7d")
  | request id (.listTools (some cursor)) =>
    some (requestHead id "tools/list" ++ asciiText "\"cursor\":" ++ quoteText cursor ++
      asciiText "\x7d\x7d")
  | cancelled requestId =>
    some (asciiText "\x7b\"jsonrpc\":\"2.0\",\"method\":\"notifications/cancelled\"," ++
      asciiText "\"params\":\x7b\"requestId\":" ++ decimalText requestId ++
      asciiText "\x7d\x7d")

/-- The classes of `McpBoundaryError` that a session raises. -/
inductive McpErrorClass where
  | transportClosed | transportTimeout | protocol
  deriving DecidableEq

structure McpError where
  errorClass : McpErrorClass
  detail : String
  deriving DecidableEq

def closedError (detail : String) : McpError := ⟨.transportClosed, detail⟩

def protocolError (detail : String) : McpError := ⟨.protocol, detail⟩

/-- How a request ends: with the validated result of an answer, with a boundary error, with its
task's cancellation, or with an exception that is none of these. -/
inductive McpOutcome where
  | answered (message result : Json)
  | failed (error : McpError)
  | cancelled
  | untyped (exception : String)

/-- Where the task of a request is: in `drain` of its own message, in `wait_for`, in `drain` of the
notification after its cancellation, or at its end. -/
inductive McpPhase where
  | draining | waiting | notifying
  | ended (outcome : McpOutcome)

inductive McpFuture where
  | unresolved | cancelled
  | result (message : Json)
  | exception (error : McpError)

def McpFuture.done : McpFuture → Bool
  | unresolved => false
  | _ => true

structure McpTask where
  isCall : Bool
  phase : McpPhase

/-! ## The client -/

/-- A session after `initialize`; the requests and futures are under their ids. -/
structure McpClient where
  nextId : ℕ
  pending : List ℕ
  futures : Dict ℕ McpFuture
  tasks : Dict ℕ McpTask
  refused : List McpError
  broken : Option McpError
  closed : Bool

/-- What the pipe does with a write: takes it at once, makes the writer wait, or fails. -/
inductive McpWrite where
  | taken | waits | fails
  deriving DecidableEq

inductive SendResult where
  | sent | waits
  | raised (error : McpError)
  | untyped (exception : String)

/-- The key of `_pending` that an answer's id finds: booleans are integers. -/
def answerKey (message : Json) : Option ℤ := (message.getField "id").asInt

/-- `_validate_response`, of a message that is an object; `true` is equal to `1`. -/
def validateResponse (message : Json) (requestId : ℕ) : Except McpError Json :=
  match message with
  | .obj fields =>
    if (message.getField "jsonrpc").same (.str "2.0") = false then
      .error (protocolError "jsonrpc_version_invalid")
    else if answerKey message ≠ some (requestId : ℤ) then
      .error (protocolError "response_id_mismatch")
    else if (fields.lookup "error").isSome = true then .error (protocolError "error_response")
    else match message.getField "result" with
      | .obj result => .ok (.obj result)
      | _ => .error (protocolError "result_not_object")
  | _ => .error (protocolError "response_not_object")

namespace McpClient

variable (s : McpClient)

/-- One future resolved with an exception, unless it is done. -/
def failFuture (error : McpError) (futures : Dict ℕ McpFuture) (id : ℕ) : Dict ℕ McpFuture :=
  match futures.get? id with
  | some .unresolved => futures.set id (.exception error)
  | _ => futures

def failPending (error : McpError) : McpClient :=
  { s with
    futures := s.pending.reverse.foldl (failFuture error) s.futures
    pending := [] }

/-- `_break`. -/
def breakWith (error : McpError) : McpClient :=
  match s.broken with
  | some _ => s
  | none => failPending { s with broken := some error } error

/-- `_send` up to the end of its `drain`, or to where the drain waits. -/
def send (message : McpMessage) (write : McpWrite) : McpClient × SendResult :=
  if s.broken.isSome ∨ s.closed then (s, .raised (closedError "connection_not_open"))
  else match message.dumps with
    | none => (s, .untyped "ValueError")
    | some data =>
      if encodable data = false then (s, .untyped "UnicodeEncodeError")
      else if 10 ∈ data then (s, .raised (protocolError "embedded_newline"))
      else match write with
        | .taken => (s, .sent)
        | .waits => (s, .waits)
        | .fails =>
          let error := closedError "stdin_write_failed"
          (s.breakWith error, .raised error)

def setPhase (id : ℕ) (isCall : Bool) (phase : McpPhase) : McpClient :=
  { s with tasks := s.tasks.set id ⟨isCall, phase⟩ }

/-- `call_tool`'s and `_request`'s checks before they register. -/
def refusal (request : McpRequest) : Option McpError :=
  match request with
  | .callTool name _ =>
    if s.broken.isSome then some (closedError "connection_broken")
    else if s.closed then some (closedError "client_closed")
    else if name = [] then some (protocolError "remote_name_invalid") else none
  | .listTools _ => if s.broken.isSome then some (closedError "connection_broken") else none

/-- `_register_pending` under the next id. -/
def register : McpClient :=
  { s with
    nextId := s.nextId + 1
    pending := s.pending ++ [s.nextId + 1]
    futures := s.futures.set (s.nextId + 1) .unresolved }

/-- Where a request is after its `_send`. -/
def phaseAfter : SendResult → McpPhase
  | .sent => .waiting
  | .waits => .draining
  | .raised error => .ended (.failed error)
  | .untyped exception => .ended (.untyped exception)

def start (request : McpRequest) (write : McpWrite) : McpClient :=
  match s.refusal request with
  | some error => { s with refused := s.refused ++ [error] }
  | none =>
    let id := s.nextId + 1
    let outcome := s.register.send (.request id request) write
    outcome.1.setPhase id request.isCall (phaseAfter outcome.2)

/-- The end of `drain` in a request or in a notification. -/
def drained (id : ℕ) (task : McpTask) (fails : Bool) : Option McpClient :=
  let error := closedError "stdin_write_failed"
  let s' := if fails then s.breakWith error else s
  match task.phase with
  | .draining =>
    some (s'.setPhase id task.isCall (if fails then .ended (.failed error) else .waiting))
  | .notifying => some (s'.setPhase id task.isCall (.ended .cancelled))
  | _ => none

/-- `wait_for` returns or raises what the future holds. -/
def resume (id : ℕ) (task : McpTask) : Option McpClient :=
  match task.phase, s.futures.get? id with
  | .waiting, some (.result message) =>
    some (s.setPhase id task.isCall (.ended (match validateResponse message id with
      | .ok result => .answered message result
      | .error error => .failed error)))
  | .waiting, some (.exception error) =>
    some (s.setPhase id task.isCall (.ended (.failed error)))
  | _, _ => none

/-- The future is cancelled, unless it is done. -/
def cancelFuture (id : ℕ) : McpClient :=
  { s with
    futures := (match s.futures.get? id with
      | some .unresolved => s.futures.set id .cancelled
      | _ => s.futures) }

/-- `self._pending.pop(request_id, None)`. -/
def popPending (id : ℕ) : McpClient := { s with pending := s.pending.erase id }

/-- `wait_for` runs out of time. -/
def timeOut (id : ℕ) (task : McpTask) : Option McpClient :=
  match task.phase with
  | .waiting =>
    let error : McpError := ⟨.transportTimeout, "request_timeout"⟩
    some ((((s.cancelFuture id).popPending id).breakWith error).setPhase id task.isCall
      (.ended (.failed error)))
  | _ => none

/-- Where a request is after the send of its notification. -/
def phaseNotified : SendResult → McpPhase
  | .waits => .notifying
  | .untyped exception => .ended (.untyped exception)
  | _ => .ended .cancelled

/-- `_send_cancelled_notification`, which swallows what it raises. -/
def notifyCancelled (id : ℕ) (task : McpTask) (write : McpWrite) : McpClient :=
  if task.isCall then
    let outcome := s.send (.cancelled id) write
    outcome.1.setPhase id task.isCall (phaseNotified outcome.2)
  else s.setPhase id task.isCall (.ended .cancelled)

/-- The task is cancelled at an await. -/
def cancelTask (id : ℕ) (task : McpTask) (write : McpWrite) : Option McpClient :=
  match task.phase with
  | .draining => some ((s.popPending id).notifyCancelled id task write)
  | .waiting => some (((s.cancelFuture id).popPending id).notifyCancelled id task write)
  | .notifying => some (s.setPhase id task.isCall (.ended .cancelled))
  | .ended _ => none

/-- What the reader makes of a line: `none` when the text is no JSON. -/
def handleLine (line : Option Json) : McpClient :=
  if s.broken.isSome then s
  else match line with
    | none => s.breakWith (protocolError "malformed_json_line")
    | some (.obj fields) =>
      if (fields.lookup "method").isSome then s
      else match answerKey (.obj fields) with
        | some (.ofNat id) =>
          if id ∈ s.pending then
            match s.futures.get? id with
            | some .unresolved =>
              { s.popPending id with futures := s.futures.set id (.result (.obj fields)) }
            | _ => s.popPending id
          else s
        | _ => s
    | some _ => s.breakWith (protocolError "message_not_object")

inductive McpAction where
  /-- A task calls `call_tool`, or `list_tools` for a page. -/
  | start (request : McpRequest) (write : McpWrite)
  | drained (id : ℕ) (fails : Bool)
  | resume (id : ℕ)
  | timeOut (id : ℕ)
  | cancelTask (id : ℕ) (write : McpWrite)
  | line (line : Option Json)
  /-- The reader finds the end of stdout, or cannot read it. -/
  | stdoutClosed
  | stdoutFailed
  /-- The reader is cancelled by `close`. -/
  | readerStopped
  | processExited
  /-- A background answer to a server's request fails to be written. -/
  | respondFailed
  | close

def step (s : McpClient) : McpAction → Option McpClient
  | .start request write => some (s.start request write)
  | .drained id fails => (s.tasks.get? id).bind fun task => s.drained id task fails
  | .resume id => (s.tasks.get? id).bind fun task => s.resume id task
  | .timeOut id => (s.tasks.get? id).bind fun task => s.timeOut id task
  | .cancelTask id write => (s.tasks.get? id).bind fun task => s.cancelTask id task write
  | .line line => some (s.handleLine line)
  | .stdoutClosed =>
    let error := closedError "stdout_closed"
    some ((if s.closed then s else s.breakWith error).failPending error)
  | .stdoutFailed =>
    some ((s.breakWith (closedError "stdout_read_failed")).failPending
      (closedError "stdout_closed"))
  | .readerStopped => if s.closed then some (s.failPending (closedError "stdout_closed")) else none
  | .processExited =>
    some (if s.closed = false ∧ s.broken = none then s.breakWith (closedError "process_exited")
      else s)
  | .respondFailed =>
    some (if s.closed = false ∧ s.broken = none then
        s.breakWith (closedError "stdin_write_failed")
      else s)
  | .close =>
    some (if s.closed then s
      else failPending { s with closed := true } (closedError "client_closed"))

/-- A session right after its handshake, whose request had the id 1. -/
def initialized : McpClient where
  nextId := 1
  pending := []
  futures := .empty
  tasks := .empty
  refused := []
  broken := none
  closed := false

end McpClient

end LocalAgent.Runtime
