import LocalAgent.Lib.Dict
import LocalAgent.Lib.Trace

/-!
# LocalAgent.Runtime.McpLifecycle — `mcp/lifecycle.py`, who owns the clients of the servers

`McpIntegrationComponent`: its start, the sessions it publishes, the loss of a session, the
reconnect loops, the cleanup of broken clients and its close.  What runs between two awaits is one
step; a client is what the component sees of it, its process included.

* `isCompatible`: what a candidate must share with the frozen discovery.
* `McpIntegration.publishSession`, `onClientBroken`, `scheduleReconnect`: the synchronous parts.
* `McpIntegration.step`: what start, a loop, a cleanup, a close or a client does next.
-/

namespace LocalAgent.Runtime

/-! ## Discoveries -/

/-- A tool of a discovery; the digest is `none` where the schema cannot be encoded. -/
structure DiscoveredTool where
  remoteName : String
  schemaDigest : Option String
  deriving DecidableEq

/-- The result of a discovery that succeeded. -/
structure ServerDiscovery where
  serverId : String
  serverInfoName : String
  tools : List DiscoveredTool
  deriving DecidableEq

/-- The digests of the frozen tools, one after the other; `none` where one of them raises. -/
def schemasAgree (candidate : List DiscoveredTool) : List DiscoveredTool → Option Bool
  | [] => some true
  | tool :: rest => do
    let other ← candidate.find? (·.remoteName = tool.remoteName)
    let expected ← tool.schemaDigest
    let digest ← other.schemaDigest
    if expected ≠ digest then some false else schemasAgree candidate rest

/-- `_is_compatible`; `none` where it raises. -/
def isCompatible (frozen candidate : ServerDiscovery) : Option Bool :=
  if frozen.serverId ≠ candidate.serverId ∨ frozen.serverInfoName ≠ candidate.serverInfoName then
    some false
  else if frozen.tools.any fun tool =>
      !(candidate.tools.any fun other => other.remoteName = tool.remoteName) then some false
  else schemasAgree candidate.tools frozen.tools

/-! ## The component -/

inductive McpSessionLifecycleState where
  | starting | available | degraded | reconnecting | disabled | closed
  deriving DecidableEq

/-- What the component sees of a client that a discovery has handed over. -/
structure OwnedClient where
  discovery : ServerDiscovery
  broken : Bool
  closed : Bool
  exited : Bool
  deriving DecidableEq

structure SessionBinding where
  client : ℕ
  generation : ℕ
  deriving DecidableEq

/-- `start`: at a discovery or at the close of a candidate, with the servers still to come. -/
inductive StartPhase where
  | notStarted
  | discovering (server : String) (rest : List (String × Bool))
  | closingCandidate (server : String) (rest : List (String × Bool))
  | ended
  deriving DecidableEq

inductive ReconnectPhase where
  | created
  | sleeping (attempt : ℕ)
  | discovering (attempt : ℕ)
  | closingIncompatible
  | closingUnhealthy (attempt : ℕ)
  | done
  deriving DecidableEq

structure ReconnectLoop where
  server : String
  oldGeneration : ℕ
  phase : ReconnectPhase
  deriving DecidableEq

/-- `close`: waiting for the cancelled tasks, or closing the clients one after the other. -/
inductive ClosePhase where
  | notClosing
  | gathering
  | reaping (current : Option ℕ) (rest : List ℕ) (allClosed : Bool)
  | ended
  deriving DecidableEq

structure McpIntegration where
  configs : List (String × Bool)
  reconnectMaxAttempts : ℕ
  started : Bool
  closed : Bool
  startPhase : StartPhase
  results : Dict String ServerDiscovery
  frozenResults : Dict String ServerDiscovery
  sessions : Dict String SessionBinding
  states : Dict String McpSessionLifecycleState
  clients : Dict ℕ OwnedClient
  ownedClients : List ℕ
  loops : Dict ℕ ReconnectLoop
  reconnectTasks : Dict String ℕ
  pendingReconnects : Dict String ℕ
  nextTask : ℕ
  cleanups : List ℕ
  closePhase : ClosePhase
  /-- what the finished calls of `close` have returned -/
  returned : List Bool
  /-- the sessions that were published, lost and followed by a loop, in this order -/
  published : List (String × ℕ)
  lost : List (String × ℕ)
  scheduled : List (String × ℕ)

namespace McpIntegration

variable (s : McpIntegration)

/-- A component before its start; the server ids of a configuration are different. -/
def initially (configs : List (String × Bool)) (reconnectMaxAttempts : ℕ) : McpIntegration where
  configs := configs
  reconnectMaxAttempts := reconnectMaxAttempts
  started := false
  closed := false
  startPhase := .notStarted
  results := .empty
  frozenResults := .empty
  sessions := .empty
  states := .empty
  clients := .empty
  ownedClients := []
  loops := .empty
  reconnectTasks := .empty
  pendingReconnects := .empty
  nextTask := 0
  cleanups := []
  closePhase := .notClosing
  returned := []
  published := []
  lost := []
  scheduled := []

def setState (server : String) (state : McpSessionLifecycleState) : McpIntegration :=
  { s with states := s.states.set server state }

def activeLoop (server : String) : Option ℕ :=
  match s.reconnectTasks.get? server with
  | some task =>
    match s.loops.get? task with
    | some loop => if loop.phase = .done then none else some task
    | none => none
  | none => none

/-- `_publish_session` of a candidate that is in the table of clients. -/
def publishSession (server : String) (id : ℕ) (client : OwnedClient) (generation : ℕ) :
    Option McpIntegration :=
  if s.closed ∨ client.closed ∨ client.broken then none
  else some {
    s with
    sessions := s.sessions.set server ⟨id, generation⟩
    states := s.states.set server .available
    published := s.published ++ [(server, generation)] }

def scheduleReconnect (server : String) (oldGeneration : ℕ) : McpIntegration :=
  if s.closed then { s with pendingReconnects := s.pendingReconnects.erase server }
  else match s.activeLoop server with
    | some _ => {
      s with
      pendingReconnects := s.pendingReconnects.set server
        (max oldGeneration ((s.pendingReconnects.get? server).getD 0)) }
    | none => {
      s with
      loops := s.loops.set s.nextTask ⟨server, oldGeneration, .created⟩
      reconnectTasks := s.reconnectTasks.set server s.nextTask
      nextTask := s.nextTask + 1
      scheduled := s.scheduled ++ [(server, oldGeneration)] }

def onClientBroken (server : String) (id : ℕ) : McpIntegration :=
  if s.closed ∨ s.started = false then s
  else match s.sessions.get? server with
    | some binding =>
      if binding.client = id then
        scheduleReconnect {
          s with
          sessions := s.sessions.erase server
          states := s.states.set server .degraded
          cleanups := s.cleanups ++ [id]
          lost := s.lost ++ [(server, binding.generation)] } server binding.generation
      else s
    | none => s

/-- The broken sessions that `start` finds at its end. -/
def reportBroken : List (String × SessionBinding) → McpIntegration → McpIntegration
  | [], s => s
  | (server, binding) :: rest, s =>
    match s.clients.get? binding.client with
    | some client =>
      reportBroken rest (if client.broken then s.onClientBroken server binding.client else s)
    | none => reportBroken rest s

/-- `start` up to its next discovery, or to its end. -/
def startNext (s : McpIntegration) : List (String × Bool) → McpIntegration
  | [] =>
    let s' := {
      s with
      frozenResults := s.results
      started := true
      startPhase := .ended }
    reportBroken s'.sessions.entries s'
  | (server, false) :: rest => startNext (s.setState server .disabled) rest
  | (server, true) :: rest =>
    { s.setState server .starting with startPhase := .discovering server rest }

/-- A client that a discovery hands over. -/
def own (id : ℕ) (client : OwnedClient) : McpIntegration :=
  { s with
    clients := s.clients.set id client
    ownedClients := s.ownedClients ++ [id] }

/-- `client.close` begins, when it has not begun before. -/
def closeClient (id : ℕ) (client : OwnedClient) : McpIntegration :=
  { s with clients := s.clients.set id { client with closed := true } }

/-- What a discovery in `start` gives. -/
def startDiscovered (server : String) (rest : List (String × Bool)) (id : ℕ) :
    Option OwnedClient → McpIntegration
  | none => (s.setState server .degraded).startNext rest
  | some client =>
    let owned := s.own id client
    match owned.publishSession server id client 1 with
    | some s' => startNext { s' with results := s'.results.set server client.discovery } rest
    | none => { owned.closeClient id client with startPhase := .closingCandidate server rest }

def setLoop (task : ℕ) (loop : ReconnectLoop) (phase : ReconnectPhase) : McpIntegration :=
  { s with loops := s.loops.set task { loop with phase := phase } }

/-- The end of a loop, with its `finally` and the done callback that follows it. -/
def endLoop (task : ℕ) (loop : ReconnectLoop) : McpIntegration :=
  let s' := s.setLoop task loop .done
  if s.reconnectTasks.get? loop.server = some task then
    let cleared := {
      s' with
      reconnectTasks := s'.reconnectTasks.erase loop.server
      pendingReconnects := s'.pendingReconnects.erase loop.server }
    match s.pendingReconnects.get? loop.server with
    | some generation => cleared.scheduleReconnect loop.server generation
    | none => cleared
  else s'

def nextAttempt (task : ℕ) (loop : ReconnectLoop) (attempt : ℕ) : McpIntegration :=
  if s.reconnectMaxAttempts < attempt then
    (s.setState loop.server .degraded).endLoop task loop
  else if s.closed then s.endLoop task loop
  else (s.setState loop.server .reconnecting).setLoop task loop (.sleeping attempt)

def loopDiscovered (task : ℕ) (loop : ReconnectLoop) (attempt id : ℕ)
    (frozen : ServerDiscovery) : Option OwnedClient → McpIntegration
  | none => (s.setState loop.server .degraded).nextAttempt task loop (attempt + 1)
  | some client =>
    let owned := s.own id client
    match isCompatible frozen client.discovery with
    | none => (owned.setState loop.server .degraded).endLoop task loop
    | some false => (owned.closeClient id client).setLoop task loop .closingIncompatible
    | some true =>
      let generation := max loop.oldGeneration
        ((s.sessions.get? loop.server).elim 0 (·.generation)) + 1
      match owned.publishSession loop.server id client generation with
      | some s' => s'.endLoop task loop
      | none => (owned.closeClient id client).setLoop task loop (.closingUnhealthy attempt)

/-- `close` goes on to the next client, or returns. -/
def reapNext (s : McpIntegration) (allClosed : Bool) : List ℕ → McpIntegration
  | [] => { s with closePhase := .ended, returned := s.returned ++ [allClosed] }
  | id :: rest =>
    match s.clients.get? id with
    | some client =>
      -- a client whose close has begun before answers `True` at once
      if client.closed then reapNext s allClosed rest
      else { s.closeClient id client with closePhase := .reaping (some id) rest allClosed }
    | none => reapNext s allClosed rest

inductive Action where
  /-- The one call of `start`. -/
  | start
  /-- The discovery of `start` ends with a new client, or with none; so does the one of a loop. -/
  | startDiscovered (id : ℕ) (client : Option OwnedClient)
  | startClosed
  | startFails
  | loopBegins (task : ℕ)
  | slept (task : ℕ)
  | loopDiscovered (task id : ℕ) (client : Option OwnedClient)
  | loopClosed (task : ℕ)
  | loopRaises (task : ℕ)
  | loopCancelled (task : ℕ)
  | cleanupBegins (id : ℕ)
  | cleanupEnds (id : ℕ)
  | clientBreaks (id : ℕ)
  | clientExits (id : ℕ)
  | close
  /-- The cancelled tasks have ended; the clients, a set, are closed in some order. -/
  | gathered (order : List ℕ)
  | reaped (exited : Bool)
  | closeCancelled

/-- What a running loop does. -/
def withLoop (task : ℕ) (f : ReconnectLoop → Option McpIntegration) : Option McpIntegration :=
  (s.loops.get? task).bind fun loop => if loop.phase = .done then none else f loop

/-- The client that a discovery gives is new, and sound when it is handed over. -/
def fresh (id : ℕ) (client : Option OwnedClient) (server : String) : Bool :=
  (s.clients.get? id).isNone &&
    client.all fun c => c.discovery.serverId = server ∧ c.closed = false ∧ c.broken = false

def step (s : McpIntegration) : Action → Option McpIntegration
  | .start =>
    if s.startPhase = .notStarted ∧ s.closed = false then some (s.startNext s.configs) else none
  | .startDiscovered id client =>
    match s.startPhase with
    | .discovering server rest =>
      if s.fresh id client server then some (s.startDiscovered server rest id client) else none
    | _ => none
  | .startClosed =>
    match s.startPhase with
    | .closingCandidate server rest => some ((s.setState server .degraded).startNext rest)
    | _ => none
  | .startFails =>
    match s.startPhase with
    | .discovering _ _ | .closingCandidate _ _ => some { s with startPhase := .ended }
    | _ => none
  | .loopBegins task => s.withLoop task fun loop =>
    match loop.phase, s.frozenResults.get? loop.server with
    | .created, some _ => some (s.nextAttempt task loop 1)
    | .created, none => some (s.setLoop task loop .done)
    | _, _ => none
  | .slept task => s.withLoop task fun loop =>
    match loop.phase with
    | .sleeping attempt =>
      some (if s.closed then s.endLoop task loop else s.setLoop task loop (.discovering attempt))
    | _ => none
  | .loopDiscovered task id client => s.withLoop task fun loop =>
    match loop.phase, s.frozenResults.get? loop.server with
    | .discovering attempt, some frozen =>
      if s.fresh id client loop.server then
        some (s.loopDiscovered task loop attempt id frozen client)
      else none
    | _, _ => none
  | .loopClosed task => s.withLoop task fun loop =>
    match loop.phase with
    | .closingIncompatible => some ((s.setState loop.server .degraded).endLoop task loop)
    | .closingUnhealthy attempt =>
      some ((s.setState loop.server .degraded).nextAttempt task loop (attempt + 1))
    | _ => none
  | .loopRaises task => s.withLoop task fun loop =>
    some ((s.setState loop.server .degraded).endLoop task loop)
  | .loopCancelled task => s.withLoop task fun loop =>
    if s.closed then some (s.endLoop task loop) else none
  | .cleanupBegins id =>
    if id ∈ s.cleanups then
      (s.clients.get? id).bind fun client => some (s.closeClient id client)
    else none
  | .cleanupEnds id =>
    if id ∈ s.cleanups then some { s with cleanups := s.cleanups.filter (· ≠ id) } else none
  | .clientBreaks id => (s.clients.get? id).bind fun client =>
    if client.broken then none
    else
      let s' := { s with clients := s.clients.set id { client with broken := true } }
      some (if client.closed then s' else s'.onClientBroken client.discovery.serverId id)
  | .clientExits id => (s.clients.get? id).bind fun client =>
    some { s with clients := s.clients.set id { client with exited := true } }
  | .close =>
    some (if s.closed then { s with returned := s.returned ++ [true] }
      else { s with closed := true, closePhase := .gathering })
  | .gathered order =>
    if s.closePhase = .gathering ∧ s.cleanups = [] ∧
        (s.loops.values.all fun loop => loop.phase = .done) = true ∧
        order.isPerm s.ownedClients = true then
      some (reapNext {
        s with
        reconnectTasks := .empty
        pendingReconnects := .empty
        sessions := .empty
        states := s.states.mapWithKey fun _ _ => .closed } true order)
    else none
  | .reaped exited =>
    match s.closePhase with
    | .reaping (some id) rest allClosed =>
      (s.clients.get? id).bind fun client =>
        if exited = true ∧ client.exited = false then none
        else some (reapNext s (allClosed && exited) rest)
    | _ => none
  | .closeCancelled =>
    match s.closePhase with
    | .gathering | .reaping _ _ _ => some { s with closePhase := .ended }
    | _ => none

def acquireSession (server : String) : Option SessionBinding :=
  (s.sessions.get? server).bind fun binding =>
    (s.clients.get? binding.client).bind fun client =>
      if s.states.get? server = some .available ∧ client.closed = false ∧ client.broken = false
      then some binding else none

end McpIntegration

end LocalAgent.Runtime
