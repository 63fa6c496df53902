import LlmPort.Backend.NodeControl.Dao

/-!
# The node-control service

The command half of `services/nodes/service.py`: issuing, the two dispatch listings, the reaper,
the three frame recorders and their side effects on the runtime a command names. The clock and the
identifiers a call draws are arguments; a call that raises leaves the transaction rolled back.
-/

namespace LlmPort.Backend.NodeControl

/-- The service's own settings. -/
structure NodeControlService where
  defaultCommandTimeoutSec : Int
  /-- A gateway database is configured. -/
  gatewaySync : Bool
  deriving DecidableEq

/-- `a or b` on texts -/
def orText (a : Option String) (b : String) : String :=
  match a with
  | some text => if text = "" then b else text
  | none => b

/-- The arguments of `issue_command`. -/
structure CommandRequest where
  nodeId : Uuid
  commandType : NodeCommandType
  payload : CommandPayload
  issuedBy : Option Uuid
  correlationId : Option String
  timeoutSec : Option Int
  idempotencyKey : Option String
  deriving DecidableEq

/-- What a call draws: the instant, the primary key of a new row and the text of a fresh key. -/
structure Draw where
  now : Time
  id : Uuid
  freshKey : Uuid
  deriving DecidableEq

inductive ServiceError where
  | valueError (message : String)
  | databaseError
  deriving DecidableEq

namespace NodeControlService

variable (svc : NodeControlService)

/-- `timeout_sec or self._default_command_timeout_sec` -/
def timeoutOrDefault (timeoutSec : Option Int) : Int :=
  match timeoutSec with
  | some t => if t = 0 then svc.defaultCommandTimeoutSec else t
  | none => svc.defaultCommandTimeoutSec

/-- The key under which a terminal command makes room for a new one. -/
def retiredKey (key : String) (id : Uuid) : String := s!"{key}::retired::{uuidStr id}"

/-- The row `issue_command` inserts. -/
def queuedCommand (draw : Draw) (req : CommandRequest) (key : String) : InfraNodeCommand where
  id := draw.id
  nodeId := req.nodeId
  commandType := req.commandType
  status := .queued
  correlationId := req.correlationId
  idempotencyKey := key
  payloadJson := req.payload
  resultJson := none
  timeoutSec := some (svc.timeoutOrDefault req.timeoutSec)
  issuedBy := req.issuedBy
  issuedAt := draw.now
  dispatchedAt := none
  ackedAt := none
  startedAt := none
  completedAt := none
  errorCode := none
  errorMessage := none

/-- `idempotency_key or str(uuid.uuid4())` -/
def requestKey (draw : Draw) (req : CommandRequest) : String :=
  orText req.idempotencyKey (uuidStr draw.freshKey)

def issueCommand (draw : Draw) (req : CommandRequest) (s : Store) :
    Except ServiceError (Store × InfraNodeCommand) :=
  let key := requestKey draw req
  let create (s : Store) := match s.createCommand (svc.queuedCommand draw req key) with
    | some created => .ok created
    | none => .error .databaseError
  match s.getNodeById req.nodeId with
  | none => .error (.valueError "Node not found.")
  | some _ =>
    match s.getCommandByIdempotencyKey req.nodeId key with
    | none => create s
    | some existing =>
      if existing.status.isTerminal then
        -- the flush sends the retired key's update before the new row's insert
        match s.flushCommand { existing with idempotencyKey := retiredKey key existing.id } with
        | none => .error .databaseError
        | some s => create s
      else .ok (s, existing)

/-- A serialized command as a dispatch frame carries it. -/
structure DispatchItem where
  command : InfraNodeCommand
  /-- `item["redispatch"] = True` -/
  redispatch : Bool
  deriving DecidableEq

/-- `for command in commands:` over rows the session keeps live: an iteration sees the row as the
iterations before it left it. -/
def forEachCommand {α : Type} (commands : List InfraNodeCommand) (init : α) (store : α → Store)
    (body : α → InfraNodeCommand → α) : α :=
  commands.foldl (fun a c => match (store a).getCommand c.id with
    | some command => body a command
    | none => a) init

/-- One iteration of `list_commands_for_dispatch`. -/
def dispatchOne (now : Time) (acc : Store × List DispatchItem) (command : InfraNodeCommand) :
    Store × List DispatchItem :=
  if command.status = .queued then
    let command := setCommandStatus now command .dispatched none none none
    let s := (acc.1.updateCommand command).appendCommandEvent command.id "dispatched"
      "Command dispatched to stream session." none
    (s, acc.2 ++ [⟨command, false⟩])
  else (acc.1, acc.2 ++ [⟨command, false⟩])

def listCommandsForDispatch (now : Time) (nodeId : Uuid) (limit : Nat) (s : Store) :
    Store × List DispatchItem :=
  forEachCommand (s.listPendingCommands nodeId limit) (s, []) (·.1) (dispatchOne now)

def commandIsOverdue (now : Time) (command : InfraNodeCommand) : Bool :=
  if command.status.isInflight then
    let timeout := match command.timeoutSec with
      | some t => if t ≤ 0 then svc.defaultCommandTimeoutSec else t
      | none => svc.defaultCommandTimeoutSec
    if command.status = .running then
      match command.startedAt <|> command.ackedAt with
      | some anchor => now - anchor > seconds (timeout * 2)
      | none => false
    else
      let anchor := (command.ackedAt <|> command.dispatchedAt).getD command.issuedAt
      now - anchor > seconds timeout
  else false

/-- One iteration of the second loop of `list_dispatchable_commands`. -/
def redispatchOne (now : Time) (acc : Store × List DispatchItem) (command : InfraNodeCommand) :
    Store × List DispatchItem :=
  if svc.commandIsOverdue now command then
    (acc.1.appendCommandEvent command.id "re-dispatched"
      "Command re-dispatched (still in flight past timeout)." none, acc.2 ++ [⟨command, true⟩])
  else acc

def listDispatchableCommands (now : Time) (nodeId : Uuid) (limit : Nat) (s : Store) :
    Store × List DispatchItem :=
  let (s, items) := listCommandsForDispatch now nodeId limit s
  forEachCommand (s.listInflightCommands nodeId limit) (s, items) (·.1) (svc.redispatchOne now)

/-- Replace the hostname of an agent-reported endpoint by the node's known host. -/
def rewriteEndpointHost (s : Store) (endpointUrl : EndpointUrl) (nodeId : Uuid) : EndpointUrl :=
  if endpointUrl.hostname = "" then endpointUrl
  else match s.getNodeById nodeId with
    | none => endpointUrl
    | some node =>
      if node.host = "" then endpointUrl
      else
        -- `if parsed.port:` also drops port 0
        { endpointUrl with hostname := node.host, port := endpointUrl.port.filter (· ≠ 0) }

def promoteModelStatus (runtime : LLMRuntime) (s : Store) : Store :=
  match s.getModel runtime.modelId with
  | none => s
  | some model =>
    if model.status = .downloading ∨ model.status = .failed then
      { s with models := s.models.map fun m =>
          if m.id = model.id then { model with status := .available } else m }
    else s

def publishRuntimeToGateway (runtime : LLMRuntime) (s : Store) : Store :=
  if svc.gatewaySync then
    match runtime.endpointUrl, s.getProvider runtime.providerId with
    | some baseUrl, some provider =>
      let litellmModel := (s.getModel runtime.modelId).bind fun model =>
        model.hfRepoId.filter (· ≠ "")
      s.call (.publishRuntime runtime.id runtime.name baseUrl provider.type .healthy litellmModel
        runtime.assignedNodeId runtime.executionTarget runtime.desiredState)
    | _, _ => s
  else s

/-- `if self._gateway_sync is not None:` before an outgoing call -/
def syncCall (c : SyncCall) (s : Store) : Store := if svc.gatewaySync then s.call c else s

/-- The command types whose failure marks the gateway instance unhealthy. -/
def isProvisioning : NodeCommandType → Bool
  | .deployWorkload | .startWorkload | .restartWorkload | .updateWorkload => true
  | _ => false

/-- The success branch of `_apply_runtime_side_effect`. -/
def applySuccess (command : InfraNodeCommand) (payload : CommandResult) (runtime : LLMRuntime)
    (s : Store) : Store × LLMRuntime :=
  let runtime := { runtime with statusMessage := none }
  match command.commandType with
  | .deployWorkload | .startWorkload | .restartWorkload =>
    let runtime := { runtime with status := .running }
    let (s, runtime) := match (payload.result.getD .empty).endpointUrl with
      | some url =>
        let runtime := { runtime with
          endpointUrl := some (rewriteEndpointHost s url command.nodeId)
          containerRef := some s!"node:{uuidStr command.nodeId}:{uuidStr runtime.id}" }
        (svc.publishRuntimeToGateway runtime s, runtime)
      | none => (s, runtime)
    let s := promoteModelStatus runtime s
    (s.call (.provisionForRuntime runtime.id), runtime)
  | .stopWorkload =>
    (svc.syncCall (.setInstanceHealth runtime.id .unhealthy) s, { runtime with status := .stopped })
  | .removeWorkload =>
    let s := svc.syncCall (.unpublishRuntime runtime.id runtime.name) s
    (s.call (.deprovisionForRuntime runtime.id), { runtime with status := .stopped })
  | _ => (s, runtime)

/-- `str(text)[:2000]` -/
def clip (text : String) : String := String.ofList (text.toList.take 2000)

/-- The failure branch of `_apply_runtime_side_effect`. -/
def applyFailure (command : InfraNodeCommand) (payload : CommandResult) (runtime : LLMRuntime)
    (s : Store) : Store × LLMRuntime :=
  let errorMessage := orText payload.errorMessage (orText payload.errorCode "Command failed")
  let runtime := { runtime with status := .error, statusMessage := some (clip errorMessage) }
  if isProvisioning command.commandType then
    (svc.syncCall (.setInstanceHealth runtime.id .unhealthy) s, runtime)
  else (s, runtime)

/-- The branch of `_apply_runtime_side_effect` for an outcome. -/
def applyOutcome (command : InfraNodeCommand) (success : Bool) (payload : CommandResult)
    (runtime : LLMRuntime) (s : Store) : Store × LLMRuntime :=
  if success then svc.applySuccess command payload runtime s
  else svc.applyFailure command payload runtime s

/-- The columns every outcome writes. -/
def drivenBy (command : InfraNodeCommand) (runtime : LLMRuntime) : LLMRuntime :=
  { runtime with
    lastCommandId := some command.id
    executionTarget := .node
    assignedNodeId := some command.nodeId }

def applyRuntimeSideEffect (command : InfraNodeCommand) (success : Bool) (payload : CommandResult)
    (s : Store) : Store :=
  match command.payloadJson.runtimeId with
  | .missing | .falsy | .malformed => s
  | .uuid runtimeId _ =>
    match s.getRuntime runtimeId with
    | none => s
    | some runtime =>
      let (s, runtime) := svc.applyOutcome command success payload (drivenBy command runtime) s
      (s.updateRuntime runtime).upsertWorkloadAssignment
        ⟨runtime.id, command.nodeId, runtime.desiredState, some runtime.status⟩

/-- `_REAPER_OFFLINE_GRACE_SEC` -/
def reaperOfflineGraceSec : Int := 600

/-- The conditions under which the reaper's loop does not `continue`. -/
def isStale (now : Time) (s : Store) (command : InfraNodeCommand) : Bool :=
  match s.getNodeById command.nodeId with
  | none => false
  | some node =>
    let anchor := (command.startedAt <|> command.ackedAt <|> command.dispatchedAt).getD
      command.issuedAt
    node.status = .offline ∧ svc.commandIsOverdue now command ∧
      ¬ now - anchor < seconds reaperOfflineGraceSec

/-- The payload the reaper hands to the side effect. -/
def timedOutPayload : CommandResult where
  success := false
  result := none
  errorCode := some "command_timed_out"
  errorMessage := some "Command timed out with no node connection (node offline)."

/-- The row of a reaped command. -/
def timedOutRow (now : Time) (command : InfraNodeCommand) : InfraNodeCommand :=
  let timeout := svc.timeoutOrDefault command.timeoutSec
  setCommandStatus now command .timedOut none (some "command_timed_out")
    (some (s!"Command timed out with no node connection (node offline, " ++
      s!"in flight {timeout}s + grace past its limit)."))

/-- One iteration of `reap_stale_commands`. -/
def reapOne (now : Time) (acc : Store × Nat) (command : InfraNodeCommand) : Store × Nat :=
  if svc.isStale now acc.1 command then
    let command := svc.timedOutRow now command
    let s := (acc.1.updateCommand command).appendCommandEvent command.id "timed_out"
      "Command reaped: node offline with no result in flight." none
    (svc.applyRuntimeSideEffect command false timedOutPayload s, acc.2 + 1)
  else acc

def reapStaleCommands (now : Time) (s : Store) : Store × Nat :=
  forEachCommand (s.listInflightCommandsAllNodes 200) (s, 0) (·.1) (svc.reapOne now)

/-- The row a frame of `nodeId` addresses: it must exist and belong to that node. -/
def ownCommand (s : Store) (nodeId commandId : Uuid) : Option InfraNodeCommand :=
  (s.getCommand commandId).filter (·.nodeId = nodeId)

def recordCommandAck (now : Time) (nodeId commandId : Uuid) (message : Option String) (s : Store) :
    Store :=
  match ownCommand s nodeId commandId with
  | none => s
  | some command =>
    let command := setCommandStatus now command .acked none none none
    (s.updateCommand command).appendCommandEvent command.id "acked"
      (orText message "Command acknowledged by agent.") (some (.message message))

def recordCommandProgress (now : Time) (nodeId commandId : Uuid) (message : Option String)
    (s : Store) : Store :=
  match ownCommand s nodeId commandId with
  | none => s
  | some command =>
    let command := setCommandStatus now command .running none none none
    (s.updateCommand command).appendCommandEvent command.id "progress"
      (orText message "Progress event received.") (some (.message message))

/-- The row after a result frame. -/
def resultRow (now : Time) (payload : CommandResult) (command : InfraNodeCommand) :
    InfraNodeCommand :=
  setCommandStatus now command (if payload.success then .succeeded else .failed)
    (some (payload.result.getD .empty)) payload.errorCode payload.errorMessage

/-- A result whose error code does not fit the column makes the flush raise. -/
def recordCommandResult (now : Time) (nodeId commandId : Uuid) (payload : CommandResult)
    (s : Store) : Except ServiceError Store :=
  match ownCommand s nodeId commandId with
  | none => .ok s
  | some command =>
    if Store.fits 128 payload.errorCode then
      let command := resultRow now payload command
      let s := (s.updateCommand command).appendCommandEvent command.id "result"
        (if payload.success then "Command succeeded." else "Command failed.")
        (some (.result payload))
      .ok (svc.applyRuntimeSideEffect command payload.success payload s)
    else .error .databaseError

/-- One iteration of `_demote_node_runtimes`, on the live row. -/
def demoteOne (nodeId : Uuid) (s : Store) (row : LLMRuntime) : Store :=
  match s.getRuntime row.id with
  | none => s
  | some runtime =>
    let runtime := { runtime with status := .error, statusMessage := some "Node offline" }
    let s := svc.syncCall (.setInstanceHealth runtime.id .unhealthy) (s.updateRuntime runtime)
    s.upsertWorkloadAssignment ⟨runtime.id, nodeId, runtime.desiredState, some .error⟩

/-- Mark the active runtimes of a node that went offline as failed. -/
def demoteNodeRuntimes (nodeId : Uuid) (s : Store) : Store :=
  let active := s.runtimes.filter fun r => r.assignedNodeId = some nodeId ∧
    (r.status = .running ∨ r.status = .starting ∨ r.status = .creating)
  active.foldl (svc.demoteOne nodeId) s

def createStreamSession (id nodeId : Uuid) (s : Store) : Store :=
  { s with sessions := s.sessions ++ [⟨id, nodeId, true, 0⟩] }

def countActiveSessions (s : Store) (nodeId : Uuid) : Nat :=
  s.sessions.countP fun x => x.nodeId = nodeId ∧ x.connected

/-- Close a session; the node whose only session it was goes offline. -/
def closeStreamSession (sessionId : Uuid) (s : Store) : Store :=
  match s.sessions.find? (·.id = sessionId) with
  | none => s
  | some session =>
    let s := s.updateSession { session with connected := false }
    match s.getNodeById session.nodeId with
    | none => s
    | some node =>
      if countActiveSessions s node.id = 0 then
        svc.demoteNodeRuntimes node.id (s.updateNode { node with status := .offline })
      else s

/-- Accept a frame's sequence number: only an offset above the session's last one. -/
def updateStreamOffset (sessionId : Uuid) (offset : Int) (s : Store) : Store × Bool :=
  match s.sessions.find? (·.id = sessionId) with
  | none => (s, false)
  | some session =>
    if offset ≤ session.lastRxOffset then (s, false)
    else (s.updateSession { session with lastRxOffset := offset }, true)

/-- A heartbeat sets the status the agent reports and a host that is given. -/
def heartbeatNode (node : InfraNode) (status : NodeHealthStatus) (host : Option String)
    (s : Store) : Store :=
  s.updateNode { node with status, host := orText host node.host }

end NodeControlService

end LlmPort.Backend.NodeControl
