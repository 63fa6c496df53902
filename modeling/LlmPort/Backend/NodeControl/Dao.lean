import LlmPort.Backend.NodeControl.Model

/-!
# The node-control data access object

`db/dao/node_control_dao.py`: lookups, the ordered and limited command listings, the status setter
and the timeline, as functions on `Store`. A flush that the table's constraints reject (the primary
key, the unique `(node_id, idempotency_key)`, a `String(256)` column) gives `none`.
-/

namespace LlmPort.Backend.NodeControl

namespace Store

/-- A database with one enrolled node. -/
def oneNode (nodeId : Uuid) : Store where
  nodes := [⟨nodeId, "10.0.0.7", .healthy, false, false, true, 0⟩]
  sessions := []
  commands := []
  commandEvents := []
  assignments := []
  runtimes := []
  providers := []
  models := []
  syncCalls := []

/-- A database with one enrolled node and a stopped runtime it hosts. -/
def oneRuntime (nodeId runtimeId : Uuid) : Store :=
  { oneNode nodeId with
    runtimes := [{
      id := runtimeId
      name := "llama"
      providerId := 20
      modelId := 30
      status := .stopped
      statusMessage := none
      endpointUrl := none
      openaiCompat := true
      genericConfig := "{}"
      providerConfig := ⟨"", "", "", "", "", "", "", "", "{}"⟩
      containerRef := none
      executionTarget := .node
      assignedNodeId := some nodeId
      desiredState := "running"
      lastCommandId := none }]
    providers := [⟨20, .vllm, false⟩]
    models := [⟨30, .available, some "org/llama"⟩] }

def getNodeById (s : Store) (nodeId : Uuid) : Option InfraNode :=
  s.nodes.find? (·.id = nodeId)

def getCommand (s : Store) (commandId : Uuid) : Option InfraNodeCommand :=
  s.commands.find? (·.id = commandId)

def getRuntime (s : Store) (runtimeId : Uuid) : Option LLMRuntime :=
  s.runtimes.find? (·.id = runtimeId)

def getProvider (s : Store) (providerId : Uuid) : Option LLMProvider :=
  s.providers.find? (·.id = providerId)

def getModel (s : Store) (modelId : Uuid) : Option LLMModel :=
  s.models.find? (·.id = modelId)

def getCommandByIdempotencyKey (s : Store) (nodeId : Uuid) (key : String) :
    Option InfraNodeCommand :=
  s.commands.find? fun c => c.nodeId = nodeId ∧ c.idempotencyKey = key

/-- Write a changed command row back. -/
def updateCommand (s : Store) (command : InfraNodeCommand) : Store :=
  { s with commands := s.commands.map fun c => if c.id = command.id then command else c }

/-- Write a changed runtime row back. -/
def updateRuntime (s : Store) (runtime : LLMRuntime) : Store :=
  { s with runtimes := s.runtimes.map fun r => if r.id = runtime.id then runtime else r }

def updateNode (s : Store) (node : InfraNode) : Store :=
  { s with nodes := s.nodes.map fun n => if n.id = node.id then node else n }

def updateSession (s : Store) (session : InfraNodeSession) : Store :=
  { s with sessions := s.sessions.map fun x => if x.id = session.id then session else x }

/-- The columns of another row of the table agree with a unique constraint of `command`. -/
def conflicts (command other : InfraNodeCommand) : Bool :=
  other.nodeId = command.nodeId ∧ other.idempotencyKey = command.idempotencyKey

/-- A text fits a `String(n)` column. -/
def fits (n : Nat) (text : Option String) : Bool := text.elim 0 String.length ≤ n

/-- Flush a command row whose idempotency key changed, under the table's constraints. -/
def flushCommand (s : Store) (command : InfraNodeCommand) : Option Store :=
  if fits 256 command.idempotencyKey ∧
      ¬ s.commands.any (fun c => c.id ≠ command.id ∧ conflicts command c) then
    some (s.updateCommand command)
  else none

/-- The texts of a new row fit their columns. -/
def fitsColumns (command : InfraNodeCommand) : Bool :=
  fits 128 command.commandType.value ∧ fits 256 command.idempotencyKey ∧
    fits 128 command.correlationId

/-- Flush a new command row under the table's constraints. -/
def insertCommand (s : Store) (command : InfraNodeCommand) : Option Store :=
  if fitsColumns command ∧ ¬ s.commands.any (fun c => c.id = command.id ∨ conflicts command c) then
    some { s with commands := s.commands ++ [command] }
  else none

def appendCommandEvent (s : Store) (commandId : Uuid) (phase message : String)
    (payloadJson : Option EventPayload) : Store :=
  let seqs := (s.commandEvents.filter (·.commandId = commandId)).map (·.seq)
  let nextSeq := seqs.foldl max 0 + 1
  { s with commandEvents := s.commandEvents ++ [⟨commandId, nextSeq, phase, message, payloadJson⟩] }

def createCommand (s : Store) (command : InfraNodeCommand) : Option (Store × InfraNodeCommand) :=
  (s.insertCommand command).map fun s =>
    (s.appendCommandEvent command.id "queued" s!"Command queued: {command.commandType.value}" none,
      command)

/-- `ORDER BY issued_at ASC LIMIT limit` -/
def oldestFirst (limit : Nat) (commands : List InfraNodeCommand) : List InfraNodeCommand :=
  (commands.insertionSort (·.issuedAt ≤ ·.issuedAt)).take limit

def listPendingCommands (s : Store) (nodeId : Uuid) (limit : Nat) : List InfraNodeCommand :=
  oldestFirst limit (s.commands.filter fun c => c.nodeId = nodeId ∧ c.status.isPending)

def listInflightCommands (s : Store) (nodeId : Uuid) (limit : Nat) : List InfraNodeCommand :=
  oldestFirst limit (s.commands.filter fun c => c.nodeId = nodeId ∧ c.status.isInflight)

def listInflightCommandsAllNodes (s : Store) (limit : Nat) : List InfraNodeCommand :=
  oldestFirst limit (s.commands.filter (·.status.isInflight))

def upsertWorkloadAssignment (s : Store) (row : InfraNodeWorkloadAssignment) : Store :=
  if s.assignments.any (·.runtimeId = row.runtimeId) then
    { s with assignments := s.assignments.map fun a => if a.runtimeId = row.runtimeId then row else a }
  else { s with assignments := s.assignments ++ [row] }

def call (s : Store) (c : SyncCall) : Store := { s with syncCalls := s.syncCalls ++ [c] }

end Store

def setCommandStatus (now : Time) (command : InfraNodeCommand) (status : NodeCommandStatus)
    (resultJson : Option ResultJson) (errorCode errorMessage : Option String) :
    InfraNodeCommand :=
  { command with
    status
    dispatchedAt :=
      if status = .dispatched ∧ command.dispatchedAt = none then some now else command.dispatchedAt
    ackedAt := if status = .acked ∧ command.ackedAt = none then some now else command.ackedAt
    startedAt := if status = .running ∧
      command.startedAt = none then some now else command.startedAt
    completedAt := if status.isTerminal then some now else command.completedAt
    resultJson := resultJson <|> command.resultJson
    errorCode
    errorMessage }

section
variable {now : Time} {c : InfraNodeCommand} {status : NodeCommandStatus}
  {resultJson : Option ResultJson} {errorCode errorMessage : Option String}

@[simp] theorem setCommandStatus_id :
    (setCommandStatus now c status resultJson errorCode errorMessage).id = c.id := rfl

@[simp] theorem setCommandStatus_nodeId :
    (setCommandStatus now c status resultJson errorCode errorMessage).nodeId = c.nodeId := rfl

@[simp] theorem setCommandStatus_status :
    (setCommandStatus now c status resultJson errorCode errorMessage).status = status := rfl

@[simp] theorem setCommandStatus_commandType :
    (setCommandStatus now c status resultJson errorCode errorMessage).commandType =
      c.commandType := rfl

@[simp] theorem setCommandStatus_payloadJson :
    (setCommandStatus now c status resultJson errorCode errorMessage).payloadJson =
      c.payloadJson := rfl

end

end LlmPort.Backend.NodeControl
