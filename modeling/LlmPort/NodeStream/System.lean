import LlmPort.Backend.ControlPlane
import LlmPort.NodeAgent.Dispatcher

/-!
# The node stream

The control plane and the agent of one node, joined by the stream connections between them. Frames
and commands wait in the two queues of a connection, so an event may be processed long after it was
sent; an old connection may still deliver frames after the agent has opened a new one. The agent
executes one command at a time and is interrupted when its connection ends.
-/

namespace LlmPort.NodeStream

open Transition Backend Backend.NodeControl NodeControlService Store Backend.Llm LLMService NodeAgent

structure Frame where
  seq : Nat
  body : FrameBody
  deriving DecidableEq

/-- A stream connection: the commands on their way down, the frames on their way up. -/
structure Connection where
  sessionId : Uuid
  down : List DispatchItem
  up : List Frame
  /-- The backend's receive loop still runs. -/
  serving : Bool
  deriving DecidableEq

/-- What a lifecycle request asked for, and the command it was answered with. -/
structure Answer where
  runtimeId : Uuid
  nodeId : Uuid
  commandType : NodeCommandType
  payload : CommandPayload
  commandId : Uuid
  deriving DecidableEq

/-- Both programs and what is between them. The last four fields only record what happened. -/
structure Sys where
  store : Store
  conns : List Connection
  agent : AgentState
  /-- The connection the agent reads. -/
  attached : Option Uuid
  /-- The command whose execution the agent awaits. -/
  busy : Option DispatchItem
  /-- The frames the agent produced. -/
  log : List Frame
  /-- The frames the backend accepted. -/
  processed : List Frame
  /-- The executions that ended, with their success. -/
  executed : List (DispatchItem × Bool)
  /-- The lifecycle requests that were answered with a command. -/
  answered : List Answer
  deriving DecidableEq

inductive SysEvent where
  /-- A call of the control plane that is not made by this node's stream. -/
  | control (e : ControlEvent)
  | connect (now : Time) (sessionId : Uuid)
  /-- The agent takes the next command from its connection. -/
  | take (now : Time)
  | progress (message : Option String)
  | finish (outcome : ExecOutcome)
  | heartbeat
  /-- An inventory or event frame. -/
  | report
  /-- The agent's side of the connection ends. -/
  | disconnect
  /-- The backend reads the next frame of a connection. -/
  | receive (now : Time) (sessionId : Uuid) (host : Option String)
  /-- The backend's side of the connection ends. -/
  | close (sessionId : Uuid)

namespace Sys

/-- No connection yet, and an agent that has just enrolled. -/
def start (store : Store) : Sys where
  store
  conns := []
  agent := .fresh
  attached := none
  busy := none
  log := []
  processed := []
  executed := []
  answered := []

def findConn (sys : Sys) (sessionId : Uuid) : Option Connection :=
  sys.conns.find? (·.sessionId = sessionId)

/-- The command an idle agent takes next. -/
def nextItem (sys : Sys) : Option DispatchItem :=
  match sys.attached, sys.busy with
  | some sessionId, none => (sys.findConn sessionId).bind (·.down.head?)
  | _, _ => none

/-- The frame the backend reads next from a connection. -/
def nextFrame (sys : Sys) (sessionId : Uuid) : Option Frame :=
  ((sys.findConn sessionId).filter (·.serving)).bind (·.up.head?)

def updateConn (sys : Sys) (sessionId : Uuid) (f : Connection → Connection) : Sys :=
  { sys with conns := sys.conns.map fun c => if c.sessionId = sessionId then f c else c }

/-- `_send_json`: the frame takes the next sequence number, and is lost when the backend has
closed the connection. -/
def send (sys : Sys) (body : FrameBody) : Sys :=
  let frame : Frame := ⟨sys.agent.txSeq + 1, body⟩
  { sys with
    agent := { sys.agent with txSeq := sys.agent.txSeq + 1 }
    log := sys.log ++ [frame]
    conns := sys.conns.map fun c =>
      if sys.attached = some c.sessionId ∧ c.serving then { c with up := c.up ++ [frame] } else c }

/-- The status `_heartbeat_loop` reports. -/
def heartbeatStatus (sys : Sys) : NodeHealthStatus :=
  if sys.agent.maintenanceMode then .maintenance
  else if sys.agent.draining then .draining
  else .healthy

end Sys

/-- The calls that other parties than this node's stream make. -/
def isOutside (nodeId : Uuid) (s : Store) : ControlEvent → Bool
  | .issue _ _ | .lifecycle _ _ | .reap _ => true
  | .listForDispatch _ other _ | .listDispatchable _ other _ | .ack _ other _ _
  | .progress _ other _ _ | .result _ other _ _ | .openSession _ other | .heartbeat other _ _ =>
    other ≠ nodeId
  | .closeSession id | .streamOffset id _ => s.sessions.all fun x => x.id = id → x.nodeId ≠ nodeId

/-- The call by which the receive loop handles a frame. -/
def frameCalls (nodeId : Uuid) (now : Time) (host : Option String) : FrameBody → List ControlEvent
  | .commandAck id message => [.ack now nodeId id (some message)]
  | .commandProgress id message => [.progress now nodeId id message]
  | .commandResult id payload => [.result now nodeId id payload]
  | .heartbeat status => [.heartbeat nodeId status host]
  | .report => []

/-- The default `limit` of both listings. -/
def dispatchLimit : Nat := 50

/-- The two programs' settings and the node they talk about. -/
structure Deployment where
  llm : LLMService
  cfg : AgentConfig
  nodeId : Uuid

/-- Node 7, with a service and an agent that take their settings as they are. -/
def plainNode : Deployment := ⟨.plain, ⟨fun name => name⟩, 7⟩

namespace Deployment

variable (d : Deployment)

/-- The record of a lifecycle request that is answered with a command: the one it notes on the
runtime. -/
def answers (s : Store) : ControlEvent → List Answer
  | .lifecycle draw req =>
    match d.llm.handle draw req s, requestNode req s, requestPayload d.llm req s with
    | .ok s', some nodeId, some payload =>
      ((runtimeView s' req.runtimeId).bind (·.2)).toList.map fun commandId =>
        ⟨req.runtimeId, nodeId, req.action.commandType, payload, commandId⟩
    | _, _, _ => []
  | _ => []

/-- The handler of a frame raises. -/
def raises (now : Time) (body : FrameBody) (s : Store) : Bool :=
  match body with
  | .commandResult id payload =>
    match d.llm.nodeControl.recordCommandResult now d.nodeId id payload s with
    | .ok _ => false
    | .error _ => true
  | _ => false

def canConnect (sys : Sys) (sessionId : Uuid) : Bool :=
  sys.attached.isNone ∧ sys.store.sessions.all (·.id ≠ sessionId)

def onConnect (now : Time) (sessionId : Uuid) (sys : Sys) : Sys :=
  let s := createStreamSession sessionId d.nodeId sys.store
  let (s, commands) := d.llm.nodeControl.listDispatchableCommands now d.nodeId dispatchLimit s
  { sys with
    store := s
    attached := some sessionId
    conns := sys.conns ++ [⟨sessionId, commands, [], true⟩] }

def onTake (now : Time) (item : DispatchItem) (sys : Sys) : Sys :=
  let (agent, bodies, started) := handleCommand d.cfg now item sys.agent
  let conns := sys.conns.map fun c =>
    if sys.attached = some c.sessionId then { c with down := c.down.tail } else c
  bodies.foldl Sys.send { sys with conns, agent, busy := if started then some item else none }

def onFinish (outcome : ExecOutcome) (item : DispatchItem) (sys : Sys) : Sys :=
  let (agent, result) := finishCommand d.cfg item outcome sys.agent
  { sys with agent, busy := none, executed := sys.executed ++ [(item, result.success)] }.send
    (.commandResult item.command.id result)

/-- The agent's tasks are cancelled, and what it has not read is gone. -/
def onDisconnect (sessionId : Uuid) (sys : Sys) : Sys :=
  { sys with attached := none, busy := none }.updateConn sessionId fun c => { c with down := [] }

/-- The backend leaves its receive loop: what it has not read is gone. -/
def onClose (sessionId : Uuid) (sys : Sys) : Sys :=
  { sys with store := d.llm.nodeControl.closeStreamSession sessionId sys.store }.updateConn
    sessionId fun c => { c with serving := false, up := [] }

/-- The calls one turn of the receive loop makes for an accepted frame. -/
def turnCalls (now : Time) (sessionId : Uuid) (host : Option String) (frame : Frame) :
    List ControlEvent :=
  .streamOffset sessionId frame.seq :: frameCalls d.nodeId now host frame.body

/-- One turn of the receive loop. -/
def onReceive (now : Time) (sessionId : Uuid) (host : Option String) (frame : Frame) (sys : Sys) :
    Sys :=
  let (s, accepted) := updateStreamOffset sessionId frame.seq sys.store
  let sys := sys.updateConn sessionId fun c => { c with up := c.up.tail }
  if ¬ accepted then sys
  else if d.raises now frame.body s then d.onClose sessionId sys
  else
    let s := run (controlStep d.llm) s (frameCalls d.nodeId now host frame.body)
    let (s, commands) := listCommandsForDispatch now d.nodeId dispatchLimit s
    { sys with store := s, processed := sys.processed ++ [frame] }.updateConn sessionId fun c =>
      { c with down := c.down ++ commands }

/-- One step of the system; an event that is not enabled leaves it alone. -/
def step (sys : Sys) : SysEvent → Sys
  | .control e =>
    if isOutside d.nodeId sys.store e then
      { sys with
        store := controlStep d.llm sys.store e
        answered := sys.answered ++ d.answers sys.store e }
    else sys
  | .connect now sessionId => if canConnect sys sessionId then d.onConnect now sessionId sys else sys
  | .take now => match sys.nextItem with
    | some item => d.onTake now item sys
    | none => sys
  | .progress message => match sys.busy with
    | some item => sys.send (.commandProgress item.command.id message)
    | none => sys
  | .finish outcome => match sys.busy with
    | some item => d.onFinish outcome item sys
    | none => sys
  | .heartbeat => if sys.attached.isSome then sys.send (.heartbeat sys.heartbeatStatus) else sys
  | .report => if sys.attached.isSome then sys.send .report else sys
  | .disconnect => match sys.attached with
    | some sessionId => onDisconnect sessionId sys
    | none => sys
  | .receive now sessionId host => match sys.nextFrame sessionId with
    | some frame => d.onReceive now sessionId host frame sys
    | none => sys
  | .close sessionId => if (sys.findConn sessionId).any (·.serving) then d.onClose sessionId sys
    else sys

/-- The calls of the control plane that an event of the system makes. -/
def emits (sys : Sys) : SysEvent → List ControlEvent
  | .control e => if isOutside d.nodeId sys.store e then [e] else []
  | .connect now sessionId =>
    if canConnect sys sessionId then
      [.openSession sessionId d.nodeId, .listDispatchable now d.nodeId dispatchLimit]
    else []
  | .receive now sessionId host => match sys.nextFrame sessionId with
    | some frame =>
      let (s, accepted) := updateStreamOffset sessionId frame.seq sys.store
      if ¬ accepted then []
      else if d.raises now frame.body s then [.closeSession sessionId]
      else d.turnCalls now sessionId host frame ++ [.listForDispatch now d.nodeId dispatchLimit]
    | none => []
  | .close sessionId => if (sys.findConn sessionId).any (·.serving) then [.closeSession sessionId]
    else []
  | .take _ | .progress _ | .finish _ | .heartbeat | .report | .disconnect => []

end Deployment

variable {d : Deployment} {sys : Sys}

/-- The system refines the control plane: what an event does to the database is what the calls it
makes do. -/
theorem step_store {e : SysEvent} :
    (d.step sys e).store = run (controlStep d.llm) sys.store (d.emits sys e) := by
  cases e with
  | control e =>
    simp only [Deployment.step, Deployment.emits]
    split <;> rfl
  | connect now sessionId =>
    simp only [Deployment.step, Deployment.emits]
    split <;> rfl
  | take now =>
    simp only [Deployment.step, Deployment.emits]
    split
    next item _ =>
      unfold Deployment.onTake
      exact List.foldlRecOn _ _ (motive := fun sys' : Sys => sys'.store = sys.store) rfl
        fun _ h _ _ => h
    next => rfl
  | progress | finish | heartbeat | report | disconnect =>
    simp only [Deployment.step, Deployment.emits]
    split <;> rfl
  | receive now sessionId host =>
    simp only [Deployment.step, Deployment.emits]
    split
    next frame _ =>
      simp only [Deployment.onReceive]
      split
      next => rfl
      next =>
        split
        next => rfl
        next =>
          rw [run_append]
          rfl
    next => rfl
  | close sessionId =>
    simp only [Deployment.step, Deployment.emits]
    split <;> rfl

/-- What the calls of the backend leave alone. -/
structure SameAgent (sys sys' : Sys) : Prop where
  agent : sys'.agent = sys.agent
  busy : sys'.busy = sys.busy
  log : sys'.log = sys.log
  executed : sys'.executed = sys.executed

/-- The three ends of a turn of the receive loop: the frame is dropped, or its handler raises and
the connection is closed, or it is handled. -/
inductive Received (d : Deployment) (now : Time) (sessionId : Uuid) (host : Option String)
    (frame : Frame) (sys sys' : Sys) : Prop
  | dropped (h : sys'.store = sys.store) (hp : sys'.processed = sys.processed)
  | closed (h : sys'.store = d.llm.nodeControl.closeStreamSession sessionId sys.store)
      (hp : sys'.processed = sys.processed)
  | handled (h : sys'.store = run (controlStep d.llm) sys.store
        (d.turnCalls now sessionId host frame ++ [.listForDispatch now d.nodeId dispatchLimit]))
      (hp : sys'.processed = sys.processed ++ [frame])

theorem onReceive_received {now : Time} {sessionId : Uuid} {host : Option String} {frame : Frame} :
    Received d now sessionId host frame sys (d.onReceive now sessionId host frame sys) := by
  simp only [Deployment.onReceive]
  split
  next => exact .dropped rfl rfl
  next =>
    split
    next => exact .closed rfl rfl
    next =>
      refine .handled ?_ rfl
      rw [run_append]
      rfl

theorem onReceive_sameAgent {now : Time} {sessionId : Uuid} {host : Option String} {frame : Frame} :
    SameAgent sys (d.onReceive now sessionId host frame sys) := by
  simp only [Deployment.onReceive]
  split
  next => exact ⟨rfl, rfl, rfl, rfl⟩
  next => split <;> exact ⟨rfl, rfl, rfl, rfl⟩

theorem onTake_answered {now : Time} {item : DispatchItem} :
    (d.onTake now item sys).answered = sys.answered := by
  unfold Deployment.onTake
  exact List.foldlRecOn _ _ (motive := fun sys' : Sys => sys'.answered = sys.answered) rfl
    fun _ h _ _ => h

theorem onReceive_answered {now : Time} {sessionId : Uuid} {host : Option String} {frame : Frame} :
    (d.onReceive now sessionId host frame sys).answered = sys.answered := by
  simp only [Deployment.onReceive]
  split
  next => rfl
  next => split <;> rfl

theorem written_of_isOutside {e : ControlEvent} (h : isOutside d.nodeId sys.store e) (x : Uuid) :
    written d.nodeId x e = none := by
  cases e <;> simp_all [isOutside, written]

/-- The status that processing a frame's body writes. -/
inductive FrameWrites (id : Uuid) : FrameBody → NodeCommandStatus → Prop
  | ack (message : String) : FrameWrites id (.commandAck id message) .acked
  | progress (message : Option String) : FrameWrites id (.commandProgress id message) .running
  | result (payload : CommandResult) : FrameWrites id (.commandResult id payload)
    (if payload.success then .succeeded else .failed)

theorem FrameWrites.commandId {id : Uuid} {body : FrameBody} {st : NodeCommandStatus}
    (h : FrameWrites id body st) : body.commandId? = some id := by
  cases h <;> rfl

/-- What a turn of the receive loop writes on a row of the node. -/
theorem written_turn {now : Time} {sessionId x : Uuid} {host : Option String} {frame : Frame}
    {e : ControlEvent} {st : NodeCommandStatus}
    (he : e ∈ d.turnCalls now sessionId host frame ++ [.listForDispatch now d.nodeId dispatchLimit])
    (hst : written d.nodeId x e = some st) : FrameWrites x frame.body st := by
  obtain ⟨seq, body⟩ := frame
  cases body <;>
    simp only [Deployment.turnCalls, frameCalls, List.cons_append, List.nil_append, List.mem_cons,
      List.not_mem_nil, or_false] at he
  case report => rcases he with rfl | rfl <;> cases hst
  case heartbeat => rcases he with rfl | rfl | rfl <;> cases hst
  all_goals
    rcases he with rfl | rfl | rfl
    · cases hst
    · simp only [written, true_and] at hst
      split at hst
      next hid =>
        cases hst
        subst hid
        constructor
      next => cases hst
    · cases hst

end LlmPort.NodeStream
