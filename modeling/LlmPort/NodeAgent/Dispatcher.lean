import LlmPort.Backend.NodeControl.Service

/-!
# The node agent's command handling

The part of the agent that a command passes through: the freshness check of `command_verifier.py`,
the replay store of `state_store.py`, the local policy of `policy_guard.py`, the dispatcher and the
frames `stream_client.py` sends. The workload operations themselves are an outcome given from
outside.
-/

namespace LlmPort.NodeAgent

open Backend.NodeControl Backend.NodeControl.NodeControlService Store

/-- A frame without its sequence number. -/
inductive FrameBody where
  | commandAck (commandId : Uuid) (message : String)
  | commandProgress (commandId : Uuid) (message : Option String)
  | commandResult (commandId : Uuid) (payload : CommandResult)
  | heartbeat (status : NodeHealthStatus)
  /-- An inventory or event frame: it changes no command. -/
  | report
  deriving DecidableEq

/-- The command a frame is about. -/
def FrameBody.commandId? : FrameBody → Option Uuid
  | commandAck id _ | commandProgress id _ | commandResult id _ => some id
  | heartbeat _ | report => none

/-- The part of `AgentState` that command handling reads and writes. -/
structure AgentState where
  txSeq : Nat
  maintenanceMode : Bool
  draining : Bool
  /-- `completed_commands`, in insertion order. -/
  completedCommands : List (Uuid × CommandResult)
  deriving DecidableEq

namespace AgentState

def fresh : AgentState := ⟨0, false, false, []⟩

def getCommandResult (state : AgentState) (commandId : Uuid) : Option CommandResult :=
  (state.completedCommands.find? (·.1 = commandId)).map (·.2)

/-- `max_entries` of `remember_command_result` -/
def maxEntries : Nat := 500

/-- `d[key] = value` on a dictionary that keeps insertion order -/
def assign (entries : List (Uuid × CommandResult)) (commandId : Uuid) (payload : CommandResult) :
    List (Uuid × CommandResult) :=
  if entries.any (·.1 = commandId) then
    entries.map fun x => if x.1 = commandId then (commandId, payload) else x
  else entries ++ [(commandId, payload)]

def rememberCommandResult (state : AgentState) (commandId : Uuid) (payload : CommandResult) :
    AgentState :=
  let entries := assign state.completedCommands commandId payload
  { state with completedCommands := entries.drop (entries.length - maxEntries) }

theorem mem_of_getCommandResult {state : AgentState} {id : Uuid} {r : CommandResult}
    (h : state.getCommandResult id = some r) : (id, r) ∈ state.completedCommands := by
  obtain ⟨⟨k, v⟩, hx, rfl⟩ := Option.map_eq_some_iff.1 h
  have hk : k = id := by simpa using List.find?_some hx
  subst hk
  exact List.mem_of_find?_eq_some hx

theorem mem_assign {entries : List (Uuid × CommandResult)} {id : Uuid} {r : CommandResult}
    {x : Uuid × CommandResult} (h : x ∈ assign entries id r) :
    x = (id, r) ∨ x ∈ entries ∧ x.1 ≠ id := by
  unfold assign at h
  split at h
  next =>
    obtain ⟨y, hy, rfl⟩ := List.mem_map.1 h
    split
    next => exact .inl rfl
    next hne => exact .inr ⟨hy, hne⟩
  next hany =>
    rcases List.mem_append.1 h with h | h
    · refine .inr ⟨h, fun e => hany ?_⟩
      exact List.any_eq_true.2 ⟨x, h, by simpa using e⟩
    · exact .inl (List.mem_singleton.1 h)

theorem mem_rememberCommandResult {state : AgentState} {id : Uuid} {r : CommandResult}
    {x : Uuid × CommandResult} (h : x ∈ (state.rememberCommandResult id r).completedCommands) :
    x = (id, r) ∨ x ∈ state.completedCommands ∧ x.1 ≠ id := by
  simp only [rememberCommandResult] at h
  exact mem_assign (List.mem_of_mem_drop h)

/-- `row["result"]["replayed"] = True`, when the row has a nested result. -/
def marked (row : CommandResult) : CommandResult :=
  { row with result := row.result.map ({ · with replayed := true }) }

/-- What marking a replay does to the store: the row is copied, but its nested result is not. -/
def markReplayed (state : AgentState) (commandId : Uuid) : AgentState :=
  { state with completedCommands := state.completedCommands.map fun x =>
      if x.1 = commandId then (x.1, marked x.2) else x }

theorem mem_markReplayed {state : AgentState} {id : Uuid} {x : Uuid × CommandResult}
    (h : x ∈ (state.markReplayed id).completedCommands) :
    ∃ r, (x.1, r) ∈ state.completedCommands ∧ x.2 = { r with result := x.2.result } := by
  obtain ⟨⟨k, r⟩, hx, rfl⟩ := List.mem_map.1 h
  split <;> exact ⟨r, hx, rfl⟩

@[simp] theorem rememberCommandResult_txSeq {state : AgentState} {id : Uuid} {r : CommandResult} :
    (state.rememberCommandResult id r).txSeq = state.txSeq := by
  simp only [rememberCommandResult]

end AgentState

/-- `str.strip().lower()` on a command type that is not well known. -/
structure AgentConfig where
  normalize : String → String

/-- The command type as the agent reads it from a frame. -/
def AgentConfig.wireType (cfg : AgentConfig) : NodeCommandType → String
  | .other name _ => cfg.normalize name
  | t => t.value

/-- `_MAX_COMMAND_AGE_SEC` -/
def maxCommandAgeSec : Int := 300

def validateCommandAge (now issuedAt : Time) : Bool := now - issuedAt ≤ seconds maxCommandAgeSec

namespace PolicyGuard

def blockedDuringMaintenance : List String :=
  ["deploy_workload", "start_workload", "restart_workload", "update_workload"]

def blockedDuringDrain : List String := ["deploy_workload", "start_workload", "restart_workload"]

/-- The message of the violation, when the local policy blocks the command. -/
def validate (commandType : String) (state : AgentState) : Option String :=
  if state.maintenanceMode ∧ commandType ∈ blockedDuringMaintenance then
    some s!"Command '{commandType}' blocked: node is in maintenance mode."
  else if state.draining ∧ commandType ∈ blockedDuringDrain then
    some s!"Command '{commandType}' blocked: node is draining."
  else none

end PolicyGuard

/-- How a workload operation ends. -/
inductive ExecOutcome where
  | success (result : ResultJson)
  | policyViolation (message : String)
  | runtimeError (message : String)
  | internalError (message : String)
  deriving DecidableEq

/-- The result payload `handle` builds. -/
def ExecOutcome.normalized : ExecOutcome → CommandResult
  | success result => ⟨true, some result, none, none⟩
  | policyViolation message => ⟨false, some .empty, some "policy_violation", some message⟩
  | runtimeError message => ⟨false, some .empty, some "runtime_error", some message⟩
  | internalError message => ⟨false, some .empty, some "internal_error", some message⟩

namespace CommandDispatcher

/-- The command types whose work is done outside the dispatcher. -/
def isDelegated (commandType : String) : Bool :=
  commandType ∈ ["deploy_workload", "start_workload", "stop_workload", "restart_workload",
    "remove_workload", "update_workload", "collect_diagnostics", "sync_model",
    "fetch_container_logs", "check_system_updates", "apply_system_updates"]

/-- `_execute`: the handlers of the dispatcher itself, and `outcome` for the delegated types. -/
def execute (commandType : String) (payload : CommandPayload) (outcome : ExecOutcome)
    (state : AgentState) : AgentState × ExecOutcome :=
  if isDelegated commandType then (state, outcome)
  else if commandType = "refresh_inventory" then
    (state, .success ⟨none, false, [("refresh_requested", .bool true)]⟩)
  else if commandType = "set_maintenance_mode" then
    ({ state with maintenanceMode := payload.enabled },
      .success ⟨none, false, [("maintenance_mode", .bool payload.enabled)]⟩)
  else if commandType = "drain_node" then
    ({ state with draining := true }, .success ⟨none, false, [("draining", .bool true)]⟩)
  else if commandType = "resume_node" then
    ({ state with draining := false }, .success ⟨none, false, [("draining", .bool false)]⟩)
  else if commandType = "host_op" then
    (state, .success ⟨none, false, [("accepted", .bool false),
      ("reason", .text "host_op not enabled by default on agent.")]⟩)
  else if commandType = "sync_node_profile" then
    (state, .success ⟨none, false, [("synced", .bool true)]⟩)
  else (state, .runtimeError s!"Unsupported command type: {commandType}")

/-- A cached result, marked as a replay. -/
def replayed (cached : CommandResult) : CommandResult :=
  { cached with result := some { cached.result.getD .empty with replayed := true } }

end CommandDispatcher

/-- The result of a command whose `issued_at` is too old. -/
def expiredResult : CommandResult :=
  ⟨false, none, some "command_expired", some "Command issued_at is too old."⟩

/-- `_handle_command` up to the execution: the frames it sends, and whether an execution starts. The
signature check does not run, as no command the backend sends carries a signature. -/
def handleCommand (cfg : AgentConfig) (now : Time) (item : DispatchItem) (state : AgentState) :
    AgentState × List FrameBody × Bool :=
  let id := item.command.id
  if ¬ item.redispatch ∧ ¬ validateCommandAge now item.command.issuedAt then
    (state, [.commandResult id expiredResult], false)
  else
    let commandType := cfg.wireType item.command.commandType
    let ack := FrameBody.commandAck id s!"Accepted {commandType}"
    match state.getCommandResult id with
    | some cached =>
      (state.markReplayed id, [ack, .commandResult id (CommandDispatcher.replayed cached)], false)
    | none => match PolicyGuard.validate commandType state with
      | some message =>
        let result := (ExecOutcome.policyViolation message).normalized
        (state.rememberCommandResult id result, [ack, .commandResult id result], false)
      | none => (state, [ack, .commandProgress id (some s!"Executing {commandType}")], true)

/-- The copy passes the age check. -/
def isFresh (now : Time) (item : DispatchItem) : Bool :=
  item.redispatch || validateCommandAge now item.command.issuedAt

/-- The four ways in which the agent handles a command. -/
inductive Handled (cfg : AgentConfig) (now : Time) (item : DispatchItem) (state : AgentState) :
    AgentState × List FrameBody × Bool → Prop
  | expired (h : isFresh now item = false) :
    Handled cfg now item state (state, [.commandResult item.command.id expiredResult], false)
  | replayed (h : isFresh now item) (cached : CommandResult)
      (hc : state.getCommandResult item.command.id = some cached) (ack : String) :
    Handled cfg now item state (state.markReplayed item.command.id,
      [.commandAck item.command.id ack,
        .commandResult item.command.id (CommandDispatcher.replayed cached)], false)
  | blocked (h : isFresh now item) (hc : state.getCommandResult item.command.id = none)
      (message : String)
      (hv : PolicyGuard.validate (cfg.wireType item.command.commandType) state = some message)
      (ack : String) :
    Handled cfg now item state
      (state.rememberCommandResult item.command.id (ExecOutcome.policyViolation message).normalized,
        [.commandAck item.command.id ack,
          .commandResult item.command.id (ExecOutcome.policyViolation message).normalized], false)
  | started (h : isFresh now item) (hc : state.getCommandResult item.command.id = none)
      (hv : PolicyGuard.validate (cfg.wireType item.command.commandType) state = none)
      (ack progress : String) :
    Handled cfg now item state (state, [.commandAck item.command.id ack,
      .commandProgress item.command.id (some progress)], true)

theorem handleCommand_handled (cfg : AgentConfig) (now : Time) (item : DispatchItem)
    (state : AgentState) : Handled cfg now item state (handleCommand cfg now item state) := by
  simp only [handleCommand]
  split
  next h => exact .expired (by simpa [isFresh] using h)
  next h =>
    have hf : isFresh now item := by
      simp only [not_and, not_not] at h
      cases hr : item.redispatch with
      | true => simp [isFresh, hr]
      | false => simpa [isFresh, hr] using h
    split
    next cached hc => exact .replayed hf cached hc _
    next hc =>
      split
      next message hv => exact .blocked hf hc message hv _
      next hv => exact .started hf hc hv _ _

/-- Every frame the agent sends for a copy is about its command. -/
theorem Handled.commandId {cfg : AgentConfig} {now : Time} {item : DispatchItem}
    {state : AgentState}
    {r : AgentState × List FrameBody × Bool} (h : Handled cfg now item state r) :
    ∀ body ∈ r.2.1, body.commandId? = some item.command.id := by
  cases h <;> simp [FrameBody.commandId?]

theorem Handled.mem_completedCommands {cfg : AgentConfig} {now : Time} {item : DispatchItem}
    {state : AgentState} {r : AgentState × List FrameBody × Bool} (h : Handled cfg now item state r)
    {x : Uuid × CommandResult} (hx : x ∈ r.1.completedCommands) :
    x.1 = item.command.id ∨ ∃ payload, (x.1, payload) ∈ state.completedCommands := by
  cases h with
  | blocked =>
    rcases AgentState.mem_rememberCommandResult hx with rfl | h
    · exact .inl rfl
    · exact .inr ⟨x.2, h.1⟩
  | replayed =>
    obtain ⟨payload, hx, -⟩ := AgentState.mem_markReplayed hx
    exact .inr ⟨payload, hx⟩
  | _ => exact .inr ⟨x.2, hx⟩

theorem Handled.txSeq {cfg : AgentConfig} {now : Time} {item : DispatchItem} {state : AgentState}
    {r : AgentState × List FrameBody × Bool} (h : Handled cfg now item state r) :
    r.1.txSeq = state.txSeq := by
  cases h <;> simp only [AgentState.rememberCommandResult_txSeq, AgentState.markReplayed]

/-- The end of an execution: the result is remembered and reported. -/
def finishCommand (cfg : AgentConfig) (item : DispatchItem) (outcome : ExecOutcome)
    (state : AgentState) : AgentState × CommandResult :=
  let (state, outcome) := CommandDispatcher.execute (cfg.wireType item.command.commandType)
    item.command.payloadJson outcome state
  (state.rememberCommandResult item.command.id outcome.normalized, outcome.normalized)

theorem execute_state (commandType : String) (payload : CommandPayload) (outcome : ExecOutcome)
    (state : AgentState) :
    (CommandDispatcher.execute commandType payload outcome state).1.txSeq = state.txSeq ∧
      (CommandDispatcher.execute commandType payload outcome state).1.completedCommands =
        state.completedCommands := by
  unfold CommandDispatcher.execute
  repeat' (split; · exact ⟨rfl, rfl⟩)
  exact ⟨rfl, rfl⟩

/-- The result the backend can record as a success. -/
def isSuccess (payload : CommandResult) : Bool := payload.success && fits 128 payload.errorCode

/-- What the end of an execution does: it remembers the result it reports. -/
structure Finished (item : DispatchItem) (state : AgentState) (r : AgentState × CommandResult) :
    Prop where
  txSeq : r.1.txSeq = state.txSeq
  cached : ∀ x ∈ r.1.completedCommands, x = (item.command.id, r.2) ∨
    x ∈ state.completedCommands ∧ x.1 ≠ item.command.id
  success : r.2.success → isSuccess r.2

theorem finishCommand_finished (cfg : AgentConfig) (item : DispatchItem) (outcome : ExecOutcome)
    (state : AgentState) : Finished item state (finishCommand cfg item outcome state) := by
  have he := execute_state (cfg.wireType item.command.commandType) item.command.payloadJson outcome
    state
  simp only [finishCommand]
  generalize CommandDispatcher.execute _ _ outcome state = r at he ⊢
  obtain ⟨state', outcome'⟩ := r
  refine ⟨?_, ?_, ?_⟩
  · rw [AgentState.rememberCommandResult_txSeq]
    exact he.1
  · intro x hx
    rw [← he.2]
    exact AgentState.mem_rememberCommandResult hx
  · intro h
    cases outcome' with
    | success => rfl
    | _ => cases h

theorem isSuccess_of_mem_markReplayed {state : AgentState} {id : Uuid} {x : Uuid × CommandResult}
    (h : x ∈ (state.markReplayed id).completedCommands) :
    ∃ r, (x.1, r) ∈ state.completedCommands ∧ isSuccess x.2 = isSuccess r := by
  obtain ⟨r, hr, heq⟩ := AgentState.mem_markReplayed h
  exact ⟨r, hr, by rw [heq]; rfl⟩

theorem isSuccess_replayed {cached : CommandResult} (h : isSuccess cached) :
    isSuccess (CommandDispatcher.replayed cached) := h

end LlmPort.NodeAgent
