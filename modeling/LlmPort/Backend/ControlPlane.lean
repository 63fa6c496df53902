import LlmPort.Transition.Run
import LlmPort.Backend.Llm.Lifecycle
import LlmPort.Backend.NodeControl.Runtimes

/-!
# The control plane as a machine

One event is one call of the service, with the instant and the identifiers it draws; a call that
raises is rolled back and leaves the store alone. A run is any sequence of calls, so it contains
every order in which requests, dispatch listings, frames and reaper passes can reach the database.
-/

namespace LlmPort.Backend

open Transition NodeControl NodeControlService Store Llm LLMService

inductive ControlEvent where
  | issue (draw : Draw) (req : CommandRequest)
  | lifecycle (draw : Draw) (req : LifecycleRequest)
  | listForDispatch (now : Time) (nodeId : Uuid) (limit : Nat)
  | listDispatchable (now : Time) (nodeId : Uuid) (limit : Nat)
  | ack (now : Time) (nodeId commandId : Uuid) (message : Option String)
  | progress (now : Time) (nodeId commandId : Uuid) (message : Option String)
  | result (now : Time) (nodeId commandId : Uuid) (payload : CommandResult)
  | reap (now : Time)
  | openSession (id nodeId : Uuid)
  | closeSession (id : Uuid)
  | streamOffset (sessionId : Uuid) (offset : Int)
  | heartbeat (nodeId : Uuid) (status : NodeHealthStatus) (host : Option String)

/-- The store a call leaves: what it returns, or the old store when it raises. -/
def committed (s : Store) : Except ServiceError Store → Store
  | .ok s' => s'
  | .error _ => s

/-- One call of the control plane. -/
def controlStep (llm : LLMService) (s : Store) : ControlEvent → Store
  | .issue draw req => committed s ((llm.nodeControl.issueCommand draw req s).map (·.1))
  | .lifecycle draw req => committed s (llm.handle draw req s)
  | .listForDispatch now nodeId limit => (listCommandsForDispatch now nodeId limit s).1
  | .listDispatchable now nodeId limit =>
    (llm.nodeControl.listDispatchableCommands now nodeId limit s).1
  | .ack now nodeId commandId message => recordCommandAck now nodeId commandId message s
  | .progress now nodeId commandId message => recordCommandProgress now nodeId commandId message s
  | .result now nodeId commandId payload =>
    committed s (llm.nodeControl.recordCommandResult now nodeId commandId payload s)
  | .reap now => (llm.nodeControl.reapStaleCommands now s).1
  | .openSession id nodeId => createStreamSession id nodeId s
  | .closeSession id => llm.nodeControl.closeStreamSession id s
  | .streamOffset sessionId offset => (updateStreamOffset sessionId offset s).1
  | .heartbeat nodeId status host => match s.getNodeById nodeId with
    | none => s
    | some node => heartbeatNode node status host s

variable {llm : LLMService} {s s' s₁ : Store} {e : ControlEvent}
  {P : InfraNodeCommand → InfraNodeCommand → Prop}

@[simp] theorem setStatus_commands {id : Uuid} {status : RuntimeStatus} :
    (setStatus id status s).commands = s.commands := by
  unfold setStatus
  split <;> rfl

theorem issueLifecycle_eq_ok {draw : Draw} {action : LifecycleAction} {runtime : LLMRuntime}
    {nodeId : Uuid} {payload : CommandPayload}
    (h : llm.issueLifecycle draw action runtime nodeId payload s = .ok s') :
    ∃ s₁ command, llm.nodeControl.issueCommand draw
        (llm.lifecycleRequest action runtime nodeId payload) s = .ok (s₁, command) ∧
      s' = setStatus runtime.id action.pendingStatus
        (s₁.updateRuntime { runtime with lastCommandId := some command.id }) := by
  unfold issueLifecycle at h
  split at h
  next => cases h
  next s₁ command hi =>
    cases h
    exact ⟨s₁, command, hi, rfl⟩

/-- The node to which a lifecycle request sends a command, when it sends one. -/
def requestNode (req : LifecycleRequest) (s : Store) : Option Uuid :=
  (s.getRuntime req.runtimeId).bind fun runtime => match req with
    | .update _ config placement =>
      if runtime.executionTarget = .node then
        config.targetNodeId <|> runtime.assignedNodeId <|> placement.scheduled.toOption
      else none
    | .start _ | .stop _ | .restart _ => hostingNode runtime

/-- The payload of that command. -/
def requestPayload (llm : LLMService) (req : LifecycleRequest) (s : Store) :
    Option CommandPayload :=
  (s.getRuntime req.runtimeId).bind fun runtime => match req with
    | .start _ | .restart _ => some (llm.buildNodeDeployPayload runtime s)
    | .stop _ => some (llm.stopPayload runtime)
    | .update _ config _ => (s.getProvider runtime.providerId).map fun provider =>
      llm.updatePayload config (updateConfig config runtime) provider s

/-- What a lifecycle request does when it issues a command: it calls `issue_command` on the store
`s₀` for the runtime as it then is, and notes the answer on the runtime. -/
structure Issued (llm : LLMService) (draw : Draw) (req : LifecycleRequest) (s s' : Store) where
  runtime : LLMRuntime
  nodeId : Uuid
  payload : CommandPayload
  s₀ : Store
  s₁ : Store
  command : InfraNodeCommand
  id_eq : runtime.id = req.runtimeId
  node_eq : requestNode req s = some nodeId
  payload_id : payload.runtimeId = .uuid runtime.id true
  payload_eq : requestPayload llm req s = some payload
  s₀_eq : s₀ = s ∨ s₀ = s.updateRuntime runtime
  issued : llm.nodeControl.issueCommand draw
    (llm.lifecycleRequest req.action runtime nodeId payload) s₀ = .ok (s₁, command)
  s'_eq : s' = setStatus runtime.id req.action.pendingStatus
    (s₁.updateRuntime { runtime with lastCommandId := some command.id })

theorem Issued.of_issueLifecycle {draw : Draw} {req : LifecycleRequest} {runtime : LLMRuntime}
    {nodeId : Uuid} {payload : CommandPayload} {s₀ : Store} (hid : runtime.id = req.runtimeId)
    (hn : requestNode req s = some nodeId)
    (hp : payload.runtimeId = .uuid runtime.id true) (hq : requestPayload llm req s = some payload)
    (hs : s₀ = s ∨ s₀ = s.updateRuntime runtime)
    (h : llm.issueLifecycle draw req.action runtime nodeId payload s₀ = .ok s') :
    Nonempty (Issued llm draw req s s') := by
  obtain ⟨s₁, command, hi, rfl⟩ := issueLifecycle_eq_ok h
  exact ⟨⟨runtime, nodeId, payload, s₀, s₁, command, hid, hn, hp, hq, hs, hi, rfl⟩⟩

/-- The same for the requests that ask the node that hosts the runtime. -/
theorem Issued.of_hosting {draw : Draw} {req : LifecycleRequest} {r : LLMRuntime} {nodeId : Uuid}
    {payload : CommandPayload} (hr : s.getRuntime req.runtimeId = some r)
    (hn : hostingNode r = some nodeId)
    (hreq : requestNode req s = (s.getRuntime req.runtimeId).bind hostingNode)
    (hp : payload.runtimeId = .uuid r.id true) (hq : requestPayload llm req s = some payload)
    (h : llm.issueLifecycle draw req.action r nodeId payload s = .ok s') :
    Nonempty (Issued llm draw req s s') := by
  refine Issued.of_issueLifecycle (getRuntime_id hr) ?_ hp hq (.inl rfl) h
  rw [hreq, hr]
  exact hn

theorem bind_hostingNode {id : Uuid} {r : LLMRuntime} (hr : s.getRuntime id = some r)
    (hn : hostingNode r = none) : (s.getRuntime id).bind hostingNode = none := by
  rw [hr]
  exact hn

theorem runtimeView_setStatus {id runtimeId : Uuid} {status : RuntimeStatus} :
    runtimeView (setStatus runtimeId status s) id =
      (runtimeView s id).map fun v => if id = runtimeId then (status, v.2) else v := by
  unfold setStatus
  cases hr : s.getRuntime runtimeId with
  | none =>
    by_cases h : id = runtimeId
    · subst h
      simp [runtimeView, hr]
    · simp [h]
  | some r =>
    have hid := getRuntime_id hr
    subst hid
    simp only [runtimeView_updateRuntime]
    by_cases h : id = r.id
    · subst h
      simp [runtimeView, hr]
    · simp [h]

theorem Issued.view {draw : Draw} {req : LifecycleRequest} (h : Issued llm draw req s s')
    (id : Uuid) :
    runtimeView s' id = (runtimeView s id).map fun v =>
      if id = req.runtimeId then (req.action.pendingStatus, some h.command.id) else v := by
  have h₀ : runtimeView h.s₁ id = runtimeView h.s₀ id :=
    runtimeView_congr (issueCommand_runtimes h.issued)
  refine (congrArg (runtimeView · id) h.s'_eq).trans ?_
  simp only [runtimeView_setStatus, runtimeView_updateRuntime, h₀]
  have hid := h.id_eq
  simp only [hid]
  rcases h.s₀_eq with e | e
  · rw [e]
    cases runtimeView s id <;> by_cases hi : id = req.runtimeId <;> simp [hi]
  · rw [e, runtimeView_updateRuntime]
    cases runtimeView s id <;> by_cases hi : id = req.runtimeId <;> simp [hi, hid]

/-- What acting without a command does: the commands stay, and of the runtimes only the one named
changes, keeping its last command. -/
structure ActsLocally (runtimeId : Uuid) (s s' : Store) : Prop where
  commands : s'.commands = s.commands
  other : ∀ id, id ≠ runtimeId → runtimeView s' id = runtimeView s id
  last : (runtimeView s' runtimeId).map (·.2) = (runtimeView s runtimeId).map (·.2)

namespace ActsLocally

variable {runtimeId : Uuid}

theorem refl : ActsLocally runtimeId s s := ⟨rfl, fun _ _ => rfl, rfl⟩

theorem setStatus {status : RuntimeStatus} (h : ActsLocally runtimeId s s') :
    ActsLocally runtimeId s (setStatus runtimeId status s') where
  commands := setStatus_commands.trans h.commands
  other id hne := by rw [runtimeView_setStatus]; simpa [hne] using h.other id hne
  last := by
    rw [runtimeView_setStatus, ← h.last]
    cases runtimeView s' runtimeId <;> simp

theorem then_runtimes (h : ActsLocally runtimeId s s₁) (hc : s'.commands = s₁.commands)
    (hr : s'.runtimes = s₁.runtimes) : ActsLocally runtimeId s s' where
  commands := hc.trans h.commands
  other id hne := (runtimeView_congr hr).trans (h.other id hne)
  last := by rw [runtimeView_congr hr, h.last]

theorem updateRuntime {r : LLMRuntime} (hid : r.id = runtimeId)
    (hr : ∃ r₀, s.getRuntime runtimeId = some r₀ ∧ r.lastCommandId = r₀.lastCommandId)
    (h : ActsLocally runtimeId s s') : ActsLocally runtimeId s (s'.updateRuntime r) where
  commands := h.commands
  other id hne := by rw [runtimeView_updateRuntime]; simpa [hid, hne] using h.other id hne
  last := by
    subst hid
    obtain ⟨r₀, hr₀, hl⟩ := hr
    have hlast := h.last
    rw [runtimeView_updateRuntime]
    simp only [runtimeView, hr₀, Option.map_some] at hlast ⊢
    cases hs : s'.getRuntime r.id with
    | none => simp [hs] at hlast
    | some r₁ => simp [hl]

end ActsLocally

section
variable {draw : Draw} {runtimeId : Uuid}

theorem startRuntime_cases (h : llm.startRuntime draw runtimeId s = .ok s') :
    Nonempty (Issued llm draw (.start runtimeId) s s') ∨
      requestNode (.start runtimeId) s = none ∧ ActsLocally runtimeId s s' := by
  unfold startRuntime at h
  split at h
  next => cases h
  next r hr =>
    split at h
    next nodeId hn =>
      refine .inl (Issued.of_hosting hr hn rfl rfl ?_ h)
      simp [requestPayload, LifecycleRequest.runtimeId, hr]
    next hn =>
      replace hn := bind_hostingNode hr hn
      split at h <;> cases h
      · exact .inr
          ⟨hn, ActsLocally.refl.setStatus.then_runtimes syncCall_commands syncCall_runtimes⟩
      · exact .inr ⟨hn, (ActsLocally.refl.then_runtimes call_commands call_runtimes).setStatus⟩

theorem stopRuntime_cases (h : llm.stopRuntime draw runtimeId s = .ok s') :
    Nonempty (Issued llm draw (.stop runtimeId) s s') ∨
      requestNode (.stop runtimeId) s = none ∧ ActsLocally runtimeId s s' := by
  unfold stopRuntime at h
  split at h
  next => cases h
  next r hr =>
    split at h
    next nodeId hn =>
      refine .inl (Issued.of_hosting hr hn rfl rfl ?_ h)
      simp [requestPayload, LifecycleRequest.runtimeId, hr]
    next hn =>
      replace hn := bind_hostingNode hr hn
      cases h
      refine .inr ⟨hn, ActsLocally.then_runtimes ?_ syncCall_commands syncCall_runtimes⟩
      apply ActsLocally.setStatus
      split
      · exact .refl
      · exact ActsLocally.refl.setStatus.then_runtimes call_commands call_runtimes

theorem restartRuntime_cases (h : llm.restartRuntime draw runtimeId s = .ok s') :
    Nonempty (Issued llm draw (.restart runtimeId) s s') ∨
      requestNode (.restart runtimeId) s = none ∧ ActsLocally runtimeId s s' := by
  unfold restartRuntime at h
  split at h
  next => cases h
  next r hr =>
    split at h
    next nodeId hn =>
      refine .inl (Issued.of_hosting hr hn rfl rfl ?_ h)
      simp [requestPayload, LifecycleRequest.runtimeId, hr]
    next hn =>
      replace hn := bind_hostingNode hr hn
      split at h <;> cases h
      · exact .inr ⟨hn, ActsLocally.refl.setStatus⟩
      · exact .inr ⟨hn, (ActsLocally.refl.then_runtimes call_commands call_runtimes).setStatus⟩

@[simp] theorem teardownRuntime_commands {r : LLMRuntime} :
    (teardownRuntime r s).commands = s.commands := by
  unfold teardownRuntime
  split
  · rfl
  · split <;> rfl

@[simp] theorem teardownRuntime_runtimes {r : LLMRuntime} :
    (teardownRuntime r s).runtimes = s.runtimes := by
  unfold teardownRuntime
  split
  · rfl
  · split <;> rfl

theorem updateLocally_acts {placement : Placement} {r r₀ : LLMRuntime}
    (hid : r.id = runtimeId) (hr : s.getRuntime runtimeId = some r₀)
    (hl : r.lastCommandId = r₀.lastCommandId)
    (h : updateLocally placement r (s.updateRuntime r) = .ok s') : ActsLocally runtimeId s s' := by
  subst hid
  have hup : ActsLocally r.id s (s.updateRuntime r) :=
    ActsLocally.refl.updateRuntime rfl ⟨r₀, hr, hl⟩
  unfold updateLocally at h
  split at h
  next =>
    cases h
    exact hup.setStatus
  next =>
    split at h
    next => cases h
    next =>
      have hdown : ActsLocally r.id s (teardownRuntime r (s.updateRuntime r)) :=
        hup.then_runtimes teardownRuntime_commands teardownRuntime_runtimes
      simp only at h
      split at h <;> cases h
      · exact hdown
      · refine ActsLocally.setStatus (ActsLocally.updateRuntime ?_ ⟨r₀, hr, ?_⟩ hdown)
        · rfl
        · exact hl

theorem updateAndRestartRuntime_cases {config : UpdateConfig} {placement : Placement}
    (h : llm.updateAndRestartRuntime draw runtimeId config placement s = .ok s') :
    Nonempty (Issued llm draw (.update runtimeId config placement) s s') ∨
      requestNode (.update runtimeId config placement) s = none ∧ ActsLocally runtimeId s s' := by
  unfold updateAndRestartRuntime at h
  split at h
  next => cases h
  next r hr =>
    have hid := getRuntime_id hr
    simp only at h
    split at h
    next ht =>
      unfold updateOnNode at h
      split at h
      next => cases h
      next provider hprov =>
        split at h
        next => cases h
        next nodeId hn =>
          refine .inl (Issued.of_issueLifecycle ?_ ?_ ?_ ?_ (.inr rfl) h)
          · exact hid
          · replace ht : r.executionTarget = .node := ht
            simp only [requestNode, LifecycleRequest.runtimeId, hr, Option.bind_some, ht, if_true]
            change ((config.targetNodeId <|> r.assignedNodeId).map Except.ok).getD
              placement.scheduled = .ok nodeId at hn
            cases ht : config.targetNodeId <;> cases hr : r.assignedNodeId <;>
              simp_all [Except.toOption]
          · rfl
          · simp only [requestPayload, LifecycleRequest.runtimeId, hr, Option.bind_some]
            change s.getProvider r.providerId = some provider at hprov
            rw [hprov]
            rfl
    next ht =>
      refine .inr ⟨?_, updateLocally_acts ?_ hr ?_ h⟩
      · replace ht : ¬ r.executionTarget = .node := ht
        simp [requestNode, LifecycleRequest.runtimeId, hr, ht]
      · exact hid
      · rfl

end

/-- A request either issues a command for the runtime it names, or acts without one. -/
theorem handle_cases {draw : Draw} {req : LifecycleRequest} (h : llm.handle draw req s = .ok s') :
    Nonempty (Issued llm draw req s s') ∨
      requestNode req s = none ∧ ActsLocally req.runtimeId s s' := by
  cases req with
  | start => exact startRuntime_cases h
  | stop => exact stopRuntime_cases h
  | restart => exact restartRuntime_cases h
  | update => exact updateAndRestartRuntime_cases h

/-- `P` allows every write an event makes on a command row: what the operations write by themselves,
and what the frame at hand writes on the row it addresses. -/
structure Allows (llm : LLMService) (P : InfraNodeCommand → InfraNodeCommand → Prop) (s : Store)
    (e : ControlEvent) : Prop where
  refl : ∀ c, P c c
  trans : ∀ a b c, P a b → P b c → P a c
  retire : ∀ c key, c.status.isTerminal → P c { c with idempotencyKey := key }
  dispatch : ∀ now c, c.status = .queued → P c (setCommandStatus now c .dispatched none none none)
  timedOut : ∀ now, e = .reap now →
    ∀ c, c.status.isInflight → P c (llm.nodeControl.timedOutRow now c)
  ack : ∀ now nodeId commandId message, e = .ack now nodeId commandId message →
    ∀ c, ownCommand s nodeId commandId = some c → P c (setCommandStatus now c .acked none none none)
  progress : ∀ now nodeId commandId message, e = .progress now nodeId commandId message →
    ∀ c, ownCommand s nodeId commandId = some c →
      P c (setCommandStatus now c .running none none none)
  result : ∀ now nodeId commandId payload, e = .result now nodeId commandId payload →
    ∀ c, ownCommand s nodeId commandId = some c → fits 128 payload.errorCode →
      P c (resultRow now payload c)

theorem Issued.extends {draw : Draw} {req : LifecycleRequest} (h : Issued llm draw req s s')
    (hr : ∀ c, P c c) (hk : s.Keyed)
    (hq : ∀ c key, c.status.isTerminal → P c { c with idempotencyKey := key }) :
    Extends P s s' := by
  have hs : h.s₀.commands = s.commands := by
    rcases h.s₀_eq with e | e <;> rw [e]
    rfl
  have hk₀ : h.s₀.Keyed := (Rewrites.of_commands (fun _ => rfl) hs).keyed hk
  have he := issueCommand_extends hr hk₀ h.issued hq
  have hs' : s'.commands = h.s₁.commands :=
    (congrArg Store.commands h.s'_eq).trans setStatus_commands
  exact (he.of_commands_left hs).trans_commands hs'

/-- The events that call neither `issue_command` nor a lifecycle handler. -/
def ControlEvent.addsNothing : ControlEvent → Prop
  | issue _ _ | lifecycle _ _ => False
  | _ => True

/-- `P` allows every write of an event that issues nothing. -/
structure AllowsWrites (llm : LLMService) (P : InfraNodeCommand → InfraNodeCommand → Prop)
    (s : Store) (e : ControlEvent) : Prop where
  refl : ∀ c, P c c
  trans : ∀ a b c, P a b → P b c → P a c
  dispatch : ∀ now c, c.status = .queued → P c (setCommandStatus now c .dispatched none none none)
  timedOut : ∀ now, e = .reap now →
    ∀ c, c.status.isInflight → P c (llm.nodeControl.timedOutRow now c)
  ack : ∀ now nodeId commandId message, e = .ack now nodeId commandId message →
    ∀ c, ownCommand s nodeId commandId = some c → P c (setCommandStatus now c .acked none none none)
  progress : ∀ now nodeId commandId message, e = .progress now nodeId commandId message →
    ∀ c, ownCommand s nodeId commandId = some c →
      P c (setCommandStatus now c .running none none none)
  result : ∀ now nodeId commandId payload, e = .result now nodeId commandId payload →
    ∀ c, ownCommand s nodeId commandId = some c → fits 128 payload.errorCode →
      P c (resultRow now payload c)

theorem Allows.writes (ha : Allows llm P s e) : AllowsWrites llm P s e where
  refl := ha.refl
  trans := ha.trans
  dispatch := ha.dispatch
  timedOut := ha.timedOut
  ack := ha.ack
  progress := ha.progress
  result := ha.result

/-- The events that issue nothing rewrite the command rows and add none. -/
theorem controlStep_rewrites (ha : AllowsWrites llm P s e) (hk : s.Keyed) (he : e.addsNothing) :
    Rewrites P s (controlStep llm s e) := by
  cases e with
  | issue | lifecycle => exact he.elim
  | listForDispatch now nodeId limit =>
    exact listCommandsForDispatch_rewrites ha.refl ha.trans nodeId limit hk (ha.dispatch now)
  | listDispatchable now nodeId limit =>
    exact listDispatchableCommands_rewrites ha.refl ha.trans hk (ha.dispatch now)
  | ack now nodeId commandId message =>
    exact recordCommandAck_rewrites ha.refl hk (ha.ack _ _ _ _ rfl)
  | progress now nodeId commandId message =>
    exact recordCommandProgress_rewrites ha.refl hk (ha.progress _ _ _ _ rfl)
  | result now nodeId commandId payload =>
    simp only [controlStep, committed]
    cases hi : llm.nodeControl.recordCommandResult now nodeId commandId payload s with
    | error => exact .of_commands ha.refl rfl
    | ok s' => exact recordCommandResult_rewrites ha.refl hk hi (ha.result _ _ _ _ rfl)
  | reap now => exact reapStaleCommands_rewrites ha.refl ha.trans hk (ha.timedOut now rfl)
  | openSession => exact .of_commands ha.refl rfl
  | closeSession => exact .of_commands ha.refl closeStreamSession_commands
  | streamOffset => exact .of_commands ha.refl updateStreamOffset_commands
  | heartbeat nodeId status host =>
    refine .of_commands ha.refl ?_
    simp only [controlStep]
    split <;> rfl

/-- What one event does to the command rows. -/
theorem controlStep_extends (ha : Allows llm P s e) (hk : s.Keyed) :
    Extends P s (controlStep llm s e) := by
  cases e with
  | issue draw req =>
    simp only [controlStep, committed]
    cases hi : llm.nodeControl.issueCommand draw req s with
    | error => exact .same (.of_commands ha.refl rfl)
    | ok r => exact issueCommand_extends ha.refl hk hi ha.retire
  | lifecycle draw req =>
    simp only [controlStep, committed]
    cases hi : llm.handle draw req s with
    | error => exact .same (.of_commands ha.refl rfl)
    | ok s' =>
      rcases handle_cases hi with ⟨⟨h⟩⟩ | ⟨-, h⟩
      · exact h.extends ha.refl hk ha.retire
      · exact .same (.of_commands ha.refl h.commands)
  | _ => exact .same (controlStep_rewrites ha.writes hk trivial)

theorem allows_any : Allows llm (fun _ _ => True) s e := by
  constructor <;> intros <;> trivial

theorem controlStep_specs (hk : s.Keyed) (he : e.addsNothing) :
    (controlStep llm s e).specs = s.specs :=
  (controlStep_rewrites allows_any.writes hk he).specs

theorem controlStep_any (llm : LLMService) (e : ControlEvent) (hk : s.Keyed) :
    Extends (fun _ _ => True) s (controlStep llm s e) :=
  controlStep_extends allows_any hk

theorem controlStep_keyed (hk : s.Keyed) : (controlStep llm s e).Keyed :=
  (controlStep_any llm e hk).keyed hk

theorem run_controlStep_keyed {es : List ControlEvent} (hk : s.Keyed) :
    (run (controlStep llm) s es).Keyed :=
  run_invariant (fun _ _ => controlStep_keyed) hk

/-- A database without commands. -/
theorem keyed_noCommands (s : Store) : { s with commands := [] }.Keyed := List.nodup_nil

theorem grows_run {es : List ControlEvent} (hk : s.Keyed) :
    Grows s (run (controlStep llm) s es) := by
  induction es generalizing s with
  | nil => exact .of_commands rfl
  | cons e es ih =>
    refine .trans ?_ (ih (controlStep_keyed hk))
    intro id c hc
    obtain ⟨c', hc', hs, -⟩ := (controlStep_any llm e hk).rows hc
    exact ⟨c', hc', hs⟩

/-- The rows a reaper pass times out. -/
def staleRows (svc : NodeControlService) (now : Time) (s : Store) : List InfraNodeCommand :=
  (s.listInflightCommandsAllNodes 200).filter (svc.isStale now s)

/-- What a reaper pass makes of the rows. -/
theorem reapStaleCommands_commands (svc : NodeControlService) (now : Time) (hk : s.Keyed) :
    (svc.reapStaleCommands now s).1.commands = s.commands.map fun c =>
      if (staleRows svc now s).any (·.id = c.id) then svc.timedOutRow now c else c := by
  have hmem : ∀ c ∈ s.listInflightCommandsAllNodes 200, c ∈ s.commands :=
    fun c hc => List.mem_of_mem_filter (mem_of_mem_oldestFirst hc)
  obtain ⟨-, hrows⟩ := @forEachCommand_rewrite _ (·.1) (svc.reapOne now)
    (fun c => if svc.isStale now s c then svc.timedOutRow now c else c)
    (fun _ (a : Store × Nat) => a.1.nodes = s.nodes) (s, 0)
    (fun c => by split <;> rfl) (s.listInflightCommandsAllNodes 200) hk
    (nodup_oldestFirst (hk.nodup_filter _)) hmem rfl (by
      rintro - ⟨s₁, n⟩ c - hnodes hk₁ hlive
      simp only at hnodes hk₁ hlive
      have hstale : svc.isStale now s₁ c = svc.isStale now s c := by
        simp only [isStale, getNodeById, hnodes]
      rw [reapOne, hstale]
      split
      next => exact ⟨applyRuntimeSideEffect_nodes.trans hnodes, applyRuntimeSideEffect_commands⟩
      next => exact ⟨hnodes, (updateCommand_self hk₁ hlive).symm⟩)
  rw [reapStaleCommands, hrows]
  refine List.map_congr_left fun c hc => ?_
  have hany : (staleRows svc now s).any (fun x => x.id = c.id) =
      ((s.listInflightCommandsAllNodes 200).any (fun x => x.id = c.id) &&
        svc.isStale now s c) := by
    rw [Bool.eq_iff_iff, Bool.and_eq_true, staleRows, List.any_filter, List.any_eq_true,
      List.any_eq_true]
    constructor
    · rintro ⟨x, hx, hkey⟩
      obtain ⟨hstale, hid⟩ := Bool.and_eq_true_iff.1 hkey
      have hsame := hk.eq_of_mem (hmem x hx) hc (of_decide_eq_true hid)
      rw [hsame] at hx hstale
      exact ⟨⟨c, hx, decide_eq_true rfl⟩, hstale⟩
    · rintro ⟨⟨x, hx, hid⟩, hstale⟩
      rw [hk.eq_of_mem (hmem x hx) hc (of_decide_eq_true hid)] at hx
      exact ⟨c, hx, Bool.and_eq_true_iff.2 ⟨hstale, decide_eq_true rfl⟩⟩
  rw [hany]
  cases (s.listInflightCommandsAllNodes 200).any fun x => x.id = c.id with
  | false => rfl
  | true => rfl

/-- The reaper leaves the other rows alone. -/
theorem getCommand_reapStaleCommands {svc : NodeControlService} {now : Time} {id : Uuid}
    (hk : s.Keyed) (h : id ∉ (staleRows svc now s).map (·.id)) :
    (svc.reapStaleCommands now s).1.getCommand id = s.getCommand id := by
  rw [getCommand_of_map (fun c => by split <;> rfl) (reapStaleCommands_commands svc now hk)]
  cases hc : s.getCommand id with
  | none => rfl
  | some c =>
    rw [← getCommand_id hc, List.mem_map] at h
    rw [Option.map_some, if_neg]
    intro hany
    obtain ⟨x, hx, hid⟩ := List.any_eq_true.1 hany
    exact h ⟨x, hx, of_decide_eq_true hid⟩

def statusOf (s : Store) (id : Uuid) : Option NodeCommandStatus := (s.getCommand id).map (·.status)

/-- The command a lifecycle request issues when it adds a row. -/
theorem Issued.fresh_row {draw : Draw} {req : LifecycleRequest} (h : Issued llm draw req s s')
    (hf : statusOf s h.command.id = none) :
    ∃ c, s'.getCommand h.command.id = some c ∧ c.nodeId = h.nodeId ∧
      c.commandType = req.action.commandType ∧ c.payloadJson = h.payload ∧ c.status = .queued := by
  have hs₀ : h.s₀.commands = s.commands := by
    rcases h.s₀_eq with e | e <;> rw [e]
    rfl
  have hs' : s'.commands = h.s₁.commands :=
    (congrArg Store.commands h.s'_eq).trans setStatus_commands
  rcases issueCommand_cases h.issued with ⟨hk, -, -⟩ | ⟨s₁, -, hcmd, hs₁, hnew⟩
  · have hmem : h.command ∈ s.commands := hs₀ ▸ List.mem_of_find?_eq_some hk
    have hnone := List.find?_eq_none.1 (Option.map_eq_none_iff.1 hf) h.command hmem
    simp at hnone
  · have happ : s'.commands = s₁.commands ++ [h.command] := by
      rw [hs', hs₁]
      rfl
    have hnone : s₁.getCommand h.command.id = none :=
      List.find?_eq_none.2 fun c hc => by simpa using (hnew c hc).1
    refine ⟨h.command, ?_, ?_⟩
    · rw [getCommand_append happ, hnone]
      simp
    · rw [hcmd]
      exact ⟨rfl, rfl, rfl, rfl⟩

/-- The status the call for a frame of the node writes on a row. -/
def written (nodeId id : Uuid) : ControlEvent → Option NodeCommandStatus
  | .ack _ n commandId _ => if n = nodeId ∧ commandId = id then some .acked else none
  | .progress _ n commandId _ => if n = nodeId ∧ commandId = id then some .running else none
  | .result _ n commandId payload =>
    if n = nodeId ∧ commandId = id then some (if payload.success then .succeeded else .failed)
    else none
  | _ => none

section
variable {Q : NodeCommandStatus → Prop} {nodeId id : Uuid} {st : NodeCommandStatus}

/-- A frame's call reaches a row of the node only when it names the row for that node. -/
theorem Hosts.own {n commandId : Uuid} {c : InfraNodeCommand} (hX : Hosts nodeId s id)
    (hc : ownCommand s n commandId = some c) (hid : c.id = id) : n = nodeId ∧ commandId = id := by
  obtain ⟨hc, hn⟩ := ownCommand_eq_some.1 hc
  obtain ⟨c', hc', hn'⟩ := hX
  have hcommand := getCommand_id hc
  subst hid hcommand
  rw [hc] at hc'
  cases hc'
  exact ⟨hn.symm.trans hn', rfl⟩

/-- A property of a row's status that dispatching and reaping keep, and that holds of what a frame's
call writes, is kept by every call. -/
theorem statusOf_controlStep (hk : s.Keyed) (hX : Hosts nodeId s id)
    (hd : Q .queued → Q .dispatched)
    (ht : ∀ now, e = .reap now → ∀ st, st.isInflight → Q st → Q .timedOut)
    (hw : ∀ st, written nodeId id e = some st → Q st) (hs : statusOf s id = some st) (hq : Q st) :
    ∃ st', statusOf (controlStep llm s e) id = some st' ∧ Q st' := by
  have hal : Allows llm (fun c c' => c'.id = c.id ∧ (c.id = id → Q c.status → Q c'.status)) s e := by
    refine ⟨fun _ => ⟨rfl, fun _ h => h⟩, ?_, fun _ _ _ => ⟨rfl, fun _ h => h⟩, ?_, ?_, ?_, ?_, ?_⟩
    · intro a b c hab hbc
      exact ⟨hbc.1.trans hab.1, fun hid hq => hbc.2 (hab.1.trans hid) (hab.2 hid hq)⟩
    · intro _ c hc
      exact ⟨rfl, fun _ hq => hd (hc ▸ hq)⟩
    · intro now he c hc
      exact ⟨rfl, fun _ hq => ht now he c.status hc hq⟩
    · rintro _ _ _ _ rfl c hc
      exact ⟨rfl, fun hid _ => hw .acked (if_pos (Hosts.own hX hc hid))⟩
    · rintro _ _ _ _ rfl c hc
      exact ⟨rfl, fun hid _ => hw .running (if_pos (Hosts.own hX hc hid))⟩
    · rintro _ _ _ payload rfl c hc _
      exact ⟨rfl, fun hid _ => hw _ (if_pos (Hosts.own hX hc hid))⟩
  obtain ⟨c, hc, rfl⟩ := Option.map_eq_some_iff.1 hs
  obtain ⟨c', hc', -, -, hp⟩ := (controlStep_extends hal hk).rows hc
  exact ⟨c'.status, by rw [statusOf, hc', Option.map_some], hp (getCommand_id hc) hq⟩

theorem statusOf_run {es : List ControlEvent} (hk : s.Keyed) (hX : Hosts nodeId s id)
    (hd : Q .queued → Q .dispatched)
    (ht : ∀ now, .reap now ∈ es → ∀ st, st.isInflight → Q st → Q .timedOut)
    (hw : ∀ e ∈ es, ∀ st, written nodeId id e = some st → Q st) (hs : statusOf s id = some st)
    (hq : Q st) : ∃ st', statusOf (run (controlStep llm) s es) id = some st' ∧ Q st' := by
  induction es generalizing s st with
  | nil => exact ⟨st, hs, hq⟩
  | cons e es ih =>
    have hg : Grows s (run (controlStep llm) s [e]) := grows_run hk
    obtain ⟨st₁, hs₁, hq₁⟩ := statusOf_controlStep hk hX hd
      (fun now he => ht now (he ▸ List.mem_cons_self)) (hw e List.mem_cons_self) hs hq
    refine ih (controlStep_keyed hk) (hX.grows hg) ?_ ?_ hs₁ hq₁
    · exact fun now he => ht now (List.mem_cons_of_mem _ he)
    · exact fun e' he => hw e' (List.mem_cons_of_mem _ he)

/-- A result that fits its column decides the status of the row it names. -/
theorem statusOf_result (llm : LLMService) (now : Time) {payload : CommandResult}
    (hX : Hosts nodeId s id) (hf : fits 128 payload.errorCode) :
    statusOf (controlStep llm s (.result now nodeId id payload)) id =
      some (if payload.success then .succeeded else .failed) := by
  obtain ⟨c, hc, hn⟩ := hX
  have hid := getCommand_id hc
  subst hid
  obtain ⟨s', hs', hrows⟩ := recordCommandResult_own llm.nodeControl now
    (ownCommand_eq_some.2 ⟨hc, hn⟩) hf
  have hrow : (s.updateCommand (resultRow now payload c)).getCommand c.id =
      some (resultRow now payload c) := getCommand_updateCommand_own hc rfl
  simp only [statusOf, controlStep, hs', committed, getCommand_congr hrows, hrow]
  rfl

end

end LlmPort.Backend
