import LlmPort.Backend.NodeControl.Rows

/-!
# What the service's operations do to a runtime row

`runtimeView` is the pair of columns that tell a runtime's state: its status and its last command.
Among the operations on commands only the side effect of an outcome writes it, and
`outcomeStatus` is the status that side effect leaves.
-/

namespace LlmPort.Backend.NodeControl

namespace Store

variable {s s' : Store} {r : LLMRuntime} {id : Uuid}

theorem getRuntime_id (h : s.getRuntime id = some r) : r.id = id := by
  simpa using List.find?_some h

theorem getRuntime_congr (h : s'.runtimes = s.runtimes) : s'.getRuntime id = s.getRuntime id := by
  simp only [getRuntime, h]

theorem getRuntime_updateRuntime :
    (s.updateRuntime r).getRuntime id = (s.getRuntime id).map fun x => if x.id = r.id then r else x := by
  simp only [getRuntime, updateRuntime, List.find?_map]
  congr 2
  funext x
  by_cases h : x.id = r.id <;> simp [h]

theorem getRuntime_updateRuntime_of_ne (h : id ≠ r.id) :
    (s.updateRuntime r).getRuntime id = s.getRuntime id := by
  rw [getRuntime_updateRuntime]
  cases hx : s.getRuntime id with
  | none => rfl
  | some x => simp [getRuntime_id hx, h]

theorem getRuntime_updateRuntime_self {x : LLMRuntime} (h : s.getRuntime r.id = some x) :
    (s.updateRuntime r).getRuntime r.id = some r := by
  simp [getRuntime_updateRuntime, h, getRuntime_id h]

@[simp] theorem updateCommand_runtimes {c : InfraNodeCommand} :
    (s.updateCommand c).runtimes = s.runtimes := rfl

@[simp] theorem appendCommandEvent_runtimes {phase message : String} {p : Option EventPayload} :
    (s.appendCommandEvent id phase message p).runtimes = s.runtimes := rfl

@[simp] theorem call_runtimes {x : SyncCall} : (s.call x).runtimes = s.runtimes := rfl

@[simp] theorem updateNode_runtimes {n : InfraNode} : (s.updateNode n).runtimes = s.runtimes := rfl

@[simp] theorem updateSession_runtimes {x : InfraNodeSession} :
    (s.updateSession x).runtimes = s.runtimes := rfl

@[simp] theorem upsertWorkloadAssignment_runtimes {row : InfraNodeWorkloadAssignment} :
    (s.upsertWorkloadAssignment row).runtimes = s.runtimes := by
  unfold upsertWorkloadAssignment; split <;> rfl

end Store

/-- The status and the last command of a runtime. -/
def runtimeView (s : Store) (runtimeId : Uuid) : Option (RuntimeStatus × Option Uuid) :=
  (s.getRuntime runtimeId).map fun r => (r.status, r.lastCommandId)

theorem runtimeView_congr {s s' : Store} {id : Uuid} (h : s'.runtimes = s.runtimes) :
    runtimeView s' id = runtimeView s id := by
  simp only [runtimeView, Store.getRuntime_congr h]

theorem runtimeView_updateRuntime {s : Store} {r : LLMRuntime} {id : Uuid} :
    runtimeView (s.updateRuntime r) id =
      (runtimeView s id).map fun v => if id = r.id then (r.status, r.lastCommandId) else v := by
  unfold runtimeView
  rw [Store.getRuntime_updateRuntime]
  cases hx : s.getRuntime id with
  | none => rfl
  | some x =>
    simp only [Option.map_some, Store.getRuntime_id hx]
    by_cases h : id = r.id <;> simp [h]

/-- The runtime a command's payload names. -/
def runtimeIdOf (payload : CommandPayload) : Option Uuid :=
  match payload.runtimeId with
  | .uuid id _ => some id
  | .missing | .falsy | .malformed => none

/-- The status an outcome sets on the runtime of its command, when it sets one. -/
def outcomeStatus (commandType : NodeCommandType) (success : Bool) : Option RuntimeStatus :=
  if success then
    match commandType with
    | .deployWorkload | .startWorkload | .restartWorkload => some .running
    | .stopWorkload | .removeWorkload => some .stopped
    | _ => none
  else some .error

namespace NodeControlService

open Store

variable {svc : NodeControlService} {s s' : Store} {now : Time} {nodeId commandId runtimeId : Uuid}
  {c : InfraNodeCommand} {p : CommandResult} {r : LLMRuntime}

theorem issueCommand_runtimes {draw : Draw} {req : CommandRequest}
    (h : svc.issueCommand draw req s = .ok (s', c)) : s'.runtimes = s.runtimes := by
  rcases issueCommand_cases h with ⟨_, _, rfl⟩ | ⟨s₁, ⟨_, rfl⟩ | ⟨old, _, _, rfl⟩, rfl, rfl, _⟩ <;>
    rfl

@[simp] theorem syncCall_runtimes {x : SyncCall} : (svc.syncCall x s).runtimes = s.runtimes := by
  unfold syncCall; split <;> rfl

@[simp] theorem promoteModelStatus_runtimes : (promoteModelStatus r s).runtimes = s.runtimes := by
  unfold promoteModelStatus
  split
  · rfl
  · split <;> rfl

@[simp] theorem publishRuntimeToGateway_runtimes :
    (svc.publishRuntimeToGateway r s).runtimes = s.runtimes := by
  unfold publishRuntimeToGateway
  split
  · split <;> rfl
  · rfl

@[simp] theorem applyOutcome_runtimes {ok : Bool} :
    (svc.applyOutcome c ok p r s).1.runtimes = s.runtimes := by
  unfold applyOutcome applySuccess applyFailure
  split
  · split <;> try simp
    all_goals split <;> simp
  · split <;> simp

/-- What an outcome writes on the runtime row: its status; the id and the last command stay. -/
theorem applyOutcome_runtime (svc : NodeControlService) (c : InfraNodeCommand) (ok : Bool)
    (p : CommandResult) (r : LLMRuntime) (s : Store) :
    (svc.applyOutcome c ok p r s).2.id = r.id ∧
      (svc.applyOutcome c ok p r s).2.lastCommandId = r.lastCommandId ∧
      (svc.applyOutcome c ok p r s).2.status = (outcomeStatus c.commandType ok).getD r.status := by
  unfold applyOutcome
  cases ok with
  | true =>
    unfold applySuccess outcomeStatus
    cases (p.result.getD .empty).endpointUrl <;> cases c.commandType <;> exact ⟨rfl, rfl, rfl⟩
  | false =>
    unfold applyFailure
    simp only [Bool.false_eq_true, if_false]
    split <;> exact ⟨rfl, rfl, rfl⟩

/-- The side effect of an outcome on the runtime the command names. -/
theorem runtimeView_applyRuntimeSideEffect (ok : Bool) :
    runtimeView (svc.applyRuntimeSideEffect c ok p s) runtimeId =
      if runtimeIdOf c.payloadJson = some runtimeId then
        (runtimeView s runtimeId).map fun v => ((outcomeStatus c.commandType ok).getD v.1, some c.id)
      else runtimeView s runtimeId := by
  unfold applyRuntimeSideEffect runtimeIdOf
  cases c.payloadJson.runtimeId with
  | missing | falsy | malformed => simp
  | uuid id canonical =>
    simp only [Option.some.injEq]
    cases hr : s.getRuntime id with
    | none =>
      by_cases h : id = runtimeId
      · subst h
        simp [runtimeView, hr]
      · simp [h]
    | some r =>
      obtain ⟨hid, hlast, hstatus⟩ := applyOutcome_runtime svc c ok p (drivenBy c r) s
      have hrid := getRuntime_id hr
      replace hid : (svc.applyOutcome c ok p (drivenBy c r) s).2.id = id := hid.trans hrid
      simp only [runtimeView_congr upsertWorkloadAssignment_runtimes, runtimeView_updateRuntime,
        runtimeView_congr applyOutcome_runtimes, hid, hlast, hstatus]
      by_cases h : id = runtimeId
      · subst h
        simp only [if_true, runtimeView, hr]
        rfl
      · simp [h, Ne.symm h]

theorem lastCommand_demoteOne :
    (runtimeView (svc.demoteOne nodeId s r) runtimeId).map (·.2) =
      (runtimeView s runtimeId).map (·.2) := by
  unfold demoteOne
  split
  next => rfl
  next x hx =>
    have hid := getRuntime_id hx
    simp only [runtimeView_congr upsertWorkloadAssignment_runtimes,
      runtimeView_congr syncCall_runtimes, runtimeView_updateRuntime, hid]
    by_cases h : runtimeId = r.id
    · subst h
      simp [runtimeView, hx]
    · simp [h]

theorem lastCommand_demoteNodeRuntimes :
    (runtimeView (svc.demoteNodeRuntimes nodeId s) runtimeId).map (·.2) =
      (runtimeView s runtimeId).map (·.2) := by
  unfold demoteNodeRuntimes
  refine List.foldlRecOn _ _ (motive := fun s' : Store =>
    (runtimeView s' runtimeId).map (·.2) = (runtimeView s runtimeId).map (·.2)) rfl ?_
  intro s' h r _
  exact lastCommand_demoteOne.trans h

theorem updateStreamOffset_runtimes {id : Uuid} {offset : Int} :
    (updateStreamOffset id offset s).1.runtimes = s.runtimes := by
  unfold updateStreamOffset
  split
  · rfl
  · split <;> rfl

/-- Closing a session leaves every runtime's last command. -/
theorem lastCommand_closeStreamSession {sessionId : Uuid} :
    (runtimeView (svc.closeStreamSession sessionId s) runtimeId).map (·.2) =
      (runtimeView s runtimeId).map (·.2) := by
  unfold closeStreamSession
  split
  next => rfl
  next =>
    simp only
    split
    next => rfl
    next =>
      split
      next => exact lastCommand_demoteNodeRuntimes
      next => rfl

@[simp] theorem syncCall_nodes {x : SyncCall} : (svc.syncCall x s).nodes = s.nodes := by
  unfold syncCall; split <;> rfl

@[simp] theorem promoteModelStatus_nodes : (promoteModelStatus r s).nodes = s.nodes := by
  unfold promoteModelStatus
  split
  · rfl
  · split <;> rfl

@[simp] theorem publishRuntimeToGateway_nodes :
    (svc.publishRuntimeToGateway r s).nodes = s.nodes := by
  unfold publishRuntimeToGateway
  split
  · split <;> rfl
  · rfl

@[simp] theorem applyOutcome_nodes {ok : Bool} :
    (svc.applyOutcome c ok p r s).1.nodes = s.nodes := by
  unfold applyOutcome applySuccess applyFailure
  split
  · split <;> try simp [call]
    all_goals split <;> simp
  · split <;> simp

@[simp] theorem applyRuntimeSideEffect_nodes {ok : Bool} :
    (svc.applyRuntimeSideEffect c ok p s).nodes = s.nodes := by
  unfold applyRuntimeSideEffect
  split <;> try rfl
  split
  · rfl
  · simp only
    unfold upsertWorkloadAssignment
    split <;> simp [updateRuntime]

end NodeControlService

end LlmPort.Backend.NodeControl
