import LlmPort.Backend.RoutingRules

/-!
# What a node's frames do to the other nodes

The frames of one authenticated node against a database that holds the rows of all. `othersRows` is
what the database holds for the others, and `keepsApart` says which frames leave it as it is.
-/

namespace LlmPort.Backend

open Transition NodeControl NodeControlService Store Llm

/-- A frame of an authenticated node; a batch of events is as many steps. The events that are not
about the health of a workload are only stored. -/
inductive NodeFrame where
  | ack (now : Time) (commandId : Uuid) (message : Option String)
  | progress (now : Time) (commandId : Uuid) (message : Option String)
  | result (now : Time) (commandId : Uuid) (payload : CommandResult)
  | event (event : HealthEvent)

def frameStep (svc : NodeControlService) (nodeId : Uuid) (s : Store) : NodeFrame → Store
  | .ack now commandId message => recordCommandAck now nodeId commandId message s
  | .progress now commandId message => recordCommandProgress now nodeId commandId message s
  | .result now commandId payload =>
    committed s (svc.recordCommandResult now nodeId commandId payload s)
  | .event event => svc.reconcileRuntimeFromEvent nodeId event s

/-- The runtime is assigned to another node. -/
def elsewhere (nodeId : Uuid) (assignedNodeId : Option Uuid) : Bool := assignedNodeId.any (· ≠ nodeId)

def modelStatus (s : Store) (modelId : Uuid) : Option ModelStatus :=
  (s.getModel modelId).map (·.status)

/-- A runtime with its gateway instance and the status of its model. -/
structure HostedRuntime where
  assignedNodeId : Option Uuid
  modelId : Uuid
  status : RuntimeStatus
  endpointUrl : Option EndpointUrl
  published : Option ProviderInstance
  modelStatus : Option ModelStatus
  deriving DecidableEq

/-- The runtime as the database and, once the calls are carried out, the gateway `g` have it. -/
def hosted (g : GatewayDb) (s : Store) (id : Uuid) : Option HostedRuntime :=
  (s.getRuntime id).map fun r => ⟨r.assignedNodeId, r.modelId, r.status, r.endpointUrl, shown g s id,
    modelStatus s r.modelId⟩

/-- What the other nodes have in the database. -/
@[ext] structure OthersRows where
  commands : Uuid → Option InfraNodeCommand
  runtimes : Uuid → Option HostedRuntime
  assignments : List InfraNodeWorkloadAssignment

def othersRows (g : GatewayDb) (nodeId : Uuid) (s : Store) : OthersRows where
  commands id := (s.getCommand id).filter (·.nodeId ≠ nodeId)
  runtimes id := (hosted g s id).filter (elsewhere nodeId ·.assignedNodeId)
  assignments := s.assignments.filter (·.nodeId ≠ nodeId)

/-- The statuses from which a model is promoted. -/
def isTransient : Option ModelStatus → Bool
  | some .downloading | some .failed => true
  | _ => false

/-- The commands whose success promotes the model of their runtime. -/
def promotesModel : NodeCommandType → Bool
  | .deployWorkload | .startWorkload | .restartWorkload => true
  | _ => false

/-- The events that report a runtime of this status up again. -/
def recovers : HealthEventType → RuntimeStatus → Bool
  | .running, .error | .running, .starting | .running, .creating => true
  | _, _ => false

/-- The event is ignored: the runtime's own command is to settle its status. -/
def isIgnored (s : Store) (r : LLMRuntime) : HealthEventType → Bool
  | .running => (r.status = .starting ∨ r.status = .creating) ∧ runtimeHasInflightCommand r s
  | _ => false

section
variable (svc : NodeControlService) (g : GatewayDb) (nodeId : Uuid) (s : Store) (r : LLMRuntime)

/-- The runtime has no assignment row of another node. -/
def OnlyRows : Prop := ∀ a ∈ s.assignments, a.runtimeId = r.id → a.nodeId = nodeId

/-- No runtime of another node waits for the model of this one. -/
def SparesModel : Prop :=
  isTransient (modelStatus s r.modelId) → ∀ id other, s.getRuntime id = some other →
    elsewhere nodeId other.assignedNodeId → other.modelId ≠ r.modelId

/-- The gateway has no instance of the runtime that is not marked unhealthy. -/
def AlreadyUnhealthy : Prop :=
  svc.gatewaySync → ∀ x, shown g s r.id = some x → x.healthStatus = healthText .unhealthy

/-- The event finds the runtime as it reports it. -/
def FindsAsReported : HealthEventType → Prop
  | .running => recovers .running r.status = false
  | .stopped | .missing => r.status ≠ .running
  | .crashLoop => r.status = .error ∧ AlreadyUnhealthy svc g s r
  | .unhealthy => r.status = .running → AlreadyUnhealthy svc g s r

/-- The frames of a node that leave the rows of the others alone. -/
def keepsApart : NodeFrame → Prop
  | .ack .. | .progress .. => True
  | .result _ commandId payload => ∀ c r, ownCommand s nodeId commandId = some c →
    fits 128 payload.errorCode → runtimeIdOf c.payloadJson = some r.id →
    s.getRuntime r.id = some r →
    OnlyRows nodeId s r ∧ elsewhere nodeId r.assignedNodeId = false ∧
      (payload.success → promotesModel c.commandType → SparesModel nodeId s r)
  | .event event => ∀ r, healthRuntimeId event = some r.id → s.getRuntime r.id = some r →
    isIgnored s r event.eventType = false →
    OnlyRows nodeId s r ∧
      (elsewhere nodeId r.assignedNodeId → FindsAsReported svc g s r event.eventType) ∧
      (recovers event.eventType r.status → SparesModel nodeId s r)

end

variable {svc : NodeControlService} {g : GatewayDb} {nodeId id : Uuid} {s s' s₁ : Store}
  {r r' : LLMRuntime}

/-! ## The tables one by one -/

theorem filter_upsertWorkloadAssignment {row : InfraNodeWorkloadAssignment} :
    (s.upsertWorkloadAssignment row).assignments.filter (·.nodeId ≠ row.nodeId) =
        s.assignments.filter (·.nodeId ≠ row.nodeId) ↔
      ∀ a ∈ s.assignments, a.runtimeId = row.runtimeId → a.nodeId = row.nodeId := by
  unfold upsertWorkloadAssignment
  split
  next hany =>
    generalize s.assignments = l
    constructor
    · intro h a ha hid
      by_contra hne
      have hmem : a ∈ l.filter (·.nodeId ≠ row.nodeId) := List.mem_filter.2 ⟨ha, by simpa using hne⟩
      rw [← h] at hmem
      obtain ⟨hmap, -⟩ := List.mem_filter.1 hmem
      obtain ⟨b, -, rfl⟩ := List.mem_map.1 hmap
      split at hne
      next => exact hne rfl
      next hb => exact hb (by rwa [if_neg hb] at hid)
    · intro h
      induction l with
      | nil => rfl
      | cons a l ih =>
        have ih := ih fun b hb => h b (List.mem_cons_of_mem _ hb)
        rw [List.map_cons, List.filter_cons, List.filter_cons, ih]
        split
        next hid => simp [h a List.mem_cons_self hid]
        next => rfl
  next hany =>
    simp only [List.any_eq_true, decide_eq_true_eq, not_exists, not_and] at hany
    rw [List.filter_append]
    refine iff_of_true (by simp) fun a ha hid => (hany a ha hid).elim

theorem modelStatus_promoteModelStatus (r : LLMRuntime) (s : Store) (id : Uuid) :
    modelStatus (promoteModelStatus r s) id =
      if id = r.modelId ∧ isTransient (modelStatus s r.modelId) then some .available
      else modelStatus s id := by
  unfold promoteModelStatus modelStatus
  split
  next hnone => simp [hnone, isTransient]
  next model hmodel =>
    have hid : model.id = r.modelId := by simpa [getModel] using List.find?_some hmodel
    split
    next hstatus =>
      have htransient : isTransient (some model.status) := by
        obtain h | h := hstatus <;> rw [h] <;> rfl
      have hkey : (fun x : LLMModel => decide (x.id = id)) ∘ (fun m : LLMModel =>
          if m.id = model.id then { model with status := .available } else m) =
            fun x => decide (x.id = id) := by
        funext x
        rw [Function.comp_apply]
        split
        next hx => rw [hx]
        next => rfl
      simp only [hmodel, Option.map_some, htransient, and_true]
      simp only [getModel, List.find?_map, hkey]
      split
      next heq =>
        subst heq
        simp only [getModel] at hmodel
        simp [hmodel]
      next hne =>
        cases hx : s.models.find? (·.id = id) with
        | none => rfl
        | some x =>
          have hxid : x.id = id := by simpa using List.find?_some hx
          simp [hxid, hid, hne]
    next hstatus =>
      have hfinal : isTransient (some model.status) = false := by
        cases hs : model.status <;> simp_all [isTransient]
      simp [hmodel, hfinal]

/-! ## What an operation on one runtime leaves aside -/

/-- The operation writes no row and calls for no instance but that of the runtime. -/
structure Aside (g : GatewayDb) (id : Uuid) (s s' : Store) : Prop where
  commands : s'.commands = s.commands
  runtimes : s'.runtimes = s.runtimes
  assignments : s'.assignments = s.assignments
  instances : ∀ id' ≠ id, shown g s' id' = shown g s id'

namespace Aside

theorem refl (g : GatewayDb) (id : Uuid) (s : Store) : Aside g id s s :=
  ⟨rfl, rfl, rfl, fun _ _ => rfl⟩

theorem call (a : Aside g id s s₁) {c : SyncCall}
    (hc : ∀ g : GatewayDb, ∀ id' ≠ id, (applySync g c).instances.find? (·.id = id') =
      g.instances.find? (·.id = id')) : Aside g id s (s₁.call c) := by
  refine ⟨a.commands, a.runtimes, a.assignments, fun id' hne => ?_⟩
  rw [← a.instances id' hne]
  unfold shown
  rw [deliver_call]
  exact hc _ id' hne

theorem syncCall (a : Aside g id s s₁) {c : SyncCall}
    (hc : ∀ g : GatewayDb, ∀ id' ≠ id, (applySync g c).instances.find? (·.id = id') =
      g.instances.find? (·.id = id')) : Aside g id s (svc.syncCall c s₁) := by
  unfold NodeControlService.syncCall
  split
  · exact a.call hc
  · exact a

theorem health (a : Aside g id s s₁) (health : InstanceHealth) :
    Aside g id s (svc.syncCall (.setInstanceHealth id health) s₁) := by
  refine a.syncCall fun _ _ hne => find?_setInstanceHealth.trans ?_
  simp only [if_neg hne, Option.map_id']

theorem unpublish (a : Aside g id s s₁) (name : String) :
    Aside g id s (svc.syncCall (.unpublishRuntime id name) s₁) :=
  a.syncCall fun _ _ hne => find?_unpublishRuntime.trans (if_neg hne)

theorem publish (a : Aside g id s s₁) (hid : r.id = id) :
    Aside g id s (svc.publishRuntimeToGateway r s₁) := by
  subst hid
  unfold publishRuntimeToGateway
  split
  · split
    · exact a.call fun _ _ hne => find?_publishRuntime.trans (if_neg hne)
    · exact a
  · exact a

theorem promote (a : Aside g id s s₁) (r : LLMRuntime) :
    Aside g id s (promoteModelStatus r s₁) := by
  unfold promoteModelStatus
  split
  · exact a
  · split
    · exact ⟨a.commands, a.runtimes, a.assignments, a.instances⟩
    · exact a

end Aside

@[simp] theorem modelStatus_call {c : SyncCall} : modelStatus (s.call c) id = modelStatus s id := rfl

@[simp] theorem modelStatus_syncCall {c : SyncCall} :
    modelStatus (svc.syncCall c s) id = modelStatus s id := by
  unfold syncCall; split <;> rfl

@[simp] theorem modelStatus_publishRuntimeToGateway :
    modelStatus (svc.publishRuntimeToGateway r s) id = modelStatus s id := by
  unfold publishRuntimeToGateway
  split
  · split <;> rfl
  · rfl

/-! ## A frame that reaches a runtime -/

theorem filter_elsewhere {v : HostedRuntime} (h : elsewhere nodeId v.assignedNodeId) :
    (some v).filter (elsewhere nodeId ·.assignedNodeId) = some v := if_pos h

theorem filter_own {v : HostedRuntime} (h : ¬ elsewhere nodeId v.assignedNodeId) :
    (some v).filter (elsewhere nodeId ·.assignedNodeId) = none := if_neg h

/-- A frame of the node has replaced the row `r` of a runtime by `r'` and, when it `promotes`, made
its model available. -/
structure Reaches (g : GatewayDb) (nodeId : Uuid) (s s' : Store) (r r' : LLMRuntime)
    (promotes : Bool) : Prop where
  row : s.getRuntime r.id = some r
  commands : ∀ id, (s'.getCommand id).filter (·.nodeId ≠ nodeId) =
    (s.getCommand id).filter (·.nodeId ≠ nodeId)
  runtimes : ∀ id, s'.getRuntime id = if id = r.id then some r' else s.getRuntime id
  assignedNodeId : elsewhere nodeId r'.assignedNodeId → r'.assignedNodeId = r.assignedNodeId
  modelId : r'.modelId = r.modelId
  models : ∀ id, modelStatus s' id =
    if id = r.modelId ∧ promotes ∧ isTransient (modelStatus s r.modelId) then some .available
    else modelStatus s id
  instances : ∀ id ≠ r.id, shown g s' id = shown g s id
  assignments : ∃ desired actual,
    s'.assignments = (s.upsertWorkloadAssignment ⟨r.id, nodeId, desired, actual⟩).assignments

/-- The new row is the old one in the columns that count, and so is the instance. -/
def SameRuntime (g : GatewayDb) (s s' : Store) (r r' : LLMRuntime) : Prop :=
  r'.assignedNodeId = r.assignedNodeId ∧ r'.status = r.status ∧ r'.endpointUrl = r.endpointUrl ∧
    shown g s' r.id = shown g s r.id

namespace Reaches

variable {promotes : Bool}

theorem hosted_self (h : Reaches g nodeId s s' r r' promotes) :
    hosted g s' r.id = some ⟨r'.assignedNodeId, r.modelId, r'.status, r'.endpointUrl,
      shown g s' r.id, modelStatus s' r.modelId⟩ := by
  rw [hosted, h.runtimes, if_pos rfl, Option.map_some, h.modelId]

/-- The model that a runtime waits for does not become available. -/
theorem modelStatus_of_spares (h : Reaches g nodeId s s' r r' promotes)
    (hspares : promotes → SparesModel nodeId s r) {other : LLMRuntime}
    (hrow : s.getRuntime id = some other) (hother : elsewhere nodeId other.assignedNodeId) :
    modelStatus s' other.modelId = modelStatus s other.modelId := by
  rw [h.models, if_neg]
  rintro ⟨hmodel, hpromotes, htransient⟩
  exact hspares hpromotes htransient id other hrow hother hmodel

theorem runtimes_eq (h : Reaches g nodeId s s' r r' promotes)
    (hself : elsewhere nodeId r.assignedNodeId → SameRuntime g s s' r r')
    (hspares : promotes → SparesModel nodeId s r) (id : Uuid) :
    (hosted g s' id).filter (elsewhere nodeId ·.assignedNodeId) =
      (hosted g s id).filter (elsewhere nodeId ·.assignedNodeId) := by
  by_cases hid : id = r.id
  · subst hid
    rw [h.hosted_self, hosted, h.row, Option.map_some]
    by_cases hr : elsewhere nodeId r.assignedNodeId
    · obtain ⟨hassigned, hstatus, hurl, hshown⟩ := hself hr
      rw [hassigned, hstatus, hurl, hshown, h.modelStatus_of_spares hspares h.row hr]
    · have hr' : ¬ elsewhere nodeId r'.assignedNodeId := by
        intro hr'
        rw [h.assignedNodeId hr'] at hr'
        exact hr hr'
      exact (filter_own hr').trans (filter_own hr).symm
  · rw [hosted, hosted, h.runtimes, if_neg hid, h.instances id hid]
    cases hrow : s.getRuntime id with
    | none => rfl
    | some other =>
      rw [Option.map_some, Option.map_some]
      by_cases hother : elsewhere nodeId other.assignedNodeId
      · rw [h.modelStatus_of_spares hspares hrow hother]
      · exact (filter_own hother).trans (filter_own hother).symm

/-- What of the others' rows stays the same tells the runtime itself. -/
theorem sameRuntime_of_eq (h : Reaches g nodeId s s' r r' promotes)
    (heq : othersRows g nodeId s' = othersRows g nodeId s)
    (hr : elsewhere nodeId r.assignedNodeId) : SameRuntime g s s' r r' := by
  have hself := congrFun (congrArg OthersRows.runtimes heq) r.id
  simp only [othersRows] at hself
  rw [h.hosted_self, hosted, h.row, Option.map_some] at hself
  obtain ⟨hsame, -⟩ := Option.filter_eq_some_iff.1 (hself.trans (filter_elsewhere hr))
  simp only [Option.some.injEq, HostedRuntime.mk.injEq] at hsame
  exact ⟨hsame.1, hsame.2.2.1, hsame.2.2.2.1, hsame.2.2.2.2.1⟩

theorem sparesModel_of_eq (h : Reaches g nodeId s s' r r' promotes)
    (heq : othersRows g nodeId s' = othersRows g nodeId s) (hpromotes : promotes) :
    SparesModel nodeId s r := by
  intro htransient id other hrow hother hmodel
  have hviews := congrFun (congrArg OthersRows.runtimes heq) id
  simp only [othersRows] at hviews
  have hview : hosted g s id = some ⟨other.assignedNodeId, other.modelId, other.status,
      other.endpointUrl, shown g s id, modelStatus s other.modelId⟩ := by
    rw [hosted, hrow, Option.map_some]
  rw [hview] at hviews
  obtain ⟨hview', -⟩ := Option.filter_eq_some_iff.1 (hviews.trans (filter_elsewhere hother))
  obtain ⟨row, hrow', hfields⟩ := Option.map_eq_some_iff.1 hview'
  simp only [HostedRuntime.mk.injEq] at hfields
  obtain ⟨-, hmodel', -, -, -, hstatus⟩ := hfields
  rw [hmodel', hmodel, h.models, if_pos ⟨rfl, hpromotes, htransient⟩] at hstatus
  rw [← hstatus] at htransient
  cases htransient

/-- The others' rows stay as they are exactly if the node owns the runtime's assignment rows, a
runtime of another node is left as it was and no other node waits for a model that is promoted. -/
theorem othersRows_eq_iff (h : Reaches g nodeId s s' r r' promotes) :
    othersRows g nodeId s' = othersRows g nodeId s ↔
      OnlyRows nodeId s r ∧ (elsewhere nodeId r.assignedNodeId → SameRuntime g s s' r r') ∧
        (promotes → SparesModel nodeId s r) := by
  obtain ⟨desired, actual, hassignments⟩ := h.assignments
  have hrows : s'.assignments.filter (·.nodeId ≠ nodeId) =
      s.assignments.filter (·.nodeId ≠ nodeId) ↔ OnlyRows nodeId s r := by
    rw [hassignments]
    exact @filter_upsertWorkloadAssignment s ⟨r.id, nodeId, desired, actual⟩
  constructor
  · intro heq
    exact ⟨hrows.1 (congrArg OthersRows.assignments heq), h.sameRuntime_of_eq heq,
      h.sparesModel_of_eq heq⟩
  · rintro ⟨honly, hself, hspares⟩
    exact OthersRows.ext (funext h.commands) (funext (h.runtimes_eq hself hspares)) (hrows.2 honly)

end Reaches

/-- The row an operation leaves aside is written and the assignment follows it. -/
theorem Aside.reaches (a : Aside g r.id s s₁) (hr : s.getRuntime r.id = some r) (hid : r'.id = r.id)
    (hassigned : elsewhere nodeId r'.assignedNodeId → r'.assignedNodeId = r.assignedNodeId)
    (hmodel : r'.modelId = r.modelId) {promotes : Bool}
    (hmodels : ∀ id, modelStatus s₁ id =
      if id = r.modelId ∧ promotes ∧ isTransient (modelStatus s r.modelId) then some .available
      else modelStatus s id) (desired : String) (actual : Option RuntimeStatus) :
    Reaches g nodeId s ((s₁.updateRuntime r').upsertWorkloadAssignment
      ⟨r'.id, nodeId, desired, actual⟩) r r' promotes where
  row := hr
  commands id := by
    rw [getCommand_congr upsertWorkloadAssignment_commands, getCommand_congr updateRuntime_commands,
      getCommand_congr a.commands]
  runtimes id := by
    rw [getRuntime_congr upsertWorkloadAssignment_runtimes]
    split
    next h =>
      subst h
      rw [← hid]
      exact getRuntime_updateRuntime_self (by rw [hid, getRuntime_congr a.runtimes, hr])
    next h =>
      rw [getRuntime_updateRuntime_of_ne (by rwa [hid]), getRuntime_congr a.runtimes]
  assignedNodeId := hassigned
  modelId := hmodel
  models id := by
    rw [← hmodels id]
    unfold modelStatus getModel upsertWorkloadAssignment
    split <;> rfl
  instances id h := by
    rw [← a.instances id h]
    apply shown_congr
    unfold upsertWorkloadAssignment
    split <;> rfl
  assignments := by
    refine ⟨desired, actual, ?_⟩
    unfold upsertWorkloadAssignment updateRuntime
    simp only [a.assignments, hid]
    split <;> rfl

/-! ## Acks, progress and results -/

section
variable {commandId : Uuid} {c command : InfraNodeCommand} {p : CommandResult} {ok : Bool}

/-- A node's own command is no row of another. -/
theorem othersRows_updateCommand (hc : ownCommand s nodeId commandId = some c)
    (hid : command.id = c.id) (hnode : command.nodeId = nodeId) (phase message : String)
    (payload : Option EventPayload) :
    othersRows g nodeId ((s.updateCommand command).appendCommandEvent command.id phase message
      payload) = othersRows g nodeId s := by
  refine OthersRows.ext (funext fun id => ?_) rfl rfl
  simp only [othersRows, getCommand_congr appendCommandEvent_commands, getCommand_updateCommand]
  cases hrow : s.getCommand id with
  | none => rfl
  | some row =>
    rw [Option.map_some]
    split
    next heq =>
      have hget := ownCommand_get hc
      rw [← hid, ← heq, getCommand_id hrow, hrow] at hget
      cases hget
      have hown : c.nodeId = nodeId := (ownCommand_eq_some.1 hc).2
      exact (if_neg (by simp [hnode])).trans (if_neg (by simp [hown])).symm
    next => rfl

theorem applyOutcome_aside (a : Aside g id s s₁) (hid : r.id = id) :
    Aside g id s (svc.applyOutcome c ok p r s₁).1 := by
  subst hid
  unfold applyOutcome
  cases ok with
  | true =>
    simp only [if_true, applySuccess]
    cases c.commandType with
    | deployWorkload | startWorkload | restartWorkload =>
      simp only
      split
      · refine Aside.call (Aside.promote ?_ _) fun _ _ _ => rfl
        exact a.publish rfl
      · exact Aside.call (a.promote _) fun _ _ _ => rfl
    | stopWorkload => exact a.health .unhealthy
    | removeWorkload =>
      exact Aside.call (a.unpublish _) fun _ _ _ => rfl
    | _ => exact a
  | false =>
    simp only [Bool.false_eq_true, if_false, applyFailure]
    split
    · exact a.health .unhealthy
    · exact a

theorem modelStatus_applyOutcome (svc : NodeControlService) (c : InfraNodeCommand) (ok : Bool)
    (p : CommandResult) (r : LLMRuntime) (s : Store) (id : Uuid) :
    modelStatus (svc.applyOutcome c ok p r s).1 id =
      if id = r.modelId ∧ (ok && promotesModel c.commandType) ∧
        isTransient (modelStatus s r.modelId) then some .available
      else modelStatus s id := by
  unfold applyOutcome
  cases ok with
  | true =>
    simp only [if_true, applySuccess]
    cases c.commandType with
    | deployWorkload | startWorkload | restartWorkload =>
      simp only
      split <;> simp [modelStatus_promoteModelStatus, promotesModel]
    | _ => simp [promotesModel]
  | false =>
    simp only [Bool.false_eq_true, if_false, applyFailure, Bool.false_and, false_and, and_false]
    split <;> simp

/-- An outcome leaves where the runtime is assigned and which model it serves. -/
theorem applyOutcome_place : (svc.applyOutcome c ok p r s).2.assignedNodeId = r.assignedNodeId ∧
    (svc.applyOutcome c ok p r s).2.modelId = r.modelId := by
  unfold applyOutcome
  cases ok with
  | true =>
    simp only [if_true, applySuccess]
    cases c.commandType with
    | deployWorkload | startWorkload | restartWorkload => simp only; split <;> exact ⟨rfl, rfl⟩
    | _ => exact ⟨rfl, rfl⟩
  | false =>
    simp only [Bool.false_eq_true, if_false, applyFailure]
    split <;> exact ⟨rfl, rfl⟩

/-- The outcome of a command of the node reaches the runtime it names. -/
theorem applyRuntimeSideEffect_reaches (hnode : c.nodeId = nodeId)
    (hnamed : runtimeIdOf c.payloadJson = some r.id) (hr : s.getRuntime r.id = some r) :
    ∃ r', Reaches g nodeId s (svc.applyRuntimeSideEffect c ok p s) r r'
      (ok && promotesModel c.commandType) ∧ r'.assignedNodeId = some nodeId := by
  subst hnode
  unfold applyRuntimeSideEffect
  unfold runtimeIdOf at hnamed
  split at hnamed
  next id canonical hfield =>
    cases hnamed
    obtain ⟨hassigned, hmodel⟩ := @applyOutcome_place svc s (drivenBy c r) c p ok
    have hown : (svc.applyOutcome c ok p (drivenBy c r) s).2.assignedNodeId = some c.nodeId :=
      hassigned
    have haside : Aside g r.id s (svc.applyOutcome c ok p (drivenBy c r) s).1 :=
      applyOutcome_aside (.refl g r.id s) rfl
    have hid : (svc.applyOutcome c ok p (drivenBy c r) s).2.id = r.id :=
      (applyOutcome_runtime svc c ok p (drivenBy c r) s).1
    have hmodels := modelStatus_applyOutcome svc c ok p (drivenBy c r) s
    refine ⟨(svc.applyOutcome c ok p (drivenBy c r) s).2, ?_, hown⟩
    simp only [hfield, hr]
    refine haside.reaches hr hid (fun helse => ?_) hmodel hmodels _ _
    rw [hown] at helse
    simp [elsewhere] at helse
  all_goals cases hnamed

theorem applyRuntimeSideEffect_of_none
    (h : ∀ r, runtimeIdOf c.payloadJson = some r.id → s.getRuntime r.id ≠ some r) :
    svc.applyRuntimeSideEffect c ok p s = s := by
  unfold applyRuntimeSideEffect
  split
  next => rfl
  next => rfl
  next => rfl
  next id canonical hfield =>
    split
    next => rfl
    next r hr =>
      have hid := getRuntime_id hr
      subst hid
      exact (h r (by simp [runtimeIdOf, hfield]) hr).elim

theorem othersRows_result (now : Time) : othersRows g nodeId
      (frameStep svc nodeId s (.result now commandId p)) = othersRows g nodeId s ↔
    keepsApart svc g nodeId s (.result now commandId p) := by
  rw [frameStep, keepsApart, recordCommandResult]
  cases hc : ownCommand s nodeId commandId with
  | none => exact iff_of_true rfl fun c r h => by cases h
  | some c =>
    by_cases hfits : fits 128 p.errorCode
    · simp only [hfits, if_true, committed]
      have hnode : (resultRow now p c).nodeId = nodeId := (ownCommand_eq_some.1 hc).2
      rw [← @othersRows_updateCommand g nodeId s commandId c (resultRow now p c) hc rfl hnode "result"
        (if p.success then "Command succeeded." else "Command failed.") (some (.result p))]
      generalize hs₁ : (s.updateCommand (resultRow now p c)).appendCommandEvent _ _ _ _ = s₁
      by_cases hex : ∃ r, runtimeIdOf c.payloadJson = some r.id ∧ s.getRuntime r.id = some r
      · obtain ⟨r, hnamed, hr⟩ := hex
        have hr₁ : s₁.getRuntime r.id = some r := by
          rw [← hs₁]
          exact hr
        obtain ⟨r', hreaches, hassigned⟩ :=
          @applyRuntimeSideEffect_reaches svc g nodeId s₁ r (resultRow now p c) p p.success hnode
            hnamed hr₁
        rw [hreaches.othersRows_eq_iff]
        subst hs₁
        constructor
        · rintro ⟨honly, hsame, hspares⟩ c' other hc' - hnamed' hother
          cases hc'
          rw [hnamed, Option.some.injEq] at hnamed'
          rw [← hnamed', hr] at hother
          cases hother
          refine ⟨honly, ?_, fun hs hp => hspares (by simp [resultRow, hs, hp])⟩
          by_contra helse
          have helse : elsewhere nodeId r.assignedNodeId := by simpa using helse
          rw [← (hsame helse).1, hassigned] at helse
          simp [elsewhere] at helse
        · intro h
          obtain ⟨honly, hown, hspares⟩ := h c r rfl trivial hnamed hr
          refine ⟨honly, fun helse => ?_, fun h => ?_⟩
          · rw [hown] at helse
            cases helse
          · obtain ⟨hs, hp⟩ := Bool.and_eq_true_iff.1 h
            exact hspares hs hp
      · rw [applyRuntimeSideEffect_of_none]
        · refine iff_of_true rfl fun c' r hc' _ hnamed hr => ?_
          cases hc'
          exact (hex ⟨r, hnamed, hr⟩).elim
        · intro r hnamed hr
          rw [← hs₁] at hr
          exact hex ⟨r, hnamed, hr⟩
    · simp only [hfits, committed]
      exact iff_of_true rfl fun _ _ _ h => by cases h

end

/-! ## Events -/

section
variable {event : HealthEvent}

theorem shown_unhealthy_iff : shown g (svc.syncCall (.setInstanceHealth r.id .unhealthy) s) r.id =
      shown g s r.id ↔ AlreadyUnhealthy svc g s r := by
  unfold AlreadyUnhealthy syncCall
  split
  next hsync =>
    have hshown : shown g (s.call (.setInstanceHealth r.id .unhealthy)) r.id =
        (shown g s r.id).map (withHealth .unhealthy) := by
      unfold shown
      rw [deliver_call]
      refine find?_setInstanceHealth.trans ?_
      simp only [if_true]
      rfl
    rw [hshown]
    cases shown g s r.id with
    | none => exact iff_of_true rfl fun _ x hx => by cases hx
    | some x =>
      rw [Option.map_some, Option.some.injEq]
      constructor
      · rintro h - y hy
        cases hy
        rw [← h]
        rfl
      · intro h
        have hx := h hsync x rfl
        obtain ⟨⟩ := x
        simp only [withHealth, ← hx]
  next hsync => exact iff_of_true rfl fun h => absurd h hsync

/-- What a health event leaves for the row it names. -/
structure Reconciled (svc : NodeControlService) (g : GatewayDb) (s s₁ : Store)
    (eventType : HealthEventType) (r r' : LLMRuntime) : Prop where
  aside : Aside g r.id s s₁
  id : r'.id = r.id
  assignedNodeId : r'.assignedNodeId = r.assignedNodeId
  modelId : r'.modelId = r.modelId
  models : ∀ id, modelStatus s₁ id =
    if id = r.modelId ∧ recovers eventType r.status ∧ isTransient (modelStatus s r.modelId) then
      some .available
    else modelStatus s id
  same_iff : r'.status = r.status ∧ r'.endpointUrl = r.endpointUrl ∧
    shown g s₁ r.id = shown g s r.id ↔ FindsAsReported svc g s r eventType

theorem reconciled_refl {eventType : HealthEventType} (hrec : recovers eventType r.status = false)
    (h : FindsAsReported svc g s r eventType) : Reconciled svc g s s eventType r r where
  aside := .refl g r.id s
  id := rfl
  assignedNodeId := rfl
  modelId := rfl
  models id := by simp [hrec]
  same_iff := iff_of_true ⟨rfl, rfl, rfl⟩ h

theorem reconcileRunning_reconciled (svc : NodeControlService) (g : GatewayDb) (nodeId : Uuid)
    (payload : HealthPayload) (hrec : recovers .running r.status) :
    Reconciled svc g s (svc.reconcileRunning nodeId payload r s).1 .running r
      (svc.reconcileRunning nodeId payload r s).2 where
  aside := by
    refine Aside.call (Aside.promote ?_ _) fun _ _ _ => rfl
    exact (Aside.refl g r.id s).publish rfl
  id := rfl
  assignedNodeId := rfl
  modelId := rfl
  models id := by simp [reconcileRunning, modelStatus_promoteModelStatus, hrec]
  same_iff := by
    refine iff_of_false ?_ ?_
    · rintro ⟨hstatus, -⟩
      have hstatus : RuntimeStatus.running = r.status := hstatus
      rw [← hstatus] at hrec
      cases hrec
    · simp [FindsAsReported, hrec]

/-- The service marks the instance unhealthy and may write the status. -/
theorem unhealthy_reconciled {eventType : HealthEventType} {status : RuntimeStatus}
    {statusMessage : Option String} (hrec : recovers eventType r.status = false)
    (h : FindsAsReported svc g s r eventType ↔ status = r.status ∧ AlreadyUnhealthy svc g s r) :
    Reconciled svc g s (svc.syncCall (.setInstanceHealth r.id .unhealthy) s) eventType r
      { r with status, statusMessage } where
  aside := (Aside.refl g r.id s).health .unhealthy
  id := rfl
  assignedNodeId := rfl
  modelId := rfl
  models id := by simp [hrec]
  same_iff := by
    rw [h, shown_unhealthy_iff]
    simp only [true_and]

theorem reconcileRow_running (payload : HealthPayload) (hrec : recovers .running r.status)
    (hignored : isIgnored s r .running = false) :
    svc.reconcileRow nodeId ⟨.running, payload⟩ r s =
      some (svc.reconcileRunning nodeId payload r s) := by
  unfold reconcileRow
  simp only
  split
  next => rfl
  next hstatus =>
    have hfree : runtimeHasInflightCommand r s = false := by
      simpa [isIgnored, hstatus] using hignored
    rw [hfree]
    rfl
  next hstatus =>
    have hfree : runtimeHasInflightCommand r s = false := by
      simpa [isIgnored, hstatus] using hignored
    rw [hfree]
    rfl
  all_goals
    next hstatus =>
      rw [hstatus] at hrec
      cases hrec

/-- An event that is not ignored. -/
theorem reconcileRow_reconciled (svc : NodeControlService) (g : GatewayDb) (nodeId : Uuid)
    (hignored : isIgnored s r event.eventType = false) :
    ∃ s₁ r', svc.reconcileRow nodeId event r s = some (s₁, r') ∧
      Reconciled svc g s s₁ event.eventType r r' := by
  obtain ⟨eventType, payload⟩ := event
  cases eventType with
  | running =>
    cases hrec : recovers .running r.status with
    | true =>
      exact ⟨_, _, reconcileRow_running payload hrec hignored,
        reconcileRunning_reconciled svc g nodeId payload hrec⟩
    | false =>
      refine ⟨s, r, ?_, reconciled_refl hrec hrec⟩
      unfold reconcileRow
      simp only
      split
      all_goals
        next hstatus => first | rfl | (rw [hstatus] at hrec; cases hrec)
  | stopped | missing =>
    unfold reconcileRow
    simp only
    split
    next hstatus =>
      refine ⟨_, _, rfl, unhealthy_reconciled rfl ?_⟩
      simp [FindsAsReported, hstatus]
    next hstatus => exact ⟨s, r, rfl, reconciled_refl rfl hstatus⟩
  | crashLoop =>
    refine ⟨_, _, rfl, unhealthy_reconciled rfl ?_⟩
    rw [FindsAsReported, eq_comm]
  | unhealthy =>
    unfold reconcileRow
    simp only
    split
    next hstatus =>
      refine ⟨_, _, rfl, unhealthy_reconciled rfl ?_⟩
      simp [FindsAsReported, hstatus]
    next hstatus => exact ⟨s, r, rfl, reconciled_refl rfl fun h => absurd h hstatus⟩

theorem reconcileRow_of_isIgnored (h : isIgnored s r event.eventType) :
    svc.reconcileRow nodeId event r s = none := by
  obtain ⟨eventType, payload⟩ := event
  cases eventType with
  | running =>
    simp only [isIgnored, Bool.decide_and, Bool.decide_or, Bool.and_eq_true, Bool.or_eq_true,
      decide_eq_true_eq] at h
    obtain ⟨hstatus | hstatus, hflight⟩ := h
    all_goals simp [reconcileRow, hstatus, hflight]
  | _ => cases h

theorem reconcileRuntimeFromEvent_of_none
    (h : ∀ r, healthRuntimeId event = some r.id → s.getRuntime r.id ≠ some r) :
    svc.reconcileRuntimeFromEvent nodeId event s = s := by
  unfold reconcileRuntimeFromEvent
  split
  next => rfl
  next => rfl
  next => rfl
  next id canonical hfield =>
    split
    next => rfl
    next r hr =>
      have hid := getRuntime_id hr
      subst hid
      exact (h r (by simp [healthRuntimeId, hfield]) hr).elim

/-- The event as the branch of the row it names. -/
theorem reconcileRuntimeFromEvent_eq (hnamed : healthRuntimeId event = some r.id)
    (hr : s.getRuntime r.id = some r) :
    svc.reconcileRuntimeFromEvent nodeId event s =
      match svc.reconcileRow nodeId event r s with
      | none => s
      | some (s, r') => (s.updateRuntime r').upsertWorkloadAssignment
        ⟨r'.id, nodeId, r'.desiredState, some r'.status⟩ := by
  unfold healthRuntimeId at hnamed
  unfold reconcileRuntimeFromEvent
  split at hnamed
  next id canonical hfield =>
    cases hnamed
    rw [hfield]
    cases hrow : svc.reconcileRow nodeId event r s <;> simp only [hr, hrow]
  all_goals cases hnamed

theorem othersRows_event : othersRows g nodeId (frameStep svc nodeId s (.event event)) =
    othersRows g nodeId s ↔ keepsApart svc g nodeId s (.event event) := by
  rw [frameStep, keepsApart]
  by_cases hex : ∃ r, healthRuntimeId event = some r.id ∧ s.getRuntime r.id = some r
  · obtain ⟨r, hnamed, hr⟩ := hex
    have honly : ∀ other, healthRuntimeId event = some other.id →
        s.getRuntime other.id = some other → other = r := by
      intro other hnamed' hother
      rw [hnamed, Option.some.injEq] at hnamed'
      rw [← hnamed', hr] at hother
      exact (Option.some.inj hother).symm
    rw [reconcileRuntimeFromEvent_eq hnamed hr]
    cases hignored : isIgnored s r event.eventType with
    | true =>
      rw [reconcileRow_of_isIgnored hignored]
      refine iff_of_true rfl fun other hnamed' hother h => ?_
      rw [honly other hnamed' hother, hignored] at h
      cases h
    | false =>
      obtain ⟨s₁, r', hrow, hrec⟩ := reconcileRow_reconciled svc g nodeId hignored
      have hreaches : Reaches g nodeId s ((s₁.updateRuntime r').upsertWorkloadAssignment
          ⟨r'.id, nodeId, r'.desiredState, some r'.status⟩) r r'
          (recovers event.eventType r.status) :=
        hrec.aside.reaches hr hrec.id (fun _ => hrec.assignedNodeId) hrec.modelId hrec.models _ _
      have hshown : shown g ((s₁.updateRuntime r').upsertWorkloadAssignment
          ⟨r'.id, nodeId, r'.desiredState, some r'.status⟩) r.id = shown g s₁ r.id := by
        apply shown_congr
        unfold upsertWorkloadAssignment
        split <;> rfl
      rw [hrow]
      simp only
      rw [hreaches.othersRows_eq_iff]
      have hsame : SameRuntime g s ((s₁.updateRuntime r').upsertWorkloadAssignment
          ⟨r'.id, nodeId, r'.desiredState, some r'.status⟩) r r' ↔
            FindsAsReported svc g s r event.eventType := by
        rw [SameRuntime, hshown, ← hrec.same_iff]
        exact and_iff_right hrec.assignedNodeId
      rw [hsame]
      constructor
      · intro h other hnamed' hother _
        rw [honly other hnamed' hother]
        exact h
      · intro h
        exact h r hnamed hr hignored
  · rw [reconcileRuntimeFromEvent_of_none]
    · exact iff_of_true rfl fun r hnamed hr => (hex ⟨r, hnamed, hr⟩).elim
    · exact fun r hnamed hr => hex ⟨r, hnamed, hr⟩

end

/-! ## Runs of frames -/

theorem othersRows_frameStep (svc : NodeControlService) (g : GatewayDb) (nodeId : Uuid) (s : Store)
    (frame : NodeFrame) : othersRows g nodeId (frameStep svc nodeId s frame) =
      othersRows g nodeId s ↔ keepsApart svc g nodeId s frame := by
  cases frame with
  | ack now commandId message =>
    refine iff_of_true ?_ trivial
    simp only [frameStep, recordCommandAck]
    split
    next => rfl
    next c hc =>
      exact othersRows_updateCommand hc setCommandStatus_id (ownCommand_eq_some.1 hc).2 _ _ _
  | progress now commandId message =>
    refine iff_of_true ?_ trivial
    simp only [frameStep, recordCommandProgress]
    split
    next => rfl
    next c hc =>
      exact othersRows_updateCommand hc setCommandStatus_id (ownCommand_eq_some.1 hc).2 _ _ _
  | result now commandId payload => exact othersRows_result now
  | event event => exact othersRows_event

/-- The frames of a node leave the rows of the others as they are, between any two points of the
run, exactly if each of them keeps apart. -/
theorem othersRows_along_iff (svc : NodeControlService) (g : GatewayDb) (nodeId : Uuid) (s : Store)
    (frames : List NodeFrame) :
    Along (frameStep svc nodeId) (fun s s' => othersRows g nodeId s' = othersRows g nodeId s) s
        frames ↔
      Guarded (frameStep svc nodeId) (keepsApart svc g nodeId) s frames :=
  along_iff_guarded (I := fun _ => True) (fun _ => rfl) (fun _ _ _ h h' => h'.trans h)
    (fun _ _ _ => trivial) (fun s frame _ => othersRows_frameStep svc g nodeId s frame) trivial

/-- A runtime of node 2, and a node 1 that says that it crashes. -/
def hostedElsewhere : Store :=
  let s := oneRuntime 2 7
  { s with
    nodes := s.nodes ++ [⟨1, "10.0.0.8", .healthy, false, false, true, 0⟩]
    assignments := [⟨7, 2, "running", some .running⟩]
    runtimes := s.runtimes.map fun r => { r with status := .running } }

def crashReport : NodeFrame :=
  .event ⟨.crashLoop, ⟨.uuid 7 true, "llm-7", none, none, none, some 3, none, none⟩⟩

/-- A crash report of node 1 puts the runtime of node 2 in error and takes its assignment over. -/
theorem not_othersRows_along_crashReport :
    ¬ Along (frameStep ⟨120, true⟩ 1)
      (fun s s' => othersRows ⟨[], [], []⟩ 1 s' = othersRows ⟨[], [], []⟩ 1 s) hostedElsewhere
      [crashReport] := by
  intro h
  have hrows := congrArg OthersRows.assignments (h [] [crashReport] [] rfl)
  revert hrows
  decide

end LlmPort.Backend
