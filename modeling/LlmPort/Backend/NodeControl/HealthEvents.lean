import LlmPort.Backend.NodeControl.Runtimes

/-!
# Workload health events

The events of the agent's health supervisor, as its event buffer holds them, and
`_reconcile_runtime_from_event`, by which the service follows them on the runtime row.
-/

namespace LlmPort.Backend.NodeControl

inductive HealthEventType where
  | running | stopped | missing | crashLoop | unhealthy
  deriving DecidableEq

namespace HealthEventType

/-- `event_type` -/
def value : HealthEventType → String
  | running => "workload.health.running"
  | stopped => "workload.health.stopped"
  | missing => "workload.health.missing"
  | crashLoop => "workload.health.crash_loop"
  | unhealthy => "workload.health.unhealthy"

def severity : HealthEventType → String
  | running => "info"
  | stopped | missing | unhealthy => "warning"
  | crashLoop => "error"

end HealthEventType

/-- The payload of a health event; an entry the event does not carry is `none`. -/
structure HealthPayload where
  runtimeId : RuntimeIdField
  containerName : String
  endpointUrl : Option EndpointUrl
  status : Option String
  exitCode : Option Int
  restartCount : Option Int
  previousStatus : Option String
  healthStatus : Option String
  deriving DecidableEq

structure HealthEvent where
  eventType : HealthEventType
  payload : HealthPayload
  deriving DecidableEq

namespace NodeControlService

open Store

variable (svc : NodeControlService)

/-- `_runtime_has_inflight_command` -/
def runtimeHasInflightCommand (runtime : LLMRuntime) (s : Store) : Bool :=
  match runtime.assignedNodeId with
  | none => false
  | some nodeId => (s.listInflightCommands nodeId 50).any fun command =>
    isProvisioning command.commandType &&
      (command.payloadJson.runtimeId = .missing || command.payloadJson.runtimeId = .uuid runtime.id true)

/-- A container (re)started. -/
def reconcileRunning (nodeId : Uuid) (payload : HealthPayload) (runtime : LLMRuntime) (s : Store) :
    Store × LLMRuntime :=
  let runtime := { runtime with
    status := .running
    statusMessage := none
    endpointUrl := match payload.endpointUrl with
      | some url => some (rewriteEndpointHost s url nodeId)
      | none => runtime.endpointUrl }
  let s := promoteModelStatus runtime (svc.publishRuntimeToGateway runtime s)
  (s.call (.provisionForRuntime runtime.id), runtime)

/-- The branches of `_reconcile_runtime_from_event`; `none` is its early return. -/
def reconcileRow (nodeId : Uuid) (event : HealthEvent) (runtime : LLMRuntime) (s : Store) :
    Option (Store × LLMRuntime) :=
  let payload := event.payload
  let status := payload.status.getD "stopped"
  let exitCode := payload.exitCode.getD (-1)
  let restartCount := payload.restartCount.getD 0
  let unhealthy := svc.syncCall (.setInstanceHealth runtime.id .unhealthy) s
  match event.eventType with
  | .running =>
    match runtime.status with
    | .error => some (svc.reconcileRunning nodeId payload runtime s)
    | .starting | .creating =>
      -- the command's own result is to settle the status
      if runtimeHasInflightCommand runtime s then none
      else some (svc.reconcileRunning nodeId payload runtime s)
    | .running | .stopping | .stopped => some (s, runtime)
  | .stopped =>
    if runtime.status = .running then
      some (unhealthy, { runtime with
        status := .error
        statusMessage := some s!"Container {status} (exit code {exitCode})" })
    else some (s, runtime)
  | .missing =>
    if runtime.status = .running then
      some (unhealthy, { runtime with
        status := .error, statusMessage := some "Container not found on node" })
    else some (s, runtime)
  | .crashLoop =>
    some (unhealthy, { runtime with
      status := .error
      statusMessage := some s!"Container crash-looping ({restartCount} restarts)" })
  | .unhealthy =>
    if runtime.status = .running then
      some (unhealthy, { runtime with statusMessage := some "Container health check failing" })
    else some (s, runtime)

def reconcileRuntimeFromEvent (nodeId : Uuid) (event : HealthEvent) (s : Store) : Store :=
  match event.payload.runtimeId with
  | .missing | .falsy | .malformed => s
  | .uuid runtimeId _ =>
    match s.getRuntime runtimeId with
    | none => s
    | some runtime =>
      match svc.reconcileRow nodeId event runtime s with
      | none => s
      | some (s, runtime) => (s.updateRuntime runtime).upsertWorkloadAssignment
        ⟨runtime.id, nodeId, runtime.desiredState, some runtime.status⟩

end NodeControlService

/-- The status column of a runtime. -/
def runtimeStatus (s : Store) (runtimeId : Uuid) : Option RuntimeStatus :=
  (s.getRuntime runtimeId).map (·.status)

/-- The row of the runtime reads error or running. -/
def ErrorOrRunning (s : Store) (runtimeId : Uuid) : Prop :=
  runtimeStatus s runtimeId = some .error ∨ runtimeStatus s runtimeId = some .running

theorem runtimeStatus_congr {s s' : Store} {id : Uuid} (h : s'.runtimes = s.runtimes) :
    runtimeStatus s' id = runtimeStatus s id := by
  unfold runtimeStatus
  rw [Store.getRuntime_congr h]

theorem runtimeStatus_updateRuntime_of_ne {s : Store} {r : LLMRuntime} {id : Uuid} (h : id ≠ r.id) :
    runtimeStatus (s.updateRuntime r) id = runtimeStatus s id := by
  unfold runtimeStatus
  rw [Store.getRuntime_updateRuntime_of_ne h]

theorem runtimeStatus_updateRuntime_self {s : Store} {r x : LLMRuntime}
    (h : s.getRuntime r.id = some x) : runtimeStatus (s.updateRuntime r) r.id = some r.status := by
  unfold runtimeStatus
  rw [Store.getRuntime_updateRuntime_self h]
  rfl

namespace NodeControlService

open Store

variable {svc : NodeControlService} {s s' : Store} {nodeId id : Uuid} {event : HealthEvent}
  {runtime runtime' : LLMRuntime}

/-- A health event writes the row it names, under its id, and no other row of the table. -/
theorem reconcileRow_frame (h : svc.reconcileRow nodeId event runtime s = some (s', runtime')) :
    s'.runtimes = s.runtimes ∧ runtime'.id = runtime.id := by
  obtain ⟨eventType, payload⟩ := event
  unfold reconcileRow at h
  cases eventType with
  | running =>
    simp only at h
    split at h
    · cases h
      exact ⟨by simp, rfl⟩
    · split at h
      · cases h
      · cases h
        exact ⟨by simp, rfl⟩
    · split at h
      · cases h
      · cases h
        exact ⟨by simp, rfl⟩
    all_goals
      cases h
      exact ⟨rfl, rfl⟩
  | stopped | missing | unhealthy =>
    simp only at h
    split at h
    all_goals
      cases h
      exact ⟨by simp, rfl⟩
  | crashLoop =>
    cases h
    exact ⟨by simp, rfl⟩

/-- From error or running a health event leads to error or running; a running event to running. -/
theorem reconcileRow_status (svc : NodeControlService) (nodeId : Uuid) (event : HealthEvent)
    (s : Store)
    (hst : runtime.status = .error ∨ runtime.status = .running) :
    ∃ s' runtime', svc.reconcileRow nodeId event runtime s = some (s', runtime') ∧
      (runtime'.status = .error ∨ runtime'.status = .running) ∧
      (event.eventType = .running → runtime'.status = .running) := by
  unfold reconcileRow
  obtain hst | hst := hst <;> cases event.eventType <;> simp [hst, reconcileRunning]

theorem runtimeStatus_reconcile_of_ne
    (h : ∀ canonical, event.payload.runtimeId ≠ .uuid id canonical) :
    runtimeStatus (svc.reconcileRuntimeFromEvent nodeId event s) id = runtimeStatus s id := by
  unfold reconcileRuntimeFromEvent
  split
  next => rfl
  next => rfl
  next => rfl
  next runtimeId canonical hid =>
    split
    next => rfl
    next runtime hr =>
      split
      next => rfl
      next s' runtime' hrow =>
        obtain ⟨hs, hi⟩ := reconcileRow_frame hrow
        have hne : id ≠ runtime'.id := by
          rw [hi, getRuntime_id hr]
          rintro rfl
          exact h canonical hid
        rw [runtimeStatus_congr upsertWorkloadAssignment_runtimes,
          runtimeStatus_updateRuntime_of_ne hne, runtimeStatus_congr hs]

/-- What a health event of the runtime does to its status. -/
theorem runtimeStatus_reconcile_self {canonical : Bool}
    (hid : event.payload.runtimeId = .uuid id canonical) (h : ErrorOrRunning s id) :
    ErrorOrRunning (svc.reconcileRuntimeFromEvent nodeId event s) id ∧
      (event.eventType = .running →
        runtimeStatus (svc.reconcileRuntimeFromEvent nodeId event s) id = some .running) := by
  obtain ⟨runtime, hr, hst⟩ : ∃ runtime, s.getRuntime id = some runtime ∧
      (runtime.status = .error ∨ runtime.status = .running) := by
    obtain h | h := h
    all_goals
      obtain ⟨runtime, hr, hst⟩ := Option.map_eq_some_iff.1 h
      exact ⟨runtime, hr, by simp [hst]⟩
  obtain ⟨s', runtime', hrow, hst', hrun⟩ := reconcileRow_status svc nodeId event s hst
  obtain ⟨hs, hi⟩ := reconcileRow_frame hrow
  have hid' : runtime'.id = id := hi.trans (getRuntime_id hr)
  have hself : runtimeStatus (svc.reconcileRuntimeFromEvent nodeId event s) id =
      some runtime'.status := by
    unfold reconcileRuntimeFromEvent
    simp only [hid, hr, hrow]
    subst hid'
    rw [runtimeStatus_congr upsertWorkloadAssignment_runtimes]
    exact runtimeStatus_updateRuntime_self (by rw [getRuntime_congr hs, hr])
  refine ⟨?_, fun he => by rw [hself, hrun he]⟩
  obtain hst' | hst' := hst'
  · exact .inl (by rw [hself, hst'])
  · exact .inr (by rw [hself, hst'])

end NodeControlService

theorem ErrorOrRunning.congr {s s' : Store} {id : Uuid} (h : ErrorOrRunning s id)
    (hs : runtimeStatus s' id = runtimeStatus s id) : ErrorOrRunning s' id := by
  unfold ErrorOrRunning
  rw [hs]
  exact h

theorem ErrorOrRunning.reconcile {svc : NodeControlService} {s : Store} {nodeId id : Uuid}
    {event : HealthEvent} (h : ErrorOrRunning s id) :
    ErrorOrRunning (svc.reconcileRuntimeFromEvent nodeId event s) id := by
  by_cases hid : ∃ canonical, event.payload.runtimeId = .uuid id canonical
  · obtain ⟨canonical, hid⟩ := hid
    exact (NodeControlService.runtimeStatus_reconcile_self hid h).1
  · exact h.congr (NodeControlService.runtimeStatus_reconcile_of_ne fun canonical hc =>
      hid ⟨canonical, hc⟩)

end LlmPort.Backend.NodeControl
