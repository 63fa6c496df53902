import LlmPort.Backend.ControlPlane
import LlmPort.Backend.Llm.Reconcile

/-!
# Health events while a deployment is pending

A running event does not promote a runtime that is starting while the guard sees a provisioning
command of it in flight. The guard looks at the status the runtime has, so a crash loop, which sets
the status to error, opens it; and it looks at the 50 oldest commands of the node that are
dispatched, acknowledged or running, so it does not see a queued one.
-/

namespace LlmPort.Backend

open Transition NodeControl NodeControlService Store Llm

inductive DeployStep where
  | health (nodeId : Uuid) (event : HealthEvent)
  /-- Any other call of the control plane. -/
  | control (e : ControlEvent)

def DeployStep.isHealth : DeployStep → Bool
  | health _ _ => true
  | control _ => false

def deployStep (llm : LLMService) (s : Store) : DeployStep → Store
  | .health nodeId event => llm.nodeControl.reconcileRuntimeFromEvent nodeId event s
  | .control e => controlStep llm s e

/-- A provisioning command of the runtime that has no outcome yet. -/
structure OpenCommand (s : Store) (runtime : LLMRuntime) (c : InfraNodeCommand) : Prop where
  row : s.getCommand c.id = some c
  live : c.status.isTerminal = false
  provisions : isProvisioning c.commandType
  names : c.payloadJson.runtimeId = .uuid runtime.id true
  assigned : runtime.assignedNodeId = some c.nodeId

/-- No health events set a runtime to running while a command is to bring it up. -/
def SettledByResult (llm : LLMService) : Prop :=
  ∀ s id runtime c (es : List DeployStep), s.getRuntime id = some runtime →
    isPending runtime.status → OpenCommand s runtime c → (∀ e ∈ es, e.isHealth) →
      runtimeStatus (run (deployStep llm) s es) id ≠ some .running

/-- The guard of `_reconcile_runtime_from_event` sees the command. -/
structure InView (s : Store) (runtime : LLMRuntime) (c : InfraNodeCommand) : Prop where
  listed : c ∈ s.listInflightCommands c.nodeId 50
  provisions : isProvisioning c.commandType
  names : c.payloadJson.runtimeId = .missing ∨ c.payloadJson.runtimeId = .uuid runtime.id true
  assigned : runtime.assignedNodeId = some c.nodeId

variable {llm : LLMService} {svc : NodeControlService} {s s' : Store} {id commandId nodeId : Uuid}
  {runtime runtime' : LLMRuntime} {c : InfraNodeCommand} {event : HealthEvent} {e : DeployStep}
  {status : RuntimeStatus}

/-- The command is in view, and a call that is no health event leaves the runtime's status. -/
def StaysInView (llm : LLMService) (id commandId : Uuid) (s : Store) (e : DeployStep) : Prop :=
  (∃ runtime c, s.getRuntime id = some runtime ∧ c.id = commandId ∧ InView s runtime c) ∧
    (e.isHealth = false → runtimeStatus (deployStep llm s e) id = runtimeStatus s id)

instance : Decidable (StaysInView llm id commandId s e) :=
  @instDecidableAnd _ _ (decidable_of_iff ((s.getRuntime id).any fun runtime =>
    runtime.assignedNodeId.any fun nodeId => (s.listInflightCommands nodeId 50).any fun c =>
      c.id = commandId ∧ c.nodeId = nodeId ∧ isProvisioning c.commandType ∧
        (c.payloadJson.runtimeId = .missing ∨ c.payloadJson.runtimeId = .uuid runtime.id true)) <| by
    simp only [Option.any_eq_true, List.any_eq_true, decide_eq_true_eq]
    constructor
    · rintro ⟨runtime, hr, nodeId, hn, c, hc, hid, rfl, hp, hnames⟩
      exact ⟨runtime, c, hr, hid, hc, hp, hnames, hn⟩
    · rintro ⟨runtime, c, hr, hid, h⟩
      exact ⟨runtime, hr, c.nodeId, h.assigned, c, h.listed, hid, rfl, h.provisions, h.names⟩)
    inferInstance

/-- The status a health event leaves while a command is in view. -/
def afterEvent (status : RuntimeStatus) : HealthEventType → RuntimeStatus
  | .running => if status = .error then .running else status
  | .stopped | .missing => if status = .running then .error else status
  | .crashLoop => .error
  | .unhealthy => status

/-- The type of a health event that names the runtime. -/
def DeployStep.reports (id : Uuid) : DeployStep → Option HealthEventType
  | health _ event => match event.payload.runtimeId with
    | .uuid runtimeId _ => if runtimeId = id then some event.eventType else none
    | .missing | .falsy | .malformed => none
  | control _ => none

/-- The statuses of the runtime along a run, as its health events tell them. -/
def follow (id : Uuid) (status : RuntimeStatus) (e : DeployStep) : RuntimeStatus :=
  (e.reports id).elim status (afterEvent status)

theorem runtimeHasInflightCommand_of_inView (h : InView s runtime c) :
    runtimeHasInflightCommand runtime s := by
  unfold runtimeHasInflightCommand
  simp only [h.assigned]
  refine List.any_eq_true.2 ⟨c, h.listed, ?_⟩
  rcases h.names with hn | hn <;> simp [h.provisions, hn]

/-- What an event does to the row of a runtime whose command is in view. -/
theorem reconcileRow_inView (h : InView s runtime c) :
    (svc.reconcileRow nodeId event runtime s = none ∧
        afterEvent runtime.status event.eventType = runtime.status) ∨
      ∃ s' runtime', svc.reconcileRow nodeId event runtime s = some (s', runtime') ∧
        runtime'.status = afterEvent runtime.status event.eventType := by
  have hg := runtimeHasInflightCommand_of_inView h
  unfold reconcileRow afterEvent
  cases event.eventType with
  | running => cases hst : runtime.status <;> simp [hst, hg, reconcileRunning]
  | stopped | missing => by_cases hst : runtime.status = .running <;> simp [hst]
  | crashLoop => simp
  | unhealthy => by_cases hst : runtime.status = .running <;> simp [hst]

theorem runtimeStatus_of_row {canonical : Bool} (hr : s.getRuntime id = some runtime)
    (hid : event.payload.runtimeId = .uuid id canonical)
    (hrow : svc.reconcileRow nodeId event runtime s = some (s', runtime')) :
    runtimeStatus (svc.reconcileRuntimeFromEvent nodeId event s) id = some runtime'.status := by
  obtain ⟨hs, hi⟩ := reconcileRow_frame hrow
  have hrid : runtime'.id = id := hi.trans (getRuntime_id hr)
  unfold reconcileRuntimeFromEvent
  simp only [hid, hr, hrow]
  subst hrid
  rw [runtimeStatus_congr upsertWorkloadAssignment_runtimes]
  exact runtimeStatus_updateRuntime_self (by rw [getRuntime_congr hs, hr])

theorem runtimeStatus_reconcile {canonical : Bool} (hr : s.getRuntime id = some runtime)
    (h : InView s runtime c) (hid : event.payload.runtimeId = .uuid id canonical) :
    runtimeStatus (svc.reconcileRuntimeFromEvent nodeId event s) id =
      some (afterEvent runtime.status event.eventType) := by
  rcases @reconcileRow_inView svc s nodeId runtime c event h with ⟨hrow, hst⟩ | ⟨s', r, hrow, hst⟩
  · unfold reconcileRuntimeFromEvent
    simp only [hid, hr, hrow, hst, runtimeStatus, Option.map_some]
  · rw [runtimeStatus_of_row hr hid hrow, hst]

/-- A running event promotes a runtime whose command the guard does not see, say a queued one. -/
theorem promoted_of_not_inflight {canonical : Bool} (hr : s.getRuntime id = some runtime)
    (hp : isPending runtime.status) (hg : runtimeHasInflightCommand runtime s = false)
    (hid : event.payload.runtimeId = .uuid id canonical) (ht : event.eventType = .running) :
    runtimeStatus (svc.reconcileRuntimeFromEvent nodeId event s) id = some .running := by
  have hrow : svc.reconcileRow nodeId event runtime s =
      some (svc.reconcileRunning nodeId event.payload runtime s) := by
    unfold reconcileRow
    rw [ht]
    cases hst : runtime.status with
    | creating | starting => simp [hg]
    | running | stopping | stopped | error => simp [hst, isPending] at hp
  exact runtimeStatus_of_row hr hid hrow

theorem deployStep_follow (hs : runtimeStatus s id = some status)
    (h : StaysInView llm id commandId s e) :
    runtimeStatus (deployStep llm s e) id = some (follow id status e) := by
  obtain ⟨⟨runtime, c, hr, -, hc⟩, hother⟩ := h
  have hst : runtime.status = status := by simpa [runtimeStatus, hr] using hs
  subst hst
  cases e with
  | control e => exact (hother rfl).trans hs
  | health nodeId event =>
    have hne (hne : ∀ canonical, event.payload.runtimeId ≠ .uuid id canonical) :
        runtimeStatus (deployStep llm s (.health nodeId event)) id = some runtime.status :=
      (runtimeStatus_reconcile_of_ne hne).trans hs
    simp only [follow, DeployStep.reports]
    cases hid : event.payload.runtimeId with
    | missing | falsy | malformed => exact hne fun _ h => by rw [hid] at h; cases h
    | uuid runtimeId canonical =>
      by_cases h : runtimeId = id
      · subst h
        simp only [if_true, Option.elim_some]
        exact runtimeStatus_reconcile hr hc hid
      · simp only [if_neg h, Option.elim_none]
        refine hne fun _ h' => h ?_
        rw [hid] at h'
        cases h'
        rfl

theorem afterEvent_pending (h : isPending status) {t : HealthEventType} (ht : t ≠ .crashLoop) :
    afterEvent status t = status := by
  cases t with
  | crashLoop => exact absurd rfl ht
  | running | stopped | missing | unhealthy => cases status <;> first | rfl | cases h

theorem follow_pending {es : List DeployStep} (h : isPending status)
    (hes : ∀ e ∈ es, e.reports id ≠ some .crashLoop) : es.foldl (follow id) status = status := by
  induction es with
  | nil => rfl
  | cons e es ih =>
    have he : follow id status e = status := by
      unfold follow
      cases ht : e.reports id with
      | none => rfl
      | some t =>
        refine afterEvent_pending h fun hc => hes e List.mem_cons_self ?_
        rw [ht, hc]
    rw [List.foldl_cons, he]
    exact ih fun e' he' => hes e' (List.mem_cons_of_mem _ he')

/-- While a provisioning command of the runtime is in view, its health events decide the status as
`follow` tells, so that a runtime which is coming up keeps its status until a crash loop. -/
theorem pending_until_crashLoop {es : List DeployStep} (hs : runtimeStatus s id = some status)
    (H : Guarded (deployStep llm) (StaysInView llm id commandId) s es) :
    runtimeStatus (run (deployStep llm) s es) id = some (es.foldl (follow id) status) ∧
      (isPending status → (∀ e ∈ es, e.reports id ≠ some .crashLoop) →
        runtimeStatus (run (deployStep llm) s es) id = some status) := by
  have hrun : runtimeStatus (run (deployStep llm) s es) id =
      some (es.foldl (follow id) status) := by
    induction es generalizing s status with
    | nil => exact hs
    | cons e es ih => exact ih (deployStep_follow hs H.1) H.2
  refine ⟨hrun, fun hp hes => ?_⟩
  rw [hrun, follow_pending hp hes]

/-- A start command that has been sent. -/
def sentCommand : InfraNodeCommand :=
  { NodeControlService.queuedCommand ⟨900, false⟩ ⟨0, 1, 2⟩
      ⟨7, .startWorkload, ⟨.uuid 9 true, true, []⟩, none, none, none, some "start"⟩ "start" with
    status := .dispatched }

/-- A runtime that is starting, with a start command sent to its node. -/
def startingStore : Store :=
  let s := Store.oneRuntime 7 9
  { s with
    runtimes := s.runtimes.map ({ · with status := .starting })
    commands := [sentCommand] }

/-- A health event of the runtime. -/
def reported (t : HealthEventType) : DeployStep :=
  .health 7 ⟨t, ⟨.uuid 9 true, "llm-port-llama", none, none, none, none, none, none⟩⟩

theorem pending_startingStore : runtimeStatus (run (deployStep .plain) startingStore
      [reported .running, .control (.ack (seconds 1) 7 1 none), reported .unhealthy,
        reported .running, reported .stopped, reported .running]) 9 = some .starting := by
  have hguard : Guarded (deployStep .plain) (StaysInView .plain 9 1) startingStore
      [reported .running, .control (.ack (seconds 1) 7 1 none), reported .unhealthy,
        reported .running, reported .stopped, reported .running] := by decide
  exact (pending_until_crashLoop rfl hguard).2 rfl (by decide)

/-- A crash loop sets the status to error, and from there the next running event promotes. -/
theorem not_settledByResult : ¬ SettledByResult .plain := by
  intro h
  refine h startingStore 9 _ sentCommand [reported .crashLoop, reported .running] rfl rfl ?_
    (by decide) rfl
  exact ⟨rfl, rfl, rfl, rfl, rfl⟩

end LlmPort.Backend
