import LlmPort.Backend.ControlPlane
import LlmPort.NodeAgent.HealthSupervisor

/-!
# Runtime health over a reconnect

The agent's health supervisor and the backend's runtime rows, with the event buffer between them.
The supervisor reports a container as running when it knew another status of it before; the backend
marks the runtimes of a node as failed when its last stream is lost. `converges_iff` says when the
two meet again.
-/

namespace LlmPort.NodeStream

open Transition Backend Backend.NodeControl NodeControlService Backend.Llm NodeAgent HealthSupervisor

structure HealthSys where
  store : Store
  supervisor : HealthSupervisor
  /-- The agent's tracked workloads. -/
  workloads : List (Uuid × WorkloadInfo)
  connected : Bool

inductive HealthStep where
  /-- One pass of the supervisor, as far as it is not cancelled. -/
  | pass (answers : Uuid → ContainerRuntime)
  /-- The oldest event of the buffer is flushed and recorded. -/
  | deliver
  /-- A batch is drained and its frame is lost with the stream. -/
  | lose (n : Nat)
  | disconnect (sessionId : Uuid)
  | connect (sessionId : Uuid)
  /-- A command of the agent changes its tracked workloads. -/
  | track (workloads : List (Uuid × WorkloadInfo))
  /-- Any other call of the control plane. -/
  | control (e : ControlEvent)

def HealthStep.isPass : HealthStep → Bool
  | pass _ => true
  | _ => false

def HealthStep.isDeliver : HealthStep → Bool
  | deliver => true
  | _ => false

def HealthStep.isLose : HealthStep → Bool
  | lose _ => true
  | _ => false

/-- What the node and its backend are configured with. -/
structure HealthConfig where
  llm : LLMService
  nodeId : Uuid
  advertise : Advertise

namespace HealthSys

variable (cfg : HealthConfig)

def step (sys : HealthSys) : HealthStep → HealthSys
  | .pass answers =>
    if sys.connected then
      { sys with
        supervisor := checkAllWorkloads cfg.advertise answers sys.workloads sys.supervisor }
    else sys
  | .deliver =>
    if sys.connected then
      match sys.supervisor.events with
      | [] => sys
      | event :: events =>
        { sys with
          store := cfg.llm.nodeControl.reconcileRuntimeFromEvent cfg.nodeId event sys.store
          supervisor := { sys.supervisor with events } }
    else sys
  | .lose n =>
    { sys with supervisor := { sys.supervisor with events := sys.supervisor.events.drop n } }
  | .disconnect sessionId =>
    { sys with
      store := cfg.llm.nodeControl.closeStreamSession sessionId sys.store, connected := false }
  | .connect sessionId =>
    { sys with store := createStreamSession sessionId cfg.nodeId sys.store, connected := true }
  | .track workloads => { sys with workloads }
  | .control e => { sys with store := controlStep cfg.llm sys.store e }

/-- Nothing but the agent's health events touches the status of the runtime, and the stream
stays. -/
def Undisturbed (id : Uuid) (sys : HealthSys) : HealthStep → Prop
  | .disconnect _ => False
  | .control e => runtimeStatus (controlStep cfg.llm sys.store e) id = runtimeStatus sys.store id
  | _ => True

end HealthSys

open HealthSys

variable {cfg : HealthConfig} {sys : HealthSys} {e : HealthStep} {es : List HealthStep} {id : Uuid}

/-- The stream is lost, the backend demotes the running runtime, the agent comes back, and its first
pass finds the container up. -/
structure Reconnection (cfg : HealthConfig) (id : Uuid) (lost : HealthSys) (sessionId : Uuid)
    (away : List HealthStep) (answers : Uuid → ContainerRuntime) (back : HealthSys) : Prop where
  wasRunning : runtimeStatus lost.store id = some .running
  demoted : runtimeStatus (lost.step cfg (.disconnect sessionId)).store id = some .error
  undisturbed :
    Guarded (HealthSys.step cfg) (Undisturbed cfg id) (lost.step cfg (.disconnect sessionId)) away
  noPass : ∀ e ∈ away, e.isPass = false
  back_eq : back = run (HealthSys.step cfg) (lost.step cfg (.disconnect sessionId)) away
  connected : back.connected
  tracked : Tracked back.workloads id
  complete : ∀ w ∈ back.workloads, ∀ c ∈ w.2.container, Uninterrupted (answers w.1) c.1 c.2
  running : ∀ info, (id, info) ∈ back.workloads → ∀ c ∈ info.container,
    FoundRunning (answers id) c.1 c.2

/-- The pass adds a running event of the workload to the buffer, and once the buffer is delivered up
to it the runtime is recorded as running. -/
def Converges (cfg : HealthConfig) (id : Uuid) (back : HealthSys)
    (answers : Uuid → ContainerRuntime) : Prop :=
  ∃ k event, (back.step cfg (.pass answers)).supervisor.events[k]? = some event ∧
    back.supervisor.events.length ≤ k ∧ RunningEventOf id event ∧
    ∀ after, Guarded (HealthSys.step cfg) (Undisturbed cfg id) (back.step cfg (.pass answers)) after →
      (∀ e ∈ after, e.isLose = false) → after.countP (·.isDeliver) = k →
      runtimeStatus (run (HealthSys.step cfg) (back.step cfg (.pass answers))
        (after ++ [.deliver])).store id = some .running

theorem lastKnownStatus_step (h : e.isPass = false) :
    (sys.step cfg e).supervisor.lastKnownStatus = sys.supervisor.lastKnownStatus := by
  cases e with
  | pass answers => cases h
  | deliver =>
    simp only [HealthSys.step]
    split
    · split <;> rfl
    · rfl
  | _ => rfl

theorem lastKnownStatus_run (h : ∀ e ∈ es, e.isPass = false) :
    (run (HealthSys.step cfg) sys es).supervisor.lastKnownStatus = sys.supervisor.lastKnownStatus := by
  induction es generalizing sys with
  | nil => rfl
  | cons e es ih =>
    rw [run_cons, ih fun e he => h e (List.mem_cons_of_mem _ he)]
    exact lastKnownStatus_step (h e List.mem_cons_self)

/-- An undisturbed step leaves the runtime in error or running. -/
theorem errorOrRunning_step (h : ErrorOrRunning sys.store id) (hu : Undisturbed cfg id sys e) :
    ErrorOrRunning (sys.step cfg e).store id := by
  cases e with
  | pass answers =>
    simp only [HealthSys.step]
    split <;> exact h
  | deliver =>
    simp only [HealthSys.step]
    split
    · split
      · exact h
      · exact h.reconcile
    · exact h
  | disconnect sessionId => exact hu.elim
  | control e => exact h.congr hu
  | _ => exact h

theorem errorOrRunning_run (h : ErrorOrRunning sys.store id)
    (hu : Guarded (HealthSys.step cfg) (Undisturbed cfg id) sys es) :
    ErrorOrRunning (run (HealthSys.step cfg) sys es).store id :=
  hu.invariant (I := fun sys => ErrorOrRunning sys.store id)
    (fun _ _ h hu => errorOrRunning_step h hu) h

/-- An undisturbed step that loses nothing takes from the front of the buffer what it delivers, and
adds at the end. -/
theorem buffer_step {l : List HealthEvent} (hc : sys.connected) (hu : Undisturbed cfg id sys e)
    (hl : e.isLose = false) (h : ∃ new, sys.supervisor.events = l ++ new)
    (hd : [e].countP (·.isDeliver) ≤ l.length) :
    (sys.step cfg e).connected ∧ ∃ new, (sys.step cfg e).supervisor.events =
      l.drop ([e].countP (·.isDeliver)) ++ new := by
  obtain ⟨new, hn⟩ := h
  cases e with
  | pass answers =>
    obtain ⟨new', he⟩ := checkAllWorkloads_events cfg.advertise answers sys.workloads sys.supervisor
    simp only [HealthSys.step, if_pos hc]
    exact ⟨hc, new ++ new', by rw [he, hn, List.append_assoc]; rfl⟩
  | deliver =>
    cases l with
    | nil => exact absurd hd (Nat.not_succ_le_zero 0)
    | cons event l =>
      simp only [HealthSys.step, if_pos hc, hn, List.cons_append]
      exact ⟨hc, new, rfl⟩
  | lose n => cases hl
  | disconnect sessionId => exact hu.elim
  | connect sessionId => exact ⟨rfl, new, hn⟩
  | track workloads => exact ⟨hc, new, hn⟩
  | control e => exact ⟨hc, new, hn⟩

theorem buffer_run {l : List HealthEvent} (hc : sys.connected)
    (hu : Guarded (HealthSys.step cfg) (Undisturbed cfg id) sys es)
    (hl : ∀ e ∈ es, e.isLose = false) (h : ∃ new, sys.supervisor.events = l ++ new)
    (hd : es.countP (·.isDeliver) ≤ l.length) :
    (run (HealthSys.step cfg) sys es).connected ∧
      ∃ new, (run (HealthSys.step cfg) sys es).supervisor.events =
        l.drop (es.countP (·.isDeliver)) ++ new := by
  induction es generalizing sys l with
  | nil => exact ⟨hc, h⟩
  | cons e es ih =>
    rw [← List.singleton_append, List.countP_append] at hd ⊢
    obtain ⟨hc', h'⟩ := buffer_step hc hu.1 (hl e List.mem_cons_self) h (by omega)
    have := ih hc' hu.2 (fun e he => hl e (List.mem_cons_of_mem _ he)) h'
      (by rw [List.length_drop]; omega)
    rw [List.drop_drop] at this
    exact this

/-- Once the buffer is delivered up to a running event, the runtime is recorded as running. -/
theorem recorded_running {passed : HealthSys} {k : Nat} {event : HealthEvent}
    (hc : passed.connected) (hst : ErrorOrRunning passed.store id)
    (hk : passed.supervisor.events[k]? = some event) (hev : RunningEventOf id event)
    (hu : Guarded (HealthSys.step cfg) (Undisturbed cfg id) passed es)
    (hl : ∀ e ∈ es, e.isLose = false) (hn : es.countP (·.isDeliver) = k) :
    runtimeStatus (run (HealthSys.step cfg) passed (es ++ [.deliver])).store id = some .running := by
  have hlt : k < passed.supervisor.events.length := (List.getElem?_eq_some_iff.1 hk).1
  obtain ⟨hc', new, hb⟩ := buffer_run hc hu hl ⟨[], (List.append_nil _).symm⟩ (by omega)
  have hst' : ErrorOrRunning (run (HealthSys.step cfg) passed es).store id :=
    errorOrRunning_run hst hu
  rw [hn, List.drop_eq_getElem_cons hlt, (List.getElem?_eq_some_iff.1 hk).2, List.cons_append] at hb
  rw [run_snoc]
  simp only [HealthSys.step, if_pos hc', hb]
  exact (runtimeStatus_reconcile_self hev.2 hst').2 hev.1

/-- After a reconnect the agent reports the workload and the backend records it as running again
exactly if the supervisor's last known status of it was not running when the stream was lost. -/
theorem converges_iff (cfg : HealthConfig) (id : Uuid) (sys : HealthSys) (history : List HealthStep)
    (sessionId : Uuid) (away : List HealthStep) (answers : Uuid → ContainerRuntime)
    (back : HealthSys)
    (h : Reconnection cfg id (run (HealthSys.step cfg) sys history) sessionId away answers back) :
    Converges cfg id back answers ↔
      (run (HealthSys.step cfg) sys history).supervisor.lastKnownStatus id ≠ "running" := by
  have hknown : back.supervisor.lastKnownStatus id =
      (run (HealthSys.step cfg) sys history).supervisor.lastKnownStatus id := by
    rw [h.back_eq, lastKnownStatus_run h.noPass, lastKnownStatus_step rfl]
  have hst : ErrorOrRunning back.store id := by
    rw [h.back_eq]
    exact errorOrRunning_run (.inl h.demoted) h.undisturbed
  obtain ⟨new, hb, hrun⟩ := checkAllWorkloads_running cfg.advertise back.workloads
    back.supervisor h.complete h.running
  have hpass : back.step cfg (.pass answers) = { back with
      supervisor := checkAllWorkloads cfg.advertise answers back.workloads back.supervisor } :=
    if_pos h.connected
  rw [← hknown]
  constructor
  · rintro ⟨k, event, hk, hge, hev, -⟩
    rw [hpass] at hk
    rw [hb, List.getElem?_append_right hge] at hk
    exact (hrun.1 ⟨event, List.mem_of_getElem? hk, hev⟩).2
  · intro hne
    obtain ⟨event, hm, hev⟩ := hrun.2 ⟨h.tracked, hne⟩
    obtain ⟨k, hk⟩ := List.mem_iff_getElem?.1 hm
    refine ⟨back.supervisor.events.length + k, event, ?_, Nat.le_add_right .., hev, ?_⟩
    · rw [hpass]
      rw [hb, List.getElem?_append_right (Nat.le_add_right ..), Nat.add_sub_cancel_left]
      exact hk
    · intro after hu hl hn
      refine recorded_running ?_ ?_ ?_ hev hu hl hn
      · rw [hpass]
        exact h.connected
      · rw [hpass]
        exact hst
      · rw [hpass]
        rw [hb, List.getElem?_append_right (Nat.le_add_right ..), Nat.add_sub_cancel_left]
        exact hk

/-- A container that is up under any name. -/
def upRuntime : ContainerRuntime :=
  ⟨fun _ => .state ⟨"running", 0, none, ""⟩, fun _ _ => .port (some 8000)⟩

/-- An agent with one workload and its stream, and the backend with the runtime running. -/
def oneWorkload : HealthSys where
  store :=
    let s := Store.oneRuntime 7 9
    { s with
      runtimes := s.runtimes.map ({ · with status := .running })
      sessions := [⟨5, 7, true, 0⟩] }
  supervisor := .fresh
  workloads := [(9, ⟨some "llm-port-llama", ""⟩)]
  connected := true

def oneWorkloadConfig : HealthConfig := ⟨.plain, 7, ⟨"http", "10.0.0.7"⟩⟩

theorem upRuntime_foundRunning (c : String × String) : FoundRunning upRuntime c.1 c.2 :=
  ⟨⟨_, rfl, rfl⟩, nofun⟩

/-- The backend demotes the runtime of `oneWorkload`, whatever the supervisor knows. -/
theorem reconnection_oneWorkload {lost : HealthSys} (hs : lost.store = oneWorkload.store)
    (hw : lost.workloads = oneWorkload.workloads) :
    Reconnection oneWorkloadConfig 9 lost 5 [.connect 6] (fun _ => upRuntime)
      (run (HealthSys.step oneWorkloadConfig) lost [.disconnect 5, .connect 6]) := by
  obtain ⟨store, supervisor, workloads, connected⟩ := lost
  cases hs
  cases hw
  exact {
    wasRunning := rfl
    demoted := rfl
    undisturbed := ⟨trivial, trivial⟩
    noPass := by decide
    back_eq := rfl
    connected := rfl
    tracked := ⟨_, List.mem_singleton_self _, rfl⟩
    complete := fun _ _ c _ => (upRuntime_foundRunning c).uninterrupted
    running := fun _ _ c _ => upRuntime_foundRunning c }

/-- The stream is lost before the supervisor has seen the container. -/
theorem converges_unseen :
    Converges oneWorkloadConfig 9
      (run (HealthSys.step oneWorkloadConfig) oneWorkload [.disconnect 5, .connect 6])
      (fun _ => upRuntime) :=
  (converges_iff oneWorkloadConfig 9 oneWorkload [] 5 [.connect 6] (fun _ => upRuntime) _
    (reconnection_oneWorkload rfl rfl)).2 (by decide)

/-- The supervisor has reported the container before the stream is lost: its first pass after the
reconnect reports nothing. -/
theorem not_converges_seen :
    ¬ ∀ lost back, Reconnection oneWorkloadConfig 9 lost 5 [.connect 6] (fun _ => upRuntime) back →
      Converges oneWorkloadConfig 9 back (fun _ => upRuntime) := by
  intro h
  have hseen := h (run (HealthSys.step oneWorkloadConfig) oneWorkload [.pass fun _ => upRuntime]) _
    (reconnection_oneWorkload rfl rfl)
  obtain ⟨k, event, hk, hge, -⟩ := hseen
  cases k with
  | zero => exact absurd hge (by decide)
  | succ k => cases hk

end LlmPort.NodeStream
