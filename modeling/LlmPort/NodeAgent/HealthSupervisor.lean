import LlmPort.Backend.NodeControl.HealthEvents

/-!
# The health supervisor

`health_supervisor.py`: a pass inspects the container of every tracked workload and reports what
changed since the last pass. The supervisor lives as long as the agent process; its passes are
cancelled with the stream they run beside.
-/

namespace LlmPort.NodeAgent

open Backend.NodeControl

/-- An entry of the agent's `workloads`; a container name that is not a text is `none`, a falsy port
is `""`. -/
structure WorkloadInfo where
  containerName : Option String
  containerPort : String
  deriving DecidableEq

/-- What `inspect` tells of a container: the status and the health status lowered, `""` when
absent. -/
structure ContainerState where
  status : String
  restartCount : Int
  exitCode : Option Int
  healthStatus : String
  deriving DecidableEq

inductive Inspection where
  /-- `inspect` raises. -/
  | failed
  /-- The pass is cancelled while it waits. -/
  | cancelled
  | missing
  | state (state : ContainerState)
  deriving DecidableEq

inductive PortAnswer where
  | failed
  | cancelled
  | port (hostPort : Option Nat)
  deriving DecidableEq

/-- What the container runtime answers while one workload is checked. -/
structure ContainerRuntime where
  inspect : String → Inspection
  port : String → String → PortAnswer

/-- `advertise_scheme` and `advertise_host` -/
structure Advertise where
  scheme : String
  host : String
  deriving DecidableEq

structure HealthSupervisor where
  /-- `_last_known_status`, `""` for no entry -/
  lastKnownStatus : Uuid → String
  /-- `_crash_loop_emitted`, 0 for no entry -/
  crashLoopEmitted : Uuid → Int
  /-- The health events in the event buffer. -/
  events : List HealthEvent

namespace HealthSupervisor

/-- A supervisor that has seen nothing. -/
def fresh : HealthSupervisor := ⟨fun _ => "", fun _ => 0, []⟩

def crashRestartThreshold : Int := 3

def emptyPayload (runtimeId : Uuid) (containerName : String) : HealthPayload where
  runtimeId := .uuid runtimeId true
  containerName
  endpointUrl := none
  status := none
  exitCode := none
  restartCount := none
  previousStatus := none
  healthStatus := none

def add (sup : HealthSupervisor) (eventType : HealthEventType) (payload : HealthPayload) :
    HealthSupervisor :=
  { sup with events := sup.events ++ [⟨eventType, payload⟩] }

def record (sup : HealthSupervisor) (runtimeId : Uuid) (status : String) : HealthSupervisor :=
  { sup with lastKnownStatus := Function.update sup.lastKnownStatus runtimeId status }

/-- `none` when the pass is cancelled at the port lookup. -/
def resolveEndpoint (advertise : Advertise) (answer : PortAnswer) : Option (Option EndpointUrl) :=
  match answer with
  | .cancelled => none
  | .failed | .port none => some none
  | .port (some hostPort) => some (some ⟨advertise.scheme, advertise.host, some hostPort, ""⟩)

/-- `prev_status or "unknown"` -/
def orUnknown (prev : String) : String := if prev = "" then "unknown" else prev

def runningPayload (runtimeId : Uuid) (containerName : String) (endpointUrl : Option EndpointUrl)
    (state : ContainerState) (prev : String) : HealthPayload :=
  { emptyPayload runtimeId containerName with
    endpointUrl
    restartCount := some state.restartCount
    previousStatus := some (orUnknown prev) }

def stoppedPayload (runtimeId : Uuid) (containerName : String) (state : ContainerState)
    (prev : String) : HealthPayload :=
  { emptyPayload runtimeId containerName with
    status := some state.status
    exitCode := some (state.exitCode.getD (-1))
    restartCount := some state.restartCount
    previousStatus := some (orUnknown prev) }

/-- The report of a status that differs from the one before. -/
def reportTransition (sup : HealthSupervisor) (advertise : Advertise) (runtime : ContainerRuntime)
    (runtimeId : Uuid) (containerName containerPort : String) (state : ContainerState)
    (prev : String) : Option HealthSupervisor :=
  if state.status = "running" then
    if prev ≠ "running" then
      (resolveEndpoint advertise (runtime.port containerName containerPort)).map fun endpointUrl =>
        sup.add .running (runningPayload runtimeId containerName endpointUrl state prev)
    else some sup
  else if state.status ∈ ["exited", "dead", "removing"] then
    if prev ≠ state.status ∧ prev ≠ "missing" then
      some (sup.add .stopped (stoppedPayload runtimeId containerName state prev))
    else some sup
  else some sup

def reportCrashLoop (sup : HealthSupervisor) (runtimeId : Uuid) (containerName : String)
    (state : ContainerState) : HealthSupervisor :=
  if state.restartCount ≥ crashRestartThreshold ∧
      state.restartCount > sup.crashLoopEmitted runtimeId then
    { sup with
      crashLoopEmitted := Function.update sup.crashLoopEmitted runtimeId state.restartCount }.add
      .crashLoop { emptyPayload runtimeId containerName with
        restartCount := some state.restartCount, status := some state.status }
  else sup

def reportUnhealthy (sup : HealthSupervisor) (runtimeId : Uuid) (containerName : String)
    (state : ContainerState) : HealthSupervisor :=
  if state.healthStatus = "unhealthy" then
    sup.add .unhealthy
      { emptyPayload runtimeId containerName with healthStatus := some state.healthStatus }
  else sup

/-- Check one container; `false` when the pass is cancelled meanwhile. -/
def checkContainer (sup : HealthSupervisor) (advertise : Advertise) (runtime : ContainerRuntime)
    (runtimeId : Uuid) (containerName containerPort : String) : HealthSupervisor × Bool :=
  match runtime.inspect containerName with
  | .failed => (sup, true)
  | .cancelled => (sup, false)
  | .missing =>
    ((sup.record runtimeId "missing").add .missing (emptyPayload runtimeId containerName), true)
  | .state state =>
    let prev := sup.lastKnownStatus runtimeId
    let sup := sup.record runtimeId state.status
    match sup.reportTransition advertise runtime runtimeId containerName containerPort state prev with
    -- the status is recorded before the port is looked up
    | none => (sup, false)
    | some sup => ((sup.reportCrashLoop runtimeId containerName state).reportUnhealthy runtimeId
        containerName state, true)

end HealthSupervisor

/-- The container a workload is checked by, and the port it listens on; a workload without a name is
skipped. -/
def WorkloadInfo.container (info : WorkloadInfo) : Option (String × String) :=
  (info.containerName.filter (· ≠ "")).map fun name =>
    (name, if info.containerPort = "" then "8000" else info.containerPort)

namespace HealthSupervisor

/-- `_check_all_workloads`, each workload with what the container runtime answers when its turn
comes. -/
def checkAllWorkloads (advertise : Advertise) (answers : Uuid → ContainerRuntime) :
    List (Uuid × WorkloadInfo) → HealthSupervisor → HealthSupervisor
  | [], sup => sup
  | (runtimeId, info) :: rest, sup =>
    match info.container with
    | none => checkAllWorkloads advertise answers rest sup
    | some (name, port) =>
      match sup.checkContainer advertise (answers runtimeId) runtimeId name port with
      | (sup, false) => sup
      | (sup, true) => checkAllWorkloads advertise answers rest sup

variable {sup : HealthSupervisor} {advertise : Advertise} {runtime : ContainerRuntime}
  {id id' : Uuid} {name port prev : String} {state : ContainerState}

/-- What reporting on one workload changes: events of that workload are added, and the status of no
other one. -/
structure Reports (id : Uuid) (sup sup' : HealthSupervisor) (new : List HealthEvent) : Prop where
  events : sup'.events = sup.events ++ new
  own : ∀ event ∈ new, event.payload.runtimeId = .uuid id true
  frame : ∀ id', id' ≠ id → sup'.lastKnownStatus id' = sup.lastKnownStatus id'

theorem Reports.refl : Reports id sup sup [] where
  events := (List.append_nil _).symm
  own _ h := by cases h
  frame _ _ := rfl

theorem Reports.trans {sup' sup'' : HealthSupervisor} {new new' : List HealthEvent}
    (h : Reports id sup sup' new) (h' : Reports id sup' sup'' new') :
    Reports id sup sup'' (new ++ new') where
  events := by rw [h'.events, h.events, List.append_assoc]
  own event he := (List.mem_append.1 he).elim (h.own event) (h'.own event)
  frame id' hne := (h'.frame id' hne).trans (h.frame id' hne)

theorem Reports.record {status : String} : Reports id sup (sup.record id status) [] where
  events := (List.append_nil _).symm
  own _ h := by cases h
  frame _ hne := Function.update_of_ne hne ..

theorem Reports.add {eventType : HealthEventType} {payload : HealthPayload}
    (h : payload.runtimeId = .uuid id true) :
    Reports id sup (sup.add eventType payload) [⟨eventType, payload⟩] where
  events := rfl
  own _ he := by rw [List.mem_singleton.1 he, h]
  frame _ _ := rfl

theorem Reports.crashLoop (id : Uuid) (sup : HealthSupervisor) (name : String)
    (state : ContainerState) : ∃ new, Reports id sup (sup.reportCrashLoop id name state) new ∧
    ∀ event ∈ new, event.eventType ≠ .running := by
  unfold reportCrashLoop
  split
  · refine ⟨_, ⟨rfl, fun _ he => ?_, fun _ _ => rfl⟩, fun _ he => ?_⟩
    · rw [List.mem_singleton.1 he]
      rfl
    · rw [List.mem_singleton.1 he]
      nofun
  · exact ⟨[], .refl, fun _ he => by cases he⟩

theorem Reports.unhealthy (id : Uuid) (sup : HealthSupervisor) (name : String)
    (state : ContainerState) : ∃ new, Reports id sup (sup.reportUnhealthy id name state) new ∧
    ∀ event ∈ new, event.eventType ≠ .running := by
  unfold reportUnhealthy
  split
  · refine ⟨_, .add rfl, fun _ he => ?_⟩
    rw [List.mem_singleton.1 he]
    nofun
  · exact ⟨[], .refl, fun _ he => by cases he⟩

@[simp] theorem reportCrashLoop_lastKnownStatus :
    (sup.reportCrashLoop id name state).lastKnownStatus = sup.lastKnownStatus := by
  unfold reportCrashLoop
  split <;> rfl

@[simp] theorem reportUnhealthy_lastKnownStatus :
    (sup.reportUnhealthy id name state).lastKnownStatus = sup.lastKnownStatus := by
  unfold reportUnhealthy
  split <;> rfl

theorem Reports.transition {sup' : HealthSupervisor}
    (h : sup.reportTransition advertise runtime id name port state prev = some sup') :
    ∃ new, Reports id sup sup' new := by
  unfold reportTransition at h
  split at h
  · split at h
    · obtain ⟨endpointUrl, -, rfl⟩ := Option.map_eq_some_iff.1 h
      exact ⟨_, .add rfl⟩
    · cases h
      exact ⟨[], .refl⟩
  split at h
  · split at h
    · cases h
      exact ⟨_, .add rfl⟩
    · cases h
      exact ⟨[], .refl⟩
  · cases h
    exact ⟨[], .refl⟩

/-- The reports that follow the transition are not running events. -/
theorem Reports.conditions (id : Uuid) (sup : HealthSupervisor) (name : String)
    (state : ContainerState) : ∃ new,
    Reports id sup ((sup.reportCrashLoop id name state).reportUnhealthy id name state) new ∧
      ∀ event ∈ new, event.eventType ≠ .running := by
  obtain ⟨new, h, hn⟩ := Reports.crashLoop id sup name state
  obtain ⟨new', h', hn'⟩ := Reports.unhealthy id (sup.reportCrashLoop id name state) name state
  exact ⟨_, h.trans h', fun event he => (List.mem_append.1 he).elim (hn event) (hn' event)⟩

/-- Whatever the container runtime answers, a check reports on its own workload only. -/
theorem Reports.check (sup : HealthSupervisor) (advertise : Advertise) (runtime : ContainerRuntime)
    (id : Uuid) (name port : String) :
    ∃ new, Reports id sup (sup.checkContainer advertise runtime id name port).1 new := by
  unfold checkContainer
  split
  · exact ⟨[], .refl⟩
  · exact ⟨[], .refl⟩
  · exact ⟨_, Reports.record.trans (.add rfl)⟩
  next state _ =>
    simp only
    split
    · exact ⟨[], .record⟩
    next sup' htr =>
      obtain ⟨new, hnew⟩ := Reports.transition htr
      obtain ⟨new', hnew', -⟩ := Reports.conditions id sup' name state
      exact ⟨_, (Reports.record.trans hnew).trans hnew'⟩

/-- The container runtime finds the container up, and is not interrupted. -/
structure FoundRunning (runtime : ContainerRuntime) (name port : String) : Prop where
  inspect : ∃ state, runtime.inspect name = .state state ∧ state.status = "running"
  port : runtime.port name port ≠ .cancelled

/-- The check completes. -/
structure Uninterrupted (runtime : ContainerRuntime) (name port : String) : Prop where
  inspect : runtime.inspect name ≠ .cancelled
  port : runtime.port name port ≠ .cancelled

theorem FoundRunning.uninterrupted (h : FoundRunning runtime name port) :
    Uninterrupted runtime name port := by
  obtain ⟨state, hi, -⟩ := h.inspect
  exact ⟨by rw [hi]; nofun, h.port⟩

theorem resolveEndpoint_isSome (advertise : Advertise) {answer : PortAnswer}
    (h : answer ≠ .cancelled) :
    (resolveEndpoint advertise answer).isSome := by
  unfold resolveEndpoint
  split
  · exact absurd rfl h
  all_goals rfl

theorem reportTransition_isSome (h : runtime.port name port ≠ .cancelled) :
    (sup.reportTransition advertise runtime id name port state prev).isSome := by
  unfold reportTransition
  split
  · split
    · rw [Option.isSome_map]
      exact resolveEndpoint_isSome advertise h
    · rfl
  · split
    · split <;> rfl
    · rfl

theorem checkContainer_completes (sup : HealthSupervisor) (advertise : Advertise) (id : Uuid)
    (h : Uninterrupted runtime name port) :
    (sup.checkContainer advertise runtime id name port).2 = true := by
  unfold checkContainer
  split
  · rfl
  next hi => exact absurd hi h.inspect
  · rfl
  · simp only
    split
    next hn => exact absurd hn (Option.isSome_iff_ne_none.1 (reportTransition_isSome h.port))
    next => rfl

/-- The transition of a container found up is reported as a running event exactly if the status
known before was another one. -/
theorem reportTransition_running (sup : HealthSupervisor) (advertise : Advertise) (id : Uuid)
    (prev : String) (hs : state.status = "running")
    (hp : runtime.port name port ≠ .cancelled) :
    ∃ sup' new, sup.reportTransition advertise runtime id name port state prev = some sup' ∧
      Reports id sup sup' new ∧ sup'.lastKnownStatus = sup.lastKnownStatus ∧
      ((∃ event ∈ new, event.eventType = .running) ↔ prev ≠ "running") := by
  unfold reportTransition
  rw [if_pos hs]
  by_cases hprev : prev = "running"
  · rw [if_neg (not_not_intro hprev)]
    exact ⟨sup, [], rfl, .refl, rfl, by simp [hprev]⟩
  · rw [if_pos hprev]
    obtain ⟨endpointUrl, he⟩ := Option.isSome_iff_exists.1
      (resolveEndpoint_isSome advertise hp)
    rw [he]
    exact ⟨_, _, rfl, .add rfl, rfl, by simp [hprev]⟩

/-- The check of a container that is up. -/
theorem checkContainer_running (sup : HealthSupervisor) (advertise : Advertise) (id : Uuid)
    (h : FoundRunning runtime name port) :
    ∃ new, Reports id sup (sup.checkContainer advertise runtime id name port).1 new ∧
      (sup.checkContainer advertise runtime id name port).1.lastKnownStatus id = "running" ∧
      ((∃ event ∈ new, event.eventType = .running) ↔ sup.lastKnownStatus id ≠ "running") := by
  obtain ⟨state, hi, hs⟩ := h.inspect
  obtain ⟨sup', new, htr, hnew, hk, hrun⟩ := reportTransition_running
    (sup.record id state.status) advertise id (sup.lastKnownStatus id) hs h.port
  obtain ⟨new', hnew', hno⟩ := Reports.conditions id sup' name state
  unfold checkContainer
  simp only [hi, htr]
  refine ⟨_, (Reports.record.trans hnew).trans hnew', ?_, ?_⟩
  · rw [reportUnhealthy_lastKnownStatus, reportCrashLoop_lastKnownStatus, hk]
    exact (Function.update_self ..).trans hs
  · rw [← hrun, List.nil_append]
    constructor
    · rintro ⟨event, he, hr⟩
      obtain he | he := List.mem_append.1 he
      · exact ⟨event, he, hr⟩
      · exact absurd hr (hno event he)
    · rintro ⟨event, he, hr⟩
      exact ⟨event, List.mem_append_left _ he, hr⟩

/-- The pass comes to a workload of the id. -/
def Tracked (workloads : List (Uuid × WorkloadInfo)) (id : Uuid) : Prop :=
  ∃ info, (id, info) ∈ workloads ∧ info.container.isSome

/-- The events are of a running container of the workload. -/
def RunningEventOf (id : Uuid) (event : HealthEvent) : Prop :=
  event.eventType = .running ∧ event.payload.runtimeId = .uuid id true

theorem tracked_cons {id' : Uuid} {info : WorkloadInfo} {rest : List (Uuid × WorkloadInfo)} :
    Tracked ((id', info) :: rest) id ↔ (id = id' ∧ info.container.isSome) ∨ Tracked rest id := by
  constructor
  · rintro ⟨info', hm, hs⟩
    obtain hm | hm := List.mem_cons.1 hm
    · cases hm
      exact .inl ⟨rfl, hs⟩
    · exact .inr ⟨info', hm, hs⟩
  · rintro (⟨rfl, hs⟩ | ⟨info', hm, hs⟩)
    · exact ⟨info, List.mem_cons_self, hs⟩
    · exact ⟨info', List.mem_cons_of_mem _ hm, hs⟩

theorem Reports.not_running {sup' : HealthSupervisor} {new : List HealthEvent}
    (h : Reports id' sup sup' new) (hne : id ≠ id') : ∀ event ∈ new, ¬ RunningEventOf id event := by
  rintro event he ⟨-, hid⟩
  rw [h.own event he] at hid
  cases hid
  exact hne rfl

/-- A complete pass reports a workload whose container is up as running exactly if it knew another
status of it before. -/
theorem checkAllWorkloads_running (advertise : Advertise) {answers : Uuid → ContainerRuntime}
    (workloads : List (Uuid × WorkloadInfo)) (sup : HealthSupervisor)
    (hall : ∀ w ∈ workloads, ∀ c ∈ w.2.container, Uninterrupted (answers w.1) c.1 c.2)
    (hup : ∀ info, (id, info) ∈ workloads → ∀ c ∈ info.container,
      FoundRunning (answers id) c.1 c.2) :
    ∃ new, (checkAllWorkloads advertise answers workloads sup).events = sup.events ++ new ∧
      ((∃ event ∈ new, RunningEventOf id event) ↔
        Tracked workloads id ∧ sup.lastKnownStatus id ≠ "running") := by
  induction workloads generalizing sup with
  | nil => exact ⟨[], (List.append_nil _).symm, by simp [Tracked]⟩
  | cons w rest ih =>
    obtain ⟨id', info⟩ := w
    have hall' := fun w hw => hall w (List.mem_cons_of_mem _ hw)
    have hup' := fun info hi => hup info (List.mem_cons_of_mem _ hi)
    unfold checkAllWorkloads
    rw [tracked_cons]
    cases hc : info.container with
    | none =>
      obtain ⟨new, he, hiff⟩ := ih sup hall' hup'
      exact ⟨new, he, hiff.trans (and_congr_left fun _ => by simp)⟩
    | some c =>
      obtain ⟨name, port⟩ := c
      dsimp only
      have hdone := checkContainer_completes sup advertise id' (hall _ List.mem_cons_self _ hc)
      by_cases hid : id = id'
      · subst hid
        obtain ⟨new, hrep, hk, hrun⟩ := checkContainer_running sup advertise id
          (hup info List.mem_cons_self _ hc)
        generalize sup.checkContainer advertise (answers id) id name port = checked at *
        obtain ⟨sup', done⟩ := checked
        cases hdone
        obtain ⟨new', he', hiff'⟩ := ih sup' hall' hup'
        refine ⟨new ++ new', by rw [he', hrep.events, List.append_assoc], ?_⟩
        -- the later checks of the id, if any, know it as running
        have hno : ¬ ∃ event ∈ new', RunningEventOf id event := by
          rw [hiff']
          exact fun h => h.2 hk
        simp only [Option.isSome_some, true_and, true_or]
        rw [← hrun]
        constructor
        · rintro ⟨event, he, hr⟩
          obtain he | he := List.mem_append.1 he
          · exact ⟨event, he, hr.1⟩
          · exact absurd ⟨event, he, hr⟩ hno
        · rintro ⟨event, he, hr⟩
          exact ⟨event, List.mem_append_left _ he, hr, hrep.own event he⟩
      · obtain ⟨new, hrep⟩ := Reports.check sup advertise (answers id') id' name port
        generalize sup.checkContainer advertise (answers id') id' name port = checked at *
        obtain ⟨sup', done⟩ := checked
        cases hdone
        obtain ⟨new', he', hiff'⟩ := ih sup' hall' hup'
        refine ⟨new ++ new', by rw [he', hrep.events, List.append_assoc], ?_⟩
        have hk : sup'.lastKnownStatus id = sup.lastKnownStatus id := hrep.frame id hid
        simp only [hid, false_and, false_or]
        rw [← hk, ← hiff']
        constructor
        · rintro ⟨event, he, hr⟩
          obtain he | he := List.mem_append.1 he
          · exact absurd hr (hrep.not_running hid event he)
          · exact ⟨event, he, hr⟩
        · rintro ⟨event, he, hr⟩
          exact ⟨event, List.mem_append_right _ he, hr⟩

/-- A pass only adds to the buffer. -/
theorem checkAllWorkloads_events (advertise : Advertise) (answers : Uuid → ContainerRuntime)
    (workloads : List (Uuid × WorkloadInfo)) (sup : HealthSupervisor) :
    ∃ new, (checkAllWorkloads advertise answers workloads sup).events = sup.events ++ new := by
  induction workloads generalizing sup with
  | nil => exact ⟨[], (List.append_nil _).symm⟩
  | cons w rest ih =>
    obtain ⟨id', info⟩ := w
    unfold checkAllWorkloads
    split
    · exact ih sup
    next name port _ =>
      obtain ⟨new, hrep⟩ := Reports.check sup advertise (answers id') id' name port
      generalize sup.checkContainer advertise (answers id') id' name port = checked at *
      obtain ⟨sup', done⟩ := checked
      cases done with
      | false => exact ⟨new, hrep.events⟩
      | true =>
        obtain ⟨new', he⟩ := ih sup'
        exact ⟨new ++ new', by rw [← List.append_assoc, ← hrep.events]; exact he⟩

end HealthSupervisor

end LlmPort.NodeAgent
