import Mathlib.Data.List.Infix
import Mathlib.Data.List.Pairwise
import Mathlib.Logic.Function.Basic
import LlmPort.Transition.Run
import LlmPort.Backend.NodeControl.Model

/-!
# Who may do what to a container

`services/policy/enforcement.py` decides by the class and the policy that the registry has for a
container and by whether the user has an active root session. The requests of the container and root
mode views read these when they are admitted and act, and write, when they finish; between the two,
other requests finish.
-/

namespace LlmPort.Backend.Containers

open Transition NodeControl

inductive Action where
  | view | logsView | start | stop | restart | pause | unpause | exec | updateConfig | delete
  | imagePull | imagePrune | stackDeploy | stackUpdate | stackRollback
  deriving DecidableEq

def Action.value : Action → String
  | view => "container.view"
  | logsView => "container.logs.view"
  | start => "container.start"
  | stop => "container.stop"
  | restart => "container.restart"
  | pause => "container.pause"
  | unpause => "container.unpause"
  | exec => "container.exec"
  | updateConfig => "container.update_config"
  | delete => "container.delete"
  | imagePull => "image.pull"
  | imagePrune => "image.prune"
  | stackDeploy => "stack.deploy"
  | stackUpdate => "stack.update"
  | stackRollback => "stack.rollback"

inductive ContainerClass where
  | systemCore | systemAux | mcp | tenantApp | untrusted
  deriving DecidableEq

def ContainerClass.value : ContainerClass → String
  | systemCore => "SYSTEM_CORE"
  | systemAux => "SYSTEM_AUX"
  | mcp => "MCP"
  | tenantApp => "TENANT_APP"
  | untrusted => "UNTRUSTED"

inductive ContainerPolicy where
  | locked | restricted | free
  deriving DecidableEq

/-! ## `PolicyEnforcer` -/

/-- `_ADMIN_ALLOW` -/
def adminAllow : ContainerClass → Action → Bool
  | .tenantApp, a => match a with
    | .view | .logsView | .start | .stop | .restart | .pause | .unpause | .exec | .updateConfig
    | .delete | .imagePull | .stackDeploy | .stackUpdate | .stackRollback => true
    | .imagePrune => false
  | .systemAux, a => match a with
    | .view | .logsView | .start | .stop | .restart | .imagePull => true
    | .pause | .unpause | .exec | .updateConfig | .delete | .imagePrune | .stackDeploy
    | .stackUpdate | .stackRollback => false
  | .mcp, a => match a with
    | .view | .logsView | .start | .stop | .restart | .imagePull => true
    | .pause | .unpause | .exec | .updateConfig | .delete | .imagePrune | .stackDeploy
    | .stackUpdate | .stackRollback => false
  | .systemCore, a => match a with
    | .view | .logsView | .start | .restart | .imagePull => true
    | .stop | .pause | .unpause | .exec | .updateConfig | .delete | .imagePrune | .stackDeploy
    | .stackUpdate | .stackRollback => false
  | .untrusted, a => match a with
    | .view | .logsView => true
    | .start | .stop | .restart | .pause | .unpause | .exec | .updateConfig | .delete | .imagePull
    | .imagePrune | .stackDeploy | .stackUpdate | .stackRollback => false

/-- `_LOCKED_DENY_ACTIONS` -/
def lockedDenyActions : List Action := [.stop, .pause, .exec, .updateConfig, .delete]

/-- `PolicyEnforcer.check` -/
def check (action : Action) (cls : ContainerClass) (policy : ContainerPolicy)
    (rootModeActive : Bool) : Bool :=
  if policy = .locked ∧ action ∈ lockedDenyActions then false
  else if rootModeActive then true
  else adminAllow cls action

/-- `PolicyEnforcer.enforce`, with the detail of the 403. -/
def enforce (action : Action) (cls : ContainerClass) (policy : ContainerPolicy)
    (rootModeActive : Bool) : Except String Unit :=
  if check action cls policy rootModeActive then .ok ()
  else .error <| "Action '" ++ action.value ++ "' is not permitted on " ++ cls.value ++
    " containers" ++ (if rootModeActive = false ∧ (cls = .systemCore ∨ cls = .systemAux) then
      ". Activate Root Mode for elevated access." else "")

/-! ## Tables -/

structure ContainerRegistry where
  containerId : String
  name : List Char
  containerClass : ContainerClass
  ownerScope : String
  policy : ContainerPolicy
  deriving DecidableEq

structure RootSession where
  id : Uuid
  actorId : Uuid
  startTime : Time
  endTime : Option Time
  reason : List Char
  scope : String
  durationSeconds : Nat
  deriving DecidableEq

inductive AuditResult where
  | allow | deny
  deriving DecidableEq

structure AuditEvent where
  actorId : Uuid
  action : String
  targetId : String
  result : AuditResult
  severity : String
  deriving DecidableEq

/-- `_AUTO_CLASS_RULES` -/
def autoClassRules : List (List String × ContainerClass × String) :=
  [(["postgres", "clickhouse", "redis", "nginx", "rabbitmq", "rmq", "minio", "loki", "grafana",
      "alloy", "langfuse", "llm-port-worker", "llm-port-web"], .systemCore, "platform"),
    (["llm-port-api", "llm_port_api", "llm-port-backend", "llm-port-frontend", "llm-port-mcp",
      "llm-port-skills", "llm-port-pii", "llm-port-rag", "llm-port-auth", "llm-port-mailer",
      "llm-port-docling", "llm-port-ee", "migrator"], .systemAux, "platform"),
    (["mcp-brave", "mcp-searxng", "mcp-"], .mcp, "platform")]

/-- `_classify_by_name` -/
def classifyByName (name : List Char) : ContainerClass × String :=
  let lower := name.map Char.toLower
  match autoClassRules.find? fun rule => rule.1.any fun s => decide (s.toList <:+: lower) with
  | some rule => rule.2
  | none => (.untrusted, "unknown")

/-- `_LIFECYCLE_ACTION_MAP` -/
def lifecycleActionMap : List (String × Action) :=
  [("start", .start), ("stop", .stop), ("restart", .restart), ("pause", .pause),
    ("unpause", .unpause)]

/-- `_severity` -/
def severity (rootMode : Bool) : String := if rootMode then "high" else "normal"

/-! ## Requests -/

inductive Endpoint where
  | createContainer (containerId : String) (name : List Char) (cls : ContainerClass)
      (ownerScope : String) (policy : ContainerPolicy)
  /-- With the containers that the engine reports. -/
  | listContainers (reported : List (String × List Char))
  | containerLifecycle (containerId action : String)
  | containerExec (containerId : String)
  | deleteContainer (containerId : String)
  /-- With the name under which the engine has the container, if it has it. -/
  | registerContainer (containerId : String) (found : Option (List Char)) (cls : ContainerClass)
      (ownerScope : String) (policy : ContainerPolicy)
  | startRootMode (id : Uuid) (reason : List Char) (scope : String) (durationSeconds : Nat)
  | stopRootMode
  deriving DecidableEq

namespace Endpoint

def containerId? : Endpoint → Option String
  | containerLifecycle id _ | containerExec id | deleteContainer id => some id
  | _ => none

/-- `get_root_mode_active` or `require_superuser` is among its dependencies. -/
def superuserOnly : Endpoint → Bool
  | createContainer .. | listContainers _ | registerContainer .. => false
  | _ => true

/-- The action of its `require_permission("containers", …)`. -/
def permission : Endpoint → Option String
  | createContainer .. => some "create"
  | listContainers _ => some "read"
  | containerLifecycle .. => some "start"
  | containerExec _ => some "exec"
  | deleteContainer _ => some "delete"
  | registerContainer .. => some "update"
  | startRootMode .. | stopRootMode => none

/-- The bounds of `StartRootModeRequest`. -/
def valid : Endpoint → Bool
  | startRootMode _ reason _ duration => 10 ≤ reason.length ∧ 60 ≤ duration ∧ duration ≤ 3600
  | _ => true

end Endpoint

/-- The users, as the dependencies see them. -/
structure Users where
  isSuperuser : Uuid → Bool
  hasPermission : Uuid → String → String → Bool

/-- `require_permission` -/
def Users.requirePermission (users : Users) (user : Uuid) (resource action : String) : Bool :=
  users.isSuperuser user || users.hasPermission user resource action

/-- A request with what its dependencies have read. -/
structure Request where
  user : Uuid
  superuser : Bool
  endpoint : Endpoint
  admittedAt : Time
  entry : ContainerRegistry
  /-- `RootSessionDAO.get_active` -/
  rootSession : Option RootSession
  /-- The ids in the registry. -/
  known : List String
  deriving DecidableEq

def Request.rootMode (r : Request) : Bool := r.rootSession.isSome

/-- A call that the engine has carried out for a request that is subject to the policy, with the id
of its path. -/
structure EngineCall where
  action : Action
  containerId : String
  request : Request
  deriving DecidableEq

/-- The call of the engine that a request makes, if the policy lets it. -/
def Request.call? (r : Request) : Option EngineCall :=
  let asked : Option EngineCall := match r.endpoint with
    | .containerLifecycle id name => (lifecycleActionMap.lookup name).map (⟨·, id, r⟩)
    | .containerExec id => some ⟨.exec, id, r⟩
    | .deleteContainer id => some ⟨.delete, id, r⟩
    | _ => none
  asked.filter fun call => check call.action r.entry.containerClass r.entry.policy r.rootMode

/-- How a request ends whose policy check passes. -/
inductive Ending where
  | done
  /-- The engine raises, whether or not it has done what it was asked to. -/
  | engineRaises (took : Bool)
  | commitRaises
  deriving DecidableEq

/-- The engine does what it is asked to, and the request fails. -/
def Ending.Lost (ending : Ending) : Prop := ending = .engineRaises true ∨ ending = .commitRaises

structure Platform where
  now : Time
  users : Users
  registry : List ContainerRegistry
  rootSessions : List RootSession
  audit : List AuditEvent
  engine : List EngineCall
  requests : Nat → Option Request

inductive PlatformEvent where
  | tick (d : Nat)
  | setUsers (users : Users)
  | arrive (r : Nat) (user : Uuid) (endpoint : Endpoint)
  | finish (r : Nat) (ending : Ending)

namespace Platform

def initial (now : Time) (users : Users) : Platform := ⟨now, users, [], [], [], [], fun _ => none⟩

variable (st : Platform)

/-- `get_registry_entry` -/
def registryEntry (containerId : String) : ContainerRegistry :=
  (st.registry.find? (·.containerId = containerId)).getD
    ⟨containerId, containerId.toList, .untrusted, "unknown", .restricted⟩

/-- `RootSessionDAO.get_active` -/
def getActive (actorId : Uuid) : Option RootSession :=
  st.rootSessions.find? fun s =>
    s.actorId = actorId ∧ s.endTime = none ∧ st.now - s.startTime < seconds s.durationSeconds

/-- `ContainerRegistryDAO.upsert` -/
def upsert (row : ContainerRegistry) (registry : List ContainerRegistry) : List ContainerRegistry :=
  if registry.any (·.containerId = row.containerId) then
    registry.map fun x => if x.containerId = row.containerId then row else x
  else registry ++ [row]

/-- The dependencies of an endpoint. -/
def admitted (user : Uuid) (endpoint : Endpoint) : Option Request :=
  if endpoint.valid ∧ (endpoint.superuserOnly → st.users.isSuperuser user) ∧
      (endpoint.permission.all fun action =>
        st.users.requirePermission user "containers" action) then
    some {
      user, endpoint
      superuser := st.users.isSuperuser user
      admittedAt := st.now
      entry := st.registryEntry (endpoint.containerId?.getD "")
      rootSession := st.getActive user
      known := st.registry.map (·.containerId) }
  else none

/-- `AuditDAO.log` with the result `ALLOW`; a `DENY` row is added to a session that is rolled
back, as the refusal is raised through it. -/
def log (r : Request) (action targetId severity : String) : Platform :=
  { st with audit := ⟨r.user, action, targetId, .allow, severity⟩ :: st.audit }

/-- What the body of an endpoint writes when it gets to its end. -/
def write (r : Request) : Platform :=
  match r.endpoint with
  | .createContainer id name cls scope policy =>
    log { st with registry := upsert ⟨id, name, cls, scope, policy⟩ st.registry } r
      "container.create" id "normal"
  | .listContainers reported => { st with
    registry := (reported.filter (·.1 ∉ r.known)).foldl (fun registry c =>
      let (cls, scope) := classifyByName c.2
      upsert ⟨c.1, c.2, cls, scope, .free⟩ registry) st.registry }
  | .containerLifecycle id name => st.log r ("container." ++ name) id (severity r.rootMode)
  | .containerExec id => st.log r "container.exec" id "high"
  | .deleteContainer id =>
    log { st with registry := st.registry.filter (·.containerId ≠ id) } r "container.delete" id
      (severity r.rootMode)
  | .registerContainer id found cls scope policy =>
    let name := found.getD []
    log { st with registry := upsert ⟨id, name, cls, scope, policy⟩ st.registry } r
      "container.register" id "normal"
  | .startRootMode id reason scope duration =>
    log { st with rootSessions := st.rootSessions ++
      [⟨id, r.user, r.admittedAt, none, reason, scope, duration⟩] } r
      "root_mode.start" (uuidStr id) "high"
  | .stopRootMode =>
    match r.rootSession with
    | none => st
    | some existing =>
      log { st with rootSessions := st.rootSessions.map fun s =>
        if s.id = existing.id then { s with endTime := some st.now } else s } r
        "root_mode.stop" (uuidStr existing.id) "high"

/-- The engine has carried out a call. -/
def called (call : EngineCall) : Platform := { st with engine := call :: st.engine }

/-- The policy check, the call of the engine, and what is written after it. -/
def guarded (r : Request) (action : Action) (containerId : String) (ending : Ending) : Platform :=
  if check action r.entry.containerClass r.entry.policy r.rootMode then
    match ending with
    | .done => (st.called ⟨action, containerId, r⟩).write r
    | .engineRaises took => if took then st.called ⟨action, containerId, r⟩ else st
    | .commitRaises => st.called ⟨action, containerId, r⟩
  else st

/-- What is written without the policy. -/
def commit (r : Request) (ending : Ending) : Platform :=
  match ending with
  | .done => st.write r
  | _ => st

/-- The body of an endpoint. -/
def handle (r : Request) (ending : Ending) : Platform :=
  match r.endpoint with
  | .createContainer .. | .listContainers _ => st.commit r ending
  | .containerLifecycle id name =>
    match lifecycleActionMap.lookup name with
    | none => st
    | some action => st.guarded r action id ending
  | .containerExec id => st.guarded r .exec id ending
  | .deleteContainer id => st.guarded r .delete id ending
  | .registerContainer _ found .. => if found.isSome then st.commit r ending else st
  | .startRootMode id .. =>
    if r.rootSession.isSome ∨ st.rootSessions.any (·.id = id) then st else st.commit r ending
  | .stopRootMode => if r.rootSession.isSome then st.commit r ending else st

def step (st : Platform) : PlatformEvent → Platform
  | .tick d => { st with now := st.now + d }
  | .setUsers users => { st with users }
  | .arrive r user endpoint =>
    if (st.requests r).isSome then st
    else { st with requests := Function.update st.requests r (st.admitted user endpoint) }
  | .finish r ending =>
    match st.requests r with
    | none => st
    | some request =>
      let handled := st.handle request ending
      { handled with requests := Function.update st.requests r none }

/-! ## What a request does -/

variable {st} {r : Request} {ending : Ending} {e : PlatformEvent} {es : List PlatformEvent}
  {now : Time} {users : Users} {call : EngineCall}

@[simp] theorem called_engine : (st.called call).engine = call :: st.engine := rfl
@[simp] theorem called_registry : (st.called call).registry = st.registry := rfl
@[simp] theorem called_rootSessions : (st.called call).rootSessions = st.rootSessions := rfl
@[simp] theorem called_audit : (st.called call).audit = st.audit := rfl
@[simp] theorem called_now : (st.called call).now = st.now := rfl
@[simp] theorem called_users : (st.called call).users = st.users := rfl
@[simp] theorem called_requests : (st.called call).requests = st.requests := rfl

/-- `r` is a request for the call, and the policy allows it. -/
structure Allowed (r : Request) (call : EngineCall) : Prop where
  request : call.request = r
  target : r.endpoint = .containerExec call.containerId ∧ call.action = .exec ∨
    r.endpoint = .deleteContainer call.containerId ∧ call.action = .delete ∨
    ∃ name, r.endpoint = .containerLifecycle call.containerId name ∧
      lifecycleActionMap.lookup name = some call.action
  checked : check call.action r.entry.containerClass r.entry.policy r.rootMode = true

/-- The endpoint is not subject to the policy, and its body gets to its end. -/
structure Unguarded (st : Platform) (r : Request) : Prop where
  target : r.endpoint.containerId? = none
  start : ∀ id reason scope duration, r.endpoint = .startRootMode id reason scope duration →
    r.rootSession = none ∧ ∀ s ∈ st.rootSessions, s.id ≠ id

/-- What has come of a request when it has finished. -/
inductive Outcome (st : Platform) (r : Request) : Ending → Platform → Prop where
  | nothing {ending : Ending} : Outcome st r ending st
  | lost {call : EngineCall} {ending : Ending} (h : Allowed r call) (hlost : ending.Lost) :
      Outcome st r ending (st.called call)
  | engine {call : EngineCall} (h : Allowed r call) :
      Outcome st r .done ((st.called call).write r)
  | tables (h : Unguarded st r) : Outcome st r .done (st.write r)

theorem outcome_guarded {action : Action} {containerId : String}
    (h : check action r.entry.containerClass r.entry.policy r.rootMode = true →
      Allowed r ⟨action, containerId, r⟩) :
    Outcome st r ending (st.guarded r action containerId ending) := by
  unfold guarded
  split
  next hcheck =>
    cases ending with
    | done => exact .engine (h hcheck)
    | engineRaises took =>
      cases took with
      | true => exact .lost (h hcheck) (.inl rfl)
      | false => exact .nothing
    | commitRaises => exact .lost (h hcheck) (.inr rfl)
  next => exact .nothing

theorem outcome_commit (h : Unguarded st r) : Outcome st r ending (st.commit r ending) := by
  cases ending with
  | done => exact .tables h
  | engineRaises took => exact .nothing
  | commitRaises => exact .nothing

theorem outcome_handle : Outcome st r ending (st.handle r ending) := by
  unfold handle
  split
  next hep =>
    exact outcome_commit ⟨by rw [hep]; rfl, fun _ _ _ _ h => by rw [hep] at h; cases h⟩
  next hep =>
    exact outcome_commit ⟨by rw [hep]; rfl, fun _ _ _ _ h => by rw [hep] at h; cases h⟩
  next id name hep =>
    split
    next => exact .nothing
    next action haction =>
      exact outcome_guarded fun hcheck => ⟨rfl, .inr (.inr ⟨name, hep, haction⟩), hcheck⟩
  next id hep => exact outcome_guarded fun hcheck => ⟨rfl, .inl ⟨hep, rfl⟩, hcheck⟩
  next id hep => exact outcome_guarded fun hcheck => ⟨rfl, .inr (.inl ⟨hep, rfl⟩), hcheck⟩
  next hep =>
    split
    next =>
      exact outcome_commit ⟨by rw [hep]; rfl, fun _ _ _ _ h => by rw [hep] at h; cases h⟩
    next => exact .nothing
  next id reason scope duration hep =>
    split
    next => exact .nothing
    next hno =>
      rw [not_or, Option.not_isSome_iff_eq_none] at hno
      refine outcome_commit ⟨by rw [hep]; rfl, fun _ _ _ _ h => ?_⟩
      rw [hep] at h
      cases h
      exact ⟨hno.1, fun s hs heq => hno.2 (List.any_eq_true.2 ⟨s, hs, by simpa using heq⟩)⟩
  next hep =>
    split
    next =>
      exact outcome_commit ⟨by rw [hep]; rfl, fun _ _ _ _ h => by rw [hep] at h; cases h⟩
    next => exact .nothing

/-- What a step can do. -/
inductive Move (st : Platform) : PlatformEvent → Platform → Prop where
  | tick (d : Nat) : Move st (.tick d) { st with now := st.now + d }
  | setUsers (users : Users) : Move st (.setUsers users) { st with users }
  | idle (e : PlatformEvent) : Move st e st
  | arrive (k : Nat) (user : Uuid) (endpoint : Endpoint) (hk : st.requests k = none) :
      Move st (.arrive k user endpoint)
        { st with requests := Function.update st.requests k (st.admitted user endpoint) }
  | finish {k : Nat} {r : Request} {ending : Ending} {st' : Platform} (hk : st.requests k = some r)
      (h : Outcome st r ending st') : Move st (.finish k ending)
        { st' with requests := Function.update st.requests k none }

theorem move_step (st : Platform) (e : PlatformEvent) : Move st e (step st e) := by
  cases e with
  | tick d => exact .tick d
  | setUsers users => exact .setUsers users
  | arrive k user endpoint =>
    simp only [step]
    split
    next => exact .idle _
    next hk => exact .arrive k user endpoint (Option.not_isSome_iff_eq_none.1 hk)
  | finish k ending =>
    simp only [step]
    split
    next => exact .idle _
    next r hk => exact .finish hk outcome_handle

@[simp] theorem write_engine : (st.write r).engine = st.engine := by
  unfold write
  split <;> try rfl
  split <;> rfl

@[simp] theorem write_now : (st.write r).now = st.now := by
  unfold write
  split <;> try rfl
  split <;> rfl

@[simp] theorem write_users : (st.write r).users = st.users := by
  unfold write
  split <;> try rfl
  split <;> rfl

@[simp] theorem write_requests : (st.write r).requests = st.requests := by
  unfold write
  split <;> try rfl
  split <;> rfl

/-! ## Whose calls the engine has carried out -/

/-- The request has been admitted: it is in hand, or the engine has made a call for it. -/
def Uses (r : Request) (st : Platform) : Prop :=
  (∃ k, st.requests k = some r) ∨ ∃ call ∈ st.engine, call.request = r

/-- The dependencies of the request pass, and this is what they read. -/
def Admits (r : Request) (st : Platform) : Prop :=
  ∃ user endpoint, st.admitted user endpoint = some r

theorem requests_of_update {requests : Nat → Option Request} {k k' : Nat}
    (h : Function.update requests k none k' = some r) : requests k' = some r := by
  rcases eq_or_ne k' k with rfl | hne
  · rw [Function.update_self] at h
    cases h
  · rwa [Function.update_of_ne hne] at h

theorem uses_step (h : Uses r (step st e)) : Uses r st ∨ Admits r st := by
  have hm := move_step st e
  revert h hm
  generalize step st e = st'
  intro h hm
  cases hm with
  | tick d => exact .inl h
  | setUsers users => exact .inl h
  | idle => exact .inl h
  | arrive k user endpoint hk =>
    rcases h with ⟨k', hk'⟩ | hcall
    · change Function.update st.requests k (st.admitted user endpoint) k' = some r at hk'
      rcases eq_or_ne k' k with rfl | hne
      · rw [Function.update_self] at hk'
        exact .inr ⟨user, endpoint, hk'⟩
      · rw [Function.update_of_ne hne] at hk'
        exact .inl (.inl ⟨k', hk'⟩)
    · exact .inl (.inr hcall)
  | finish hk h' =>
    refine .inl ?_
    rcases h with ⟨k', hk'⟩ | ⟨call, hcall, rfl⟩
    · exact .inl ⟨k', requests_of_update hk'⟩
    · cases h' with
      | nothing => exact .inr ⟨call, hcall, rfl⟩
      | lost hal hlost =>
        rcases List.mem_cons.1 hcall with rfl | hcall
        · exact .inl ⟨_, hal.request ▸ hk⟩
        · exact .inr ⟨call, hcall, rfl⟩
      | engine hal =>
        rw [write_engine, called_engine] at hcall
        rcases List.mem_cons.1 hcall with rfl | hcall
        · exact .inl ⟨_, hal.request ▸ hk⟩
        · exact .inr ⟨call, hcall, rfl⟩
      | tables hun =>
        rw [write_engine] at hcall
        exact .inr ⟨call, hcall, rfl⟩

theorem not_uses_initial : ¬ Uses r (initial now users) := by
  rintro (⟨k, hk⟩ | ⟨call, hcall, -⟩)
  · cases hk
  · cases hcall

/-- Every call that the engine has carried out was allowed to the request it was made for. -/
def Checked (st : Platform) : Prop := ∀ call ∈ st.engine, Allowed call.request call

theorem checked_step (h : Checked st) : Checked (step st e) := by
  have hm := move_step st e
  revert hm
  generalize step st e = st'
  intro hm
  cases hm with
  | finish hk h' =>
    intro call hcall
    cases h' with
    | nothing => exact h call hcall
    | lost hal hlost =>
      rcases List.mem_cons.1 hcall with rfl | hcall
      · exact hal.request.symm ▸ hal
      · exact h call hcall
    | engine hal =>
      rw [write_engine, called_engine] at hcall
      rcases List.mem_cons.1 hcall with rfl | hcall
      · exact hal.request.symm ▸ hal
      · exact h call hcall
    | tables hun =>
      rw [write_engine] at hcall
      exact h call hcall
  | _ => exact h

/-- What the dependencies of an admitted request have found. -/
structure Admitted (st : Platform) (r : Request) : Prop where
  valid : r.endpoint.valid = true
  superuser : r.endpoint.superuserOnly = true → st.users.isSuperuser r.user = true
  admittedAt : r.admittedAt = st.now
  entry : r.entry = st.registryEntry (r.endpoint.containerId?.getD "")
  rootSession : r.rootSession = st.getActive r.user

theorem admitted_of_eq_some {user : Uuid} {endpoint : Endpoint}
    (h : st.admitted user endpoint = some r) : Admitted st r := by
  unfold admitted at h
  split at h
  next hok =>
    cases h
    exact ⟨hok.1, hok.2.1, rfl, rfl, rfl⟩
  next => cases h

/-- The session is not ended, and its time is not over. -/
def Active (st : Platform) (s : RootSession) : Prop :=
  s.endTime = none ∧ st.now - s.startTime < seconds s.durationSeconds

theorem getActive_eq_some {actorId : Uuid} {s : RootSession} (h : st.getActive actorId = some s) :
    s ∈ st.rootSessions ∧ s.actorId = actorId ∧ Active st s := by
  unfold getActive at h
  have hs := List.find?_some h
  rw [decide_eq_true_iff] at hs
  exact ⟨List.mem_of_find?_eq_some h, hs.1, hs.2⟩

theorem getActive_eq_none {actorId : Uuid} :
    st.getActive actorId = none ↔ ∀ s ∈ st.rootSessions, s.actorId = actorId → ¬ Active st s := by
  simp only [getActive, List.find?_eq_none, decide_eq_true_iff, not_and, Active]

/-- What the writes of a request make of the root sessions. -/
theorem write_rootSessions (st : Platform) (r : Request) :
    (st.write r).rootSessions = st.rootSessions ∨
    (∃ id reason scope duration, r.endpoint = .startRootMode id reason scope duration ∧
      (st.write r).rootSessions =
        st.rootSessions ++ [⟨id, r.user, r.admittedAt, none, reason, scope, duration⟩]) ∨
    ∃ existing, r.endpoint = .stopRootMode ∧ r.rootSession = some existing ∧
      (st.write r).rootSessions = st.rootSessions.map fun s =>
        if s.id = existing.id then { s with endTime := some st.now } else s := by
  unfold write
  split
  case h_7 id reason scope duration hep => exact .inr (.inl ⟨id, reason, scope, duration, hep, rfl⟩)
  case h_8 hep =>
    split
    next => exact .inl rfl
    next existing hr => exact .inr (.inr ⟨existing, hep, hr, rfl⟩)
  all_goals exact .inl rfl

/-- What a step makes of the root sessions. -/
theorem step_rootSessions (st : Platform) (e : PlatformEvent) :
    (step st e).rootSessions = st.rootSessions ∨
    (∃ k r id reason scope duration, e = .finish k .done ∧ st.requests k = some r ∧
      r.endpoint = .startRootMode id reason scope duration ∧ r.rootSession = none ∧
      (∀ s ∈ st.rootSessions, s.id ≠ id) ∧ (step st e).rootSessions =
        st.rootSessions ++ [⟨id, r.user, r.admittedAt, none, reason, scope, duration⟩]) ∨
    ∃ k r existing, e = .finish k .done ∧ st.requests k = some r ∧ r.endpoint = .stopRootMode ∧
      r.rootSession = some existing ∧ (step st e).rootSessions = st.rootSessions.map fun s =>
        if s.id = existing.id then { s with endTime := some st.now } else s := by
  have hm := move_step st e
  revert hm
  generalize step st e = st'
  intro hm
  cases hm with
  | @finish k r ending st'' hk h =>
    cases h with
    | nothing => exact .inl rfl
    | lost hal hlost => exact .inl rfl
    | engine hal =>
      rcases write_rootSessions (st.called _) r with
        h | ⟨id, reason, scope, duration, hep, -⟩ | ⟨existing, hep, -⟩
      · exact .inl h
      all_goals
        rcases hal.target with ⟨h, -⟩ | ⟨h, -⟩ | ⟨name, h, -⟩
        all_goals
          rw [hep] at h
          cases h
    | tables hun =>
      rcases write_rootSessions st r with
        h | ⟨id, reason, scope, duration, hep, h⟩ | ⟨existing, hep, hr, h⟩
      · exact .inl h
      · obtain ⟨hr, hfresh⟩ := hun.start id reason scope duration hep
        exact .inr (.inl ⟨k, r, id, reason, scope, duration, rfl, hk, hep, hr, hfresh, h⟩)
      · exact .inr (.inr ⟨k, r, existing, rfl, hk, hep, hr, h⟩)
  | _ => exact .inl rfl

theorem step_now (st : Platform) (e : PlatformEvent) : st.now ≤ (step st e).now := by
  have hm := move_step st e
  revert hm
  generalize step st e = st'
  intro hm
  cases hm with
  | tick d => exact Int.le_add_of_nonneg_right (Int.natCast_nonneg d)
  | finish hk h =>
    cases h with
    | nothing => exact le_rfl
    | lost hal hlost => exact le_rfl
    | engine hal => exact write_now.ge
    | tables hun => exact write_now.ge
  | _ => exact le_rfl

/-- A request in hand was in hand before the step, or the step has admitted it. -/
theorem step_requests {k : Nat} (h : (step st e).requests k = some r) :
    st.requests k = some r ∨ Admitted st r := by
  have hm := move_step st e
  revert h hm
  generalize step st e = st'
  intro h hm
  cases hm with
  | @arrive k' user endpoint hk =>
    change Function.update st.requests k' (st.admitted user endpoint) k = some r at h
    rcases eq_or_ne k k' with rfl | hne
    · rw [Function.update_self] at h
      exact .inr (admitted_of_eq_some h)
    · rw [Function.update_of_ne hne] at h
      exact .inl h
  | finish hk h' => exact .inl (requests_of_update h)
  | _ => exact .inl h

/-- The requests are as their schema wants them, and the root sessions are what requests have
asked for. -/
structure Sound (st : Platform) : Prop where
  requests : ∀ k r, st.requests k = some r → r.endpoint.valid = true ∧ r.admittedAt ≤ st.now
  sessions : ∀ s ∈ st.rootSessions,
    s.startTime ≤ st.now ∧ s.durationSeconds ≤ 3600 ∧ 10 ≤ s.reason.length

theorem sound_step (h : Sound st) : Sound (step st e) := by
  have hnow := step_now st e
  refine ⟨fun k r hk => ?_, ?_⟩
  · rcases step_requests hk with hk | had
    · exact ⟨(h.requests k r hk).1, (h.requests k r hk).2.trans hnow⟩
    · exact ⟨had.valid, had.admittedAt.trans_le hnow⟩
  · have hold (s : RootSession) (hs : s ∈ st.rootSessions) : s.startTime ≤ (step st e).now ∧
        s.durationSeconds ≤ 3600 ∧ 10 ≤ s.reason.length :=
      ⟨(h.sessions s hs).1.trans hnow, (h.sessions s hs).2⟩
    rcases step_rootSessions st e with
      heq | ⟨k, r, id, reason, scope, duration, -, hk, hep, -, -, heq⟩ |
        ⟨k, r, existing, -, hk, hep, -, heq⟩
    · rw [heq]
      exact hold
    · rw [heq]
      intro s hs
      rcases List.mem_append.1 hs with hs | hs
      · exact hold s hs
      · obtain ⟨hvalid, hat⟩ := h.requests k r hk
        rw [hep] at hvalid
        obtain rfl := List.mem_singleton.1 hs
        have hbounds := of_decide_eq_true hvalid
        exact ⟨hat.trans hnow, hbounds.2.2, hbounds.1⟩
    · rw [heq]
      intro s hs
      obtain ⟨s', hs', rfl⟩ := List.mem_map.1 hs
      split <;> exact hold s' hs'

theorem sound_initial : Sound (initial now users) :=
  ⟨fun _ _ hk => (by cases hk), fun _ hs => (by cases hs)⟩

theorem Allowed.containerId? (h : Allowed r call) :
    r.endpoint.containerId? = some call.containerId := by
  rcases h.target with ⟨h, -⟩ | ⟨h, -⟩ | ⟨name, h, -⟩ <;> rw [h] <;> rfl

theorem Allowed.superuserOnly (h : Allowed r call) : r.endpoint.superuserOnly = true := by
  rcases h.target with ⟨h, -⟩ | ⟨h, -⟩ | ⟨name, h, -⟩ <;> rw [h] <;> rfl

/-- What stands where a call is authorised: its user is a superuser, no policy forbids it, and it
is one that the class admits or the user's root session is in force. -/
structure Authorized (st : Platform) (call : EngineCall) : Prop where
  superuser : st.users.isSuperuser call.request.user = true
  unlocked : call.action ∈ lockedDenyActions → (st.registryEntry call.containerId).policy ≠ .locked
  allowed : adminAllow (st.registryEntry call.containerId).containerClass call.action = true ∨
    ∃ s ∈ st.rootSessions, s.actorId = call.request.user ∧ s.endTime = none ∧
      s.startTime ≤ st.now ∧ st.now < s.startTime + seconds s.durationSeconds ∧
      s.durationSeconds ≤ 3600 ∧ 10 ≤ s.reason.length

theorem authorized_of_admitted (hs : Sound st) (had : Admitted st call.request)
    (hal : Allowed call.request call) : Authorized st call := by
  have hchecked := hal.checked
  rw [had.entry, hal.containerId?, Option.getD_some] at hchecked
  unfold check at hchecked
  split at hchecked
  next => cases hchecked
  next hlocked =>
    refine ⟨had.superuser hal.superuserOnly, fun hmem heq => hlocked ⟨heq, hmem⟩, ?_⟩
    split at hchecked
    next hroot =>
      obtain ⟨s, hsome⟩ := Option.isSome_iff_exists.1 hroot
      rw [had.rootSession] at hsome
      obtain ⟨hmem, hactor, hend, htime⟩ := getActive_eq_some hsome
      obtain ⟨hstart, hbounds⟩ := hs.sessions s hmem
      exact .inr ⟨s, hmem, hactor, hend, hstart, Int.lt_add_of_sub_left_lt htime, hbounds⟩
    next => exact .inl hchecked

def allSuperusers : Users := ⟨fun _ => true, fun _ _ _ => false⟩

def incidentSession : RootSession := ⟨7, 1, 0, none, "incident 42".toList, "all", 600⟩

/-- User 1 begins a session, and runs a command in a container that nobody knows. -/
def rootExec : List PlatformEvent :=
  [.arrive 0 1 (.startRootMode 7 "incident 42".toList "all" 600), .finish 0 .done,
    .arrive 1 1 (.containerExec "c0ffee"), .finish 1 .done]

def rootExecRequest : Request where
  user := 1
  superuser := true
  endpoint := .containerExec "c0ffee"
  admittedAt := 0
  entry := ⟨"c0ffee", "c0ffee".toList, .untrusted, "unknown", .restricted⟩
  rootSession := some incidentSession
  known := []

/-- A user has given the container its class. -/
def Vouched (st : Platform) (containerId : String) : Prop :=
  ∃ row ∈ st.audit, row.targetId = containerId ∧
    (row.action = "container.create" ∨ row.action = "container.register")

theorem mem_upsert {row x : ContainerRegistry} {registry : List ContainerRegistry}
    (h : x ∈ upsert row registry) : x = row ∨ x ∈ registry := by
  unfold upsert at h
  split at h
  next =>
    obtain ⟨y, hy, rfl⟩ := List.mem_map.1 h
    split
    next => exact .inl rfl
    next => exact .inr hy
  next => exact (List.mem_append.1 h).symm.imp List.mem_singleton.1 id

theorem classifyByName_ne_tenantApp (name : List Char) :
    (classifyByName name).1 ≠ .tenantApp := by
  simp only [classifyByName]
  split
  next rule hrule =>
    have hmem := List.mem_of_find?_eq_some hrule
    simp only [autoClassRules, List.mem_cons, List.not_mem_nil, or_false] at hmem
    rcases hmem with rfl | rfl | rfl <;> simp
  next => simp

/-- What is found among the containers on the engine belongs to no tenant. -/
theorem mem_reported {reported : List (String × List Char)} {registry : List ContainerRegistry}
    {x : ContainerRegistry}
    (h : x ∈ reported.foldl (fun registry c =>
      let (cls, scope) := classifyByName c.2
      upsert ⟨c.1, c.2, cls, scope, .free⟩ registry) registry) :
    x ∈ registry ∨ x.containerClass ≠ .tenantApp := by
  induction reported generalizing registry with
  | nil => exact .inl h
  | cons c reported ih =>
    rcases ih h with h | h
    · rcases mem_upsert h with rfl | h
      · exact .inr (classifyByName_ne_tenantApp c.2)
      · exact .inl h
    · exact .inr h

theorem write_audit {row : AuditEvent} (h : row ∈ st.audit) : row ∈ (st.write r).audit := by
  unfold write
  split
  case h_8 =>
    split
    next => exact h
    next => exact List.mem_cons_of_mem _ h
  case h_2 => exact h
  all_goals exact List.mem_cons_of_mem _ h

theorem Vouched.write {containerId : String} (h : Vouched st containerId) :
    Vouched (st.write r) containerId :=
  let ⟨row, hrow, h⟩ := h
  ⟨row, write_audit hrow, h⟩

/-- The containers of tenants are those that users have given that class. -/
def TenantsVouched (st : Platform) : Prop :=
  ∀ x ∈ st.registry, x.containerClass = .tenantApp → Vouched st x.containerId

/-- Where a row of the registry comes from. -/
theorem mem_write_registry {x : ContainerRegistry} (h : x ∈ (st.write r).registry) :
    x ∈ st.registry ∨ x.containerClass ≠ .tenantApp ∨ Vouched (st.write r) x.containerId := by
  generalize hst : st.write r = st' at h ⊢
  unfold write at hst
  split at hst
  case h_1 =>
    subst hst
    rcases mem_upsert h with rfl | h
    · exact .inr (.inr ⟨_, List.mem_cons_self, rfl, .inl rfl⟩)
    · exact .inl h
  case h_2 =>
    subst hst
    exact (mem_reported h).imp_right .inl
  case h_5 =>
    subst hst
    exact .inl (List.mem_filter.1 h).1
  case h_6 =>
    subst hst
    rcases mem_upsert h with rfl | h
    · exact .inr (.inr ⟨_, List.mem_cons_self, rfl, .inr rfl⟩)
    · exact .inl h
  case h_8 =>
    split at hst
    all_goals
      subst hst
      exact .inl h
  all_goals
    subst hst
    exact .inl h

theorem TenantsVouched.write (h : TenantsVouched st) : TenantsVouched (st.write r) := by
  intro x hx hcls
  rcases mem_write_registry hx with hx | hne | hv
  · exact (h x hx hcls).write
  · exact absurd hcls hne
  · exact hv

theorem tenantsVouched_step (h : TenantsVouched st) : TenantsVouched (step st e) := by
  have hm := move_step st e
  revert hm
  generalize step st e = st'
  intro hm
  cases hm with
  | finish hk h' =>
    cases h' with
    | nothing => exact h
    | lost hal hlost => exact h
    | engine hal => exact @TenantsVouched.write (st.called _) _ h
    | tables hun => exact TenantsVouched.write h
  | _ => exact h

theorem Vouched.step {containerId : String} (h : Vouched st containerId) :
    Vouched (step st e) containerId := by
  have hm := move_step st e
  revert hm
  generalize Platform.step st e = st'
  intro hm
  cases hm with
  | finish hk h' =>
    cases h' with
    | nothing => exact h
    | lost hal hlost => exact h
    | engine hal => exact @Vouched.write (st.called _) _ _ h
    | tables hun => exact Vouched.write h
  | _ => exact h

theorem adminAllow_of_ne_tenantApp {cls : ContainerClass} {action : Action}
    (h : adminAllow cls action = true) (hne : cls ≠ .tenantApp) :
    action ∈ [.view, .logsView, .start, .stop, .restart, .imagePull] := by
  cases cls with
  | tenantApp => exact absurd rfl hne
  | _ => cases action <;> first | simp; done | cases h

theorem adminAllow_of_check {cls : ContainerClass} {policy : ContainerPolicy} {action : Action}
    (h : check action cls policy false = true) : adminAllow cls action = true := by
  unfold check at h
  split at h
  next => cases h
  next => exact h

theorem registryEntry_tenantApp {containerId : String} (h : TenantsVouched st)
    (hcls : (st.registryEntry containerId).containerClass = .tenantApp) :
    Vouched st containerId := by
  unfold registryEntry at hcls
  cases hf : st.registry.find? (·.containerId = containerId) with
  | none =>
    rw [hf] at hcls
    cases hcls
  | some x =>
    rw [hf] at hcls
    have hid := List.find?_some hf
    rw [decide_eq_true_iff] at hid
    exact hid ▸ h x (List.mem_of_find?_eq_some hf) hcls

theorem mem_lifecycleActionMap {name : String} {action : Action}
    (h : lifecycleActionMap.lookup name = some action) : (name, action) ∈ lifecycleActionMap := by
  obtain ⟨l₁, l₂, heq, -⟩ := List.lookup_eq_some_iff.1 h
  rw [heq]
  exact List.mem_append_right _ List.mem_cons_self

/-- The engine is asked for nothing that a class without a tenant admits, but to start, to stop and
to restart. -/
theorem Allowed.admin_action (h : Allowed r call)
    (ha : call.action ∈ [.view, .logsView, .start, .stop, .restart, .imagePull]) :
    call.action ∈ [Action.start, .stop, .restart] := by
  rcases h.target with ⟨-, h⟩ | ⟨-, h⟩ | ⟨name, -, h⟩
  · rw [h] at ha
    simp at ha
  · rw [h] at ha
    simp at ha
  · have hmem := mem_lifecycleActionMap h
    simp only [lifecycleActionMap, List.mem_cons, Prod.mk.injEq, List.not_mem_nil, or_false] at hmem
    rcases hmem with ⟨-, h⟩ | ⟨-, h⟩ | ⟨-, h⟩ | ⟨-, h⟩ | ⟨-, h⟩ <;> rw [h] at ha ⊢ <;> simp at ha ⊢

/-- Whose request is not a root session's gets nothing from the engine but a start, a stop or a
restart, as long as nobody has told the registry of the container. -/
theorem vouched_run (es : List PlatformEvent) :
    ∀ call ∈ (run step (initial now users) es).engine, call.request.rootMode = false →
      call.action ∉ [.start, .stop, .restart] →
        Vouched (run step (initial now users) es) call.containerId := by
  intro call hcall hroot haction
  have hchecked : Checked (run step (initial now users) es) :=
    run_invariant (fun _ _ => checked_step) fun _ h => by cases h
  have hal := hchecked call hcall
  obtain ⟨pre, ⟨post, rfl⟩, user, endpoint, had⟩ :=
    run_provenance (fun _ _ => uses_step) not_uses_initial (.inr ⟨call, hcall, rfl⟩)
  have hvouched : TenantsVouched (run step (initial now users) pre) :=
    run_invariant (fun _ _ => tenantsVouched_step) fun _ h => by cases h
  have had := admitted_of_eq_some had
  have hchecked := hal.checked
  rw [hroot, had.entry, hal.containerId?, Option.getD_some] at hchecked
  have hadmin := adminAllow_of_check hchecked
  have htenant : ((run step (initial now users) pre).registryEntry call.containerId).containerClass
      = .tenantApp := by
    by_contra hne
    exact haction (hal.admin_action (adminAllow_of_ne_tenantApp hadmin hne))
  rw [run_append]
  exact run_invariant (I := fun st => Vouched st call.containerId) (fun _ _ => Vouched.step)
    (registryEntry_tenantApp hvouched htenant)

/-- User 1 registers a container of a tenant, and runs a command in it. -/
def tenantExec : List PlatformEvent :=
  [.arrive 0 1 (.registerContainer "c0ffee" (some "shop".toList) .tenantApp "platform" .free),
    .finish 0 .done, .arrive 1 1 (.containerExec "c0ffee"), .finish 1 .done]

def tenantExecRequest : Request where
  user := 1
  superuser := true
  endpoint := .containerExec "c0ffee"
  admittedAt := 0
  entry := ⟨"c0ffee", "shop".toList, .tenantApp, "platform", .free⟩
  rootSession := none
  known := ["c0ffee"]

theorem vouched_tenantExec :
    Vouched (run step (initial 0 allSuperusers) tenantExec) "c0ffee" :=
  vouched_run tenantExec ⟨.exec, "c0ffee", tenantExecRequest⟩ (by decide) rfl (by decide)

/-! ## What the audit log tells -/

/-- The row that is written for a call. -/
def callRow (call : EngineCall) : AuditEvent :=
  ⟨call.request.user, call.action.value, call.containerId, .allow,
    if call.action = .exec then "high" else severity call.request.rootMode⟩

/-- What the engine is asked to do. -/
def engineActions : List Action := [.start, .stop, .restart, .pause, .unpause, .exec, .delete]

/-- The row is about a call of the engine. -/
def AboutCall (row : AuditEvent) : Prop := row.action ∈ engineActions.map Action.value

instance : DecidablePred AboutCall := fun _ => List.instDecidableMemOfLawfulBEq _ _

/-- The audit log holds the calls that the engine has carried out, each with its user, its target
and its severity, in the order in which they were made. -/
def Audited (st : Platform) : Prop := st.audit.filter AboutCall = st.engine.map callRow

theorem lifecycle_value {name : String} {action : Action}
    (h : lifecycleActionMap.lookup name = some action) :
    "container." ++ name = action.value ∧ action ≠ .exec ∧ action ∈ engineActions := by
  have hmem := mem_lifecycleActionMap h
  simp only [lifecycleActionMap, List.mem_cons, Prod.mk.injEq, List.not_mem_nil, or_false] at hmem
  rcases hmem with ⟨rfl, rfl⟩ | ⟨rfl, rfl⟩ | ⟨rfl, rfl⟩ | ⟨rfl, rfl⟩ | ⟨rfl, rfl⟩ <;> decide

theorem Allowed.write_audit (h : Allowed r call) :
    (st.write r).audit = callRow call :: st.audit ∧ AboutCall (callRow call) := by
  obtain ⟨rfl, htarget, -⟩ := h
  rcases htarget with ⟨hep, ha⟩ | ⟨hep, ha⟩ | ⟨name, hep, ha⟩
  · refine ⟨?_, List.mem_map_of_mem (by rw [ha]; decide)⟩
    simp only [write, hep, log, callRow, ha, if_true]
    rfl
  · refine ⟨?_, List.mem_map_of_mem (by rw [ha]; decide)⟩
    simp only [write, hep, log, callRow, ha, reduceCtorEq, if_false]
    rfl
  · obtain ⟨hvalue, hne, hmem⟩ := lifecycle_value ha
    refine ⟨?_, List.mem_map_of_mem hmem⟩
    simp only [write, hep, log, callRow, hvalue, if_neg hne]

theorem Unguarded.write_audit (h : Unguarded st r) :
    (st.write r).audit.filter AboutCall = st.audit.filter AboutCall := by
  have htarget := h.target
  generalize hst : st.write r = st'
  unfold write at hst
  split at hst
  case h_8 =>
    split at hst
    all_goals
      subst hst
      rfl
  case h_3 hep | h_4 hep | h_5 hep =>
    rw [hep] at htarget
    cases htarget
  all_goals
    subst hst
    rfl

/-- The engine does nothing for a request that then fails. -/
def Recorded (st : Platform) : PlatformEvent → Prop
  | .finish k ending => ending.Lost → ∀ r, st.requests k = some r → r.call? = none
  | _ => True

theorem Allowed.call? (h : Allowed r call) : r.call? = some call := by
  obtain ⟨rfl, htarget, hchecked⟩ := h
  rcases htarget with ⟨hep, ha⟩ | ⟨hep, ha⟩ | ⟨name, hep, ha⟩
  · simp only [Request.call?, hep, ← ha]
    exact Option.filter_eq_some_iff.2 ⟨rfl, hchecked⟩
  · simp only [Request.call?, hep, ← ha]
    exact Option.filter_eq_some_iff.2 ⟨rfl, hchecked⟩
  · simp only [Request.call?, hep, ha, Option.map_some]
    exact Option.filter_eq_some_iff.2 ⟨rfl, hchecked⟩

theorem guarded_lost {action : Action} {containerId : String} (hlost : ending.Lost)
    (h : check action r.entry.containerClass r.entry.policy r.rootMode = true) :
    st.guarded r action containerId ending = st.called ⟨action, containerId, r⟩ := by
  unfold guarded
  rw [if_pos h]
  rcases hlost with rfl | rfl <;> rfl

theorem handle_lost (hlost : ending.Lost) (h : r.call? = some call) :
    st.handle r ending = st.called call := by
  unfold Request.call? at h
  obtain ⟨hasked, hchecked⟩ := Option.filter_eq_some_iff.1 h
  unfold handle
  cases hep : r.endpoint with
  | containerLifecycle id name =>
    simp only [hep] at hasked
    obtain ⟨action, haction, rfl⟩ := Option.map_eq_some_iff.1 hasked
    simp only [haction]
    exact guarded_lost hlost hchecked
  | containerExec id =>
    simp only [hep] at hasked
    cases hasked
    exact guarded_lost hlost hchecked
  | deleteContainer id =>
    simp only [hep] at hasked
    cases hasked
    exact guarded_lost hlost hchecked
  | _ =>
    simp only [hep] at hasked
    cases hasked

theorem audited_step (h : Audited st) : Audited (step st e) ↔ Recorded st e := by
  constructor
  · intro haud
    cases e with
    | finish k ending =>
      intro hlost r hk
      by_contra hcall
      obtain ⟨call, hcall⟩ := Option.ne_none_iff_exists'.1 hcall
      simp only [Audited, step, hk, handle_lost hlost hcall, called_audit, called_engine] at haud
      -- the engine has one call more, and the log no row
      have hlength := congrArg List.length (h.symm.trans haud)
      simp at hlength
    | _ => trivial
  · intro hrec
    have hm := move_step st e
    revert hm
    generalize step st e = st'
    intro hm
    cases hm with
    | @finish k r ending st' hk h' =>
      cases h' with
      | nothing => exact h
      | lost hal hlost =>
        have hnone := hrec hlost _ hk
        rw [hal.call?] at hnone
        cases hnone
      | @engine call hal =>
        obtain ⟨haudit, habout⟩ := @Allowed.write_audit (st.called call) _ _ hal
        change ((st.called call).write r).audit.filter _ = ((st.called call).write r).engine.map _
        rw [haudit, List.filter_cons_of_pos (by simpa using habout), write_engine]
        exact congrArg (callRow call :: ·) h
      | tables hun => exact hun.write_audit.trans (h.trans (by rw [write_engine]))
    | _ => exact h

/-- No user has two sessions in force. -/
def OneActive (st : Platform) : Prop :=
  st.rootSessions.Pairwise fun s s' => Active st s → Active st s' → s.actorId ≠ s'.actorId

/-- A session that comes into force finds none of its user in force. -/
def Serial (st : Platform) : PlatformEvent → Prop
  | .finish k .done => ∀ r, st.requests k = some r →
    ∀ id reason scope duration, r.endpoint = .startRootMode id reason scope duration →
      r.rootSession = none → (∀ s ∈ st.rootSessions, s.id ≠ id) →
        Active st ⟨id, r.user, r.admittedAt, none, reason, scope, duration⟩ →
          st.getActive r.user = none
  | _ => True

/-- Time takes sessions out of force, and brings none into it. -/
theorem Active.of_le {st' : Platform} {s : RootSession} (hnow : st.now ≤ st'.now)
    (h : Active st' s) : Active st s :=
  ⟨h.1, (Int.sub_le_sub_right hnow _).trans_lt h.2⟩

theorem active_congr {st' : Platform} {s : RootSession} (hnow : st'.now = st.now) :
    Active st' s ↔ Active st s := by
  rw [Active, Active, hnow]

/-- A step that changes the root sessions takes no time. -/
theorem finish_now {k : Nat} : (step st (.finish k ending)).now = st.now := by
  simp only [step]
  split
  next => rfl
  next r hk =>
    have h : Outcome st r ending (st.handle r ending) := outcome_handle
    revert h
    generalize st.handle r ending = st'
    intro h
    cases h with
    | nothing => rfl
    | lost hal hlost => rfl
    | engine hal => exact write_now
    | tables hun => exact write_now

theorem oneActive_start {s : RootSession} (h : OneActive st) {st' : Platform}
    (hnow : st'.now = st.now) (hsessions : st'.rootSessions = st.rootSessions ++ [s]) :
    OneActive st' ↔ (Active st s → st.getActive s.actorId = none) := by
  have hcongr (s' : RootSession) : Active st' s' ↔ Active st s' := active_congr hnow
  simp only [OneActive, hsessions, List.pairwise_append, hcongr, List.pairwise_singleton,
    true_and, List.mem_singleton, forall_eq, getActive_eq_none]
  constructor
  · intro hall hs s' hs' hactor hactive
    exact hall.2 s' hs' hactive hs hactor
  · intro hnone
    exact ⟨h, fun s' hs' hactive hs hactor => hnone hs s' hs' hactor hactive⟩

/-- A map that ends sessions, and does nothing else to them, leaves no more of them in force. -/
theorem OneActive.map {f : RootSession → RootSession} {st' : Platform}
    (h : OneActive st) (hnow : st'.now = st.now)
    (hf : ∀ s, f s = s ∨ ∃ t, f s = { s with endTime := some t })
    (hsessions : st'.rootSessions = st.rootSessions.map f) : OneActive st' := by
  have hkeep (s : RootSession) (hs : Active st' (f s)) :
      Active st s ∧ (f s).actorId = s.actorId := by
    rcases hf s with heq | ⟨t, heq⟩
    · rw [heq] at hs ⊢
      exact ⟨(active_congr hnow).1 hs, rfl⟩
    · rw [heq] at hs
      cases hs.1
  rw [OneActive, hsessions, List.pairwise_map]
  refine h.imp fun hne hs hs' => ?_
  rw [(hkeep _ hs).2, (hkeep _ hs').2]
  exact hne (hkeep _ hs).1 (hkeep _ hs').1

theorem finish_start {k : Nat} {id : Uuid} {reason : List Char} {scope : String} {duration : Nat}
    (hk : st.requests k = some r) (hep : r.endpoint = .startRootMode id reason scope duration)
    (hr : r.rootSession = none) (hfresh : ∀ s ∈ st.rootSessions, s.id ≠ id) :
    (step st (.finish k .done)).rootSessions =
      st.rootSessions ++ [⟨id, r.user, r.admittedAt, none, reason, scope, duration⟩] := by
  have hany : st.rootSessions.any (·.id = id) = false :=
    List.any_eq_false.2 fun s hs => by simpa using hfresh s hs
  simp only [step, hk, handle, hep, hr, hany, commit, write]
  rfl

theorem oneActive_step (h : OneActive st) : OneActive (step st e) ↔ Serial st e := by
  rcases step_rootSessions st e with
    heq | ⟨k, r, id, reason, scope, duration, rfl, hk, hep, hr, hfresh, heq⟩ |
      ⟨k, r, existing, rfl, hk, hep, hr, heq⟩
  · refine iff_of_true ?_ ?_
    · rw [OneActive, heq]
      exact h.imp fun hne hs hs' => hne (hs.of_le (step_now st _)) (hs'.of_le (step_now st _))
    · cases e with
      | finish k ending =>
        cases ending with
        | done =>
          intro r hk id reason scope duration hep hr hfresh
          rw [finish_start hk hep hr hfresh] at heq
          simp at heq
        | engineRaises took => trivial
        | commitRaises => trivial
      | _ => trivial
  · rw [oneActive_start h finish_now heq]
    constructor
    · intro hone r' hk' id' reason' scope' duration' hep' hr' hfresh' hactive
      rw [hk] at hk'
      cases hk'
      rw [hep] at hep'
      cases hep'
      exact hone hactive
    · intro hser hactive
      exact hser r hk id reason scope duration hep hr hfresh hactive
  · refine iff_of_true (h.map finish_now (fun s => ?_) heq) ?_
    · split
      next => exact .inr ⟨_, rfl⟩
      next => exact .inl rfl
    · intro r' hk' id reason scope duration hep'
      rw [hk] at hk'
      cases hk'
      rw [hep] at hep'
      cases hep'

/-- No session of the user is begun. -/
def BeginsNone (user : Uuid) (st : Platform) : PlatformEvent → Prop
  | .finish k .done => ∀ r, st.requests k = some r → r.user = user →
    ∀ id reason scope duration, r.endpoint ≠ .startRootMode id reason scope duration
  | _ => True

theorem getActive_step {user : Uuid} (h : st.getActive user = none) (hnone : BeginsNone user st e) :
    (step st e).getActive user = none := by
  rw [getActive_eq_none] at h ⊢
  rcases step_rootSessions st e with
    heq | ⟨k, r, id, reason, scope, duration, rfl, hk, hep, hr, hfresh, heq⟩ |
      ⟨k, r, existing, rfl, hk, hep, hr, heq⟩
  · rw [heq]
    exact fun s hs hactor hactive => h s hs hactor (hactive.of_le (step_now st _))
  · rw [heq]
    intro s hs hactor hactive
    rcases List.mem_append.1 hs with hs | hs
    · exact h s hs hactor (hactive.of_le (step_now st _))
    · obtain rfl := List.mem_singleton.1 hs
      exact hnone r hk hactor id reason scope duration hep
  · rw [heq]
    intro s hs hactor hactive
    obtain ⟨s', hs', rfl⟩ := List.mem_map.1 hs
    split at hactive
    next => cases hactive.1
    next hne =>
      rw [if_neg hne] at hactor
      exact h s' hs' hactor (hactive.of_le (step_now st _))

/-- A request to stop root mode that finds the session still in force leaves its user without
one. -/
theorem getActive_stop {k : Nat} {existing : RootSession} (hone : OneActive st)
    (hk : st.requests k = some r) (hep : r.endpoint = .stopRootMode)
    (hr : r.rootSession = some existing) (hstill : st.getActive r.user = some existing) :
    (step st (.finish k .done)).getActive r.user = none := by
  have heq : (step st (.finish k .done)).rootSessions = st.rootSessions.map fun s =>
      if s.id = existing.id then { s with endTime := some st.now } else s := by
    simp only [step, hk, handle, hep, hr, commit, write]
    rfl
  obtain ⟨hmem, hactor, hactive⟩ := getActive_eq_some hstill
  rw [getActive_eq_none, heq]
  intro s hs hs_actor hs_active
  obtain ⟨s', hs', rfl⟩ := List.mem_map.1 hs
  split at hs_active
  next => cases hs_active.1
  next hne =>
    rw [if_neg hne] at hs_actor
    have hs'_active : Active st s' := (active_congr finish_now).1 hs_active
    have hsymm : Std.Symm fun s s' : RootSession =>
        Active st s → Active st s' → s.actorId ≠ s'.actorId :=
      ⟨fun _ _ hss' hs hs' => (hss' hs' hs).symm⟩
    have hdiff : s' ≠ existing := fun h => hne (congrArg RootSession.id h)
    exact hone.forall hs' hmem hdiff hs'_active hactive (hs_actor.trans hactor.symm)

/-- User 1 has begun a session of ten minutes, and asks to stop it. -/
def beforeStop : List PlatformEvent :=
  [.arrive 0 1 (.startRootMode 7 "incident 42".toList "all" 600), .finish 0 .done,
    .arrive 1 1 .stopRootMode]

def stopRequest : Request where
  user := 1
  superuser := true
  endpoint := .stopRootMode
  admittedAt := 0
  entry := ⟨"", [], .untrusted, "unknown", .restricted⟩
  rootSession := some incidentSession
  known := []

end Platform

end LlmPort.Backend.Containers
