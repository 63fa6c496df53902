import LlmPort.Gateway.ClientBroker
import LlmPort.Gateway.ToolPolicy

/-!
# The tool router

`ToolRouter.route` of `services/gateway/tool_router.py`: the realm of a call by its name and the
mode of the session, the policy check, the executor, and the other executors that a hybrid session
falls back to. Which executors a call ran on is recorded, by their realms.
-/

namespace LlmPort.Gateway

/-- The two executors there are. -/
inductive ToolExecutor where
  | server | clientBroker
  deriving DecidableEq

/-- `_executors`, before it is known which are configured. -/
def ToolRealm.executor : ToolRealm → ToolExecutor
  | serverManaged | mcpRemote => .server
  | clientLocal | clientProxied => .clientBroker

/-- What an executor gives: a result, or an exception. -/
inductive ToolAnswer where
  | result (r : ToolCallResult)
  | raised

structure ToolRouterConfig (V : Type) where
  serverExecutor : Bool
  clientBroker : Bool
  policyEngine : Option (PolicyEngine V)

/-- The order in which a set of all four realms is iterated over. -/
structure RealmOrder where
  realms : List ToolRealm
  nodup : realms.Nodup
  complete : ∀ realm, realm ∈ realms

structure SessionExecutionPolicy where
  sessionId : SessionUuid
  hybridPreference : Option String
  catalogVersion : Nat

/-- What the router reads of the database. -/
structure ToolDb where
  sessions : List ChatSession
  policies : List SessionExecutionPolicy

namespace ToolDb

def getSessionExecutionMode (db : ToolDb) (sessionId : SessionUuid) : ExecutionMode :=
  ((db.sessions.find? (·.id = sessionId)).map (·.executionMode)).getD .serverOnly

def getSessionExecutionPolicy (db : ToolDb) (sessionId : SessionUuid) :
    Option SessionExecutionPolicy :=
  db.policies.find? (·.sessionId = sessionId)

end ToolDb

structure RoutedCall (V : Type) where
  toolId : String
  arguments : ToolArguments V
  callId : String

/-- A result of the router's own. -/
def RoutedCall.refusal {V : Type} (call : RoutedCall V) (content : String) (realm : ToolRealm)
    (executor : String) : ToolCallResult :=
  ⟨call.callId, call.toolId, content, true, 0, realm.value, executor⟩

/-- How a call went: the realms whose executors ran, in order, and what `route` gives. -/
structure RouteRun where
  runs : List ToolRealm
  answer : ToolAnswer

/-- `_resolve_realm` -/
def resolveRealm (toolId : String) : ToolRealm :=
  if startsWith toolId "client." then .clientLocal
  else if startsWith toolId "mcp." then .mcpRemote
  else .serverManaged

namespace ToolRouterConfig

variable {V : Type}

/-- `_executors.get(realm) is not None` -/
def configured (cfg : ToolRouterConfig V) (realm : ToolRealm) : Bool :=
  match realm.executor with
  | .server => cfg.serverExecutor
  | .clientBroker => cfg.clientBroker

/-- `_resolve_hybrid_realm` -/
def resolveHybridRealm (cfg : ToolRouterConfig V) (preferred : ToolRealm)
    (hybridPreference : Option String) : ToolRealm :=
  let order : Option (List ToolRealm) :=
    if hybridPreference = some "prefer_server" then some [.serverManaged, .mcpRemote, .clientLocal]
    else if hybridPreference = some "prefer_client" then
      some [.clientLocal, .clientProxied, .serverManaged]
    else none
  match order with
  | none => preferred
  | some order =>
    if cfg.configured preferred then preferred else (order.find? cfg.configured).getD preferred

/-- The realm of a call, before it is checked. -/
def realmOf (cfg : ToolRouterConfig V) (db : ToolDb) (sessionId : SessionUuid) (toolId : String) :
    ToolRealm :=
  if db.getSessionExecutionMode sessionId = .hybrid then
    cfg.resolveHybridRealm (resolveRealm toolId)
      ((db.getSessionExecutionPolicy sessionId).bind (·.hybridPreference))
  else resolveRealm toolId

/-- The realm whose executor a call starts on: its own, or in a hybrid session the first one that
has an executor. -/
def startRealm (order : RealmOrder) (cfg : ToolRouterConfig V) (mode : ExecutionMode)
    (realm : ToolRealm) : Option ToolRealm :=
  if cfg.configured realm then some realm
  else if mode = .hybrid then order.realms.find? cfg.configured else none

variable [BEq V]

/-- The policy engine's decision about a call, where there is an engine. -/
def policyAction (cfg : ToolRouterConfig V) (call : RoutedCall V) (realm : ToolRealm) :
    PolicyAction :=
  match cfg.policyEngine with
  | none => .allow
  | some engine => (engine.evaluate call.toolId call.arguments realm.value).action

/-- The result that the policy check returns early. -/
def policyRefusal (cfg : ToolRouterConfig V) (call : RoutedCall V) (realm : ToolRealm) :
    Option ToolCallResult :=
  cfg.policyEngine.bind fun engine =>
    let decision := engine.evaluate call.toolId call.arguments realm.value
    let reason := decision.reason.getD "None"
    match decision.action with
    | .deny => some (call.refusal s!"Tool '{call.toolId}' denied by policy: {reason}" realm
        "PolicyEngine")
    | .approvalRequired => some (call.refusal s!"Tool '{call.toolId}' requires approval: {reason}"
        realm "PolicyEngine")
    | .allow => none

/-- `route` up to the first run: the realm it runs in, or the result without a run. -/
def dispatch (order : RealmOrder) (cfg : ToolRouterConfig V) (db : ToolDb) (sessionId : SessionUuid)
    (call : RoutedCall V) : Except ToolCallResult ToolRealm :=
  let mode := db.getSessionExecutionMode sessionId
  let realm := cfg.realmOf db sessionId call.toolId
  if realm ∉ modeRealms mode then
    .error (call.refusal
      s!"Tool '{call.toolId}' realm '{realm.value}' is not allowed in '{mode.value}' mode." realm
      "ToolRouter")
  else match cfg.policyRefusal call realm with
    | some r => .error r
    | none => match startRealm order cfg mode realm with
      | some realm => .ok realm
      | none => .error (call.refusal s!"No executor registered for realm '{realm.value}'." realm
          "ToolRouter")

/-- The loop after a failure in `realm`. An executor may answer by which run of the call it is. -/
def fallBack (cfg : ToolRouterConfig V) (execute : Nat → ToolExecutor → ToolAnswer)
    (realm : ToolRealm) :
    List ToolRealm → (runs : List ToolRealm) → ToolCallResult → RouteRun
  | [], runs, result => ⟨runs, .result result⟩
  | fallback :: rest, runs, result =>
    if fallback = realm then cfg.fallBack execute realm rest runs result
    else if cfg.configured fallback then
      match execute runs.length fallback.executor with
      | .raised => ⟨runs ++ [fallback], .raised⟩
      | .result result =>
        if result.isError then cfg.fallBack execute realm rest (runs ++ [fallback]) result
        else ⟨runs ++ [fallback], .result result⟩
    else cfg.fallBack execute realm rest runs result

def route (order : RealmOrder) (cfg : ToolRouterConfig V) (db : ToolDb) (sessionId : SessionUuid)
    (call : RoutedCall V) (execute : Nat → ToolExecutor → ToolAnswer) : RouteRun :=
  match cfg.dispatch order db sessionId call with
  | .error r => ⟨[], .result r⟩
  | .ok realm => match execute 0 realm.executor with
    | .raised => ⟨[realm], .raised⟩
    | .result result =>
      if result.isError ∧ db.getSessionExecutionMode sessionId = .hybrid then
        cfg.fallBack execute realm order.realms [realm] result
      else ⟨[realm], .result result⟩

end ToolRouterConfig

/-! ## Which executors a call runs on -/

/-- The other realm of the same executor. -/
def ToolRealm.twin : ToolRealm → ToolRealm
  | serverManaged => mcpRemote
  | mcpRemote => serverManaged
  | clientLocal => clientProxied
  | clientProxied => clientLocal

theorem ToolRealm.twin_executor (realm : ToolRealm) : realm.twin.executor = realm.executor := by
  cases realm <;> rfl

theorem ToolRealm.twin_ne (realm : ToolRealm) : realm.twin ≠ realm := by
  cases realm <;> decide

theorem ToolExecutor.eq_or_eq_of_ne {a b : ToolExecutor} (h : a ≠ b) (c : ToolExecutor) :
    c = a ∨ c = b := by
  cases a <;> cases b <;> cases c <;> simp_all

/-- The loop over fallbacks of which each has an executor, and none is the realm that failed. -/
def tryEach (execute : Nat → ToolExecutor → ToolAnswer) :
    List ToolRealm → (runs : List ToolRealm) → ToolCallResult → RouteRun
  | [], runs, result => ⟨runs, .result result⟩
  | fallback :: rest, runs, _ =>
    match execute runs.length fallback.executor with
    | .raised => ⟨runs ++ [fallback], .raised⟩
    | .result result =>
      if result.isError then tryEach execute rest (runs ++ [fallback]) result
      else ⟨runs ++ [fallback], .result result⟩

section
variable {execute : Nat → ToolExecutor → ToolAnswer} {realm fallback : ToolRealm}
  {l runs rest : List ToolRealm} {r : ToolCallResult}

theorem prefix_tryEach_runs : runs <+: (tryEach execute l runs r).runs := by
  induction l generalizing runs r with
  | nil => exact List.prefix_rfl
  | cons fallback rest ih =>
    unfold tryEach
    split
    next => exact List.prefix_append ..
    next r _ =>
      split
      next => exact (List.prefix_append ..).trans ih
      next => exact List.prefix_append ..

theorem mem_of_mem_tryEach_runs (h : realm ∈ (tryEach execute l runs r).runs) :
    realm ∈ runs ∨ realm ∈ l := by
  induction l generalizing runs r with
  | nil => exact .inl h
  | cons fallback rest ih =>
    have hstep : realm ∈ runs ++ [fallback] → realm ∈ runs ∨ realm ∈ fallback :: rest := by
      simp only [List.mem_append, List.mem_cons, List.not_mem_nil, or_false]
      rintro (h | h)
      · exact .inl h
      · exact .inr (.inl h)
    unfold tryEach at h
    split at h
    next => exact hstep h
    next =>
      split at h
      next =>
        obtain h | h := ih h
        · exact hstep h
        · exact .inr (List.mem_cons_of_mem _ h)
      next => exact hstep h

/-- The first fallback runs, whatever comes after it. -/
theorem prefix_tryEach_cons_runs :
    runs ++ [fallback] <+: (tryEach execute (fallback :: rest) runs r).runs := by
  unfold tryEach
  split
  next => exact List.prefix_rfl
  next =>
    split
    next => exact prefix_tryEach_runs
    next => exact List.prefix_rfl

/-- No later fallback runs when the first does not end in an error result. -/
theorem tryEach_cons_runs
    (h : ∀ r, execute runs.length fallback.executor = .result r → ¬ r.isError) :
    (tryEach execute (fallback :: rest) runs r).runs = runs ++ [fallback] := by
  unfold tryEach
  split
  next => rfl
  next r hr => rw [if_neg (h r hr)]

theorem tryEach_cons_of_error {r' : ToolCallResult}
    (h : execute runs.length fallback.executor = .result r') (he : r'.isError) :
    tryEach execute (fallback :: rest) runs r = tryEach execute rest (runs ++ [fallback]) r' := by
  rw [tryEach, h]
  exact if_pos he

/-- The realm that failed shares its executor with a fallback, so that the first fallback has to be
on the other executor and the last. -/
theorem nodup_tryEach_iff (htwin : realm.twin ∈ l) :
    ((tryEach execute l [realm] r).runs.map (·.executor)).Nodup ↔
      ∃ fallback, l.head? = some fallback ∧ fallback.executor ≠ realm.executor ∧
        ∀ r, execute 1 fallback.executor = .result r → ¬ r.isError := by
  cases l with
  | nil => cases htwin
  | cons fallback rest =>
    have hruns : [realm] ++ [fallback] <+: (tryEach execute (fallback :: rest) [realm] r).runs :=
      prefix_tryEach_cons_runs
    simp only [List.head?_cons, Option.some.injEq, exists_eq_left']
    constructor
    · intro hn
      have hne : fallback.executor ≠ realm.executor := by
        have h : [realm.executor, fallback.executor].Nodup := (hruns.map _).sublist.nodup hn
        simpa [eq_comm] using h
      refine ⟨hne, fun r' hr' he => ?_⟩
      -- a further fallback is on one of the two executors that have run
      have hrest : realm.twin ∈ rest := by
        obtain h | h := List.mem_cons.1 htwin
        · exact (hne (h ▸ realm.twin_executor)).elim
        · exact h
      cases rest with
      | nil => cases hrest
      | cons third rest =>
        rw [tryEach_cons_of_error hr' he] at hn
        have h : [realm.executor, fallback.executor, third.executor].Nodup :=
          (prefix_tryEach_cons_runs.map _).sublist.nodup hn
        simp only [List.nodup_cons, List.mem_cons, List.not_mem_nil, or_false, not_or] at h
        obtain h3 | h3 := ToolExecutor.eq_or_eq_of_ne hne third.executor
        · exact h.2.1 h3.symm
        · exact h.1.2 h3.symm
    · rintro ⟨hne, hok⟩
      rw [tryEach_cons_runs hok]
      simpa using hne.symm

end

namespace ToolRouterConfig

variable {V : Type} {cfg : ToolRouterConfig V} {execute : Nat → ToolExecutor → ToolAnswer}
  {realm : ToolRealm}

/-- The realms the loop tries. -/
def isFallback (cfg : ToolRouterConfig V) (realm fallback : ToolRealm) : Bool :=
  fallback ≠ realm && cfg.configured fallback

theorem configured_congr {realm' : ToolRealm} (h : realm'.executor = realm.executor) :
    cfg.configured realm' = cfg.configured realm := by
  unfold configured
  rw [h]

theorem fallBack_eq_tryEach (l runs : List ToolRealm) (r : ToolCallResult) :
    cfg.fallBack execute realm l runs r =
      tryEach execute (l.filter (cfg.isFallback realm)) runs r := by
  induction l generalizing runs r with
  | nil => rfl
  | cons fallback rest ih =>
    unfold fallBack
    split
    next h =>
      rw [ih, List.filter_cons_of_neg]
      simp [isFallback, h]
    next h =>
      split
      next hc =>
        rw [List.filter_cons_of_pos (by simp [isFallback, h, hc]), tryEach]
        split
        next => rfl
        next => simp only [ih]
      next hc =>
        rw [ih, List.filter_cons_of_neg]
        simp [isFallback, hc]

section
variable {order : RealmOrder} {start : ToolRealm} {mode : ExecutionMode}

theorem configured_of_startRealm (h : startRealm order cfg mode realm = some start) :
    cfg.configured start := by
  unfold startRealm at h
  split at h
  next hc =>
    cases h
    exact hc
  next =>
    split at h
    next => exact List.find?_some h
    next => cases h

theorem mem_modeRealms_of_startRealm (hm : realm ∈ modeRealms mode)
    (h : startRealm order cfg mode realm = some start) : start ∈ modeRealms mode := by
  unfold startRealm at h
  split at h
  next =>
    cases h
    exact hm
  next =>
    split at h
    next hmode =>
      rw [hmode]
      exact mem_modeRealms_hybrid start
    next => cases h

variable [BEq V] {db : ToolDb} {sessionId : SessionUuid} {call : RoutedCall V}

theorem policyRefusal_eq_none_iff :
    cfg.policyRefusal call realm = none ↔ cfg.policyAction call realm = .allow := by
  unfold policyRefusal policyAction
  cases cfg.policyEngine with
  | none => simp
  | some engine =>
    simp only [Option.bind_some]
    split <;> simp_all

theorem policyAction_realm (realm realm' : ToolRealm) :
    cfg.policyAction call realm = cfg.policyAction call realm' := by
  unfold policyAction
  cases cfg.policyEngine with
  | none => rfl
  | some engine =>
    dsimp only
    rw [PolicyEngine.evaluate_realm realm.value realm'.value]

theorem dispatch_eq_ok_iff :
    cfg.dispatch order db sessionId call = .ok start ↔
      cfg.realmOf db sessionId call.toolId ∈ modeRealms (db.getSessionExecutionMode sessionId) ∧
        cfg.policyAction call (cfg.realmOf db sessionId call.toolId) = .allow ∧
        startRealm order cfg (db.getSessionExecutionMode sessionId)
          (cfg.realmOf db sessionId call.toolId) = some start := by
  rw [← policyRefusal_eq_none_iff]
  unfold dispatch
  dsimp only
  split
  next h => simp [h]
  next h =>
    rw [not_not] at h
    split
    next r hr => simp [hr]
    next hr =>
      simp only [h, true_and]
      split
      next hs => simp [hs, hr]
      next hs => simp [hs, hr]

/-- No executor runs the tool twice, and each runs it for a realm that the mode and the policy
allow. -/
structure RunsOnce (order : RealmOrder) (cfg : ToolRouterConfig V) (db : ToolDb)
    (sessionId : SessionUuid) (call : RoutedCall V) (run : RouteRun) : Prop where
  once : (run.runs.map (·.executor)).Nodup
  allowed : ∀ realm ∈ run.runs, realm ∈ modeRealms (db.getSessionExecutionMode sessionId) ∧
    cfg.policyAction call realm = .allow

/-- When the first run of a hybrid session ends in an error result, the next realm in the order that
has an executor has the other one, and its run ends in no error result. -/
def RetryLeavesExecutor (order : RealmOrder) (cfg : ToolRouterConfig V) (db : ToolDb)
    (sessionId : SessionUuid) (call : RoutedCall V) (execute : Nat → ToolExecutor → ToolAnswer) :
    Prop :=
  db.getSessionExecutionMode sessionId = .hybrid →
    cfg.policyAction call (cfg.realmOf db sessionId call.toolId) = .allow →
    ∀ start, startRealm order cfg .hybrid (cfg.realmOf db sessionId call.toolId) = some start →
    ∀ r, execute 0 start.executor = .result r → r.isError →
    ∃ fallback, order.realms.find? (cfg.isFallback start) = some fallback ∧
      fallback.executor ≠ start.executor ∧
      ∀ r, execute 1 fallback.executor = .result r → ¬ r.isError

theorem route_of_dispatch_error {r : ToolCallResult}
    (h : cfg.dispatch order db sessionId call = .error r) :
    cfg.route order db sessionId call execute = ⟨[], .result r⟩ := by
  rw [route, h]

/-- The runs of a call that starts. -/
theorem route_runs (h : cfg.dispatch order db sessionId call = .ok start)
    (execute : Nat → ToolExecutor → ToolAnswer) :
    ((cfg.route order db sessionId call execute).runs = [start] ∧
      ∀ r, execute 0 start.executor = .result r → r.isError →
        db.getSessionExecutionMode sessionId ≠ .hybrid) ∨
    ∃ r, execute 0 start.executor = .result r ∧ r.isError ∧
      db.getSessionExecutionMode sessionId = .hybrid ∧
      cfg.route order db sessionId call execute =
        tryEach execute (order.realms.filter (cfg.isFallback start)) [start] r := by
  rw [route, h]
  dsimp only
  split
  next he =>
    refine .inl ⟨rfl, fun r hr => ?_⟩
    rw [he] at hr
    cases hr
  next r he =>
    split
    next hr => exact .inr ⟨r, he, hr.1, hr.2, fallBack_eq_tryEach ..⟩
    next hr =>
      refine .inl ⟨rfl, fun r' hr' hre hm => hr ?_⟩
      rw [he] at hr'
      cases hr'
      exact ⟨hre, hm⟩

omit [BEq V] in
theorem twin_mem_fallbacks (h : cfg.configured start) :
    start.twin ∈ order.realms.filter (cfg.isFallback start) := by
  refine List.mem_filter.2 ⟨order.complete _, ?_⟩
  simp [isFallback, start.twin_ne, configured_congr start.twin_executor, h]

theorem once_route_iff : ((cfg.route order db sessionId call execute).runs.map (·.executor)).Nodup ↔
    RetryLeavesExecutor order cfg db sessionId call execute := by
  cases h : cfg.dispatch order db sessionId call with
  | error r =>
    rw [route_of_dispatch_error h]
    apply iff_of_true List.nodup_nil
    intro hm hp start hs
    have hok := dispatch_eq_ok_iff.2 ⟨hm ▸ mem_modeRealms_hybrid _, hp, hm ▸ hs⟩
    rw [h] at hok
    cases hok
  | ok start =>
    obtain ⟨-, hp, hs⟩ := dispatch_eq_ok_iff.1 h
    obtain ⟨hruns, hno⟩ | ⟨r, hr, he, hm, hroute⟩ := route_runs h execute
    · rw [hruns]
      refine iff_of_true (by simp) ?_
      intro hm _ start' hs' r hr he
      rw [hm, hs'] at hs
      cases hs
      exact (hno r hr he hm).elim
    · rw [hm] at hs
      rw [hroute, nodup_tryEach_iff (twin_mem_fallbacks (configured_of_startRealm hs)),
        List.head?_filter]
      constructor
      · intro hleave _ _ start' hs' _ _ _
        rw [hs'] at hs
        cases hs
        exact hleave
      · intro hleave
        exact hleave hm hp start hs r hr he

theorem allowed_route (h : realm ∈ (cfg.route order db sessionId call execute).runs) :
    realm ∈ modeRealms (db.getSessionExecutionMode sessionId) ∧
      cfg.policyAction call realm = .allow := by
  cases hd : cfg.dispatch order db sessionId call with
  | error r =>
    rw [route_of_dispatch_error hd] at h
    cases h
  | ok start =>
    obtain ⟨hmode, hp, hs⟩ := dispatch_eq_ok_iff.1 hd
    refine ⟨?_, (policyAction_realm ..).trans hp⟩
    obtain ⟨hruns, -⟩ | ⟨r, -, -, hm, -⟩ := route_runs hd execute
    · rw [hruns, List.mem_singleton] at h
      rw [h]
      exact mem_modeRealms_of_startRealm hmode hs
    · rw [hm]
      exact mem_modeRealms_hybrid realm

/-- A call runs at most once on each executor exactly when its retry leaves the executor that
failed. -/
theorem runsOnce_route_iff :
    RunsOnce order cfg db sessionId call (cfg.route order db sessionId call execute) ↔
      RetryLeavesExecutor order cfg db sessionId call execute :=
  ⟨fun h => once_route_iff.1 h.once, fun h => ⟨once_route_iff.2 h, fun _ => allowed_route⟩⟩

/-- An MCP tool that fails in a hybrid session: `server_managed` is the next realm, of the same
executor. -/
theorem not_runsOnce_shared_executor :
    ¬ ∀ (order : RealmOrder) (cfg : ToolRouterConfig Nat) (db : ToolDb) (sessionId : SessionUuid)
        (call : RoutedCall Nat) (execute : Nat → ToolExecutor → ToolAnswer),
      RunsOnce order cfg db sessionId call (cfg.route order db sessionId call execute) := by
  intro h
  let order : RealmOrder :=
    ⟨[.serverManaged, .mcpRemote, .clientLocal, .clientProxied], by decide,
      fun realm => by cases realm <;> decide⟩
  let db : ToolDb := ⟨[⟨1#128, "t", "u", .active, .hybrid⟩], []⟩
  let call : RoutedCall Nat := ⟨"mcp.files.write", [], "c"⟩
  let failed : ToolCallResult := ⟨"c", "mcp.files.write", "Disk full.", true, 0, "", ""⟩
  have h := (h order ⟨true, true, some .default⟩ db 1#128 call fun _ _ => .result failed).once
  revert h
  decide

end

end ToolRouterConfig

end LlmPort.Gateway
