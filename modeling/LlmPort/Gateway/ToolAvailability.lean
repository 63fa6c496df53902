import LlmPort.Gateway.ToolRouter

/-!
# The tool catalog of a session

`get_available_tools` of `services/gateway/tool_availability.py`, and how the tools it shows as
enabled compare with those that the router runs.
-/

namespace LlmPort.Gateway

/-- An entry of the tenant's MCP catalog; the two `func` fields are of its `openai_tool`. -/
structure McpCatalogEntry where
  qualifiedName : Option String
  funcName : Option String
  funcDescription : Option String
  realm : Option String
  source : Option String

/-- A `schema_json` that is not falsy: an object with its `description`, or no object. -/
inductive SchemaJson where
  | object (description : Option String)
  | other

structure SessionClientCapability where
  sessionId : SessionUuid
  clientId : String
  toolId : String
  realm : ToolRealm
  schemaJson : Option SchemaJson
  available : Bool

structure SessionToolOverride where
  sessionId : SessionUuid
  toolId : String
  enabled : Bool

structure CatalogDb extends ToolDb where
  overrides : List SessionToolOverride
  capabilities : List SessionClientCapability

/-- A tool as `_gather_tools` collects it. -/
structure RawTool where
  toolId : String
  displayName : String
  description : String
  realm : String
  source : String
  available : Bool

structure ToolAvailabilityDTO where
  toolId : String
  displayName : String
  description : String
  realm : String
  source : String
  effectiveEnabled : Bool
  policyAllowed : Bool
  userEnabled : Bool
  available : Bool
  availabilityReason : Option String

structure ToolAvailabilityResponse where
  sessionId : SessionUuid
  executionMode : ExecutionMode
  effectiveCatalogVersion : Nat
  tools : List ToolAvailabilityDTO

def McpCatalogEntry.rawTool (entry : McpCatalogEntry) : RawTool where
  toolId := entry.qualifiedName.getD ""
  displayName := entry.funcName.getD (entry.qualifiedName.getD "")
  description := entry.funcDescription.getD ""
  realm := entry.realm.getD "mcp_remote"
  source := entry.source.getD "mcp"
  available := true

/-- `none` where `(cap.schema_json or {}).get` raises. -/
def SessionClientCapability.rawTool? (cap : SessionClientCapability) : Option RawTool :=
  (match cap.schemaJson with
    | none => some ""
    | some (.object description) => some (description.getD "")
    | some .other => none).map fun description =>
  { toolId := cap.toolId
    displayName := String.ofList (cap.toolId.toList.reverse.takeWhile (· ≠ '.')).reverse
    description
    realm := cap.realm.value
    source := "local_agent"
    available := cap.available }

/-- The tools collected before one raises. -/
def collectCapabilities : List SessionClientCapability → List RawTool
  | [] => []
  | cap :: rest => match cap.rawTool? with
    | none => []
    | some tool => tool :: collectCapabilities rest

namespace CatalogDb

variable {V : Type}

/-- `override_map` -/
def overrideMap (db : CatalogDb) (sessionId : SessionUuid) (toolId : String) : Option Bool :=
  ((db.overrides.filter (·.sessionId = sessionId)).reverse.find? (·.toolId = toolId)).map (·.enabled)

def getSessionClientCapabilities (db : CatalogDb) (sessionId : SessionUuid) :
    List SessionClientCapability :=
  db.capabilities.filter (·.sessionId = sessionId)

/-- `_gather_tools`. There is no catalog where there is no cache, or it raises. -/
def gatherTools (db : CatalogDb) (mcpCatalog : Option (List McpCatalogEntry))
    (sessionId : SessionUuid) : List RawTool :=
  (mcpCatalog.getD []).map (·.rawTool) ++
    collectCapabilities (db.getSessionClientCapabilities sessionId)

variable [BEq V]

def availabilityDTO (db : CatalogDb) (engine : PolicyEngine V) (sessionId : SessionUuid)
    (tool : RawTool) : ToolAvailabilityDTO :=
  let mode := db.getSessionExecutionMode sessionId
  let decision := engine.evaluate tool.toolId [] tool.realm
  let policyAllowed : Bool := decision.action ≠ .deny
  let modeAllows := (modeRealms mode).any (·.value = tool.realm)
  let userEnabled := (db.overrideMap sessionId tool.toolId).getD true
  let effectiveEnabled := policyAllowed && modeAllows && userEnabled && tool.available
  { toolId := tool.toolId, displayName := tool.displayName, description := tool.description
    realm := tool.realm, source := tool.source
    effectiveEnabled, policyAllowed, userEnabled, available := tool.available
    availabilityReason :=
      if effectiveEnabled then none
      else if !policyAllowed then PolicyEngine.reasonOr decision.reason "denied_by_policy"
      else if !modeAllows then some s!"realm_not_allowed_in_{mode.value}_mode"
      else if !userEnabled then some "disabled_by_user"
      else if !tool.available then some "tool_unavailable"
      else none }

def getAvailableTools (db : CatalogDb) (mcpCatalog : Option (List McpCatalogEntry))
    (policyEngine : Option (PolicyEngine V)) (sessionId : SessionUuid)
    (includeDisabled includeUnavailable : Bool) : ToolAvailabilityResponse where
  sessionId := sessionId
  executionMode := db.getSessionExecutionMode sessionId
  effectiveCatalogVersion :=
    ((db.getSessionExecutionPolicy sessionId).map (·.catalogVersion)).getD 0
  tools := ((db.gatherTools mcpCatalog sessionId).map
    (db.availabilityDTO (policyEngine.getD .default) sessionId)).filter fun dto =>
      (includeDisabled || dto.effectiveEnabled) && (includeUnavailable || dto.available)

end CatalogDb

/-! ## Tools that run, and tools that are shown as enabled -/

/-- The answers of the two executors: without a connected client, the broker answers itself. -/
def executorAnswers {V : Type} (clientConnected : Bool) (call : RoutedCall V)
    (server client : Nat → ToolAnswer) (n : Nat) : ToolExecutor → ToolAnswer
  | .server => server n
  | .clientBroker =>
    if clientConnected then client n
    else .result
      (.brokered call.callId call.toolId "No client connected for this session." true 0)

/-- A run that reaches the MCP service, or a client. -/
def RouteRun.executes (run : RouteRun) (clientConnected : Bool) : Prop :=
  ∃ realm ∈ run.runs, realm.executor = .server ∨ clientConnected

def ToolAvailabilityResponse.offers (response : ToolAvailabilityResponse) (toolId : String) :
    Prop :=
  ∃ dto ∈ response.tools, dto.toolId = toolId ∧ dto.effectiveEnabled

namespace ToolRouterConfig

variable {V : Type} [BEq V]

/-- The router runs the call on an executor that reaches someone, the second time at the latest. -/
structure Reaches (order : RealmOrder) (cfg : ToolRouterConfig V) (db : ToolDb)
    (sessionId : SessionUuid) (call : RoutedCall V) (clientConnected : Bool) : Prop where
  mode : cfg.realmOf db sessionId call.toolId ∈ modeRealms (db.getSessionExecutionMode sessionId)
  policy : cfg.policyAction call (cfg.realmOf db sessionId call.toolId) = .allow
  start : ∃ start, cfg.startRealm order (db.getSessionExecutionMode sessionId)
      (cfg.realmOf db sessionId call.toolId) = some start ∧
    (start.executor = .server ∨ clientConnected ∨
      db.getSessionExecutionMode sessionId = .hybrid ∧ cfg.serverExecutor)

end ToolRouterConfig

namespace CatalogDb

variable {V : Type} [BEq V]

/-- The catalog has an entry of the tool that is available, of a realm that the mode allows, and
that neither the user nor the policy, asked without arguments, takes away. -/
structure Lists (db : CatalogDb) (mcpCatalog : Option (List McpCatalogEntry))
    (engine : PolicyEngine V) (sessionId : SessionUuid) (toolId : String) : Prop where
  entry : ∃ tool ∈ db.gatherTools mcpCatalog sessionId, tool.toolId = toolId ∧ tool.available ∧
    ∃ realm ∈ modeRealms (db.getSessionExecutionMode sessionId), realm.value = tool.realm
  user : db.overrideMap sessionId toolId ≠ some false
  policy : ∀ realm, (engine.evaluate toolId [] realm).action ≠ .deny

end CatalogDb

section
variable {execute : Nat → ToolExecutor → ToolAnswer} {l runs : List ToolRealm} {r : ToolCallResult}

/-- As long as the broker fails, the loop comes to a realm of the server. -/
theorem exists_server_mem_tryEach_runs (hl : ∃ realm ∈ l, realm.executor = .server)
    (hb : ∀ n, ∃ r, execute n .clientBroker = .result r ∧ r.isError) :
    ∃ realm ∈ (tryEach execute l runs r).runs, realm.executor = .server := by
  induction l generalizing runs r with
  | nil =>
    obtain ⟨realm, h, -⟩ := hl
    cases h
  | cons fallback rest ih =>
    cases he : fallback.executor with
    | server =>
      exact ⟨fallback, prefix_tryEach_cons_runs.subset (List.mem_append_right _ (by simp)), he⟩
    | clientBroker =>
      obtain ⟨r', hr', herr⟩ := hb runs.length
      rw [tryEach_cons_of_error (he ▸ hr') herr]
      apply ih
      obtain ⟨realm, h, hs⟩ := hl
      obtain rfl | h := List.mem_cons.1 h
      · rw [he] at hs
        cases hs
      · exact ⟨realm, h, hs⟩

end

section
variable {V : Type} {order : RealmOrder} {cfg : ToolRouterConfig V} {call : RoutedCall V}
  {clientConnected : Bool} {server client : Nat → ToolAnswer}

/-- Of the two realms of a hybrid session's server executor one is tried when the client fails. -/
theorem serverManaged_mem_fallbacks {start : ToolRealm} (hstart : start.executor = .clientBroker)
    (h : cfg.serverExecutor) :
    ToolRealm.serverManaged ∈ order.realms.filter (cfg.isFallback start) := by
  refine List.mem_filter.2 ⟨order.complete _, ?_⟩
  have hne : ToolRealm.serverManaged ≠ start := by
    rintro rfl
    cases hstart
  simpa [ToolRouterConfig.isFallback, ToolRouterConfig.configured, ToolRealm.executor, hne] using h

theorem executorAnswers_clientBroker (h : ¬ clientConnected) (n : Nat) : ∃ r,
    executorAnswers clientConnected call server client n .clientBroker = .result r ∧ r.isError :=
  ⟨_, if_neg h, rfl⟩

theorem executes_tryEach_iff {start : ToolRealm} {r : ToolCallResult} :
    (tryEach (executorAnswers clientConnected call server client)
        (order.realms.filter (cfg.isFallback start)) [start] r).executes clientConnected ↔
      start.executor = .server ∨ clientConnected ∨ cfg.serverExecutor := by
  constructor
  · rintro ⟨realm, hmem, h | h⟩
    · obtain hmem | hmem := mem_of_mem_tryEach_runs hmem
      · rw [List.mem_singleton] at hmem
        exact .inl (hmem ▸ h)
      · have hc := (List.mem_filter.1 hmem).2
        simp only [ToolRouterConfig.isFallback, ToolRouterConfig.configured, h,
          Bool.and_eq_true] at hc
        exact .inr (.inr hc.2)
    · exact .inr (.inl h)
  · intro h
    have hstart : start ∈ (tryEach (executorAnswers clientConnected call server client)
        (order.realms.filter (cfg.isFallback start)) [start] r).runs :=
      prefix_tryEach_runs.subset (List.mem_singleton_self _)
    by_cases hconn : clientConnected
    · exact ⟨start, hstart, .inr hconn⟩
    cases hexec : start.executor with
    | server => exact ⟨start, hstart, .inl hexec⟩
    | clientBroker =>
      have hserver : cfg.serverExecutor := by simpa [hexec, hconn] using h
      obtain ⟨realm, hmem, hs⟩ := exists_server_mem_tryEach_runs
        ⟨_, serverManaged_mem_fallbacks hexec hserver, rfl⟩ (executorAnswers_clientBroker hconn)
      exact ⟨realm, hmem, .inl hs⟩

variable [BEq V] {db : CatalogDb} {mcpCatalog : Option (List McpCatalogEntry)}
  {sessionId : SessionUuid}

theorem executes_route_iff_of_dispatch {start : ToolRealm}
    (hd : cfg.dispatch order db.toToolDb sessionId call = .ok start) :
    (cfg.route order db.toToolDb sessionId call
        (executorAnswers clientConnected call server client)).executes clientConnected ↔
      start.executor = .server ∨ clientConnected ∨
        db.getSessionExecutionMode sessionId = .hybrid ∧ cfg.serverExecutor := by
  obtain ⟨hruns, hno⟩ | ⟨r, hr, he, hmode, hroute⟩ := ToolRouterConfig.route_runs hd
    (executorAnswers clientConnected call server client)
  · unfold RouteRun.executes
    rw [hruns]
    simp only [List.mem_singleton, exists_eq_left]
    constructor
    · rintro (h | h)
      · exact .inl h
      · exact .inr (.inl h)
    · rintro (h | h | ⟨hmode, -⟩)
      · exact .inl h
      · exact .inr h
      · by_contra hcon
        obtain ⟨hserver, hconn⟩ := not_or.1 hcon
        have hclient : start.executor = .clientBroker := by
          cases hstart : start.executor with
          | server => exact (hserver hstart).elim
          | clientBroker => rfl
        obtain ⟨r, hr, herr⟩ := executorAnswers_clientBroker hconn 0
        exact hno r (hclient ▸ hr) herr hmode
  · rw [hroute, executes_tryEach_iff]
    simp only [hmode, true_and]

theorem executes_route_iff :
    (cfg.route order db.toToolDb sessionId call
        (executorAnswers clientConnected call server client)).executes clientConnected ↔
      cfg.Reaches order db.toToolDb sessionId call clientConnected := by
  cases hd : cfg.dispatch order db.toToolDb sessionId call with
  | error r =>
    rw [ToolRouterConfig.route_of_dispatch_error hd]
    refine iff_of_false (fun ⟨realm, h, _⟩ => by cases h) ?_
    rintro ⟨hm, hp, start, hs, -⟩
    rw [ToolRouterConfig.dispatch_eq_ok_iff.2 ⟨hm, hp, hs⟩] at hd
    cases hd
  | ok start =>
    obtain ⟨hm, hp, hs⟩ := ToolRouterConfig.dispatch_eq_ok_iff.1 hd
    rw [executes_route_iff_of_dispatch hd]
    constructor
    · exact fun h => ⟨hm, hp, start, hs, h⟩
    · rintro ⟨-, -, start', hs', h⟩
      rw [hs] at hs'
      cases hs'
      exact h

namespace CatalogDb

theorem effectiveEnabled_availabilityDTO_iff {engine : PolicyEngine V} {tool : RawTool} :
    (db.availabilityDTO engine sessionId tool).effectiveEnabled ↔
      (engine.evaluate tool.toolId [] tool.realm).action ≠ .deny ∧
        (∃ realm ∈ modeRealms (db.getSessionExecutionMode sessionId), realm.value = tool.realm) ∧
        db.overrideMap sessionId tool.toolId ≠ some false ∧ tool.available := by
  have huser : (db.overrideMap sessionId tool.toolId).getD true = true ↔
      db.overrideMap sessionId tool.toolId ≠ some false := by
    rcases db.overrideMap sessionId tool.toolId with _ | _ | _ <;> simp
  simp only [availabilityDTO, Bool.and_eq_true, decide_eq_true_eq, List.any_eq_true, huser,
    and_assoc]

theorem offers_getAvailableTools_iff {policyEngine : Option (PolicyEngine V)} {toolId : String}
    {includeDisabled includeUnavailable : Bool} :
    (db.getAvailableTools mcpCatalog policyEngine sessionId includeDisabled
        includeUnavailable).offers toolId ↔
      db.Lists mcpCatalog (policyEngine.getD .default) sessionId toolId := by
  constructor
  · rintro ⟨dto, hmem, hid, he⟩
    obtain ⟨tool, htool, rfl⟩ := List.mem_map.1 (List.mem_filter.1 hmem).1
    obtain rfl : tool.toolId = toolId := hid
    obtain ⟨hp, hm, hu, ha⟩ := effectiveEnabled_availabilityDTO_iff.1 he
    exact ⟨⟨tool, htool, rfl, ha, hm⟩, hu, fun _ => hp⟩
  · rintro ⟨⟨tool, htool, rfl, ha, hm⟩, hu, hp⟩
    have he := effectiveEnabled_availabilityDTO_iff.2 ⟨hp tool.realm, hm, hu, ha⟩
    refine ⟨_, List.mem_filter.2 ⟨List.mem_map_of_mem htool, ?_⟩, rfl, he⟩
    have ha' : (db.availabilityDTO (policyEngine.getD .default) sessionId tool).available := ha
    simp [he, ha']

end CatalogDb

/-- Where the router would run the call, nothing takes the tool off the list; and where the tool is
listed, the router lets the call through. -/
structure OffersAgree (order : RealmOrder) (cfg : ToolRouterConfig V) (db : CatalogDb)
    (mcpCatalog : Option (List McpCatalogEntry)) (sessionId : SessionUuid) (call : RoutedCall V)
    (clientConnected : Bool) : Prop where
  listed : cfg.Reaches order db.toToolDb sessionId call clientConnected →
    db.Lists mcpCatalog (cfg.policyEngine.getD .default) sessionId call.toolId
  reached : db.Lists mcpCatalog (cfg.policyEngine.getD .default) sessionId call.toolId →
    cfg.Reaches order db.toToolDb sessionId call clientConnected

/-- The router runs what the catalog shows as enabled exactly when the two rules agree on the
call. -/
theorem executes_iff_offers_iff {includeDisabled includeUnavailable : Bool} :
    ((cfg.route order db.toToolDb sessionId call
        (executorAnswers clientConnected call server client)).executes clientConnected ↔
      (db.getAvailableTools mcpCatalog cfg.policyEngine sessionId includeDisabled
        includeUnavailable).offers call.toolId) ↔
      OffersAgree order cfg db mcpCatalog sessionId call clientConnected := by
  rw [executes_route_iff, CatalogDb.offers_getAvailableTools_iff]
  exact ⟨fun h => ⟨h.1, h.2⟩, fun h => ⟨h.listed, h.reached⟩⟩

/-- A tool that its user has switched off for the session runs all the same. -/
theorem not_executes_iff_offers_user_override :
    ¬ ∀ (order : RealmOrder) (cfg : ToolRouterConfig Nat) (db : CatalogDb)
        (mcpCatalog : Option (List McpCatalogEntry)) (sessionId : SessionUuid)
        (call : RoutedCall Nat) (clientConnected : Bool) (server client : Nat → ToolAnswer)
        (includeDisabled includeUnavailable : Bool),
      (cfg.route order db.toToolDb sessionId call
          (executorAnswers clientConnected call server client)).executes clientConnected ↔
        (db.getAvailableTools mcpCatalog cfg.policyEngine sessionId includeDisabled
          includeUnavailable).offers call.toolId := by
  intro h
  let order : RealmOrder :=
    ⟨[.serverManaged, .mcpRemote, .clientLocal, .clientProxied], by decide,
      fun realm => by cases realm <;> decide⟩
  let db : CatalogDb :=
    { sessions := [⟨1#128, "t", "u", .active, .serverOnly⟩], policies := []
      overrides := [⟨1#128, "mcp.files.write", false⟩], capabilities := [] }
  let entry : McpCatalogEntry :=
    ⟨some "mcp.files.write", none, none, some "mcp_remote", some "mcp"⟩
  let call : RoutedCall Nat := ⟨"mcp.files.write", [], "c"⟩
  have hiff := h order ⟨true, true, some .default⟩ db (some [entry]) 1#128 call false
    (fun _ => .raised) (fun _ => .raised) true true
  have hruns : ToolRealm.mcpRemote ∈ (ToolRouterConfig.route order ⟨true, true, some .default⟩
      db.toToolDb 1#128 call
      (executorAnswers false call (fun _ => .raised) fun _ => .raised)).runs := by
    decide
  obtain ⟨dto, hmem, -, he⟩ := hiff.1 ⟨_, hruns, .inl rfl⟩
  have hall : ((db.getAvailableTools (some [entry])
      (some PolicyEngine.default : Option (PolicyEngine Nat)) 1#128 true true).tools.all (!·.effectiveEnabled)) = true := by
    decide
  have hno := List.all_eq_true.1 hall dto hmem
  rw [he] at hno
  cases hno

end

end LlmPort.Gateway
