import Mathlib.Logic.Function.Basic
import LlmPort.Mcp.Internal
import LlmPort.Transition.Run

/-!
# The gateway's MCP client and its tool cache

`services/gateway/mcp_client.py` decodes what the internal endpoints answer, and
`mcp_tool_cache.py` keeps the last catalog of each tenant for as long as the version it reads is
the cached one.
-/

namespace LlmPort.Gateway

open Text Mcp Transition

structure ToolCatalog where
  version : Int
  tools : List Json

/-- `ToolCallResult` of the client. -/
structure McpToolCallResult where
  content : String
  isError : Bool
  redactionSummary : Option Json

/-- An integer of a response. -/
def asInt : Json → Option Int
  | .number text => text.toInt?
  | _ => none

def asList : Json → Option (List Json)
  | .array items => some items
  | _ => none

namespace MCPClient

/-- `data.get("version", 0)` -/
def versionOf (data : Json) : Int := ((data.get? "version").bind asInt).getD 0

/-- `get_tool_catalog`; `none` is a request that failed. -/
def getToolCatalog : Option Json → ToolCatalog
  | none => ⟨0, []⟩
  | some data => ⟨versionOf data, ((data.get? "tools").bind asList).getD []⟩

def getCatalogVersion : Option Json → Int
  | none => 0
  | some data => versionOf data

/-- `str(value)` is a text itself, and of other values what `repr` gives. -/
def str (repr : Json → String) : Json → String
  | .string s => s
  | value => repr value

/-- What `call_tool` makes of a response. -/
def callResult (repr : Json → String) (data : Json) : McpToolCallResult where
  content := str repr ((data.get? "content").getD (.string ""))
  isError := match data.get? "is_error" with
    | some (.bool b) => b
    | _ => false
  redactionSummary := match data.get? "redaction_summary" with
    | some .null => none
    | value => value

end MCPClient

/-! ## The cache -/

/-- A catalog the cache holds, with the version the service had given it. -/
structure CachedCatalog where
  catalog : ToolCatalog
  served : Int

/-- A lookup in the middle of `get_tools`. -/
inductive LookupPoint where
  | idle
  /-- The version is being asked for; what was cached is at hand. -/
  | asking (tenantId : String) (cached : Option CachedCatalog)
  | fetching (tenantId : String)

/-- A lookup that has decided: on what was cached of its tenant, and on the version the service
gave. -/
structure LookupRecord where
  tenantId : String
  cached : Option Int
  current : Int
  reused : Bool

/-- The service's catalogs, the cache, and the lookups under way. -/
structure CacheRun where
  served : String → ToolCatalogResponse
  cache : String → Option CachedCatalog
  point : Nat → LookupPoint
  log : List LookupRecord

inductive CacheEvent where
  /-- The catalog of a tenant becomes another one. -/
  | change (tenantId : String) (catalog : ToolCatalogResponse)
  | lookup (i : Nat) (tenantId : String)
  /-- The answer of the version endpoint arrives, or its request fails. -/
  | version (i : Nat) (reached : Bool)
  | catalog (i : Nat) (reached : Bool)
  | invalidate (tenantId : Option String)

namespace CacheRun

def initial (served : String → ToolCatalogResponse) : CacheRun :=
  ⟨served, fun _ => none, fun _ => .idle, []⟩

/-- `cached.version == remote_version and remote_version > 0` -/
def reusable (cached : Option CachedCatalog) (remoteVersion : Int) : Bool :=
  cached.any fun c => c.catalog.version = remoteVersion ∧ 0 < remoteVersion

def onVersion (s : CacheRun) (i : Nat) (tenantId : String) (cached : Option CachedCatalog)
    (reached : Bool) : CacheRun :=
  let current := (s.served tenantId).catalogVersion
  let remoteVersion := MCPClient.getCatalogVersion
    (if reached then some (catalogVersionJson current tenantId) else none)
  let reused := reusable cached remoteVersion
  { s with
    point := Function.update s.point i (if reused then .idle else .fetching tenantId)
    log := s.log ++ [⟨tenantId, cached.map (·.served), current, reused⟩] }

def onCatalog (s : CacheRun) (i : Nat) (tenantId : String) (reached : Bool) : CacheRun :=
  let response := s.served tenantId
  let catalog := MCPClient.getToolCatalog (if reached then some response.json else none)
  { s with
    point := Function.update s.point i .idle
    cache := if catalog.tools.isEmpty then s.cache
      else Function.update s.cache tenantId (some ⟨catalog, response.catalogVersion⟩) }

def step (s : CacheRun) : CacheEvent → CacheRun
  | .change tenantId catalog => { s with served := Function.update s.served tenantId catalog }
  | .lookup i tenantId => match s.point i with
    | .idle => { s with point := Function.update s.point i (.asking tenantId (s.cache tenantId)) }
    | _ => s
  | .version i reached => match s.point i with
    | .asking tenantId cached => s.onVersion i tenantId cached reached
    | _ => s
  | .catalog i reached => match s.point i with
    | .fetching tenantId => s.onCatalog i tenantId reached
    | _ => s
  | .invalidate tenantId =>
    if tenantId.getD "" ≠ "" then
      { s with cache := Function.update s.cache (tenantId.getD "") none }
    else { s with cache := fun _ => none }

end CacheRun

/-! ## What arrives -/

theorem version_of_catalog (response : ToolCatalogResponse) :
    (MCPClient.getToolCatalog (some response.json)).version = 0 := rfl

theorem tools_of_catalog (response : ToolCatalogResponse) :
    (MCPClient.getToolCatalog (some response.json)).tools = response.tools.map (·.json) := rfl

theorem getCatalogVersion_eq_zero (reached : Bool) (version : Int) (tenantId : String) :
    MCPClient.getCatalogVersion
      (if reached then some (catalogVersionJson version tenantId) else none) = 0 := by
  cases reached <;> rfl

/-- The endpoint's content is a list, and the client's a text. -/
theorem content_ne (repr : Json → String) (response : ToolCallResponse) :
    Json.string (MCPClient.callResult repr response.json).content ≠
      .array (response.content.map .object) := by
  intro h
  cases h

/-- No version that is read is positive, so nothing is reused. -/
theorem not_reusable (cached : Option CachedCatalog) : CacheRun.reusable cached 0 = false := by
  cases cached with
  | none => rfl
  | some c => simp [CacheRun.reusable]

theorem step_log (s : CacheRun) (e : CacheEvent) (h : ∀ r ∈ s.log, r.reused = false) :
    ∀ r ∈ (s.step e).log, r.reused = false := by
  cases e with
  | change tenantId catalog => exact h
  | lookup i tenantId =>
    unfold CacheRun.step
    dsimp only
    split <;> exact h
  | version i reached =>
    unfold CacheRun.step
    dsimp only
    split
    next tenantId cached _ =>
      intro r hr
      rcases List.mem_append.1 hr with hr | hr
      · exact h r hr
      · rw [List.mem_singleton.1 hr]
        dsimp only
        rw [getCatalogVersion_eq_zero]
        exact not_reusable cached
    next => exact h
  | catalog i reached =>
    unfold CacheRun.step
    dsimp only
    split <;> exact h
  | invalidate tenantId =>
    unfold CacheRun.step
    dsimp only
    split <;> exact h

/-- A decoded version is the encoded one exactly where that is 0; the tool list is always the same
and the content of a result never; and in every history of catalogs and lookups a lookup reuses the
cache exactly while the version is unchanged only where no catalog of that version is cached. -/
theorem wire_agreement_iff (response : ToolCatalogResponse) (version : Int) (tenantId : String)
    (repr : Json → String) (result : ToolCallResponse) (served : String → ToolCatalogResponse)
    (es : List CacheEvent) :
    ((MCPClient.getToolCatalog (some response.json)).version = response.catalogVersion ↔
      response.catalogVersion = 0) ∧
    (MCPClient.getToolCatalog (some response.json)).tools = response.tools.map (·.json) ∧
    (MCPClient.getCatalogVersion (some (catalogVersionJson version tenantId)) = version ↔
      version = 0) ∧
    Json.string (MCPClient.callResult repr result.json).content ≠
      .array (result.content.map .object) ∧
    ∀ r ∈ (run CacheRun.step (CacheRun.initial served) es).log,
      (r.reused = true ↔ r.cached = some r.current) ↔ r.cached ≠ some r.current := by
  have hversion : MCPClient.getCatalogVersion (some (catalogVersionJson version tenantId)) = 0 :=
    getCatalogVersion_eq_zero true version tenantId
  rw [version_of_catalog, hversion]
  refine ⟨eq_comm, tools_of_catalog response, eq_comm, content_ne repr result, fun r hr => ?_⟩
  have hlog : ∀ r ∈ (run CacheRun.step (CacheRun.initial served) es).log, r.reused = false :=
    run_invariant (fun s e h => step_log s e h) fun _ h => nomatch h
  rw [hlog r hr]
  simp

/-- A catalog of one tool at version 1. -/
def oneTool : ToolCatalogResponse where
  catalogVersion := 1
  tools := [⟨"mcp.wiki.find", .object [], "wiki", "allow", "mcp_remote", "mcp"⟩]

theorem unchanged_catalog_is_refetched :
    ¬ ((∀ response : ToolCatalogResponse,
        (MCPClient.getToolCatalog (some response.json)).version = response.catalogVersion) ∧
      ∀ (served : String → ToolCatalogResponse) (es : List CacheEvent),
        ∀ r ∈ (run CacheRun.step (CacheRun.initial served) es).log,
          (r.reused = true ↔ r.cached = some r.current)) := by
  rintro ⟨-, h⟩
  have hr := h (fun _ => oneTool) [.lookup 0 "default", .version 0 true, .catalog 0 true,
    .lookup 0 "default", .version 0 true] ⟨"default", some 1, 1, false⟩
    (List.mem_cons_of_mem _ List.mem_cons_self)
  exact Bool.noConfusion (hr.2 rfl)

end LlmPort.Gateway
