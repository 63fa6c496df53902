import LlmPort.Mcp.PrivacyProxy
import LlmPort.Mcp.Registry

/-!
# The internal endpoints

`web/api/internal/views.py`: the catalog, its version and the execution of a tool, as the gateway
asks for them.
-/

namespace LlmPort.Mcp

open Text

/-- What the endpoints read: servers, tools, the version counters of the tenants where they can be
read, and the servers with a connection. -/
structure McpService where
  servers : ServerId → Option MCPServer
  tools : List MCPTool
  catalogVersion : String → Option Int
  connected : ServerId → Bool
  privacyProxy : Option PrivacyProxy

structure ToolCatalogEntry where
  qualifiedName : String
  openaiTool : Json
  serverId : ServerId
  piiMode : String
  realm : String
  source : String

structure ToolCatalogResponse where
  catalogVersion : Int
  tools : List ToolCatalogEntry

structure ToolCallRequest where
  qualifiedName : String
  arguments : JsonObject
  tenantId : String
  requestId : Option String
  piiModeOverride : Option String

structure ToolCallResponse where
  qualifiedName : String
  content : List JsonObject
  isError : Bool
  redactionSummary : Option RedactionSummary

structure HTTPException where
  statusCode : Nat
  detail : String
  deriving DecidableEq

/-- A call on the connection to a server. -/
structure UpstreamToolCall where
  serverId : ServerId
  toolName : String
  arguments : Json

/-- What a server answers to a call. -/
structure ToolResult where
  content : List JsonObject
  isError : Bool

namespace McpService

variable (service : McpService)

def getToolCatalog (tenantId : String) : ToolCatalogResponse where
  catalogVersion := (service.catalogVersion tenantId).getD 0
  tools := (listToolsByTenant service.tools tenantId true).filterMap fun tool =>
    tool.openaiSchema.map fun openaiTool =>
      { qualifiedName := tool.qualifiedName
        openaiTool
        serverId := tool.serverId
        piiMode := ((service.servers tool.serverId).map (·.piiMode)).getD "redact"
        realm := tool.realm
        source := tool.source }

/-- The tool of a call and its server, or what the endpoint raises. -/
def resolve (tenantId qualifiedName : String) : Except HTTPException (MCPTool × MCPServer) :=
  match getToolByQualifiedName service.tools tenantId qualifiedName with
  | none => .error ⟨404, "Tool not found."⟩
  | some tool =>
    if !tool.enabled then .error ⟨403, "Tool is disabled."⟩
    else match service.servers tool.serverId with
      | none => .error ⟨404, "Server not found."⟩
      | some server =>
        if !server.enabled then .error ⟨403, "Server is disabled."⟩
        else if !service.connected tool.serverId then .error ⟨502, "Server not connected."⟩
        else .ok (tool, server)

/-- `body.pii_mode_override or server.pii_mode` -/
def effectivePiiMode (body : ToolCallRequest) (server : MCPServer) : String :=
  if body.piiModeOverride.getD "" = "" then server.piiMode else body.piiModeOverride.getD ""

/-- `POST /tools/call`: the call made upstream, with the response; the upstream gives an error
where its call raises. -/
def callTool (upstream : UpstreamToolCall → Except String ToolResult) (body : ToolCallRequest) :
    Except HTTPException (UpstreamToolCall × ToolCallResponse) := do
  let (tool, server) ← service.resolve body.tenantId body.qualifiedName
  let decision : PrivacyDecision := match service.privacyProxy with
    | none => .passed body.arguments
    | some proxy => proxy.check body.arguments (effectivePiiMode body server)
  if !decision.allowed then .error ⟨451, "Tool call blocked by privacy policy."⟩
  else
    let call : UpstreamToolCall := ⟨tool.serverId, tool.upstreamName, decision.sanitizedArgs⟩
    match upstream call with
    | .error exc =>
      let part := [("type", .string "text"), ("text", .string ("Tool execution error: " ++ exc))]
      .ok (call, ⟨body.qualifiedName, [part], true, decision.redactionSummary⟩)
    | .ok result =>
      .ok (call, ⟨body.qualifiedName, result.content, result.isError, decision.redactionSummary⟩)

end McpService

/-! ## What goes over the wire -/

/-- A number of a response. -/
def jsonInt (n : Int) : Json := .number (toString n)

def ToolCatalogEntry.json (entry : ToolCatalogEntry) : Json :=
  .object [("qualified_name", .string entry.qualifiedName), ("openai_tool", entry.openaiTool),
    ("server_id", .string entry.serverId), ("pii_mode", .string entry.piiMode),
    ("realm", .string entry.realm), ("source", .string entry.source)]

def ToolCatalogResponse.json (response : ToolCatalogResponse) : Json :=
  .object [("catalog_version", jsonInt response.catalogVersion),
    ("tools", .array (response.tools.map (·.json)))]

/-- `GET /tools/catalog/version` -/
def catalogVersionJson (version : Int) (tenantId : String) : Json :=
  .object [("catalog_version", jsonInt version), ("tenant_id", .string tenantId)]

def RedactionSummary.json (summary : RedactionSummary) : Json :=
  .object [("action", .string summary.action), ("count", jsonInt summary.count)]

def ToolCallResponse.json (response : ToolCallResponse) : Json :=
  .object [("qualified_name", .string response.qualifiedName),
    ("content", .array (response.content.map .object)), ("is_error", .bool response.isError),
    ("redaction_summary", response.redactionSummary.elim .null (·.json))]

end LlmPort.Mcp
