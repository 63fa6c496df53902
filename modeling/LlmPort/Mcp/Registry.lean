import LlmPort.Text.Json
import LlmPort.Transition.Upsert

/-!
# The tool registry

The servers and tools of the MCP service, the descriptors its transports make of what a server
reports, and how `services/schema_mapper.py` names and maps them.
-/

namespace LlmPort.Mcp

open Text Transition

/-- The text of a server's id. -/
abbrev ServerId := String

/-- The columns of a server that the registry's functions read. -/
structure MCPServer where
  tenantId : String
  name : String
  toolPrefix : String
  piiMode : String
  enabled : Bool

/-- A tool as its server reports it. -/
structure RemoteTool where
  name : String
  description : Option String
  /-- `none` where it is no dict. -/
  inputSchema : Option JsonObject
  annotations : JsonObject

structure MCPToolDescriptor where
  upstreamName : String
  qualifiedName : String
  description : String
  inputSchema : JsonObject
  annotations : JsonObject

/-- A row of `mcp_tools`; the pair of tenant and qualified name is unique and stands for the id. -/
structure MCPTool where
  serverId : ServerId
  tenantId : String
  upstreamName : String
  qualifiedName : String
  displayName : Option String
  description : String
  rawSchema : JsonObject
  openaiSchema : Option Json
  annotations : Option JsonObject
  enabled : Bool
  version : Nat
  schemaHash : String
  realm : String
  source : String
  lastSeenAt : Nat

def MCPTool.key (row : MCPTool) : String × String := (row.tenantId, row.qualifiedName)

/-- `f"mcp.{tool_prefix}.{name}"` -/
def qualifiedName (toolPrefix name : String) : String := "mcp." ++ toolPrefix ++ "." ++ name

/-- `list_tools` of the transports. -/
def listTools (toolPrefix : String) (tools : List RemoteTool) : List MCPToolDescriptor :=
  tools.map fun tool =>
    { upstreamName := tool.name
      qualifiedName := qualifiedName toolPrefix tool.name
      description := tool.description.getD ""
      inputSchema := tool.inputSchema.getD []
      annotations := tool.annotations }

def toOpenaiTool (desc : MCPToolDescriptor) : Json :=
  let parameters := desc.inputSchema
  let parameters := if !parameters.isEmpty && (parameters.lookup "type").isNone then
      parameters ++ [("type", .string "object")] else parameters
  .object [("type", .string "function"),
    ("function", .object
      [("name", .string desc.qualifiedName),
        ("description", .string
          (if desc.description = "" then desc.upstreamName else desc.description)),
        ("parameters", .object parameters)])]

/-! ## Data access -/

/-- `get_tool_by_qualified_name` -/
def getToolByQualifiedName (tools : List MCPTool) (tenantId qualifiedName : String) :
    Option MCPTool :=
  tools.find? (·.key = (tenantId, qualifiedName))

def listToolsByTenant (tools : List MCPTool) (tenantId : String) (enabledOnly : Bool) :
    List MCPTool :=
  (tools.filter fun row => row.tenantId = tenantId ∧ (enabledOnly → row.enabled)).mergeSort
    fun row row' => row.qualifiedName ≤ row'.qualifiedName

def removeStaleTools (serverId : ServerId) (activeNames : List String) (tools : List MCPTool) :
    List MCPTool :=
  tools.filter fun row => ¬ (row.serverId = serverId ∧ row.qualifiedName ∉ activeNames)

end LlmPort.Mcp
