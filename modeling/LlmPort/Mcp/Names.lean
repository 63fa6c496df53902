import LlmPort.Mcp.Discovery

/-!
# The names in the registry

What discovery runs, updates of tools by an administrator and deletions of servers leave in the
registry: which server and which of its tools each name stands for.
-/

namespace LlmPort.Mcp

open Text Transition

/-- What changes the rows of `mcp_tools`. -/
inductive ToolCatalogEvent where
  /-- A run, with the servers as they are by then. -/
  | discovered (servers : ServerId → MCPServer) (r : DiscoveryRun)
  /-- `PATCH /tools/{tool_id}` -/
  | updated (key : String × String) (enabled : Option Bool) (displayName : Option String)
  | serverDeleted (serverId : ServerId)

/-- `update_tool` of the admin endpoints. -/
def MCPTool.updated (row : MCPTool) (enabled : Option Bool) (displayName : Option String) :
    MCPTool :=
  { row with
    enabled := enabled.getD row.enabled
    displayName := if displayName.isSome then displayName else row.displayName }

def registryStep (schemaHash : JsonObject → String) (tools : List MCPTool) :
    ToolCatalogEvent → List MCPTool
  | .discovered servers r => discover schemaHash servers tools r
  | .updated key enabled displayName =>
    tools.map fun row => if row.key = key then row.updated enabled displayName else row
  | .serverDeleted serverId => tools.filter (·.serverId ≠ serverId)

/-- A run of the history reported the row's tool, and the row is named after it. -/
structure Minted (history : List ToolCatalogEvent) (row : MCPTool) : Prop where
  reported : ∃ servers r tool, .discovered servers r ∈ history ∧ tool ∈ r.report ∧
    row.serverId = r.serverId ∧ row.upstreamName = tool.name ∧
    row.tenantId = (servers r.serverId).tenantId ∧
    row.qualifiedName = qualifiedName (servers r.serverId).toolPrefix tool.name
  offered : ∃ desc, row.openaiSchema = some (toOpenaiTool desc) ∧
    desc.qualifiedName = row.qualifiedName

section
variable {schemaHash : JsonObject → String} {history past : List ToolCatalogEvent}
  {tools : List MCPTool} {row : MCPTool} {e : ToolCatalogEvent}

theorem Minted.mono (H : Minted past row) (h : past ⊆ history) : Minted history row := by
  obtain ⟨servers, r, tool, hmem, hrest⟩ := H.reported
  exact ⟨⟨servers, r, tool, h hmem, hrest⟩, H.offered⟩

/-- What a run does to a minted row of a reported name. -/
theorem Minted.updatedTool {now : Nat} {desc : MCPToolDescriptor} (H : Minted history row)
    (hname : row.qualifiedName = desc.qualifiedName) :
    Minted history (updatedTool schemaHash now desc row) := by
  unfold Mcp.updatedTool
  split
  next => exact ⟨H.reported, desc, rfl, hname.symm⟩
  next => exact ⟨H.reported, H.offered⟩

theorem minted_newTool {servers : ServerId → MCPServer} {r : DiscoveryRun}
    {desc : MCPToolDescriptor} (h : .discovered servers r ∈ history)
    (hdesc : desc ∈ r.descriptors servers) :
    Minted history (newTool schemaHash r.serverId (servers r.serverId).tenantId r.now desc) := by
  obtain ⟨tool, htool, rfl⟩ := List.mem_map.1 hdesc
  exact ⟨⟨servers, r, tool, h, htool, rfl, rfl, rfl, rfl⟩, _, rfl, rfl⟩

/-- The key is unique, and every row is minted. -/
structure NamesKept (history : List ToolCatalogEvent) (tools : List MCPTool) : Prop where
  keys : (tools.map MCPTool.key).Nodup
  minted : ∀ row ∈ tools, Minted history row

theorem NamesKept.step (H : NamesKept past tools) :
    NamesKept (past ++ [e]) (registryStep schemaHash tools e) := by
  have hmono : ∀ row ∈ tools, Minted (past ++ [e]) row :=
    fun row hrow => (H.minted row hrow).mono (List.subset_append_left ..)
  cases e with
  | discovered servers r =>
    refine ⟨nodup_discover H.keys, fun row hrow => ?_⟩
    refine forall_recordAll hmono (fun desc hdesc => ?_) (fun desc _ row hkey hrow => ?_) row
      (mem_discover.1 hrow).1
    · exact minted_newTool (List.mem_append_right _ List.mem_cons_self) hdesc
    · exact hrow.updatedTool (Prod.mk.inj hkey).2
  | updated key enabled displayName =>
    constructor
    · have hkeys : (registryStep schemaHash tools (.updated key enabled displayName)).map
          MCPTool.key = tools.map MCPTool.key := by
        rw [registryStep, List.map_map]
        refine List.map_congr_left fun row _ => ?_
        rw [Function.comp_apply]
        split <;> rfl
      rw [hkeys]
      exact H.keys
    · intro row hrow
      obtain ⟨row', hrow', rfl⟩ := List.mem_map.1 hrow
      have hminted := hmono row' hrow'
      split
      next => exact ⟨hminted.reported, hminted.offered⟩
      next => exact hminted
  | serverDeleted serverId =>
    exact ⟨H.keys.sublist (List.filter_sublist.map _),
      fun row hrow => hmono row (List.mem_filter.1 hrow).1⟩

theorem NamesKept.run (H : NamesKept past tools) :
    NamesKept (past ++ history) (run (registryStep schemaHash) tools history) := by
  induction history generalizing past tools with
  | nil => rwa [List.append_nil]
  | cons e es ih =>
    have hstep : NamesKept (past ++ [e]) (registryStep schemaHash tools e) := H.step
    have hrest := ih hstep
    rwa [List.append_assoc] at hrest

/-- The registry after any history, from when it is empty. -/
theorem namesKept (history : List ToolCatalogEvent) :
    NamesKept history (Transition.run (registryStep schemaHash) [] history) := by
  have hempty : NamesKept [] [] := ⟨List.nodup_nil, fun _ h => absurd h List.not_mem_nil⟩
  exact hempty.run

/-- A row is what its name finds in its tenant. -/
theorem NamesKept.getToolByQualifiedName (H : NamesKept history tools) (hrow : row ∈ tools) :
    getToolByQualifiedName tools row.tenantId row.qualifiedName = some row :=
  (mem_iff_find? H.keys).1 hrow

end

end LlmPort.Mcp
