import Mathlib.Data.List.TakeWhile
import LlmPort.Gateway.SkillTools
import LlmPort.Mcp.Names

/-!
# Tool calls by their names

A tool's name from discovery through the offer to the model, the loop's reading of it and the MCP
service's lookup, to the call on its server.
-/

namespace LlmPort.Gateway

open Text Mcp Transition

/-- The body that `mcp_client.call_tool` posts, by the loop's own call or by the server executor's;
the endpoint takes a dict of arguments only. -/
def ToolDispatch.request (d : ToolDispatch) (tenantId requestId : String)
    (piiModeOverride : Option String) : Option ToolCallRequest :=
  match d.arguments with
  | .object arguments =>
    some ⟨d.qualifiedName, arguments, tenantId, some requestId, piiModeOverride⟩
  | _ => none

namespace McpToolLoop

variable {cfg : McpToolLoop} {name : String}

/-- The pattern takes the whole name. -/
def Plain (cfg : McpToolLoop) (name : String) : Prop :=
  ∀ c ∈ name.toList, cfg.isWord c ∨ c = '.'

theorem cleanName_of_plain (h : cfg.Plain name) : cfg.cleanName name = name := by
  have hall : name.toList.takeWhile (fun c => cfg.isWord c || c = '.') = name.toList :=
    List.takeWhile_eq_self_iff.2 fun c hc => by simpa using h c hc
  unfold cleanName
  rw [hall]
  split
  next => rfl
  next => exact String.ofList_toList

theorem startsWith_qualifiedName (toolPrefix tool : String) :
    startsWith (Mcp.qualifiedName toolPrefix tool) "mcp." = true := by
  unfold startsWith Mcp.qualifiedName
  rw [List.isPrefixOf_iff_prefix, String.toList_append, String.toList_append, String.toList_append,
    List.append_assoc, List.append_assoc]
  exact List.prefix_append ..

theorem ownsName_qualifiedName {toolPrefix tool : String}
    (h : cfg.Plain (Mcp.qualifiedName toolPrefix tool)) :
    cfg.ownsName (Mcp.qualifiedName toolPrefix tool) = true := by
  simp only [ownsName, cleanName_of_plain h, startsWith_qualifiedName, Bool.true_or, ite_self]

/-- A call by a plain name is the gateway's, and the loop makes it under that name if it comes to
it. -/
theorem dispatched_of_called {rounds : Nat → LoopRound} {first answer : LoopAnswer}
    {messages : List LoopMessage} {message : AssistantMessage} {tc : FunctionCall} {k : Nat}
    {toolPrefix tool : String} (hplain : cfg.Plain (Mcp.qualifiedName toolPrefix tool))
    (havailable : cfg.useRouter ∨ cfg.mcpClient) (hk : k < cfg.maxIterations)
    (hanswer : cfg.AnswerAt rounds first k answer) (hmessage : answer.choices.head? = some message)
    (hreadable : ∀ tc ∈ message.toolCalls, tc.rawName ≠ none) (htc : tc ∈ message.toolCalls)
    (hname : tc.name = .string (Mcp.qualifiedName toolPrefix tool)) :
    ∃ i, (cfg.ownCalls message.toolCalls)[i]? = some tc ∧
      (cfg.Completes (rounds k) k 0 ((cfg.ownCalls message.toolCalls).take i) →
        ∃ d, .dispatched d ∈ (cfg.run rounds first messages).1 ∧
          d.qualifiedName = Mcp.qualifiedName toolPrefix tool ∧
          d.arguments = cfg.argumentsOf tc ∧ d.callId = tc.callId) := by
  have hraw : tc.rawName = some (Mcp.qualifiedName toolPrefix tool) := by
    rw [FunctionCall.rawName, hname]
  have hown : tc ∈ cfg.ownCalls message.toolCalls := by
    refine List.mem_filter.2 ⟨htc, ?_⟩
    rw [hraw, Option.any_some, ownsName_qualifiedName hplain]
  have hacts : cfg.ActsOn answer message := ⟨hmessage, hreadable, List.ne_nil_of_mem hown⟩
  obtain ⟨i, hi⟩ := List.getElem?_of_mem hown
  refine ⟨i, hi, fun hbefore => ⟨cfg.dispatch (rounds k) i tc, ?_, ?_, rfl, rfl⟩⟩
  · exact mem_run_dispatched.2 ⟨k, message, ⟨havailable, hk, answer, hanswer, hacts⟩, i, tc, hi,
      hbefore, rfl⟩
  · change cfg.cleanName (tc.rawName.getD "") = _
    rw [hraw, Option.getD_some, cleanName_of_plain hplain]

/-- Calls are read from `tool_calls` alone. -/
theorem run_of_no_toolCalls {rounds : Nat → LoopRound} {first : LoopAnswer}
    {messages : List LoopMessage} (h : ∀ message, first.choices.head? = some message →
      message.toolCalls = []) : (cfg.run rounds first messages).1 = [] := by
  rw [List.eq_nil_iff_forall_not_mem]
  intro output hmem
  obtain ⟨-, k, -, p, hturns, hout⟩ := mem_run.1 hmem
  have hidle : ∀ message, ¬ cfg.ActsOn first message := by
    intro message hacts
    exact hacts.owned (by rw [h message hacts.chosen]; rfl)
  have hfirst : (cfg.turn rounds ⟨0, first, messages⟩).outputs = [] ∧
      ∀ p', (cfg.turn rounds ⟨0, first, messages⟩).after ≠ .ok p' := turn_of_not_actsOn hidle
  cases hturns with
  | refl => exact absurd hout (hfirst.1 ▸ List.not_mem_nil)
  | head hafter _ => exact absurd hafter (hfirst.2 _)

end McpToolLoop

/-! ## The service -/

/-- What the privacy proxy, where there is one, decides about a call. -/
def privacyDecision (service : McpService) (server : MCPServer) (body : ToolCallRequest) :
    PrivacyDecision :=
  match service.privacyProxy with
  | none => .passed body.arguments
  | some proxy => proxy.check body.arguments (McpService.effectivePiiMode body server)

section
variable {service : McpService} {row tool : MCPTool} {server : MCPServer} {tenantId : String}
  {body : ToolCallRequest} {upstream : UpstreamToolCall → Except String ToolResult}
  {call : UpstreamToolCall} {response : ToolCallResponse} {qualifiedName : String}

theorem mem_listToolsByTenant {tools : List MCPTool} : row ∈ listToolsByTenant tools tenantId true ↔
    row ∈ tools ∧ row.tenantId = tenantId ∧ row.enabled = true := by
  simp [listToolsByTenant]

theorem callTool_of_resolve (upstream : UpstreamToolCall → Except String ToolResult)
    (h : service.resolve body.tenantId body.qualifiedName = .ok (tool, server)) :
    ∃ response, service.callTool upstream body =
      if (privacyDecision service server body).allowed then
        .ok (⟨tool.serverId, tool.upstreamName,
          (privacyDecision service server body).sanitizedArgs⟩, response)
      else .error ⟨451, "Tool call blocked by privacy policy."⟩ := by
  unfold McpService.callTool
  rw [h]
  change ∃ response, (if !(privacyDecision service server body).allowed then _ else _) = _
  cases hallowed : (privacyDecision service server body).allowed with
  | false => exact ⟨⟨"", [], false, none⟩, rfl⟩
  | true =>
    simp only [Bool.not_true, Bool.false_eq_true, if_false, if_true]
    split
    · exact ⟨_, rfl⟩
    · exact ⟨_, rfl⟩

/-- A call that is made is that of the tool the name resolves to. -/
theorem callTool_eq_ok (h : service.callTool upstream body = .ok (call, response)) :
    ∃ tool server, service.resolve body.tenantId body.qualifiedName = .ok (tool, server) ∧
      call.serverId = tool.serverId ∧ call.toolName = tool.upstreamName := by
  cases hresolve : service.resolve body.tenantId body.qualifiedName with
  | error e =>
    unfold McpService.callTool at h
    rw [hresolve] at h
    cases h
  | ok found =>
    obtain ⟨tool, server⟩ := found
    obtain ⟨response', hcall⟩ := callTool_of_resolve upstream hresolve
    rw [hcall] at h
    split at h
    next =>
      cases h
      exact ⟨tool, server, rfl, rfl, rfl⟩
    next => cases h

/-- A tool that resolves is called if the arguments pass. -/
theorem exists_callTool (hresolve : service.resolve body.tenantId body.qualifiedName =
    .ok (tool, server)) (hpasses : (privacyDecision service server body).allowed = true) :
    ∃ call response, service.callTool upstream body = .ok (call, response) := by
  obtain ⟨response, hcall⟩ := callTool_of_resolve upstream hresolve
  exact ⟨_, response, hcall.trans (if_pos hpasses)⟩

theorem resolve_eq_ok_of_find (hfind : getToolByQualifiedName service.tools tenantId qualifiedName =
    some row) : service.resolve tenantId qualifiedName = .ok (tool, server) ↔
      tool = row ∧ row.enabled = true ∧ service.servers row.serverId = some server ∧
        server.enabled = true ∧ service.connected row.serverId = true := by
  constructor
  · intro h
    rw [McpService.resolve, hfind] at h
    dsimp only at h
    split at h
    next => cases h
    next henabled =>
      split at h
      next => cases h
      next server' hserver =>
        split at h
        next => cases h
        next hserverEnabled =>
          split at h
          next => cases h
          next hconnected =>
            cases h
            exact ⟨rfl, by simpa using henabled, hserver, by simpa using hserverEnabled,
              by simpa using hconnected⟩
  · rintro ⟨rfl, henabled, hserver, hserverEnabled, hconnected⟩
    simp [McpService.resolve, hfind, henabled, hserver, hserverEnabled, hconnected]

theorem offeredName_toOpenaiTool (desc : MCPToolDescriptor) :
    offeredName (toOpenaiTool desc) = .string desc.qualifiedName := rfl

end

/-! ## From the offer to the server -/

/-- Calls by the row's name arrive at the row's server under its name there: the loop makes each
call of the name that it comes to, what the MCP service calls for it is the row's tool, and the
service does call it where the server is enabled and connected and the arguments pass. -/
structure CalledByName (cfg : McpToolLoop) (service : McpService) (tenantId : String)
    (row : MCPTool) : Prop where
  dispatched : ∀ (rounds : Nat → LoopRound) (first answer : LoopAnswer)
    (messages : List LoopMessage) (message : AssistantMessage) (tc : FunctionCall) (k : Nat),
    cfg.useRouter ∨ cfg.mcpClient → k < cfg.maxIterations → cfg.AnswerAt rounds first k answer →
    answer.choices.head? = some message → (∀ tc ∈ message.toolCalls, tc.rawName ≠ none) →
    tc ∈ message.toolCalls → tc.name = .string row.qualifiedName →
    ∃ i, (cfg.ownCalls message.toolCalls)[i]? = some tc ∧
      (cfg.Completes (rounds k) k 0 ((cfg.ownCalls message.toolCalls).take i) →
        ∃ d, .dispatched d ∈ (cfg.run rounds first messages).1 ∧
          d.qualifiedName = row.qualifiedName ∧
          d.arguments = cfg.argumentsOf tc ∧ d.callId = tc.callId)
  called : ∀ (d : ToolDispatch) (requestId : String) (piiModeOverride : Option String)
    (body : ToolCallRequest) (upstream : UpstreamToolCall → Except String ToolResult)
    (call : UpstreamToolCall) (response : ToolCallResponse),
    d.qualifiedName = row.qualifiedName → d.request tenantId requestId piiModeOverride = some body →
    service.callTool upstream body = .ok (call, response) →
    call.serverId = row.serverId ∧ call.toolName = row.upstreamName
  reached : ∀ (d : ToolDispatch) (requestId : String) (piiModeOverride : Option String)
    (body : ToolCallRequest) (upstream : UpstreamToolCall → Except String ToolResult)
    (server : MCPServer),
    d.qualifiedName = row.qualifiedName → d.request tenantId requestId piiModeOverride = some body →
    service.servers row.serverId = some server → server.enabled = true →
    service.connected row.serverId = true → (privacyDecision service server body).allowed = true →
    ∃ call response, service.callTool upstream body = .ok (call, response)

theorem request_eq_some {d : ToolDispatch} {tenantId requestId : String}
    {piiModeOverride : Option String} {body : ToolCallRequest}
    (h : d.request tenantId requestId piiModeOverride = some body) :
    body.tenantId = tenantId ∧ body.qualifiedName = d.qualifiedName := by
  unfold ToolDispatch.request at h
  split at h
  next =>
    cases h
    exact ⟨rfl, rfl⟩
  next => cases h

/-- After every history of the registry, an offered tool is offered under the name that its server's
prefix and its own name make, and where that name is plain, structured calls of it arrive at its
server. Calls in the text of an answer are not read. -/
theorem offered_called_by_name (schemaHash : JsonObject → String) (history : List ToolCatalogEvent)
    (service : McpService) (cfg : McpToolLoop) (tenantId : String) (row : MCPTool) (schema : Json)
    (hservice : service.tools = run (registryStep schemaHash) [] history)
    (hrow : row ∈ listToolsByTenant service.tools tenantId true)
    (hschema : row.openaiSchema = some schema) (hplain : cfg.Plain row.qualifiedName) :
    offeredName schema = .string row.qualifiedName ∧
    (∃ servers r tool, .discovered servers r ∈ history ∧ tool ∈ r.report ∧
      row.serverId = r.serverId ∧ row.upstreamName = tool.name ∧
      row.qualifiedName = qualifiedName (servers r.serverId).toolPrefix tool.name) ∧
    CalledByName cfg service tenantId row ∧
    ∀ (rounds : Nat → LoopRound) (first : LoopAnswer) (messages : List LoopMessage),
      (∀ message, first.choices.head? = some message → message.toolCalls = []) →
      (cfg.run rounds first messages).1 = [] := by
  obtain ⟨hmem, rfl, henabled⟩ := mem_listToolsByTenant.1 hrow
  have H : NamesKept history service.tools := hservice ▸ namesKept history
  obtain ⟨⟨servers, r, tool, hrun, htool, hserver, hupstream, -, hname⟩, desc, hdesc, hoffered⟩ :=
    H.minted row hmem
  have hfind := H.getToolByQualifiedName hmem
  refine ⟨?_, ⟨servers, r, tool, hrun, htool, hserver, hupstream, hname⟩, ⟨?_, ?_, ?_⟩,
    fun _ _ _ h => McpToolLoop.run_of_no_toolCalls h⟩
  · obtain rfl := Option.some.inj (hschema.symm.trans hdesc)
    rw [offeredName_toOpenaiTool, hoffered]
  · intro _ _ _ _ _ _ _ havailable hk hanswer hmessage hreadable htc hcall
    rw [hname] at hplain hcall ⊢
    exact McpToolLoop.dispatched_of_called hplain havailable hk hanswer hmessage hreadable htc hcall
  · intro d requestId piiModeOverride body upstream call response hd hbody hcall
    obtain ⟨htenant, hbodyName⟩ := request_eq_some hbody
    obtain ⟨found, server, hresolve, hcallServer, hcallName⟩ := callTool_eq_ok hcall
    rw [htenant, hbodyName, hd] at hresolve
    obtain ⟨rfl, -⟩ := (resolve_eq_ok_of_find hfind).1 hresolve
    exact ⟨hcallServer, hcallName⟩
  · intro d requestId piiModeOverride body upstream server hd hbody hserver henabled' hconnected
      hpasses
    obtain ⟨htenant, hbodyName⟩ := request_eq_some hbody
    have hresolve : service.resolve body.tenantId body.qualifiedName = .ok (row, server) := by
      rw [htenant, hbodyName, hd]
      exact (resolve_eq_ok_of_find hfind).2 ⟨rfl, henabled, hserver, henabled', hconnected⟩
    exact exists_callTool hresolve hpasses

/-! ### A wiki with one tool -/

def wikiServers (_ : ServerId) : MCPServer := ⟨"default", "wiki", "wiki", "allow", true⟩

def wikiHistory : List ToolCatalogEvent :=
  [.discovered wikiServers ⟨"wiki", [⟨"find", none, none, []⟩], 1⟩]

def wikiService : McpService where
  servers _ := some (wikiServers "wiki")
  tools := run (registryStep fun _ => "hash") [] wikiHistory
  catalogVersion _ := some 1
  connected _ := true
  privacyProxy := none

def wikiTool : MCPTool :=
  newTool (fun _ => "hash") "wiki" "default" 1 ⟨"find", "mcp.wiki.find", "", [], []⟩

def wikiLoop : McpToolLoop := ⟨fun _ => false, fun _ => none, false, true, none, 5⟩

theorem wikiTool_mem : wikiTool ∈ listToolsByTenant wikiService.tools "default" true :=
  mem_listToolsByTenant.2 ⟨List.mem_cons_self, rfl, rfl⟩

theorem wikiTool_called_by_name :
    wikiTool.qualifiedName = "mcp.wiki.find" ∧
      CalledByName wikiLoop wikiService "default" wikiTool := by
  have hplain : wikiLoop.Plain wikiTool.qualifiedName := by
    have hall : wikiTool.qualifiedName.toList.all fun c => wikiLoop.isWord c || c = '.' := by
      decide
    intro c hc
    simpa using List.all_eq_true.1 hall c hc
  exact ⟨rfl, (offered_called_by_name (fun _ => "hash") wikiHistory wikiService wikiLoop "default"
    wikiTool _ rfl wikiTool_mem rfl hplain).2.2.1⟩

def wikiCallText : String :=
  "<tool_call>\x7b\"name\": \"mcp.wiki.find\", \"arguments\": \x7b\x7d\x7d</tool_call>"

/-- The model calls the wiki's tool in the text of its answer. -/
theorem text_call_not_dispatched :
    ∃ (history : List ToolCatalogEvent) (service : McpService) (cfg : McpToolLoop) (row : MCPTool)
      (rounds : Nat → LoopRound) (messages : List LoopMessage),
      service.tools = run (registryStep fun _ => "hash") [] history ∧
      row ∈ listToolsByTenant service.tools "default" true ∧ row.qualifiedName = "mcp.wiki.find" ∧
      let answer : LoopAnswer := ⟨200, [⟨.string wikiCallText, []⟩], none⟩
      ∀ d, .dispatched d ∉ (cfg.run rounds answer messages).1 := by
  refine ⟨wikiHistory, wikiService, wikiLoop, wikiTool,
    fun _ => ⟨fun _ => ⟨[], .raised⟩, fun _ => (.cancelled, 1), none⟩,
    [.other "user" "find it"], rfl, wikiTool_mem, rfl, fun d => ?_⟩
  rw [McpToolLoop.run_of_no_toolCalls]
  · exact List.not_mem_nil
  · rintro message hmessage
    obtain rfl := Option.some.inj hmessage
    rfl

end LlmPort.Gateway
