import LlmPort.Mcp.Internal

/-!
# Redact mode

The arguments that `POST /tools/call` of `web/api/internal/views.py` passes on in the privacy mode
`redact`, once the PII service has answered that it found something in them.
-/

namespace LlmPort.Mcp

open Text Pii PrivacyProxy

/-- A call in mode `redact`, and the answer of the PII service, with what it found. -/
structure RedactCall where
  service : McpService
  body : ToolCallRequest
  tool : MCPTool
  server : MCPServer
  proxy : PrivacyProxy
  response : PIISanitizeResponse
  resolved : service.resolve body.tenantId body.qualifiedName = .ok (tool, server)
  mode : McpService.effectivePiiMode body server = "redact"
  proxied : service.privacyProxy = some proxy
  configured : proxy.base ≠ ""
  answered : proxy.post (requestBody body.arguments "redact") = some (.ok response)
  counted : 0 < response.entitiesFound
  detected : response.piiReport ≠ []

namespace RedactCall

/-- The value, written out as the arguments were, has the text of a span that was found. -/
def Shows (c : RedactCall) (value : Json) : Prop :=
  ∃ r ∈ c.response.piiReport, r.slice (argsToText c.body.arguments) <:+: value.dumps

/-- What the redacted text reads as, if it can be read. -/
def redacted (c : RedactCall) : Option Json :=
  (extractSanitizedText c.response.sanitizedPayload).bind c.proxy.loads

/-- No span that was found goes to the upstream server. -/
def ForwardsNone (c : RedactCall) : Prop :=
  ∀ (upstream : UpstreamToolCall → Except String ToolResult) (sent : UpstreamToolCall)
    (out : ToolCallResponse), c.service.callTool upstream c.body = .ok (sent, out) →
      ¬ c.Shows sent.arguments

variable (c : RedactCall)

theorem check_redact : c.proxy.check c.body.arguments "redact" =
    ⟨true, c.redacted.getD (.object c.body.arguments), [],
      some ⟨"redacted", c.response.entitiesFound⟩⟩ := by
  have hcall : c.proxy.callPiiService c.body.arguments "redact" =
      some (c.proxy.decide ⟨.int c.response.entitiesFound, c.response.sanitizedPayload⟩
        c.body.arguments "redact") := by
    simp [callPiiService, c.answered, SanitizeReply.data]
  have hmode : ¬ ("redact" = "allow" ∨ c.proxy.base = "") := by simp [c.configured]
  have hcounted := c.counted
  rw [check, if_neg hmode, hcall]
  simp [PrivacyProxy.decide, RawEntities.count, RawEntities.found, hcounted, textToArgs, redacted]

/-- The call goes on, with what the redacted text reads as, or with the arguments as they were. -/
theorem callTool_redact (upstream : UpstreamToolCall → Except String ToolResult) : ∃ out, c.service.callTool upstream c.body =
    .ok (⟨c.tool.serverId, c.tool.upstreamName,
      c.redacted.getD (.object c.body.arguments)⟩, out) := by
  simp only [McpService.callTool, c.resolved, c.proxied, bind, Except.bind, c.mode, c.check_redact]
  cases upstream ⟨c.tool.serverId, c.tool.upstreamName,
      c.redacted.getD (.object c.body.arguments)⟩ with
  | error exc => exact ⟨_, rfl⟩
  | ok result => exact ⟨_, rfl⟩

theorem slice_isInfix (x : Span) (text : List Char) : x.slice text <:+: text :=
  (List.drop_suffix _ _).isInfix.trans (List.take_prefix _ _).isInfix

/-- The arguments as they were have all that was found. -/
theorem shows_arguments : c.Shows (.object c.body.arguments) := by
  obtain ⟨r, hr⟩ := List.exists_mem_of_ne_nil _ c.detected
  exact ⟨r, hr, slice_isInfix _ _⟩

/-- Nothing that was found goes on exactly if the redacted text can be read, and was redacted. -/
theorem forwardsNone_iff :
    c.ForwardsNone ↔ ∃ value, c.redacted = some value ∧ ¬ c.Shows value := by
  constructor
  · intro h
    obtain ⟨out, hcall⟩ := c.callTool_redact fun _ => .error ""
    have hnone := h _ _ out hcall
    cases hredacted : c.redacted with
    | none =>
      rw [hredacted] at hnone
      exact (hnone c.shows_arguments).elim
    | some value =>
      rw [hredacted] at hnone
      exact ⟨value, rfl, hnone⟩
  · rintro ⟨value, hredacted, hnone⟩ upstream sent out hcall
    obtain ⟨out', hcall'⟩ := c.callTool_redact upstream
    rw [hcall'] at hcall
    obtain rfl := (Prod.mk.inj (Except.ok.inj hcall)).1
    rwa [hredacted]

end RedactCall

/-! ### A call with a telephone number -/

def phoneServer : MCPServer := ⟨"default", "crm", "crm", "redact", true⟩

def phoneTool : MCPTool where
  serverId := "crm"
  tenantId := "default"
  upstreamName := "call"
  qualifiedName := "mcp.crm.call"
  displayName := none
  description := ""
  rawSchema := []
  openaiSchema := none
  annotations := none
  enabled := true
  version := 1
  schemaHash := "hash"
  realm := "mcp_remote"
  source := "mcp"
  lastSeenAt := 1

/-- The number is replaced in the text of the arguments, which is no JSON any more. -/
def phoneResponse : PIISanitizeResponse where
  sanitizedPayload := ⟨some [.text "\x7b\"phone\": <PHONE_NUMBER>\x7d".toList], none⟩
  entitiesFound := 1
  piiReport := [⟨⟨10, 17⟩, "PHONE_NUMBER", 1⟩]
  tokenMapping := none

def phoneProxy : PrivacyProxy := ⟨"http://pii", fun _ => some (.ok phoneResponse), fun _ => none⟩

def phoneCall : RedactCall where
  service := ⟨fun _ => some phoneServer, [phoneTool], fun _ => some 1, fun _ => true, some phoneProxy⟩
  body := ⟨"mcp.crm.call", [("phone", .number "5551234")], "default", none, none⟩
  tool := phoneTool
  server := phoneServer
  proxy := phoneProxy
  response := phoneResponse
  resolved := rfl
  mode := rfl
  proxied := rfl
  configured := by decide
  answered := rfl
  counted := by decide
  detected := by simp [phoneResponse]

/-- The arguments go on as they were. -/
theorem not_forwardsNone_phoneCall : ¬ ∀ c : RedactCall, c.ForwardsNone := by
  intro h
  obtain ⟨out, hcall⟩ := phoneCall.callTool_redact fun _ => .error ""
  exact h phoneCall _ _ out hcall phoneCall.shows_arguments

end LlmPort.Mcp
