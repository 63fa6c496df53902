import LlmPort.Pii.Endpoints
import LlmPort.Text.Json

/-!
# The privacy proxy

`services/privacy_proxy.py`: the arguments of a tool call are posted to the PII service as the
content of a user message, and its answer decides whether the call goes on and with which
arguments.
-/

namespace LlmPort.Mcp

open Text Pii

structure RedactionSummary where
  action : String
  count : Nat

structure PrivacyDecision where
  allowed : Bool
  sanitizedArgs : Json
  entitiesFound : List Json
  redactionSummary : Option RedactionSummary

/-- The decision with nothing found and nothing changed. -/
def PrivacyDecision.passed (arguments : JsonObject) : PrivacyDecision :=
  ⟨true, .object arguments, [], none⟩

/-- `data.get("entities_found", [])`, by the kinds the proxy tells apart. -/
inductive RawEntities where
  | list (items : List Json)
  | int (n : Int)
  | other

namespace RawEntities

/-- The entries that are dicts. -/
def found : RawEntities → List Json
  | list items => items.filter fun | .object _ => true | _ => false
  | int _ => []
  | other => []

def count : RawEntities → Nat
  | list items => items.length
  | int n => n.toNat
  | other => 0

end RawEntities

/-- What the proxy reads of the body of an answer. -/
structure SanitizeData where
  entitiesFound : RawEntities
  sanitizedPayload : RequestPayload (List Char)

/-- The body of an answer; `none` where `raise_for_status` raises. -/
def SanitizeReply.data : SanitizeReply → Option SanitizeData
  | .ok response => some ⟨.int response.entitiesFound, response.sanitizedPayload⟩
  | .error _ _ => none

/-- `_extract_sanitized_text`; `none` where the content is no text. -/
def extractSanitizedText (sanitizedPayload : RequestPayload (List Char)) : Option (List Char) :=
  match sanitizedPayload.messages.getD [] with
  | [] => some []
  | .text t :: _ => some t
  | _ :: _ => none

/-- The proxy on its connection to a PII service; `post` gives `none` where the service is not
reached, and `loads` is `json.loads`, `none` where it raises. -/
structure PrivacyProxy where
  base : String
  post (body : PIISanitizeRequest) : Option SanitizeReply
  loads (text : List Char) : Option Json

namespace PrivacyProxy

variable (proxy : PrivacyProxy)

/-- `_args_to_text` -/
def argsToText (arguments : JsonObject) : List Char := (Json.object arguments).dumps

/-- `_text_to_args` -/
def textToArgs (sanitizedText : Option (List Char)) (originalArgs : JsonObject) : Json :=
  (sanitizedText.bind proxy.loads).getD (.object originalArgs)

def requestBody (arguments : JsonObject) (piiMode : String) : PIISanitizeRequest where
  payload := ⟨some [.text (argsToText arguments)], none⟩
  mode := if piiMode = "redact" then "redact" else "detect"
  language := some "en"
  entities := none
  scoreThreshold := none

/-- What the data of an answer leads to. -/
def decide (data : SanitizeData) (arguments : JsonObject) (piiMode : String) : PrivacyDecision :=
  let count := data.entitiesFound.count
  if piiMode = "block" ∧ 0 < count then
    ⟨false, .object arguments, data.entitiesFound.found, some ⟨"blocked", count⟩⟩
  else if piiMode = "redact" ∧ 0 < count then
    ⟨true, proxy.textToArgs (extractSanitizedText data.sanitizedPayload) arguments,
      data.entitiesFound.found, some ⟨"redacted", count⟩⟩
  else .passed arguments

/-- `_call_pii_service`; `none` where it raises. -/
def callPiiService (arguments : JsonObject) (piiMode : String) : Option PrivacyDecision := do
  let resp ← proxy.post (requestBody arguments piiMode)
  let data ← SanitizeReply.data resp
  return proxy.decide data arguments piiMode

def check (arguments : JsonObject) (piiMode : String) : PrivacyDecision :=
  if piiMode = "allow" ∨ proxy.base = "" then .passed arguments
  else match proxy.callPiiService arguments piiMode with
    | some decision => decision
    -- the proxy falls back to allow, whatever went wrong
    | none => .passed arguments

/-- A proxy whose requests reach the service. -/
def against (app : PIIApp) (base : String) (loads : List Char → Option Json) : PrivacyProxy where
  base := base
  post body := some (app.sanitize body)
  loads := loads

end PrivacyProxy

/-- The service's own scan of the arguments, as the proxy writes them out. -/
def scanArguments (app : PIIApp) (arguments : JsonObject) : List RecognizerResult :=
  app.scan ⟨PrivacyProxy.argsToText arguments, some "en", none, none⟩

/-! ## What a check decides -/

namespace PrivacyProxy

variable {proxy : PrivacyProxy} {arguments : JsonObject} {piiMode : String}

theorem check_of_raises (h : proxy.callPiiService arguments piiMode = none) :
    proxy.check arguments piiMode = .passed arguments := by
  unfold check
  split
  · rfl
  · rw [h]

theorem callPiiService_eq_some {decision : PrivacyDecision}
    (h : proxy.callPiiService arguments piiMode = some decision) :
    ∃ data, proxy.decide data arguments piiMode = decision := by
  simp only [callPiiService, Option.bind_eq_bind, Option.pure_def, Option.bind_eq_some_iff,
    Option.some.injEq] at h
  obtain ⟨_, _, data, _, hdata⟩ := h
  exact ⟨data, hdata⟩

/-- A refusal comes from an answer that counts something, in mode `block`. -/
theorem decide_refuses {data : SanitizeData} :
    (proxy.decide data arguments piiMode).allowed = false ↔
      piiMode = "block" ∧ 0 < data.entitiesFound.count := by
  unfold decide
  by_cases hb : piiMode = "block" ∧ 0 < data.entitiesFound.count
  · simp [hb]
  · have hp : (PrivacyDecision.passed arguments).allowed = true := rfl
    simp only [hb, if_false, iff_false]
    split <;> simp [hp]

end PrivacyProxy

section
variable {app : PIIApp} {base : String} {loads : List Char → Option Json} {arguments : JsonObject}
  {piiMode : String}

/-- The mode the proxy posts for `block` is none of the service's modes. -/
theorem parse_requestBody_mode (h : piiMode ≠ "redact") :
    SanitizeMode.parse (PrivacyProxy.requestBody arguments piiMode).mode = none := by
  simp [PrivacyProxy.requestBody, SanitizeMode.parse, h]

/-- Every mode but `redact` is answered with an error, and an error lets the call pass. -/
theorem check_of_ne_redact (h : piiMode ≠ "redact") :
    (PrivacyProxy.against app base loads).check arguments piiMode = .passed arguments := by
  have hmode : SanitizeMode.parse (PrivacyProxy.requestBody arguments piiMode).mode = none :=
    parse_requestBody_mode h
  obtain ⟨detail, hd⟩ := app.sanitize_unknown hmode
  apply PrivacyProxy.check_of_raises
  simp [PrivacyProxy.callPiiService, PrivacyProxy.against, hd, SanitizeReply.data]

/-- In mode `redact` the count of the answer is that of the service's own scan. -/
theorem sanitize_redact_count :
    ∃ response, app.sanitize (PrivacyProxy.requestBody arguments "redact") = .ok response ∧
      response.entitiesFound = (scanArguments app arguments).length := by
  have hmode : SanitizeMode.parse (PrivacyProxy.requestBody arguments "redact").mode =
      some .redact := rfl
  refine ⟨_, app.sanitize_known hmode, ?_⟩
  rw [app.sanitizePayload_entitiesFound]
  simp only [PrivacyProxy.requestBody, RequestPayload.texts, Content.texts, Option.getD_some,
    List.flatMap_cons, List.flatMap_nil, List.append_nil, Option.map_none, Option.getD_none]
  rfl

/-- A check against the service never refuses, in whatever mode. -/
theorem check_allowed :
    ((PrivacyProxy.against app base loads).check arguments piiMode).allowed = true := by
  by_cases h : piiMode = "redact"
  · subst h
    unfold PrivacyProxy.check
    split
    · rfl
    · split
      next decision hcall =>
        obtain ⟨data, hdecision⟩ := PrivacyProxy.callPiiService_eq_some hcall
        rw [← hdecision]
        by_contra hrefused
        have hblock := PrivacyProxy.decide_refuses.1 (Bool.eq_false_iff.2 hrefused)
        exact absurd hblock.1 (by decide)
      next => rfl
  · rw [check_of_ne_redact h]
    rfl

end

/-! ## Block mode -/

/-- Mode `block` refuses the arguments in which the scan detects something, exactly where the scan
detects nothing. -/
theorem block_refuses_iff (app : PIIApp) (base : String) (loads : List Char → Option Json)
    (arguments : JsonObject) :
    (scanArguments app arguments ≠ [] →
        ((PrivacyProxy.against app base loads).check arguments "block").allowed = false) ↔
      scanArguments app arguments = [] := by
  constructor
  · intro h
    by_contra hne
    have hrefused := h hne
    rw [check_allowed] at hrefused
    cases hrefused
  · intro hnil hne
    exact absurd hnil hne

/-- A service that takes every text for the name of a person. -/
def namesEverywhere : PIIApp where
  analyzer := {
    findings text _ := if h : 0 < text.length then [⟨⟨0, text.length⟩, "PERSON", 1⟩] else []
    analyze text _ entities scoreThreshold :=
      (if 0 < text.length then [⟨⟨0, text.length⟩, "PERSON", 1⟩] else []).filter
        fun r => r.entityType ∈ entities ∧ scoreThreshold ≤ r.score
    findings_valid := by
      intro text _ r hr
      split at hr
      next h => simp only [List.mem_singleton] at hr; subst hr; exact ⟨h, le_rfl⟩
      next => cases hr
    analyze_eq _ _ _ _ := rfl }
  anonymizer := {
    anonymize _ results := results.map (·.toSpan)
    anonymize_has := has_map_toSpan }
  defaultLanguage := "en"
  defaultScoreThreshold := 0
  engineText _ _ := "<PERSON>".toList

theorem blocked_arguments_pass :
    ¬ ∀ (app : PIIApp) (base : String) (loads : List Char → Option Json) (arguments : JsonObject),
      scanArguments app arguments ≠ [] →
        ((PrivacyProxy.against app base loads).check arguments "block").allowed = false := by
  intro h
  have hscan : scanArguments namesEverywhere [("name", .string "Ada")] ≠ [] := by decide
  have hcheck : ((PrivacyProxy.against namesEverywhere "http://pii" fun _ => none).check
      [("name", .string "Ada")] "block").allowed = true := by decide
  rw [h namesEverywhere "http://pii" _ _ hscan] at hcheck
  cases hcheck

end LlmPort.Mcp
