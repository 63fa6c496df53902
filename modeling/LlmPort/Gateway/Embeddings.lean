import LlmPort.Gateway.Adapter
import LlmPort.Gateway.McpClient
import LlmPort.Gateway.SessionContext
import LlmPort.Gateway.ToolPolicy
import LlmPort.Transition.Loop

/-!
# Embeddings requests

What the two methods of `LLMAdapter` ask LiteLLM for, and `route_non_stream` on a request to
`/v1/embeddings`, where the branches of `/v1/chat/completions` (session, skills, date, tools and the
tool loop) are not taken.
-/

namespace LlmPort.Gateway

open Text Transition

/-! ## The adapter -/

/-- `d[key] = value` -/
def setItem (d : JsonObject) (entry : String × Json) : JsonObject :=
  if d.any (·.1 = entry.1) then d.map fun e => if e.1 = entry.1 then entry else e
  else d ++ [entry]

/-- `d.update(entries)` -/
def updateDict (d entries : JsonObject) : JsonObject := entries.foldl setItem d

/-- The candidate's fields as `_candidate_adapter_kwargs` passes them on, with the key decrypted and
what `build_ssl_kwargs` makes of the TLS fields. -/
structure AdapterTarget where
  providerType : ProviderType
  baseUrl : List Char
  apiKey : String
  litellmProvider : Option String
  litellmModel : Option String
  extraParams : Option JsonObject
  sslKwargs : JsonObject

/-- `_PROVIDER_PREFIX` -/
def ProviderType.litellmPrefix : ProviderType → String
  | remoteAnthropic => "anthropic"
  | remoteGoogle => "gemini"
  | remoteBedrock => "bedrock"
  | remoteAzure => "azure"
  | remoteMistral => "mistral"
  | remoteGroq => "groq"
  | remoteDeepseek => "deepseek"
  | remoteCohere => "cohere"
  | ollama => "ollama"
  | vllm | llamacpp | tgi | remoteOpenai | remoteCustom => "openai"

inductive LitellmCall where
  | acompletion (kwargs : JsonObject)
  | aembedding (kwargs : JsonObject)

namespace AdapterTarget

variable (target : AdapterTarget)

/-- `_build_litellm_model_name`; an absent text and an empty one are alike. -/
def buildLitellmModelName (requestedModel : String) : String :=
  let given (text : Option String) (default : String) : String :=
    if text.getD "" = "" then default else text.getD ""
  let litellmPrefix := given target.litellmProvider target.providerType.litellmPrefix
  let model := given target.litellmModel requestedModel
  let model := if startsWith model "models/" then .ofList (model.toList.drop 7) else model
  match target.providerType with
  | .vllm | .tgi | .llamacpp => "openai/" ++ model
  | .ollama => "ollama/" ++ model
  | _ => litellmPrefix ++ "/" ++ model

/-- The entries that `_upstream_kwargs` adds. -/
def upstreamEntries : JsonObject :=
  let kwargs := upstreamKwargs target.baseUrl target.apiKey target.providerType
  (kwargs.apiBase.map fun base => ("api_base", Json.string (.ofList base))).toList ++
    (kwargs.apiKey.map fun key => ("api_key", Json.string key)).toList

/-- `payload.get("model", "")` -/
def requestedModel (payload : JsonObject) : String :=
  match payload.lookup "model" with
  | some (.string model) => model
  | _ => ""

/-- The supported parameters that are passed through. -/
def passedThrough : List String :=
  ["temperature", "top_p", "max_tokens", "stop", "presence_penalty", "frequency_penalty",
    "logit_bias", "user", "tools", "tool_choice", "response_format", "seed", "n"]

/-- `LLMAdapter.completion` -/
def completion (payload : JsonObject) (stream : Bool) : LitellmCall :=
  let kwargs : JsonObject :=
    [("model", .string (target.buildLitellmModelName (requestedModel payload))),
      ("messages", (payload.lookup "messages").getD (.array [])), ("stream", .bool stream)]
  let kwargs := updateDict kwargs target.upstreamEntries
  let kwargs := updateDict kwargs
    (passedThrough.filterMap fun key => (payload.lookup key).map (key, ·))
  let extraParams := target.extraParams.getD []
  let kwargs := match extraParams.lookup "extra_headers" with
    | some (.object (header :: headers)) =>
      setItem kwargs ("extra_headers", .object (header :: headers))
    | _ => kwargs
  let kwargs := updateDict kwargs (extraParams.filter (·.1 ≠ "extra_headers"))
  let kwargs := updateDict kwargs target.sslKwargs
  .acompletion (if stream then
    setItem kwargs ("stream_options", .object [("include_usage", .bool true)]) else kwargs)

/-- `LLMAdapter.embedding` -/
def embedding (payload : JsonObject) : LitellmCall :=
  let kwargs : JsonObject :=
    [("model", .string (target.buildLitellmModelName (requestedModel payload))),
      ("input", (payload.lookup "input").getD (.string ""))]
  let kwargs := updateDict kwargs target.upstreamEntries
  let kwargs := updateDict kwargs (target.extraParams.getD [])
  .aembedding (updateDict kwargs target.sslKwargs)

end AdapterTarget

/-- What LiteLLM gives: a response, or an exception of one of the kinds that are told apart. -/
inductive LitellmOutcome where
  | response (payload : Json)
  | authenticationError (exc : String)
  | rateLimitError (exc : String)
  | badRequestError (exc : String)
  | exception (exc : String)

structure CompletionResult where
  statusCode : Nat
  payload : Json

/-- `_error_payload` -/
def errorPayload (errorType message : String) : Json :=
  .object [("error", .object [("type", .string errorType), ("message", .string message),
    ("param", .null), ("code", .string errorType)])]

/-- What `completion` makes of it. -/
def LitellmOutcome.completionResult : LitellmOutcome → CompletionResult
  | response payload => ⟨200, payload⟩
  | authenticationError exc => ⟨401, errorPayload "authentication_error" exc⟩
  | rateLimitError exc => ⟨429, errorPayload "rate_limit_error" exc⟩
  | badRequestError exc => ⟨400, errorPayload "invalid_request_error" exc⟩
  | exception exc => ⟨502, errorPayload "server_error" exc⟩

/-! ## The route -/

/-- `PIISanitizeResult` -/
structure SanitizedPayload where
  payload : JsonObject
  tokenMapping : Option JsonObject

/-- What a request meets. -/
structure RouteEnvironment where
  /-- The candidate leased once the request is admitted; `none` where it is refused. -/
  leased : Option AdapterTarget
  /-- The local candidate leased in its place. -/
  localCandidate : Option AdapterTarget
  /-- The search of the RAG client, where there is one; `none` where it raises. -/
  ragLite : Option (String → Json → Option (List RagResult))
  piiPolicy : Option PIIPolicy
  /-- The PII service, where there is a client; `none` where it raises. -/
  sanitize : Option (JsonObject → Option SanitizedPayload)
  detokenize : Json → JsonObject → Option Json
  /-- The TLS files of the `n`th attempt can be read. -/
  prepared : Nat → Bool
  litellm : Nat → LitellmCall → LitellmOutcome
  retryPreFirstToken : Nat
  /-- `str` of a JSON value that is no text. -/
  repr : Json → String

inductive RouteOutcome where
  | responded (statusCode : Nat) (payload : Json)
  | failed

/-- A request's calls of LiteLLM, and what the client receives. -/
structure EmbeddingsRun where
  calls : List (LitellmCall × LitellmOutcome)
  outcome : RouteOutcome

namespace RouteEnvironment

variable (env : RouteEnvironment)

/-- The text of the last user message; `repr` is that of contents that are no text. -/
def userQuery (repr : Json → String) (messages : List Json) : String :=
  match messages.reverse.find? fun msg => msg.get? "role" = some (.string "user") with
  | none => ""
  | some msg => MCPClient.str repr ((msg.get? "content").getD (.string ""))

def systemMessage (content : String) : Json :=
  .object [("role", .string "system"), ("content", .string content)]

/-- `_inject_rag_context`; `none` where it raises. -/
def injectRagContext (payload : JsonObject) : Option JsonObject :=
  let ragConfig := (payload.lookup "rag").getD .null
  let payload := payload.filter (·.1 ≠ "rag")
  match env.ragLite with
  | none => some payload
  | some search =>
    let messages := ((payload.lookup "messages").bind asList).getD []
    let query := userQuery env.repr messages
    if !ragConfig.truthy || query = "" then some payload
    else match search query ragConfig with
      | none => none
      | some [] => some payload
      | some results =>
        some (setItem payload ("messages", .array (systemMessage (ragBlock results) :: messages)))

/-- `_inject_pii_system_prompt` -/
def injectPiiSystemPrompt (policy : PIIPolicy) (payload : JsonObject) : JsonObject :=
  match payload.lookup "messages" with
  | some (.array messages) =>
    let isSystem (msg : Json) : Bool := msg.get? "role" = some (.string "system")
    let prompt := match policy.egress.mode with
      | .tokenizeReversible => piiTokenizeSystemPrompt
      | _ => piiRedactSystemPrompt
    setItem payload ("messages", .array
      (messages.takeWhile isSystem ++ systemMessage prompt :: messages.dropWhile isSystem))
  | _ => payload

/-- What `_apply_egress_pii` gives: the payload that goes out, with the mapping of its tokens, or
one of its two exceptions. -/
inductive EgressOutcome where
  | egress (payload : JsonObject) (tokenMapping : Option JsonObject)
  | blocked
  | fallbackToLocal

/-- `_apply_egress_pii`, with the system prompt that a sanitized payload gets. -/
def applyEgressPii (target : AdapterTarget) (payload : JsonObject) : EgressOutcome :=
  match env.piiPolicy, env.sanitize with
  | some policy, some sanitize =>
    let isCloud := target.providerType.isRemote
    if !shouldScan policy isCloud then .egress payload none
    else match sanitize payload with
      | some sanitized =>
        .egress (injectPiiSystemPrompt policy sanitized.payload) sanitized.tokenMapping
      | none => match policy.egress.failAction with
        | .block => .blocked
        | .fallbackToLocal => if isCloud then .fallbackToLocal else .egress payload none
        | .allow => .egress payload none
  | _, _ => .egress payload none

/-- The candidate that is called, what goes out to it, and the mapping of its tokens. -/
def prepare (target : AdapterTarget) (payload : JsonObject) :
    Option (AdapterTarget × JsonObject × Option JsonObject) :=
  match env.applyEgressPii target payload with
  | .egress payload tokenMapping => some (target, payload, tokenMapping)
  | .blocked => none
  | .fallbackToLocal => env.localCandidate.bind fun target =>
    match env.applyEgressPii target payload with
    | .egress payload tokenMapping => some (target, payload, tokenMapping)
    | _ => none

/-- One attempt; the result, or `none` where the last one raised. -/
def attempt (target : AdapterTarget) (payload : JsonObject) (n : Nat) :
    Turn Nat (LitellmCall × LitellmOutcome) (Option CompletionResult) :=
  if env.prepared n then
    let call := target.completion payload false
    let outcome := env.litellm n call
    ⟨[(call, outcome)], .error (some outcome.completionResult)⟩
  else if env.retryPreFirstToken ≤ n then ⟨[], .error none⟩
  else ⟨[], .ok (n + 1)⟩

/-- The detokenized payload, or the payload itself where that fails. -/
def respond (tokenMapping : Option JsonObject) (result : CompletionResult) : RouteOutcome :=
  match tokenMapping with
  | some (entry :: mapping) => .responded result.statusCode
      ((env.detokenize result.payload (entry :: mapping)).getD result.payload)
  | _ => .responded result.statusCode result.payload

/-- What an admitted request goes out as. -/
def outgoing (payload : JsonObject) : Option (AdapterTarget × JsonObject × Option JsonObject) :=
  env.leased.bind fun target =>
    (env.injectRagContext payload).bind fun payload => env.prepare target payload

/-- `route_non_stream` on a request to `/v1/embeddings`. -/
def routeEmbeddings (payload : JsonObject) : EmbeddingsRun :=
  match env.outgoing payload with
  | none => ⟨[], .failed⟩
  | some (target, egressPayload, tokenMapping) =>
    let (calls, result) := loop (env.attempt target egressPayload) (fun _ => none)
      (env.retryPreFirstToken + 1) 0
    ⟨calls, result.elim .failed (env.respond tokenMapping)⟩

end RouteEnvironment

/-! ## The arguments of a completion -/

section
variable {d entries : JsonObject} {entry : String × Json} {key : String}

theorem lookup_map_setItem (h : key ≠ entry.1) :
    (d.map fun e => if e.1 = entry.1 then entry else e).lookup key = d.lookup key := by
  induction d with
  | nil => rfl
  | cons e es ih =>
    obtain ⟨k, v⟩ := e
    rw [List.map_cons]
    by_cases hk : k = entry.1
    · have hkey : (key == k) = false := by simpa [hk] using h
      rw [if_pos hk, List.lookup_cons, List.lookup_cons, ih, hkey, ← hk, hkey]
    · rw [if_neg hk, List.lookup_cons, List.lookup_cons, ih]

theorem lookup_setItem_of_ne (h : key ≠ entry.1) :
    (setItem d entry).lookup key = d.lookup key := by
  unfold setItem
  split
  next => exact lookup_map_setItem h
  next =>
    have hlast : [entry].lookup key = none := by simpa using h
    rw [List.lookup_append, hlast, Option.or_none]

theorem lookup_updateDict (h : entries.lookup key = none) :
    (updateDict d entries).lookup key = d.lookup key := by
  induction entries generalizing d with
  | nil => rfl
  | cons entry rest ih =>
    rw [List.lookup_cons] at h
    split at h
    next => cases h
    next hne =>
      have hkey : key ≠ entry.1 := by simpa using hne
      exact (ih h).trans (lookup_setItem_of_ne hkey)

end
namespace AdapterTarget

variable {target : AdapterTarget} {payload : JsonObject} {stream : Bool} {key : String}

theorem lookup_upstreamEntries (hbase : key ≠ "api_base") (hkey : key ≠ "api_key") :
    target.upstreamEntries.lookup key = none := by
  rw [List.lookup_eq_none_iff]
  intro entry hentry
  rcases List.mem_append.1 hentry with h | h
  · obtain ⟨base, _, rfl⟩ := Option.map_eq_some_iff.1 (Option.mem_toList.1 h)
    simpa using hbase
  · obtain ⟨text, _, rfl⟩ := Option.map_eq_some_iff.1 (Option.mem_toList.1 h)
    simpa using hkey

theorem lookup_passedThrough (h : key ∉ passedThrough) :
    (passedThrough.filterMap fun k => (payload.lookup k).map (k, ·)).lookup key = none := by
  rw [List.lookup_eq_none_iff]
  intro entry hentry
  obtain ⟨k, hk, hvalue⟩ := List.mem_filterMap.1 hentry
  obtain ⟨value, _, rfl⟩ := Option.map_eq_some_iff.1 hvalue
  have hne : key ≠ k := fun heq => h (heq ▸ hk)
  simpa using hne

/-- The provider's own parameters set none of the arguments a payload decides. -/
structure LeavesAlone (target : AdapterTarget) (key : String) : Prop where
  extraParams : (target.extraParams.getD []).lookup key = none
  sslKwargs : target.sslKwargs.lookup key = none

/-- A completion carries the messages of its payload and nothing of its input. -/
theorem completion_carries (hmessages : target.LeavesAlone "messages")
    (hinput : target.LeavesAlone "input") : ∃ kwargs,
    target.completion payload stream = .acompletion kwargs ∧
      kwargs.lookup "messages" = some ((payload.lookup "messages").getD (.array [])) ∧
      kwargs.lookup "input" = none := by
  have hparams : ∀ key, target.LeavesAlone key →
      ((target.extraParams.getD []).filter (·.1 ≠ "extra_headers")).lookup key = none := by
    intro key h
    rw [List.lookup_eq_none_iff]
    exact fun entry hentry => List.lookup_eq_none_iff.1 h.extraParams entry
      (List.mem_filter.1 hentry).1
  have hheaders : ∀ (d : JsonObject) key, key ≠ "extra_headers" →
      (match (target.extraParams.getD []).lookup "extra_headers" with
        | some (.object (header :: headers)) =>
          setItem d ("extra_headers", .object (header :: headers))
        | _ => d).lookup key = d.lookup key := by
    intro d key h
    split
    next => exact lookup_setItem_of_ne h
    next => rfl
  have hstream : ∀ (d : JsonObject) key, key ≠ "stream_options" →
      (if stream then setItem d ("stream_options", .object [("include_usage", .bool true)])
        else d).lookup key = d.lookup key := by
    intro d key h
    split
    next => exact lookup_setItem_of_ne h
    next => rfl
  refine ⟨_, rfl, ?_, ?_⟩
  · rw [hstream _ _ (by decide), lookup_updateDict hmessages.sslKwargs,
      lookup_updateDict (hparams _ hmessages), hheaders _ _ (by decide),
      lookup_updateDict (lookup_passedThrough (by decide)),
      lookup_updateDict (lookup_upstreamEntries (by decide) (by decide))]
    rfl
  · rw [hstream _ _ (by decide), lookup_updateDict hinput.sslKwargs,
      lookup_updateDict (hparams _ hinput), hheaders _ _ (by decide),
      lookup_updateDict (lookup_passedThrough (by decide)),
      lookup_updateDict (lookup_upstreamEntries (by decide) (by decide))]
    rfl

/-- An embedding call carries the input of its payload and no messages. -/
theorem embedding_carries (hmessages : target.LeavesAlone "messages")
    (hinput : target.LeavesAlone "input") : ∃ kwargs,
    target.embedding payload = .aembedding kwargs ∧
      kwargs.lookup "input" = some ((payload.lookup "input").getD (.string "")) ∧
      kwargs.lookup "messages" = none := by
  refine ⟨_, rfl, ?_, ?_⟩
  · rw [lookup_updateDict hinput.sslKwargs, lookup_updateDict hinput.extraParams,
      lookup_updateDict (lookup_upstreamEntries (by decide) (by decide))]
    rfl
  · rw [lookup_updateDict hmessages.sslKwargs, lookup_updateDict hmessages.extraParams,
      lookup_updateDict (lookup_upstreamEntries (by decide) (by decide))]
    rfl

end AdapterTarget

namespace RouteEnvironment

variable {env : RouteEnvironment} {payload : JsonObject} {call : LitellmCall}
  {outcome : LitellmOutcome}

/-- Every call is a completion. -/
theorem exists_of_mem_calls (h : (call, outcome) ∈ (env.routeEmbeddings payload).calls) :
    ∃ target egressPayload, call = AdapterTarget.completion target egressPayload false := by
  unfold routeEmbeddings at h
  split at h
  next => exact absurd h List.not_mem_nil
  next target egressPayload tokenMapping _ =>
    obtain ⟨k, _, n, _, hmem⟩ := mem_loop.1 h
    unfold attempt at hmem
    split at hmem
    next =>
      refine ⟨target, egressPayload, ?_⟩
      exact congrArg Prod.fst (List.mem_singleton.1 hmem)
    next => split at hmem <;> exact absurd hmem List.not_mem_nil

/-- The upstream gets an embedding call with the input that goes out, sanitized where it has to be,
and the client receives what the call gives. -/
def Embedded (env : RouteEnvironment) (payload : JsonObject) : Prop :=
  ∃ target egressPayload tokenMapping kwargs outcome,
    env.outgoing payload = some (target, egressPayload, tokenMapping) ∧
    (.aembedding kwargs, outcome) ∈ (env.routeEmbeddings payload).calls ∧
    kwargs.lookup "input" = egressPayload.lookup "input" ∧
    (env.routeEmbeddings payload).outcome = env.respond tokenMapping outcome.completionResult

/-- No request to the embeddings endpoint is routed as one: every call is a completion. -/
theorem embeddings_never_embedded (env : RouteEnvironment) (payload : JsonObject) :
    (∀ entry ∈ (env.routeEmbeddings payload).calls, ∃ kwargs, entry.1 = .acompletion kwargs) ∧
      ¬ env.Embedded payload := by
  have hcalls : ∀ entry ∈ (env.routeEmbeddings payload).calls,
      ∃ kwargs, entry.1 = .acompletion kwargs := by
    rintro ⟨call, outcome⟩ hmem
    obtain ⟨target, egressPayload, rfl⟩ := exists_of_mem_calls hmem
    exact ⟨_, rfl⟩
  refine ⟨hcalls, fun h => ?_⟩
  obtain ⟨_, _, _, kwargs, outcome, _, hmem, _⟩ := h
  obtain ⟨kwargs', heq⟩ := hcalls _ hmem
  cases heq

/-- A local engine gets a chat completion without messages, and the client its answer. -/
theorem embeddings_request_completed : ∃ (env : RouteEnvironment) (payload : JsonObject),
    payload.lookup "input" = some (.string "hello") ∧
      (∃ response, (env.routeEmbeddings payload).outcome = .responded 200 response) ∧
      ¬ env.Embedded payload := by
  let target : AdapterTarget := ⟨.vllm, ['h'], "", none, none, none, []⟩
  let env : RouteEnvironment := ⟨some target, none, none, none, none, fun _ _ => none,
    fun _ => true, fun _ _ => .response (.object [("object", .string "chat.completion")]), 0,
    fun _ => ""⟩
  let payload : JsonObject := [("model", .string "embedder"), ("input", .string "hello")]
  refine ⟨env, payload, rfl, ⟨_, rfl⟩, ?_⟩
  rintro ⟨_, _, _, kwargs, outcome, _, hmem, _⟩
  obtain ⟨_, _, heq⟩ := exists_of_mem_calls hmem
  cases heq

end RouteEnvironment

end LlmPort.Gateway
