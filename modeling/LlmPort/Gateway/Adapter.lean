import LlmPort.Backend.Llm.BaseUrl
import LlmPort.Gateway.RequestRun

/-!
# The adapter's upstream arguments

`_upstream_kwargs` of `services/gateway/llm_adapter.py`, over the instances the backend publishes.
-/

namespace LlmPort.Gateway

open Backend.Llm

namespace ProviderType

/-- The value of the enumeration. -/
def value : ProviderType → String
  | vllm => "vllm"
  | llamacpp => "llamacpp"
  | tgi => "tgi"
  | ollama => "ollama"
  | remoteOpenai => "remote_openai"
  | remoteAnthropic => "remote_anthropic"
  | remoteGoogle => "remote_google"
  | remoteBedrock => "remote_bedrock"
  | remoteAzure => "remote_azure"
  | remoteMistral => "remote_mistral"
  | remoteGroq => "remote_groq"
  | remoteDeepseek => "remote_deepseek"
  | remoteCohere => "remote_cohere"
  | remoteCustom => "remote_custom"

def all : List ProviderType :=
  [vllm, llamacpp, tgi, ollama, remoteOpenai, remoteAnthropic, remoteGoogle, remoteBedrock,
    remoteAzure, remoteMistral, remoteGroq, remoteDeepseek, remoteCohere, remoteCustom]

/-- The member with a value, as the column is read. -/
def ofValue? (text : String) : Option ProviderType := all.find? (·.value = text)

/-- `v1_prefixed` -/
def v1Prefixed : List ProviderType := [vllm, tgi, remoteOpenai]

end ProviderType

structure UpstreamKwargs where
  apiBase : Option (List Char)
  apiKey : Option String
  deriving DecidableEq

/-- `litellm://` -/
def litellmScheme : List Char := ['l', 'i', 't', 'e', 'l', 'l', 'm', ':', '/', '/']

/-- The base of a URL the operator gave, with the segment the normalization took off. -/
def effectiveBase (baseUrl : List Char) (providerType : ProviderType) : List Char :=
  let base := baseUrl.rdropWhile (· = '/')
  if providerType ∈ ProviderType.v1Prefixed ∧ ¬ v1 <:+ base then base ++ v1 else base

/-- `_upstream_kwargs`; an absent text is empty. -/
def upstreamKwargs (baseUrl : List Char) (apiKey : String) (providerType : ProviderType) :
    UpstreamKwargs :=
  let apiBase := if baseUrl ≠ [] ∧ ¬ litellmScheme <+: baseUrl
    then some (effectiveBase baseUrl providerType) else none
  { apiBase
    apiKey := if apiKey ≠ "" then some apiKey
      else if apiBase.getD [] ≠ [] then some "EMPTY" else none }

/-! ## From the registered URL to the upstream's -/

/-- Every type the backend writes is one the gateway reads. -/
theorem exists_ofValue_mapProviderType (backendType : String) (isRemote : Bool)
    (litellmProvider : Option String) : ∃ providerType : ProviderType,
      ProviderType.ofValue? (mapProviderType backendType isRemote litellmProvider) =
        some providerType := by
  have hall : ∀ providerType : ProviderType, ∃ read,
      ProviderType.ofValue? providerType.value = some read := by
    intro providerType
    exact ⟨providerType, by cases providerType <;> decide⟩
  unfold mapProviderType
  split
  · split
    next provider _ =>
      cases hlookup : litellmToGateway.lookup provider with
      | none => exact hall .remoteCustom
      | some text =>
        have hmem := List.lookup_eq_some_iff.1 hlookup
        obtain ⟨before, after, htable, -⟩ := hmem
        have hin : (provider, text) ∈ litellmToGateway := by rw [htable]; simp
        have htext : ∀ entry ∈ litellmToGateway, ∃ providerType : ProviderType,
            providerType.value = entry.2 := by
          simp only [litellmToGateway, List.forall_mem_cons, List.not_mem_nil, false_implies,
            implies_true, and_true]
          exact ⟨⟨.remoteAnthropic, rfl⟩, ⟨.remoteGoogle, rfl⟩, ⟨.remoteGoogle, rfl⟩,
            ⟨.remoteBedrock, rfl⟩, ⟨.remoteAzure, rfl⟩, ⟨.remoteAzure, rfl⟩,
            ⟨.remoteMistral, rfl⟩, ⟨.remoteGroq, rfl⟩, ⟨.remoteDeepseek, rfl⟩,
            ⟨.remoteCohere, rfl⟩, ⟨.remoteCohere, rfl⟩, ⟨.remoteOpenai, rfl⟩,
            ⟨.remoteOpenai, rfl⟩⟩
        obtain ⟨providerType, hvalue⟩ := htext _ hin
        have hread := hall providerType
        rw [hvalue] at hread
        exact hread
    next => exact hall .remoteOpenai
  · split
    next hknown =>
      simp only [List.mem_cons, List.not_mem_nil, or_false] at hknown
      rcases hknown with rfl | rfl | rfl | rfl
      · exact hall .vllm
      · exact hall .llamacpp
      · exact hall .tgi
      · exact hall .ollama
    next => exact hall .vllm

/-- A URL an operator can mean: neither empty nor a reference to LiteLLM's own routing, and with
nothing for the normalization to take off. -/
structure PlainUrl (url : List Char) : Prop where
  ne_nil : url ≠ []
  not_litellm : ¬ litellmScheme <+: url
  bare : Bare url

theorem effectiveBase_of_plain {url : List Char} (h : PlainUrl url) (providerType : ProviderType) :
    effectiveBase url providerType =
      if providerType ∈ ProviderType.v1Prefixed then url ++ v1 else url := by
  have hslash : url.rdropWhile (· = '/') = url := by
    rw [List.rdropWhile_eq_self_iff]
    intro hne hlast
    have hend : ['/'] <:+ url :=
      ⟨url.dropLast, by rw [← of_decide_eq_true hlast]; exact List.dropLast_append_getLast hne⟩
    exact h.bare ['/'] (by simp [strippedEndings]) hend
  have hv1 : ¬ v1 <:+ url := h.bare v1 (by simp [strippedEndings])
  unfold effectiveBase
  simp [hslash, hv1]

/-- Saved, published and read by the adapter, a plain URL with `/v1` at its end comes out as it
went in for the types that are served under `/v1`, and without the segment for the others. -/
theorem apiBase_published {url : List Char} (h : PlainUrl url)
    (runtimeId : Backend.NodeControl.Uuid)
    (req : PublishRequest) (apiKey : String) (providerType : ProviderType)
    (hurl : req.baseUrl = normalizeBaseUrl (url ++ v1)) :
    (upstreamKwargs (GatewayDb.publishedInstance runtimeId req).baseUrl apiKey
        providerType).apiBase =
      some (if providerType ∈ ProviderType.v1Prefixed then url ++ v1 else url) := by
  have hbase : (GatewayDb.publishedInstance runtimeId req).baseUrl = url := by
    change normalizeBaseUrl req.baseUrl = url
    rw [hurl, normalizeBaseUrl_append_v1]
    exact normalizeBaseUrl_eq_self_iff.2 h.bare
  unfold upstreamKwargs
  rw [hbase]
  simp only [h.ne_nil, h.not_litellm, ne_eq, not_false_eq_true, and_self, if_true,
    effectiveBase_of_plain h]

/-- For every type the backend publishes and every plain URL registered with `/v1` at its end the
adapter calls that URL where the type is served under `/v1`, and the URL without the segment where
it is not. Normalization is idempotent on every URL that ends in no repeated suffix. -/
theorem baseUrl_roundTrip :
    (∀ (url : List Char), PlainUrl url →
        ∀ (runtimeId : Backend.NodeControl.Uuid) (req : PublishRequest) (apiKey : String),
      req.baseUrl = normalizeBaseUrl (url ++ v1) →
      let published := GatewayDb.publishedInstance runtimeId req
      ∃ providerType, ProviderType.ofValue? published.type = some providerType ∧
        (upstreamKwargs published.baseUrl apiKey providerType).apiBase =
          some (if providerType ∈ ProviderType.v1Prefixed then url ++ v1 else url)) ∧
      ∀ url, ¬ EndsRepeated url →
        normalizeBaseUrl (normalizeBaseUrl url) = normalizeBaseUrl url := by
  refine ⟨fun url h runtimeId req apiKey hurl => ?_, fun url =>
    normalizeBaseUrl_idempotent_iff.2⟩
  obtain ⟨providerType, htype⟩ :=
    exists_ofValue_mapProviderType req.backendProviderType req.isRemote req.litellmProvider
  exact ⟨providerType, htype, apiBase_published h runtimeId req apiKey providerType hurl⟩

/-- The runtime of a remote provider that LiteLLM reaches as `anthropic`. -/
def anthropicProxy (baseUrl : List Char) : PublishRequest where
  baseUrl := baseUrl
  backendProviderType := "vllm"
  isRemote := true
  healthStatus := "healthy"
  weight := 1
  maxConcurrency := 10
  apiKeyEncrypted := none
  litellmProvider := some "anthropic"
  litellmModel := none
  extraParams := none
  nodeId := none
  nodeMetadata := none
  capacityHints := none

theorem anthropic_loses_v1 :
    ¬ ((∀ (url : List Char) (runtimeId : Backend.NodeControl.Uuid) (req : PublishRequest)
          (apiKey : String), v1 <:+ url → req.baseUrl = normalizeBaseUrl url →
        let published := GatewayDb.publishedInstance runtimeId req
        ∃ providerType, ProviderType.ofValue? published.type = some providerType ∧
          (upstreamKwargs published.baseUrl apiKey providerType).apiBase = some url) ∧
        ∀ url, normalizeBaseUrl (normalizeBaseUrl url) = normalizeBaseUrl url) := by
  rintro ⟨h, -⟩
  have hsuffix : v1 <:+ ['h', '/', 'v', '1'] := by decide
  obtain ⟨providerType, htype, hbase⟩ := h ['h', '/', 'v', '1'] 0
    (anthropicProxy (normalizeBaseUrl ['h', '/', 'v', '1'])) "" hsuffix rfl
  have hread : ProviderType.ofValue? (GatewayDb.publishedInstance 0
      (anthropicProxy (normalizeBaseUrl ['h', '/', 'v', '1']))).type =
        some .remoteAnthropic := by decide
  rw [hread, Option.some.injEq] at htype
  subst htype
  exact absurd hbase (by decide)

end LlmPort.Gateway
