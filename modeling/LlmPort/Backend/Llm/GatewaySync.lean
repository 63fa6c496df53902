import Mathlib.Data.Rat.Defs
import LlmPort.Backend.NodeControl.Model
import LlmPort.Transition.Upsert

/-!
# Publishing runtimes to the gateway

`services/llm/gateway_sync.py`: the three routing tables of the gateway database and the statements
by which the backend keeps them. Each call is one transaction.
-/

namespace LlmPort.Backend.Llm

open NodeControl Transition

structure ModelAlias where
  /-- `alias` -/
  name : String
  description : Option String
  enabled : Bool
  deriving DecidableEq

structure ProviderInstance where
  id : Uuid
  type : String
  baseUrl : List Char
  enabled : Bool
  weight : ℚ
  maxConcurrency : Int
  healthStatus : String
  apiKeyEncrypted : Option String
  litellmProvider : Option String
  litellmModel : Option String
  extraParams : Option String
  nodeId : Option String
  nodeMetadata : Option String
  capacityHints : Option String
  deriving DecidableEq

structure PoolMembership where
  modelAlias : String
  providerInstanceId : Uuid
  weightOverride : Option ℚ
  enabled : Bool
  deriving DecidableEq

/-- The routing tables of the gateway database. -/
structure GatewayDb where
  aliases : List ModelAlias
  instances : List ProviderInstance
  memberships : List PoolMembership

/-- The arguments of `publish_runtime` besides the runtime and its alias; an empty object is
`none`. -/
structure PublishRequest where
  baseUrl : List Char
  backendProviderType : String
  isRemote : Bool
  healthStatus : String
  weight : ℚ
  maxConcurrency : Int
  apiKeyEncrypted : Option String
  litellmProvider : Option String
  litellmModel : Option String
  extraParams : Option String
  nodeId : Option String
  nodeMetadata : Option String
  capacityHints : Option String

/-- `_LITELLM_TO_GATEWAY` -/
def litellmToGateway : List (String × String) :=
  [("anthropic", "remote_anthropic"), ("gemini", "remote_google"), ("vertex_ai", "remote_google"),
    ("bedrock", "remote_bedrock"), ("azure", "remote_azure"), ("azure_ai", "remote_azure"),
    ("mistral", "remote_mistral"), ("groq", "remote_groq"), ("deepseek", "remote_deepseek"),
    ("cohere", "remote_cohere"), ("cohere_chat", "remote_cohere"), ("openai", "remote_openai"),
    ("openrouter", "remote_openai")]

/-- `_map_provider_type` -/
def mapProviderType (backendType : String) (isRemote : Bool) (litellmProvider : Option String) :
    String :=
  if isRemote then
    match litellmProvider.filter (· ≠ "") with
    | some provider => (litellmToGateway.lookup provider).getD "remote_custom"
    | none => "remote_openai"
  else if backendType ∈ ["vllm", "llamacpp", "tgi", "ollama"] then backendType else "vllm"

/-- The suffix `/v1` or `/v1/` of a text is dropped. -/
def dropV1 (text : List Char) : List Char :=
  match text.reverse with
  | '1' :: 'v' :: '/' :: rest => rest.reverse
  | '/' :: '1' :: 'v' :: '/' :: rest => rest.reverse
  | _ => text

/-- `_normalize_base_url`; the end of the text also matches before a final line feed. -/
def normalizeBaseUrl (url : List Char) : List Char :=
  let url := (url.reverse.dropWhile (· = '/')).reverse
  match url.reverse with
  | [] => []
  | last :: body =>
    if last = Char.ofNat 10 then dropV1 body.reverse ++ [last] else dropV1 url

/-- The text of an endpoint URL, as `urlunparse` puts it together. -/
def endpointText (url : EndpointUrl) : List Char :=
  let netloc := url.hostname ++ url.port.elim "" fun port => s!":{port}"
  let rest := if netloc = "" then url.path else "//" ++ netloc ++ url.path
  (if url.scheme = "" then rest else url.scheme ++ ":" ++ rest).toList

namespace GatewayDb

def publishedInstance (runtimeId : Uuid) (req : PublishRequest) : ProviderInstance where
  id := runtimeId
  type := mapProviderType req.backendProviderType req.isRemote req.litellmProvider
  baseUrl := normalizeBaseUrl req.baseUrl
  enabled := true
  weight := req.weight
  maxConcurrency := req.maxConcurrency
  healthStatus := req.healthStatus
  apiKeyEncrypted := req.apiKeyEncrypted
  litellmProvider := req.litellmProvider
  litellmModel := req.litellmModel
  extraParams := req.extraParams
  nodeId := req.nodeId
  nodeMetadata := req.nodeMetadata
  capacityHints := req.capacityHints

/-- The primary key of a membership. -/
def membershipKey (m : PoolMembership) : String × Uuid := (m.modelAlias, m.providerInstanceId)

def publishRuntime (runtimeId : Uuid) (name : String) (req : PublishRequest) (db : GatewayDb) :
    GatewayDb where
  aliases := upsert (·.name) ⟨name, some s!"Auto-synced from runtime {uuidStr runtimeId}", true⟩
    ({ · with enabled := true }) db.aliases
  instances := upsert (·.id) (publishedInstance runtimeId req)
    (fun _ => publishedInstance runtimeId req) db.instances
  memberships := upsert membershipKey ⟨name, runtimeId, none, true⟩ ({ · with enabled := true })
    db.memberships

def unpublishRuntime (runtimeId : Uuid) (name : String) (db : GatewayDb) : GatewayDb :=
  let memberships := db.memberships.filter fun m =>
    ¬ (m.modelAlias = name ∧ m.providerInstanceId = runtimeId)
  let instances := db.instances.filter (·.id ≠ runtimeId)
  -- ON DELETE CASCADE of the provider instance
  let memberships := memberships.filter (·.providerInstanceId ≠ runtimeId)
  let remaining := memberships.countP fun m => m.modelAlias = name ∧ m.enabled
  { aliases := if remaining = 0 then
      db.aliases.map fun a => if a.name = name then { a with enabled := false } else a
      else db.aliases
    instances
    memberships }

def setInstanceHealth (runtimeId : Uuid) (healthStatus : String) (db : GatewayDb) : GatewayDb :=
  { db with instances := db.instances.map fun x =>
      if x.id = runtimeId then { x with healthStatus } else x }

def setInstanceEnabled (runtimeId : Uuid) (enabled : Bool) (db : GatewayDb) : GatewayDb :=
  { db with instances := db.instances.map fun x =>
      if x.id = runtimeId then { x with enabled } else x }

/-- The aliases an instance is a member of. -/
def aliasesOf (db : GatewayDb) (id : Uuid) : List String :=
  (db.memberships.filter (·.providerInstanceId = id)).map (·.modelAlias)

/-- The alias has an enabled membership. -/
def HasEnabled (db : GatewayDb) (name : String) : Prop :=
  ∃ m ∈ db.memberships, m.modelAlias = name ∧ m.enabled

variable {db : GatewayDb} {id : Uuid} {name : String} {req : PublishRequest}

theorem mem_aliasesOf : name ∈ db.aliasesOf id ↔
    ∃ m ∈ db.memberships, m.providerInstanceId = id ∧ m.modelAlias = name := by
  unfold aliasesOf
  simp only [List.mem_map, List.mem_filter, decide_eq_true_eq, and_assoc]

/-- Publishing adds the alias to those of the instance. -/
theorem aliasesOf_publish_self : (db.publishRuntime id name req).aliasesOf id =
    if name ∈ db.aliasesOf id then db.aliasesOf id else db.aliasesOf id ++ [name] := by
  have hany : (db.memberships.any fun m => membershipKey m = membershipKey ⟨name, id, none, true⟩) ↔
      name ∈ db.aliasesOf id := by
    rw [mem_aliasesOf, List.any_eq_true]
    refine exists_congr fun m => and_congr_right fun _ => ?_
    unfold membershipKey
    rw [decide_eq_true_eq, Prod.mk.injEq, and_comm]
  unfold aliasesOf publishRuntime
  dsimp only
  rw [map_filter_upsert membershipKey _ ({ · with enabled := true }) _ _ _ (fun _ _ _ => rfl)
    (fun _ _ _ => rfl)]
  simp only [hany, List.filter_cons, List.filter_nil, decide_true, if_true, List.map_cons,
    List.map_nil]
  rfl

theorem aliasesOf_publish_of_ne {id' : Uuid} (h : id' ≠ id) :
    (db.publishRuntime id name req).aliasesOf id' = db.aliasesOf id' := by
  unfold aliasesOf publishRuntime
  dsimp only
  rw [map_filter_upsert membershipKey _ ({ · with enabled := true }) _ _ _ (fun _ _ _ => rfl)
    (fun _ _ _ => rfl)]
  split
  · rfl
  · simp [h.symm]

/-- Publishing enables a membership of the alias, and disables none. -/
theorem hasEnabled_publish {other : String} :
    (db.publishRuntime id name req).HasEnabled other ↔ db.HasEnabled other ∨ other = name := by
  unfold HasEnabled publishRuntime
  simp only [mem_upsert]
  constructor
  · rintro ⟨m, (⟨hm, -⟩ | ⟨y, -, hk, rfl⟩ | ⟨rfl, -⟩), hother, he⟩
    · exact .inl ⟨m, hm, hother, he⟩
    · exact .inr (hother ▸ congrArg Prod.fst hk)
    · exact .inr hother.symm
  · rintro (⟨m, hm, hother, he⟩ | rfl)
    · by_cases hk : membershipKey m = (name, id)
      · exact ⟨_, .inr (.inl ⟨m, hm, hk, rfl⟩), hother, rfl⟩
      · exact ⟨m, .inl ⟨hm, hk⟩, hother, he⟩
    · by_cases hex : ∃ m ∈ db.memberships, membershipKey m = (other, id)
      · obtain ⟨m, hm, hk⟩ := hex
        exact ⟨_, .inr (.inl ⟨m, hm, hk, rfl⟩), congrArg Prod.fst hk, rfl⟩
      · exact ⟨_, .inr (.inr ⟨rfl, fun m hm hk => hex ⟨m, hm, hk⟩⟩), rfl, rfl⟩

theorem aliasesOf_unpublish_self : (db.unpublishRuntime id name).aliasesOf id = [] := by
  refine List.eq_nil_iff_forall_not_mem.2 fun other hm => ?_
  obtain ⟨m, hm, hid, -⟩ := mem_aliasesOf.1 hm
  exact absurd hid (of_decide_eq_true (List.mem_filter.1 hm).2)

theorem aliasesOf_unpublish_of_ne {id' : Uuid} (h : id' ≠ id) :
    (db.unpublishRuntime id name).aliasesOf id' = db.aliasesOf id' := by
  unfold aliasesOf unpublishRuntime
  rw [List.filter_filter, List.filter_filter]
  refine congrArg _ (List.filter_congr fun m _ => ?_)
  by_cases hm : m.providerInstanceId = id'
  · simp [hm, h]
  · simp [hm]

/-- What is left of an alias after an unpublication. -/
theorem hasEnabled_unpublish {other : String} : (db.unpublishRuntime id name).HasEnabled other ↔
    ∃ m ∈ db.memberships, m.providerInstanceId ≠ id ∧ m.modelAlias = other ∧ m.enabled := by
  unfold HasEnabled unpublishRuntime
  refine exists_congr fun m => ?_
  simp only [List.mem_filter, decide_eq_true_eq]
  tauto

theorem aliases_unpublish_of_hasEnabled
    (h : (db.unpublishRuntime id name).HasEnabled name) :
    (db.unpublishRuntime id name).aliases = db.aliases := by
  obtain ⟨m, hm, hn, he⟩ := h
  refine if_neg fun hzero => ?_
  exact List.countP_eq_zero.1 hzero m hm (decide_eq_true ⟨hn, he⟩)

theorem aliases_unpublish_of_not_hasEnabled
    (h : ¬ (db.unpublishRuntime id name).HasEnabled name) :
    (db.unpublishRuntime id name).aliases =
      db.aliases.map fun a => if a.name = name then { a with enabled := false } else a := by
  refine if_pos (List.countP_eq_zero.2 fun m hm hp => h ?_)
  obtain ⟨hn, he⟩ := of_decide_eq_true hp
  exact ⟨m, hm, hn, he⟩

end GatewayDb

end LlmPort.Backend.Llm
