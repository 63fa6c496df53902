import LlmPort.Text.Json

/-!
# The settings registry

`services/system_settings/registry.py` and `runtime_mapping.py`: what settings there are, what
values they take and which attributes of the running backend they override.
-/

namespace LlmPort.Backend

open Text

/-- `SystemApplyScope` -/
inductive SystemApplyScope where
  | liveReload | serviceRestart | stackRecreate
  deriving DecidableEq

def SystemApplyScope.value : SystemApplyScope → String
  | liveReload => "live_reload"
  | serviceRestart => "service_restart"
  | stackRecreate => "stack_recreate"

inductive SettingType where
  | string | int | bool | secret | json | enum
  deriving DecidableEq

structure SettingDefinition where
  key : String
  type : SettingType
  isSecret : Bool
  default : Json
  applyScope : SystemApplyScope
  serviceTargets : List String
  protect : Bool
  enumValues : List String

/-- An integer, as JSON writes it. -/
def isIntText (text : String) : Bool :=
  let digits := if text.toList.head? = some '-' then text.toList.tail else text.toList
  !digits.isEmpty && digits.all fun c => c.isDigit

/-- `validate_value`; an error is the message of the `ValueError`. A `bool` is an `int`, too. -/
def validateValue (defn : SettingDefinition) (value : Json) : Except String Json :=
  match defn.type, value with
  | .string, .string _ | .secret, .string _ => .ok value
  | .string, _ | .secret, _ => .error ("Setting " ++ defn.key ++ " expects string value.")
  | .int, .bool _ => .ok value
  | .int, .number text =>
    if isIntText text then .ok value
    else .error ("Setting " ++ defn.key ++ " expects integer value.")
  | .int, _ => .error ("Setting " ++ defn.key ++ " expects integer value.")
  | .bool, .bool _ => .ok value
  | .bool, _ => .error ("Setting " ++ defn.key ++ " expects boolean value.")
  | .json, .object _ | .json, .array _ => .ok value
  | .json, _ => .error ("Setting " ++ defn.key ++ " expects object or array value.")
  | .enum, .string text =>
    if text ∈ defn.enumValues then .ok value
    else .error
      ("Setting " ++ defn.key ++ " expects one of: " ++ ", ".intercalate defn.enumValues ++ ".")
  | .enum, _ => .error
      ("Setting " ++ defn.key ++ " expects one of: " ++ ", ".intercalate defn.enumValues ++ ".")

/-- Nothing is changed by validating it. -/
theorem validateValue_eq {defn : SettingDefinition} {value validated : Json}
    (h : validateValue defn value = .ok validated) : validated = value := by
  unfold validateValue at h
  split at h <;> first | (split at h <;> cases h <;> rfl) | (cases h <;> rfl)

/-- `SETTINGS_REGISTRY`, before plugins extend it. -/
def settingsRegistry : List SettingDefinition :=
  [ ⟨"api.server.endpoint_url", .string, false, .string "/gateway-docs/docs",
      .liveReload, [], false, []⟩,
    ⟨"api.server.container_name", .string, false, .string "llm-port-api",
      .liveReload, [], false, []⟩,
    ⟨"llm_port_api.jwt_secret", .secret, true, .string "",
      .serviceRestart, ["llm-port-api"], true, []⟩,
    ⟨"llm_port_backend.users_secret", .secret, true, .string "",
      .serviceRestart, ["llm-port-api"], true, []⟩,
    ⟨"llm_port_api.langfuse_enabled", .bool, false, .bool false,
      .serviceRestart, ["llm-port-api"], false, []⟩,
    ⟨"llm_port_api.langfuse_host", .string, false, .string "http://langfuse-web:3000",
      .serviceRestart, ["llm-port-api"], false, []⟩,
    ⟨"llm_port_api.langfuse_public_key", .secret, true, .string "",
      .serviceRestart, ["llm-port-api"], false, []⟩,
    ⟨"llm_port_api.langfuse_secret_key", .secret, true, .string "",
      .serviceRestart, ["llm-port-api"], true, []⟩,
    ⟨"shared.redis.password", .secret, true, .string "",
      .stackRecreate, ["redis", "langfuse-web", "langfuse-worker", "llm-port-api"], true, []⟩,
    ⟨"shared.postgres.password", .secret, true, .string "",
      .stackRecreate, ["postgres", "langfuse-web", "langfuse-worker"], true, []⟩,
    ⟨"shared.grafana.admin_password", .secret, true, .string "",
      .serviceRestart, ["grafana"], true, []⟩,
    ⟨"llm_backend.hf_token", .secret, true, .string "",
      .liveReload, ["llm-port-backend"], false, []⟩,
    ⟨"llm_port_api.pii_enabled", .bool, false, .bool false,
      .serviceRestart, ["llm-port-api"], false, []⟩,
    ⟨"llm_port_api.pii_service_url", .string, false, .string "",
      .serviceRestart, ["llm-port-api"], false, []⟩,
    ⟨"llm_port_api.pii_default_policy", .json, false, .object [],
      .serviceRestart, ["llm-port-api"], false, []⟩,
    ⟨"llm_port_api.mcp_enabled", .bool, false, .bool false,
      .serviceRestart, ["llm-port-api"], false, []⟩,
    ⟨"llm_port_api.mcp_service_url", .string, false, .string "http://llm-port-mcp:8000",
      .serviceRestart, ["llm-port-api"], false, []⟩,
    ⟨"llm_port_api.mcp_service_token", .secret, true, .string "",
      .serviceRestart, ["llm-port-api"], true, []⟩,
    ⟨"llm_port_api.skills_enabled", .bool, false, .bool false,
      .serviceRestart, ["llm-port-api"], false, []⟩,
    ⟨"llm_port_api.skills_service_url", .string, false, .string "http://llm-port-skills:8000",
      .serviceRestart, ["llm-port-api"], false, []⟩,
    ⟨"llm_port_api.skills_service_token", .secret, true, .string "",
      .serviceRestart, ["llm-port-api"], true, []⟩,
    ⟨"rag_lite.enabled", .bool, false, .bool false, .liveReload, [], false, []⟩,
    ⟨"rag_lite.embedding_provider_id", .string, false, .string "", .liveReload, [], false, []⟩,
    ⟨"rag_lite.embedding_model", .string, false, .string "", .liveReload, [], false, []⟩,
    ⟨"rag_lite.embedding_dim", .int, false, .number "768", .liveReload, [], false, []⟩,
    ⟨"rag_lite.chunk_max_tokens", .int, false, .number "512", .liveReload, [], false, []⟩,
    ⟨"rag_lite.chunk_overlap_tokens", .int, false, .number "64", .liveReload, [], false, []⟩,
    ⟨"rag_lite.file_store_root", .string, false, .string "/data/llm-port/rag-lite",
      .liveReload, [], false, []⟩,
    ⟨"rag_lite.upload_max_file_mb", .int, false, .number "20", .liveReload, [], false, []⟩]

theorem validateValue_default :
    ∀ defn ∈ settingsRegistry,
      (validateValue defn defn.default).toOption = some defn.default := by
  decide

theorem isSecret_iff_secret : ∀ defn ∈ settingsRegistry, defn.isSecret ↔ defn.type = .secret := by
  decide

/-! ## Runtime attributes -/

/-- The maps from setting keys to attributes of `settings`, which plugins extend. -/
structure RuntimeMapping where
  valueKeys : List (String × String)
  secretKeys : List (String × String)

/-- `_RUNTIME_VALUE_KEY_MAP` and `_RUNTIME_SECRET_KEY_MAP`, before plugins extend them. -/
def runtimeMapping : RuntimeMapping where
  valueKeys :=
    [("llm_port_api.pii_enabled", "pii_enabled"),
      ("llm_port_api.pii_service_url", "pii_service_url"),
      ("llm_port_api.mcp_enabled", "mcp_enabled"),
      ("llm_port_api.mcp_service_url", "mcp_service_url"),
      ("llm_port_api.skills_enabled", "skills_enabled"),
      ("llm_port_api.skills_service_url", "skills_service_url"),
      ("llm_port_api.sessions_enabled", "sessions_enabled"),
      ("rag_lite.enabled", "rag_lite_enabled"),
      ("rag_lite.embedding_provider_id", "rag_lite_embedding_provider_id"),
      ("rag_lite.embedding_model", "rag_lite_embedding_model"),
      ("rag_lite.embedding_dim", "rag_lite_embedding_dim"),
      ("rag_lite.chunk_max_tokens", "rag_lite_chunk_max_tokens"),
      ("rag_lite.chunk_overlap_tokens", "rag_lite_chunk_overlap_tokens"),
      ("rag_lite.file_store_root", "rag_lite_file_store_root"),
      ("rag_lite.upload_max_file_mb", "rag_lite_upload_max_file_mb")]
  secretKeys :=
    [("llm_port_backend.users_secret", "users_secret"),
      ("llm_port_api.mcp_service_token", "mcp_service_token"),
      ("llm_port_api.skills_service_token", "skills_service_token")]

namespace RuntimeMapping

variable (m : RuntimeMapping)

/-- `resolve_runtime_attr`, where the empty name counts as none. -/
def resolveRuntimeAttr (key : String) : Option String :=
  (((m.valueKeys.lookup key).filter (· ≠ "")).or (m.secretKeys.lookup key)).filter (· ≠ "")

end RuntimeMapping

end LlmPort.Backend
