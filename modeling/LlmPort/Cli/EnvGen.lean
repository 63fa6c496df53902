import LlmPort.Cli.EnvFile

/-!
# Regenerating an env file

`core/env_gen.py`: `write_env_file` puts the secrets of the file that is there into freshly
generated variables, key by key.
-/

namespace LlmPort.Cli

open Text Transition

/-- The keys whose values are preserved. -/
def secretKeys : List String :=
  ["POSTGRES_PASSWORD", "REDIS_AUTH", "MINIO_ROOT_PASSWORD", "CLICKHOUSE_PASSWORD",
    "GRAFANA_ADMIN_PASSWORD", "RABBITMQ_ADMIN_PASS", "RABBITMQ_BACKEND_PASS", "RABBITMQ_API_PASS",
    "RABBITMQ_PII_PASS", "LANGFUSE_NEXTAUTH_SECRET", "LANGFUSE_SALT", "LANGFUSE_ENCRYPTION_KEY",
    "LLM_PORT_BACKEND_SETTINGS_MASTER_KEY", "LLM_PORT_API_ENCRYPTION_KEY", "USERS_SECRET",
    "LLM_PORT_API_MCP_SERVICE_TOKEN", "LLM_PORT_BACKEND_MCP_SERVICE_TOKEN",
    "LLM_PORT_MCP_SERVICE_TOKEN", "LLM_PORT_API_SKILLS_SERVICE_TOKEN",
    "LLM_PORT_BACKEND_SKILLS_SERVICE_TOKEN", "LLM_PORT_SKILLS_SERVICE_TOKEN",
    "LLM_PORT_BACKEND_RAG_SERVICE_TOKEN", "LLM_PORT_RAG_SERVICE_TOKEN"]

/-! ## Fresh variables -/

/-- A generated password, hex string or URL-safe secret. -/
structure Secret where
  text : String
  tokens : ∀ c ∈ text.toList, isToken c = true

structure FreshSecrets where
  postgresPassword : Secret
  redisPassword : Secret
  minioPassword : Secret
  mcpServiceToken : Secret
  skillsServiceToken : Secret
  ragServiceToken : Secret
  grafanaAdminPassword : Secret
  langfuseNextauthSecret : Secret
  langfuseSalt : Secret
  langfuseEncryptionKey : Secret
  clickhousePassword : Secret
  rabbitmqAdminPass : Secret
  rabbitmqBackendPass : Secret
  rabbitmqApiPass : Secret
  rabbitmqPiiPass : Secret
  settingsMasterKey : Secret
  apiEncryptionKey : Secret
  usersSecret : Secret

def langfuseUrl (password : String) : String :=
  "postgresql://postgres:" ++ password ++ "@postgres:5432/langfuse"

/-- The dict of `default_env_vars` before it is updated. -/
def baseItems (fresh : FreshSecrets) (adminPassword : String) : List (String × String) :=
  [("POSTGRES_USER", "postgres"),
    ("POSTGRES_PASSWORD", fresh.postgresPassword.text),
    ("POSTGRES_DB", "postgres"),
    ("GRAFANA_ADMIN_USER", "admin"),
    ("GRAFANA_ADMIN_PASSWORD",
      if adminPassword = "" then fresh.grafanaAdminPassword.text else adminPassword),
    ("LANGFUSE_NEXTAUTH_SECRET", fresh.langfuseNextauthSecret.text),
    ("LANGFUSE_SALT", fresh.langfuseSalt.text),
    ("LANGFUSE_ENCRYPTION_KEY", fresh.langfuseEncryptionKey.text),
    ("LANGFUSE_DATABASE_URL", langfuseUrl fresh.postgresPassword.text),
    ("CLICKHOUSE_USER", "clickhouse"),
    ("CLICKHOUSE_PASSWORD", fresh.clickhousePassword.text),
    ("REDIS_AUTH", fresh.redisPassword.text),
    ("MINIO_ROOT_USER", "minio"),
    ("MINIO_ROOT_PASSWORD", fresh.minioPassword.text),
    ("RABBITMQ_ADMIN_USER", "admin"),
    ("RABBITMQ_ADMIN_PASS", fresh.rabbitmqAdminPass.text),
    ("RABBITMQ_BACKEND_PASS", fresh.rabbitmqBackendPass.text),
    ("RABBITMQ_API_PASS", fresh.rabbitmqApiPass.text),
    ("RABBITMQ_PII_PASS", fresh.rabbitmqPiiPass.text),
    ("LLM_PORT_BACKEND_SETTINGS_MASTER_KEY", fresh.settingsMasterKey.text),
    ("LLM_PORT_API_ENCRYPTION_KEY", fresh.apiEncryptionKey.text),
    ("LLM_PORT_API_LANGFUSE_ENABLED", "false"),
    ("LLM_PORT_BACKEND_GATEWAY_URL", "http://llm-port-api:8000"),
    ("LLM_PORT_BACKEND_ENVIRONMENT", "production"),
    ("USERS_SECRET", fresh.usersSecret.text),
    ("LLM_PORT_API_MCP_SERVICE_TOKEN", fresh.mcpServiceToken.text),
    ("LLM_PORT_BACKEND_MCP_SERVICE_TOKEN", fresh.mcpServiceToken.text),
    ("LLM_PORT_MCP_SERVICE_TOKEN", fresh.mcpServiceToken.text),
    ("LLM_PORT_API_SKILLS_SERVICE_TOKEN", fresh.skillsServiceToken.text),
    ("LLM_PORT_BACKEND_SKILLS_SERVICE_TOKEN", fresh.skillsServiceToken.text),
    ("LLM_PORT_SKILLS_SERVICE_TOKEN", fresh.skillsServiceToken.text),
    ("LLM_PORT_BACKEND_RAG_SERVICE_TOKEN", fresh.ragServiceToken.text),
    ("LLM_PORT_RAG_SERVICE_TOKEN", fresh.ragServiceToken.text),
    ("LANGFUSE_INIT_USER_EMAIL", ""),
    ("LANGFUSE_INIT_USER_PASSWORD", ""),
    ("LANGFUSE_INIT_USER_NAME", "Admin"),
    ("LANGFUSE_INIT_ORG_ID", "llm-port-org"),
    ("LANGFUSE_INIT_ORG_NAME", "llm-port"),
    ("LANGFUSE_INIT_PROJECT_ID", "llm-port-project"),
    ("LANGFUSE_INIT_PROJECT_NAME", "llm-port"),
    ("LANGFUSE_INIT_PROJECT_PUBLIC_KEY", ""),
    ("LANGFUSE_INIT_PROJECT_SECRET_KEY", "")]

/-- The services that are scaled. -/
inductive TunedService where
  | backend | api | pii

namespace TunedService

def envPrefix : TunedService → String
  | backend => "LLM_PORT_BACKEND_"
  | api => "LLM_PORT_API_"
  | pii => "LLM_PORT_PII_"

end TunedService

/-- `calculate_tune_profile("prod").to_env_dict()`, with a quarter of the cores -/
def tuneItems (physicalCores : Nat) : List (String × String) :=
  let workers := max 1 (physicalCores / 4)
  let dbPoolSize := max 5 (workers * 3)
  let rabbitPoolSize := max 2 workers
  ([.backend, .api, .pii].map fun svc : TunedService =>
    (svc.envPrefix ++ "WORKERS_COUNT", toString workers)) ++
  ([.backend, .api, .pii].flatMap fun svc : TunedService =>
    [(svc.envPrefix ++ "DB_POOL_SIZE", toString dbPoolSize),
      (svc.envPrefix ++ "DB_MAX_OVERFLOW", toString dbPoolSize)]) ++
  [.backend, .api].flatMap fun svc : TunedService =>
    [(svc.envPrefix ++ "RABBIT_POOL_SIZE", toString rabbitPoolSize),
      (svc.envPrefix ++ "RABBIT_CHANNEL_POOL_SIZE", toString (rabbitPoolSize * 2))]

/-- `MODULES`, with the variables of each. -/
def modules : List (String × List (String × String)) :=
  [("pii",
      [("LLM_PORT_API_PII_ENABLED", "true"),
        ("LLM_PORT_API_PII_SERVICE_URL", "http://llm-port-pii:8000")]),
    ("mcp",
      [("LLM_PORT_API_MCP_ENABLED", "true"),
        ("LLM_PORT_API_MCP_SERVICE_URL", "http://llm-port-mcp:8000"),
        ("LLM_PORT_BACKEND_MCP_ENABLED", "true"),
        ("LLM_PORT_BACKEND_MCP_SERVICE_URL", "http://llm-port-mcp:8000")]),
    ("skills",
      [("LLM_PORT_API_SKILLS_ENABLED", "true"),
        ("LLM_PORT_API_SKILLS_SERVICE_URL", "http://llm-port-skills:8000"),
        ("LLM_PORT_BACKEND_SKILLS_ENABLED", "true"),
        ("LLM_PORT_BACKEND_SKILLS_SERVICE_URL", "http://llm-port-skills:8000")])]

def moduleEnvVars (profile : String) : List (String × String) :=
  match modules.find? (·.1 = profile) with
  | none => []
  | some mod => mod.2

def defaultEnvVars (fresh : FreshSecrets) (adminPassword : String) (physicalCores : Nat)
    (profiles : List String) : Env :=
  let env := (Dict.empty.update (baseItems fresh adminPassword)).update (tuneItems physicalCores)
  profiles.foldl (fun env profile => env.update (moduleEnvVars profile)) env

/-! ## Preserving secrets -/

/-- A key's value of the existing file is put in if there are both. -/
def preserveKey (existing env : Env) (key : String) : Env :=
  match existing.get key, env.get key with
  | some old, some _ => env.set key old
  | _, _ => env

def preserve (existing env : Env) : Env :=
  let env := secretKeys.foldl (preserveKey existing) env
  match existing.get "POSTGRES_PASSWORD", env.get "LANGFUSE_DATABASE_URL" with
  | some pw, some _ =>
    let user := (env.get "POSTGRES_USER").getD "postgres"
    let db := (env.get "POSTGRES_DB").getD "langfuse"
    env.set "LANGFUSE_DATABASE_URL"
      ("postgresql://" ++ user ++ ":" ++ pw ++ "@postgres:5432/" ++ db)
  | _, _ => env

/-- `old` is the file that is there, if there is one. -/
def writeEnvFile (old : Option (List Char)) (timestamp : Timestamp) (env : Env)
    (preserveSecrets : Bool) : List Char :=
  envText timestamp (if preserveSecrets then preserve (readEnvFile old) env else env)

/-- What a regeneration puts in. -/
structure Generation where
  fresh : FreshSecrets
  adminPassword : String
  adminPasswordLine : OneLine adminPassword.toList
  physicalCores : Nat
  profiles : List String
  timestamp : Timestamp

namespace Generation

variable (g : Generation) (old : Option (List Char))

def env : Env := defaultEnvVars g.fresh g.adminPassword g.physicalCores g.profiles

def write : List Char := writeEnvFile old g.timestamp g.env true

/-- What is read after the file has been regenerated. -/
def regenerated : Env := readEnvFile (some (g.write old))

end Generation

/-- The services behind the gateway and the backend. -/
inductive DownstreamService where
  | mcp | skills | rag

namespace DownstreamService

/-- The callers' keys and the receiver's. -/
def tokenKeys : DownstreamService → List String
  | mcp => ["LLM_PORT_API_MCP_SERVICE_TOKEN", "LLM_PORT_BACKEND_MCP_SERVICE_TOKEN",
      "LLM_PORT_MCP_SERVICE_TOKEN"]
  | skills => ["LLM_PORT_API_SKILLS_SERVICE_TOKEN", "LLM_PORT_BACKEND_SKILLS_SERVICE_TOKEN",
      "LLM_PORT_SKILLS_SERVICE_TOKEN"]
  | rag => ["LLM_PORT_BACKEND_RAG_SERVICE_TOKEN", "LLM_PORT_RAG_SERVICE_TOKEN"]

def token (fresh : FreshSecrets) : DownstreamService → Secret
  | mcp => fresh.mcpServiceToken
  | skills => fresh.skillsServiceToken
  | rag => fresh.ragServiceToken

end DownstreamService

/-- The tokens of a service that are there are one. -/
def Env.Agree (env : Env) (service : DownstreamService) : Prop :=
  ∃ token, ∀ key ∈ service.tokenKeys, ∀ value, env.get key = some value → value = token

/-- The installation is readable with the regenerated file. -/
structure Generation.KeepsReadable (g : Generation) (old : Option (List Char)) : Prop where
  secrets : ∀ key ∈ secretKeys, ∀ value, (readEnvFile old).get key = some value →
    (g.regenerated old).get key = some value
  tokens : ∀ service, (readEnvFile old).Agree service → (g.regenerated old).Agree service
  databaseUrl : ∃ password,
    (g.regenerated old).get "LANGFUSE_DATABASE_URL" = some (langfuseUrl password)
  again : ∀ g' : Generation, ∀ key ∈ secretKeys, ∀ value,
    (g.regenerated old).get key = some value →
      (g'.regenerated (some (g.write old))).get key = some value

end LlmPort.Cli
