import LlmPort.NodeAgent.Dispatcher

/-!
# Node profiles on their way to the agent

The serialization of a profile, the command `assign_profile_to_node` issues for it, and the
dispatcher's handler of that command.
-/

namespace LlmPort.NodeStream

open Backend.NodeControl NodeAgent

inductive Json where
  | null
  | bool (b : Bool)
  | number (text : String)
  | text (s : String)
  | array (items : List Json)
  | object (fields : List (String × Json))

abbrev JsonObject := List (String × Json)

/-- The columns of a profile; the two instants as `isoformat` shows them. -/
structure InfraNodeProfile where
  id : Uuid
  name : String
  description : Option String
  isDefault : Bool
  runtimeConfig : JsonObject
  gpuConfig : JsonObject
  storageConfig : JsonObject
  networkConfig : JsonObject
  loggingConfig : JsonObject
  securityConfig : JsonObject
  updateConfig : JsonObject
  createdAt : String
  updatedAt : String

def serializeProfile (profile : InfraNodeProfile) : JsonObject :=
  [("id", .text (uuidStr profile.id)),
    ("name", .text profile.name),
    ("description", profile.description.elim .null .text),
    ("is_default", .bool profile.isDefault),
    ("runtime_config", .object profile.runtimeConfig),
    ("gpu_config", .object profile.gpuConfig),
    ("storage_config", .object profile.storageConfig),
    ("network_config", .object profile.networkConfig),
    ("logging_config", .object profile.loggingConfig),
    ("security_config", .object profile.securityConfig),
    ("update_config", .object profile.updateConfig),
    ("created_at", .text profile.createdAt),
    ("updated_at", .text profile.updatedAt)]

/-- The arguments `assign_profile_to_node` passes to `issue_command`. -/
structure ProfileCommand where
  nodeId : Uuid
  commandType : NodeCommandType
  payload : JsonObject
  timeoutSec : Int
  idempotencyKey : String

def assignProfileToNode (nodeId : Uuid) (profile : InfraNodeProfile) : ProfileCommand where
  nodeId
  commandType := .syncNodeProfile
  payload := serializeProfile profile
  timeoutSec := 30
  idempotencyKey := s!"sync-profile-{uuidStr nodeId}-{uuidStr profile.id}"

/-- The agent's state with its profile. -/
structure ProfiledAgent where
  state : AgentState
  profile : Option JsonObject

/-- The `sync_node_profile` branch of `_execute`. -/
def syncNodeProfile (payload : JsonObject) (agent : ProfiledAgent) : ProfiledAgent :=
  { agent with
    profile := match payload.lookup "profile" with
      | some (.object profile) => some profile
      | _ => none }

/-- `_execute` for a profile command: the branch its type selects. -/
def executeProfileCommand (cfg : AgentConfig) (command : ProfileCommand) (agent : ProfiledAgent) :
    ProfiledAgent :=
  if cfg.wireType command.commandType = "sync_node_profile" then
    syncNodeProfile command.payload agent
  else agent

/-- A serialization has no entry `profile`. -/
theorem lookup_serializeProfile (profile : InfraNodeProfile) :
    (serializeProfile profile).lookup "profile" = none := by
  rw [List.lookup_eq_none_iff]
  simp [serializeProfile]

/-- The handler stores no profile, whatever the agent had. -/
theorem executeProfileCommand_profile (cfg : AgentConfig) (nodeId : Uuid)
    (profile : InfraNodeProfile) (agent : ProfiledAgent) :
    (executeProfileCommand cfg (assignProfileToNode nodeId profile) agent).profile = none := by
  have htype : cfg.wireType (assignProfileToNode nodeId profile).commandType = "sync_node_profile" :=
    rfl
  have hpayload : (assignProfileToNode nodeId profile).payload = serializeProfile profile := rfl
  simp only [executeProfileCommand, htype, if_true, syncNodeProfile, hpayload,
    lookup_serializeProfile]

/-- The agent's profile is not the serialization it was sent, for any profile. -/
theorem syncedProfile_ne (cfg : AgentConfig) (nodeId : Uuid) (profile : InfraNodeProfile)
    (agent : ProfiledAgent) :
    (executeProfileCommand cfg (assignProfileToNode nodeId profile) agent).profile ≠
      some (serializeProfile profile) := by
  rw [executeProfileCommand_profile]
  exact nofun

/-- A profile with no configuration. -/
def edgeProfile : InfraNodeProfile :=
  ⟨5, "edge", none, false, [], [], [], [], [], [], [], "2026-04-05", "2026-04-05"⟩

theorem syncedProfile_ne_edge :
    (executeProfileCommand ⟨id⟩ (assignProfileToNode 7 edgeProfile) ⟨.fresh, none⟩).profile ≠
      some (serializeProfile edgeProfile) := by
  rw [executeProfileCommand_profile]
  exact nofun

end LlmPort.NodeStream
