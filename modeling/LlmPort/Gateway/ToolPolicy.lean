import LlmPort.Gateway.Sessions

/-!
# The policy of tool calls

The realms a tool runs in, and the rule engine of `services/gateway/policy_engine.py`.
-/

namespace LlmPort.Gateway

inductive ToolRealm where
  | serverManaged | mcpRemote | clientLocal | clientProxied
  deriving DecidableEq

def ToolRealm.value : ToolRealm → String
  | serverManaged => "server_managed"
  | mcpRemote => "mcp_remote"
  | clientLocal => "client_local"
  | clientProxied => "client_proxied"

def ExecutionMode.value : ExecutionMode → String
  | localOnly => "local_only"
  | serverOnly => "server_only"
  | hybrid => "hybrid"

/-- `_MODE_REALMS`, and `_MODE_ALLOWED_REALMS` of `tool_availability.py`. -/
def modeRealms : ExecutionMode → List ToolRealm
  | .serverOnly => [.serverManaged, .mcpRemote]
  | .localOnly => [.clientLocal, .clientProxied]
  | .hybrid => [.serverManaged, .mcpRemote, .clientLocal, .clientProxied]

theorem mem_modeRealms_hybrid (realm : ToolRealm) : realm ∈ modeRealms .hybrid := by
  cases realm <;> decide

/-- `str.startswith` -/
def startsWith (text start : String) : Bool := start.toList.isPrefixOf text.toList

/-- `_matches_pattern` -/
def matchesPattern (toolId pattern : String) : Bool :=
  if pattern = "*" then true
  else if ".*".toList.isSuffixOf pattern.toList then
    let start := String.ofList (pattern.toList.take (pattern.length - 2))
    toolId = start || startsWith toolId (start ++ ".")
  else toolId = pattern

inductive PolicyAction where
  | allow | deny | approvalRequired
  deriving DecidableEq

inductive SensitivityTier where
  | low | medium | high | critical
  deriving DecidableEq

def SensitivityTier.value : SensitivityTier → String
  | low => "low"
  | medium => "medium"
  | high => "high"
  | critical => "critical"

structure PolicyDecision where
  action : PolicyAction
  reason : Option String
  requiredApprovalType : Option String
  deriving DecidableEq

/-- Arguments of a call, with values of JSON; `None` is a value. -/
abbrev ToolArguments (V : Type) := List (String × Option V)

/-- `arguments.get(key)` -/
def ToolArguments.get {V : Type} (arguments : ToolArguments V) (key : String) : Option V :=
  ((arguments.find? (·.1 = key)).map (·.2)).join

structure ToolPolicyRule (V : Type) where
  toolPattern : String
  action : PolicyAction
  sensitivity : SensitivityTier
  requiresApproval : Bool
  allowedRealms : List String
  /-- Of each key the values it may have, `none` where the constraint is no list. -/
  argumentConstraints : List (String × Option (List (Option V)))
  reason : Option String

structure PolicyEngine (V : Type) where
  rules : List (ToolPolicyRule V)
  /-- A set, in the order in which it is iterated over. -/
  tenantDenyList : List String

namespace PolicyEngine

/-- `reason or text`, in which an empty reason counts as none. -/
def reasonOr (reason : Option String) (text : String) : Option String :=
  (reason.filter (· ≠ "")).or (some text)

variable {V : Type}

/-- `_DEFAULT_RULES` -/
def defaultRules : List (ToolPolicyRule V) :=
  [⟨"server.*", .allow, .low, false, [], [], none⟩,
    ⟨"mcp.*", .allow, .low, false, [], [], none⟩,
    ⟨"client.fs.*", .allow, .medium, true, [], [],
      some "Filesystem access requires user approval."⟩,
    ⟨"client.desktop.run_command", .allow, .critical, true, [], [],
      some "Command execution requires explicit approval."⟩,
    ⟨"client.browser.submit_form", .allow, .high, true, [], [],
      some "Form submission requires user approval."⟩,
    ⟨"*", .allow, .low, false, [], [], none⟩]

/-- `PolicyEngine()` -/
def default : PolicyEngine V := ⟨defaultRules, []⟩

/-- `PolicyEngine(rules=rules, tenant_deny_list=tenant_deny_list)` -/
def init (rules : List (ToolPolicyRule V)) (tenantDenyList : List String) : PolicyEngine V :=
  -- `rules or list(_DEFAULT_RULES)`
  ⟨if rules.isEmpty then defaultRules else rules, tenantDenyList⟩

/-- `add_rule` -/
def addRule (engine : PolicyEngine V) (rule : ToolPolicyRule V) (prepend : Bool) :
    PolicyEngine V :=
  if prepend then { engine with rules := rule :: engine.rules }
  else { engine with rules := engine.rules ++ [rule] }

/-- The rule of `add_deny`. -/
def denyRule (toolPattern : String) (reason : Option String) : ToolPolicyRule V :=
  ⟨toolPattern, .deny, .low, false, [], [], reasonOr reason s!"Denied: {toolPattern}"⟩

/-- `add_deny` -/
def addDeny (engine : PolicyEngine V) (toolPattern : String) (reason : Option String) :
    PolicyEngine V :=
  { engine with rules := denyRule toolPattern reason :: engine.rules }

variable [BEq V]

/-- What a rule that matches decides. -/
def decideRule (rule : ToolPolicyRule V) (arguments : ToolArguments V) : PolicyDecision :=
  if rule.action = .deny then
    ⟨.deny, reasonOr rule.reason s!"Denied by rule: {rule.toolPattern}", none⟩
  else if rule.requiresApproval then
    ⟨.approvalRequired, reasonOr rule.reason s!"Requires approval: {rule.toolPattern}",
      some rule.sensitivity.value⟩
  else
    match rule.argumentConstraints.find? fun constraint =>
        constraint.2.any fun allowed => !allowed.contains (arguments.get constraint.1) with
    | some (key, _) => ⟨.deny, some s!"Argument '{key}' value not allowed.", none⟩
    | none => ⟨.allow, none, none⟩

/-- The realm plays no part. -/
def evaluate (engine : PolicyEngine V) (toolId : String) (arguments : ToolArguments V)
    (_realm : String) : PolicyDecision :=
  if toolId ∈ engine.tenantDenyList then
    ⟨.deny, some s!"Tool '{toolId}' is on the tenant deny list.", none⟩
  else match engine.tenantDenyList.find? (matchesPattern toolId) with
    | some pattern => ⟨.deny, some s!"Tool '{toolId}' matches deny pattern '{pattern}'.", none⟩
    | none => match engine.rules.find? fun rule => matchesPattern toolId rule.toolPattern with
      | some rule => decideRule rule arguments
      | none => ⟨.allow, none, none⟩

variable {engine : PolicyEngine V} {toolId : String} {arguments : ToolArguments V}

theorem evaluate_realm (realm realm' : String) :
    engine.evaluate toolId arguments realm = engine.evaluate toolId arguments realm' := rfl

end PolicyEngine

end LlmPort.Gateway
