import LlmPort.Pii.Service

/-!
# PII policies

`services/gateway/pii_policy.py` and the request that `pii_client.py` makes of a policy.
-/

namespace LlmPort.Gateway

open Pii

inductive EgressMode where
  | redact | tokenizeReversible
  deriving DecidableEq

/-- `VALID_EGRESS_MODES` -/
def EgressMode.ofText : String → Option EgressMode
  | "redact" => some .redact
  | "tokenize_reversible" => some .tokenizeReversible
  | _ => none

inductive FailAction where
  | allow | fallbackToLocal | block
  deriving DecidableEq

namespace FailAction

/-- `VALID_FAIL_ACTIONS` -/
def ofText : String → Option FailAction
  | "allow" => some allow
  | "fallback_to_local" => some fallbackToLocal
  | "block" => some block
  | _ => none

/-- `FAIL_ACTION_ORDER` -/
def rank : FailAction → Nat
  | allow => 1
  | fallbackToLocal => 2
  | block => 3

end FailAction

def validEntities : List String :=
  ["EMAIL_ADDRESS", "PHONE_NUMBER", "CREDIT_CARD", "IBAN_CODE", "PERSON", "LOCATION", "IP_ADDRESS",
    "DATE_TIME", "NRP", "MEDICAL_LICENSE", "URL", "US_SSN", "US_BANK_NUMBER", "US_DRIVER_LICENSE",
    "US_ITIN", "US_PASSPORT", "UK_NHS", "SG_NRIC_FIN", "AU_ABN", "AU_ACN", "AU_TFN", "AU_MEDICARE",
    "IN_PAN", "IN_AADHAAR", "IN_VEHICLE_REGISTRATION"]

structure PIITelemetryPolicy where
  enabled : Bool
  mode : String
  storeRaw : Bool
  deriving DecidableEq

structure PIIEgressPolicy where
  enabledForCloud : Bool
  enabledForLocal : Bool
  mode : EgressMode
  failAction : FailAction
  deriving DecidableEq

structure PIIPresidioConfig where
  language : String
  threshold : Score
  entities : List String
  deriving DecidableEq

structure PIIPolicy where
  telemetry : PIITelemetryPolicy
  egress : PIIEgressPolicy
  presidio : PIIPresidioConfig
  deriving DecidableEq

/-- What a session overrides; `none` inherits. -/
structure SessionPIIOverride where
  piiEnabled : Option Bool
  egressEnabledForCloud : Option Bool
  egressEnabledForLocal : Option Bool
  egressMode : Option String
  egressFailAction : Option String
  telemetryEnabled : Option Bool
  telemetryMode : Option String
  presidioThreshold : Option Score
  presidioEntitiesAdd : Option (List String)
  deriving DecidableEq

namespace SessionPIIOverride

variable (override : SessionPIIOverride)

/-- `valid_add` -/
def validAdd : List String := (override.presidioEntitiesAdd.getD []).filter (· ∈ validEntities)

/-- `override.presidio_threshold or 0.0` -/
def thresholdOrZero : Score := override.presidioThreshold.getD 0

end SessionPIIOverride

/-- `max_protective_action`; an unknown override counts as `block`. -/
def maxProtectiveAction (floorAction : FailAction) (overrideAction : Option String) : FailAction :=
  match overrideAction with
  | none => floorAction
  | some text =>
    let action := (FailAction.ofText text).getD .block
    if floorAction.rank ≤ action.rank then action else floorAction

/-- `effective_mode` -/
def effectiveMode (floor : PIIPolicy) (override : SessionPIIOverride)
    (allowModeOverride allowWeaken : Bool) : EgressMode :=
  if allowModeOverride ∨ allowWeaken then
    (override.egressMode.bind EgressMode.ofText).getD floor.egress.mode
  else floor.egress.mode

def clampAndMerge (floor : PIIPolicy) (override : SessionPIIOverride)
    (allowModeOverride allowWeaken : Bool) : PIIPolicy :=
  if allowWeaken then {
    egress := {
      enabledForCloud := override.egressEnabledForCloud.getD floor.egress.enabledForCloud
      enabledForLocal := override.egressEnabledForLocal.getD floor.egress.enabledForLocal
      mode := effectiveMode floor override allowModeOverride allowWeaken
      failAction := (override.egressFailAction.bind FailAction.ofText).getD floor.egress.failAction }
    telemetry := {
      enabled := override.telemetryEnabled.getD floor.telemetry.enabled
      mode := override.telemetryMode.getD floor.telemetry.mode
      storeRaw := floor.telemetry.storeRaw }
    presidio := {
      language := floor.presidio.language
      threshold := override.presidioThreshold.getD floor.presidio.threshold
      entities :=
        if override.validAdd = [] then floor.presidio.entities else override.validAdd } }
  else {
    egress := {
      enabledForCloud := floor.egress.enabledForCloud || override.egressEnabledForCloud.getD false
      enabledForLocal := floor.egress.enabledForLocal || override.egressEnabledForLocal.getD false
      mode := effectiveMode floor override allowModeOverride allowWeaken
      failAction := maxProtectiveAction floor.egress.failAction override.egressFailAction }
    telemetry := {
      enabled := floor.telemetry.enabled || override.telemetryEnabled.getD false
      mode := override.telemetryMode.getD floor.telemetry.mode
      storeRaw := floor.telemetry.storeRaw }
    presidio := {
      language := floor.presidio.language
      threshold := max floor.presidio.threshold override.thresholdOrZero
      entities := (floor.presidio.entities ++ override.validAdd).eraseDups } }

/-- The request `PIIClient.sanitize` makes of a policy: an empty entity list is left out. -/
def sanitizeRequest (policy : PIIPolicy) (mode : Option SanitizeMode) : SanitizeRequest where
  mode := mode.getD (match policy.egress.mode with
    | .redact => .redact
    | .tokenizeReversible => .tokenize)
  language := some policy.presidio.language
  entities := if policy.presidio.entities = [] then none else some policy.presidio.entities
  scoreThreshold := some policy.presidio.threshold

variable {floor policy : PIIPolicy} {override : SessionPIIOverride} {allowModeOverride : Bool}

/-- An empty list in the policy means the service's own. -/
theorem entitiesOrDefault_sanitizeRequest {mode : Option SanitizeMode} :
    entitiesOrDefault (sanitizeRequest policy mode).entities =
      if policy.presidio.entities = [] then defaultEntities else policy.presidio.entities := by
  simp only [sanitizeRequest, entitiesOrDefault]
  split <;> simp [*]

theorem entities_clampAndMerge_eq_nil :
    (clampAndMerge floor override allowModeOverride false).presidio.entities = [] ↔
      floor.presidio.entities = [] ∧ override.validAdd = [] := by
  rw [← List.append_eq_nil_iff]
  simp only [clampAndMerge, Bool.false_eq_true, if_false]
  cases floor.presidio.entities ++ override.validAdd <;> simp [List.eraseDups_cons]

theorem mem_entities_clampAndMerge {name : String} :
    name ∈ (clampAndMerge floor override allowModeOverride false).presidio.entities ↔
      name ∈ floor.presidio.entities ∨ name ∈ override.validAdd := by
  simp [clampAndMerge]

end LlmPort.Gateway
