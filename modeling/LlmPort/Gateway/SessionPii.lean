import LlmPort.Gateway.RequestRun
import LlmPort.Gateway.Sessions

/-!
# The PII policy of a session

The `pii-policy` endpoints of `web/api/v1/views.py` store a session's override and report the policy
in effect; `_resolve_pii_policy` of `services/gateway/service.py` resolves the one that a chat
request of the session is held to.
-/

namespace LlmPort.Gateway

/-- The columns of `tenant_llm_policy` that matter here; `pii_config` as it is parsed. -/
structure TenantLLMPolicy where
  tenantId : String
  piiConfig : Option PIIPolicy
  allowModeOverride : Bool

structure PiiStore where
  sessions : List ChatSession
  tenantPolicies : List TenantLLMPolicy
  /-- `session_pii_override` -/
  overrides : List (SessionUuid × SessionPIIOverride)

/-- The settings the two paths read; `pii_default_policy` as it is parsed. -/
structure PiiSettings where
  piiDefaultPolicy : Option PIIPolicy
  sessionsEnabled : Bool

namespace SessionPIIOverride

/-- A row of which no column is set. -/
def empty : SessionPIIOverride := ⟨none, none, none, none, none, none, none, none, none⟩

end SessionPIIOverride

/-- `SessionPIIPolicyPatchDTO`: of each field whether it is set, and to what. -/
structure SessionPIIPatch where
  piiEnabled : Option (Option Bool)
  egressEnabledForCloud : Option (Option Bool)
  egressEnabledForLocal : Option (Option Bool)
  egressMode : Option (Option String)
  egressFailAction : Option (Option String)
  telemetryEnabled : Option (Option Bool)
  telemetryMode : Option (Option String)
  presidioThreshold : Option (Option Pii.Score)
  presidioEntitiesAdd : Option (Option (List String))

namespace SessionPIIPatch

/-- `exclude_unset`: the other columns stay. -/
def apply (patch : SessionPIIPatch) (row : SessionPIIOverride) : SessionPIIOverride where
  piiEnabled := patch.piiEnabled.getD row.piiEnabled
  egressEnabledForCloud := patch.egressEnabledForCloud.getD row.egressEnabledForCloud
  egressEnabledForLocal := patch.egressEnabledForLocal.getD row.egressEnabledForLocal
  egressMode := patch.egressMode.getD row.egressMode
  egressFailAction := patch.egressFailAction.getD row.egressFailAction
  telemetryEnabled := patch.telemetryEnabled.getD row.telemetryEnabled
  telemetryMode := patch.telemetryMode.getD row.telemetryMode
  presidioThreshold := patch.presidioThreshold.getD row.presidioThreshold
  presidioEntitiesAdd := patch.presidioEntitiesAdd.getD row.presidioEntitiesAdd

/-- The three text columns hold 32 characters. -/
def fits (patch : SessionPIIPatch) : Bool :=
  [patch.egressMode, patch.egressFailAction, patch.telemetryMode].all fun field =>
    field.join.all (·.length ≤ 32)

end SessionPIIPatch

/-- The rest of `_resolve_pii_policy`, after the floor. -/
def resolvePiiPolicy (floor : Option PIIPolicy) (allowModeOverride : Bool)
    (sessionOverride : Option SessionPIIOverride) : Option PIIPolicy :=
  floor.map fun floor => match sessionOverride with
    | none => floor
    | some override => clampAndMerge floor override allowModeOverride false

inductive ApiError where
  | gatewayError (statusCode : Nat) (message : String) (code : String)
  /-- The database refuses a value. -/
  | dataError
  deriving DecidableEq

def sessionNotFound : ApiError := .gatewayError 404 "Session not found." "session_not_found"

/-- The answer of the endpoints. -/
structure SessionPIIPolicyReport where
  hasOverride : Bool
  override : Option SessionPIIOverride
  floor : Option PIIPolicy
  effective : Option PIIPolicy

namespace PiiStore

def getTenantPolicy (store : PiiStore) (tenantId : String) : Option TenantLLMPolicy :=
  store.tenantPolicies.find? (·.tenantId = tenantId)

/-- The floor of `_resolve_pii_policy`. -/
def floor (settings : PiiSettings) (store : PiiStore) (auth : AuthContext) : Option PIIPolicy :=
  ((store.getTenantPolicy auth.tenantId).bind (·.piiConfig)).or settings.piiDefaultPolicy

/-- `allow_mode` -/
def allowMode (store : PiiStore) (auth : AuthContext) : Bool :=
  (store.getTenantPolicy auth.tenantId).any (·.allowModeOverride)

/-- The override is joined with the session, which must be the caller's. -/
def getSessionPiiOverride (store : PiiStore) (id : SessionUuid) (auth : AuthContext) :
    Option SessionPIIOverride :=
  if verifySessionOwnership store.sessions id auth then
    (store.overrides.find? (·.1 = id)).map (·.2)
  else none

def upsertSessionPiiOverride (store : PiiStore) (id : SessionUuid) (auth : AuthContext)
    (patch : SessionPIIPatch) : PiiStore :=
  match store.getSessionPiiOverride id auth with
  | some _ =>
    { store with overrides := store.overrides.map fun row =>
        if row.1 = id then (id, patch.apply row.2) else row }
  | none => { store with overrides := store.overrides ++ [(id, patch.apply .empty)] }

/-- The body that the two endpoints share, after the override is stored. -/
def reportPiiPolicy (settings : PiiSettings) (store : PiiStore) (id : SessionUuid)
    (auth : AuthContext) (allowWeaken hasOverride : Bool) : SessionPIIPolicyReport :=
  let floor := store.floor settings auth
  let override := store.getSessionPiiOverride id auth
  { hasOverride, override, floor
    effective := floor.map fun floor => match override with
      | none => floor
      | some override => clampAndMerge floor override (store.allowMode auth) allowWeaken }

def getSessionPiiPolicy (settings : PiiSettings) (store : PiiStore) (id : SessionUuid)
    (auth : AuthContext) : Except ApiError SessionPIIPolicyReport :=
  if verifySessionOwnership store.sessions id auth then
    .ok (store.reportPiiPolicy settings id auth false (store.getSessionPiiOverride id auth).isSome)
  else .error sessionNotFound

/-- `allow_weaken` is what the header `X-PII-Allow-Weaken` says. -/
def patchSessionPiiPolicy (settings : PiiSettings) (store : PiiStore) (id : SessionUuid)
    (auth : AuthContext) (patch : SessionPIIPatch) (allowWeaken : Bool) :
    Except ApiError (PiiStore × SessionPIIPolicyReport) :=
  if verifySessionOwnership store.sessions id auth then
    if patch.fits then
      let store := store.upsertSessionPiiOverride id auth patch
      .ok (store, store.reportPiiPolicy settings id auth allowWeaken true)
    else .error .dataError
  else .error sessionNotFound

/-- `resolved_session_id` of a chat request with the session's id. -/
def resolvedSessionId (settings : PiiSettings) (store : PiiStore) (id : SessionUuid)
    (auth : AuthContext) : Option SessionUuid :=
  if settings.sessionsEnabled then (getSession store.sessions id auth).map (·.id) else none

/-- The policy that a chat request with the session's id is held to. -/
def enforcedPolicy (settings : PiiSettings) (store : PiiStore) (id : SessionUuid)
    (auth : AuthContext) : Option PIIPolicy :=
  resolvePiiPolicy (store.floor settings auth) (store.allowMode auth)
    ((store.resolvedSessionId settings id auth).bind (store.getSessionPiiOverride · auth))

end PiiStore

/-- A call of the endpoints that report. -/
inductive PiiPolicyCall where
  | get
  | patch (fields : SessionPIIPatch) (allowWeaken : Bool)

namespace PiiPolicyCall

def allowWeaken : PiiPolicyCall → Bool
  | get => false
  | patch _ allowWeaken => allowWeaken

def handle (settings : PiiSettings) (store : PiiStore) (id : SessionUuid) (auth : AuthContext) :
    PiiPolicyCall → Except ApiError (PiiStore × SessionPIIPolicyReport)
  | get => (store.getSessionPiiPolicy settings id auth).map fun report => (store, report)
  | patch fields allowWeaken => store.patchSessionPiiPolicy settings id auth fields allowWeaken

/-- The override that the session has when the call is done. -/
def stored (store : PiiStore) (id : SessionUuid) (auth : AuthContext) :
    PiiPolicyCall → Option SessionPIIOverride
  | get => store.getSessionPiiOverride id auth
  | patch fields _ => some (fields.apply ((store.getSessionPiiOverride id auth).getD .empty))

end PiiPolicyCall

/-! ## The request is held to what `_resolve_pii_policy` gives -/

namespace RequestRun

variable {cfg : GatewayConfig} {q : RequestRun}

theorem afterTelemetry_piiPolicy : (q.afterTelemetry cfg).piiPolicy = q.piiPolicy := by
  have hq : q.injectDatetime.piiPolicy = q.piiPolicy := by
    unfold injectDatetime
    split <;> rfl
  unfold afterTelemetry
  dsimp only
  split <;> exact hq

theorem afterEgress_piiPolicy : (q.afterEgress cfg).piiPolicy = q.piiPolicy := by
  unfold afterEgress
  split
  next => exact afterTelemetry_piiPolicy
  next policy _ =>
    have hq : (q.injectPiiPrompt policy).piiPolicy = q.piiPolicy := by
      unfold injectPiiPrompt
      split <;> rfl
    dsimp only
    split
    next => exact hq
    next => exact afterTelemetry_piiPolicy.trans hq

theorem afterOverride_piiPolicy (sessionOverride : Option SessionPIIOverride) :
    (q.afterOverride cfg sessionOverride).piiPolicy =
      resolvePiiPolicy q.floor q.allowModeOverride sessionOverride := by
  cases sessionOverride
  all_goals
    unfold afterOverride
    dsimp only
    split
    next =>
      split
      next => rfl
      next => exact afterEgress_piiPolicy
    next => exact afterEgress_piiPolicy

end RequestRun

/-! ## The two merges -/

variable {floor : PIIPolicy} {override : SessionPIIOverride} {allowModeOverride : Bool}

/-- The override goes nowhere below the floor, and adds to the floor's entities in their order: the
two merges agree on it. -/
structure WeakenAgrees (floor : PIIPolicy) (override : SessionPIIOverride)
    (allowModeOverride : Bool) : Prop where
  cloud : floor.egress.enabledForCloud → override.egressEnabledForCloud ≠ some false
  local_ : floor.egress.enabledForLocal → override.egressEnabledForLocal ≠ some false
  mode : allowModeOverride ∨
    ∀ mode, override.egressMode.bind EgressMode.ofText = some mode → mode = floor.egress.mode
  /-- An unknown action is `block` for the one merge, and ignored by the other. -/
  failAction : ∀ text, override.egressFailAction = some text →
    (FailAction.ofText text).elim (floor.egress.failAction = .block)
      (floor.egress.failAction.rank ≤ ·.rank)
  telemetry : floor.telemetry.enabled → override.telemetryEnabled ≠ some false
  threshold : ∀ threshold, override.presidioThreshold = some threshold →
    floor.presidio.threshold ≤ threshold
  /-- Only one of the merges removes duplicates. -/
  entities : if override.validAdd = [] then floor.presidio.entities.Nodup else
    override.validAdd.Nodup ∧ floor.presidio.entities.eraseDups <+: override.validAdd

/-- The override changes nothing when it is merged without the privilege. -/
structure ClampKeeps (floor : PIIPolicy) (override : SessionPIIOverride)
    (allowModeOverride : Bool) : Prop where
  cloud : override.egressEnabledForCloud = some true → floor.egress.enabledForCloud
  local_ : override.egressEnabledForLocal = some true → floor.egress.enabledForLocal
  mode : allowModeOverride →
    ∀ mode, override.egressMode.bind EgressMode.ofText = some mode → mode = floor.egress.mode
  failAction : ∀ text, override.egressFailAction = some text →
    ((FailAction.ofText text).getD .block).rank ≤ floor.egress.failAction.rank
  telemetry : override.telemetryEnabled = some true → floor.telemetry.enabled
  telemetryMode : ∀ mode, override.telemetryMode = some mode → mode = floor.telemetry.mode
  threshold : override.thresholdOrZero ≤ floor.presidio.threshold
  entities : floor.presidio.entities.Nodup ∧ override.validAdd ⊆ floor.presidio.entities

/-- The override changes nothing when it is merged with the privilege. -/
structure WeakenKeeps (floor : PIIPolicy) (override : SessionPIIOverride) : Prop where
  cloud : ∀ b, override.egressEnabledForCloud = some b → b = floor.egress.enabledForCloud
  local_ : ∀ b, override.egressEnabledForLocal = some b → b = floor.egress.enabledForLocal
  mode : ∀ mode, override.egressMode.bind EgressMode.ofText = some mode → mode = floor.egress.mode
  failAction : ∀ action, override.egressFailAction.bind FailAction.ofText = some action →
    action = floor.egress.failAction
  telemetry : ∀ b, override.telemetryEnabled = some b → b = floor.telemetry.enabled
  telemetryMode : ∀ mode, override.telemetryMode = some mode → mode = floor.telemetry.mode
  threshold : ∀ threshold, override.presidioThreshold = some threshold →
    threshold = floor.presidio.threshold
  entities : override.validAdd = [] ∨ override.validAdd = floor.presidio.entities

section
variable {α : Type} {a : α} {o : Option α} {b : Bool} {ob : Option Bool}

theorem getD_eq_self_iff : o.getD a = a ↔ ∀ x, o = some x → x = a := by
  cases o <;> simp

theorem getD_eq_or_iff : ob.getD b = (b || ob.getD false) ↔ (b → ob ≠ some false) := by
  rcases ob with _ | _ | _ <;> cases b <;> simp

theorem or_getD_eq_iff : (b || ob.getD false) = b ↔ (ob = some true → b) := by
  rcases ob with _ | _ | _ <;> cases b <;> simp

end

theorem effectiveMode_weaken_iff :
    effectiveMode floor override allowModeOverride true =
        effectiveMode floor override allowModeOverride false ↔
      allowModeOverride ∨
        ∀ mode, override.egressMode.bind EgressMode.ofText = some mode →
          mode = floor.egress.mode := by
  cases allowModeOverride
  · simp only [effectiveMode, Bool.false_eq_true, or_true, if_true, or_false, if_false, false_or]
    exact getD_eq_self_iff
  · simp [effectiveMode]

theorem FailAction.rank_injective {a b : FailAction} (h : a.rank = b.rank) : a = b := by
  cases a <;> cases b <;> simp_all [FailAction.rank]

theorem FailAction.rank_le_block (a : FailAction) : a.rank ≤ FailAction.block.rank := by
  cases a <;> decide

theorem maxProtectiveAction_eq_iff {action : FailAction} {o : Option String} :
    maxProtectiveAction action o = action ↔
      ∀ text, o = some text → ((FailAction.ofText text).getD .block).rank ≤ action.rank := by
  cases o with
  | none => simp [maxProtectiveAction]
  | some text =>
    simp only [maxProtectiveAction, Option.some.injEq, forall_eq']
    split
    next hle =>
      constructor
      · intro h
        rw [h]
      · intro h
        exact FailAction.rank_injective (Nat.le_antisymm h hle)
    next hlt => simpa using Nat.le_of_not_le hlt

theorem failAction_weaken_iff {action : FailAction} {o : Option String} :
    (o.bind FailAction.ofText).getD action = maxProtectiveAction action o ↔
      ∀ text, o = some text → (FailAction.ofText text).elim (action = .block)
        (action.rank ≤ ·.rank) := by
  cases o with
  | none => simp [maxProtectiveAction]
  | some text =>
    simp only [maxProtectiveAction, Option.bind_some, Option.some.injEq, forall_eq']
    cases FailAction.ofText text with
    | none => simp [action.rank_le_block]
    | some other =>
      simp only [Option.getD_some, Option.elim_some]
      split
      next hle => simp [hle]
      next hlt =>
        refine ⟨fun h => (hlt ?_).elim, fun h => (hlt h).elim⟩
        rw [h]

theorem threshold_weaken_iff {threshold : Pii.Score} {o : Option Pii.Score} :
    o.getD threshold = max threshold (o.getD 0) ↔ ∀ t, o = some t → threshold ≤ t := by
  cases o with
  | none => simp [max_eq_left threshold.zero_le]
  | some t => simp

section
variable {α : Type} [DecidableEq α] {l l' : List α}

theorem nodup_eraseDups (l : List α) : l.eraseDups.Nodup := by
  induction hn : l.length using Nat.strong_induction_on generalizing l with
  | _ n ih =>
    cases l with
    | nil => simp
    | cons a l =>
      rw [List.eraseDups_cons, List.nodup_cons]
      have hlen : (l.filter fun b => !b == a).length < n := by
        rw [← hn]
        exact Nat.lt_succ_of_le (List.length_filter_le ..)
      exact ⟨by simp, ih _ hlen _ rfl⟩

theorem eraseDups_eq_self_iff : l.eraseDups = l ↔ l.Nodup := by
  constructor
  · intro h
    rw [← h]
    exact nodup_eraseDups l
  · intro h
    induction l with
    | nil => rfl
    | cons a l ih =>
      obtain ⟨ha, hl⟩ := List.nodup_cons.1 h
      have hfilter : (l.filter fun b => !b == a) = l := by
        rw [List.filter_eq_self]
        intro b hb
        simpa using ne_of_mem_of_not_mem hb ha
      rw [List.eraseDups_cons, hfilter, ih hl]

/-- The union keeps the list when it adds nothing. -/
theorem eraseDups_append_eq_left_iff : (l ++ l').eraseDups = l ↔ l.Nodup ∧ l' ⊆ l := by
  constructor
  · intro h
    refine ⟨h ▸ nodup_eraseDups _, fun a ha => ?_⟩
    rw [← h, List.mem_eraseDups]
    exact List.mem_append_right _ ha
  · rintro ⟨hn, hs⟩
    have hnil : l'.removeAll l = [] := by
      rw [List.removeAll, List.filter_eq_nil_iff]
      intro a ha
      simpa using hs ha
    rw [List.eraseDups_append, hnil, List.eraseDups_nil, List.append_nil,
      eraseDups_eq_self_iff.2 hn]

/-- The union is the second list when that begins with the first, and has no duplicates. -/
theorem eq_eraseDups_append_iff : l' = (l ++ l').eraseDups ↔ l'.Nodup ∧ l.eraseDups <+: l' := by
  constructor
  · intro h
    refine ⟨h ▸ nodup_eraseDups _, ?_⟩
    rw [List.eraseDups_append] at h
    exact ⟨_, h.symm⟩
  · rintro ⟨hn, rest, rfl⟩
    have hrest : (l.eraseDups ++ rest).removeAll l = rest := by
      rw [List.removeAll, List.filter_append]
      have hleft : (l.eraseDups.filter fun x => !l.elem x) = [] := by
        rw [List.filter_eq_nil_iff]
        intro a ha
        simpa using List.mem_eraseDups.1 ha
      have hright : (rest.filter fun x => !l.elem x) = rest := by
        rw [List.filter_eq_self]
        intro a ha
        have hno : a ∉ l.eraseDups := fun hm => List.disjoint_of_nodup_append hn hm ha
        simpa using fun hm => hno (List.mem_eraseDups.2 hm)
      rw [hleft, hright, List.nil_append]
    rw [List.eraseDups_append, hrest, eraseDups_eq_self_iff.2 (List.nodup_append.1 hn).2.1]

end

theorem clampAndMerge_weaken_iff :
    clampAndMerge floor override allowModeOverride true =
        clampAndMerge floor override allowModeOverride false ↔
      WeakenAgrees floor override allowModeOverride := by
  have hentities : (if override.validAdd = [] then floor.presidio.entities else override.validAdd) =
      (floor.presidio.entities ++ override.validAdd).eraseDups ↔
        if override.validAdd = [] then floor.presidio.entities.Nodup else
          override.validAdd.Nodup ∧ floor.presidio.entities.eraseDups <+: override.validAdd := by
    split
    next hnil => rw [hnil, List.append_nil, eq_comm, eraseDups_eq_self_iff]
    next => exact eq_eraseDups_append_iff
  simp only [clampAndMerge, if_true, Bool.false_eq_true, if_false, PIIPolicy.mk.injEq,
    PIIEgressPolicy.mk.injEq, PIITelemetryPolicy.mk.injEq, PIIPresidioConfig.mk.injEq,
    getD_eq_or_iff, effectiveMode_weaken_iff, failAction_weaken_iff, threshold_weaken_iff,
    SessionPIIOverride.thresholdOrZero, hentities, true_and, and_true]
  constructor
  · rintro ⟨htelemetry, ⟨hcloud, hlocal, hmode, hfail⟩, hthreshold, hent⟩
    exact ⟨hcloud, hlocal, hmode, hfail, htelemetry, hthreshold, hent⟩
  · intro h
    exact ⟨h.telemetry, ⟨h.cloud, h.local_, h.mode, h.failAction⟩, h.threshold, h.entities⟩

theorem clampAndMerge_eq_floor_iff :
    clampAndMerge floor override allowModeOverride false = floor ↔
      ClampKeeps floor override allowModeOverride := by
  have hmode : effectiveMode floor override allowModeOverride false = floor.egress.mode ↔
      (allowModeOverride → ∀ mode, override.egressMode.bind EgressMode.ofText = some mode →
        mode = floor.egress.mode) := by
    cases allowModeOverride
    · simp [effectiveMode]
    · simp [effectiveMode, getD_eq_self_iff]
  rw [clampAndMerge, if_neg Bool.false_ne_true]
  obtain ⟨telemetry, egress, presidio⟩ := floor
  obtain ⟨enabled, mode, storeRaw⟩ := telemetry
  obtain ⟨enabledForCloud, enabledForLocal, egressMode, failAction⟩ := egress
  obtain ⟨language, threshold, entities⟩ := presidio
  simp only [PIIPolicy.mk.injEq,
    PIIEgressPolicy.mk.injEq, PIITelemetryPolicy.mk.injEq, PIIPresidioConfig.mk.injEq,
    or_getD_eq_iff, hmode, maxProtectiveAction_eq_iff, getD_eq_self_iff, max_eq_left_iff,
    eraseDups_append_eq_left_iff, true_and, and_true]
  constructor
  · rintro ⟨⟨htelemetry, htelemetryMode⟩, ⟨hcloud, hlocal, hmode, hfail⟩, hthreshold, hent⟩
    exact ⟨hcloud, hlocal, hmode, hfail, htelemetry, htelemetryMode, hthreshold, hent⟩
  · intro h
    exact ⟨⟨h.telemetry, h.telemetryMode⟩, ⟨h.cloud, h.local_, h.mode, h.failAction⟩, h.threshold,
      h.entities⟩

theorem clampAndMerge_weaken_eq_floor_iff :
    clampAndMerge floor override allowModeOverride true = floor ↔ WeakenKeeps floor override := by
  have hmode : effectiveMode floor override allowModeOverride true = floor.egress.mode ↔
      ∀ mode, override.egressMode.bind EgressMode.ofText = some mode →
        mode = floor.egress.mode := by
    simp [effectiveMode, getD_eq_self_iff]
  have hentities : (if override.validAdd = [] then floor.presidio.entities else override.validAdd) =
      floor.presidio.entities ↔
        override.validAdd = [] ∨ override.validAdd = floor.presidio.entities := by
    split
    next hnil => simp [hnil]
    next hne => simp [hne]
  rw [clampAndMerge, if_pos rfl]
  obtain ⟨telemetry, egress, presidio⟩ := floor
  obtain ⟨enabled, mode, storeRaw⟩ := telemetry
  obtain ⟨enabledForCloud, enabledForLocal, egressMode, failAction⟩ := egress
  obtain ⟨language, threshold, entities⟩ := presidio
  simp only [PIIPolicy.mk.injEq,
    PIIEgressPolicy.mk.injEq, PIITelemetryPolicy.mk.injEq, PIIPresidioConfig.mk.injEq,
    hmode, getD_eq_self_iff, hentities, true_and, and_true]
  constructor
  · rintro ⟨⟨htelemetry, htelemetryMode⟩, ⟨hcloud, hlocal, hmode, hfail⟩, hthreshold, hent⟩
    exact ⟨hcloud, hlocal, hmode, hfail, htelemetry, htelemetryMode, hthreshold, hent⟩
  · intro h
    exact ⟨⟨h.telemetry, h.telemetryMode⟩, ⟨h.cloud, h.local_, h.mode, h.failAction⟩, h.threshold,
      h.entities⟩

/-! ## The report and the next request -/

namespace PiiStore

variable {store : PiiStore} {settings : PiiSettings} {id : SessionUuid} {auth : AuthContext}

theorem getSessionPiiOverride_upsert (howns : verifySessionOwnership store.sessions id auth)
    (patch : SessionPIIPatch) :
    (store.upsertSessionPiiOverride id auth patch).getSessionPiiOverride id auth =
      some (patch.apply ((store.getSessionPiiOverride id auth).getD .empty)) := by
  cases hrow : store.overrides.find? (·.1 = id) with
  | none =>
    simp [upsertSessionPiiOverride, getSessionPiiOverride, howns, List.find?_append, hrow]
  | some row =>
    have hid : row.1 = id := by simpa using List.find?_some hrow
    have hfind : (store.overrides.map fun row =>
        if row.1 = id then (id, patch.apply row.2) else row).find? (·.1 = id) =
          some (id, patch.apply row.2) := by
      have hp : ((fun row : SessionUuid × SessionPIIOverride => decide (row.1 = id)) ∘ fun row =>
          if row.1 = id then (id, patch.apply row.2) else row) =
          fun row => decide (row.1 = id) := by
        funext row
        by_cases h : row.1 = id <;> simp [h]
      rw [List.find?_map, hp, hrow, Option.map_some, if_pos hid]
    simp [upsertSessionPiiOverride, getSessionPiiOverride, howns, hrow, hfind]

theorem upsertSessionPiiOverride_sessions (patch : SessionPIIPatch) :
    (store.upsertSessionPiiOverride id auth patch).sessions = store.sessions := by
  unfold upsertSessionPiiOverride
  split <;> rfl

theorem upsertSessionPiiOverride_tenantPolicies (patch : SessionPIIPatch) :
    (store.upsertSessionPiiOverride id auth patch).tenantPolicies = store.tenantPolicies := by
  unfold upsertSessionPiiOverride
  split <;> rfl

theorem eq_of_resolvedSessionId {id' : SessionUuid}
    (h : store.resolvedSessionId settings id auth = some id') : id' = id := by
  unfold resolvedSessionId at h
  split at h
  next =>
    obtain ⟨session, hs, rfl⟩ := Option.map_eq_some_iff.1 h
    exact (getSession_eq_some hs).2.1
  next => cases h

end PiiStore

namespace PiiPolicyCall

variable {store store' : PiiStore} {settings : PiiSettings} {id : SessionUuid} {auth : AuthContext}
  {call : PiiPolicyCall} {report : SessionPIIPolicyReport}

/-- A call that succeeds stores the override, and reports from what it stored. -/
structure Reported (settings : PiiSettings) (store store' : PiiStore) (id : SessionUuid)
    (auth : AuthContext) (call : PiiPolicyCall) (report : SessionPIIPolicyReport) : Prop where
  sessions : store'.sessions = store.sessions
  tenantPolicies : store'.tenantPolicies = store.tenantPolicies
  override : store'.getSessionPiiOverride id auth = call.stored store id auth
  report : ∃ hasOverride,
    report = store'.reportPiiPolicy settings id auth call.allowWeaken hasOverride

theorem reported (h : call.handle settings store id auth = .ok (store', report)) :
    Reported settings store store' id auth call report := by
  cases call with
  | get =>
    simp only [handle, PiiStore.getSessionPiiPolicy] at h
    split at h
    next =>
      simp only [Except.map, Except.ok.injEq, Prod.mk.injEq] at h
      obtain ⟨rfl, rfl⟩ := h
      exact ⟨rfl, rfl, rfl, _, rfl⟩
    next => cases h
  | patch fields allowWeaken =>
    simp only [handle, PiiStore.patchSessionPiiPolicy] at h
    split at h
    next howns =>
      split at h
      next =>
        simp only [Except.ok.injEq, Prod.mk.injEq] at h
        obtain ⟨rfl, rfl⟩ := h
        exact ⟨PiiStore.upsertSessionPiiOverride_sessions fields,
          PiiStore.upsertSessionPiiOverride_tenantPolicies fields,
          PiiStore.getSessionPiiOverride_upsert howns fields, _, rfl⟩
      next => cases h
    next => cases h

/-- The merge that is reported does not differ from the one that is enforced: where the session is
found, from the merge without the privilege; where it is deleted, or sessions are disabled, from the
floor. -/
def agrees (settings : PiiSettings) (store : PiiStore) (id : SessionUuid) (auth : AuthContext)
    (call : PiiPolicyCall) : Prop :=
  ∀ floor override, store.floor settings auth = some floor →
    call.stored store id auth = some override →
      if (store.resolvedSessionId settings id auth).isSome then
        call.allowWeaken → WeakenAgrees floor override (store.allowMode auth)
      else if call.allowWeaken then WeakenKeeps floor override
      else ClampKeeps floor override (store.allowMode auth)

/-- The policy that an endpoint reports is the one that the session's next request is held to
exactly if the two merges agree. -/
theorem effective_eq_enforced_iff (settings : PiiSettings) (store : PiiStore) (id : SessionUuid)
    (auth : AuthContext) (call : PiiPolicyCall) (store' : PiiStore)
    (report : SessionPIIPolicyReport)
    (h : call.handle settings store id auth = .ok (store', report)) :
    report.effective = store'.enforcedPolicy settings id auth ↔
      call.agrees settings store id auth := by
  obtain ⟨hsessions, htenants, hoverride, hasOverride, rfl⟩ := reported h
  have hfloor : store'.floor settings auth = store.floor settings auth := by
    simp only [PiiStore.floor, PiiStore.getTenantPolicy, htenants]
  have hmode : store'.allowMode auth = store.allowMode auth := by
    simp only [PiiStore.allowMode, PiiStore.getTenantPolicy, htenants]
  have hresolved : store'.resolvedSessionId settings id auth =
      store.resolvedSessionId settings id auth := by
    simp only [PiiStore.resolvedSessionId, hsessions]
  simp only [PiiStore.reportPiiPolicy, PiiStore.enforcedPolicy, resolvePiiPolicy, hfloor, hmode,
    hresolved, hoverride, agrees]
  cases hf : store.floor settings auth with
  | none => simp
  | some floor =>
    cases hr : store.resolvedSessionId settings id auth with
    | none =>
      cases ho : call.stored store id auth with
      | none => simp
      | some override =>
        cases hw : call.allowWeaken with
        | false => simpa using clampAndMerge_eq_floor_iff
        | true => simpa using clampAndMerge_weaken_eq_floor_iff
    | some id' =>
      rw [PiiStore.eq_of_resolvedSessionId hr, Option.bind_some, hoverride]
      cases ho : call.stored store id auth with
      | none => simp
      | some override =>
        cases hw : call.allowWeaken with
        | false => simp
        | true => simpa using clampAndMerge_weaken_iff

/-- One session, whose tenant has the egress to the cloud redacted. -/
def redactingStore : PiiStore where
  sessions := [⟨1, "t", "u", .active, .serverOnly⟩]
  tenantPolicies := [⟨"t", some
    ⟨⟨false, "sanitized", false⟩, ⟨true, false, .redact, .block⟩, ⟨"en", 0, ["PERSON"]⟩⟩, false⟩]
  overrides := []

def cloudOff : SessionPIIPatch :=
  ⟨none, some (some false), none, none, none, none, none, none, none⟩

/-- Without the privilege the egress stays redacted, in the report and for the next request. -/
theorem effective_eq_enforced_clamped :
    ((redactingStore.upsertSessionPiiOverride 1 ⟨"t", "u"⟩ cloudOff).reportPiiPolicy ⟨none, true⟩ 1
        ⟨"t", "u"⟩ false true).effective =
      (redactingStore.upsertSessionPiiOverride 1 ⟨"t", "u"⟩ cloudOff).enforcedPolicy ⟨none, true⟩ 1
        ⟨"t", "u"⟩ := by
  refine (effective_eq_enforced_iff ⟨none, true⟩ redactingStore 1 ⟨"t", "u"⟩
    (.patch cloudOff false) _ _ rfl).2 fun _ _ _ _ => ?_
  rw [if_pos (by decide)]
  nofun

/-- With the privilege the report says that the egress is not redacted, and the next request's
is. -/
theorem not_effective_eq_enforced_weakened :
    ¬ ∀ settings store id auth call store' report,
      handle settings store id auth call = .ok (store', report) →
        report.effective = store'.enforcedPolicy settings id auth := by
  intro H
  have h := H ⟨none, true⟩ redactingStore 1 ⟨"t", "u"⟩ (.patch cloudOff true) _ _ rfl
  revert h
  decide

end PiiPolicyCall

end LlmPort.Gateway
