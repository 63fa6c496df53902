import LlmPort.Gateway.SessionPii

/-!
# Protection as an order

The order of PII policies by what they protect, and `clamp_and_merge` of
`services/gateway/pii_policy.py` without the privilege to weaken as an operation on it.
-/

namespace LlmPort.Gateway

/-- The policy protects all that the other protects. -/
structure PIIPolicy.AtLeast (policy other : PIIPolicy) : Prop where
  cloud : other.egress.enabledForCloud = true → policy.egress.enabledForCloud = true
  onPremise : other.egress.enabledForLocal = true → policy.egress.enabledForLocal = true
  failAction : other.egress.failAction.rank ≤ policy.egress.failAction.rank
  entities : other.presidio.entities ⊆ policy.presidio.entities
  telemetry : other.telemetry.enabled = true → policy.telemetry.enabled = true
  metricsOnly : other.telemetry.mode = "metrics_only" → policy.telemetry.mode = "metrics_only"
  storeRaw : policy.telemetry.storeRaw = true → other.telemetry.storeRaw = true

/-- Merging goes up from the floor, once and for all, and further up from a stricter floor. -/
structure ClampsUpward (floor : PIIPolicy) (override : SessionPIIOverride)
    (allowModeOverride : Bool) : Prop where
  above : (clampAndMerge floor override allowModeOverride false).AtLeast floor
  idempotent : clampAndMerge (clampAndMerge floor override allowModeOverride false) override
    allowModeOverride false = clampAndMerge floor override allowModeOverride false
  monotone : ∀ stricter : PIIPolicy, stricter.AtLeast floor →
    (clampAndMerge stricter override allowModeOverride false).AtLeast
      (clampAndMerge floor override allowModeOverride false)

/-- The rank that an override asks for. -/
def overrideRank (action : Option String) : Nat :=
  (action.map fun text => ((FailAction.ofText text).getD .block).rank).getD 0

section
variable {floor stricter : PIIPolicy} {override : SessionPIIOverride} {allowModeOverride : Bool}
  {action : FailAction} {text : Option String}

theorem rank_maxProtectiveAction :
    (maxProtectiveAction action text).rank = max action.rank (overrideRank text) := by
  cases text with
  | none => exact (Nat.max_zero _).symm
  | some text =>
    unfold maxProtectiveAction overrideRank
    dsimp only [Option.map_some, Option.getD_some]
    split
    next hle => rw [Nat.max_eq_right hle]
    next hle => rw [Nat.max_eq_left (Nat.le_of_not_le hle)]

theorem maxProtectiveAction_idem :
    maxProtectiveAction (maxProtectiveAction action text) text =
      maxProtectiveAction action text := by
  apply FailAction.rank_injective
  rw [rank_maxProtectiveAction, rank_maxProtectiveAction, Nat.max_assoc, Nat.max_self]

theorem effectiveMode_idem {merged : PIIPolicy}
    (h : merged.egress.mode = effectiveMode floor override allowModeOverride false) :
    effectiveMode merged override allowModeOverride false =
      effectiveMode floor override allowModeOverride false := by
  unfold effectiveMode at h ⊢
  split at h
  next hallowed =>
    rw [if_pos hallowed, if_pos hallowed, h]
    cases override.egressMode.bind EgressMode.ofText with
    | none => rfl
    | some mode => rfl
  next hnot => rw [if_neg hnot, if_neg hnot, h]

/-- A union with the same additions is there already. -/
theorem eraseDups_append_idem (l added : List String) :
    ((l ++ added).eraseDups ++ added).eraseDups = (l ++ added).eraseDups := by
  refine eraseDups_append_eq_left_iff.2 ⟨nodup_eraseDups _, fun name hname => ?_⟩
  rw [List.mem_eraseDups]
  exact List.mem_append_right _ hname

theorem clampAndMerge_idem :
    clampAndMerge (clampAndMerge floor override allowModeOverride false) override
      allowModeOverride false = clampAndMerge floor override allowModeOverride false := by
  have hmode := effectiveMode_idem
    (rfl : (clampAndMerge floor override allowModeOverride false).egress.mode = _)
  have htelemetry : override.telemetryMode.getD (override.telemetryMode.getD floor.telemetry.mode) =
      override.telemetryMode.getD floor.telemetry.mode := by
    cases override.telemetryMode with
    | none => rfl
    | some mode => rfl
  simp only [clampAndMerge, Bool.false_eq_true, if_false] at hmode ⊢
  rw [hmode, htelemetry, maxProtectiveAction_idem, eraseDups_append_idem, max_assoc, max_self]
  simp only [Bool.or_assoc, Bool.or_self]

/-- A stricter floor gives a stricter policy. -/
theorem clampAndMerge_mono (h : stricter.AtLeast floor) :
    (clampAndMerge stricter override allowModeOverride false).AtLeast
      (clampAndMerge floor override allowModeOverride false) where
  cloud := Bool.or_eq_true_iff.2 ∘ Or.imp_left h.cloud ∘ Bool.or_eq_true_iff.1
  onPremise := Bool.or_eq_true_iff.2 ∘ Or.imp_left h.onPremise ∘ Bool.or_eq_true_iff.1
  failAction := by
    change (maxProtectiveAction _ _).rank ≤ (maxProtectiveAction _ _).rank
    rw [rank_maxProtectiveAction, rank_maxProtectiveAction]
    exact max_le_max_right _ h.failAction
  entities name hname := by
    rw [mem_entities_clampAndMerge] at hname ⊢
    exact hname.imp_left fun hfloor => h.entities hfloor
  telemetry := Bool.or_eq_true_iff.2 ∘ Or.imp_left h.telemetry ∘ Bool.or_eq_true_iff.1
  metricsOnly := by
    change override.telemetryMode.getD _ = _ → override.telemetryMode.getD _ = _
    cases override.telemetryMode with
    | none => exact h.metricsOnly
    | some mode => exact id
  storeRaw := h.storeRaw

/-- Merging protects all that the floor protects, but for the mode of the telemetry, which the
override replaces. -/
theorem clampAndMerge_atLeast_iff :
    (clampAndMerge floor override allowModeOverride false).AtLeast floor ↔
      (floor.telemetry.mode = "metrics_only" → ∀ mode, override.telemetryMode = some mode →
        mode = "metrics_only") := by
  constructor
  · intro h hfloor mode hmode
    have hmerged : override.telemetryMode.getD floor.telemetry.mode = "metrics_only" :=
      h.metricsOnly hfloor
    rwa [hmode] at hmerged
  · intro h
    refine ⟨?_, ?_, ?_, ?_, ?_, ?_, id⟩
    · exact fun hfloor => Bool.or_eq_true_iff.2 (.inl hfloor)
    · exact fun hfloor => Bool.or_eq_true_iff.2 (.inl hfloor)
    · change _ ≤ (maxProtectiveAction _ _).rank
      rw [rank_maxProtectiveAction]
      exact Nat.le_max_left _ _
    · exact fun name hname => mem_entities_clampAndMerge.2 (.inl hname)
    · exact fun hfloor => Bool.or_eq_true_iff.2 (.inl hfloor)
    · intro hfloor
      change override.telemetryMode.getD floor.telemetry.mode = _
      cases hmode : override.telemetryMode with
      | none => exact hfloor
      | some mode => exact h hfloor mode hmode

/-- The clamp goes upward exactly if the override leaves a floor of metrics alone at that. -/
theorem clampsUpward_iff (floor : PIIPolicy) (override : SessionPIIOverride)
    (allowModeOverride : Bool) :
    ClampsUpward floor override allowModeOverride ↔
      (floor.telemetry.mode = "metrics_only" → ∀ mode, override.telemetryMode = some mode →
        mode = "metrics_only") := by
  rw [← clampAndMerge_atLeast_iff]
  exact ⟨fun h => h.above, fun h => ⟨h, clampAndMerge_idem, fun _ => clampAndMerge_mono⟩⟩

end

/-- A session switches the traces of a tenant that keeps metrics only back to texts. -/
theorem not_clampsUpward_telemetryMode :
    ¬ ClampsUpward ⟨⟨true, "metrics_only", false⟩, ⟨true, false, .redact, .block⟩, ⟨"en", 0, []⟩⟩
      ⟨none, none, none, none, none, none, some "sanitized", none, none⟩ false := by
  intro h
  have hmode := h.above.metricsOnly rfl
  revert hmode
  decide

end LlmPort.Gateway
