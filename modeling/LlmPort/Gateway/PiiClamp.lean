import Mathlib.Tactic.NormNum.Ineq
import Mathlib.Algebra.Order.Field.Rat
import LlmPort.Gateway.PiiPolicy

/-!
# Session overrides and detection

A session override is merged onto the tenant's floor. A merged policy weakens the floor when some
position of a text that is replaced under the floor is left alone under it.
-/

namespace LlmPort.Gateway

open Pii PIIService

/-- In every text and for all findings of the analyzer, what is replaced under the floor is replaced
under the merged policy, by a service with the given default threshold. -/
def KeepsCover (defaultScoreThreshold : Score) (floor merged : PIIPolicy) : Prop :=
  ∀ (svc : PIIService) (text : List Char) (position : Nat),
    svc.defaultScoreThreshold = defaultScoreThreshold →
    (∃ x ∈ svc.sanitizedSpans (sanitizeRequest floor none) text, x.Has position) →
      ∃ x ∈ svc.sanitizedSpans (sanitizeRequest merged none) text, x.Has position

/-- The types the service looks for under a policy. -/
def askedEntities (policy : PIIPolicy) : List String :=
  entitiesOrDefault (sanitizeRequest policy none).entities

/-- The threshold the service applies under a policy. -/
def appliedThreshold (defaultScoreThreshold : Score) (policy : PIIPolicy) : Score :=
  thresholdOrDefault defaultScoreThreshold (sanitizeRequest policy none).scoreThreshold

/-- The override leaves the threshold and the types alone where they matter. -/
structure KeepsDetection (defaultScoreThreshold : Score) (floor : PIIPolicy)
    (override : SessionPIIOverride) : Prop where
  threshold : override.thresholdOrZero ≤ floor.presidio.threshold ∨
    floor.presidio.threshold = 0 ∧ override.thresholdOrZero ≤ defaultScoreThreshold
  /-- Types are not added to an empty list, which stands for the service's own, without these. -/
  defaults : floor.presidio.entities = [] → override.validAdd = [] ∨
    defaultEntities ⊆ override.validAdd
  /-- Where overlapping results displace each other, no new type is added. -/
  displaced : floor.egress.mode = .tokenizeReversible → override.validAdd ⊆ askedEntities floor

variable {floor merged : PIIPolicy} {override : SessionPIIOverride} {allowModeOverride : Bool}
  {default : Score} {svc : PIIService} {text : List Char}

theorem askedEntities_eq : askedEntities floor =
    if floor.presidio.entities = [] then defaultEntities else floor.presidio.entities :=
  entitiesOrDefault_sanitizeRequest

theorem exists_asked (floor : PIIPolicy) : ∃ name, name ∈ askedEntities floor := by
  apply List.exists_mem_of_ne_nil _
  rw [askedEntities_eq]
  split
  next => simp [defaultEntities]
  next h => exact h

/-! ## The threshold and the types that are applied -/

theorem thresholdOrDefault_max_le {t o : Score} :
    thresholdOrDefault default (some (max t o)) ≤ thresholdOrDefault default (some t) ↔
      o ≤ t ∨ t = 0 ∧ o ≤ default := by
  simp only [thresholdOrDefault, Option.getD_some]
  rcases le_or_gt o t with hot | hto
  · simp [hot]
  · have ho : o ≠ 0 := (lt_of_le_of_lt t.zero_le hto).ne'
    rw [max_eq_right hto.le, if_neg ho]
    by_cases ht : t = 0
    · simp [ht, (ht ▸ hto).not_ge]
    · simp [ht, hto.not_ge]

/-- The merged threshold is not above the floor's exactly if the override's is not, or the floor has
none and the override's is not above the default. -/
theorem appliedThreshold_clampAndMerge_le (allowModeOverride : Bool) :
    appliedThreshold default (clampAndMerge floor override allowModeOverride false) ≤
        appliedThreshold default floor ↔
      override.thresholdOrZero ≤ floor.presidio.threshold ∨
        floor.presidio.threshold = 0 ∧ override.thresholdOrZero ≤ default :=
  thresholdOrDefault_max_le

theorem mem_askedEntities_clampAndMerge (allowModeOverride : Bool) (name : String) :
    name ∈ askedEntities (clampAndMerge floor override allowModeOverride false) ↔
      if floor.presidio.entities = [] ∧ override.validAdd = [] then name ∈ defaultEntities
      else name ∈ floor.presidio.entities ∨ name ∈ override.validAdd := by
  rw [askedEntities_eq]
  by_cases h : floor.presidio.entities = [] ∧ override.validAdd = []
  · rw [if_pos (entities_clampAndMerge_eq_nil.2 h), if_pos h]
  · rw [if_neg (mt entities_clampAndMerge_eq_nil.1 h), if_neg h, mem_entities_clampAndMerge]

/-- No type is lost exactly if none is added to an empty list without the service's own. -/
theorem askedEntities_subset_clampAndMerge (allowModeOverride : Bool) :
    askedEntities floor ⊆ askedEntities (clampAndMerge floor override allowModeOverride false) ↔
      (floor.presidio.entities = [] → override.validAdd = [] ∨
        defaultEntities ⊆ override.validAdd) := by
  simp only [List.subset_def, mem_askedEntities_clampAndMerge]
  rw [askedEntities_eq]
  by_cases hf : floor.presidio.entities = []
  · by_cases ha : override.validAdd = [] <;> simp [hf, ha]
  · simp only [hf, false_and, if_false, false_implies, iff_true]
    exact fun h => .inl h

/-! ## Overrides that keep the cover -/

section
variable {request : SanitizeRequest} {r : RecognizerResult}

theorem mem_analyzeText {policy : PIIPolicy} :
    r ∈ svc.analyzeText (sanitizeRequest policy none) text ↔
      r ∈ svc.analyzer.findings text
          (languageOrDefault svc.defaultLanguage (some policy.presidio.language)) ∧
        r.entityType ∈ askedEntities policy ∧
          appliedThreshold svc.defaultScoreThreshold policy ≤ r.score := by
  rw [analyzeText_eq, List.mem_filter, decide_eq_true_iff]
  rfl

/-- With the same types, what is kept of the results above the floor's threshold is kept of those
above a lower one. -/
theorem nonOverlapping_analyzeText_mono
    (hl : merged.presidio.language = floor.presidio.language)
    (he : ∀ name, name ∈ askedEntities merged ↔ name ∈ askedEntities floor)
    (ht : appliedThreshold svc.defaultScoreThreshold merged ≤
      appliedThreshold svc.defaultScoreThreshold floor) :
    nonOverlapping (svc.analyzeText (sanitizeRequest floor none) text) <+:
      nonOverlapping (svc.analyzeText (sanitizeRequest merged none) text) := by
  have hsplit (policy : PIIPolicy) : svc.analyzeText (sanitizeRequest policy none) text =
      ((svc.analyzer.findings text
          (languageOrDefault svc.defaultLanguage (some policy.presidio.language))).filter
        (·.entityType ∈ askedEntities policy)).filter
        (appliedThreshold svc.defaultScoreThreshold policy ≤ ·.score) := by
    rw [analyzeText_eq, List.filter_filter]
    refine List.filter_congr fun r _ => ?_
    rw [Bool.and_comm]
    exact Bool.decide_and ..
  rw [hsplit, hsplit, hl]
  simp only [he]
  exact nonOverlapping_of_threshold ht

end

theorem KeepsDetection.keepsCover (h : KeepsDetection default floor override)
    (hm : (clampAndMerge floor override allowModeOverride false).egress.mode = floor.egress.mode) :
    KeepsCover default floor (clampAndMerge floor override allowModeOverride false) := by
  rintro svc text position rfl hcover
  have ht := (appliedThreshold_clampAndMerge_le allowModeOverride).2 h.threshold
  have hs := (askedEntities_subset_clampAndMerge allowModeOverride).2 h.defaults
  generalize hmerged : clampAndMerge floor override allowModeOverride false = merged at *
  have hlang : merged.presidio.language = floor.presidio.language := by rw [← hmerged]; rfl
  cases hmode : floor.egress.mode with
  | redact =>
    have hf : (sanitizeRequest floor none).mode = .redact := by simp [sanitizeRequest, hmode]
    have hg : (sanitizeRequest merged none).mode = .redact := by simp [sanitizeRequest, hm, hmode]
    obtain ⟨r, hr, hp⟩ := (covered_redact hf).1 hcover
    obtain ⟨hr, he, hscore⟩ := mem_analyzeText.1 hr
    refine (covered_redact hg).2 ⟨r, mem_analyzeText.2 ⟨?_, hs he, ht.trans hscore⟩, hp⟩
    rw [hlang]
    exact hr
  | tokenizeReversible =>
    have hf : (sanitizeRequest floor none).mode = .tokenize := by simp [sanitizeRequest, hmode]
    have hg : (sanitizeRequest merged none).mode = .tokenize := by simp [sanitizeRequest, hm, hmode]
    have he (name : String) : name ∈ askedEntities merged ↔ name ∈ askedEntities floor := by
      refine ⟨fun hn => ?_, fun hn => hs hn⟩
      rw [← hmerged, mem_askedEntities_clampAndMerge] at hn
      split at hn
      next hnil => rwa [askedEntities_eq, if_pos hnil.1]
      next =>
        rcases hn with hn | hn
        · rwa [askedEntities_eq, if_neg (List.ne_nil_of_mem hn)]
        · exact h.displaced hmode hn
    obtain ⟨r, hr, hp⟩ := (covered_tokenize hf).1 hcover
    exact (covered_tokenize hg).2 ⟨r, (nonOverlapping_analyzeText_mono hlang he ht).subset hr, hp⟩

/-! ## Overrides that do not -/

/-- A service whose analyzer has the given findings in every text long enough for them. -/
def serviceFinding (defaultScoreThreshold : Score) (results : List RecognizerResult) :
    PIIService where
  analyzer := {
    findings text _ := results.filter fun r => r.start < r.stop ∧ r.stop ≤ text.length
    findings_valid _ _ _ hr := of_decide_eq_true (List.mem_filter.1 hr).2
    analyze text _ entities scoreThreshold :=
      (results.filter fun r => r.start < r.stop ∧ r.stop ≤ text.length).filter
        fun r => r.entityType ∈ entities ∧ scoreThreshold ≤ r.score
    analyze_eq _ _ _ _ := rfl }
  anonymizer := {
    anonymize _ analyzerResults := analyzerResults.map (·.toSpan)
    anonymize_has := has_map_toSpan }
  defaultLanguage := "en"
  defaultScoreThreshold

theorem analyzeText_serviceFinding {policy : PIIPolicy} {results : List RecognizerResult}
    (h : ∀ r ∈ results, r.start < r.stop ∧ r.stop ≤ text.length) :
    (serviceFinding default results).analyzeText (sanitizeRequest policy none) text =
      results.filter fun r =>
        r.entityType ∈ askedEntities policy ∧ appliedThreshold default policy ≤ r.score := by
  rw [analyzeText_eq]
  congr 1
  exact List.filter_eq_self.2 fun r hr => decide_eq_true (h r hr)

/-- A single finding that the floor covers is covered. -/
theorem KeepsCover.single (h : KeepsCover default floor merged) {name : String} {score : Score}
    (hn : name ∈ askedEntities floor) (hs : appliedThreshold default floor ≤ score) :
    name ∈ askedEntities merged ∧ appliedThreshold default merged ≤ score := by
  let r : RecognizerResult := ⟨⟨0, 1⟩, name, score⟩
  have hvalid : ∀ x ∈ [r], x.start < x.stop ∧ x.stop ≤ ['x'].length := by simp [r]
  have hfloor : (serviceFinding default [r]).analyzeText (sanitizeRequest floor none) ['x'] = [r] := by
    rw [analyzeText_serviceFinding hvalid]
    simp [r, hn, hs]
  have hr : r.toSpan.Has 0 := ⟨Nat.le_refl 0, Nat.one_pos⟩
  have hcover : ∃ x ∈ (serviceFinding default [r]).sanitizedSpans (sanitizeRequest floor none) ['x'],
      x.Has 0 := by
    cases hm : (sanitizeRequest floor none).mode with
    | redact => exact (covered_redact hm).2 ⟨r, by simp [hfloor], hr⟩
    | tokenize =>
      refine (covered_tokenize hm).2 ⟨r, ?_, hr⟩
      rw [hfloor]
      exact List.mem_singleton.2 rfl
  obtain ⟨x, hx, -⟩ := found_of_covered (h _ _ _ rfl hcover)
  rw [analyzeText_serviceFinding hvalid] at hx
  obtain ⟨hx, hasked⟩ := List.mem_filter.1 hx
  rw [List.mem_singleton.1 hx] at hasked
  exact of_decide_eq_true hasked

/-- A finding of a new type that is longer and overlaps one of the floor's displaces it. -/
theorem KeepsCover.displaced (h : KeepsCover default floor merged)
    (hf : floor.egress.mode = .tokenizeReversible) (hg : merged.egress.mode = .tokenizeReversible) :
    askedEntities merged ⊆ askedEntities floor := by
  intro name hname
  by_contra hnew
  obtain ⟨old, hold⟩ := exists_asked floor
  have holdm := (h.single hold (Score.le_one _)).1
  let r : RecognizerResult := ⟨⟨0, 2⟩, old, 1⟩
  let r' : RecognizerResult := ⟨⟨1, 5⟩, name, 1⟩
  let text := ['a', 'b', 'c', 'd', 'e']
  have hvalid : ∀ x ∈ [r, r'], x.start < x.stop ∧ x.stop ≤ text.length := by simp [r, r', text]
  have hfloor : (serviceFinding default [r, r']).analyzeText (sanitizeRequest floor none) text = [r] := by
    rw [analyzeText_serviceFinding hvalid]
    simp [r, r', hold, hnew, Score.le_one]
  have hmerged : (serviceFinding default [r, r']).analyzeText (sanitizeRequest merged none) text =
      [r, r'] := by
    rw [analyzeText_serviceFinding hvalid]
    simp [r, r', holdm, hname, Score.le_one]
  have hkept : nonOverlapping [r, r'] = [r'] := by
    simp [nonOverlapping, Ranking.select, Ranking.consider, ranksBefore, overlaps, r, r']
  have hcover : ∃ x ∈ (serviceFinding default [r, r']).sanitizedSpans (sanitizeRequest floor none) text,
      x.Has 0 := by
    refine (covered_tokenize (by simp [sanitizeRequest, hf])).2 ⟨r, ?_, Nat.le_refl 0, Nat.two_pos⟩
    rw [hfloor]
    exact List.mem_singleton.2 rfl
  obtain ⟨x, hx, hp⟩ := (covered_tokenize (by simp [sanitizeRequest, hg])).1 (h _ _ _ rfl hcover)
  rw [hmerged, hkept] at hx
  rw [List.mem_singleton.1 hx] at hp
  exact Nat.not_succ_le_zero 0 hp.1

theorem KeepsCover.keepsDetection
    (h : KeepsCover default floor (clampAndMerge floor override allowModeOverride false))
    (hm : (clampAndMerge floor override allowModeOverride false).egress.mode = floor.egress.mode) :
    KeepsDetection default floor override where
  threshold := by
    obtain ⟨name, hn⟩ := exists_asked floor
    exact (appliedThreshold_clampAndMerge_le _).1 (h.single hn le_rfl).2
  defaults := (askedEntities_subset_clampAndMerge _).1 fun _ hn => (h.single hn (Score.le_one _)).1
  displaced hf name hname := by
    refine h.displaced hf (hm.trans hf) ?_
    rw [mem_askedEntities_clampAndMerge, if_neg fun hnil => List.ne_nil_of_mem hname hnil.2]
    exact .inr hname

/-- An override that keeps the egress mode keeps the cover exactly if it raises no threshold that is
applied, adds no type to an empty list without the service's own, and, where results displace each
other, adds no type at all. -/
theorem keepsCover_iff (defaultScoreThreshold : Score) (floor : PIIPolicy)
    (override : SessionPIIOverride) (allowModeOverride : Bool)
    (hm : (clampAndMerge floor override allowModeOverride false).egress.mode = floor.egress.mode) :
    KeepsCover defaultScoreThreshold floor (clampAndMerge floor override allowModeOverride false) ↔
      KeepsDetection defaultScoreThreshold floor override :=
  ⟨fun h => h.keepsDetection hm, fun h => h.keepsCover hm⟩

/-- A floor that redacts e-mail addresses from a score of one half. -/
def emailFloor : PIIPolicy where
  telemetry := ⟨true, "sanitized", false⟩
  egress := ⟨true, false, .redact, .block⟩
  presidio := ⟨"en", ⟨1 / 2, by norm_num⟩, ["EMAIL_ADDRESS"]⟩

/-- A session that sets a threshold and adds phone numbers. -/
def phoneOverride (presidioThreshold : Option Score) : SessionPIIOverride :=
  ⟨none, none, none, none, none, none, none, presidioThreshold, some ["PHONE_NUMBER"]⟩

theorem keepsCover_phoneOverride :
    KeepsCover ⟨7 / 20, by norm_num⟩ emailFloor
      (clampAndMerge emailFloor (phoneOverride none) true false) :=
  (keepsCover_iff _ emailFloor (phoneOverride none) true rfl).2
    ⟨.inl (Score.zero_le _), nofun, nofun⟩

/-- A threshold above the floor's: an address found with a score between the two is left in the
text. -/
theorem not_keepsCover_threshold :
    ¬ KeepsCover ⟨7 / 20, by norm_num⟩ emailFloor
      (clampAndMerge emailFloor (phoneOverride (some ⟨4 / 5, by norm_num⟩)) false false) := by
  intro h
  have ht := (h.keepsDetection rfl).threshold
  rcases ht with ht | ⟨ht, -⟩
  · have hle : (4 / 5 : ℚ) ≤ 1 / 2 := ht
    norm_num at hle
  · have heq : (1 / 2 : ℚ) = 0 := congrArg Subtype.val ht
    norm_num at heq

end LlmPort.Gateway
