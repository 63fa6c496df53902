import Mathlib.Algebra.Order.Ring.Rat
import Mathlib.Order.Interval.Set.Basic
import LlmPort.Ranking.Greedy

/-!
# The PII service

`services/pii/service.py`: what `sanitize_payload` asks the analyzer, and which stretches of a text
it replaces in each mode. The analyzer and the anonymizer are Presidio's and enter with the
behaviour their documentation gives them.
-/

namespace LlmPort.Pii

open Ranking

/-- Scores and thresholds, as the request schemas bound them. -/
abbrev Score := {q : ℚ // 0 ≤ q ∧ q ≤ 1}

instance : Zero Score := ⟨⟨0, by decide⟩⟩

instance : One Score := ⟨⟨1, by decide⟩⟩

theorem Score.zero_le (q : Score) : 0 ≤ q := q.2.1

theorem Score.le_one (q : Score) : q ≤ 1 := q.2.2

/-- A half-open stretch of a text. -/
structure Span where
  start : Nat
  stop : Nat
  deriving DecidableEq

def Span.Has (x : Span) (position : Nat) : Prop := x.start ≤ position ∧ position < x.stop

structure RecognizerResult extends Span where
  entityType : String
  score : Score
  deriving DecidableEq

/-- Presidio's analyzer. It has its findings in a text, and answers with those of the types asked
for that reach the threshold. -/
structure AnalyzerEngine where
  analyze (text : List Char) (language : String) (entities : List String) (scoreThreshold : Score) :
    List RecognizerResult
  findings (text : List Char) (language : String) : List RecognizerResult
  findings_valid : ∀ text language, ∀ r ∈ findings text language,
    r.start < r.stop ∧ r.stop ≤ text.length
  analyze_eq : ∀ text language entities scoreThreshold,
    analyze text language entities scoreThreshold =
      (findings text language).filter fun r => r.entityType ∈ entities ∧ scoreThreshold ≤ r.score

/-- Presidio's anonymizer, by the stretches it replaces: merged where results overlap, they are what
the results cover. -/
structure AnonymizerEngine where
  anonymize (text : List Char) (analyzerResults : List RecognizerResult) : List Span
  anonymize_has : ∀ text analyzerResults position,
    (∃ x ∈ anonymize text analyzerResults, x.Has position) ↔
      ∃ r ∈ analyzerResults, r.toSpan.Has position

/-- The stretches of all results cover what an anonymizer's must. -/
theorem has_map_toSpan (_text : List Char) (analyzerResults : List RecognizerResult)
    (position : Nat) : (∃ x ∈ analyzerResults.map (·.toSpan), x.Has position) ↔
      ∃ r ∈ analyzerResults, r.toSpan.Has position := by
  simp

def defaultEntities : List String :=
  ["PERSON", "EMAIL_ADDRESS", "PHONE_NUMBER", "CREDIT_CARD", "IBAN_CODE", "IP_ADDRESS", "US_SSN",
    "LOCATION", "DATE_TIME", "NRP", "MEDICAL_LICENSE", "URL"]

inductive SanitizeMode where
  | redact | tokenize
  deriving DecidableEq

/-- The body of a sanitize request beside its payload. -/
structure SanitizeRequest where
  mode : SanitizeMode
  language : Option String
  entities : Option (List String)
  scoreThreshold : Option Score

structure PIIService where
  analyzer : AnalyzerEngine
  anonymizer : AnonymizerEngine
  defaultLanguage : String
  defaultScoreThreshold : Score

/-- `entities or DEFAULT_ENTITIES` -/
def entitiesOrDefault (entities : Option (List String)) : List String :=
  if entities.getD [] = [] then defaultEntities else entities.getD []

/-- `score_threshold or self._default_score_threshold` -/
def thresholdOrDefault (default : Score) (scoreThreshold : Option Score) : Score :=
  if scoreThreshold.getD 0 = 0 then default else scoreThreshold.getD 0

/-- `language or self._default_language` -/
def languageOrDefault (default : String) (language : Option String) : String :=
  if language.getD "" = "" then default else language.getD ""

/-- Descending in `(r.score, r.end - r.start)`. -/
def ranksBefore (r r' : RecognizerResult) : Prop :=
  r'.score < r.score ∨ r'.score = r.score ∧ r'.stop - r'.start ≤ r.stop - r.start

instance : DecidableRel ranksBefore := fun _ _ => inferInstanceAs (Decidable (_ ∨ _))

def overlaps (r kept : RecognizerResult) : Bool := r.start < kept.stop ∧ kept.start < r.stop

/-- The results a tokenized text keeps: of two that overlap, the one that ranks first. -/
def nonOverlapping (results : List RecognizerResult) : List RecognizerResult :=
  select ranksBefore overlaps results

namespace PIIService

variable (svc : PIIService)

/-- The analyzer's answer for one text of the payload. -/
def analyzeText (request : SanitizeRequest) (text : List Char) : List RecognizerResult :=
  svc.analyzer.analyze text (languageOrDefault svc.defaultLanguage request.language)
    (entitiesOrDefault request.entities)
    (thresholdOrDefault svc.defaultScoreThreshold request.scoreThreshold)

/-- The stretches of one text that `_redact_text` or `_tokenize_text` replaces. -/
def sanitizedSpans (request : SanitizeRequest) (text : List Char) : List Span :=
  let results := svc.analyzeText request text
  if results = [] then []
  else match request.mode with
    | .redact => svc.anonymizer.anonymize text results
    | .tokenize => (nonOverlapping results).map (·.toSpan)

end PIIService

/-! ## Which positions are covered -/

theorem ranksBefore_total (r r' : RecognizerResult) : ranksBefore r r' ∨ ranksBefore r' r := by
  unfold ranksBefore
  rcases lt_trichotomy r.score r'.score with h | h | h
  · exact .inr (.inl h)
  · rcases Nat.le_total (r'.stop - r'.start) (r.stop - r.start) with hs | hs
    · exact .inl (.inr ⟨h.symm, hs⟩)
    · exact .inr (.inr ⟨h, hs⟩)
  · exact .inl (.inl h)

instance : Std.Total ranksBefore := ⟨ranksBefore_total⟩

theorem ranksBefore.score_le {r r' : RecognizerResult} (h : ranksBefore r r') :
    r'.score ≤ r.score := by
  rcases h with h | ⟨h, -⟩
  · exact h.le
  · exact h.le

instance : IsTrans RecognizerResult ranksBefore := by
  refine ⟨fun r₁ r₂ r₃ h₁ h₂ => ?_⟩
  rcases h₁ with h₁ | ⟨h₁, hs₁⟩
  · exact .inl (lt_of_le_of_lt (ranksBefore.score_le h₂) h₁)
  · rcases h₂ with h₂ | ⟨h₂, hs₂⟩
    · exact .inl (h₁ ▸ h₂)
    · exact .inr ⟨h₂.trans h₁, hs₂.trans hs₁⟩

/-- Lowering the threshold lets results in that rank last, and keeps those that were kept. -/
theorem nonOverlapping_of_threshold {results : List RecognizerResult} {low high : Score}
    (h : low ≤ high) :
    nonOverlapping (results.filter (high ≤ ·.score)) <+:
      nonOverlapping (results.filter (low ≤ ·.score)) := by
  have hf : results.filter (high ≤ ·.score) =
      (results.filter (low ≤ ·.score)).filter (high ≤ ·.score) := by
    rw [List.filter_filter]
    refine List.filter_congr fun r _ => ?_
    have hle : high ≤ r.score → low ≤ r.score := h.trans
    by_cases hr : high ≤ r.score <;> simp [hr, hle]
  rw [hf]
  refine select_filter_prefix fun r r' hrr hr' => ?_
  have hle := ranksBefore.score_le hrr
  exact decide_eq_true ((of_decide_eq_true hr').trans hle)

namespace PIIService

variable {svc : PIIService} {request : SanitizeRequest} {text : List Char} {position : Nat}

theorem analyzeText_eq : svc.analyzeText request text =
    (svc.analyzer.findings text (languageOrDefault svc.defaultLanguage request.language)).filter
      fun r => r.entityType ∈ entitiesOrDefault request.entities ∧
        thresholdOrDefault svc.defaultScoreThreshold request.scoreThreshold ≤ r.score :=
  svc.analyzer.analyze_eq ..

/-- Redaction covers what the analyzer finds. -/
theorem covered_redact (hm : request.mode = .redact) :
    (∃ x ∈ svc.sanitizedSpans request text, x.Has position) ↔
      ∃ r ∈ svc.analyzeText request text, r.toSpan.Has position := by
  simp only [sanitizedSpans, hm]
  split
  next h => simp [h]
  next => exact svc.anonymizer.anonymize_has ..

/-- Tokenization covers what is kept of it. -/
theorem covered_tokenize (hm : request.mode = .tokenize) :
    (∃ x ∈ svc.sanitizedSpans request text, x.Has position) ↔
      ∃ r ∈ nonOverlapping (svc.analyzeText request text), r.toSpan.Has position := by
  simp only [sanitizedSpans, hm]
  split
  next h => simp [h, nonOverlapping, select]
  next => simp

/-- Only what the analyzer finds is covered. -/
theorem found_of_covered (h : ∃ x ∈ svc.sanitizedSpans request text, x.Has position) :
    ∃ r ∈ svc.analyzeText request text, r.toSpan.Has position := by
  cases hm : request.mode with
  | redact => exact (covered_redact hm).1 h
  | tokenize =>
    obtain ⟨r, hr, hp⟩ := (covered_tokenize hm).1 h
    exact ⟨r, mem_of_mem_select hr, hp⟩

end PIIService

end LlmPort.Pii
