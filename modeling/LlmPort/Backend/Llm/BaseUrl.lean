import Mathlib.Data.List.DropRight
import LlmPort.Backend.Llm.GatewaySync

/-!
# What normalization takes off a base URL

`_normalize_base_url` runs when a provider is saved and again when a runtime of it is published.
-/

namespace LlmPort.Backend.Llm

/-- `/v1` -/
def v1 : List Char := ['/', 'v', '1']

/-- `/v1/` -/
def v1Slash : List Char := ['/', 'v', '1', '/']

/-- The line feed before which the end of a text also matches. -/
def lineFeed : Char := Char.ofNat 10

/-- The endings of which the normalization takes something off. -/
def strippedEndings : List (List Char) :=
  [['/'], v1, v1 ++ [lineFeed], v1Slash ++ [lineFeed]]

/-- Nothing is left to take off. -/
def Bare (url : List Char) : Prop := ∀ ending ∈ strippedEndings, ¬ ending <:+ url

/-- The endings of which one pass takes something off and leaves another such ending. -/
def repeatedEndings : List (List Char) :=
  strippedEndings.map (· ++ v1) ++
    [v1 ++ (v1 ++ [lineFeed]), v1Slash ++ (v1 ++ [lineFeed]), v1 ++ (v1Slash ++ [lineFeed]),
      v1Slash ++ (v1Slash ++ [lineFeed])]

/-- The URL ends in a repeated suffix, up to slashes at its end. -/
def EndsRepeated (url : List Char) : Prop :=
  ∃ x ending slashes, ending ∈ repeatedEndings ∧ (∀ c ∈ slashes, c = '/') ∧
    url = x ++ ending ++ slashes

/-! ## One pass -/

theorem dropV1_append_v1 (x : List Char) : dropV1 (x ++ v1) = x := by
  simp [dropV1, v1]

theorem dropV1_append_v1Slash (x : List Char) : dropV1 (x ++ v1Slash) = x := by
  simp [dropV1, v1Slash]

theorem dropV1_of_not_suffix {x : List Char} (h : ¬ v1 <:+ x) (hs : ¬ v1Slash <:+ x) :
    dropV1 x = x := by
  unfold dropV1
  split
  next rest heq =>
    exact absurd ⟨rest.reverse, by simpa [v1] using (List.reverse_eq_iff.1 heq).symm⟩ h
  next rest heq =>
    exact absurd ⟨rest.reverse, by simpa [v1Slash] using (List.reverse_eq_iff.1 heq).symm⟩ hs
  next => rfl

theorem dropV1_cases (x : List Char) :
    (∃ y, ∃ suffix ∈ [v1, v1Slash], x = y ++ suffix ∧ dropV1 x = y) ∨
      (¬ v1 <:+ x ∧ ¬ v1Slash <:+ x ∧ dropV1 x = x) := by
  by_cases h : v1 <:+ x
  · obtain ⟨y, rfl⟩ := h
    exact .inl ⟨y, v1, by simp, rfl, dropV1_append_v1 y⟩
  · by_cases hs : v1Slash <:+ x
    · obtain ⟨y, rfl⟩ := hs
      exact .inl ⟨y, v1Slash, by simp, rfl, dropV1_append_v1Slash y⟩
    · exact .inr ⟨h, hs, dropV1_of_not_suffix h hs⟩

/-- Slashes at the end do not matter. -/
theorem normalizeBaseUrl_append_slashes {x slashes : List Char} (h : ∀ c ∈ slashes, c = '/') :
    normalizeBaseUrl (x ++ slashes) = normalizeBaseUrl x := by
  have hdrop : (slashes.reverse ++ x.reverse).dropWhile (· = '/') =
      x.reverse.dropWhile (· = '/') := by
    rw [List.dropWhile_append_of_pos]
    intro c hc
    exact decide_eq_true (h c (List.mem_reverse.1 hc))
  unfold normalizeBaseUrl
  rw [List.reverse_append, hdrop]

theorem normalizeBaseUrl_concat_lineFeed (b : List Char) :
    normalizeBaseUrl (b ++ [lineFeed]) = dropV1 b ++ [lineFeed] := by
  simp [normalizeBaseUrl, lineFeed]

theorem normalizeBaseUrl_concat {b : List Char} {c : Char} (hc : c ≠ '/') (hl : c ≠ lineFeed) :
    normalizeBaseUrl (b ++ [c]) = dropV1 (b ++ [c]) := by
  unfold lineFeed at hl
  simp [normalizeBaseUrl, hc, hl]

theorem normalizeBaseUrl_append_v1 (x : List Char) : normalizeBaseUrl (x ++ v1) = x := by
  have hsplit : x ++ v1 = (x ++ ['/', 'v']) ++ ['1'] := by simp [v1]
  rw [hsplit, normalizeBaseUrl_concat (by decide) (by decide), ← hsplit, dropV1_append_v1]

theorem bare_nil : Bare [] := by
  unfold Bare
  decide

theorem concat_suffix_concat {x y : List Char} {c d : Char} :
    x ++ [c] <:+ y ++ [d] ↔ x <:+ y ∧ c = d := by
  constructor
  · rintro ⟨z, hz⟩
    rw [← List.append_assoc] at hz
    obtain ⟨hzx, hcd⟩ := List.append_inj' hz rfl
    exact ⟨⟨z, hzx⟩, by simpa using hcd⟩
  · rintro ⟨⟨z, rfl⟩, rfl⟩
    exact ⟨z, by simp⟩

/-- What `Bare` says of a URL with a last character. -/
theorem bare_concat {b : List Char} {c : Char} : Bare (b ++ [c]) ↔
    c ≠ '/' ∧ ¬ (c = '1' ∧ ['/', 'v'] <:+ b) ∧
      ¬ (c = lineFeed ∧ (v1 <:+ b ∨ v1Slash <:+ b)) := by
  have h1 : ['/'] = [] ++ ['/'] := rfl
  have h2 : v1 = ['/', 'v'] ++ ['1'] := rfl
  unfold Bare strippedEndings
  simp only [List.forall_mem_cons, List.not_mem_nil, false_implies, implies_true, and_true]
  rw [h1, concat_suffix_concat, concat_suffix_concat, concat_suffix_concat]
  nth_rewrite 1 [h2]
  rw [concat_suffix_concat]
  simp only [List.nil_suffix, true_and, eq_comm (b := c)]
  tauto

/-- A URL is a text that is empty or does not end in a slash, and slashes. -/
theorem exists_slashes (url : List Char) : ∃ x slashes, url = x ++ slashes ∧
    (∀ c ∈ slashes, c = '/') ∧ (x = [] ∨ ∃ b c, x = b ++ [c] ∧ c ≠ '/') := by
  refine ⟨url.rdropWhile (· = '/'), url.rtakeWhile (· = '/'),
    List.rdropWhile_append_rtakeWhile.symm, fun c hc => ?_, ?_⟩
  · have hp := List.mem_rtakeWhile_imp hc
    exact of_decide_eq_true hp
  · rcases List.eq_nil_or_concat (url.rdropWhile (· = '/')) with h | ⟨b, c, h⟩
    · exact .inl h
    · refine .inr ⟨b, c, by simpa using h, fun hc => ?_⟩
      have hne : url.rdropWhile (· = '/') ≠ [] := by simp [h]
      have hlast := List.rdropWhile_last_not (fun c : Char => decide (c = '/')) url hne
      simp [h, hc] at hlast

theorem dropV1_length_le (x : List Char) : (dropV1 x).length ≤ x.length := by
  rcases dropV1_cases x with ⟨y, suffix, -, rfl, hy⟩ | ⟨-, -, h⟩
  · rw [hy, List.length_append]
    omega
  · rw [h]

theorem normalizeBaseUrl_length_le (url : List Char) :
    (normalizeBaseUrl url).length ≤ url.length := by
  obtain ⟨x, slashes, rfl, hs, rfl | ⟨b, c, rfl, hc⟩⟩ := exists_slashes url
  · rw [normalizeBaseUrl_append_slashes hs]
    exact Nat.zero_le _
  · have hle : (normalizeBaseUrl (b ++ [c])).length ≤ (b ++ [c]).length := by
      by_cases hl : c = lineFeed
      · have hd := dropV1_length_le b
        rw [hl, normalizeBaseUrl_concat_lineFeed, List.length_append, List.length_append]
        omega
      · rw [normalizeBaseUrl_concat hc hl]
        exact dropV1_length_le _
    rw [normalizeBaseUrl_append_slashes hs, List.length_append]
    omega

theorem dropV1_eq_self_iff {x : List Char} : dropV1 x = x ↔ ¬ v1 <:+ x ∧ ¬ v1Slash <:+ x := by
  refine ⟨fun h => ?_, fun h => dropV1_of_not_suffix h.1 h.2⟩
  rcases dropV1_cases x with ⟨y, suffix, hsuffix, rfl, hy⟩ | ⟨h1, h2, -⟩
  · have hpos : 0 < suffix.length := by
      simp only [List.mem_cons, List.not_mem_nil, or_false] at hsuffix
      rcases hsuffix with rfl | rfl
      · decide
      · decide
    have hlen := congrArg List.length (hy.symm.trans h)
    rw [List.length_append] at hlen
    omega
  · exact ⟨h1, h2⟩

/-- One pass leaves a URL as it is exactly where there is nothing to take off. -/
theorem normalizeBaseUrl_eq_self_iff {url : List Char} : normalizeBaseUrl url = url ↔ Bare url := by
  rcases List.eq_nil_or_concat url with rfl | ⟨b, c, hbc⟩
  · exact iff_of_true rfl bare_nil
  · rw [List.concat_eq_append] at hbc
    subst hbc
    rw [bare_concat]
    by_cases hc : c = '/'
    · refine iff_of_false (fun h => ?_) fun h => h.1 hc
      have hslash : ∀ d ∈ [c], d = '/' := by simp [hc]
      rw [normalizeBaseUrl_append_slashes hslash] at h
      have hlen := normalizeBaseUrl_length_le b
      rw [h, List.length_append, List.length_singleton] at hlen
      omega
    · by_cases hl : c = lineFeed
      · subst hl
        have h1 : lineFeed ≠ '1' := by decide
        rw [normalizeBaseUrl_concat_lineFeed, List.append_left_inj, dropV1_eq_self_iff]
        simp [hc, h1]
      · have hv1 : v1 = ['/', 'v'] ++ ['1'] := rfl
        have hv1s : v1Slash = v1 ++ ['/'] := rfl
        rw [normalizeBaseUrl_concat hc hl, dropV1_eq_self_iff, hv1, hv1s, concat_suffix_concat,
          concat_suffix_concat]
        simp [hc, hl, Ne.symm hc, and_comm, eq_comm]

/-! ## Two passes -/

/-- What a second pass finds left of a URL, where it finds something. -/
theorem endsRepeated_of_not_bare {url : List Char} (h : ¬ Bare (normalizeBaseUrl url)) :
    EndsRepeated url := by
  obtain ⟨x, slashes, rfl, hs, rfl | ⟨b, c, rfl, hc⟩⟩ := exists_slashes url
  · rw [normalizeBaseUrl_append_slashes hs] at h
    exact absurd bare_nil h
  · rw [normalizeBaseUrl_append_slashes hs] at h
    by_cases hl : c = lineFeed
    · subst hl
      rw [normalizeBaseUrl_concat_lineFeed, ← normalizeBaseUrl_eq_self_iff,
        normalizeBaseUrl_concat_lineFeed, List.append_left_inj] at h
      rcases dropV1_cases b with ⟨d, suffix, hsuffix, rfl, hd⟩ | ⟨-, -, hb⟩
      · rw [hd] at h
        rcases dropV1_cases d with ⟨e, suffix', hsuffix', rfl, -⟩ | ⟨-, -, hd'⟩
        · refine ⟨e, suffix' ++ (suffix ++ [lineFeed]), slashes, ?_, hs, by simp⟩
          simp only [List.mem_cons, List.not_mem_nil, or_false] at hsuffix hsuffix'
          rcases hsuffix with rfl | rfl <;> rcases hsuffix' with rfl | rfl <;>
            simp [repeatedEndings]
        · exact absurd hd' h
      · rw [hb] at h
        exact absurd hb h
    · rw [normalizeBaseUrl_concat hc hl] at h
      rcases dropV1_cases (b ++ [c]) with ⟨y, suffix, hsuffix, hy, hdrop⟩ | ⟨-, -, hb⟩
      · rw [hdrop] at h
        simp only [List.mem_cons, List.not_mem_nil, or_false] at hsuffix
        rcases hsuffix with rfl | rfl
        · unfold Bare at h
          push Not at h
          obtain ⟨ending, hending, z, rfl⟩ := h
          refine ⟨z, ending ++ v1, slashes, ?_, hs, by rw [hy]; simp⟩
          exact List.mem_append_left _ (List.mem_map_of_mem hending)
        · have hsplit : y ++ v1Slash = (y ++ v1) ++ ['/'] := by simp [v1Slash, v1]
          rw [hsplit] at hy
          exact absurd (by simpa using (List.append_inj' hy rfl).2) hc
      · rw [hb, ← normalizeBaseUrl_eq_self_iff, normalizeBaseUrl_concat hc hl] at h
        exact absurd hb h

theorem normalizeBaseUrl_append_lineFeed {x suffix : List Char} (h : suffix ∈ [v1, v1Slash]) :
    normalizeBaseUrl (x ++ (suffix ++ [lineFeed])) = x ++ [lineFeed] := by
  rw [← List.append_assoc, normalizeBaseUrl_concat_lineFeed, List.append_left_inj]
  simp only [List.mem_cons, List.not_mem_nil, or_false] at h
  rcases h with rfl | rfl
  · exact dropV1_append_v1 x
  · exact dropV1_append_v1Slash x

theorem not_bare_of_endsRepeated {url : List Char} (h : EndsRepeated url) :
    ¬ Bare (normalizeBaseUrl url) := by
  obtain ⟨x, ending, slashes, hending, hs, rfl⟩ := h
  rw [normalizeBaseUrl_append_slashes hs]
  rcases List.mem_append.1 hending with hending | hending
  · obtain ⟨stripped, hstripped, rfl⟩ := List.mem_map.1 hending
    rw [← List.append_assoc, normalizeBaseUrl_append_v1]
    exact fun hb => hb stripped hstripped ⟨x, rfl⟩
  · have hparts : ∃ left ∈ [v1, v1Slash], ∃ right ∈ [v1, v1Slash],
        ending = left ++ (right ++ [lineFeed]) := by
      simp only [List.mem_cons, List.not_mem_nil, or_false] at hending
      rcases hending with rfl | rfl | rfl | rfl <;> simp
    obtain ⟨left, hleft, right, hright, rfl⟩ := hparts
    rw [← List.append_assoc, normalizeBaseUrl_append_lineFeed hright]
    have hmem : left ++ [lineFeed] ∈ strippedEndings := by
      simp only [List.mem_cons, List.not_mem_nil, or_false] at hleft
      rcases hleft with rfl | rfl <;> simp [strippedEndings]
    exact fun hb => hb _ hmem ⟨x, by rw [List.append_assoc]⟩

/-- Normalization is idempotent up to repeated suffixes. -/
theorem normalizeBaseUrl_idempotent_iff {url : List Char} :
    normalizeBaseUrl (normalizeBaseUrl url) = normalizeBaseUrl url ↔ ¬ EndsRepeated url := by
  rw [normalizeBaseUrl_eq_self_iff]
  constructor
  · exact fun hb hrep => not_bare_of_endsRepeated hrep hb
  · intro hrep
    by_contra hb
    exact hrep (endsRepeated_of_not_bare hb)

end LlmPort.Backend.Llm
