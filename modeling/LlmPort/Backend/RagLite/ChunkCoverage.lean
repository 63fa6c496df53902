import Mathlib.Data.List.Infix
import Mathlib.Data.List.TakeWhile
import LlmPort.Backend.RagLite.Chunker
import LlmPort.Backend.SystemSettings.Registry

/-!
# What the chunks of a text cover

A window starts every `step` characters and is `max_chars` long. Two settings determine both
numbers, and the registry takes any two integers: with a negative overlap the windows leave gaps,
and without a positive length there is nothing in them.
-/

namespace LlmPort.Backend.RagLite

open Text

variable {cfg : ChunkerConfig} {text : List Char} {s start stop i : Nat} {c : Char}

/-! ## Blank texts -/

theorem strip_eq_nil_iff : ModelSync.strip text = [] ↔ ∀ c ∈ text, ModelSync.isSpace c = true := by
  rw [ModelSync.strip, List.reverse_eq_nil_iff, List.dropWhile_eq_nil_iff]
  constructor
  · intro h c hc
    rw [← List.takeWhile_append_dropWhile (p := ModelSync.isSpace) (l := text)] at hc
    rcases List.mem_append.1 hc with hc | hc
    · exact List.mem_takeWhile_imp hc
    · exact h c (List.mem_reverse.2 hc)
  · intro h c hc
    exact h c ((List.dropWhile_sublist _).mem (List.mem_reverse.1 hc))

theorem strip_ne_nil_iff :
    ModelSync.strip text ≠ [] ↔ ∃ c ∈ text, ModelSync.isSpace c = false := by
  rw [Ne, strip_eq_nil_iff]
  simp only [not_forall, exists_prop, Bool.not_eq_true]

/-! ## Windows -/

/-- The window that starts at a position. -/
def window (cfg : ChunkerConfig) (text : List Char) (start : Nat) : List Char :=
  slice text start (start + cfg.maxChars)

theorem slice_eq (text : List Char) (start : Nat) (stop : Int) : slice text start stop =
    (text.drop start).take ((if stop < 0 then stop + text.length else stop).toNat - start) :=
  List.drop_take

/-- A slice is what the text has from its start on. -/
theorem slice_eq_take (text : List Char) (start : Nat) (stop : Int) :
    slice text start stop = (text.drop start).take (slice text start stop).length := by
  refine List.prefix_iff_eq_take.1 ?_
  rw [slice_eq]
  exact List.take_prefix _ _

theorem window_of_pos (h : 0 < cfg.maxChars) :
    window cfg text start = (text.drop start).take cfg.maxChars.toNat := by
  have hstop : ¬ (start + cfg.maxChars < 0) := by omega
  have hlength : (start + cfg.maxChars).toNat - start = cfg.maxChars.toNat := by omega
  rw [window, slice_eq, if_neg hstop, hlength]

/-! ## The starts of the chunks -/

/-- The loop of `chunk_text` once more: where the chunks start that it keeps. -/
def starts (cfg : ChunkerConfig) (text : List Char) (start : Nat) : List Nat :=
  if start < text.length then
    if ModelSync.strip (window cfg text start) ≠ [] then
      start :: starts cfg text (start + cfg.step)
    else starts cfg text (start + cfg.step)
  else []
termination_by text.length - start
decreasing_by all_goals have := cfg.step_pos; omega

theorem text_windows (cfg : ChunkerConfig) (text : List Char) (start idx : Nat) :
    (windows cfg text start idx).map (·.text) = (starts cfg text start).map (window cfg text) := by
  induction start, idx using windows.induct cfg text with
  | case1 start idx hlt w hstrip ih =>
    rw [windows, if_pos hlt, if_pos hstrip, starts, if_pos hlt, window, if_pos hstrip,
      List.map_cons, List.map_cons, ih]
    rfl
  | case2 start idx hlt w hstrip ih =>
    rw [windows, if_pos hlt, if_neg hstrip, starts, if_pos hlt, window, if_neg hstrip]
    exact ih
  | case3 start idx hlt =>
    rw [windows, if_neg hlt, starts, if_neg hlt]
    rfl

/-- The loop goes by steps and keeps the windows that are not blank. -/
theorem mem_starts : s ∈ starts cfg text start ↔ s < text.length ∧
    ModelSync.strip (window cfg text s) ≠ [] ∧ ∃ k, s = start + k * cfg.step := by
  have hnext : ∀ start, (∃ k, s = start + k * cfg.step) ↔
      s = start ∨ ∃ k, s = start + cfg.step + k * cfg.step := by
    intro start
    constructor
    · rintro ⟨_ | k, rfl⟩
      · exact .inl (by omega)
      · exact .inr ⟨k, by rw [Nat.succ_mul]; omega⟩
    · rintro (rfl | ⟨k, rfl⟩)
      · exact ⟨0, by omega⟩
      · exact ⟨k + 1, by rw [Nat.succ_mul]; omega⟩
  induction start using starts.induct cfg text with
  | case1 start hlt hstrip ih =>
    rw [starts, if_pos hlt, if_pos hstrip, List.mem_cons, hnext start]
    refine (or_congr_right ih).trans ?_
    constructor
    · rintro (rfl | ⟨hs, hw, hk⟩)
      · exact ⟨hlt, hstrip, .inl rfl⟩
      · exact ⟨hs, hw, .inr hk⟩
    · rintro ⟨hs, hw, rfl | hk⟩
      · exact .inl rfl
      · exact .inr ⟨hs, hw, hk⟩
  | case2 start hlt hstrip ih =>
    rw [starts, if_pos hlt, if_neg hstrip, hnext start]
    refine ih.trans (and_congr_right fun _ => and_congr_right fun hw => ?_)
    exact (or_iff_right fun h : s = start => hstrip (h ▸ hw)).symm
  | case3 start hlt =>
    rw [starts, if_neg hlt]
    refine iff_of_false List.not_mem_nil ?_
    rintro ⟨hs, -, k, rfl⟩
    omega

theorem sorted_starts : (starts cfg text start).Pairwise (· < ·) := by
  induction start using starts.induct cfg text with
  | case1 start hlt hstrip ih =>
    rw [starts, if_pos hlt, if_pos hstrip, List.pairwise_cons]
    refine ⟨fun s hs => ?_, ih⟩
    obtain ⟨-, -, k, rfl⟩ := mem_starts.1 hs
    have := cfg.step_pos
    omega
  | case2 start hlt hstrip ih =>
    rw [starts, if_pos hlt, if_neg hstrip]
    exact ih
  | case3 start hlt =>
    rw [starts, if_neg hlt]
    exact .nil

/-- Where the chunks of a text start. -/
def chunkStarts (cfg : ChunkerConfig) (text : List Char) : List Nat :=
  if text = [] ∨ ModelSync.strip text = [] then [] else starts cfg text 0

/-- The chunks with their starts. -/
def placed (cfg : ChunkerConfig) (text : List Char) : List (Nat × Chunk) :=
  (chunkStarts cfg text).zip (chunkText cfg text)

structure Chunked (cfg : ChunkerConfig) (text : List Char) : Prop where
  length : (chunkStarts cfg text).length = (chunkText cfg text).length
  indexed : (chunkText cfg text).map (·.index) = List.range (chunkText cfg text).length
  ordered : (chunkStarts cfg text).Pairwise (· < ·)
  contiguous : ∀ p ∈ placed cfg text, p.2.text = (text.drop p.1).take p.2.text.length
  bounded : ∀ chunk ∈ chunkText cfg text, chunk.text.length ≤ cfg.maxChars
  covered : ∀ i c, text[i]? = some c → ModelSync.isSpace c = false →
    ∃ p ∈ placed cfg text, p.1 ≤ i ∧ i < p.1 + p.2.text.length

/-! ## Coverage -/

theorem text_chunkText (cfg : ChunkerConfig) (text : List Char) :
    (chunkText cfg text).map (·.text) = (chunkStarts cfg text).map (window cfg text) := by
  rw [chunkText, chunkStarts]
  split
  next => rfl
  next => exact text_windows cfg text 0 0

theorem length_chunkStarts (cfg : ChunkerConfig) (text : List Char) :
    (chunkStarts cfg text).length = (chunkText cfg text).length := by
  have h := congrArg List.length (text_chunkText cfg text)
  rw [List.length_map, List.length_map] at h
  exact h.symm

/-- A chunk is the window at its start. -/
theorem text_of_mem_placed {p : Nat × Chunk} (h : p ∈ placed cfg text) :
    p.1 ∈ chunkStarts cfg text ∧ p.2.text = window cfg text p.1 := by
  obtain ⟨k, hk⟩ := List.mem_iff_getElem?.1 h
  obtain ⟨hstart, hchunk⟩ := List.getElem?_zip_eq_some.1 hk
  refine ⟨List.mem_iff_getElem?.2 ⟨k, hstart⟩, ?_⟩
  have htext := congrArg (·[k]?) (text_chunkText cfg text)
  simp only [List.getElem?_map, hstart, hchunk] at htext
  exact Option.some.inj htext

theorem exists_placed (h : s ∈ chunkStarts cfg text) : ∃ p ∈ placed cfg text, p.1 = s := by
  obtain ⟨k, hk⟩ := List.mem_iff_getElem?.1 h
  have hlt := (List.getElem?_eq_some_iff.1 hk).1
  rw [length_chunkStarts] at hlt
  exact ⟨(s, (chunkText cfg text)[k]), List.mem_iff_getElem?.2 ⟨k, List.getElem?_zip_eq_some.2
    ⟨hk, List.getElem?_eq_getElem hlt⟩⟩, rfl⟩

theorem exists_placed_of_mem {chunk : Chunk} (h : chunk ∈ chunkText cfg text) :
    ∃ p ∈ placed cfg text, p.2 = chunk := by
  obtain ⟨k, hk⟩ := List.mem_iff_getElem?.1 h
  have hlt := (List.getElem?_eq_some_iff.1 hk).1
  rw [← length_chunkStarts] at hlt
  exact ⟨((chunkStarts cfg text)[k], chunk), List.mem_iff_getElem?.2 ⟨k,
    List.getElem?_zip_eq_some.2 ⟨List.getElem?_eq_getElem hlt, hk⟩⟩, rfl⟩

theorem mem_text_of_mem_window (hc : c ∈ window cfg text s) : c ∈ text := by
  rw [window, slice_eq] at hc
  exact List.mem_of_mem_drop (List.mem_of_mem_take hc)

theorem strip_window_of_strip (h : ModelSync.strip text = []) :
    ModelSync.strip (window cfg text s) = [] := by
  exact strip_eq_nil_iff.2 fun c hc => strip_eq_nil_iff.1 h c (mem_text_of_mem_window hc)

theorem mem_chunkStarts : s ∈ chunkStarts cfg text ↔
    s < text.length ∧ ModelSync.strip (window cfg text s) ≠ [] ∧ ∃ k, s = k * cfg.step := by
  rw [chunkStarts]
  split
  next hblank =>
    have hblank : ModelSync.strip text = [] := by
      rcases hblank with rfl | h
      · rfl
      · exact h
    exact iff_of_false List.not_mem_nil fun h => h.2.1 (strip_window_of_strip hblank)
  next =>
    rw [mem_starts]
    simp only [Nat.zero_add]

/-- What is covered by windows that are not too long lies within the length of its stride. -/
theorem Chunked.mod_lt (H : Chunked cfg text) (hc : text[i]? = some c)
    (hspace : ModelSync.isSpace c = false) : (i % cfg.step : Nat) < cfg.maxChars := by
  obtain ⟨p, hp, hle, hlt⟩ := H.covered i c hc hspace
  obtain ⟨-, -, k, hk⟩ := mem_chunkStarts.1 (text_of_mem_placed hp).1
  have hbound := H.bounded p.2 (List.of_mem_zip hp).2
  have hmod : i % cfg.step ≤ i - p.1 := by
    have hsplit : i = (i - p.1) + k * cfg.step := by omega
    calc i % cfg.step = ((i - p.1) + k * cfg.step) % cfg.step := by rw [← hsplit]
      _ = (i - p.1) % cfg.step := Nat.add_mul_mod_self_right _ _ _
      _ ≤ i - p.1 := Nat.mod_le _ _
  omega

/-- The window of its stride has the character. -/
theorem mem_window (hmax : 0 < cfg.maxChars) (hc : text[i]? = some c) (hle : s ≤ i)
    (hlt : (i - s : Nat) < cfg.maxChars) :
    c ∈ window cfg text s ∧ i < s + (window cfg text s).length := by
  have hi := (List.getElem?_eq_some_iff.1 hc).1
  rw [window_of_pos hmax]
  constructor
  · refine List.mem_iff_getElem?.2 ⟨i - s, ?_⟩
    rw [List.getElem?_take_of_lt (by omega), List.getElem?_drop, Nat.add_sub_cancel' hle, hc]
  · rw [List.length_take, List.length_drop]
    omega

/-- The chunks cover a text exactly if every character that is no space lies, counted from the last
multiple of the step, within the length of a window. -/
theorem chunked_iff (cfg : ChunkerConfig) (text : List Char) : Chunked cfg text ↔
    ∀ i c, text[i]? = some c → ModelSync.isSpace c = false →
      (i % cfg.step : Nat) < cfg.maxChars := by
  constructor
  · exact fun H i c hc hspace => H.mod_lt hc hspace
  · intro H
    refine ⟨length_chunkStarts cfg text, chunkText_index cfg text, ?_, fun p hp => ?_,
      fun chunk hchunk => ?_, fun i c hc hspace => ?_⟩
    · rw [chunkStarts]
      split
      next => exact .nil
      next => exact sorted_starts
    · rw [(text_of_mem_placed hp).2]
      exact slice_eq_take _ _ _
    · -- a chunk is no blank window, so that the text has a character the condition is about
      obtain ⟨p, hp, rfl⟩ := exists_placed_of_mem hchunk
      obtain ⟨hstart, htext⟩ := text_of_mem_placed hp
      obtain ⟨c, hc, hspace⟩ := strip_ne_nil_iff.1 (mem_chunkStarts.1 hstart).2.1
      obtain ⟨i, hi⟩ := List.mem_iff_getElem?.1 (mem_text_of_mem_window hc)
      have hmod := H i c hi hspace
      have hmax : 0 < cfg.maxChars := by omega
      rw [htext, window_of_pos hmax, List.length_take]
      omega
    · have hmod := H i c hc hspace
      have hmax : 0 < cfg.maxChars := by omega
      have hsplit := Nat.mod_add_div' i cfg.step
      have hi := (List.getElem?_eq_some_iff.1 hc).1
      obtain ⟨hmem, hlt⟩ := mem_window (s := i / cfg.step * cfg.step) hmax hc (by omega) (by omega)
      obtain ⟨p, hp, hstart⟩ := exists_placed (mem_chunkStarts.2
        ⟨by omega, strip_ne_nil_iff.2 ⟨c, hmem, hspace⟩, i / cfg.step, rfl⟩)
      refine ⟨p, hp, by omega, ?_⟩
      rw [(text_of_mem_placed hp).2, hstart]
      exact hlt

/-- They cover every text exactly if the windows have a length and do not leave gaps. -/
theorem forall_chunked_iff (cfg : ChunkerConfig) :
    (∀ text, Chunked cfg text) ↔ 1 ≤ cfg.maxTokens ∧ 0 ≤ cfg.overlapTokens := by
  have hspace : ModelSync.isSpace 'x' = false := by decide
  have hget (n : Nat) : (List.replicate (n + 1) 'x')[n]? = some 'x' := by simp
  simp only [chunked_iff]
  constructor
  · intro H
    have hzero := H _ 0 'x' (hget 0) hspace
    rw [Nat.zero_mod, ChunkerConfig.maxChars] at hzero
    refine ⟨by omega, ?_⟩
    by_contra hneg
    have hgap := H _ cfg.maxChars.toNat 'x' (hget _) hspace
    have hlt : cfg.maxChars.toNat < cfg.step := by
      rw [ChunkerConfig.step, ChunkerConfig.overlapChars, ChunkerConfig.maxChars]
      omega
    rw [Nat.mod_eq_of_lt hlt] at hgap
    omega
  · rintro ⟨hmax, hoverlap⟩ text i c - -
    have hlt := Nat.mod_lt i cfg.step_pos
    have hle : (cfg.step : Int) ≤ cfg.maxChars := by
      rw [ChunkerConfig.step, ChunkerConfig.overlapChars, ChunkerConfig.maxChars]
      omega
    omega

/-- A window of four characters every eight: the second half of the text is in none. -/
theorem not_chunked_gap : ¬ Chunked ⟨1, -1⟩ "abcdefgh".toList := by
  intro H
  have hlt := H.mod_lt (i := 4) (c := 'e') rfl (by decide)
  revert hlt
  decide

/-! ## The settings -/

theorem isIntText_repr (n : Int) : isIntText n.repr = true := by
  have hdigits (m : Nat) : (Nat.toDigits 10 m).all (fun c => c.isDigit) = true :=
    List.all_eq_true.2 fun c hc => Nat.isDigit_of_mem_toDigits (by decide) (by decide) hc
  have hne (m : Nat) : (Nat.toDigits 10 m).isEmpty = false :=
    List.isEmpty_eq_false_iff.2 Nat.toDigits_ne_nil
  cases n with
  | ofNat m =>
    have hhead : (Nat.toDigits 10 m).head? ≠ some '-' := fun h => by
      have hdigit := List.all_eq_true.1 (hdigits m) '-' (List.mem_of_mem_head? h)
      revert hdigit
      decide
    have htext : (Int.ofNat m).repr.toList = Nat.toDigits 10 m := Nat.toList_repr
    rw [isIntText, htext, if_neg hhead, hne, hdigits]
    rfl
  | negSucc m =>
    have htext : (Int.negSucc m).repr.toList = '-' :: Nat.toDigits 10 (m + 1) := by
      change ("-" ++ (m + 1).repr).toList = _
      rw [String.toList_append, Nat.toList_repr]
      rfl
    rw [isIntText, htext, List.head?_cons, if_pos rfl, List.tail_cons, hne, hdigits]
    rfl

/-- Every integer is a value for the two settings. -/
theorem validateValue_repr (n : Int) {defn : SettingDefinition} (h : defn.type = .int) :
    validateValue defn (.number n.repr) = .ok (.number n.repr) := by
  simp only [validateValue, h, isIntText_repr, if_true]

end LlmPort.Backend.RagLite
