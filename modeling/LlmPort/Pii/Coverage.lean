import LlmPort.Pii.Tokenize

/-!
# What a tokenized text still says

`_tokenize_text` of `services/pii/service.py` over a text whose characters know their positions, so
that one sees which of them are left. Redaction replaces all that the analyzer finds; tokenization
first drops the results that overlap with a better one, wherever they go beyond it.
-/

namespace LlmPort.Pii

open Ranking

/-- A character with its position in the text, if it is from there. -/
abbrev Marked := Option Nat × Char

def marks (text : List Char) : List Marked := text.zipIdx.map fun (c, i) => (some i, c)

/-- `chars[r.start : r.end] = list(token)` -/
def Span.splice {α : Type} (x : Span) (chars token : List α) : List α :=
  chars.take x.start ++ (token ++ chars.drop x.stop)

/-- `_tokenize_text` over the marked text. -/
def tokenizeMarked (seg : Segment) (st : TokenState) : List Marked :=
  (seg.kept.foldl (fun (chars, st) r =>
    let (token, st) := TokenState.tokenFor st r.entityType (r.slice seg.text)
    (r.splice chars (token.map (none, ·)), st)) (marks seg.text, st)).1

instance (x : Span) (position : Nat) : Decidable (x.Has position) :=
  inferInstanceAs (Decidable (_ ∧ _))

/-- No result has the position. -/
def untouched (rs : List RecognizerResult) (position : Nat) : Bool :=
  rs.all fun r => ¬ r.toSpan.Has position

/-- The characters of the text that are left in its tokenized form are those outside all results, in
their order. -/
structure Segment.Covered (seg : Segment) (st : TokenState) : Prop where
  text : (tokenizeMarked seg st).map (·.2) = (tokenizeText seg st).1
  unchanged : ∀ position c, (some position, c) ∈ tokenizeMarked seg st →
    seg.text[position]? = some c
  left : (tokenizeMarked seg st).filterMap (·.1) =
    (List.range seg.text.length).filter (untouched seg.results)

section
variable {seg : Segment} {st : TokenState} {text : List Char} {rs : List RecognizerResult}
  {stop position : Nat}

theorem untouched_eq_true : untouched rs position = true ↔ ∀ r ∈ rs, ¬ r.toSpan.Has position := by
  simp [untouched]

theorem map_marks : (marks text).map (·.2) = text := by
  simp [marks, Function.comp_def]

theorem map_fst_marks : (marks text).map (·.1) = (List.range text.length).map some := by
  have hindex : text.zipIdx.map Prod.snd = List.range text.length := by
    rw [List.zipIdx_map_snd, List.range_eq_range']
  rw [← hindex, marks, List.map_map, List.map_map]
  rfl

theorem map_splice {α β : Type} (f : α → β) (x : Span) (chars token : List α) :
    (x.splice chars token).map f = x.splice (chars.map f) (token.map f) := by
  simp [Span.splice, List.map_take, List.map_drop]

/-- The marks do not matter to what is replaced. -/
theorem map_foldl_splice (chars : List Marked) :
    (rs.foldl (fun (chars, st) r =>
      let (token, st) := TokenState.tokenFor st r.entityType (r.slice text)
      (r.splice chars (token.map (none, ·)), st)) (chars, st)).1.map (·.2) =
    (rs.foldl (fun (chars, st) r =>
      let (token, st) := TokenState.tokenFor st r.entityType (r.slice text)
      (r.put chars token, st)) (chars.map (·.2), st)).1 := by
  induction rs generalizing chars st with
  | nil => rfl
  | cons r rs ih =>
    rw [List.foldl_cons, List.foldl_cons]
    dsimp only
    rw [ih, map_splice]
    simp [Span.splice, Span.put, Function.comp_def]

theorem map_tokenizeMarked : (tokenizeMarked seg st).map (·.2) = (tokenizeText seg st).1 := by
  rw [tokenizeMarked, map_foldl_splice, map_marks, tokenizeText]
  split
  next hnone =>
    have hkept : seg.kept = [] := by
      rw [Segment.kept, hnone]
      rfl
    rw [hkept]
    rfl
  next => rfl

/-- A mark is on the character of the text that is at its position. -/
def Faithful (text : List Char) (chars : List Marked) : Prop :=
  ∀ position c, (some position, c) ∈ chars → text[position]? = some c

theorem faithful_marks : Faithful text (marks text) := by
  intro position c h
  obtain ⟨⟨c', i⟩, hmem, heq⟩ := List.mem_map.1 h
  obtain ⟨hi, rfl⟩ := Prod.mk.inj heq
  obtain rfl := Option.some.inj hi
  exact List.mem_zipIdx_iff_getElem?.1 hmem

theorem Faithful.splice {chars : List Marked} {token : List Char} {x : Span}
    (h : Faithful text chars) : Faithful text (x.splice chars (token.map (none, ·))) := by
  intro position c hmem
  rcases List.mem_append.1 hmem with hmem | hmem
  · exact h position c (List.mem_of_mem_take hmem)
  · rcases List.mem_append.1 hmem with hmem | hmem
    · obtain ⟨_, -, heq⟩ := List.mem_map.1 hmem
      cases heq
    · exact h position c (List.mem_of_mem_drop hmem)

theorem faithful_tokenizeMarked : Faithful seg.text (tokenizeMarked seg st) := by
  have hloop {rs : List RecognizerResult} {chars : List Marked} {st : TokenState}
      (h : Faithful seg.text chars) : Faithful seg.text (rs.foldl (fun (chars, st) r =>
        let (token, st) := TokenState.tokenFor st r.entityType (r.slice seg.text)
        (r.splice chars (token.map (none, ·)), st)) (chars, st)).1 := by
    induction rs generalizing chars st with
    | nil => exact h
    | cons r rs ih => exact ih h.splice
  exact hloop faithful_marks

/-- Of the stretch up to `stop`, the positions outside the results are those before the last result,
outside the others, and those behind it. -/
theorem filter_untouched {r : RecognizerResult} (h : Descends text stop (r :: rs)) :
    (List.range stop).filter (untouched (r :: rs)) =
      (List.range r.start).filter (untouched rs) ++
        (List.range' r.stop (stop - r.stop)) := by
  obtain ⟨hlt, hle⟩ := h.2.1 r List.mem_cons_self
  have hrest := h.tail
  have hbehind : ∀ r' ∈ rs, r'.stop ≤ r.start := fun r' hr' => (hrest.2.1 r' hr').2
  have hsplit : List.range stop = List.range r.start ++
      (List.range' r.start (r.stop - r.start) ++ List.range' r.stop (stop - r.stop)) := by
    have hinner : List.range' r.start (r.stop - r.start) ++ List.range' r.stop (stop - r.stop) =
        List.range' r.start (stop - r.start) := by
      have happend := @List.range'_append_1 r.start (r.stop - r.start) (stop - r.stop)
      rwa [Nat.add_sub_cancel' hlt.le, Nat.add_comm, Nat.sub_add_sub_cancel hle hlt.le] at happend
    have houter : List.range' 0 r.start ++ List.range' r.start (stop - r.start) =
        List.range' 0 stop := by
      have happend := @List.range'_append_1 0 r.start (stop - r.start)
      rwa [Nat.zero_add, Nat.add_sub_cancel' (hlt.le.trans hle)] at happend
    rw [List.range_eq_range', List.range_eq_range', hinner, houter]
  have hbefore : (List.range r.start).filter (untouched (r :: rs)) =
      (List.range r.start).filter (untouched rs) := by
    refine List.filter_congr fun i hi => ?_
    have hlt := List.mem_range.1 hi
    have hno : ¬ r.toSpan.Has i := fun hhas => Nat.not_le.2 hlt hhas.1
    simp [untouched, hno]
  have hin : (List.range' r.start (r.stop - r.start)).filter (untouched (r :: rs)) = [] := by
    refine List.filter_eq_nil_iff.2 fun i hi => ?_
    obtain ⟨hge, hlt⟩ := List.mem_range'_1.1 hi
    have hhas : r.toSpan.Has i := ⟨hge, by omega⟩
    rw [untouched_eq_true]
    exact fun h => h r List.mem_cons_self hhas
  have hafter : (List.range' r.stop (stop - r.stop)).filter (untouched (r :: rs)) =
      List.range' r.stop (stop - r.stop) := by
    refine List.filter_eq_self.2 fun i hi => ?_
    have hge := (List.mem_range'_1.1 hi).1
    refine untouched_eq_true.2 fun r' hr' hhas => ?_
    rcases List.mem_cons.1 hr' with rfl | hr'
    · exact Nat.not_le.2 hhas.2 hge
    · have hle := hbehind r' hr'
      have := hhas.2
      omega
  rw [hsplit, List.filter_append, List.filter_append, hbefore, hin, hafter, List.nil_append]

/-- The positions of a stretch of the text. -/
theorem positions_marks (start : Nat) (h : stop ≤ text.length) :
    (((marks text).take stop).drop start).filterMap (·.1) =
      List.range' start (stop - start) := by
  have hmap : (((marks text).take stop).drop start).map (·.1) =
      (List.range' start (stop - start)).map some := by
    rw [List.map_drop, List.map_take, map_fst_marks, ← List.map_take, ← List.map_drop,
      List.take_range, Nat.min_eq_left h, List.range_eq_range', List.drop_range']
    simp
  have hfilter : (((marks text).take stop).drop start).filterMap (·.1) =
      ((((marks text).take stop).drop start).map (·.1)).filterMap id := by
    rw [List.filterMap_map]
    rfl
  rw [hfilter, hmap, List.filterMap_map]
  exact List.filterMap_some

/-- What is left of the text up to `stop`, with what has been replaced behind it. -/
theorem left_foldl_splice (h : Descends text stop rs) (tail : List Marked) (st : TokenState) :
    (rs.foldl (fun (chars, st) r =>
      let (token, st) := TokenState.tokenFor st r.entityType (r.slice text)
      (r.splice chars (token.map (none, ·)), st))
        ((marks text).take stop ++ tail, st)).1.filterMap (·.1) =
      (List.range stop).filter (untouched rs) ++ tail.filterMap (·.1) := by
  induction rs generalizing stop tail st with
  | nil =>
    have hstart := positions_marks 0 h.1
    rw [List.drop_zero, Nat.sub_zero, ← List.range_eq_range'] at hstart
    have hall : (List.range stop).filter (untouched []) = List.range stop :=
      List.filter_eq_self.2 fun _ _ => rfl
    rw [List.foldl_nil, List.filterMap_append, hstart, hall]
  | cons r rs ih =>
    obtain ⟨hlt, hle⟩ := h.2.1 r List.mem_cons_self
    have hlength : ((marks text).take stop).length = stop := by
      simp [marks, h.1]
    have hsplice (token : List Char) :
        r.splice ((marks text).take stop ++ tail) (token.map (none, ·)) =
          (marks text).take r.start ++
            (token.map (none, ·) ++ (((marks text).take stop).drop r.stop ++ tail)) := by
      have hstart : r.start ≤ stop := hlt.le.trans hle
      rw [Span.splice, List.take_append_of_le_length (hlength.symm ▸ hstart),
        List.drop_append_of_le_length (hlength.symm ▸ hle), List.take_take,
        Nat.min_eq_left hstart]
    have htoken (token : List Char) :
        (token.map fun c => ((none, c) : Marked)).filterMap (·.1) = [] := by
      simp
    rw [List.foldl_cons]
    dsimp only
    rw [hsplice, ih h.tail, filter_untouched h, List.filterMap_append, List.filterMap_append,
      htoken, positions_marks _ h.1, List.nil_append, List.append_assoc]

theorem left_tokenizeMarked (seg : Segment) (st : TokenState) : (tokenizeMarked seg st).filterMap (·.1) =
    (List.range seg.text.length).filter (untouched seg.kept) := by
  have h := left_foldl_splice seg.descends [] st
  have hall : (marks seg.text).take seg.text.length = marks seg.text :=
    List.take_of_length_le (by simp [marks])
  rw [hall, List.append_nil, List.filterMap_nil, List.append_nil] at h
  exact h

theorem mem_kept_iff {r : RecognizerResult} : r ∈ seg.kept ↔ r ∈ nonOverlapping seg.results :=
  List.mem_insertionSort _

/-- Nothing that the analyzer found is left exactly if what wins covers the rest. A result wins if
it overlaps no winner that ranks before it, by score, then by length, then by its place in the
analyzer's answer. -/
theorem covered_iff (seg : Segment) (st : TokenState) :
    seg.Covered st ↔ ∃ W : RecognizerResult → Prop,
      Wins overlaps (seg.results.insertionSort ranksBefore) W ∧
      ∀ r ∈ seg.results, ∀ position, r.toSpan.Has position →
        ∃ w ∈ seg.results, W w ∧ w.toSpan.Has position := by
  have hleft : seg.Covered st ↔ (List.range seg.text.length).filter (untouched seg.kept) =
      (List.range seg.text.length).filter (untouched seg.results) := by
    rw [← left_tokenizeMarked seg st]
    exact ⟨fun h => h.left, fun h => ⟨map_tokenizeMarked, faithful_tokenizeMarked, h⟩⟩
  rw [hleft]
  constructor
  · intro h
    refine ⟨_, wins_select ranksBefore overlaps seg.results, fun r hr position hhas => ?_⟩
    have hlt : position < seg.text.length := hhas.2.trans_le (seg.valid r hr).2
    have hfound : position ∉ (List.range seg.text.length).filter (untouched seg.results) := by
      intro hmem
      exact untouched_eq_true.1 (List.mem_filter.1 hmem).2 r hr hhas
    rw [← h, List.mem_filter, untouched_eq_true] at hfound
    obtain ⟨w, hw, hhas⟩ : ∃ w ∈ seg.kept, w.toSpan.Has position := by
      by_contra hno
      push Not at hno
      exact hfound ⟨List.mem_range.2 hlt, hno⟩
    have hkept := mem_kept_iff.1 hw
    exact ⟨w, mem_of_mem_select hkept, hkept, hhas⟩
  · rintro ⟨W, hwins, hcover⟩
    refine List.filter_congr fun position _ => ?_
    rw [Bool.eq_iff_iff, untouched_eq_true, untouched_eq_true]
    constructor
    · intro hno r hr hhas
      obtain ⟨w, hw, hwin, hhas⟩ := hcover r hr position hhas
      have hkept := (hwins.iff (wins_select ranksBefore overlaps seg.results)
        ((List.mem_insertionSort _).2 hw)).1 hwin
      exact hno w (mem_kept_iff.2 hkept) hhas
    · intro hno w hw hhas
      exact hno w (mem_of_mem_select (mem_kept_iff.1 hw)) hhas

end

/-- Of two results that overlap in part, the longer is replaced, and the rest of the other left. -/
theorem not_covered_overlap : ¬ ∀ (seg : Segment) (st : TokenState), seg.Covered st := by
  intro h
  have hleft := (h ⟨"Ann Lee".toList,
    [⟨⟨0, 3⟩, "PERSON", 1⟩, ⟨⟨2, 7⟩, "LOCATION", 1⟩], by decide⟩ .empty).left
  revert hleft
  decide

end LlmPort.Pii
