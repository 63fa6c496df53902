import Mathlib.Data.List.TakeWhile

/-!
# Patterns with backtracking

The ways in which a pattern matches at the start of a text, the preferred one first, as a
backtracking matcher goes through them, and all matches in a text. A way has what the groups
captured and the rest of the text. The rules compute the ways where a greedy run is followed by what
cannot start within the run, so that nothing is ever given back.
-/

namespace LlmPort.Text

inductive Pattern where
  | one (p : Char → Bool)
  /-- `[...]*` -/
  | many (p : Char → Bool)
  | seq (a b : Pattern)
  | alt (a b : Pattern)
  | group (a : Pattern)

namespace Pattern

variable {p q : Char → Bool} {a b : Pattern} {c : Char} {text cs captured rest : List Char}

def manyWays (p : Char → Bool) : List Char → List (List Char × List Char)
  | [] => [([], [])]
  | c :: cs => if p c then manyWays p cs ++ [([], c :: cs)] else [([], c :: cs)]

def ways : Pattern → List Char → List (List Char × List Char)
  | one p, text => match text with
    | [] => []
    | c :: cs => if p c then [([], cs)] else []
  | many p, text => manyWays p text
  | seq a b, text => (a.ways text).flatMap fun way =>
      (b.ways way.2).map fun more => (way.1 ++ more.1, more.2)
  | alt a b, text => a.ways text ++ b.ways text
  | group a, text => (a.ways text).map fun way =>
      (text.take (text.length - way.2.length), way.2)

/-- What the groups capture of each match, from the left on; for patterns that take something. -/
def findAll (pattern : Pattern) : List Char → List (List Char)
  | [] => []
  | c :: cs => match (pattern.ways (c :: cs)).head? with
    | none => pattern.findAll cs
    | some (captured, rest) =>
      if rest.length ≤ cs.length then captured :: pattern.findAll rest
      else captured :: pattern.findAll cs
termination_by text => text.length

theorem findAll_of_none (h : a.ways (c :: cs) = []) : a.findAll (c :: cs) = a.findAll cs := by
  rw [findAll, h]
  rfl

theorem findAll_of_some (h : (a.ways (c :: cs)).head? = some (captured, rest))
    (hrest : rest.length ≤ cs.length) : a.findAll (c :: cs) = captured :: a.findAll rest := by
  rw [findAll, h]
  exact if_pos hrest

@[simp] theorem ways_one_nil : (one p).ways [] = [] := rfl

theorem ways_one_of_pos (h : p c = true) : (one p).ways (c :: cs) = [([], cs)] := if_pos h

theorem ways_one_of_neg (h : p c = false) : (one p).ways (c :: cs) = [] :=
  if_neg (Bool.eq_false_iff.1 h)

theorem ways_one_of_head? (h : ∀ c ∈ text.head?, p c = false) : (one p).ways text = [] := by
  cases text with
  | nil => rfl
  | cons c cs => exact ways_one_of_neg (h c rfl)

theorem ways_one_seq (h : p c = true) : ((one p).seq b).ways (c :: cs) = b.ways cs := by
  rw [ways, ways_one_of_pos h, List.flatMap_singleton]
  exact List.map_id _

theorem ways_alt_of_nil (h : a.ways text = []) : (a.alt b).ways text = b.ways text := by
  rw [ways, h, List.nil_append]

theorem ways_seq_of_nil (h : a.ways text = []) : (a.seq b).ways text = [] := by
  rw [ways, h, List.flatMap_nil]

/-- A run is not cut short where what follows cannot start with a character of the run. -/
theorem flatMap_manyWays {β : Type} {f : List Char × List Char → List β}
    (hf : ∀ c cs, p c = true → f ([], c :: cs) = []) :
    (manyWays p text).flatMap f = f ([], text.dropWhile p) := by
  induction text with
  | nil => exact List.flatMap_singleton ..
  | cons c cs ih =>
    rw [manyWays]
    cases h : p c with
    | true =>
      rw [if_pos rfl, List.flatMap_append, ih, List.flatMap_singleton, hf c cs h, List.append_nil,
        List.dropWhile_cons_of_pos h]
    | false =>
      rw [if_neg Bool.false_ne_true, List.flatMap_singleton, List.dropWhile_cons_of_neg]
      rw [h]
      exact Bool.false_ne_true

theorem ways_many_seq (hb : ∀ c cs, p c = true → b.ways (c :: cs) = []) :
    ((many p).seq b).ways text = b.ways (text.dropWhile p) := by
  have hstop c cs (h : p c = true) :
      ((b.ways (c :: cs)).map fun more => (([] : List Char) ++ more.1, more.2)) = [] := by
    rw [hb c cs h, List.map_nil]
  rw [ways, ways, flatMap_manyWays hstop]
  exact List.map_id _

theorem take_length_sub_dropWhile (p : Char → Bool) (text : List Char) :
    text.take (text.length - (text.dropWhile p).length) = text.takeWhile p := by
  have hsplit := List.takeWhile_append_dropWhile (p := p) (l := text)
  have hlength := congrArg List.length hsplit
  rw [List.length_append] at hlength
  have hle : text.length - (text.dropWhile p).length = (text.takeWhile p).length := by omega
  rw [hle]
  calc text.take (text.takeWhile p).length
      = (text.takeWhile p ++ text.dropWhile p).take (text.takeWhile p).length := by rw [hsplit]
    _ = text.takeWhile p := List.take_left

theorem ways_group_many_seq (hb : ∀ c cs, p c = true → b.ways (c :: cs) = []) :
    ((group (many p)).seq b).ways text =
      (b.ways (text.dropWhile p)).map fun more => (text.takeWhile p ++ more.1, more.2) := by
  have hstop c cs (h : p c = true) :
      ((b.ways (c :: cs)).map fun more =>
        (text.take (text.length - (c :: cs).length) ++ more.1, more.2)) = [] := by
    rw [hb c cs h, List.map_nil]
  rw [ways, ways, ways, List.flatMap_map, flatMap_manyWays hstop, take_length_sub_dropWhile]

/-- A run that starts with a character of a kind of its own. -/
theorem ways_group_one_many_seq (hq : q c = true)
    (hb : ∀ c cs, p c = true → b.ways (c :: cs) = []) :
    ((group ((one q).seq (many p))).seq b).ways (c :: cs) =
      (b.ways (cs.dropWhile p)).map fun more => (c :: cs.takeWhile p ++ more.1, more.2) := by
  have hrun : ((one q).seq (many p)).ways (c :: cs) = manyWays p cs := by
    rw [ways_one_seq hq, ways]
  have hstop d ds (h : p d = true) :
      ((b.ways (d :: ds)).map fun more =>
        ((c :: cs).take ((c :: cs).length - (d :: ds).length) ++ more.1, more.2)) = [] := by
    rw [hb d ds h, List.map_nil]
  have htake : (c :: cs).take ((c :: cs).length - (cs.dropWhile p).length) =
      c :: cs.takeWhile p := by
    have hle := (List.dropWhile_suffix p (l := cs)).length_le
    rw [List.length_cons, Nat.succ_sub hle, List.take_succ_cons, take_length_sub_dropWhile]
  rw [ways, ways, hrun, List.flatMap_map, flatMap_manyWays hstop, htake]

theorem ways_group_one_seq_of_neg (hq : q c = false) :
    ((group ((one q).seq a)).seq b).ways (c :: cs) = [] := by
  refine ways_seq_of_nil ?_
  rw [ways, ways_seq_of_nil (ways_one_of_neg hq), List.map_nil]

end Pattern

end LlmPort.Text
