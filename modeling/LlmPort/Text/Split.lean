import Mathlib.Data.List.DropRight
import Mathlib.Data.List.Infix

/-!
# Trimming and splitting texts

`trim` drops what surrounds a text, `breakOn` cuts a text at the first occurrence of a separator,
both over any alphabet.
-/

namespace LlmPort.Text

variable {α : Type*}

/-! ## Trimming -/

section
variable {p : α → Bool} {l r m : List α} {a : α}

/-- Without the leading and the trailing symbols of a kind. -/
def trim (p : α → Bool) (l : List α) : List α := (l.dropWhile p).rdropWhile p

theorem trim_append_of_all (h : ∀ a ∈ l, p a) : trim p (l ++ r) = trim p r := by
  rw [trim, List.dropWhile_append_of_pos h, trim]

theorem rdropWhile_append_of_all (h : ∀ a ∈ r, p a) :
    (l ++ r).rdropWhile p = l.rdropWhile p := by
  rw [List.rdropWhile, List.reverse_append, List.dropWhile_append_of_pos (by simpa using h)]
  rfl

theorem rdropWhile_cons_of_neg (h : p a = false) :
    (a :: l).rdropWhile p = a :: l.rdropWhile p := by
  induction l using List.reverseRecOn with
  | nil => simp [List.rdropWhile_singleton, h]
  | append_singleton l b ih =>
    rw [← List.cons_append, List.rdropWhile_concat, List.rdropWhile_concat]
    split
    next => exact ih
    next => rfl

theorem trim_cons_of_neg (h : p a = false) : trim p (a :: l) = a :: l.rdropWhile p := by
  rw [trim, List.dropWhile_cons_of_neg (by simp [h]), rdropWhile_cons_of_neg h]

theorem rdropWhile_append_cons (h : p a = false) :
    (l ++ a :: r).rdropWhile p = l ++ a :: r.rdropWhile p := by
  induction r using List.reverseRecOn with
  | nil => rw [List.rdropWhile_nil, List.rdropWhile_concat_neg _ _ _ (by simp [h])]
  | append_singleton r b ih =>
    rw [← List.cons_append, ← List.append_assoc, List.rdropWhile_concat, List.rdropWhile_concat]
    split
    next => exact ih
    next => simp

theorem dropWhile_append_cons (h : p a = false) :
    (l ++ a :: r).dropWhile p = l.dropWhile p ++ a :: r := by
  induction l with
  | nil => rw [List.nil_append, List.dropWhile_cons_of_neg (by simp [h])]; rfl
  | cons b l ih =>
    rw [List.cons_append, List.dropWhile_cons, List.dropWhile_cons]
    split
    next => exact ih
    next => rfl

theorem takeWhile_append_cons (h : p a = false) :
    (l ++ a :: r).takeWhile p = l.takeWhile p := by
  induction l with
  | nil => rw [List.nil_append, List.takeWhile_cons_of_neg (by simp [h]), List.takeWhile_nil]
  | cons b l ih =>
    rw [List.cons_append, List.takeWhile_cons, List.takeWhile_cons]
    split
    next => rw [ih]
    next => rfl

/-- A symbol that stays, and what surrounds it. -/
theorem trim_append_cons (h : p a = false) :
    trim p (l ++ a :: r) = l.dropWhile p ++ a :: r.rdropWhile p := by
  rw [trim, dropWhile_append_cons h, rdropWhile_append_cons h]

theorem dropWhile_rdropWhile_comm : (l.rdropWhile p).dropWhile p = trim p l := by
  by_cases hl : ∀ b ∈ l, p b
  · rw [List.rdropWhile_eq_nil_iff.2 hl, trim, List.dropWhile_eq_nil_iff.2 hl]
    rfl
  · push Not at hl
    obtain ⟨b, hb, hpb⟩ := hl
    obtain ⟨s, t, rfl⟩ := List.append_of_mem hb
    have hpb : p b = false := by simpa using hpb
    rw [rdropWhile_append_cons hpb, dropWhile_append_cons hpb, trim_append_cons hpb]

@[simp] theorem trim_trim : trim p (trim p l) = trim p l := by
  have hinner : (trim p l).rdropWhile p = trim p l := List.rdropWhile_idempotent p _
  rw [← dropWhile_rdropWhile_comm, hinner, ← dropWhile_rdropWhile_comm,
    List.dropWhile_idempotent]

theorem rdropWhile_eq_of_trim_eq (h : trim p l = l) : l.rdropWhile p = l := by
  rw [← h]
  exact List.rdropWhile_idempotent p _

/-- Symbols that go, around a text. -/
theorem trim_surrounded (hl : ∀ a ∈ l, p a) (hr : ∀ a ∈ r, p a) :
    trim p (l ++ (m ++ r)) = trim p m := by
  rw [trim_append_of_all hl, ← dropWhile_rdropWhile_comm, rdropWhile_append_of_all hr,
    dropWhile_rdropWhile_comm]

end

/-! ## Splitting -/

section
variable [DecidableEq α] {sep l r p q : List α} {a : α}

/-- What stands before and after the first occurrence. -/
def breakOn (sep : List α) : List α → Option (List α × List α)
  | [] => if sep = [] then some ([], []) else none
  | a :: l =>
    if sep <+: a :: l then some ([], (a :: l).drop sep.length)
    else (breakOn sep l).map fun (before, after) => (a :: before, after)

theorem breakOn_at_start (h : sep <+: l) : breakOn sep l = some ([], l.drop sep.length) := by
  cases l with
  | nil => simp [breakOn, List.prefix_nil.1 h]
  | cons a l => rw [breakOn, if_pos h]

theorem breakOn_cons_of_not (h : ¬ sep <+: a :: l) :
    breakOn sep (a :: l) = (breakOn sep l).map fun (before, after) => (a :: before, after) := by
  rw [breakOn, if_neg h]

theorem infix_of_breakOn (h : breakOn sep l = some (p, q)) : sep <:+: l := by
  induction l generalizing p q with
  | nil =>
    rw [breakOn] at h
    split at h
    next hsep => rw [hsep]
    next => cases h
  | cons a l ih =>
    by_cases hp : sep <+: a :: l
    · exact hp.isInfix
    · rw [breakOn_cons_of_not hp] at h
      obtain ⟨⟨before, after⟩, hb, -⟩ := Option.map_eq_some_iff.1 h
      exact (ih hb).trans (List.suffix_cons a l).isInfix

/-- More text behind the first occurrence. -/
theorem breakOn_append (h : breakOn sep l = some (p, q)) :
    breakOn sep (l ++ r) = some (p, q ++ r) := by
  induction l generalizing p with
  | nil =>
    rw [breakOn] at h
    split at h
    next hsep =>
      cases h
      rw [hsep, breakOn_at_start List.nil_prefix]
      rfl
    next => cases h
  | cons a l ih =>
    by_cases hp : sep <+: a :: l
    · rw [breakOn_at_start hp] at h
      cases h
      rw [breakOn_at_start (hp.trans (List.prefix_append _ r)),
        List.drop_append_of_le_length hp.length_le]
    · rw [breakOn_cons_of_not hp] at h
      obtain ⟨⟨before, after⟩, hb, hpq⟩ := Option.map_eq_some_iff.1 h
      cases hpq
      -- a prefix of the longer text that fits into `l` would be one of the shorter text
      have hlen : sep.length ≤ (a :: l).length :=
        ((infix_of_breakOn hb).trans (List.suffix_cons a l).isInfix).length_le
      have hp' : ¬ sep <+: a :: (l ++ r) := by
        intro hlong
        exact hp (List.prefix_of_prefix_length_le hlong (List.prefix_append (a :: l) r) hlen)
      rw [List.cons_append, breakOn_cons_of_not hp', ih hb]
      rfl

theorem exists_breakOn (h : sep <:+: l) : ∃ p q, breakOn sep l = some (p, q) := by
  induction l with
  | nil => exact ⟨[], [], by rw [breakOn, if_pos (List.infix_nil.1 h)]⟩
  | cons a l ih =>
    by_cases hp : sep <+: a :: l
    · exact ⟨_, _, breakOn_at_start hp⟩
    · obtain ⟨p, q, hpq⟩ := ih ((List.infix_cons_iff.1 h).resolve_left hp)
      exact ⟨a :: p, q, by rw [breakOn_cons_of_not hp, hpq]; rfl⟩

/-- A separator after a text that holds none, where none starts in the text and runs over its
end. -/
theorem breakOn_append_sep (h : ∀ k < l.length, ¬ sep <+: (l ++ (sep ++ r)).drop k) :
    breakOn sep (l ++ (sep ++ r)) = some (l, r) := by
  induction l with
  | nil =>
    rw [List.nil_append, breakOn_at_start (List.prefix_append sep r), List.drop_left]
  | cons a l ih =>
    have h0 : ¬ sep <+: a :: (l ++ (sep ++ r)) := h 0 (Nat.succ_pos _)
    have htail := ih fun k hk => h (k + 1) (Nat.succ_lt_succ hk)
    rw [List.cons_append, breakOn_cons_of_not h0, htail]
    rfl

omit [DecidableEq α] in
/-- An occurrence that starts in a text and does not contain the symbol behind the text lies in
the text. -/
theorem infix_of_start (ha : a ∉ sep) {k : Nat} (hk : k ≤ l.length)
    (h : sep <+: (l ++ a :: r).drop k) : sep <:+: l := by
  rw [List.drop_append_of_le_length hk] at h
  have hin : sep <+: l.drop k := by
    rcases Nat.le_total sep.length (l.drop k).length with hle | hle
    · exact List.prefix_of_prefix_length_le h (List.prefix_append _ _) hle
    · obtain ⟨t, ht⟩ := List.prefix_of_prefix_length_le (List.prefix_append (l.drop k) (a :: r))
        h hle
      cases t with
      | nil => rw [← ht, List.append_nil]
      | cons b t =>
        rw [← ht, List.prefix_append_right_inj, List.cons_prefix_cons] at h
        exact (ha (by rw [← ht, h.1]; simp)).elim
  exact hin.isInfix.trans (List.drop_suffix k l).isInfix

end

end LlmPort.Text
