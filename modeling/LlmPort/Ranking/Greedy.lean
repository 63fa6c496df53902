import Mathlib.Data.List.Induction
import Mathlib.Data.List.Sort

/-!
# Greedy selection along a ranking

The elements of a list are taken in the order of a ranking, ties in the order of the list, and each
is kept unless it clashes with one kept before. Elements that rank below all others come last, so
they never displace one of those.
-/

namespace LlmPort.Ranking

variable {α : Type*} {r : α → α → Prop} [DecidableRel r] {clash : α → α → Bool} {p : α → Bool}
  {a : α} {l l₁ l₂ : List α}

/-- One element is considered. -/
def consider (clash : α → α → Bool) (kept : List α) (a : α) : List α :=
  if kept.any (clash a) then kept else kept ++ [a]

/-- The selection from the list, best rank first. -/
def select (r : α → α → Prop) [DecidableRel r] (clash : α → α → Bool) (l : List α) : List α :=
  (l.insertionSort r).foldl (consider clash) []

theorem consider_prefix {kept : List α} : kept <+: consider clash kept a := by
  unfold consider
  split
  · exact List.prefix_rfl
  · exact List.prefix_append ..

theorem mem_consider {b : α} {kept : List α} (h : b ∈ kept) : b ∈ consider clash kept a :=
  consider_prefix.subset h

theorem foldl_consider_prefix {kept : List α} : kept <+: l.foldl (consider clash) kept := by
  induction l generalizing kept with
  | nil => exact List.prefix_rfl
  | cons a l ih => exact consider_prefix.trans ih

theorem mem_foldl_consider {kept : List α} (h : a ∈ l.foldl (consider clash) kept) :
    a ∈ kept ∨ a ∈ l := by
  induction l generalizing kept with
  | nil => exact .inl h
  | cons b l ih =>
    rcases ih h with hk | hl
    · unfold consider at hk
      split at hk
      · exact .inl hk
      · rcases List.mem_append.1 hk with hk | hk
        · exact .inl hk
        · exact .inr (List.mem_singleton.1 hk ▸ List.mem_cons_self)
    · exact .inr (List.mem_cons_of_mem _ hl)

theorem mem_of_mem_select (h : a ∈ select r clash l) : a ∈ l := by
  rcases mem_foldl_consider h with h | h
  · cases h
  · exact (List.mem_insertionSort r).1 h

theorem pairwise_foldl_consider {kept : List α} (h : kept.Pairwise fun a b => clash b a = false) :
    (l.foldl (consider clash) kept).Pairwise fun a b => clash b a = false := by
  induction l generalizing kept with
  | nil => exact h
  | cons b l ih =>
    apply ih
    unfold consider
    split
    next => exact h
    next hno =>
      refine List.pairwise_append.2 ⟨h, List.pairwise_singleton .., fun a ha c hc => ?_⟩
      rw [List.mem_singleton.1 hc]
      exact Bool.eq_false_iff.2 fun hclash => hno (List.any_eq_true.2 ⟨a, ha, hclash⟩)

/-- Nothing that is kept clashes with what was kept before. -/
theorem pairwise_select : (select r clash l).Pairwise fun a b => clash b a = false :=
  pairwise_foldl_consider List.Pairwise.nil

/-- A longer list of candidates is decided the same way up to the end of the shorter one. -/
theorem foldl_consider_of_prefix (h : l₁ <+: l₂) :
    l₁.foldl (consider clash) [] <+: l₂.foldl (consider clash) [] := by
  obtain ⟨l₃, rfl⟩ := h
  rw [List.foldl_append]
  exact foldl_consider_prefix

/-- Filtering commutes with inserting into a sorted list. -/
theorem filter_orderedInsert [IsTrans α r] (hl : l.Pairwise r) :
    (l.orderedInsert r a).filter p =
      if p a then (l.filter p).orderedInsert r a else l.filter p := by
  induction l with
  | nil => by_cases ha : p a <;> simp [ha]
  | cons b l ih =>
    have ih := ih hl.of_cons
    by_cases hab : r a b
    · rw [List.orderedInsert_cons_of_le _ _ hab]
      by_cases ha : p a
      · rw [List.filter_cons_of_pos ha, if_pos ha]
        -- `a` comes before everything that is left of the sorted list
        have hall : ∀ c ∈ (b :: l).filter p, r a c := by
          intro c hc
          rcases List.mem_cons.1 (List.mem_of_mem_filter hc) with rfl | hc
          · exact hab
          · exact IsTrans.trans _ _ _ hab (List.rel_of_pairwise_cons hl hc)
        cases hf : (b :: l).filter p with
        | nil => rfl
        | cons c t =>
          refine (List.orderedInsert_cons_of_le _ _ ?_).symm
          exact hall c (hf ▸ List.mem_cons_self)
      · rw [List.filter_cons_of_neg ha, if_neg ha]
    · rw [List.orderedInsert_of_not_le _ _ hab]
      by_cases hb : p b
      · rw [List.filter_cons_of_pos hb, List.filter_cons_of_pos hb, ih]
        split
        next => rw [List.orderedInsert_of_not_le _ _ hab]
        next => rfl
      · rw [List.filter_cons_of_neg hb, List.filter_cons_of_neg hb, ih]

theorem filter_insertionSort [Std.Total r] [IsTrans α r] :
    (l.insertionSort r).filter p = (l.filter p).insertionSort r := by
  induction l with
  | nil => rfl
  | cons a l ih =>
    rw [List.insertionSort_cons, filter_orderedInsert (List.pairwise_insertionSort r l), ih]
    by_cases ha : p a
    · rw [if_pos ha, List.filter_cons_of_pos ha, List.insertionSort_cons]
    · rw [if_neg ha, List.filter_cons_of_neg ha]

omit [DecidableRel r] in
/-- In a sorted list, what ranks high comes first. -/
theorem filter_prefix_of_pairwise (hp : ∀ a b, r a b → p b → p a) (hl : l.Pairwise r) :
    l.filter p <+: l := by
  induction l with
  | nil => exact List.prefix_rfl
  | cons a l ih =>
    by_cases ha : p a
    · rw [List.filter_cons_of_pos ha, List.prefix_cons_inj]
      exact ih hl.of_cons
    · have hnil : (a :: l).filter p = [] := by
        rw [List.filter_eq_nil_iff]
        intro b hb
        rcases List.mem_cons.1 hb with rfl | hb
        · exact ha
        · exact fun h => ha (hp a b (List.rel_of_pairwise_cons hl hb) h)
      rw [hnil]
      exact List.nil_prefix

/-- What ranks low displaces nothing that ranks high. -/
theorem select_filter_prefix [Std.Total r] [IsTrans α r] (hp : ∀ a b, r a b → p b → p a) :
    select r clash (l.filter p) <+: select r clash l := by
  unfold select
  rw [← filter_insertionSort]
  exact foldl_consider_of_prefix
    (filter_prefix_of_pairwise hp (List.pairwise_insertionSort r l))

/-! ## Winners -/

section
variable {W W' : α → Prop} {kept : List α}

/-- An element wins exactly if it clashes with no winner that comes before it. -/
def Wins (clash : α → α → Bool) (l : List α) (W : α → Prop) : Prop :=
  ∀ before a after, l = before ++ a :: after → a ∉ before →
    (W a ↔ ∀ b ∈ before, W b → clash a b = false)

theorem Wins.of_append (h : Wins clash (l₁ ++ l₂) W) : Wins clash l₁ W := by
  intro before a after hl hnew
  exact h before a (after ++ l₂) (by simp [hl]) hnew

/-- There is one way to win. -/
theorem Wins.iff (h : Wins clash l W) (h' : Wins clash l W') (ha : a ∈ l) : W a ↔ W' a := by
  induction l using List.reverseRec generalizing a with
  | nil => cases ha
  | append_singleton l b ih =>
    by_cases hmem : a ∈ l
    · exact ih h.of_append h'.of_append hmem
    · obtain rfl : a = b :=
        List.mem_singleton.1 ((List.mem_append.1 ha).resolve_left hmem)
      rw [h l a [] rfl hmem, h' l a [] rfl hmem]
      refine forall₂_congr fun c hc => ?_
      rw [ih h.of_append h'.of_append hc]

/-- What clashes with an element that is kept is not kept any more. -/
theorem not_mem_foldl_consider {b : α} (hb : b ∈ kept) (hclash : clash a b = true)
    (ha : a ∉ kept) : a ∉ l.foldl (consider clash) kept := by
  induction l generalizing kept with
  | nil => exact ha
  | cons c l ih =>
    apply ih (mem_consider hb)
    unfold consider
    split
    next => exact ha
    next hno =>
      intro hmem
      rcases List.mem_append.1 hmem with hmem | hmem
      · exact ha hmem
      · obtain rfl := List.mem_singleton.1 hmem
        exact hno (List.any_eq_true.2 ⟨b, hb, hclash⟩)

/-- What is not kept clashes with something that is. -/
theorem mem_or_clash (ha : a ∈ l) :
    a ∈ l.foldl (consider clash) [] ∨ ∃ b ∈ l.foldl (consider clash) [], clash a b = true := by
  induction l using List.reverseRec with
  | nil => cases ha
  | append_singleton l c ih =>
    rw [List.foldl_append, List.foldl_cons, List.foldl_nil]
    rcases List.mem_append.1 ha with ha | ha
    · rcases ih ha with hkept | ⟨b, hb, hclash⟩
      · exact .inl (mem_consider hkept)
      · exact .inr ⟨b, mem_consider hb, hclash⟩
    · obtain rfl := List.mem_singleton.1 ha
      unfold consider
      split
      next hany => exact .inr (List.any_eq_true.1 hany)
      next => exact .inl (List.mem_append_right _ (List.mem_singleton_self _))

/-- What has been considered is decided. -/
theorem mem_foldl_append_iff (ha : a ∈ l₁) :
    a ∈ (l₁ ++ l₂).foldl (consider clash) [] ↔ a ∈ l₁.foldl (consider clash) [] := by
  rw [List.foldl_append]
  constructor
  · intro hmem
    rcases mem_or_clash ha with hkept | ⟨b, hb, hclash⟩
    · exact hkept
    · by_contra hno
      exact not_mem_foldl_consider hb hclash hno hmem
  · exact fun hkept => foldl_consider_prefix.subset hkept

/-- The selection holds the winners of the ranking. -/
theorem wins_select (r : α → α → Prop) [DecidableRel r] (clash : α → α → Bool) (l : List α) :
    Wins clash (l.insertionSort r) (· ∈ select r clash l) := by
  intro before a after hl hnew
  have hbefore : ∀ b ∈ before, b ∈ select r clash l ↔ b ∈ before.foldl (consider clash) [] := by
    intro b hb
    rw [select, hl]
    exact mem_foldl_append_iff hb
  have hlast : a ∈ select r clash l ↔ a ∈ consider clash (before.foldl (consider clash) []) a := by
    have hsplit : before ++ a :: after = (before ++ [a]) ++ after := by simp
    rw [select, hl, hsplit, mem_foldl_append_iff (by simp), List.foldl_append]
    rfl
  refine hlast.trans ?_
  unfold consider
  split
  next hany =>
    obtain ⟨b, hb, hclash⟩ := List.any_eq_true.1 hany
    have hmem : b ∈ before := (mem_foldl_consider hb).resolve_left List.not_mem_nil
    refine iff_of_false (fun ha => hnew ((mem_foldl_consider ha).resolve_left List.not_mem_nil)) ?_
    intro h
    have hno := h b hmem ((hbefore b hmem).2 hb)
    rw [hclash] at hno
    cases hno
  next hno =>
    refine iff_of_true (List.mem_append_right _ (List.mem_singleton_self _)) fun b hb hkept => ?_
    exact Bool.eq_false_iff.2 fun hclash =>
      hno (List.any_eq_true.2 ⟨b, (hbefore b hb).1 hkept, hclash⟩)

end

end LlmPort.Ranking
