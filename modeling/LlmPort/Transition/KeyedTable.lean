import Mathlib.Data.Bool.Basic
import Mathlib.Data.List.Nodup

/-!
# Rows by key

A table as a list of rows whose keys differ, and the row of a key put in the place of the one there
is: how many rows of a kind there are then, and what a part of the table sees of it.
-/

namespace LlmPort.Transition

variable {ρ : Type*} {κ : Type*} [DecidableEq κ]
variable {key : ρ → κ} {row old x y : ρ} {l : List ρ} {p q : ρ → Bool}

/-- The row in the place of the rows of its key. -/
def replaceRow (key : ρ → κ) (row : ρ) (l : List ρ) : List ρ :=
  l.map fun x => if key x = key row then row else x

theorem replaceRow_cons : replaceRow key row (x :: l) =
    (if key x = key row then row else x) :: replaceRow key row l := rfl

@[simp] theorem map_replaceRow : (replaceRow key row l).map key = l.map key := by
  rw [replaceRow, List.map_map]
  refine List.map_congr_left fun x _ => ?_
  rw [Function.comp_apply]
  split
  next h => exact h.symm
  next => rfl

theorem replaceRow_of_not_mem (h : key row ∉ l.map key) : replaceRow key row l = l := by
  induction l with
  | nil => rfl
  | cons x l ih =>
    rw [List.map_cons, List.mem_cons, not_or] at h
    rw [replaceRow_cons, if_neg (Ne.symm h.1), ih h.2]

/-- One row is counted as another. -/
theorem countP_replaceRow (h : (l.map key).Nodup) (hold : old ∈ l) (hkey : key old = key row) :
    (replaceRow key row l).countP p + (p old).toNat = l.countP p + (p row).toNat := by
  induction l with
  | nil => cases hold
  | cons x l ih =>
    rw [List.map_cons, List.nodup_cons] at h
    rw [replaceRow_cons, List.countP_cons, List.countP_cons]
    obtain rfl | hold := List.mem_cons.1 hold
    · rw [if_pos hkey, replaceRow_of_not_mem (hkey ▸ h.1)]
      cases p old <;> cases p row <;> simp
    · have hne : key x ≠ key row := by
        intro heq
        rw [heq, ← hkey] at h
        exact h.1 (List.mem_map_of_mem hold)
      have htail := ih h.2 hold
      rw [if_neg hne]
      omega

/-- The others are counted without it. -/
theorem countP_other (h : (l.map key).Nodup) (hold : old ∈ l) :
    l.countP (fun x => p x && decide (key x ≠ key old)) + (p old).toNat = l.countP p := by
  induction l with
  | nil => cases hold
  | cons x l ih =>
    rw [List.map_cons, List.nodup_cons] at h
    rw [List.countP_cons, List.countP_cons]
    obtain rfl | hold := List.mem_cons.1 hold
    · have hrest : l.countP (fun x => p x && decide (key x ≠ key old)) = l.countP p := by
        refine List.countP_congr fun x hx => ?_
        have hne : key x ≠ key old := fun heq => h.1 (heq ▸ List.mem_map_of_mem hx)
        simp [hne]
      rw [hrest]
      cases p old <;> simp
    · have hne : key x ≠ key old := fun heq => h.1 (heq ▸ List.mem_map_of_mem hold)
      have htail := ih h.2 hold
      rw [decide_eq_true hne, Bool.and_true]
      omega

/-- The part of the table the row is in. -/
theorem filter_replaceRow (hrow : p row) (h : ∀ x ∈ l, key x = key row → p x) :
    (replaceRow key row l).filter p = replaceRow key row (l.filter p) := by
  induction l with
  | nil => rfl
  | cons x l ih =>
    have ih := ih fun y hy => h y (List.mem_cons_of_mem _ hy)
    rw [replaceRow_cons, List.filter_cons, List.filter_cons, ih]
    by_cases hkey : key x = key row
    · rw [if_pos hkey, if_pos hrow, if_pos (h x List.mem_cons_self hkey), replaceRow_cons,
        if_pos hkey]
    · rw [if_neg hkey]
      split
      next => rw [replaceRow_cons, if_neg hkey]
      next => rfl

/-- A part of the table the row is not in. -/
theorem filter_replaceRow_of_not (hrow : p row = false)
    (h : ∀ x ∈ l, key x = key row → p x = false) : (replaceRow key row l).filter p = l.filter p := by
  induction l with
  | nil => rfl
  | cons x l ih =>
    have ih := ih fun y hy => h y (List.mem_cons_of_mem _ hy)
    rw [replaceRow_cons, List.filter_cons, List.filter_cons, ih]
    by_cases hkey : key x = key row
    · rw [if_pos hkey, hrow, h x List.mem_cons_self hkey]
      rfl
    · rw [if_neg hkey]

/-- What a query that does not tell the row from the one it replaces finds. -/
theorem find?_replaceRow (hq : ∀ x ∈ l, key x = key row → q x = q row) :
    (replaceRow key row l).find? q =
      (l.find? q).map fun x => if key x = key row then row else x := by
  induction l with
  | nil => rfl
  | cons x l ih =>
    have ih := ih fun y hy => hq y (List.mem_cons_of_mem _ hy)
    have hx : q (if key x = key row then row else x) = q x := by
      split
      next hkey => exact (hq x List.mem_cons_self hkey).symm
      next => rfl
    rw [replaceRow_cons, List.find?_cons, List.find?_cons, hx, ih]
    cases q x <;> rfl

/-- The same for whether there is a row. -/
theorem any_replaceRow (hq : ∀ x ∈ l, key x = key row → q x = q row) :
    (replaceRow key row l).any q = l.any q := by
  rw [← List.isSome_find?, find?_replaceRow hq, Option.isSome_map, List.isSome_find?]

omit [DecidableEq κ] in
theorem nodup_map_snoc (h : (l.map key).Nodup) (hfresh : ∀ x ∈ l, key x ≠ key row) :
    ((l ++ [row]).map key).Nodup := by
  rw [List.map_append, List.map_singleton]
  refine List.nodup_append.2 ⟨h, List.nodup_singleton _, fun a ha b hb hab => ?_⟩
  obtain ⟨x, hx, rfl⟩ := List.mem_map.1 ha
  rw [List.mem_singleton] at hb
  exact hfresh x hx (hab.trans hb)

/-! ## Queries within a part of the table -/

theorem any_filter_of_imp (h : ∀ x ∈ l, q x → p x) : (l.filter p).any q = l.any q := by
  rw [Bool.eq_iff_iff, List.any_eq_true, List.any_eq_true]
  constructor
  · rintro ⟨x, hx, hq⟩
    exact ⟨x, List.mem_of_mem_filter hx, hq⟩
  · rintro ⟨x, hx, hq⟩
    exact ⟨x, List.mem_filter.2 ⟨hx, h x hx hq⟩, hq⟩

theorem filter_filter_of_imp (h : ∀ x ∈ l, q x → p x) : (l.filter p).filter q = l.filter q := by
  rw [List.filter_filter]
  refine List.filter_congr fun x hx => ?_
  cases hq : q x with
  | false => rfl
  | true => rw [h x hx hq, Bool.and_self]

theorem countP_filter_of_imp (h : ∀ x ∈ l, q x → p x) : (l.filter p).countP q = l.countP q := by
  rw [List.countP_eq_length_filter, filter_filter_of_imp h, List.countP_eq_length_filter]

theorem find?_filter_of_imp (h : ∀ x ∈ l, q x → p x) : (l.filter p).find? q = l.find? q := by
  rw [← List.head?_filter, filter_filter_of_imp h, List.head?_filter]

end LlmPort.Transition
