import Mathlib.Data.Bool.Basic
import Mathlib.Data.List.Basic

/-!
# Participants

A system that runs several programs keeps them in a list and sets the one that takes a step: how
many of them are in a phase, when one of them enters or leaves it.
-/

namespace LlmPort.Transition

variable {α : Type*} {p : α → Bool} {l : List α} {i j : Nat} {a b : α}

theorem countP_snoc : (l ++ [b]).countP p = l.countP p + (p b).toNat := by
  rw [List.countP_append, List.countP_singleton]
  cases p b <;> rfl

theorem countP_set_add (ha : l[i]? = some a) :
    (l.set i b).countP p + (p a).toNat = l.countP p + (p b).toNat := by
  induction l generalizing i with
  | nil => cases ha
  | cons x l ih =>
    rw [List.countP_cons]
    cases i with
    | zero =>
      cases ha
      rw [List.set_cons_zero, List.countP_cons]
      cases p a <;> cases p b <;> simp
    | succ i =>
      have htail := ih ha
      rw [List.set_cons_succ, List.countP_cons]
      omega

theorem countP_set_le (ha : l[i]? = some a) (h : p b → p a) : (l.set i b).countP p ≤ l.countP p := by
  have hset := countP_set_add (p := p) (b := b) ha
  have hle := Bool.toNat_le_toNat (Bool.le_iff_imp.2 h)
  omega

theorem countP_set_lt (ha : l[i]? = some a) (hpa : p a = true) (hpb : p b = false) :
    (l.set i b).countP p < l.countP p := by
  have hset := countP_set_add (p := p) (b := b) ha
  rw [hpa, hpb] at hset
  exact Nat.lt_of_succ_le (Nat.le_of_eq hset)

theorem countP_pos_of_getElem? (ha : l[i]? = some a) (hpa : p a) : 0 < l.countP p :=
  List.countP_pos_iff.2 ⟨a, List.mem_of_getElem? ha, hpa⟩

/-- Where at most one is in the phase, it is this one. -/
theorem eq_of_countP_le_one (hle : l.countP p ≤ 1) (ha : l[i]? = some a) (hpa : p a)
    (hb : l[j]? = some b) (hpb : p b) : i = j := by
  induction l generalizing i j with
  | nil => cases ha
  | cons x l ih =>
    rw [List.countP_cons] at hle
    cases i with
    | zero =>
      cases j with
      | zero => rfl
      | succ j =>
        cases ha
        have hpos := countP_pos_of_getElem? (l := l) hb hpb
        rw [if_pos hpa] at hle
        omega
    | succ i =>
      cases j with
      | zero =>
        cases hb
        have hpos := countP_pos_of_getElem? (l := l) ha hpa
        rw [if_pos hpb] at hle
        omega
      | succ j =>
        have hrest : l.countP p ≤ 1 := by omega
        rw [ih hrest ha hb]

theorem exists_mem_set {P : α → Prop} (ha : l[i]? = some a) (h : P a → P b)
    (hex : ∃ x ∈ l, P x) : ∃ x ∈ l.set i b, P x := by
  obtain ⟨x, hx, hPx⟩ := hex
  obtain ⟨k, hk⟩ := List.mem_iff_getElem?.1 hx
  by_cases hki : i = k
  · subst hki
    cases hk.symm.trans ha
    obtain ⟨hi, -⟩ := List.getElem?_eq_some_iff.1 ha
    exact ⟨b, List.mem_set hi b, h hPx⟩
  · exact ⟨x, List.mem_of_getElem? ((List.getElem?_set_ne hki).trans hk), hPx⟩

theorem forall_mem_set {P : α → Prop} (hall : ∀ x ∈ l, P x) (hb : P b) : ∀ x ∈ l.set i b, P x := by
  intro x hx
  obtain hx | rfl := List.mem_or_eq_of_mem_set hx
  · exact hall x hx
  · exact hb

end LlmPort.Transition
