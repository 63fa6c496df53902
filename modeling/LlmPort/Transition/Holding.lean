import Mathlib.Data.Finset.Card

/-!
# Who holds what

A finite relation between holders and resources, and how many hold a resource when one pair comes or
goes.
-/

namespace LlmPort.Transition

variable {η : Type*} {ρ : Type*} [DecidableEq η] [DecidableEq ρ]

/-- The pairs of a holder and a resource it holds. -/
abbrev Holding (η ρ : Type*) := Finset (η × ρ)

namespace Holding

variable {H : Holding η ρ} {x : η × ρ} {r : ρ}

def count (H : Holding η ρ) (r : ρ) : Nat := (H.filter (·.2 = r)).card

theorem count_insert (h : x ∉ H) : count (insert x H) r = count H r + if x.2 = r then 1 else 0 := by
  unfold count
  rw [Finset.filter_insert]
  split
  next => rw [Finset.card_insert_of_notMem fun hx => h (Finset.mem_of_mem_filter x hx)]
  next => rfl

theorem count_insert_le : count (insert x H) r ≤ count H r + if x.2 = r then 1 else 0 := by
  by_cases h : x ∈ H
  · rw [Finset.insert_eq_of_mem h]
    exact Nat.le_add_right _ _
  · exact (count_insert h).le

theorem count_erase (h : x ∈ H) : count (H.erase x) r + (if x.2 = r then 1 else 0) = count H r := by
  conv_rhs => rw [← Finset.insert_erase h]
  exact (count_insert (Finset.notMem_erase x H)).symm

theorem count_erase_eq (H : Holding η ρ) (x : η × ρ) (r : ρ) :
    (count (H.erase x) r : Int) = count H r - if x ∈ H ∧ x.2 = r then 1 else 0 := by
  by_cases h : x ∈ H
  · have hc := count_erase (r := r) h
    by_cases hr : x.2 = r <;> simp only [h, hr, if_true, if_false, true_and] at hc ⊢ <;> omega
  · simp [h]

end Holding

end LlmPort.Transition
