import Mathlib.Algebra.Ring.Int.Defs

/-!
# Counters with a limit

Amounts are added to one counter, one after the other, and each is told whether the counter is
still within a limit. What is told no stays counted.
-/

namespace LlmPort.Transition

/-- What a counter at `total` shows after each of the amounts. -/
def totals (total : Int) : List Int → List Int
  | [] => []
  | a :: as => (total + a) :: totals (total + a) as

variable {α : Type*} {amount current : α → Int} {limit total : Int} {xs : List α}

theorem totals_concat {amounts : List Int} {a : Int} :
    totals total (amounts ++ [a]) = totals total amounts ++ [total + amounts.sum + a] := by
  induction amounts generalizing total with
  | nil => simp [totals]
  | cons b amounts ih =>
    rw [List.cons_append, totals, totals, ih, List.sum_cons, List.cons_append, Int.add_assoc total]

/-- The amounts that are told yes stay within what is left of the limit. -/
theorem sum_within_le (hamount : ∀ x ∈ xs, 0 ≤ amount x)
    (h : xs.map current = totals total (xs.map amount)) :
    ((xs.filter (current · ≤ limit)).map amount).sum ≤ max 0 (limit - total) := by
  induction xs generalizing total with
  | nil => exact Int.le_max_left _ _
  | cons x xs ih =>
    rw [List.map_cons, List.map_cons, totals, List.cons.injEq] at h
    obtain ⟨hx, hxs⟩ := h
    have hrest := ih (fun y hy => hamount y (List.mem_cons_of_mem _ hy)) hxs
    have h0 := hamount x List.mem_cons_self
    rw [List.filter_cons]
    split
    next hle =>
      have hwithin := of_decide_eq_true hle
      rw [List.map_cons, List.sum_cons]
      omega
    next => omega

/-- Of amounts that are all one, as many are told yes as the limit leaves room for, and these are
the first. -/
theorem within_of_units (hamount : ∀ x ∈ xs, amount x = 1)
    (h : xs.map current = totals total (xs.map amount)) :
    xs.map (fun x => decide (current x ≤ limit)) =
      List.replicate (min xs.length (limit - total).toNat) true ++
        List.replicate (xs.length - (limit - total).toNat) false := by
  induction xs generalizing total with
  | nil => simp
  | cons x xs ih =>
    rw [List.map_cons, List.map_cons, totals, List.cons.injEq] at h
    obtain ⟨hx, hxs⟩ := h
    have hone := hamount x List.mem_cons_self
    have hrest := ih (fun y hy => hamount y (List.mem_cons_of_mem _ hy)) hxs
    rw [List.map_cons, hrest, hx, hone, List.length_cons]
    by_cases hle : total + 1 ≤ limit
    · have hroom : (limit - total).toNat = (limit - (total + 1)).toNat + 1 := by omega
      have hmin : min (xs.length + 1) ((limit - (total + 1)).toNat + 1) =
          min xs.length (limit - (total + 1)).toNat + 1 := by omega
      rw [hroom, hmin, Nat.add_sub_add_right, List.replicate_succ, List.cons_append]
      simp [hle]
    · have hroom : (limit - total).toNat = 0 := by omega
      have hroom' : (limit - (total + 1)).toNat = 0 := by omega
      rw [hroom, hroom']
      simp [hle, List.replicate_succ]

end LlmPort.Transition
