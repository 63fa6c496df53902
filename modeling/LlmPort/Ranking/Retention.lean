import Mathlib.Data.List.Nodup
import Mathlib.Order.Lattice

/-!
# Keeping the last entries

Entries are numbered from one on, and of `n` of them the last `max` are retained, newest first.
Whoever cuts the retained ones to `max - 1` and puts the next one in front has the ones to retain
then.
-/

namespace LlmPort.Ranking

variable {α κ : Type*} {max m n : Nat}

/-- The numbers that are retained after `n` entries. -/
def retained (max n : Nat) : List Nat := (List.range' (n - min n max + 1) (min n max)).reverse

theorem retained_eq_map : retained max n = (List.range (min n max)).map (n - ·) := by
  rw [retained, List.reverse_range']
  refine List.map_congr_left fun i hi => ?_
  have hi := List.mem_range.1 hi
  omega

theorem retained_zero : retained max 0 = [] := by
  rw [retained, Nat.zero_min]
  rfl

theorem length_retained : (retained max n).length = min n max := by
  rw [retained, List.length_reverse, List.length_range']

theorem mem_retained : m ∈ retained max n ↔ n - min n max < m ∧ m ≤ n := by
  rw [retained, List.mem_reverse, List.mem_range'_1]
  omega

theorem retained_succ (hmax : 0 < max) :
    retained max (n + 1) = (n + 1) :: (retained max n).take (max - 1) := by
  have hlength : min (n + 1) max = min (max - 1) (min n max) + 1 := by omega
  rw [retained_eq_map, retained_eq_map, ← List.map_take, List.take_range, hlength,
    List.range_succ_eq_map, List.map_cons, List.map_map]
  refine congrArg _ (List.map_congr_left fun i hi => ?_)
  rw [Function.comp_apply]
  omega

theorem nodup_retained : (retained max n).Nodup :=
  List.nodup_reverse.2 List.nodup_range'

/-- The numbers decrease. -/
theorem sorted_retained : (retained max n).Pairwise (· ≥ ·) := by
  rw [retained, List.pairwise_reverse]
  exact List.Pairwise.imp Nat.le_of_lt List.pairwise_lt_range'

/-- To leave out the keys of all but the first rows is to keep the first rows. -/
theorem filter_not_mem_drop [DecidableEq κ] {key : α → κ} {l : List α} (h : (l.map key).Nodup) :
    l.filter (fun a => key a ∉ (l.drop n).map key) = l.take n := by
  have hkeys : (l.take n).map key ++ (l.drop n).map key = l.map key := by
    rw [← List.map_append, List.take_append_drop]
  rw [← hkeys, List.nodup_append] at h
  have htake : (l.take n).filter (fun a => key a ∉ (l.drop n).map key) = l.take n :=
    List.filter_eq_self.2 fun a ha => decide_eq_true fun hmem =>
      h.2.2 _ (List.mem_map_of_mem ha) _ hmem rfl
  have hdrop : (l.drop n).filter (fun a => key a ∉ (l.drop n).map key) = [] :=
    List.filter_eq_nil_iff.2 fun a ha hnot =>
      of_decide_eq_true hnot (List.mem_map_of_mem ha)
  calc l.filter (fun a => key a ∉ (l.drop n).map key)
      = (l.take n ++ l.drop n).filter fun a => key a ∉ (l.drop n).map key := by
        rw [List.take_append_drop]
    _ = l.take n := by rw [List.filter_append, htake, hdrop, List.append_nil]

end LlmPort.Ranking
