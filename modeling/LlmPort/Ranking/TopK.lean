import Mathlib.Data.List.Perm.Subperm
import Mathlib.Order.Lattice

/-!
# The best of a pool

`TopK` says that a list holds the `n` elements of a pool that score highest. Whoever cuts a ranking
off first and then drops what does not belong to the pool gets them only if nothing was dropped that
took a place, or nothing that belongs was cut off.
-/

namespace LlmPort.Ranking

variable {α : Type*} {score : α → Int} {n : Nat} {pool pool' result l : List α} {p q : α → Bool}

structure TopK (score : α → Int) (n : Nat) (pool result : List α) : Prop where
  subperm : result.Subperm pool
  length : result.length = min n pool.length
  sorted : result.Pairwise fun a b => score b ≤ score a
  best : ∀ a ∈ pool, a ∉ result → ∀ b ∈ result, score a ≤ score b

theorem TopK.of_perm (hpool : pool.Perm pool') (H : TopK score n pool result) :
    TopK score n pool' result where
  subperm := H.subperm.trans hpool.subperm
  length := hpool.length_eq ▸ H.length
  sorted := H.sorted
  best a ha := H.best a (hpool.mem_iff.2 ha)

theorem topK_perm (hpool : pool.Perm pool') :
    TopK score n pool result ↔ TopK score n pool' result := ⟨.of_perm hpool, .of_perm hpool.symm⟩

theorem TopK.congr {score' : α → Int} (hscore : ∀ a ∈ pool, score a = score' a)
    (H : TopK score n pool result) : TopK score' n pool result := by
  have hresult : ∀ a ∈ result, score a = score' a := fun a ha => hscore a (H.subperm.subset ha)
  refine ⟨H.subperm, H.length, H.sorted.imp_of_mem fun ha hb h => ?_, fun a ha hnot b hb => ?_⟩
  · rw [← hresult _ ha, ← hresult _ hb]
    exact h
  · rw [← hscore a ha, ← hresult b hb]
    exact H.best a ha hnot b hb

theorem filter_sublist_filter (hpq : ∀ a ∈ l, p a = true → q a = true) :
    (l.filter p).Sublist (l.filter q) := by
  induction l with
  | nil => exact .slnil
  | cons a l ih =>
    have ih := ih fun b hb => hpq b (List.mem_cons_of_mem _ hb)
    rw [List.filter_cons, List.filter_cons]
    split
    next ha =>
      rw [if_pos (hpq a List.mem_cons_self ha)]
      exact ih.cons_cons a
    next =>
      split
      next => exact ih.cons a
      next => exact ih

/-- Cutting off before dropping gives the best of the pool exactly if all places are taken by what
stays, or all of the pool stays. -/
theorem topK_filter_take_iff
    (hsorted : l.Pairwise fun a b => score b ≤ score a)
    (hpq : ∀ a ∈ l, p a = true → q a = true) :
    TopK score n (l.filter q) ((l.take n).filter p) ↔
      (n ≤ l.length ∧ ∀ a ∈ l.take n, p a = true) ∨
        ((∀ a ∈ l.take n, q a = true → p a = true) ∧ ∀ a ∈ l.drop n, q a = false) := by
  have hsub : ((l.take n).filter p).Sublist ((l.take n).filter q) :=
    filter_sublist_filter fun a ha => hpq a (List.mem_of_mem_take ha)
  have hsplit : l.filter q = (l.take n).filter q ++ (l.drop n).filter q := by
    rw [← List.filter_append, List.take_append_drop]
  constructor
  · intro H
    have hlength := H.length
    rw [hsplit, List.length_append] at hlength
    have htake : ((l.take n).filter p).length ≤ (l.take n).length := List.length_filter_le _ _
    have hle := hsub.length_le
    rw [List.length_take] at htake
    rcases Nat.le_total n (((l.take n).filter q).length + ((l.drop n).filter q).length) with h | h
    · rw [Nat.min_eq_left h] at hlength
      have hall : ((l.take n).filter p).length = (l.take n).length := by
        rw [List.length_take]
        omega
      exact .inl ⟨by omega, List.length_filter_eq_length_iff.1 hall⟩
    · rw [Nat.min_eq_right h] at hlength
      have hdrop : (l.drop n).filter q = [] := List.length_eq_zero_iff.1 (by omega)
      have hsame : (l.take n).filter p = (l.take n).filter q := hsub.eq_of_length (by omega)
      refine .inr ⟨fun a ha hq => ?_, fun a ha => ?_⟩
      · exact (List.mem_filter.1 (hsame ▸ List.mem_filter.2 ⟨ha, hq⟩)).2
      · simpa using List.filter_eq_nil_iff.1 hdrop a ha
  · rintro (⟨hn, hall⟩ | ⟨hstay, hcut⟩)
    · have hp : (l.take n).filter p = l.take n := List.filter_eq_self.2 hall
      have hq : (l.take n).filter q = l.take n :=
        List.filter_eq_self.2 fun a ha => hpq a (List.mem_of_mem_take ha) (hall a ha)
      rw [hq] at hsplit
      rw [hp]
      refine ⟨?_, ?_, hsorted.sublist (List.take_sublist n l), fun a ha hnot b hb => ?_⟩
      · exact hsplit ▸ (List.sublist_append_left _ _).subperm
      · rw [hsplit, List.length_append, List.length_take]
        omega
      · -- what was cut off comes after everything that was not
        have hcut : a ∈ l.drop n := by
          have ha : a ∈ l.take n ++ l.drop n := by
            rw [List.take_append_drop]
            exact (List.mem_filter.1 ha).1
          exact (List.mem_append.1 ha).resolve_left hnot
        rw [← List.take_append_drop n l] at hsorted
        exact (List.pairwise_append.1 hsorted).2.2 b hb a hcut
    · have hsame : (l.take n).filter p = l.filter q := by
        have hdrop : (l.drop n).filter q = [] :=
          List.filter_eq_nil_iff.2 fun a ha => by simp [hcut a ha]
        rw [hsplit, hdrop, List.append_nil]
        refine List.filter_congr fun a ha => Bool.eq_iff_iff.2 ⟨hpq a ?_, hstay a ha⟩
        exact List.mem_of_mem_take ha
      have hlength : (l.filter q).length ≤ n := by
        rw [← hsame]
        exact (List.length_filter_le _ _).trans (List.length_take_le n l)
      rw [hsame]
      refine ⟨.refl _, by omega, hsorted.sublist List.filter_sublist, fun a ha hnot => ?_⟩
      exact absurd ha hnot

/-- In a ranking without ties an element is among the first `n` if fewer than `n` score higher. -/
theorem mem_take_iff_countP {a : α} (hsorted : l.Pairwise fun a b => score b < score a)
    (ha : a ∈ l) : a ∈ l.take n ↔ l.countP (score a < score ·) < n := by
  induction l generalizing n with
  | nil => cases ha
  | cons b l ih =>
    obtain ⟨hb, hl⟩ := List.pairwise_cons.1 hsorted
    cases n with
    | zero => simp
    | succ n =>
      rw [List.take_succ_cons, List.mem_cons, List.countP_cons]
      rcases List.mem_cons.1 ha with rfl | ha
      · have hnone : l.countP (score a < score ·) = 0 :=
          List.countP_eq_zero.2 fun c hc => by simp [(hb c hc).le]
        simp [hnone]
      · have hne : a ≠ b := by
          intro heq
          exact absurd (hb a ha) (heq ▸ lt_irrefl _)
        rw [ih hl ha, if_pos (decide_eq_true (hb a ha))]
        simp [hne]

end LlmPort.Ranking
