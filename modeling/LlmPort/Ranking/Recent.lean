import Mathlib.Algebra.BigOperators.Group.List.Basic
import Mathlib.Algebra.Ring.Int.Defs
import Mathlib.Data.List.Sort

/-!
# Recent elements of a list

Sorting by a time leaves the order of equal times open: a `TimeOrder` is any one of the orders. The
end of the sorted list holds the recent elements, and `fitting` takes elements from the front of a
list as long as a budget lasts.
-/

namespace LlmPort.Ranking

variable {α : Type*} {time : α → Int} {a b : α} {l : List α} {n : Nat}

structure TimeOrder (time : α → Int) where
  sort : List α → List α
  perm : ∀ l, (sort l).Perm l
  sorted : ∀ l, (sort l).Pairwise fun a b => time a ≤ time b

namespace TimeOrder

/-- The order that keeps elements of equal times as they are in the list. -/
def stable (time : α → Int) : TimeOrder time where
  sort l := l.insertionSort fun a b => time a ≤ time b
  perm l := List.perm_insertionSort _ l
  sorted l := by
    have : Std.Total fun a b : α => time a ≤ time b := ⟨fun a b => Int.le_total _ _⟩
    have : IsTrans α fun a b => time a ≤ time b := ⟨fun _ _ _ => Int.le_trans⟩
    exact List.pairwise_insertionSort _ l

variable (order : TimeOrder time)

/-- The last `n` elements, oldest first. -/
def recent (n : Nat) (l : List α) : List α := (order.sort l).drop ((order.sort l).length - n)

def newest (l : List α) : Option α := (order.recent 1 l).getLast?

variable {order}

theorem mem_sort : a ∈ order.sort l ↔ a ∈ l := (order.perm l).mem_iff

theorem recent_sublist (n : Nat) (l : List α) : (order.recent n l).Sublist (order.sort l) :=
  List.drop_sublist _ _

theorem newest_eq : order.newest l = (order.sort l).getLast? := by
  unfold newest recent
  rcases List.eq_nil_or_concat (order.sort l) with h | ⟨init, x, h⟩
  · simp [h]
  · simp [h]

theorem newest_eq_none_iff : order.newest l = none ↔ l = [] := by
  rw [newest_eq, List.getLast?_eq_none_iff]
  constructor
  · intro h
    exact List.Perm.eq_nil (h ▸ (order.perm l).symm)
  · rintro rfl
    exact (order.perm []).eq_nil

theorem mem_of_newest (h : order.newest l = some a) : a ∈ l := by
  rw [newest_eq] at h
  exact mem_sort.1 (List.mem_of_getLast? h)

/-- No element is newer than the newest. -/
theorem le_of_newest (h : order.newest l = some a) (hb : b ∈ l) : time b ≤ time a := by
  rw [newest_eq] at h
  obtain ⟨init, hsort⟩ := List.getLast?_eq_some_iff.1 h
  have hsorted := order.sorted l
  rw [hsort] at hsorted
  have hmem : b ∈ order.sort l := mem_sort.2 hb
  rw [hsort, List.mem_append, List.mem_singleton] at hmem
  obtain hb | rfl := hmem
  · exact (List.pairwise_append.1 hsorted).2.2 b hb a (List.mem_singleton_self a)
  · exact Int.le_refl _

/-- An element that is newer than all others is the newest. -/
theorem newest_of_lt (ha : a ∈ l) (h : ∀ b ∈ l, b = a ∨ time b < time a) :
    order.newest l = some a := by
  cases hn : order.newest l with
  | none =>
    rw [newest_eq_none_iff.1 hn] at ha
    cases ha
  | some b =>
    obtain rfl | hlt := h b (mem_of_newest hn)
    · rfl
    · exact absurd (le_of_newest hn ha) (Int.not_le.2 hlt)

end TimeOrder

/-! ## Taking elements while a budget lasts -/

section
variable {cost : α → Int} {budget : Int}

/-- The elements from the front that fit, up to the first that does not. -/
def fitting (cost : α → Int) : Int → List α → List α
  | _, [] => []
  | budget, a :: l => if cost a ≤ budget then a :: fitting cost (budget - cost a) l else []

/-- Every part of the list from its front fits. -/
def AllFit (cost : α → Int) (budget : Int) (l : List α) : Prop :=
  ∀ start, start <+: l → start ≠ [] → (start.map cost).sum ≤ budget

@[simp] theorem allFit_nil : AllFit cost budget [] :=
  fun _ hs hne => (hne (List.prefix_nil.1 hs)).elim

theorem allFit_cons :
    AllFit cost budget (a :: l) ↔ cost a ≤ budget ∧ AllFit cost (budget - cost a) l := by
  constructor
  · intro h
    refine ⟨by simpa using h [a] ⟨l, rfl⟩ (List.cons_ne_nil _ _), fun start hs _ => ?_⟩
    have hle := h (a :: start) (List.cons_prefix_cons.2 ⟨rfl, hs⟩) (List.cons_ne_nil _ _)
    rw [List.map_cons, List.sum_cons] at hle
    omega
  · rintro ⟨ha, h⟩ start hs hne
    cases start with
    | nil => exact (hne rfl).elim
    | cons b start =>
      obtain ⟨rfl, htail⟩ := List.cons_prefix_cons.1 hs
      rw [List.map_cons, List.sum_cons]
      by_cases hnil : start = []
      · simpa [hnil] using ha
      · have hle := h start htail hnil
        omega

/-- An element is taken when every sum of costs up to its own fits. -/
theorem mem_fitting_iff : a ∈ fitting cost budget l ↔
    ∃ before after, l = before ++ a :: after ∧
      ∀ start, start <+: before ++ [a] → start ≠ [] → (start.map cost).sum ≤ budget := by
  change _ ↔ ∃ before after, _ ∧ AllFit cost budget (before ++ [a])
  induction l generalizing budget with
  | nil => simp [fitting]
  | cons b l ih =>
    unfold fitting
    constructor
    · intro h
      split at h
      next hb =>
        obtain rfl | h := List.mem_cons.1 h
        · exact ⟨[], l, rfl, allFit_cons.2 ⟨hb, allFit_nil⟩⟩
        · obtain ⟨before, after, rfl, hfit⟩ := ih.1 h
          exact ⟨b :: before, after, rfl, allFit_cons.2 ⟨hb, hfit⟩⟩
      next => cases h
    · rintro ⟨before, after, heq, hfit⟩
      cases before with
      | nil =>
        obtain ⟨rfl, rfl⟩ := List.cons.inj heq
        rw [if_pos (allFit_cons.1 hfit).1]
        exact List.mem_cons_self
      | cons c before =>
        obtain ⟨rfl, rfl⟩ := List.cons.inj heq
        obtain ⟨hb, hfit⟩ := allFit_cons.1 hfit
        rw [if_pos hb]
        exact List.mem_cons_of_mem _ (ih.2 ⟨before, after, rfl, hfit⟩)

theorem fitting_isPrefix (cost : α → Int) (budget : Int) (l : List α) :
    fitting cost budget l <+: l := by
  induction l generalizing budget with
  | nil => exact List.prefix_rfl
  | cons a l ih =>
    unfold fitting
    split
    next => exact List.cons_prefix_cons.2 ⟨rfl, ih _⟩
    next => exact List.nil_prefix

theorem fitting_eq_self_iff : fitting cost budget l = l ↔ AllFit cost budget l := by
  induction l generalizing budget with
  | nil => exact iff_of_true rfl allFit_nil
  | cons a l ih =>
    rw [allFit_cons, ← ih, fitting]
    split
    next ha => simp [ha]
    next ha => simp [ha]

theorem fitting_eq_nil_iff :
    fitting cost budget l = [] ↔ ∀ a, l.head? = some a → budget < cost a := by
  cases l with
  | nil => simp [fitting]
  | cons a l =>
    rw [fitting]
    split
    next ha => simpa using ha
    next ha => simpa using ha

/-! ## The longest run of the most recent -/

/-- The run is the end of the list, it fits, and no longer end does. -/
structure LongestRun (cost : α → Int) (budget : Int) (l run : List α) : Prop where
  ends : run <:+ l
  fits : run ≠ [] → (run.map cost).sum ≤ budget
  longest : ∀ other, other <:+ l → other ≠ [] → (other.map cost).sum ≤ budget →
    other.length ≤ run.length

theorem longestRun_nil_iff : LongestRun cost budget l [] ↔
    ∀ other, other <:+ l → other ≠ [] → budget < (other.map cost).sum := by
  constructor
  · intro h other hends hne
    refine Int.not_le.1 fun hle => hne ?_
    exact List.length_eq_zero_iff.1 (Nat.le_zero.1 (h.longest other hends hne hle))
  · intro h
    refine ⟨List.nil_suffix, fun hne => (hne rfl).elim, fun other hends hne hle => ?_⟩
    exact absurd hle (Int.not_le.2 (h other hends hne))

theorem AllFit.longestRun (h : AllFit cost budget l) : LongestRun cost budget l l where
  ends := List.suffix_rfl
  fits := h l List.prefix_rfl
  longest _ hends _ _ := hends.length_le

/-- A list without repetition that starts and ends with the same part is that part. -/
theorem eq_nil_or_eq_of_prefix_of_suffix {run : List α} (hnodup : l.Nodup) (hstart : run <+: l)
    (hend : run <:+ l) : run = [] ∨ run = l := by
  obtain ⟨before, rfl⟩ := hend
  cases run with
  | nil => exact .inl rfl
  | cons a run =>
    cases before with
    | nil => exact .inr rfl
    | cons b before =>
      obtain ⟨rfl, -⟩ := List.cons_prefix_cons.1 hstart
      have hnot : a ∉ before ++ a :: run := (List.nodup_cons.1 hnodup).1
      exact (hnot (List.mem_append_right _ List.mem_cons_self)).elim

/-- Taking from the front takes the longest run from the end only where it takes all, or nothing
can be taken from either side. -/
theorem longestRun_fitting_iff (hnodup : l.Nodup) :
    LongestRun cost budget l (fitting cost budget l) ↔ AllFit cost budget l ∨
      (∀ a, l.head? = some a → budget < cost a) ∧
        ∀ other, other <:+ l → other ≠ [] → budget < (other.map cost).sum := by
  rw [← fitting_eq_self_iff, ← fitting_eq_nil_iff, ← longestRun_nil_iff]
  constructor
  · intro h
    rcases eq_nil_or_eq_of_prefix_of_suffix hnodup (fitting_isPrefix cost budget l) h.ends with
      hnil | hall
    · exact .inr ⟨hnil, hnil ▸ h⟩
    · exact .inl hall
  · rintro (hall | ⟨hnil, h⟩)
    · rw [hall]
      exact (fitting_eq_self_iff.1 hall).longestRun
    · rwa [hnil]

end

end LlmPort.Ranking
