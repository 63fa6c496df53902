import Mathlib.Order.Lattice
import Mathlib.Data.List.Induction

/-!
# Watermarks

Rows carry a stamp. Whoever has read some of them keeps the newest stamp it has seen, and looks
again when there is a newer one.
-/

namespace LlmPort.Transition

variable {ρ : Type*} {T : Type*} [LinearOrder T] {stamp : ρ → T} {l l' : List ρ} {row : ρ} {t : T}

/-- The stamp, if it is newer than the mark. -/
def raiseMark (mark : Option T) (t : T) : Option T :=
  match mark with
  | none => some t
  | some m => if m < t then some t else some m

/-- The newest stamp of the rows. -/
def newest (stamp : ρ → T) (l : List ρ) : Option T :=
  l.foldl (fun mark row => raiseMark mark (stamp row)) none

/-- There is a stamp newer than the mark. -/
def Behind (mark latest : Option T) : Prop := ∃ t ∈ latest, ∀ m ∈ mark, m < t

instance (mark latest : Option T) : Decidable (Behind mark latest) :=
  match latest, mark with
  | none, _ => .isFalse (by simp [Behind])
  | some t, none => .isTrue (by simp [Behind])
  | some t, some m => decidable_of_iff (m < t) (by simp [Behind])

theorem newest_concat : newest stamp (l ++ [row]) = raiseMark (newest stamp l) (stamp row) := by
  rw [newest, List.foldl_append]
  rfl

theorem newest_eq_none_iff : newest stamp l = none ↔ l = [] := by
  induction l using List.reverseRecOn with
  | nil => exact iff_of_true rfl rfl
  | append_singleton l row _ =>
    rw [newest_concat]
    refine iff_of_false ?_ (by simp)
    cases newest stamp l with
    | none => exact nofun
    | some m =>
      rw [raiseMark]
      split <;> exact nofun

theorem raiseMark_lt_iff {mark : Option T} {u : T} :
    (∀ m ∈ raiseMark mark u, m < t) ↔ (∀ m ∈ mark, m < t) ∧ u < t := by
  cases mark with
  | none => simp [raiseMark]
  | some m =>
    rw [raiseMark]
    split
    next h => simpa using fun hu : u < t => h.trans hu
    next h => simpa using fun hm : m < t => (not_lt.1 h).trans_lt hm

/-- A stamp is newer than the newest of the rows if it is newer than each. -/
theorem newest_lt_iff : (∀ m ∈ newest stamp l, m < t) ↔ ∀ row ∈ l, stamp row < t := by
  induction l using List.reverseRecOn with
  | nil => simp [newest]
  | append_singleton l row ih =>
    rw [newest_concat, raiseMark_lt_iff, ih, List.forall_mem_append, List.forall_mem_singleton]

theorem exists_of_newest (h : newest stamp l = some t) : ∃ row ∈ l, stamp row = t := by
  induction l using List.reverseRecOn with
  | nil => cases h
  | append_singleton l row ih =>
    rw [newest_concat] at h
    cases hl : newest stamp l with
    | none =>
      rw [hl] at h
      exact ⟨row, by simp, Option.some.inj h⟩
    | some m =>
      rw [hl, raiseMark] at h
      split at h
      next => exact ⟨row, by simp, Option.some.inj h⟩
      next =>
        obtain ⟨r, hr, hstamp⟩ := ih (hl.trans h)
        exact ⟨r, List.mem_append_left _ hr, hstamp⟩

theorem le_of_newest (h : newest stamp l = some t) (hrow : row ∈ l) : stamp row ≤ t := by
  by_contra hlt
  have hall : ∀ m ∈ newest stamp l, m < stamp row := by
    intro m hm
    rw [h] at hm
    rw [← Option.some.inj hm]
    exact not_le.1 hlt
  exact lt_irrefl _ (newest_lt_iff.1 hall row hrow)

/-- Whoever has a mark that stands for the first rows looks again exactly if some row is newer than
each of them. -/
theorem behind_iff {mark : Option T} (hmark : ∀ t, (∀ m ∈ mark, m < t) ↔ ∀ r ∈ l, stamp r < t) :
    Behind mark (newest stamp l') ↔ ∃ row ∈ l', ∀ r ∈ l, stamp r < stamp row := by
  constructor
  · rintro ⟨t, ht, hnewer⟩
    obtain ⟨row, hrow, rfl⟩ := exists_of_newest ht
    exact ⟨row, hrow, (hmark _).1 hnewer⟩
  · rintro ⟨row, hrow, hlt⟩
    cases hl : newest stamp l' with
    | none =>
      rw [newest_eq_none_iff.1 hl] at hrow
      cases hrow
    | some t =>
      refine ⟨t, rfl, fun m hm => ?_⟩
      exact ((hmark _).2 hlt m hm).trans_le (le_of_newest hl hrow)

end LlmPort.Transition
