import Mathlib.Data.List.Induction
import Mathlib.Data.List.Perm.Basic
import Mathlib.Tactic.Ring

/-!
# A sum with overrides

A score gains a fixed amount with each item, unless the item overrides what was summed up before it.
The order of the items is then part of the score, except if none of them overrides, or all do and to
the same value.
-/

namespace LlmPort.Ranking

variable {α : Type*} {w s v : Int} {l l' : List (Option Int)}

def bump (w s : Int) (override : Option Int) : Int := override.getD (s + w)

/-- No item overrides, or all do and to the same value. -/
def Agree (l : List (Option Int)) : Prop := (∀ o ∈ l, o = none) ∨ ∃ v, ∀ o ∈ l, o = some v

/-- The score of items that agree. -/
def agreed (w s : Int) (l : List (Option Int)) : Int := (l.head?.join).getD (s + w * l.length)

theorem Agree.of_perm (h : l.Perm l') (H : Agree l) : Agree l' :=
  H.imp (fun H o ho => H o (h.mem_iff.2 ho)) fun ⟨v, H⟩ => ⟨v, fun o ho => H o (h.mem_iff.2 ho)⟩

theorem foldl_bump_none (H : ∀ o ∈ l, o = none) : l.foldl (bump w) s = s + w * l.length := by
  induction l generalizing s with
  | nil => simp
  | cons o l ih =>
    have ho : o = none := H o List.mem_cons_self
    rw [List.foldl_cons, ih fun o' ho' => H o' (List.mem_cons_of_mem _ ho'), ho, bump,
      Option.getD_none, List.length_cons, Nat.cast_succ]
    ring

theorem foldl_bump_some (H : ∀ o ∈ l, o = some v) (hl : l ≠ []) : l.foldl (bump w) s = v := by
  induction l using List.reverseRecOn with
  | nil => exact absurd rfl hl
  | append_singleton l o _ =>
    have ho : o = some v := H o (List.mem_append_right _ (List.mem_singleton_self o))
    rw [List.foldl_append, ho]
    rfl

theorem foldl_bump_agreed (H : Agree l) : l.foldl (bump w) s = agreed w s l := by
  rcases H with H | ⟨v, H⟩
  · rw [foldl_bump_none H, agreed]
    cases l with
    | nil => rfl
    | cons o l => rw [H o List.mem_cons_self]; rfl
  · cases l with
    | nil => simp [agreed]
    | cons o l =>
      rw [foldl_bump_some H (List.cons_ne_nil _ _), agreed, H o List.mem_cons_self]
      rfl

theorem agreed_perm (h : l.Perm l') (H : Agree l) : agreed w s l' = agreed w s l := by
  have H' := H.of_perm h
  rcases H with H | ⟨v, H⟩
  · rw [← foldl_bump_agreed H', ← foldl_bump_agreed (.inl H),
      foldl_bump_none fun o ho => H o (h.mem_iff.2 ho), foldl_bump_none H, h.length_eq]
  · rcases eq_or_ne l [] with rfl | hl
    · rw [h.nil_eq]
    · have hl' : l' ≠ [] := fun h' => hl (h' ▸ h).eq_nil
      rw [← foldl_bump_agreed H', ← foldl_bump_agreed (.inr ⟨v, H⟩),
        foldl_bump_some (fun o ho => H o (h.mem_iff.2 ho)) hl', foldl_bump_some H hl]

/-- Two items that come last in one order and in the other. -/
theorem bump_swap (hw : w ≠ 0) {o o' : Option Int}
    (h : bump w (bump w s o) o' = bump w (bump w s o') o) : o = o' := by
  cases o <;> cases o' <;> simp only [bump, Option.getD] at h
  · rfl
  · omega
  · omega
  · rw [h]

theorem eq_of_foldl_bump_perm [DecidableEq α] (hw : w ≠ 0) {override : α → Option Int} {l : List α}
    (H : ∀ l' : List α, l'.Perm l →
      (l'.map override).foldl (bump w) s = (l.map override).foldl (bump w) s)
    {a b : α} (ha : a ∈ l) (hb : b ∈ l) : override a = override b := by
  by_contra hne
  let rest := (l.erase a).erase b
  have hrest : (a :: b :: rest).Perm l := by
    have hab : b ≠ a := fun h => hne (h ▸ rfl)
    have hmem : b ∈ l.erase a := (List.mem_erase_of_ne hab).2 hb
    exact ((List.perm_cons_erase hmem).symm.cons a).trans (List.perm_cons_erase ha).symm
  have hlast : (rest ++ [a, b]).Perm l := List.perm_append_comm.trans hrest
  have hlast' : (rest ++ [b, a]).Perm l :=
    List.perm_append_comm.trans ((List.Perm.swap a b rest).trans hrest)
  have h := (H _ hlast).trans (H _ hlast').symm
  rw [List.map_append, List.map_append, List.foldl_append, List.foldl_append] at h
  exact hne (bump_swap hw h)

/-- The order of the items is no part of the score exactly if they agree. -/
theorem foldl_bump_perm_iff [DecidableEq α] (hw : w ≠ 0) {override : α → Option Int}
    {l : List α} :
    (∀ l' : List α, l'.Perm l →
      (l'.map override).foldl (bump w) s = (l.map override).foldl (bump w) s) ↔
      Agree (l.map override) := by
  constructor
  · intro H
    rcases l with _ | ⟨a, l⟩
    · exact .inl fun o ho => absurd ho List.not_mem_nil
    · have hall : ∀ o ∈ (a :: l).map override, o = override a := by
        intro o ho
        obtain ⟨b, hb, rfl⟩ := List.mem_map.1 ho
        exact eq_of_foldl_bump_perm hw H hb List.mem_cons_self
      cases ha : override a with
      | none => exact .inl (ha ▸ hall)
      | some v => exact .inr ⟨v, ha ▸ hall⟩
  · intro H l' h
    have h := (h.map override).symm
    rw [foldl_bump_agreed (H.of_perm h), foldl_bump_agreed H, agreed_perm h H]

end LlmPort.Ranking
