import Mathlib.Data.List.Basic

/-!
# A function that may fail, over a list

`l.mapM f` has the values of all elements, or fails if one of them has none.
-/

namespace LlmPort.Transition

variable {α β γ : Type} {f : α → Option β} {g : α → β} {l : List α} {values : List β}

theorem isSome_mapM (f : α → Option β) (l : List α) :
    (l.mapM f).isSome = l.all fun a => (f a).isSome := by
  induction l with
  | nil => rfl
  | cons a l ih =>
    rw [List.mapM_cons, List.all_cons, ← ih]
    cases f a <;> cases l.mapM f <;> rfl

theorem mapM_eq_some_map (h : ∀ a ∈ l, f a = some (g a)) : l.mapM f = some (l.map g) := by
  induction l with
  | nil => rfl
  | cons a l ih =>
    rw [List.mapM_cons, h a List.mem_cons_self, ih fun b hb => h b (List.mem_cons_of_mem _ hb)]
    rfl

theorem mapM_map (f : α → Option β) (h : β → γ) (l : List α) :
    (l.mapM fun a => (f a).map h) = (l.mapM f).map (List.map h) := by
  induction l with
  | nil => rfl
  | cons a l ih =>
    rw [List.mapM_cons, List.mapM_cons, ih]
    cases f a <;> cases l.mapM f <;> rfl

/-- The value at a position is that of the element there. -/
theorem map_some_of_mapM (h : l.mapM f = some values) : values.map some = l.map f := by
  induction l generalizing values with
  | nil =>
    cases h
    rfl
  | cons a l ih =>
    rw [List.mapM_cons] at h
    cases hvalue : f a with
    | none =>
      rw [hvalue] at h
      cases h
    | some value =>
      cases hvalues : l.mapM f with
      | none =>
        rw [hvalue, hvalues] at h
        cases h
      | some rest =>
        rw [hvalue, hvalues] at h
        cases h
        rw [List.map_cons, List.map_cons, ih hvalues, hvalue]

theorem length_of_mapM (h : l.mapM f = some values) : values.length = l.length := by
  have h := congrArg List.length (map_some_of_mapM h)
  rwa [List.length_map, List.length_map] at h

end LlmPort.Transition
