import Mathlib.Data.List.Basic

/-!
# Queries

Tables as lists of rows: inner joins, and queries of which at most one row is expected.
-/

namespace LlmPort.Transition

variable {α : Type*} {β : Type*} {l : List α} {r : List β} {on : α → β → Bool} {x : α} {y : β}

/-- The pairs of rows that belong together. -/
def join (l : List α) (r : List β) (on : α → β → Bool) : List (α × β) :=
  l.flatMap fun x => (r.filter (on x)).map (x, ·)

theorem mem_join : (x, y) ∈ join l r on ↔ x ∈ l ∧ y ∈ r ∧ on x y = true := by
  rw [join, List.mem_flatMap]
  constructor
  · rintro ⟨x', hx, hpair⟩
    obtain ⟨y', hy, heq⟩ := List.mem_map.1 hpair
    cases heq
    exact ⟨hx, List.mem_filter.1 hy⟩
  · rintro ⟨hx, hy⟩
    exact ⟨x, hx, List.mem_map_of_mem (List.mem_filter.2 hy)⟩

inductive QueryError where
  | multipleResultsFound
  deriving DecidableEq

/-- `scalar_one_or_none` -/
def scalarOneOrNone : List α → Except QueryError (Option α)
  | [] => .ok none
  | [x] => .ok (some x)
  | _ => .error .multipleResultsFound

/-- A query with `limit(1)` tells whether there is a row. -/
theorem scalarOneOrNone_take_one (l : List α) : scalarOneOrNone (l.take 1) = .ok l.head? := by
  cases l <;> rfl

end LlmPort.Transition
