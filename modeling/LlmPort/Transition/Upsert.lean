import Mathlib.Data.List.Basic

/-!
# Upserts

A table as a list of rows with a key: `INSERT … ON CONFLICT (key) DO UPDATE`.
-/

namespace LlmPort.Transition

variable {ρ : Type*} {κ : Type*} {γ : Type*} [DecidableEq κ]
variable {key : ρ → κ} {row x : ρ} {merge : ρ → ρ} {l : List ρ}

/-- Insert the row, or update the rows of its key. -/
def upsert (key : ρ → κ) (row : ρ) (merge : ρ → ρ) (l : List ρ) : List ρ :=
  if l.any (fun y => key y = key row) then l.map fun y => if key y = key row then merge y else y
  else l ++ [row]

/-- A row with a new key is the last one. -/
theorem upsert_of_new (h : key row ∉ l.map key) : upsert key row merge l = l ++ [row] := by
  refine if_neg fun hany => h ?_
  obtain ⟨y, hy, hkey⟩ := List.any_eq_true.1 hany
  exact List.mem_map.2 ⟨y, hy, of_decide_eq_true hkey⟩

/-- Where a row of the table after an upsert comes from. -/
theorem mem_upsert : x ∈ upsert key row merge l ↔
    (x ∈ l ∧ key x ≠ key row) ∨ (∃ y ∈ l, key y = key row ∧ x = merge y) ∨
      (x = row ∧ ∀ y ∈ l, key y ≠ key row) := by
  unfold upsert
  split
  next hany =>
    obtain ⟨z, hz, hk⟩ := List.any_eq_true.1 hany
    have hk : key z = key row := of_decide_eq_true hk
    constructor
    · intro hx
      obtain ⟨y, hy, rfl⟩ := List.mem_map.1 hx
      by_cases h : key y = key row
      · exact .inr (.inl ⟨y, hy, h, if_pos h⟩)
      · rw [if_neg h]
        exact .inl ⟨hy, h⟩
    · rintro (⟨hx, hne⟩ | ⟨y, hy, h, rfl⟩ | ⟨-, hno⟩)
      · exact List.mem_map.2 ⟨x, hx, if_neg hne⟩
      · exact List.mem_map.2 ⟨y, hy, if_pos h⟩
      · exact absurd hk (hno z hz)
  next hany =>
    have hno : ∀ y ∈ l, key y ≠ key row := fun y hy h =>
      hany (List.any_eq_true.2 ⟨y, hy, decide_eq_true h⟩)
    constructor
    · intro hx
      obtain hx | hx := List.mem_append.1 hx
      · exact .inl ⟨hx, hno x hx⟩
      · exact .inr (.inr ⟨List.mem_singleton.1 hx, hno⟩)
    · rintro (⟨hx, -⟩ | ⟨y, hy, h, -⟩ | ⟨rfl, -⟩)
      · exact List.mem_append_left _ hx
      · exact absurd h (hno y hy)
      · exact List.mem_append_right _ (List.mem_singleton_self _)

/-- A projection the update preserves sees only whether the row is new. -/
theorem map_filter_upsert (key : ρ → κ) (row : ρ) (merge : ρ → ρ) (l : List ρ) (f : ρ → γ)
    (p : ρ → Bool)
    (hf : ∀ y ∈ l, key y = key row → f (merge y) = f y)
    (hp : ∀ y ∈ l, key y = key row → p (merge y) = p y) :
    ((upsert key row merge l).filter p).map f =
      if l.any (fun y => key y = key row) then (l.filter p).map f
      else (l.filter p).map f ++ ([row].filter p).map f := by
  unfold upsert
  split
  next hany =>
    clear hany
    induction l with
    | nil => rfl
    | cons y l ih =>
      have ih := ih (fun z hz => hf z (List.mem_cons_of_mem _ hz))
        (fun z hz => hp z (List.mem_cons_of_mem _ hz))
      have hpy : p (if key y = key row then merge y else y) = p y := by
        split
        next h => exact hp y List.mem_cons_self h
        next => rfl
      have hfy : f (if key y = key row then merge y else y) = f y := by
        split
        next h => exact hf y List.mem_cons_self h
        next => rfl
      rw [List.map_cons, List.filter_cons, List.filter_cons, hpy]
      split
      · rw [List.map_cons, List.map_cons, hfy, ih]
      · exact ih
  next => rw [List.filter_append, List.map_append]

/-- The first row of a key after an upsert. -/
theorem find?_upsert (hmerge : ∀ y, key y = key row → key (merge y) = key y) (k : κ) :
    (upsert key row merge l).find? (key · = k) =
      if k = key row then some (((l.find? (key · = k)).map merge).getD row)
      else l.find? (key · = k) := by
  unfold upsert
  split
  next hany =>
    have hmap : (l.map fun y => if key y = key row then merge y else y).find? (key · = k) =
        (l.find? (key · = k)).map fun y => if key y = key row then merge y else y := by
      rw [List.find?_map]
      congr 1
      refine congrArg (List.find? · l) (funext fun y => ?_)
      rw [Function.comp_apply]
      split
      next hy => rw [hmerge y hy]
      next => rfl
    rw [hmap]
    cases hfind : l.find? (key · = k) with
    | none =>
      split
      next hk =>
        obtain ⟨z, hz, hkz⟩ := List.any_eq_true.1 hany
        rw [List.find?_eq_none] at hfind
        exact absurd (decide_eq_true ((of_decide_eq_true hkz).trans hk.symm)) (hfind z hz)
      next => rfl
    | some y =>
      have hy : key y = k := by simpa using List.find?_some hfind
      rw [Option.map_some, Option.map_some, Option.getD_some, hy]
      split <;> rfl
  next hany =>
    have hno : ∀ y ∈ l, key y ≠ key row := fun y hy h =>
      hany (List.any_eq_true.2 ⟨y, hy, decide_eq_true h⟩)
    rw [List.find?_append]
    split
    next hk =>
      have hfind : l.find? (key · = k) = none := by
        rw [List.find?_eq_none]
        exact fun y hy h => hno y hy ((of_decide_eq_true h).trans hk)
      rw [hfind]
      simp [hk]
    next hk => simp [Ne.symm hk]

theorem nodup_upsert (hmerge : ∀ y, key y = key row → key (merge y) = key y)
    (h : (l.map key).Nodup) :
    ((upsert key row merge l).map key).Nodup := by
  unfold upsert
  split
  next =>
    have hkeys : (l.map fun y => if key y = key row then merge y else y).map key = l.map key := by
      rw [List.map_map]
      refine List.map_congr_left fun y _ => ?_
      rw [Function.comp_apply]
      split
      next hy => exact hmerge y hy
      next => rfl
    rw [hkeys]
    exact h
  next hany =>
    rw [List.map_append, List.nodup_append]
    refine ⟨h, List.pairwise_singleton .., fun k hk k' hk' heq => ?_⟩
    obtain ⟨y, hy, rfl⟩ := List.mem_map.1 hk
    rw [List.map_singleton, List.mem_singleton] at hk'
    exact hany (List.any_eq_true.2 ⟨y, hy, decide_eq_true (heq.trans hk')⟩)

/-- A table is what it finds under each key. -/
theorem mem_iff_find? (h : (l.map key).Nodup) : x ∈ l ↔ l.find? (key · = key x) = some x := by
  constructor
  · intro hx
    induction l with
    | nil => cases hx
    | cons y l ih =>
      rw [List.map_cons, List.nodup_cons] at h
      rcases List.mem_cons.1 hx with rfl | hx
      · simp
      · have hne : key y ≠ key x := fun heq =>
          h.1 (heq ▸ List.mem_map_of_mem hx)
        rw [List.find?_cons_of_neg (by simpa using hne)]
        exact ih h.2 hx
  · exact List.mem_of_find?_eq_some

end LlmPort.Transition
