import Mathlib.Logic.Relation

/-!
# Bounded loops

A loop of at most `n` turns. A turn gives some outputs and either the state of the next turn or
what the loop ends with; `dry` is what it ends with when the turns are used up.
-/

namespace LlmPort.Transition

variable {σ : Type*} {α : Type*} {ε : Type*}

/-- What one turn of a loop gives. -/
structure Turn (σ α ε : Type*) where
  outputs : List α
  after : Except ε σ

/-- The outputs of all turns, in order, and how the loop ends. -/
def loop (turn : σ → Turn σ α ε) (dry : σ → ε) : Nat → σ → List α × ε
  | 0, s => ([], dry s)
  | n + 1, s => match (turn s).after with
    | .error e => ((turn s).outputs, e)
    | .ok s' => let rest := loop turn dry n s'; ((turn s).outputs ++ rest.1, rest.2)

/-- The state that `k` turns lead to. -/
inductive Turns (turn : σ → Turn σ α ε) : Nat → σ → σ → Prop
  | refl : Turns turn 0 s s
  | head : (turn s).after = .ok s' → Turns turn k s' s'' → Turns turn (k + 1) s s''

variable {turn : σ → Turn σ α ε} {dry : σ → ε} {s s' s'' : σ} {a : α} {n k : Nat}

theorem Turns.snoc (h : Turns turn k s s') (hafter : (turn s').after = .ok s'') :
    Turns turn (k + 1) s s'' := by
  induction h with
  | refl => exact .head hafter .refl
  | head h _ ih => exact .head h (ih hafter)

theorem turns_succ_iff :
    Turns turn (k + 1) s s'' ↔ ∃ s', Turns turn k s s' ∧ (turn s').after = .ok s'' := by
  constructor
  · intro h
    induction k generalizing s with
    | zero =>
      cases h with
      | head hafter h => cases h; exact ⟨s, .refl, hafter⟩
    | succ k ih =>
      cases h with
      | head hafter h =>
        obtain ⟨s', hturns, hlast⟩ := ih h
        exact ⟨s', .head hafter hturns, hlast⟩
  · rintro ⟨s', hturns, hafter⟩
    exact hturns.snoc hafter

/-- What a loop puts out is what a turn it reaches puts out. -/
theorem mem_loop : a ∈ (loop turn dry n s).1 ↔
    ∃ k < n, ∃ s', Turns turn k s s' ∧ a ∈ (turn s').outputs := by
  induction n generalizing s with
  | zero => simp [loop]
  | succ n ih =>
    constructor
    · intro h
      cases hafter : (turn s).after with
      | error e =>
        simp only [loop, hafter] at h
        exact ⟨0, n.succ_pos, s, .refl, h⟩
      | ok s' =>
        simp only [loop, hafter, List.mem_append] at h
        obtain h | h := h
        · exact ⟨0, n.succ_pos, s, .refl, h⟩
        · obtain ⟨k, hk, s'', hreach, hmem⟩ := ih.1 h
          exact ⟨k + 1, Nat.succ_lt_succ hk, s'', .head hafter hreach, hmem⟩
    · rintro ⟨k, hk, s'', hreach, hmem⟩
      cases hreach with
      | refl =>
        cases hafter : (turn s).after with
        | error e => simpa only [loop, hafter] using hmem
        | ok s' => simpa only [loop, hafter] using List.mem_append_left _ hmem
      | head hafter hreach =>
        simp only [loop, hafter]
        exact List.mem_append_right _ (ih.2 ⟨_, Nat.lt_of_succ_lt_succ hk, s'', hreach, hmem⟩)

/-- Of one kind of outputs, a loop has at most `c` a turn. -/
theorem countP_loop_le {p : α → Bool} {c : Nat} (h : ∀ s, (turn s).outputs.countP p ≤ c) :
    (loop turn dry n s).1.countP p ≤ n * c := by
  induction n generalizing s with
  | zero => simp [loop]
  | succ n ih =>
    rw [Nat.succ_mul]
    have hturn := h s
    cases hafter : (turn s).after with
    | error e =>
      simp only [loop, hafter]
      omega
    | ok s' =>
      simp only [loop, hafter, List.countP_append]
      have hrest := ih (s := s')
      omega

/-- What one turn preserves, a run of turns preserves. -/
theorem Turns.invariant {I : σ → Prop} (h : Turns turn k s s')
    (hstep : ∀ s s', I s → (turn s).after = .ok s' → I s') (h0 : I s) : I s' := by
  induction h with
  | refl => exact h0
  | head hafter _ ih => exact ih (hstep _ _ h0 hafter)

end LlmPort.Transition
