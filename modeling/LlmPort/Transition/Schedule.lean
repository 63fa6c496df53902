import LlmPort.Transition.Run

/-!
# Schedules

An unending run of an event-driven machine: the events of every time. What is safe holds at every
time by induction; what happens at some time follows from one helpful event that a fair schedule
does not put off for ever.
-/

namespace LlmPort.Transition

variable {σ : Type*} {ε : Type*} {step : σ → ε → σ} {s : σ} {events : ℕ → ε}

/-- The state after the first `n` events. -/
def stateAt (step : σ → ε → σ) (s : σ) (events : ℕ → ε) : ℕ → σ
  | 0 => s
  | n + 1 => step (stateAt step s events n) (events n)

theorem stateAt_succ (n : ℕ) :
    stateAt step s events (n + 1) = step (stateAt step s events n) (events n) := rfl

/-- The invariant rule, with a guard. -/
theorem stateAt_invariant {I : σ → Prop} {ok : σ → ε → Prop}
    (hstep : ∀ s e, I s → ok s e → I (step s e)) (h0 : I s)
    (hok : ∀ n, ok (stateAt step s events n) (events n)) (n : ℕ) : I (stateAt step s events n) := by
  induction n with
  | zero => exact h0
  | succ n ih => exact hstep _ _ ih (hok n)

/-- What every step keeps stays. -/
theorem stateAt_stable {P : σ → Prop} (hstep : ∀ s e, P s → P (step s e)) {n m : ℕ} (hle : n ≤ m)
    (h : P (stateAt step s events n)) : P (stateAt step s events m) := by
  induction hle with
  | refl => exact h
  | step _ ih => exact hstep _ _ ih

/-- From `P` the schedule gets to `Q`, if each step keeps `P` or gets there, a helpful one gets
there, and `P` does not wait for a helpful one for ever. -/
theorem leadsTo {P Q : σ → Prop} {helpful : σ → ε → Prop}
    (hnext : ∀ s e, P s → P (step s e) ∨ Q (step s e))
    (hhelpful : ∀ s e, P s → helpful s e → Q (step s e))
    (hfair : ∀ n, P (stateAt step s events n) →
      ∃ m, n ≤ m ∧ helpful (stateAt step s events m) (events m))
    {n : ℕ} (h : P (stateAt step s events n)) : ∃ m, n ≤ m ∧ Q (stateAt step s events m) := by
  obtain ⟨m, hle, hm⟩ := hfair n h
  have hsofar : P (stateAt step s events m) ∨ ∃ l, n ≤ l ∧ Q (stateAt step s events l) := by
    clear hm
    induction hle with
    | refl => exact .inl h
    | step hle ih =>
      rcases ih with hP | hQ
      · exact (hnext _ _ hP).imp_right fun hQ => ⟨_, Nat.le_succ_of_le hle, hQ⟩
      · exact .inr hQ
  rcases hsofar with hP | hQ
  · exact ⟨m + 1, Nat.le_succ_of_le hle, hhelpful _ _ hP hm⟩
  · exact hQ

end LlmPort.Transition
