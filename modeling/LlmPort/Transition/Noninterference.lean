import LlmPort.Transition.Run

/-!
# Noninterference

What an observer sees of a run. Two runs of the same events from states that look alike to the
observer answer alike and keep looking alike, when every step does so under an invariant.
-/

namespace LlmPort.Transition

variable {σ : Type*} {ε : Type*} {β : Type*} {ω : Type*}

/-- The unwinding conditions of a machine that answers every event, for an observer who sees `view`
of a state: under the invariant and the guard, states that look alike answer an event alike and
lead to states that look alike. -/
structure Unwinding (step : σ → ε → σ) (answer : σ → ε → β) (view : σ → ω) (I : σ → Prop)
    (ok : σ → ε → Prop) : Prop where
  invariant : ∀ s e, I s → ok s e → I (step s e)
  answer_eq : ∀ s t e, I s → I t → ok s e → ok t e → view s = view t → answer s e = answer t e
  view_eq : ∀ s t e, I s → I t → ok s e → ok t e → view s = view t →
    view (step s e) = view (step t e)

/-- The answers of a run. -/
def answers (step : σ → ε → σ) (answer : σ → ε → β) : σ → List ε → List β :=
  trace step fun s e => [answer s e]

variable {step : σ → ε → σ} {answer : σ → ε → β} {view : σ → ω} {I : σ → Prop} {ok : σ → ε → Prop}
  {s t : σ} {es : List ε}

@[simp] theorem answers_nil : answers step answer s [] = [] := rfl

@[simp] theorem answers_cons {e : ε} :
    answers step answer s (e :: es) = answer s e :: answers step answer (step s e) es := rfl

/-- The two runs see the same. -/
theorem Unwinding.agree (H : Unwinding step answer view I ok) (hs : I s) (ht : I t)
    (hview : view s = view t) (hsok : Guarded step ok s es) (htok : Guarded step ok t es) :
    answers step answer s es = answers step answer t es ∧
      view (run step s es) = view (run step t es) := by
  induction es generalizing s t with
  | nil => exact ⟨rfl, hview⟩
  | cons e es ih =>
    obtain ⟨hse, hses⟩ := hsok
    obtain ⟨hte, htes⟩ := htok
    obtain ⟨hanswers, hviews⟩ := ih (H.invariant s e hs hse) (H.invariant t e ht hte)
      (H.view_eq s t e hs ht hse hte hview) hses htes
    refine ⟨?_, hviews⟩
    rw [answers_cons, answers_cons, H.answer_eq s t e hs ht hse hte hview, hanswers]

end LlmPort.Transition
