import Mathlib.Logic.Basic

/-!
# Computations that may raise

Pre- and postconditions for `EStateM`, where a computation that raises leaves the state it has
reached. `Ends` says where a computation ends from a state, and its rules compute the condition a
computation needs from those its parts need; `Keeps` is the frame of a computation.
-/

namespace LlmPort.Transition

universe u

variable {ε σ α β τ : Type u} {s : σ} {x : EStateM ε σ α} {f : α → EStateM ε σ β}
variable {Q Q' : α → σ → Prop} {E E' : ε → σ → Prop} {R : β → σ → Prop}

/-- From `s` on the computation returns as `Q` says, or raises as `E` says. -/
inductive Ends (x : EStateM ε σ α) (s : σ) (Q : α → σ → Prop) (E : ε → σ → Prop) : Prop
  | returns {a : α} {s' : σ} (h : x s = .ok a s') (hQ : Q a s')
  | raises {e : ε} {s' : σ} (h : x s = .error e s') (hE : E e s')

/-- The state in which the computation ends, either way. -/
def endState (x : EStateM ε σ α) (s : σ) : σ :=
  match x s with
  | .ok _ s' | .error _ s' => s'

theorem ends_iff : Ends x s Q E ↔ match x s with
    | .ok a s' => Q a s'
    | .error e s' => E e s' := by
  constructor
  · intro h
    cases h with
    | returns h hQ => rwa [h]
    | raises h hE => rwa [h]
  · intro h
    cases hx : x s with
    | ok a s' =>
      rw [hx] at h
      exact .returns hx h
    | error e s' =>
      rw [hx] at h
      exact .raises hx h

@[simp] theorem ends_pure {a : α} : Ends (pure a) s Q E ↔ Q a s := ends_iff

@[simp] theorem ends_throw {e : ε} : Ends (throw e : EStateM ε σ α) s Q E ↔ E e s := ends_iff

@[simp] theorem ends_get {Q : σ → σ → Prop} : Ends (get : EStateM ε σ σ) s Q E ↔ Q s s := ends_iff

@[simp] theorem ends_modify {g : σ → σ} {Q : PUnit → σ → Prop} :
    Ends (modify g : EStateM ε σ PUnit) s Q E ↔ Q ⟨⟩ (g s) := ends_iff

@[simp] theorem ends_bind : Ends (x >>= f) s R E ↔ Ends x s (fun a s' => Ends (f a) s' R E) E := by
  simp only [ends_iff, bind, EStateM.bind]
  cases x s with
  | ok a s' => rfl
  | error e s' => rfl

@[simp] theorem ends_ite {c : Prop} [Decidable c] {y : EStateM ε σ α} :
    Ends (if c then x else y) s Q E ↔ (c → Ends x s Q E) ∧ (¬ c → Ends y s Q E) := by
  by_cases hc : c
  · simp [hc]
  · simp [hc]

@[simp] theorem ends_tryCatch {handle : ε → EStateM ε σ α} : Ends (tryCatch x handle) s Q E ↔
    Ends x s Q fun e s' => Ends (handle e) s' Q E := by
  simp only [ends_iff, tryCatch, tryCatchThe, MonadExceptOf.tryCatch]
  delta EStateM.tryCatch
  cases x s with
  | ok a s' => rfl
  | error e s' => rfl

theorem Ends.imp (h : Ends x s Q E) (hQ : ∀ a s', Q a s' → Q' a s') (hE : ∀ e s', E e s' → E' e s') :
    Ends x s Q' E' := by
  cases h with
  | returns h hret => exact .returns h (hQ _ _ hret)
  | raises h herr => exact .raises h (hE _ _ herr)

theorem Ends.and (h : Ends x s Q E) (h' : Ends x s Q' E') :
    Ends x s (fun a s' => Q a s' ∧ Q' a s') fun e s' => E e s' ∧ E' e s' := by
  rw [ends_iff] at h h' ⊢
  cases hx : x s with
  | ok a s' =>
    rw [hx] at h h'
    exact ⟨h, h'⟩
  | error e s' =>
    rw [hx] at h h'
    exact ⟨h, h'⟩

/-- What does not raise returns. -/
theorem Ends.exists (h : Ends x s Q fun _ _ => False) : ∃ a s', Q a s' := by
  cases h with
  | returns h hQ => exact ⟨_, _, hQ⟩
  | raises h hE => exact hE.elim

/-- A condition on the state alone is one on the state in which the computation ends. -/
theorem ends_state {P : σ → Prop} :
    Ends x s (fun _ s' => P s') (fun _ s' => P s') ↔ P (endState x s) := by
  rw [ends_iff, endState]
  cases x s with
  | ok a s' => rfl
  | error e s' => rfl

theorem endState_bind_pure {h : α → β} : endState (x >>= fun a => pure (h a)) s = endState x s := by
  simp only [endState, bind, EStateM.bind]
  cases x s with
  | ok a s' => rfl
  | error e s' => rfl

/-- However the computation ends, it leaves the part `g` of the state as it was. -/
def Keeps (g : σ → τ) (x : EStateM ε σ α) : Prop := ∀ s, g (endState x s) = g s

namespace Keeps

variable {g : σ → τ}

theorem ends (h : Keeps g x) (s : σ) :
    Ends x s (fun _ s' => g s' = g s) fun _ s' => g s' = g s := ends_state.2 (h s)

theorem of_ends (h : ∀ s, Ends x s (fun _ s' => g s' = g s) fun _ s' => g s' = g s) : Keeps g x :=
  fun s => ends_state.1 (h s)

theorem pure {a : α} : Keeps g (pure a : EStateM ε σ α) := fun _ => rfl

theorem throw {e : ε} : Keeps g (throw e : EStateM ε σ α) := fun _ => rfl

theorem get : Keeps g (get : EStateM ε σ σ) := fun _ => rfl

theorem bind (hx : Keeps g x) (hf : ∀ a, Keeps g (f a)) : Keeps g (x >>= f) :=
  of_ends fun s => Transition.ends_bind.2 <| (hx.ends s).imp
    (fun a s' h => ((hf a).ends s').imp (fun _ _ h' => h'.trans h) fun _ _ h' => h'.trans h)
    fun _ _ h => h

/-- The rule for a sequence whose first part leaves `g` as it was. -/
theorem ends_bind {v : τ} (hx : Keeps g x) (hs : g s = v)
    (hf : ∀ a s', g s' = v → Ends (f a) s' R E) (hE : ∀ e s', g s' = v → E e s') :
    Ends (x >>= f) s R E :=
  Transition.ends_bind.2 <| (hx.ends s).imp (fun a s' h => hf a s' (h.trans hs))
    fun e s' h => hE e s' (h.trans hs)

/-- The rule for a sequence whose first part leaves the whole state as it was. -/
theorem ends_bind_same (hx : Keeps id x) (hf : ∀ a, Ends (f a) s R E) (hE : ∀ e, E e s) :
    Ends (x >>= f) s R E := by
  refine Transition.ends_bind.2 ((hx.ends s).imp ?_ ?_)
  · rintro a _ rfl
    exact hf a
  · rintro e _ rfl
    exact hE e

theorem ite {c : Prop} [Decidable c] {y : EStateM ε σ α} (hx : c → Keeps g x)
    (hy : ¬ c → Keeps g y) : Keeps g (if c then x else y) := by
  split
  next hc => exact hx hc
  next hc => exact hy hc

end Keeps

/-- Whatever the computation raises is an error of the given kind. -/
def Raises (p : ε → Prop) (x : EStateM ε σ α) : Prop := ∀ s, Ends x s (fun _ _ => True) fun e _ => p e

namespace Raises

variable {p : ε → Prop}

theorem pure {a : α} : Raises p (pure a : EStateM ε σ α) := fun _ => ends_pure.2 trivial

theorem throw {e : ε} (h : p e) : Raises p (throw e : EStateM ε σ α) := fun _ => ends_throw.2 h

theorem get : Raises p (get : EStateM ε σ σ) := fun _ => ends_get.2 trivial

theorem modify {g : σ → σ} : Raises p (modify g : EStateM ε σ PUnit) := fun _ => ends_modify.2 trivial

theorem bind (hx : Raises p x) (hf : ∀ a, Raises p (f a)) : Raises p (x >>= f) := fun s =>
  ends_bind.2 <| (hx s).imp (fun a s' _ => hf a s') fun _ _ h => h

theorem ite {c : Prop} [Decidable c] {y : EStateM ε σ α} (hx : c → Raises p x)
    (hy : ¬ c → Raises p y) : Raises p (if c then x else y) := by
  split
  next hc => exact hx hc
  next hc => exact hy hc

/-- The rule for a sequence whose first part changes nothing. -/
theorem ends_bind (hr : Raises p x) (hk : Keeps id x) (hf : ∀ a, Ends (f a) s R E)
    (hE : ∀ e s', p e → E e s') : Ends (x >>= f) s R E := by
  refine Transition.ends_bind.2 (((hr s).and (hk.ends s)).imp ?_ ?_)
  · rintro a s' ⟨-, rfl⟩
    exact hf a
  · exact fun e s' h => hE e s' h.1

end Raises

end LlmPort.Transition
