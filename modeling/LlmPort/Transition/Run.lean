import Mathlib.Data.List.Basic

/-!
# Runs of event-driven machines

A machine is a total function `step : σ → ε → σ`: an event carries every choice the environment
makes, and an event that is not enabled leaves the state alone. `run` folds the step over a list of
events, `Guarded` says that every step of a run meets a condition on the state it is taken in, and
the rules below turn what one step preserves into what a whole run preserves.
-/

namespace LlmPort.Transition

variable {σ : Type*} {ε : Type*} {τ : Type*} {δ : Type*}
variable {step : σ → ε → σ} {ok : σ → ε → Prop} {s : σ} {es : List ε}

/-- The state reached from `s` by the events `es`. -/
def run (step : σ → ε → σ) (s : σ) (es : List ε) : σ := es.foldl step s

@[simp] theorem run_nil : run step s [] = s := rfl

@[simp] theorem run_cons {e : ε} : run step s (e :: es) = run step (step s e) es := rfl

theorem run_append {es₁ es₂ : List ε} : run step s (es₁ ++ es₂) = run step (run step s es₁) es₂ :=
  List.foldl_append ..

@[simp] theorem run_snoc {e : ε} : run step s (es ++ [e]) = step (run step s es) e := run_append

/-- Every step of the run from `s` meets `ok` in the state in which it is taken. -/
def Guarded (step : σ → ε → σ) (ok : σ → ε → Prop) : σ → List ε → Prop
  | _, [] => True
  | s, e :: es => ok s e ∧ Guarded step ok (step s e) es

@[simp] theorem guarded_nil : Guarded step ok s [] := trivial

@[simp] theorem guarded_cons {e : ε} :
    Guarded step ok s (e :: es) ↔ ok s e ∧ Guarded step ok (step s e) es := .rfl

instance Guarded.decidable [∀ s e, Decidable (ok s e)] :
    ∀ (s : σ) (es : List ε), Decidable (Guarded step ok s es)
  | _, [] => .isTrue trivial
  | s, e :: es =>
    have := Guarded.decidable (step s e) es
    inferInstanceAs (Decidable (ok s e ∧ Guarded step ok (step s e) es))

theorem guarded_append {es₁ es₂ : List ε} :
    Guarded step ok s (es₁ ++ es₂) ↔
      Guarded step ok s es₁ ∧ Guarded step ok (run step s es₁) es₂ := by
  induction es₁ generalizing s with
  | nil => simp
  | cons e es ih => simp [ih, and_assoc]

/-- Two guards that agree under an invariant allow the same runs. -/
theorem guarded_congr {I : σ → Prop} {ok' : σ → ε → Prop} (hinv : ∀ s e, I s → I (step s e))
    (h : ∀ s e, I s → (ok s e ↔ ok' s e)) (h0 : I s) :
    Guarded step ok s es ↔ Guarded step ok' s es := by
  induction es generalizing s with
  | nil => rfl
  | cons e es ih => exact and_congr (h s e h0) (ih (hinv s e h0))

/-- Two guards that agree under an invariant of the second one allow the same runs. -/
theorem guarded_congr_of_guard {I : σ → Prop} {ok' : σ → ε → Prop}
    (hinv : ∀ s e, I s → ok' s e → I (step s e)) (h : ∀ s e, I s → (ok s e ↔ ok' s e)) (h0 : I s) :
    Guarded step ok s es ↔ Guarded step ok' s es := by
  induction es generalizing s with
  | nil => rfl
  | cons e es ih =>
    rw [guarded_cons, guarded_cons, h s e h0]
    exact and_congr_right fun hok => ih (hinv s e h0 hok)

/-- A condition on the events alone joins the guard. -/
theorem Guarded.and_events {p : ε → Prop} (hp : ∀ e ∈ es, p e) (H : Guarded step ok s es) :
    Guarded step (fun s e => p e ∧ ok s e) s es := by
  induction es generalizing s with
  | nil => trivial
  | cons e es ih =>
    exact ⟨⟨hp e List.mem_cons_self, H.1⟩, ih (fun e' he => hp e' (List.mem_cons_of_mem _ he)) H.2⟩

theorem Guarded.and {ok' : σ → ε → Prop} (H : Guarded step ok s es) (H' : Guarded step ok' s es) :
    Guarded step (fun s e => ok s e ∧ ok' s e) s es := by
  induction es generalizing s with
  | nil => trivial
  | cons e es ih => exact ⟨⟨H.1, H'.1⟩, ih H.2 H'.2⟩

/-- A run is guarded when each of its steps is. -/
theorem guarded_iff_split :
    Guarded step ok s es ↔ ∀ pre e post, es = pre ++ e :: post → ok (run step s pre) e := by
  constructor
  · rintro H pre e post rfl
    exact (guarded_append.1 H).2.1
  · intro H
    induction es generalizing s with
    | nil => trivial
    | cons e es ih =>
      refine ⟨H [] e es rfl, ih fun pre e' post h => ?_⟩
      exact H (e :: pre) e' post (by rw [h]; rfl)

/-- The invariant rule: what every guarded step preserves, every guarded run preserves. -/
theorem Guarded.invariant {I : σ → Prop} (hstep : ∀ s e, I s → ok s e → I (step s e))
    (h0 : I s) (H : Guarded step ok s es) : I (run step s es) := by
  induction es generalizing s with
  | nil => exact h0
  | cons e es ih => exact ih (hstep s e h0 H.1) H.2

/-- The invariant rule without a guard. -/
theorem run_invariant {I : σ → Prop} (hstep : ∀ s e, I s → I (step s e)) (h0 : I s) :
    I (run step s es) := by
  induction es generalizing s with
  | nil => exact h0
  | cons e es ih => exact ih (hstep s e h0)

/-- What holds where a run ends and not where it starts has come about in one of its steps. -/
theorem run_provenance {P Q : σ → Prop} (hstep : ∀ s e, Q (step s e) → Q s ∨ P s) (h0 : ¬ Q s)
    (h : Q (run step s es)) : ∃ pre, pre <+: es ∧ P (run step s pre) := by
  induction es generalizing s with
  | nil => exact absurd h h0
  | cons e es ih =>
    by_cases hQ : Q (step s e)
    · exact ⟨[], List.nil_prefix, (hstep s e hQ).resolve_left h0⟩
    · obtain ⟨pre, hpre, hP⟩ := ih hQ h
      exact ⟨e :: pre, List.cons_prefix_cons.2 ⟨rfl, hpre⟩, hP⟩

/-- A guard that keeps an invariant may be weakened to what the two imply. -/
theorem Guarded.imp {I : σ → Prop} {ok' : σ → ε → Prop} (hstep : ∀ s e, I s → ok s e → I (step s e))
    (himp : ∀ s e, I s → ok s e → ok' s e) (h0 : I s) (H : Guarded step ok s es) :
    Guarded step ok' s es := by
  induction es generalizing s with
  | nil => trivial
  | cons e es ih => exact ⟨himp s e h0 H.1, ih (hstep s e h0 H.1) H.2⟩

/-- The rule for a preorder on states: under an invariant, what relates the two ends of every
guarded step relates the two ends of every guarded run. -/
theorem Guarded.relation {I : σ → Prop} {R : σ → σ → Prop} (hrefl : ∀ s, R s s)
    (htrans : ∀ a b c, R a b → R b c → R a c) (hinv : ∀ s e, I s → I (step s e))
    (hstep : ∀ s e, I s → ok s e → R s (step s e)) (h0 : I s) (H : Guarded step ok s es) :
    R s (run step s es) := by
  induction es generalizing s with
  | nil => exact hrefl s
  | cons e es ih => exact htrans _ _ _ (hstep s e h0 H.1) (ih (hinv s e h0) H.2)

/-- `I` holds in every state of the run. -/
def Always (step : σ → ε → σ) (I : σ → Prop) (s : σ) (es : List ε) : Prop :=
  ∀ pre, pre <+: es → I (run step s pre)

/-- What an invariant of the guarded steps implies holds in every state of a guarded run. -/
theorem Guarded.always {I J : σ → Prop} (hstep : ∀ s e, I s → ok s e → I (step s e))
    (hI : ∀ s, I s → J s) (h0 : I s) (H : Guarded step ok s es) : Always step J s es := by
  rintro pre ⟨post, rfl⟩
  exact hI _ ((guarded_append.1 H).1.invariant hstep h0)

/-- `J` holds all along a run exactly if the run is guarded, when the guarded steps keep an
invariant that implies it and every other step breaks it. -/
theorem always_iff_guarded_of_invariant {I J : σ → Prop} (hI : ∀ s, I s → J s)
    (hstep : ∀ s e, I s → ok s e → I (step s e)) (hbreak : ∀ s e, I s → J (step s e) → ok s e)
    (h0 : I s) : Always step J s es ↔ Guarded step ok s es := by
  refine ⟨fun H => ?_, Guarded.always hstep hI h0⟩
  induction es generalizing s with
  | nil => trivial
  | cons e es ih =>
    have hok : ok s e := hbreak s e h0 (H [e] ⟨es, rfl⟩)
    refine ⟨hok, ih (hstep s e h0 hok) ?_⟩
    rintro pre ⟨post, rfl⟩
    exact H (e :: pre) ⟨post, rfl⟩

/-- The same for the runs that another guard allows. -/
theorem Guarded.always_iff_guarded {I J : σ → Prop} {ok' : σ → ε → Prop} (hI : ∀ s, I s → J s)
    (hstep : ∀ s e, I s → ok' s e → ok s e → I (step s e))
    (hbreak : ∀ s e, I s → J (step s e) → ok s e) (h0 : I s) (H : Guarded step ok' s es) :
    Always step J s es ↔ Guarded step ok s es := by
  refine ⟨fun hJ => ?_, fun hok =>
    (H.and hok).always (fun s e hIs hoks => hstep s e hIs hoks.1 hoks.2) hI h0⟩
  induction es generalizing s with
  | nil => trivial
  | cons e es ih =>
    have hok : ok s e := hbreak s e h0 (hJ [e] ⟨es, rfl⟩)
    refine ⟨hok, ih (hstep s e h0 H.1 hok) H.2 ?_⟩
    rintro pre ⟨post, rfl⟩
    exact hJ (e :: pre) ⟨post, rfl⟩

/-- A state property holds all along a run exactly if the run is guarded, when a step keeps it
exactly if it meets `ok`. -/
theorem always_iff_guarded {I : σ → Prop} (hstep : ∀ s e, I s → (I (step s e) ↔ ok s e))
    (h0 : I s) : Always step I s es ↔ Guarded step ok s es :=
  always_iff_guarded_of_invariant (fun _ hI => hI) (fun s e hI hok => (hstep s e hI).2 hok)
    (fun s e hI => (hstep s e hI).1) h0

/-- What is to hold where a run ends does so exactly if the run is guarded, when the guarded steps
keep an invariant, any other step leads where the end is never as it should be, and no step leads
back. -/
theorem ends_iff_guarded {I D J ended : σ → Prop} (hI : ∀ s, I s → ended s → J s)
    (hD : ∀ s, D s → ended s → ¬ J s) (hstep : ∀ s e, I s → ok s e → I (step s e))
    (hbreak : ∀ s e, I s → ¬ ok s e → D (step s e)) (hkeep : ∀ s e, D s → D (step s e)) (h0 : I s)
    (hended : ended (run step s es)) : J (run step s es) ↔ Guarded step ok s es := by
  refine ⟨fun H => ?_, fun H => hI _ (H.invariant hstep h0) hended⟩
  induction es generalizing s with
  | nil => trivial
  | cons e es ih =>
    have hok : ok s e := by
      by_contra hno
      exact hD _ (run_invariant hkeep (hbreak s e h0 hno)) hended H
    exact ⟨hok, ih (hstep s e h0 hok) hended H⟩

/-- `R` relates any earlier state of the run to any later one. -/
def Along (step : σ → ε → σ) (R : σ → σ → Prop) (s : σ) (es : List ε) : Prop :=
  ∀ pre mid post, es = pre ++ mid ++ post → R (run step s pre) (run step s (pre ++ mid))

/-- The rule for a preorder that every step respects. -/
theorem along_of_step {R : σ → σ → Prop} (hrefl : ∀ s, R s s)
    (htrans : ∀ a b c, R a b → R b c → R a c) (hstep : ∀ s e, R s (step s e)) :
    Along step R s es := by
  rintro pre mid post rfl
  rw [run_append]
  generalize run step s pre = s'
  induction mid generalizing s' with
  | nil => exact hrefl s'
  | cons e mid ih => exact htrans _ _ _ (hstep s' e) (ih _)

/-- The rule for a preorder with an exact guard: when under an invariant the two ends of a step are
related exactly if the step meets `ok`, a run keeps the relation exactly if it is guarded. -/
theorem along_iff_guarded {I : σ → Prop} {R : σ → σ → Prop} (hrefl : ∀ s, R s s)
    (htrans : ∀ a b c, R a b → R b c → R a c) (hinv : ∀ s e, I s → I (step s e))
    (hstep : ∀ s e, I s → (R s (step s e) ↔ ok s e)) (h0 : I s) :
    Along step R s es ↔ Guarded step ok s es := by
  constructor
  · intro H
    refine guarded_iff_split.2 fun pre e post h => ?_
    have hpre : I (run step s pre) := run_invariant hinv h0
    have hR := H pre [e] post (by rw [h, List.append_assoc, List.singleton_append])
    rw [run_snoc] at hR
    exact (hstep _ _ hpre).1 hR
  · rintro H pre mid post rfl
    have hpre : I (run step s pre) := run_invariant hinv h0
    rw [run_append]
    refine Guarded.relation hrefl htrans hinv (fun s e hI hok => (hstep s e hI).2 hok) hpre ?_
    exact (guarded_append.1 (guarded_append.1 H).1).2

/-- The states some run reaches from an initial state. -/
def Reachable (init : σ → Prop) (step : σ → ε → σ) (s : σ) : Prop :=
  ∃ s₀ es, init s₀ ∧ run step s₀ es = s

theorem Reachable.run {init : σ → Prop} (h : Reachable init step s) (es : List ε) :
    Reachable init step (run step s es) := by
  obtain ⟨s₀, es₀, h0, rfl⟩ := h
  exact ⟨s₀, es₀ ++ es, h0, run_append⟩

theorem Reachable.invariant {init I : σ → Prop} (hinit : ∀ s, init s → I s)
    (hstep : ∀ s e, I s → I (step s e)) (h : Reachable init step s) : I s := by
  obtain ⟨s₀, es, h0, rfl⟩ := h
  exact run_invariant hstep (hinit _ h0)

/-- The abstract events of a run: each concrete step contributes a list of them. -/
def trace (step : σ → ε → σ) (emit : σ → ε → List δ) : σ → List ε → List δ
  | _, [] => []
  | s, e :: es => emit s e ++ trace step emit (step s e) es

@[simp] theorem trace_nil {emit : σ → ε → List δ} : trace step emit s [] = [] := rfl

@[simp] theorem trace_cons {emit : σ → ε → List δ} {e : ε} :
    trace step emit s (e :: es) = emit s e ++ trace step emit (step s e) es := rfl

/-- The simulation rule: if every step carries the abstraction along the abstract events it
emits, then so does every run. -/
theorem run_simulates {I : σ → Prop} (abs : σ → τ) {step' : τ → δ → τ} {emit : σ → ε → List δ}
    (hinv : ∀ s e, I s → I (step s e))
    (hsim : ∀ s e, I s → abs (step s e) = run step' (abs s) (emit s e)) (h0 : I s) :
    abs (run step s es) = run step' (abs s) (trace step emit s es) := by
  induction es generalizing s with
  | nil => rfl
  | cons e es ih => rw [run_cons, trace_cons, run_append, ih (hinv s e h0), hsim s e h0]

/-! ## Loops that may fail -/

section
variable {α β κ : Type*} {f : β → α → Except κ β} {l : List α} {acc out : β}

theorem bind_eq_ok.{u, v} {α β : Type u} {κ : Type v} {x : Except κ α} {g : α → Except κ β}
    {b : β} : x >>= g = .ok b ↔ ∃ a, x = .ok a ∧ g a = .ok b := by
  constructor
  · intro h
    cases x with
    | error e => cases h
    | ok a => exact ⟨a, rfl, h⟩
  · rintro ⟨a, rfl, h⟩
    exact h

/-- A loop whose turns all succeed and carry an invariant on what has been done succeeds. -/
theorem foldlM_total {P : List α → β → Prop}
    (hstep : ∀ done x todo acc, l = done ++ x :: todo → P done acc →
      ∃ acc', f acc x = .ok acc' ∧ P (done ++ [x]) acc') (h0 : P [] acc) :
    ∃ out, l.foldlM f acc = .ok out ∧ P l out := by
  have hfrom : ∀ todo done acc, l = done ++ todo → P done acc →
      ∃ out, todo.foldlM f acc = .ok out ∧ P l out := by
    intro todo
    induction todo with
    | nil =>
      intro done acc hl hP
      rw [List.append_nil] at hl
      exact ⟨acc, rfl, hl ▸ hP⟩
    | cons x todo ih =>
      intro done acc hl hP
      obtain ⟨acc', hx, hP'⟩ := hstep done x todo acc hl hP
      obtain ⟨out, hout, hPl⟩ := ih (done ++ [x]) acc' (by simp [hl]) hP'
      refine ⟨out, ?_, hPl⟩
      rw [List.foldlM_cons, hx]
      exact hout
  exact hfrom l [] acc rfl h0

/-- What every turn that succeeds preserves holds where the loop ends. -/
theorem foldlM_invariant {P : β → Prop}
    (hstep : ∀ x ∈ l, ∀ acc acc', P acc → f acc x = .ok acc' → P acc') (h0 : P acc)
    (h : l.foldlM f acc = .ok out) : P out := by
  induction l generalizing acc with
  | nil =>
    cases h
    exact h0
  | cons x l ih =>
    rw [List.foldlM_cons] at h
    cases hx : f acc x with
    | error e =>
      rw [hx] at h
      cases h
    | ok acc' =>
      rw [hx] at h
      refine ih (fun y hy => hstep y (List.mem_cons_of_mem _ hy)) ?_ h
      exact hstep x List.mem_cons_self acc acc' h0 hx

end

end LlmPort.Transition
