import Mathlib.Logic.Function.Basic
import Mathlib.Logic.Relation

/-!
# Forests

A forest as the function that gives the parent of each node. A node that is moved closes a cycle
exactly if its new parent is below it.
-/

namespace LlmPort.Transition

variable {α : Type*}

/-- From a node to one on the way up from it: `b` is `a`, or above `a`. -/
def Below (parent : α → Option α) : α → α → Prop :=
  Relation.ReflTransGen fun a b => parent a = some b

/-- No node is above itself. -/
def Acyclic (parent : α → Option α) : Prop :=
  ∀ a, ¬ Relation.TransGen (fun a b => parent a = some b) a a

variable {parent parent' : α → Option α} {a b : α} {p : Option α}

theorem acyclic_none : Acyclic fun _ : α => none := by
  intro a h
  obtain ⟨b, hab, -⟩ := Relation.TransGen.head'_iff.1 h
  cases hab

/-- A forest that loses nodes stays one. -/
theorem Acyclic.mono (h : Acyclic parent) (hsub : ∀ a b, parent' a = some b → parent a = some b) :
    Acyclic parent' := fun a hcycle => h a (Relation.TransGen.mono hsub _ _ hcycle)

/-- What nothing is directly below, only itself is below. -/
theorem eq_of_below (hleaf : ∀ x, parent x ≠ some b) (h : Below parent a b) : a = b := by
  rcases Relation.ReflTransGen.cases_tail h with heq | ⟨x, -, hx⟩
  · exact heq.symm
  · exact absurd hx (hleaf x)

section
variable [DecidableEq α]

/-- A move changes nothing on the way up to the node. -/
theorem below_of_below_update (h : Below (Function.update parent a p) b a) : Below parent b a := by
  induction h using Relation.ReflTransGen.head_induction_on with
  | refl => exact .refl
  | @head x y hxy _ ih =>
    rcases eq_or_ne x a with rfl | hne
    · exact .refl
    · rw [Function.update_of_ne hne] at hxy
      exact .head hxy ih

theorem below_update_iff : Below (Function.update parent a p) b a ↔ Below parent b a := by
  refine ⟨below_of_below_update, fun h => ?_⟩
  have hback : Function.update (Function.update parent a p) a (parent a) = parent := by
    rw [Function.update_idem, Function.update_eq_self]
  rw [← hback] at h
  exact below_of_below_update h

/-- Where a way up is not one from before, it goes through the node that was moved. -/
theorem transGen_update {x y : α}
    (h : Relation.TransGen (fun c d => Function.update parent a p c = some d) x y) :
    Relation.TransGen (fun c d => parent c = some d) x y ∨
      Below (Function.update parent a p) x a ∧
        Relation.TransGen (fun c d => Function.update parent a p c = some d) a y := by
  induction h using Relation.TransGen.head_induction_on with
  | @single x hxy =>
    rcases eq_or_ne x a with rfl | hne
    · exact .inr ⟨.refl, .single hxy⟩
    · rw [Function.update_of_ne hne] at hxy
      exact .inl (.single hxy)
  | @head x z hxz hzy ih =>
    rcases eq_or_ne x a with rfl | hne
    · exact .inr ⟨.refl, .head hxz hzy⟩
    · rcases ih with hold | ⟨hbelow, habove⟩
      · rw [Function.update_of_ne hne] at hxz
        exact .inl (.head hxz hold)
      · exact .inr ⟨.head hxz hbelow, habove⟩

/-- A move keeps a forest acyclic exactly if the new parent is not the node, nor below it. -/
theorem acyclic_update_iff (h : Acyclic parent) :
    Acyclic (Function.update parent a p) ↔ ∀ b, p = some b → ¬ Below parent b a := by
  constructor
  · rintro hnew b rfl hbelow
    refine hnew a (Relation.TransGen.head' ?_ (below_update_iff.2 hbelow))
    exact Function.update_self _ _ _
  · intro hfree x hcycle
    rcases transGen_update hcycle with hold | ⟨hbelow, habove⟩
    · exact h x hold
    · obtain ⟨b, hab, hup⟩ := Relation.TransGen.head'_iff.1 (habove.trans_left hbelow)
      rw [Function.update_self] at hab
      exact hfree b hab (below_update_iff.1 hup)

end

end LlmPort.Transition
