import LlmPort.Transition.Run

/-!
# Registers driven by several writers

A register holds a value and the key of the newest writer. Writers announce themselves in order and
then touch the value any number of times, in any order. `arrival` applies every touch as it arrives;
`latest` is the specification in which only the newest writer's touches count.
-/

namespace LlmPort.Transition

variable {κ : Type*} {V : Type*}

structure Register (κ V : Type*) where
  newest : Option κ
  value : V

inductive Touch (κ V : Type*) where
  /-- A new writer. -/
  | issued (k : κ)
  /-- A touch by which the writer `k` sets the value outright. -/
  | set (k : κ) (v : V)
  /-- A touch by which the writer `k` changes the value it finds. -/
  | modify (k : κ) (f : V → V)
  /-- A change that no writer makes. -/
  | direct (f : V → V)

namespace Register

/-- Every touch is applied in arrival order. -/
def arrival (r : Register κ V) : Touch κ V → Register κ V
  | .issued k => { r with newest := some k }
  | .set _ v => { r with value := v }
  | .modify _ f | .direct f => { r with value := f r.value }

variable [DecidableEq κ]

/-- Only the touches of the newest writer are applied. -/
def latest (r : Register κ V) : Touch κ V → Register κ V
  | .issued k => { r with newest := some k }
  | .set k v => if r.newest = some k then { r with value := v } else r
  | .modify k f => if r.newest = some k then { r with value := f r.value } else r
  | .direct f => { r with value := f r.value }

theorem newest_latest {r r' : Register κ V} {t : Touch κ V} (h : r.newest = r'.newest) :
    (r.arrival t).newest = (r'.latest t).newest := by
  cases t with
  | issued | direct => first | rfl | exact h
  | set | modify =>
    simp only [latest]
    split <;> exact h

/-- The newest writer has the last word at the end of the touches: no older writer touches the value
after the newest one last set it outright. `fresh` tells whether that holds at the start. -/
def newestSpeaksLast (r : Register κ V) (fresh : Bool) : List (Touch κ V) → Bool
  | [] => fresh
  | t :: ts => (r.arrival t).newestSpeaksLast (match t with
    | .issued _ | .direct _ => fresh
    | .set k _ => r.newest = some k
    | .modify k _ => fresh && r.newest = some k) ts

/-- Where the newest writer has the last word, applying every touch meets the specification. -/
theorem run_arrival_eq_latest {r r' : Register κ V} {fresh : Bool} {ts : List (Touch κ V)}
    (hn : r.newest = r'.newest) (hv : fresh → r.value = r'.value)
    (h : r.newestSpeaksLast fresh ts) : (run arrival r ts).value = (run latest r' ts).value := by
  induction ts generalizing r r' fresh with
  | nil => exact hv h
  | cons t ts ih =>
    rw [run_cons, run_cons]
    cases t with
    | issued k => exact ih rfl hv h
    | direct f => exact ih hn (fun hf => congrArg f (hv hf)) h
    | set k v =>
      refine ih (newest_latest hn) (fun hk => ?_) h
      have hk : r'.newest = some k := hn ▸ of_decide_eq_true hk
      simp [arrival, latest, hk]
    | modify k f =>
      refine ih (newest_latest hn) (fun hk => ?_) h
      obtain ⟨hf, hk⟩ := (Bool.and_eq_true _ _).mp hk
      have hk : r'.newest = some k := hn ▸ of_decide_eq_true hk
      simp [arrival, latest, hk, hv hf]

end Register

end LlmPort.Transition
