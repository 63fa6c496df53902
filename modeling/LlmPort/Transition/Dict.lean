import Mathlib.Data.List.Nodup
import LlmPort.Transition.Upsert

/-!
# Dicts

A dict as its entries in the order in which the keys came in.
-/

namespace LlmPort.Transition

structure Dict (κ α : Type*) where
  entries : List (κ × α)
  nodup : (entries.map (·.1)).Nodup

namespace Dict

variable {κ α : Type*}

def empty : Dict κ α := ⟨[], List.nodup_nil⟩

/-- Without the keys that are not kept. -/
def keep (dict : Dict κ α) (p : κ → Bool) : Dict κ α where
  entries := dict.entries.filter fun entry => p entry.1
  nodup := dict.nodup.sublist ((List.filter_sublist ..).map _)

section
variable [DecidableEq κ]

def get (dict : Dict κ α) (key : κ) : Option α := (dict.entries.find? (·.1 = key)).map (·.2)

/-- `dict[key] = value` -/
def set (dict : Dict κ α) (key : κ) (value : α) : Dict κ α where
  entries := upsert (·.1) (key, value) (fun _ => (key, value)) dict.entries
  nodup := nodup_upsert (fun _ h => h.symm) dict.nodup

def update (dict : Dict κ α) (items : List (κ × α)) : Dict κ α :=
  items.foldl (fun dict item => dict.set item.1 item.2) dict

def pop (dict : Dict κ α) (key : κ) : Dict κ α := dict.keep (· ≠ key)

variable {dict : Dict κ α} {key : κ} {value : α} {items : List (κ × α)} {item : κ × α}

theorem get_eq_some_iff : dict.get key = some value ↔ (key, value) ∈ dict.entries := by
  constructor
  · intro h
    obtain ⟨⟨key', value'⟩, hfind, rfl⟩ := Option.map_eq_some_iff.1 h
    cases of_decide_eq_true (List.find?_eq_some_iff_append.1 hfind).1
    exact List.mem_of_find?_eq_some hfind
  · intro h
    cases hfind : dict.entries.find? (·.1 = key) with
    | none => exact (List.find?_eq_none.1 hfind _ h (decide_eq_true rfl)).elim
    | some item =>
      have hkey := of_decide_eq_true (List.find?_eq_some_iff_append.1 hfind).1
      have hitem := List.inj_on_of_nodup_map dict.nodup (List.mem_of_find?_eq_some hfind) h hkey
      rw [get, hfind, hitem]
      rfl

theorem entries_eq_nil_iff : dict.entries = [] ↔ ∀ key, dict.get key = none := by
  constructor
  · intro h key
    rw [get, h]
    rfl
  · intro h
    refine List.eq_nil_iff_forall_not_mem.2 fun item hitem => ?_
    have hnone := h item.1
    rw [get_eq_some_iff.2 hitem] at hnone
    cases hnone

theorem get_empty (key : κ) : (empty : Dict κ α).get key = none := rfl

theorem get_set (key : κ) (value : α) (other : κ) :
    (dict.set key value).get other = if other = key then some value else dict.get other := by
  rw [get, set, find?_upsert fun _ h => h.symm]
  split
  next =>
    cases dict.entries.find? (·.1 = other) with
    | none => rfl
    | some item => rfl
  next => rfl

theorem get_keep (p : κ → Bool) (key : κ) :
    (dict.keep p).get key = if p key then dict.get key else none := by
  refine Option.ext fun value => ?_
  rw [get_eq_some_iff, keep, List.mem_filter, ← get_eq_some_iff]
  split
  next hp => exact and_iff_left hp
  next hp => exact iff_of_false (fun h => hp h.2) nofun

theorem get_pop (key other : κ) :
    (dict.pop key).get other = if other = key then none else dict.get other := by
  rw [pop, get_keep]
  by_cases h : other = key
  · rw [if_pos h, decide_eq_false (not_not.2 h), if_neg Bool.false_ne_true]
  · rw [if_neg h, decide_eq_true h, if_pos rfl]

theorem mem_set : item ∈ (dict.set key value).entries ↔
    item = (key, value) ∨ (item ∈ dict.entries ∧ item.1 ≠ key) := by
  obtain ⟨key', value'⟩ := item
  rw [← get_eq_some_iff, ← get_eq_some_iff, get_set]
  split
  next heq => simp [heq, eq_comm]
  next hne => simp [hne]

theorem get_update_of_notMem (h : ∀ item ∈ items, item.1 ≠ key) :
    (dict.update items).get key = dict.get key := by
  induction items generalizing dict with
  | nil => rfl
  | cons item items ih =>
    rw [update, List.foldl_cons, ← update, ih fun x hx => h x (List.mem_cons_of_mem _ hx),
      get_set, if_neg (h item List.mem_cons_self).symm]

theorem mem_of_mem_update (h : item ∈ (dict.update items).entries) :
    item ∈ dict.entries ∨ item ∈ items := by
  induction items generalizing dict with
  | nil => exact .inl h
  | cons first items ih =>
    rcases ih h with h | h
    · rcases mem_set.1 h with rfl | ⟨h, -⟩
      · exact .inr List.mem_cons_self
      · exact .inl h
    · exact .inr (List.mem_cons_of_mem _ h)

/-- Items with keys of their own are put behind. -/
theorem entries_update (h : ((dict.entries ++ items).map (·.1)).Nodup) :
    (dict.update items).entries = dict.entries ++ items := by
  induction items generalizing dict with
  | nil => exact (List.append_nil _).symm
  | cons item items ih =>
    have hnew : (dict.set item.1 item.2).entries = dict.entries ++ [item] := by
      refine upsert_of_new fun hmem => ?_
      rw [List.map_append] at h
      exact List.disjoint_of_nodup_append h hmem List.mem_cons_self
    rw [update, List.foldl_cons, ← update, ih, hnew, List.append_assoc, List.singleton_append]
    rwa [hnew, List.append_assoc, List.singleton_append]

end

end Dict

end LlmPort.Transition
