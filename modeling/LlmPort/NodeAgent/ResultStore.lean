import Mathlib.Data.List.Sort
import Mathlib.Data.String.Basic
import LlmPort.NodeAgent.Dispatcher
import LlmPort.Transition.Recency
import LlmPort.Transition.Run

/-!
# The remembered results

`completed_commands` of `state_store.py`, in memory and in the state file. The dictionary keeps the
order in which its keys were inserted; the file is written with `sort_keys=True` and read back in
that order. Of the ids only the order matters in which they are sorted, of a payload nothing.
-/

namespace LlmPort.NodeAgent

open Transition

variable {κ : Type} {V : Type}

/-- `StateStore`, as far as the results go. -/
structure ResultStore (κ V : Type) where
  completedCommands : List (κ × V)
  file : List (κ × V)

namespace ResultStore

/-- `completed_commands[command_id] = payload`, and the first keys are popped. -/
def remember [DecidableEq κ] (entries : List (κ × V)) (commandId : κ) (payload : V) : List (κ × V) :=
  let entries := upsert (·.1) (commandId, payload) (fun _ => (commandId, payload)) entries
  entries.drop (entries.length - AgentState.maxEntries)

variable [LinearOrder κ]

/-- `json.dump(payload, handle, indent=2, sort_keys=True)` -/
def save (s : ResultStore κ V) : ResultStore κ V :=
  { s with file := s.completedCommands.insertionSort (·.1 ≤ ·.1) }

def load (s : ResultStore κ V) : ResultStore κ V := { s with completedCommands := s.file }

def rememberCommandResult (s : ResultStore κ V) (commandId : κ) (payload : V) : ResultStore κ V :=
  save { s with completedCommands := remember s.completedCommands commandId payload }

theorem save_file_perm (s : ResultStore κ V) : s.save.file.Perm s.save.completedCommands :=
  List.perm_insertionSort _ _

end ResultStore

/-- The results as the handling of commands keeps them. -/
theorem AgentState.rememberCommandResult_eq (state : AgentState) (commandId : Backend.NodeControl.Uuid)
    (payload : Backend.NodeControl.CommandResult) :
    (state.rememberCommandResult commandId payload).completedCommands =
      ResultStore.remember state.completedCommands commandId payload := by
  rw [rememberCommandResult, assign, ResultStore.remember, upsert]

inductive StoreStep (κ V : Type) where
  | remember (commandId : κ) (payload : V)
  | save
  /-- The process ends, and a new one loads the file. -/
  | restart

/-- The store with the results that were ever remembered, in the order in which their ids were last
remembered. -/
structure RecalledStore (κ V : Type) where
  store : ResultStore κ V
  recalled : List (κ × V)

namespace RecalledStore

variable [LinearOrder κ]

def step (s : RecalledStore κ V) : StoreStep κ V → RecalledStore κ V
  | .remember commandId payload =>
    ⟨s.store.rememberCommandResult commandId payload, touch (·.1) (commandId, payload) s.recalled⟩
  | .save => { s with store := s.store.save }
  | .restart => { s with store := s.store.load }

/-- A new agent. -/
def fresh : RecalledStore κ V := ⟨⟨[], []⟩, []⟩

/-- The map has the most recently remembered results. -/
def KeepsLatest (s : RecalledStore κ V) : Prop :=
  s.store.completedCommands.Perm (latest AgentState.maxEntries s.recalled)

/-- A new id makes room in a full map by the key that is the first one in it, and this key is the
one that was remembered least recently. -/
def EvictsOldest (s : RecalledStore κ V) : StoreStep κ V → Prop
  | .remember commandId _ =>
    s.store.completedCommands.length = AgentState.maxEntries →
      commandId ∉ s.store.completedCommands.map (·.1) →
      s.store.completedCommands.head? = (latest AgentState.maxEntries s.recalled).head?
  | _ => True

variable {s : RecalledStore κ V} {e : StoreStep κ V}

/-- What holds besides: the file has what the map has, and no id is recalled twice. -/
structure Steady (s : RecalledStore κ V) : Prop where
  keeps : s.KeepsLatest
  file : s.store.file.Perm s.store.completedCommands
  recalled : (s.recalled.map (·.1)).Nodup

theorem maxEntries_pos : 0 < AgentState.maxEntries := by decide

theorem keepsLatest_remember {commandId : κ} {payload : V} (h : s.Steady) :
    (s.step (.remember commandId payload)).KeepsLatest ↔
      s.EvictsOldest (.remember commandId payload) := by
  have hpos := maxEntries_pos
  have hkeeps := h.keeps
  simp only [KeepsLatest, EvictsOldest, step, ResultStore.rememberCommandResult, ResultStore.save,
    ResultStore.remember] at hkeeps ⊢
  generalize AgentState.maxEntries = n at hpos hkeeps ⊢
  exact drop_upsert_perm_iff hpos h.recalled hkeeps

theorem steady_step (h : s.Steady) (hok : s.EvictsOldest e) : (s.step e).Steady := by
  cases e with
  | remember commandId payload =>
    refine ⟨(keepsLatest_remember h).2 hok, ?_, nodup_touch h.recalled⟩
    rw [step, ResultStore.rememberCommandResult]
    exact ResultStore.save_file_perm _
  | save => exact ⟨h.keeps, s.store.save_file_perm, h.recalled⟩
  | restart => exact ⟨h.file.trans h.keeps, .refl _, h.recalled⟩

theorem evictsOldest_of_keepsLatest (h : s.Steady) (hkeeps : (s.step e).KeepsLatest) :
    s.EvictsOldest e := by
  cases e with
  | remember commandId payload => exact (keepsLatest_remember h).1 hkeeps
  | _ => trivial

omit [LinearOrder κ] in
theorem steady_fresh : (fresh : RecalledStore κ V).Steady := by
  refine ⟨?_, .refl _, List.nodup_nil⟩
  rw [KeepsLatest, latest_of_length_le (Nat.zero_le _)]
  exact .refl _

/-- The map has the most recently remembered results all along a run exactly if every result that
makes room evicts the one remembered least recently. -/
theorem always_keepsLatest_iff (steps : List (StoreStep κ V)) :
    Always step KeepsLatest fresh steps ↔ Guarded step EvictsOldest fresh steps :=
  always_iff_guarded_of_invariant (fun _ h => h.keeps) (fun _ _ => steady_step)
    (fun _ _ => evictsOldest_of_keepsLatest) steady_fresh

omit [LinearOrder κ] in
theorem map_fst_pairs (ids : List κ) (payload : V) :
    (ids.map fun id => (id, payload)).map (·.1) = ids := by
  rw [List.map_map]
  exact List.map_id ids

/-- Up to the cap, new ids are kept in their order. -/
theorem run_remember (ids : List κ) (payload : V) (hnodup : ids.Nodup)
    (hlen : ids.length ≤ AgentState.maxEntries) :
    (run step fresh (ids.map fun id => .remember id payload)).store.completedCommands =
        ids.map (·, payload) ∧
      (run step fresh (ids.map fun id => .remember id payload)).recalled = ids.map (·, payload) := by
  induction ids using List.reverseRecOn with
  | nil => exact ⟨rfl, rfl⟩
  | append_singleton ids id ih =>
    rw [List.nodup_append] at hnodup
    rw [List.length_append, List.length_singleton] at hlen
    obtain ⟨hentries, hrecalled⟩ := ih hnodup.1 (by omega)
    have hnew : id ∉ (ids.map fun id => (id, payload)).map (·.1) := by
      rw [map_fst_pairs]
      exact fun hmem => hnodup.2.2 id hmem id (List.mem_singleton_self _) rfl
    have hnone : (ids.map fun id => (id, payload)).any (fun x => x.1 = id) = false := by
      rw [List.any_eq_false]
      intro x hx heq
      exact hnew (List.mem_map.2 ⟨x, hx, of_decide_eq_true heq⟩)
    rw [List.map_append, List.map_singleton, run_snoc]
    simp only [step, ResultStore.rememberCommandResult, ResultStore.save, ResultStore.remember]
    rw [hentries, hrecalled, upsert]
    simp only
    rw [hnone, if_neg (by decide), List.length_append, List.length_map, List.length_singleton,
      Nat.sub_eq_zero_of_le hlen, List.drop_zero]
    refine ⟨by simp, ?_⟩
    rw [touch_of_not_mem hnew]
    simp

/-- In a full map the first id is remembered again, and then a new one: the first id goes. -/
theorem not_always_keepsLatest {a b new : κ} {rest : List κ} (payload : V)
    (hnodup : (a :: b :: rest).Nodup) (hlen : (a :: b :: rest).length = AgentState.maxEntries)
    (hnew : new ∉ a :: b :: rest) :
    ¬ Always step KeepsLatest fresh (((a :: b :: rest).map fun id => .remember id payload) ++
      [.remember a payload, .remember new payload]) := by
  intro h
  obtain ⟨hentries, hrecalled⟩ := run_remember (a :: b :: rest) payload hnodup (Nat.le_of_eq hlen)
  have hkeeps := h (((a :: b :: rest).map fun id => .remember id payload) ++ [.remember a payload])
    ⟨[.remember new payload], by simp⟩
  have hends := h _ (List.prefix_refl _)
  rw [run_append] at hkeeps hends
  simp only [run_cons, run_nil] at hkeeps hends
  generalize run step fresh ((a :: b :: rest).map fun id => StoreStep.remember id payload) = s
    at hentries hrecalled hkeeps hends
  have hplace : (s.step (.remember a payload)).store.completedCommands =
      (a :: b :: rest).map fun id => (id, payload) := by
    have hupsert : upsert (·.1) (a, payload) (fun _ => (a, payload))
        ((a :: b :: rest).map fun id => (id, payload)) =
          (a :: b :: rest).map fun id => (id, payload) := by
      rw [upsert, if_pos (by simp), List.map_map]
      refine List.map_congr_left fun id _ => ?_
      rw [Function.comp_apply]
      split
      next heq => rw [show id = a from heq]
      next => rfl
    simp only [step, ResultStore.rememberCommandResult, ResultStore.save, ResultStore.remember]
    rw [hentries, hupsert, List.length_map, hlen, Nat.sub_self, List.drop_zero]
  have htouched : (s.step (.remember a payload)).recalled =
      (b :: rest).map (fun id => (id, payload)) ++ [(a, payload)] := by
    simp only [step]
    rw [hrecalled, touch, List.map_cons, List.filter_cons_of_neg (by simp), filter_ne_of_not_mem]
    simpa using (List.nodup_cons.1 hnodup).1
  have hsteady : (s.step (.remember a payload)).Steady := by
    refine ⟨hkeeps, ResultStore.save_file_perm _, nodup_touch ?_⟩
    rw [hrecalled, map_fst_pairs]
    exact hnodup
  have hoks := evictsOldest_of_keepsLatest hsteady hends
  simp only [EvictsOldest] at hoks
  rw [hplace, htouched, List.length_map, map_fst_pairs, latest_of_length_le] at hoks
  · have hhead := hoks hlen hnew
    simp only [List.map_cons, List.head?_cons, List.cons_append, Option.some.injEq] at hhead
    have heq : a = b := congrArg Prod.fst hhead
    apply (List.nodup_cons.1 hnodup).1
    rw [heq]
    exact List.mem_cons_self
  · rw [List.length_append, List.length_map, List.length_singleton]
    exact Nat.le_of_eq hlen

/-- The ids "a", "aa" and so on. -/
def commandId (n : Nat) : String := String.ofList (List.replicate (n + 1) 'a')

theorem commandId_injective : Function.Injective commandId := by
  intro m n h
  have hlength := congrArg List.length (String.ofList_injective h)
  rw [List.length_replicate, List.length_replicate] at hlength
  omega

/-- After 500 commands the first one is remembered again, then another one: the map forgets the
first, which is newer than the 499 others that it keeps. -/
theorem not_always_keepsLatest_repeated :
    ¬ Always step KeepsLatest fresh
      ((commandId 0 :: commandId 1 :: (List.range 498).map fun n => commandId (n + 2)).map
          (fun id => StoreStep.remember id ()) ++
        [.remember (commandId 0) (), .remember (commandId 500) ()]) := by
  have hne {m n : Nat} (h : m ≠ n) : commandId m ≠ commandId n := fun heq => h (commandId_injective heq)
  have hrest {m : Nat} (h : m < 2 ∨ 500 ≤ m) :
      commandId m ∉ (List.range 498).map fun n => commandId (n + 2) := by
    intro hmem
    obtain ⟨n, hn, heq⟩ := List.mem_map.1 hmem
    rw [List.mem_range] at hn
    have := commandId_injective heq
    omega
  refine not_always_keepsLatest () ?_ ?_ ?_
  · refine List.nodup_cons.2 ⟨?_, List.nodup_cons.2 ⟨hrest (by omega), ?_⟩⟩
    · rw [List.mem_cons, not_or]
      exact ⟨hne (by omega), hrest (by omega)⟩
    · refine List.nodup_range.map fun m n h => ?_
      have := commandId_injective h
      omega
  · rw [List.length_cons, List.length_cons, List.length_map, List.length_range]
    rfl
  · rw [List.mem_cons, List.mem_cons, not_or, not_or]
    exact ⟨hne (by omega), hne (by omega), hrest (by omega)⟩

end RecalledStore

end LlmPort.NodeAgent
