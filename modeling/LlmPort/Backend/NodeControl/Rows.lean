import LlmPort.Backend.NodeControl.Service

/-!
# What the service's operations do to the command rows

`getCommand` under each write, and for a preorder `P` on rows the relation `Rewrites P`: the second
store has the rows of the first one, in order and under the same ids, each related to the old one by
`P`. Every operation of the service but `issueCommand` only rewrites rows, up to its own writes.
-/

namespace LlmPort.Backend.NodeControl

namespace Store

variable {s s' s₁ s₂ : Store} {c command : InfraNodeCommand} {id : Uuid}

theorem getCommand_id (h : s.getCommand id = some c) : c.id = id := by
  simpa using List.find?_some h

theorem getCommand_mem (h : s.getCommand id = some c) : c ∈ s.commands :=
  List.mem_of_find?_eq_some h

theorem getCommand_congr (h : s.commands = s'.commands) : s.getCommand id = s'.getCommand id := by
  simp only [getCommand, h]

theorem getCommand_updateCommand :
    (s.updateCommand command).getCommand id =
      (s.getCommand id).map fun c => if c.id = command.id then command else c := by
  simp only [getCommand, updateCommand, List.find?_map]
  congr 2
  funext c
  by_cases h : c.id = command.id <;> simp [h]

@[simp] theorem getCommand_updateCommand_self (h : s.getCommand command.id = some c) :
    (s.updateCommand command).getCommand command.id = some command := by
  simp [getCommand_updateCommand, h, getCommand_id h]

theorem getCommand_updateCommand_own (hc : s.getCommand c.id = some c) (hid : command.id = c.id) :
    (s.updateCommand command).getCommand c.id = some command := by
  simp [getCommand_updateCommand, hc, hid]

theorem getCommand_updateCommand_of_ne (h : id ≠ command.id) :
    (s.updateCommand command).getCommand id = s.getCommand id := by
  rw [getCommand_updateCommand]
  cases hc : s.getCommand id with
  | none => rfl
  | some c => simp [getCommand_id hc, h]

@[simp] theorem appendCommandEvent_commands {phase message : String} {p : Option EventPayload} :
    (s.appendCommandEvent id phase message p).commands = s.commands := rfl

@[simp] theorem call_commands {x : SyncCall} : (s.call x).commands = s.commands := rfl

@[simp] theorem updateRuntime_commands {r : LLMRuntime} :
    (s.updateRuntime r).commands = s.commands := rfl

@[simp] theorem updateNode_commands {n : InfraNode} : (s.updateNode n).commands = s.commands := rfl

@[simp] theorem updateSession_commands {x : InfraNodeSession} :
    (s.updateSession x).commands = s.commands := rfl

@[simp] theorem upsertWorkloadAssignment_commands {row : InfraNodeWorkloadAssignment} :
    (s.upsertWorkloadAssignment row).commands = s.commands := by
  unfold upsertWorkloadAssignment; split <;> rfl

/-- A row that is inserted has an id of its own and a key that is free on its node. -/
theorem insertCommand_eq_some :
    s.insertCommand command = some s' ↔
      fitsColumns command ∧ (∀ c ∈ s.commands, c.id ≠ command.id ∧ ¬ conflicts command c) ∧
        s' = { s with commands := s.commands ++ [command] } := by
  unfold insertCommand
  split
  next h =>
    simp only [List.any_eq_true, decide_eq_true_eq, not_exists, not_and, not_or] at h
    simp only [Option.some.injEq]
    exact ⟨fun e => ⟨h.1, h.2, e.symm⟩, fun ⟨_, _, e⟩ => e.symm⟩
  next h =>
    simp only [reduceCtorEq, false_iff]
    rintro ⟨h₁, h₂, -⟩
    refine h ⟨h₁, ?_⟩
    simpa only [List.any_eq_true, decide_eq_true_eq, not_exists, not_and, not_or] using h₂

theorem getCommand_append (h : s'.commands = s.commands ++ [command]) :
    s'.getCommand id = (s.getCommand id <|> if command.id = id then some command else none) := by
  simp only [getCommand, h, List.find?_append, List.find?_singleton]
  simp

/-- The store with one more command row and its first timeline entry. -/
def withCommand (s : Store) (command : InfraNodeCommand) : Store :=
  { s with commands := s.commands ++ [command] }.appendCommandEvent command.id "queued"
    s!"Command queued: {command.commandType.value}" none

@[simp] theorem withCommand_commands :
    (s.withCommand command).commands = s.commands ++ [command] := rfl

@[simp] theorem withCommand_runtimes : (s.withCommand command).runtimes = s.runtimes := rfl

theorem createCommand_eq_some {r : Store × InfraNodeCommand}
    (h : s.createCommand command = some r) :
    r = (s.withCommand command, command) ∧
      ∀ c ∈ s.commands, c.id ≠ command.id ∧ ¬ conflicts command c := by
  obtain ⟨s', hs, rfl⟩ := Option.map_eq_some_iff.1 h
  obtain ⟨_, hnew, rfl⟩ := insertCommand_eq_some.1 hs
  exact ⟨rfl, hnew⟩

theorem flushCommand_eq_some (h : s.flushCommand command = some s') :
    s' = s.updateCommand command := by
  unfold flushCommand at h
  split at h
  · exact (Option.some.inj h).symm
  · cases h

/-- The columns of a command row that no operation changes once it is inserted. -/
structure CommandSpec where
  id : Uuid
  nodeId : Uuid
  commandType : NodeCommandType
  payloadJson : CommandPayload
  timeoutSec : Option Int
  issuedAt : Time

def specOf (c : InfraNodeCommand) : CommandSpec :=
  ⟨c.id, c.nodeId, c.commandType, c.payloadJson, c.timeoutSec, c.issuedAt⟩

theorem specOf_id {c c' : InfraNodeCommand} (h : specOf c' = specOf c) : c'.id = c.id :=
  congrArg CommandSpec.id h

@[simp] theorem specOf_setCommandStatus {now : Time} {status : NodeCommandStatus}
    {r : Option ResultJson} {e m : Option String} :
    specOf (setCommandStatus now c status r e m) = specOf c := rfl

def specs (s : Store) : List CommandSpec := s.commands.map specOf

/-- The primary key: no two command rows share an id. -/
def Keyed (s : Store) : Prop := (s.specs.map (·.id)).Nodup

theorem keyed_oneNode {nodeId : Uuid} : (oneNode nodeId).Keyed := List.nodup_nil

theorem keyed_oneRuntime {nodeId runtimeId : Uuid} : (oneRuntime nodeId runtimeId).Keyed :=
  List.nodup_nil

theorem Keyed.nodup (h : s.Keyed) : (s.commands.map (·.id)).Nodup := by
  simpa only [Keyed, specs, List.map_map, Function.comp_def, specOf] using h

theorem Keyed.nodup_filter (h : s.Keyed) (p : InfraNodeCommand → Bool) :
    ((s.commands.filter p).map (·.id)).Nodup :=
  h.nodup.sublist (List.filter_sublist.map _)

theorem Keyed.eq_of_mem (h : s.Keyed) {c d : InfraNodeCommand} (hc : c ∈ s.commands)
    (hd : d ∈ s.commands) (e : c.id = d.id) : c = d :=
  List.inj_on_of_nodup_map h.nodup hc hd e

theorem Keyed.getCommand (h : s.Keyed) (hc : c ∈ s.commands) : s.getCommand c.id = some c := by
  cases hd : s.getCommand c.id with
  | none =>
    have := List.find?_eq_none.1 hd c hc
    simp at this
  | some d => rw [h.eq_of_mem (getCommand_mem hd) hc (getCommand_id hd)]

/-- `s'` has the rows of `s`, in order, each rewritten up to `P`. -/
structure Rewrites (P : InfraNodeCommand → InfraNodeCommand → Prop) (s s' : Store) : Prop where
  specs : s'.specs = s.specs
  rows : ∀ id c, s.getCommand id = some c →
    ∃ c', s'.getCommand id = some c' ∧ specOf c' = specOf c ∧ P c c'

section
variable {P : InfraNodeCommand → InfraNodeCommand → Prop}

theorem Rewrites.keyed (h : Rewrites P s s') (hk : s.Keyed) : s'.Keyed := by
  unfold Keyed
  rw [h.specs]
  exact hk

theorem Rewrites.of_commands (hr : ∀ c, P c c) (h : s'.commands = s.commands) :
    Rewrites P s s' where
  specs := by simp only [Store.specs, h]
  rows _ c hc := ⟨c, (getCommand_congr h).trans hc, rfl, hr c⟩

theorem Rewrites.trans_commands (h : Rewrites P s s₁) (hs : s₂.commands = s₁.commands) :
    Rewrites P s s₂ where
  specs := (by simp only [Store.specs, hs] : s₂.specs = s₁.specs).trans h.specs
  rows id c hc := by
    obtain ⟨c', hc', hp⟩ := h.rows id c hc
    exact ⟨c', (getCommand_congr hs).trans hc', hp⟩

theorem Rewrites.trans (ht : ∀ a b c, P a b → P b c → P a c) (h₁ : Rewrites P s s₁)
    (h₂ : Rewrites P s₁ s₂) : Rewrites P s s₂ where
  specs := h₂.specs.trans h₁.specs
  rows id c hc := by
    obtain ⟨c₁, hc₁, hs₁, hp₁⟩ := h₁.rows id c hc
    obtain ⟨c₂, hc₂, hs₂, hp₂⟩ := h₂.rows id c₁ hc₁
    exact ⟨c₂, hc₂, hs₂.trans hs₁, ht _ _ _ hp₁ hp₂⟩

theorem Rewrites.updateCommand (hr : ∀ c, P c c) (hk : s.Keyed)
    (hc : s.getCommand c.id = some c) (h : P c command) (hs : specOf command = specOf c) :
    Rewrites P s (s.updateCommand command) where
  specs := by
    simp only [Store.specs, Store.updateCommand, List.map_map]
    refine List.map_congr_left fun d hd => ?_
    simp only [Function.comp]
    split
    next e => rw [hk.eq_of_mem hd (getCommand_mem hc) (e.trans (specOf_id hs)), hs]
    next => rfl
  rows id d hd := by
    rw [← specOf_id hs] at hc
    by_cases e : id = command.id
    · subst e
      rw [hc] at hd
      cases hd
      exact ⟨command, getCommand_updateCommand_self hc, hs, h⟩
    · exact ⟨d, (getCommand_updateCommand_of_ne e).trans hd, rfl, hr d⟩

end

/-- The later store has the rows of the earlier one, as they were inserted. -/
def Grows (s s' : Store) : Prop :=
  ∀ id c, s.getCommand id = some c → ∃ c', s'.getCommand id = some c' ∧ specOf c' = specOf c

theorem Grows.of_commands (h : s'.commands = s.commands) : Grows s s' := fun _ c hc =>
  ⟨c, (getCommand_congr h).trans hc, rfl⟩

theorem Grows.trans (h₁ : Grows s s₁) (h₂ : Grows s₁ s₂) : Grows s s₂ := by
  intro id c hc
  obtain ⟨c₁, hc₁, hs₁⟩ := h₁ id c hc
  obtain ⟨c₂, hc₂, hs₂⟩ := h₂ id c₁ hc₁
  exact ⟨c₂, hc₂, hs₂.trans hs₁⟩

theorem Rewrites.grows {P : InfraNodeCommand → InfraNodeCommand → Prop} (h : Rewrites P s s') :
    Grows s s' := by
  intro id c hc
  obtain ⟨c', hc', hs, -⟩ := h.rows id c hc
  exact ⟨c', hc', hs⟩

@[simp] theorem withCommand_specs :
    (s.withCommand command).specs = s.specs ++ [specOf command] := by
  simp [specs]

/-- `s'` has the rows of `s`, each rewritten up to `P`, and at most one more, queued and under an id
of its own. -/
inductive Extends (P : InfraNodeCommand → InfraNodeCommand → Prop) (s s' : Store) : Prop
  | same (h : Rewrites P s s')
  | more (s₁ : Store) (command : InfraNodeCommand) (h : Rewrites P s s₁)
      (hq : command.status = .queued) (hnew : ∀ c ∈ s₁.commands, c.id ≠ command.id)
      (hs : s'.commands = s₁.commands ++ [command])

section
variable {P : InfraNodeCommand → InfraNodeCommand → Prop}

theorem Extends.trans_commands (h : Extends P s s₁) (hs : s₂.commands = s₁.commands) :
    Extends P s s₂ := by
  cases h with
  | same h => exact .same (h.trans_commands hs)
  | more s₃ command h hq hnew hc => exact .more s₃ command h hq hnew (hs.trans hc)

theorem Extends.of_commands_left (h : Extends P s s') (hs : s.commands = s₁.commands) :
    Extends P s₁ s' := by
  have left {s₂ : Store} (h : Rewrites P s s₂) : Rewrites P s₁ s₂ := by
    refine ⟨h.specs.trans (by simp only [specs, hs]), fun id c hc => h.rows id c ?_⟩
    exact (getCommand_congr hs).trans hc
  cases h with
  | same h => exact .same (left h)
  | more s₃ command h hq hnew hc => exact .more s₃ command (left h) hq hnew hc

theorem Extends.rows (h : Extends P s s') (hc : s.getCommand id = some c) :
    ∃ c', s'.getCommand id = some c' ∧ specOf c' = specOf c ∧ P c c' := by
  cases h with
  | same h => exact h.rows id c hc
  | more s₁ command h hq hnew hs =>
    obtain ⟨c', hc', hp⟩ := h.rows id c hc
    exact ⟨c', by rw [getCommand_append hs, hc']; rfl, hp⟩

theorem Keyed.append (hk : s.Keyed) (hnew : ∀ c ∈ s.commands, c.id ≠ command.id)
    (hs : s'.commands = s.commands ++ [command]) : s'.Keyed := by
  simp only [Keyed, specs, hs, List.map_append, List.map_map, List.nodup_append]
  refine ⟨by simpa only [Keyed, specs, List.map_map] using hk, List.nodup_singleton _, ?_⟩
  intro a ha b hb
  obtain ⟨c, hc, rfl⟩ := List.mem_map.1 ha
  rw [List.mem_singleton.1 hb]
  exact hnew c hc

theorem Extends.keyed (h : Extends P s s') (hk : s.Keyed) : s'.Keyed := by
  cases h with
  | same h => exact h.keyed hk
  | more s₁ command h hq hnew hs => exact (h.keyed hk).append hnew hs

end

theorem mem_of_mem_oldestFirst {limit : Nat} {rows : List InfraNodeCommand}
    (h : c ∈ oldestFirst limit rows) : c ∈ rows :=
  (List.mem_insertionSort _).1 (List.mem_of_mem_take h)

theorem nodup_oldestFirst {limit : Nat} {rows : List InfraNodeCommand}
    (h : (rows.map (·.id)).Nodup) : ((oldestFirst limit rows).map (·.id)).Nodup := by
  refine List.Nodup.sublist ((List.take_sublist _ _).map _) ?_
  exact ((List.perm_insertionSort _ rows).map _).nodup_iff.2 h

end Store

namespace NodeControlService

open Store

variable {svc : NodeControlService} {s s' : Store} {now : Time} {nodeId commandId : Uuid}
  {P : InfraNodeCommand → InfraNodeCommand → Prop}

/-- The loop rule: what every iteration on the live row of a listed command preserves, the loop
preserves. -/
theorem forEachCommand_induct_mem {α : Type} {store : α → Store} {body : α → InfraNodeCommand → α}
    {motive : α → Prop} {init : α} (commands : List InfraNodeCommand) (h0 : motive init)
    (hstep : ∀ a c command, c ∈ commands → motive a → (store a).getCommand c.id = some command →
      motive (body a command)) :
    motive (forEachCommand commands init store body) := by
  apply List.foldlRecOn commands _ h0
  intro a ha c hc
  split
  next command hlive => exact hstep a c command hc ha hlive
  next => exact ha

theorem forEachCommand_induct {α : Type} {store : α → Store} {body : α → InfraNodeCommand → α}
    {motive : α → Prop} {init : α} (commands : List InfraNodeCommand) (h0 : motive init)
    (hstep : ∀ a command, motive a → (store a).getCommand command.id = some command →
      motive (body a command)) :
    motive (forEachCommand commands init store body) := by
  apply forEachCommand_induct_mem commands h0
  intro a c command _ ha hlive
  apply hstep a command ha
  rw [getCommand_id hlive]
  exact hlive

/-- The loop rule for an invariant on the commands that are done. -/
theorem forEachCommand_induct_done {α : Type} {store : α → Store}
    {body : α → InfraNodeCommand → α} {motive : List InfraNodeCommand → α → Prop} {init : α}
    (commands : List InfraNodeCommand) (h0 : motive [] init)
    (hstep : ∀ done c rest a, commands = done ++ c :: rest → motive done a →
      motive (done ++ [c]) (match (store a).getCommand c.id with
        | some command => body a command
        | none => a)) :
    motive commands (forEachCommand commands init store body) := by
  have hfrom : ∀ todo done a, commands = done ++ todo → motive done a →
      motive commands (forEachCommand todo a store body) := by
    intro todo
    induction todo with
    | nil =>
      intro done a hl ha
      rw [List.append_nil] at hl
      rw [hl]
      exact ha
    | cons c todo ih =>
      intro done a hl ha
      exact ih (done ++ [c]) _ (by simp [hl]) (hstep done c todo a hl ha)
  exact hfrom commands [] init rfl h0

theorem keyed_iff : s.Keyed ↔ (s.commands.map (·.id)).Nodup := by
  simp only [Keyed, specs, List.map_map, Function.comp_def, specOf]

theorem keyed_map (hk : s.Keyed) {f : InfraNodeCommand → InfraNodeCommand}
    (hf : ∀ c, (f c).id = c.id) (h : s'.commands = s.commands.map f) : s'.Keyed := by
  rw [keyed_iff, h, List.map_map, Function.comp_def]
  simp only [hf]
  exact hk.nodup

theorem getCommand_of_map {f : InfraNodeCommand → InfraNodeCommand} {id : Uuid}
    (hf : ∀ c, (f c).id = c.id) (h : s'.commands = s.commands.map f) :
    s'.getCommand id = (s.getCommand id).map f := by
  rw [Store.getCommand, h, List.find?_map]
  simp only [Function.comp_def, hf]
  rfl

/-- The loop rule for a loop that rewrites the rows of distinct commands one after the other: each
iteration finds the row as it was before the loop. -/
theorem forEachCommand_rewrite {α : Type} {store : α → Store} {body : α → InfraNodeCommand → α}
    {f : InfraNodeCommand → InfraNodeCommand} {J : List InfraNodeCommand → α → Prop} {init : α}
    (hf : ∀ c, (f c).id = c.id) (commands : List InfraNodeCommand) (hk : (store init).Keyed)
    (hnodup : (commands.map (·.id)).Nodup) (hmem : ∀ c ∈ commands, c ∈ (store init).commands)
    (h0 : J [] init)
    (hstep : ∀ done a c, c ∈ commands → J done a → (store a).Keyed →
      (store a).getCommand c.id = some c → J (done ++ [c]) (body a c) ∧
        (store (body a c)).commands = ((store a).updateCommand (f c)).commands) :
    J commands (forEachCommand commands init store body) ∧
      (store (forEachCommand commands init store body)).commands =
        (store init).commands.map fun c => if commands.any (·.id = c.id) then f c else c := by
  have hpart (done : List InfraNodeCommand) (c : InfraNodeCommand) :
      (if done.any (·.id = c.id) then f c else c).id = c.id := by
    split
    next => exact hf c
    next => rfl
  refine forEachCommand_induct_done (motive := fun done a => J done a ∧ (store a).commands =
    (store init).commands.map fun c => if done.any (·.id = c.id) then f c else c) commands
    ⟨h0, by simp⟩ ?_
  rintro done c rest a hsplit ⟨hJ, hrows⟩
  have hc : c ∈ commands := by
    rw [hsplit]
    exact List.mem_append_right _ List.mem_cons_self
  have hnew : done.any (fun x => x.id = c.id) = false := by
    rw [hsplit, List.map_append, List.nodup_append] at hnodup
    rw [List.any_eq_false]
    intro x hx heq
    apply hnodup.2.2 x.id (List.mem_map_of_mem hx) c.id
    · exact List.mem_map_of_mem List.mem_cons_self
    · exact of_decide_eq_true heq
  have hlive : (store a).getCommand c.id = some c := by
    rw [getCommand_of_map (hpart done) hrows, hk.getCommand (hmem c hc), Option.map_some, hnew]
    rfl
  obtain ⟨hJ', hupdated⟩ := hstep done a c hc hJ (keyed_map hk (hpart done) hrows) hlive
  simp only [hlive]
  refine ⟨hJ', ?_⟩
  rw [hupdated, Store.updateCommand, hrows, List.map_map]
  refine List.map_congr_left fun x hx => ?_
  rw [Function.comp_apply, hpart, hf]
  by_cases heq : x.id = c.id
  · rw [if_pos heq, hk.eq_of_mem hx (hmem c hc) heq]
    simp
  · have hone : [c].any (fun y => y.id = x.id) = false := by
      simpa using Ne.symm heq
    rw [if_neg heq, List.any_append, hone, Bool.or_false]

/-- A row that is written back as it is. -/
theorem updateCommand_self {c : InfraNodeCommand} (hk : s.Keyed) (hc : s.getCommand c.id = some c) :
    (s.updateCommand c).commands = s.commands := by
  rw [Store.updateCommand]
  refine (List.map_congr_left fun x hx => ?_).trans (List.map_id _)
  split
  next heq => exact (hk.eq_of_mem hx (getCommand_mem hc) heq).symm
  next => rfl

theorem isInflight_of_commandIsOverdue {c : InfraNodeCommand} (h : svc.commandIsOverdue now c) :
    c.status.isInflight := by
  unfold commandIsOverdue at h
  split at h
  next hi => exact hi
  next => cases h

theorem isInflight_of_isStale {c : InfraNodeCommand} (h : svc.isStale now s c) :
    c.status.isInflight := by
  unfold isStale at h
  split at h
  next => cases h
  next =>
    simp only [Bool.decide_and, Bool.and_eq_true, decide_eq_true_eq] at h
    exact isInflight_of_commandIsOverdue h.2.1

theorem ownCommand_eq_some {c : InfraNodeCommand} :
    ownCommand s nodeId commandId = some c ↔
      s.getCommand commandId = some c ∧ c.nodeId = nodeId := by
  simp [ownCommand, Option.filter_eq_some_iff]

theorem ownCommand_get {c : InfraNodeCommand} (h : ownCommand s nodeId commandId = some c) :
    s.getCommand c.id = some c := by
  have hc := (ownCommand_eq_some.1 h).1
  rw [getCommand_id hc]
  exact hc

theorem getCommand_recordCommandAck {message : Option String} {c : InfraNodeCommand}
    (hc : ownCommand s nodeId commandId = some c) :
    (recordCommandAck now nodeId commandId message s).getCommand c.id =
      some (setCommandStatus now c .acked none none none) := by
  simp only [recordCommandAck, hc]
  exact getCommand_updateCommand_own (ownCommand_get hc) rfl

theorem getCommand_recordCommandProgress {message : Option String} {c : InfraNodeCommand}
    (hc : ownCommand s nodeId commandId = some c) :
    (recordCommandProgress now nodeId commandId message s).getCommand c.id =
      some (setCommandStatus now c .running none none none) := by
  simp only [recordCommandProgress, hc]
  exact getCommand_updateCommand_own (ownCommand_get hc) rfl

/-- What issuing a command can do: answer the command in flight under the key, or add a row,
after a terminal row under the key has been retired. -/
theorem issueCommand_cases {draw : Draw} {req : CommandRequest} {command : InfraNodeCommand}
    (h : svc.issueCommand draw req s = .ok (s', command)) :
    (s.getCommandByIdempotencyKey req.nodeId (requestKey draw req) = some command ∧
      command.status.isTerminal = false ∧ s' = s) ∨
    ∃ s₁, (s.getCommandByIdempotencyKey req.nodeId (requestKey draw req) = none ∧ s₁ = s ∨
        ∃ old, s.getCommandByIdempotencyKey req.nodeId (requestKey draw req) = some old ∧
          old.status.isTerminal ∧ s₁ = s.updateCommand
            { old with idempotencyKey := retiredKey (requestKey draw req) old.id }) ∧
      command = svc.queuedCommand draw req (requestKey draw req) ∧ s' = s₁.withCommand command ∧
      ∀ c ∈ s₁.commands, c.id ≠ command.id ∧ ¬ conflicts command c := by
  unfold issueCommand at h
  generalize requestKey draw req = key at h ⊢
  cases hn : s.getNodeById req.nodeId with
  | none => simp [hn] at h
  | some node =>
    cases hk : s.getCommandByIdempotencyKey req.nodeId key with
    | none =>
      simp only [hn, hk] at h
      split at h
      next created hc =>
        obtain ⟨rfl, hnew⟩ := createCommand_eq_some hc
        cases h
        exact .inr ⟨s, .inl ⟨rfl, rfl⟩, rfl, rfl, hnew⟩
      next => cases h
    | some old =>
      simp only [hn, hk] at h
      split at h
      next ht =>
        cases hf : s.flushCommand { old with idempotencyKey := retiredKey key old.id } with
        | none => simp [hf] at h
        | some s₁ =>
          simp only [hf] at h
          split at h
          next created hc =>
            obtain ⟨rfl, hnew⟩ := createCommand_eq_some hc
            cases h
            exact .inr ⟨s₁, .inr ⟨old, rfl, ht, flushCommand_eq_some hf⟩, rfl, rfl, hnew⟩
          next => cases h
      next ht =>
        cases h
        exact .inl ⟨rfl, by simpa using ht, rfl⟩

@[simp] theorem syncCall_commands {x : SyncCall} : (svc.syncCall x s).commands = s.commands := by
  unfold syncCall; split <;> rfl

@[simp] theorem promoteModelStatus_commands {r : LLMRuntime} :
    (promoteModelStatus r s).commands = s.commands := by
  unfold promoteModelStatus
  split
  · rfl
  · split <;> rfl

@[simp] theorem publishRuntimeToGateway_commands {r : LLMRuntime} :
    (svc.publishRuntimeToGateway r s).commands = s.commands := by
  unfold publishRuntimeToGateway
  split
  · split <;> rfl
  · rfl

@[simp] theorem applyOutcome_commands {c : InfraNodeCommand} {ok : Bool} {p : CommandResult}
    {r : LLMRuntime} : (svc.applyOutcome c ok p r s).1.commands = s.commands := by
  unfold applyOutcome applySuccess applyFailure
  split
  · split <;> try simp
    all_goals split <;> simp
  · split <;> simp

@[simp] theorem applyRuntimeSideEffect_commands {c : InfraNodeCommand} {ok : Bool}
    {p : CommandResult} : (svc.applyRuntimeSideEffect c ok p s).commands = s.commands := by
  unfold applyRuntimeSideEffect
  split <;> try rfl
  split <;> simp

/-- The store after a result frame for a row of its sender that the error code fits. -/
theorem recordCommandResult_own (svc : NodeControlService) (now : Time) {payload : CommandResult}
    {c : InfraNodeCommand} (hc : ownCommand s nodeId commandId = some c)
    (hf : fits 128 payload.errorCode) :
    ∃ s', svc.recordCommandResult now nodeId commandId payload s = .ok s' ∧
      s'.commands = (s.updateCommand (resultRow now payload c)).commands := by
  simp only [recordCommandResult, hc, if_pos hf]
  exact ⟨_, rfl, by simp⟩

@[simp] theorem demoteOne_commands {r : LLMRuntime} :
    (svc.demoteOne nodeId s r).commands = s.commands := by
  unfold demoteOne
  split <;> simp

@[simp] theorem demoteNodeRuntimes_commands :
    (svc.demoteNodeRuntimes nodeId s).commands = s.commands := by
  unfold demoteNodeRuntimes
  refine List.foldlRecOn _ _ (motive := fun s' : Store => s'.commands = s.commands) rfl ?_
  intro s' h r _
  exact demoteOne_commands.trans h

@[simp] theorem closeStreamSession_commands {id : Uuid} :
    (svc.closeStreamSession id s).commands = s.commands := by
  unfold closeStreamSession
  split
  · rfl
  · simp only
    split
    · rfl
    · split <;> simp

@[simp] theorem updateStreamOffset_commands {id : Uuid} {offset : Int} :
    (updateStreamOffset id offset s).1.commands = s.commands := by
  unfold updateStreamOffset
  split
  · rfl
  · split <;> rfl

section
variable (hr : ∀ c, P c c) (ht : ∀ a b c, P a b → P b c → P a c)
include hr ht

/-- The loop rule for rewriting. -/
theorem Rewrites.forEachCommand {α : Type} (store : α → Store)
    {body : α → InfraNodeCommand → α} (init : α) (commands : List InfraNodeCommand)
    (hk : (store init).Keyed)
    (hstep : ∀ a command, (store a).Keyed → (store a).getCommand command.id = some command →
      Rewrites P (store a) (store (body a command))) :
    Rewrites P (store init) (store (forEachCommand commands init store body)) := by
  refine forEachCommand_induct commands (motive := fun a => Rewrites P (store init) (store a))
    (.of_commands hr rfl) ?_
  intro a command ha hc
  exact ha.trans ht (hstep a command (ha.keyed hk) hc)

theorem listCommandsForDispatch_rewrites (nodeId : Uuid) (limit : Nat) (hk : s.Keyed)
    (hq : ∀ c, c.status = .queued → P c (setCommandStatus now c .dispatched none none none)) :
    Rewrites P s (listCommandsForDispatch now nodeId limit s).1 := by
  refine Rewrites.forEachCommand hr ht (·.1) (s, ([] : List DispatchItem)) _ hk ?_
  intro a command hka hc
  unfold dispatchOne
  split
  next h => exact .trans_commands (.updateCommand hr hka hc (hq _ h) rfl) rfl
  next => exact .of_commands hr rfl

theorem listDispatchableCommands_rewrites {limit : Nat} (hk : s.Keyed)
    (hq : ∀ c, c.status = .queued → P c (setCommandStatus now c .dispatched none none none)) :
    Rewrites P s (svc.listDispatchableCommands now nodeId limit s).1 := by
  have h := listCommandsForDispatch_rewrites hr ht nodeId limit hk hq
  apply h.trans ht
  refine Rewrites.forEachCommand hr ht (·.1) (listCommandsForDispatch now nodeId limit s) _
    (h.keyed hk) ?_
  intro a command _ _
  unfold redispatchOne
  split <;> exact .of_commands hr rfl

omit ht in
theorem reapOne_rewrites {a : Store × Nat} {command : InfraNodeCommand} (hk : a.1.Keyed)
    (hc : a.1.getCommand command.id = some command)
    (hq : ∀ c, c.status.isInflight → P c (svc.timedOutRow now c)) :
    Rewrites P a.1 (svc.reapOne now a command).1 := by
  unfold reapOne
  split
  next h =>
    refine .trans_commands (.updateCommand hr hk hc (hq _ ?_) rfl) (by simp)
    exact isInflight_of_isStale h
  next => exact .of_commands hr rfl

theorem reapStaleCommands_rewrites (hk : s.Keyed)
    (hq : ∀ c, c.status.isInflight → P c (svc.timedOutRow now c)) :
    Rewrites P s (svc.reapStaleCommands now s).1 := by
  refine Rewrites.forEachCommand hr ht (·.1) (s, 0) _ hk ?_
  intro a command hka hc
  exact reapOne_rewrites hr hka hc hq

end

/-- The item is a copy of a row of the node, as it is now up to its progress. -/
def Copies (nodeId : Uuid) (s : Store) (item : DispatchItem) : Prop :=
  ∃ c, s.getCommand item.command.id = some c ∧ specOf c = specOf item.command ∧ c.nodeId = nodeId

theorem Copies.of_live {c : InfraNodeCommand} {redispatch : Bool} (hn : c.nodeId = nodeId)
    (hc : s.getCommand c.id = some c) : Copies nodeId s ⟨c, redispatch⟩ := ⟨c, hc, rfl, hn⟩

theorem Copies.grows {item : DispatchItem} (h : Copies nodeId s item) (hg : Grows s s') :
    Copies nodeId s' item := by
  obtain ⟨c, hc, hs, hn⟩ := h
  obtain ⟨c', hc', hs'⟩ := hg _ c hc
  exact ⟨c', hc', hs'.trans hs, (congrArg CommandSpec.nodeId hs').trans hn⟩

/-- The store has a row of the node under this id. -/
def Hosts (nodeId : Uuid) (s : Store) (id : Uuid) : Prop :=
  ∃ c, s.getCommand id = some c ∧ c.nodeId = nodeId

theorem Hosts.grows {id : Uuid} (h : Hosts nodeId s id) (hg : Grows s s') : Hosts nodeId s' id := by
  obtain ⟨c, hc, hn⟩ := h
  obtain ⟨c', hc', hs'⟩ := hg _ c hc
  exact ⟨c', hc', (congrArg CommandSpec.nodeId hs').trans hn⟩

theorem hosts_of_copies {item : DispatchItem} {id : Uuid} (h : Copies nodeId s item)
    (hid : some item.command.id = some id) : Hosts nodeId s id := by
  obtain ⟨c, hc, -, hn⟩ := h
  cases hid
  exact ⟨c, hc, hn⟩

/-- The accumulator of a listing: a store whose rows are those of `s`, and copies of its rows. -/
structure Listed (nodeId : Uuid) (s : Store) (a : Store × List DispatchItem) : Prop where
  rewrites : Rewrites (fun _ _ => True) s a.1
  copies : ∀ item ∈ a.2, Copies nodeId a.1 item

theorem Listed.live {a : Store × List DispatchItem} (h : Listed nodeId s a) (hk : s.Keyed)
    {c command : InfraNodeCommand} (hc : c ∈ s.commands) (hn : c.nodeId = nodeId)
    (hlive : a.1.getCommand c.id = some command) :
    a.1.getCommand command.id = some command ∧ command.nodeId = nodeId := by
  obtain ⟨c', hc', hs, -⟩ := h.rewrites.rows c.id c (hk.getCommand hc)
  rw [hlive] at hc'
  cases hc'
  refine ⟨?_, (congrArg CommandSpec.nodeId hs).trans hn⟩
  rw [getCommand_id hlive]
  exact hlive

theorem Listed.snoc {a : Store × List DispatchItem} {s' : Store} {item : DispatchItem}
    (h : Listed nodeId s a) (hr : Rewrites (fun _ _ => True) a.1 s') (hi : Copies nodeId s' item) :
    Listed nodeId s (s', a.2 ++ [item]) := by
  refine ⟨h.rewrites.trans (fun _ _ _ _ _ => trivial) hr, ?_⟩
  intro x hx
  rcases List.mem_append.1 hx with hx | hx
  · exact (h.copies x hx).grows hr.grows
  · rw [List.mem_singleton.1 hx]
    exact hi

theorem listCommandsForDispatch_listed (now : Time) (nodeId : Uuid) (limit : Nat) (hk : s.Keyed) :
    Listed nodeId s (listCommandsForDispatch now nodeId limit s) := by
  refine forEachCommand_induct_mem _ (motive := Listed nodeId s)
    ⟨.of_commands (fun _ => trivial) rfl, fun _ h => nomatch h⟩ ?_
  intro a c command hm ha hlive
  have hm := List.mem_filter.1 (mem_of_mem_oldestFirst hm)
  obtain ⟨hc, hn⟩ := ha.live hk hm.1 (by simpa using (of_decide_eq_true hm.2).1) hlive
  have hka := ha.rewrites.keyed hk
  unfold dispatchOne
  split
  · have hup : Rewrites (fun _ _ => True) a.1 (a.1.updateCommand
        (setCommandStatus now command .dispatched none none none)) :=
      .updateCommand (fun _ => trivial) hka hc trivial rfl
    refine ha.snoc (hup.trans_commands rfl) (.of_live hn ?_)
    exact getCommand_updateCommand_self (c := command) hc
  · exact ha.snoc (.of_commands (fun _ => trivial) rfl) (.of_live hn hc)

theorem listDispatchableCommands_listed (svc : NodeControlService) (now : Time) (nodeId : Uuid)
    (limit : Nat) (hk : s.Keyed) :
    Listed nodeId s (svc.listDispatchableCommands now nodeId limit s) := by
  have h₁ := listCommandsForDispatch_listed now nodeId limit hk
  have hk₁ := h₁.rewrites.keyed hk
  have h₂ : Listed nodeId (listCommandsForDispatch now nodeId limit s).1
      (svc.listDispatchableCommands now nodeId limit s) := by
    refine forEachCommand_induct_mem _ (motive := Listed nodeId _)
      ⟨.of_commands (fun _ => trivial) rfl, h₁.copies⟩ ?_
    intro a c command hm ha hlive
    have hm := List.mem_filter.1 (mem_of_mem_oldestFirst hm)
    obtain ⟨hc, hn⟩ := ha.live hk₁ hm.1 (by simpa using (of_decide_eq_true hm.2).1) hlive
    unfold redispatchOne
    split
    · exact ha.snoc (.of_commands (fun _ => trivial) rfl) (.of_live hn hc)
    · exact ha
  exact ⟨h₁.rewrites.trans (fun _ _ _ _ _ => trivial) h₂.rewrites, h₂.copies⟩

section
variable (hr : ∀ c, P c c)
include hr

theorem recordCommandAck_rewrites {message : Option String} (hk : s.Keyed)
    (hq : ∀ c, ownCommand s nodeId commandId = some c →
      P c (setCommandStatus now c .acked none none none)) :
    Rewrites P s (recordCommandAck now nodeId commandId message s) := by
  unfold recordCommandAck
  split
  next => exact .of_commands hr rfl
  next c hc =>
    exact .trans_commands (.updateCommand hr hk (ownCommand_get hc) (hq c hc) rfl) rfl

theorem recordCommandProgress_rewrites {message : Option String} (hk : s.Keyed)
    (hq : ∀ c, ownCommand s nodeId commandId = some c →
      P c (setCommandStatus now c .running none none none)) :
    Rewrites P s (recordCommandProgress now nodeId commandId message s) := by
  unfold recordCommandProgress
  split
  next => exact .of_commands hr rfl
  next c hc =>
    exact .trans_commands (.updateCommand hr hk (ownCommand_get hc) (hq c hc) rfl) rfl

theorem recordCommandResult_rewrites {payload : CommandResult} (hk : s.Keyed)
    (h : svc.recordCommandResult now nodeId commandId payload s = .ok s')
    (hq : ∀ c, ownCommand s nodeId commandId = some c → fits 128 payload.errorCode →
      P c (resultRow now payload c)) :
    Rewrites P s s' := by
  unfold recordCommandResult at h
  split at h
  next =>
    cases h
    exact .of_commands hr rfl
  next c hc =>
    split at h
    next hf =>
      cases h
      refine .trans_commands (.updateCommand hr hk (ownCommand_get hc) (hq c hc hf) rfl) ?_
      simp
    next => cases h

theorem issueCommand_extends {draw : Draw} {req : CommandRequest} {command : InfraNodeCommand}
    (hk : s.Keyed) (h : svc.issueCommand draw req s = .ok (s', command))
    (hq : ∀ c key, c.status.isTerminal → P c { c with idempotencyKey := key }) :
    Extends P s s' := by
  rcases issueCommand_cases h with ⟨_, _, rfl⟩ | ⟨s₁, ⟨_, rfl⟩ | ⟨old, ho, ht, rfl⟩, rfl, rfl, hnew⟩
  · exact .same (.of_commands hr rfl)
  · exact .more _ _ (.of_commands hr rfl) rfl (fun c hc => (hnew c hc).1) rfl
  · have hold := hk.getCommand (List.mem_of_find?_eq_some ho)
    refine .more _ _ ?_ rfl (fun c hc => (hnew c hc).1) rfl
    exact .updateCommand hr hk hold (hq old _ ht) rfl

end

end NodeControlService

end LlmPort.Backend.NodeControl
