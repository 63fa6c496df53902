import Mathlib.Logic.Function.Basic
import LlmPort.Mcp.Registry
import LlmPort.Transition.Run

/-!
# Connections to the servers

`services/connection_manager.py` and the endpoints of `web/api/admin/views.py` that register,
update, delete, refresh and test a server. Each awaits the database and the transports, and others
run meanwhile: a request is the segment that it takes next. The manager looks for a connection
before it opens one and enters it afterwards, whatever has been entered since.
-/

namespace LlmPort.Mcp

open Transition

section
variable (C : Type)

/-- The columns of a server that its connection depends on, in a type of their own: what
`_server_config_from_model` takes from it. -/
structure ServerRow where
  enabled : Bool
  config : C

/-- A transport adapter, as `_create_adapter` makes it. -/
structure MCPAdapter where
  serverId : ServerId
  config : C

/-- `enabled`, and what the other fields that are given make of the configuration. -/
structure UpdateServerRequest where
  enabled : Option Bool
  changes : Option (C → C)

/-- What a request does next. -/
inductive ServerTask where
  /-- `register_server` has committed the row. -/
  | registered (id : ServerId)
  /-- `update_server` has found the row. -/
  | patch (id : ServerId) (body : UpdateServerRequest C)
  /-- It has committed the update. -/
  | reconnect (id : ServerId) (body : UpdateServerRequest C)
  /-- `MCPConnectionManager.restart` -/
  | restart (id : ServerId) (config : C)
  /-- `MCPConnectionManager.start` -/
  | start (id : ServerId) (config : C)
  /-- It awaits `connect`. -/
  | connecting (id : ServerId) (adapter : Nat)
  /-- `delete_server` has found the row. -/
  | remove (id : ServerId)
  /-- It has stopped the connection. -/
  | deleting (id : ServerId)

/-- The servers, and the adapters by their number. -/
structure McpConnections where
  servers : ServerId → Option (ServerRow C)
  connections : ServerId → Option Nat
  /-- As they were created. -/
  adapters : List (MCPAdapter C)
  /-- Whose `connect` has returned. -/
  connected : List Nat
  /-- Whose `disconnect` has been called. -/
  disconnected : List Nat
  requests : Nat → Option (ServerTask C)

inductive ConnectionEvent where
  | registerServer (k : Nat) (id : ServerId) (row : ServerRow C)
  | updateServer (k : Nat) (id : ServerId) (body : UpdateServerRequest C)
  | deleteServer (k : Nat) (id : ServerId)
  /-- `refresh_server`, `test_server`, and the start-up for each server that is enabled. -/
  | probeServer (k : Nat) (id : ServerId)
  /-- A turn of `stop_all`. -/
  | stop (id : ServerId)
  /-- The request takes its next segment, or ends, where what it awaits raises. -/
  | go (k : Nat) (ok : Bool)

end

variable {C : Type}

def ServerTask.serverId : ServerTask C → ServerId
  | registered id | patch id _ | reconnect id _ | restart id _ | start id _ | connecting id _
  | remove id | deleting id => id

/-- What the task awaits may raise; that an adapter does not disconnect is only logged. -/
def ServerTask.mayRaise : ServerTask C → Bool
  | restart .. | remove _ => false
  | _ => true

/-- The row with the update. -/
def UpdateServerRequest.apply (body : UpdateServerRequest C) (row : ServerRow C) : ServerRow C :=
  ⟨body.enabled.getD row.enabled, body.changes.elim row.config (· row.config)⟩

/-- `update_data` is not empty. -/
def UpdateServerRequest.hasData (body : UpdateServerRequest C) : Bool :=
  body.enabled.isSome || body.changes.isSome

namespace McpConnections

variable (st : McpConnections C)

/-- Nothing is connected yet. -/
def fresh (servers : ServerId → Option (ServerRow C)) : McpConnections C :=
  ⟨servers, fun _ => none, [], [], [], fun _ => none⟩

def setTask (k : Nat) (task : Option (ServerTask C)) : McpConnections C :=
  { st with requests := Function.update st.requests k task }

def setServer (id : ServerId) (row : Option (ServerRow C)) : McpConnections C :=
  { st with servers := Function.update st.servers id row }

/-- `MCPConnectionManager.stop`: the connection is taken out, and its adapter told to disconnect. -/
def popConnection (id : ServerId) : McpConnections C :=
  { st with
    connections := Function.update st.connections id none
    disconnected := st.disconnected ++ (st.connections id).toList }

/-- The next segment of a task that awaits nothing that raises. -/
def go (k : Nat) : ServerTask C → McpConnections C
  | .registered id => st.setTask k ((st.servers id).map fun row => .start id row.config)
  | .patch id body =>
    let updated := if body.hasData then st.setServer id ((st.servers id).map body.apply) else st
    updated.setTask k (some (.reconnect id body))
  | .reconnect id body =>
    if body.enabled = some false then (st.popConnection id).setTask k none
    else if body.hasData then
      match st.servers id with
      | none => st.setTask k none
      | some row => st.setTask k (if row.enabled then some (.restart id row.config) else none)
    else st.setTask k none
  | .restart id config => (st.popConnection id).setTask k (some (.start id config))
  | .start id config =>
    if (st.connections id).isSome then st.setTask k none
    else
      { st with adapters := st.adapters ++ [(⟨id, config⟩ : MCPAdapter C)] }.setTask k
        (some (.connecting id st.adapters.length))
  | .connecting id adapter =>
    { st with
      connections := Function.update st.connections id (some adapter)
      connected := st.connected ++ [adapter] }.setTask k none
  | .remove id => (st.popConnection id).setTask k (some (.deleting id))
  | .deleting id => (st.setServer id none).setTask k none

/-- A request begins. -/
def begin (k : Nat) (task : Option (ServerTask C)) : McpConnections C :=
  if (st.requests k).isSome then st else st.setTask k task

def step (st : McpConnections C) : ConnectionEvent C → McpConnections C
  | .registerServer k id row =>
    if (st.requests k).isSome ∨ (st.servers id).isSome then st
    else
      (st.setServer id (some row)).setTask k (if row.enabled then some (.registered id) else none)
  | .updateServer k id body => st.begin k ((st.servers id).map fun _ => .patch id body)
  | .deleteServer k id => st.begin k ((st.servers id).map fun _ => .remove id)
  | .probeServer k id => st.begin k ((st.servers id).map fun row => .start id row.config)
  | .stop id => st.popConnection id
  | .go k ok =>
    match st.requests k with
    | none => st
    | some task => if ok ∨ !task.mayRaise then st.go k task else st.setTask k none

/-! ## No connection is lost -/

variable {st} {e : ConnectionEvent C} {es : List (ConnectionEvent C)} {k : Nat}
  {servers : ServerId → Option (ServerRow C)}

/-- Every adapter that is connected is the connection of a server, or has been told to
disconnect. -/
def Held (st : McpConnections C) : Prop :=
  ∀ n ∈ st.connected, n ∈ st.disconnected ∨ ∃ id, st.connections id = some n

/-- A connection that comes about is entered for a server that has none. -/
def Vacant (st : McpConnections C) : ConnectionEvent C → Prop
  | .go k true => ∀ id n, st.requests k = some (.connecting id n) → st.connections id = none
  | _ => True

/-- Adapters belong to one server each, and are connected once and entered then. -/
structure Wired (st : McpConnections C) : Prop where
  entered : ∀ id n, st.connections id = some n →
    (∃ adapter, st.adapters[n]? = some adapter ∧ adapter.serverId = id) ∧ n ∈ st.connected ∧
      n ∉ st.disconnected
  awaited : ∀ k id n, st.requests k = some (.connecting id n) →
    (∃ adapter, st.adapters[n]? = some adapter ∧ adapter.serverId = id) ∧ n ∉ st.connected ∧
      n ∉ st.disconnected
  once : ∀ k k' id id' n, st.requests k = some (.connecting id n) →
    st.requests k' = some (.connecting id' n) → k = k'
  created : ∀ n ∈ st.connected ++ st.disconnected, n < st.adapters.length

theorem setTask_requests {k k' : Nat} {task : Option (ServerTask C)} {t : ServerTask C}
    (h : (st.setTask k task).requests k' = some t) :
    k' = k ∧ task = some t ∨ st.requests k' = some t := by
  change Function.update st.requests k task k' = some t at h
  rcases eq_or_ne k' k with rfl | hne
  · rw [Function.update_self] at h
    exact .inl ⟨rfl, h⟩
  · rw [Function.update_of_ne hne] at h
    exact .inr h

theorem Wired.setTask {task : Option (ServerTask C)} (h : Wired st)
    (htask : ∀ id n, task ≠ some (.connecting id n)) : Wired (st.setTask k task) := by
  have hold {k' : Nat} {id : ServerId} {n : Nat}
      (hk : (st.setTask k task).requests k' = some (.connecting id n)) :
      st.requests k' = some (.connecting id n) :=
    (setTask_requests hk).resolve_left fun hnew => htask id n hnew.2
  exact ⟨h.entered, fun k' id n hk => h.awaited k' id n (hold hk),
    fun k' k'' id id' n hk hk' => h.once k' k'' id id' n (hold hk) (hold hk'), h.created⟩

theorem Wired.setServer {id : ServerId} {row : Option (ServerRow C)} (h : Wired st) :
    Wired (st.setServer id row) :=
  ⟨h.entered, h.awaited, h.once, h.created⟩

theorem Wired.popConnection {id : ServerId} (h : Wired st) : Wired (st.popConnection id) := by
  have hmem {n : Nat} (hn : n ∈ (st.connections id).toList) : st.connections id = some n := by
    simpa using hn
  refine ⟨fun id' n hn => ?_, fun k id' n hk => ?_, h.once, fun n hn => ?_⟩
  · change Function.update st.connections id none id' = some n at hn
    rcases eq_or_ne id' id with rfl | hne
    · rw [Function.update_self] at hn
      cases hn
    · rw [Function.update_of_ne hne] at hn
      obtain ⟨⟨adapter, hadapter, hid⟩, hconn, hdis⟩ := h.entered id' n hn
      refine ⟨⟨adapter, hadapter, hid⟩, hconn, fun hpop => ?_⟩
      rcases List.mem_append.1 hpop with hpop | hpop
      · exact hdis hpop
      · obtain ⟨⟨adapter', hadapter', hid'⟩, -⟩ := h.entered id n (hmem hpop)
        rw [hadapter] at hadapter'
        cases hadapter'
        exact hne (hid.symm.trans hid')
  · obtain ⟨hadapter, hconn, hdis⟩ := h.awaited k id' n hk
    refine ⟨hadapter, hconn, fun hpop => ?_⟩
    rcases List.mem_append.1 hpop with hpop | hpop
    · exact hdis hpop
    · exact hconn (h.entered id n (hmem hpop)).2.1
  · rcases List.mem_append.1 hn with hn | hn
    · exact h.created n (List.mem_append_left _ hn)
    · rcases List.mem_append.1 hn with hn | hn
      · exact h.created n (List.mem_append_right _ hn)
      · exact h.created n (List.mem_append_left _ (h.entered id n (hmem hn)).2.1)

/-- An adapter is created, and its `connect` awaited. -/
theorem Wired.create {id : ServerId} {config : C} (h : Wired st) :
    Wired ({ st with adapters := st.adapters ++ [(⟨id, config⟩ : MCPAdapter C)] }.setTask k
      (some (.connecting id st.adapters.length))) := by
  have hkeep {n : Nat} {id' : ServerId}
      (hn : ∃ adapter, st.adapters[n]? = some adapter ∧ adapter.serverId = id') :
      ∃ adapter, (st.adapters ++ [(⟨id, config⟩ : MCPAdapter C)])[n]? = some adapter ∧
        adapter.serverId = id' := by
    obtain ⟨adapter, hadapter, hid⟩ := hn
    refine ⟨adapter, ?_, hid⟩
    rw [List.getElem?_append_left (List.getElem?_eq_some_iff.1 hadapter).1, hadapter]
  have hlt {n : Nat} {id' : ServerId}
      (hn : ∃ adapter, st.adapters[n]? = some adapter ∧ adapter.serverId = id') :
      n < st.adapters.length :=
    (List.getElem?_eq_some_iff.1 hn.choose_spec.1).1
  refine ⟨fun id' n hn => ?_, fun k' id' n hk => ?_, fun k' k'' id' id'' n hk hk' => ?_,
    fun n hn => ?_⟩
  · exact ⟨hkeep (h.entered id' n hn).1, (h.entered id' n hn).2⟩
  · rcases setTask_requests hk with ⟨-, hnew⟩ | hk
    · cases hnew
      have hnot (hmem : st.adapters.length ∈ st.connected ++ st.disconnected) : False :=
        Nat.lt_irrefl _ (h.created _ hmem)
      exact ⟨⟨⟨id, config⟩, List.getElem?_concat_length, rfl⟩,
        fun hmem => hnot (List.mem_append_left _ hmem),
        fun hmem => hnot (List.mem_append_right _ hmem)⟩
    · exact ⟨hkeep (h.awaited k' id' n hk).1, (h.awaited k' id' n hk).2⟩
  · rcases setTask_requests hk with ⟨rfl, hnew⟩ | hold
    · rcases setTask_requests hk' with ⟨rfl, -⟩ | hold'
      · rfl
      · cases hnew
        exact absurd (hlt (h.awaited k'' id'' _ hold').1) (Nat.lt_irrefl _)
    · rcases setTask_requests hk' with ⟨rfl, hnew⟩ | hold'
      · cases hnew
        exact absurd (hlt (h.awaited k' id' _ hold).1) (Nat.lt_irrefl _)
      · exact h.once k' k'' id' id'' n hold hold'
  · change n < (st.adapters ++ [_]).length
    rw [List.length_append]
    exact Nat.lt_succ_of_lt (h.created n hn)

/-- The adapter of a `connect` that has returned is entered. -/
theorem Wired.enter {id : ServerId} {n : Nat} (h : Wired st)
    (hk : st.requests k = some (.connecting id n)) : Wired (st.go k (.connecting id n)) := by
  obtain ⟨hadapter, hconn, hdis⟩ := h.awaited k id n hk
  refine ⟨fun id' n' hn => ?_, fun k' id' n' hk' => ?_, fun k' k'' id' id'' n' hk' hk'' => ?_,
    fun n' hn => ?_⟩
  · change Function.update st.connections id (some n) id' = some n' at hn
    rcases eq_or_ne id' id with rfl | hne
    · rw [Function.update_self] at hn
      cases hn
      exact ⟨hadapter, List.mem_append_right _ (List.mem_singleton_self n), hdis⟩
    · rw [Function.update_of_ne hne] at hn
      obtain ⟨hadapter', hconn', hdis'⟩ := h.entered id' n' hn
      exact ⟨hadapter', List.mem_append_left _ hconn', hdis'⟩
  · rcases setTask_requests hk' with ⟨-, hnew⟩ | hold
    · cases hnew
    · obtain ⟨hadapter', hconn', hdis'⟩ := h.awaited k' id' n' hold
      refine ⟨hadapter', fun hmem => ?_, hdis'⟩
      rcases List.mem_append.1 hmem with hmem | hmem
      · exact hconn' hmem
      · obtain rfl := List.mem_singleton.1 hmem
        obtain rfl := h.once k' k id' id n' hold hk
        change Function.update st.requests k' none k' = _ at hk'
        rw [Function.update_self] at hk'
        cases hk'
  · rcases setTask_requests hk' with ⟨-, hnew⟩ | hold
    · cases hnew
    · rcases setTask_requests hk'' with ⟨-, hnew⟩ | hold'
      · cases hnew
      · exact h.once k' k'' id' id'' n' hold hold'
  · rcases List.mem_append.1 hn with hn | hn
    · rcases List.mem_append.1 hn with hn | hn
      · exact h.created n' (List.mem_append_left _ hn)
      · obtain rfl := List.mem_singleton.1 hn
        obtain ⟨adapter, hadapter, -⟩ := hadapter
        exact (List.getElem?_eq_some_iff.1 hadapter).1
    · exact h.created n' (List.mem_append_right _ hn)

theorem Wired.begin {task : Option (ServerTask C)} (h : Wired st)
    (htask : ∀ id n, task ≠ some (.connecting id n)) : Wired (st.begin k task) := by
  unfold McpConnections.begin
  split
  next => exact h
  next => exact h.setTask htask

theorem Wired.go {task : ServerTask C} (h : Wired st) (hk : st.requests k = some task) :
    Wired (st.go k task) := by
  cases task with
  | registered id =>
    exact h.setTask fun _ _ htask => by cases hs : st.servers id <;> simp [hs] at htask
  | patch id body =>
    simp only [McpConnections.go]
    split
    · exact h.setServer.setTask fun _ _ htask => by cases htask
    · exact h.setTask fun _ _ htask => by cases htask
  | reconnect id body =>
    simp only [McpConnections.go]
    split
    · exact h.popConnection.setTask fun _ _ htask => by cases htask
    · split
      · split
        · exact h.setTask fun _ _ htask => by cases htask
        · exact h.setTask fun _ _ htask => by split at htask <;> cases htask
      · exact h.setTask fun _ _ htask => by cases htask
  | restart id config => exact h.popConnection.setTask fun _ _ htask => by cases htask
  | start id config =>
    simp only [McpConnections.go]
    split
    · exact h.setTask fun _ _ htask => by cases htask
    · exact h.create
  | connecting id n => exact h.enter hk
  | remove id => exact h.popConnection.setTask fun _ _ htask => by cases htask
  | deleting id => exact h.setServer.setTask fun _ _ htask => by cases htask

theorem wired_step (h : Wired st) : Wired (step st e) := by
  cases e with
  | registerServer k id row =>
    simp only [step]
    split
    · exact h
    · exact h.setServer.setTask fun _ _ htask => by split at htask <;> cases htask
  | updateServer k id body =>
    exact h.begin fun _ _ htask => by cases hs : st.servers id <;> simp [hs] at htask
  | deleteServer k id =>
    exact h.begin fun _ _ htask => by cases hs : st.servers id <;> simp [hs] at htask
  | probeServer k id =>
    exact h.begin fun _ _ htask => by cases hs : st.servers id <;> simp [hs] at htask
  | stop id => exact h.popConnection
  | go k ok =>
    simp only [step]
    split
    · exact h
    next task hk =>
      split
      · exact h.go hk
      · exact h.setTask fun _ _ htask => by cases htask

theorem Held.popConnection {id : ServerId} (h : Held st) : Held (st.popConnection id) := by
  intro n hn
  rcases h n hn with hdis | ⟨id', hid'⟩
  · exact .inl (List.mem_append_left _ hdis)
  · rcases eq_or_ne id' id with rfl | hne
    · exact .inl (List.mem_append_right _ (by rw [hid']; exact List.mem_singleton_self n))
    · exact .inr ⟨id', by rw [← hid']; exact Function.update_of_ne hne _ _⟩

theorem Held.begin {task : Option (ServerTask C)} (h : Held st) : Held (st.begin k task) := by
  unfold McpConnections.begin
  split <;> exact h

/-- Whatever a request does but to enter a connection loses none. -/
theorem Held.go {task : ServerTask C} (h : Held st)
    (htask : ∀ id n, task ≠ .connecting id n) : Held (st.go k task) := by
  cases task with
  | registered id => exact h
  | patch id body =>
    simp only [McpConnections.go]
    split <;> exact h
  | reconnect id body =>
    simp only [McpConnections.go]
    split
    · exact Held.popConnection h
    · split
      · split <;> exact h
      · exact h
  | restart id config => exact Held.popConnection h
  | start id config =>
    simp only [McpConnections.go]
    split <;> exact h
  | connecting id n => exact absurd rfl (htask id n)
  | remove id => exact Held.popConnection h
  | deleting id => exact h

/-- Entering a connection loses the one that the server has, and no other. -/
theorem held_enter {id : ServerId} {n : Nat} (hw : Wired st) (h : Held st)
    (hk : st.requests k = some (.connecting id n)) :
    Held (st.go k (.connecting id n)) ↔ st.connections id = none := by
  obtain ⟨-, hconn, -⟩ := hw.awaited k id n hk
  constructor
  · intro hheld
    cases hold : st.connections id with
    | none => rfl
    | some m =>
      obtain ⟨⟨adapter, hadapter, hid⟩, hm, hdis⟩ := hw.entered id m hold
      rcases hheld m (List.mem_append_left _ hm) with hmdis | ⟨id', hid'⟩
      · exact absurd hmdis hdis
      · change Function.update st.connections id (some n) id' = some m at hid'
        rcases eq_or_ne id' id with rfl | hne
        · rw [Function.update_self] at hid'
          cases hid'
          exact absurd hm hconn
        · rw [Function.update_of_ne hne] at hid'
          obtain ⟨⟨adapter', hadapter', heq⟩, -⟩ := hw.entered id' m hid'
          rw [hadapter] at hadapter'
          cases hadapter'
          exact absurd (heq.symm.trans hid) hne
  · intro hnone m hm
    rcases List.mem_append.1 hm with hm | hm
    · rcases h m hm with hdis | ⟨id', hid'⟩
      · exact .inl hdis
      · have hne : id' ≠ id := by
          rintro rfl
          rw [hnone] at hid'
          cases hid'
        exact .inr ⟨id', by rw [← hid']; exact Function.update_of_ne hne _ _⟩
    · obtain rfl := List.mem_singleton.1 hm
      exact .inr ⟨id, Function.update_self ..⟩

theorem held_step (hw : Wired st) (h : Held st) : Held (step st e) ↔ Vacant st e := by
  cases e with
  | registerServer k id row =>
    refine iff_of_true ?_ trivial
    simp only [step]
    split <;> exact h
  | updateServer k id body => exact iff_of_true h.begin trivial
  | deleteServer k id => exact iff_of_true h.begin trivial
  | probeServer k id => exact iff_of_true h.begin trivial
  | stop id => exact iff_of_true h.popConnection trivial
  | go k ok =>
    cases hk : st.requests k with
    | none =>
      simp only [step, hk]
      refine iff_of_true h ?_
      cases ok <;> simp [Vacant, hk]
    | some task =>
      simp only [step, hk]
      by_cases htask : ∃ id n, task = .connecting id n
      · obtain ⟨id, n, rfl⟩ := htask
        cases ok with
        | false => exact iff_of_true h trivial
        | true =>
          rw [if_pos (.inl rfl), held_enter hw h hk]
          simp [Vacant, hk]
      · refine iff_of_true ?_ ?_
        · split
          · exact h.go fun id n heq => htask ⟨id, n, heq⟩
          · exact h
        · cases ok with
          | false => trivial
          | true =>
            intro id n hk'
            rw [hk] at hk'
            cases hk'
            exact absurd ⟨id, n, rfl⟩ htask

/-- No connection is ever lost, so that `stop` and `stop_all` get at each of them, exactly if none
comes about for a server that has one, as it does where two requests to start a server overlap. -/
theorem held_iff (es : List (ConnectionEvent C)) :
    Always step Held (fresh servers) es ↔ Guarded step Vacant (fresh servers) es := by
  refine always_iff_guarded_of_invariant (I := fun st : McpConnections C => Wired st ∧ Held st)
    (fun _ hI => hI.2) (fun _ _ hI hok => ⟨wired_step hI.1, (held_step hI.1 hI.2).2 hok⟩)
    (fun _ _ hI hheld => (held_step hI.1 hI.2).1 hheld) ⟨⟨?_, ?_, ?_, ?_⟩, ?_⟩
  · exact fun _ _ hn => by cases hn
  · exact fun _ _ _ hk => by cases hk
  · exact fun _ _ _ _ _ hk => by cases hk
  · exact fun _ hn => by cases hn
  · exact fun _ hn => by cases hn

/-! ## Connections and rows -/

/-- No request is at work on the server. -/
def Idle (st : McpConnections C) (id : ServerId) : Prop :=
  ∀ k task, st.requests k = some task → task.serverId ≠ id

/-- The connection of a server, if it has one, is to a server that exists, and if that is enabled,
to what its row says. -/
def Current (st : McpConnections C) (id : ServerId) : Prop :=
  ∀ n, st.connections id = some n → ∃ row adapter, st.servers id = some row ∧
    st.adapters[n]? = some adapter ∧ adapter.serverId = id ∧
      (row.enabled = true → adapter.config = row.config)

/-- A request for a server begins when none is at work on it, and an update reads the row back. -/
def InTurn (st : McpConnections C) : ConnectionEvent C → Prop
  | .registerServer _ id _ | .updateServer _ id _ | .deleteServer _ id | .probeServer _ id =>
    Idle st id
  | .go k false => ∀ id body, st.requests k ≠ some (.reconnect id body)
  | _ => True

/-- What holds of a server while a request is at work on it. -/
def Phase (st : McpConnections C) : ServerTask C → Prop
  | .registered id | .patch id _ | .remove id => Current st id
  | .reconnect id body => (st.connections id ≠ none → st.servers id ≠ none) ∧
    (body.hasData = false → Current st id)
  | .restart id config => ∃ row, st.servers id = some row ∧ row.config = config
  | .start id config => Current st id ∧ ∃ row, st.servers id = some row ∧ row.config = config
  | .connecting id n => st.connections id = none ∧ ∃ row adapter, st.servers id = some row ∧
    st.adapters[n]? = some adapter ∧ adapter.config = row.config
  | .deleting id => st.connections id = none

structure Coherent (st : McpConnections C) : Prop where
  wired : Wired st
  sole : ∀ k k' task task', st.requests k = some task → st.requests k' = some task' →
    task.serverId = task'.serverId → k = k'
  phases : ∀ k task, st.requests k = some task → Phase st task
  current : ∀ id, Idle st id → Current st id

theorem current_of_none {id : ServerId} (h : st.connections id = none) : Current st id := by
  intro n hn
  rw [h] at hn
  cases hn

section
variable {st' : McpConnections C} {id : ServerId}

theorem Current.frame (h : Current st id) (hs : st'.servers id = st.servers id)
    (hc : st'.connections id = st.connections id) (ha : st.adapters <+: st'.adapters) :
    Current st' id := by
  obtain ⟨more, ha⟩ := ha
  intro n hn
  rw [hc] at hn
  obtain ⟨row, adapter, hrow, hadapter, hid, hconfig⟩ := h n hn
  refine ⟨row, adapter, hs.trans hrow, ?_, hid, hconfig⟩
  rw [← ha, List.getElem?_append_left (List.getElem?_eq_some_iff.1 hadapter).1, hadapter]

theorem Phase.frame {task : ServerTask C} (h : Phase st task)
    (hs : st'.servers task.serverId = st.servers task.serverId)
    (hc : st'.connections task.serverId = st.connections task.serverId)
    (ha : st.adapters <+: st'.adapters) : Phase st' task := by
  cases task with
  | registered id | patch id body | remove id => exact Current.frame h hs hc ha
  | reconnect id body =>
    simp only [ServerTask.serverId] at hs hc
    exact ⟨by rw [hs, hc]; exact h.1, fun hdata => (h.2 hdata).frame hs hc ha⟩
  | restart id config =>
    obtain ⟨row, hrow, hconfig⟩ := h
    exact ⟨row, hs.trans hrow, hconfig⟩
  | start id config =>
    obtain ⟨hcurrent, row, hrow, hconfig⟩ := h
    exact ⟨hcurrent.frame hs hc ha, row, hs.trans hrow, hconfig⟩
  | connecting id n =>
    obtain ⟨hnone, row, adapter, hrow, hadapter, hconfig⟩ := h
    refine ⟨hc.trans hnone, row, adapter, hs.trans hrow, ?_, hconfig⟩
    obtain ⟨more, ha⟩ := ha
    rw [← ha, List.getElem?_append_left (List.getElem?_eq_some_iff.1 hadapter).1, hadapter]
  | deleting id => exact hc.trans h

/-- Where one request is at work on a server, what it does to this server alone keeps the rest. -/
theorem Coherent.alone {task' : Option (ServerTask C)} (h : Coherent st) (hw : Wired st')
    (hoff : ∀ id', id' ≠ id →
      st'.servers id' = st.servers id' ∧ st'.connections id' = st.connections id')
    (ha : st.adapters <+: st'.adapters)
    (hreq : st'.requests = Function.update st.requests k task')
    (hown : ∀ k' task, st.requests k' = some task → (task.serverId = id ↔ k' = k))
    (htask : ∀ task, task' = some task → task.serverId = id ∧ Phase st' task)
    (hnone : task' = none → Current st' id) : Coherent st' := by
  have hold {k' : Nat} {task : ServerTask C} (hk : st'.requests k' = some task) :
      k' = k ∧ task' = some task ∨ k' ≠ k ∧ st.requests k' = some task := by
    rw [hreq] at hk
    rcases eq_or_ne k' k with rfl | hne
    · rw [Function.update_self] at hk
      exact .inl ⟨rfl, hk⟩
    · rw [Function.update_of_ne hne] at hk
      exact .inr ⟨hne, hk⟩
  refine ⟨hw, fun k₁ k₂ task₁ task₂ h₁ h₂ hsame => ?_, fun k' task hk => ?_, fun id' hidle => ?_⟩
  · rcases hold h₁ with ⟨rfl, hnew₁⟩ | ⟨hne₁, hold₁⟩
    · rcases hold h₂ with ⟨rfl, -⟩ | ⟨hne₂, hold₂⟩
      · rfl
      · rw [(htask _ hnew₁).1] at hsame
        exact absurd ((hown _ _ hold₂).1 hsame.symm) hne₂
    · rcases hold h₂ with ⟨rfl, hnew₂⟩ | ⟨hne₂, hold₂⟩
      · rw [(htask _ hnew₂).1] at hsame
        exact absurd ((hown _ _ hold₁).1 hsame) hne₁
      · exact h.sole _ _ _ _ hold₁ hold₂ hsame
  · rcases hold hk with ⟨rfl, hnew⟩ | ⟨hne, hk'⟩
    · exact (htask _ hnew).2
    · have hother := hoff _ fun heq => hne ((hown _ _ hk').1 heq)
      exact (h.phases _ _ hk').frame hother.1 hother.2 ha
  · rcases eq_or_ne id' id with rfl | hne
    · cases hnew : task' with
      | none => exact hnone hnew
      | some task =>
        refine absurd (htask _ hnew).1 (hidle k task ?_)
        rw [hreq, Function.update_self, hnew]
    · refine (h.current id' fun k' task hk heq => ?_).frame (hoff id' hne).1 (hoff id' hne).2 ha
      rcases eq_or_ne k' k with rfl | hk_ne
      · exact hne (heq.symm.trans ((hown _ _ hk).2 rfl))
      · refine hidle k' task ?_ heq
        rw [hreq, Function.update_of_ne hk_ne, hk]

theorem Coherent.begin {task : Option (ServerTask C)} (h : Coherent st) (hidle : Idle st id)
    (hw : Wired (st.begin k task))
    (htask : ∀ t, task = some t → t.serverId = id ∧ Phase st t) : Coherent (st.begin k task) := by
  unfold McpConnections.begin at hw ⊢
  by_cases hk : (st.requests k).isSome
  · rw [if_pos hk]
    exact h
  · rw [if_neg hk] at hw ⊢
    rw [Option.not_isSome_iff_eq_none] at hk
    refine h.alone hw (fun _ _ => ⟨rfl, rfl⟩) (List.prefix_refl _) rfl (fun k' t hk' => ?_)
      htask fun _ => h.current id hidle
    refine iff_of_false (hidle k' t hk') ?_
    rintro rfl
    rw [hk] at hk'
    cases hk'

/-- Before the next segment of its request a server is as the phase says, and after it as the next
phase does, or fit to be left alone. -/
structure Advances (st st' : McpConnections C) (k : Nat) (id : ServerId)
    (task' : Option (ServerTask C)) : Prop where
  off : ∀ id', id' ≠ id →
    st'.servers id' = st.servers id' ∧ st'.connections id' = st.connections id'
  adapters : st.adapters <+: st'.adapters
  requests : st'.requests = Function.update st.requests k task'
  task : ∀ task, task' = some task → task.serverId = id ∧ Phase st' task
  none : task' = none → Current st' id

theorem off_popConnection {id' : ServerId} (hne : id' ≠ id) :
    (st.popConnection id).connections id' = st.connections id' :=
  Function.update_of_ne hne _ _

theorem popConnection_self : (st.popConnection id).connections id = none :=
  Function.update_self ..

theorem off_setServer {row : Option (ServerRow C)} {id' : ServerId} (hne : id' ≠ id) :
    (st.setServer id row).servers id' = st.servers id' :=
  Function.update_of_ne hne _ _

theorem setServer_self {row : Option (ServerRow C)} : (st.setServer id row).servers id = row :=
  Function.update_self ..

/-- The next segment of a request that is alone at work on its server. -/
theorem advances_go {task : ServerTask C} (hw : Wired st) (hk : st.requests k = some task)
    (h : Phase st task) : ∃ task', Advances st (st.go k task) k task.serverId task' := by
  cases task with
  | registered id =>
    refine ⟨_, fun _ _ => ⟨rfl, rfl⟩, List.prefix_refl _, rfl, fun task htask => ?_, fun _ => h⟩
    obtain ⟨row, hrow, rfl⟩ := Option.map_eq_some_iff.1 htask
    exact ⟨rfl, h, row, hrow, rfl⟩
  | patch id body =>
    simp only [McpConnections.go]
    by_cases hdata : body.hasData = true
    · rw [if_pos hdata]
      refine ⟨_, fun _ hne => ⟨off_setServer hne, rfl⟩, List.prefix_refl _, rfl,
        fun task htask => ?_, fun hnone => by cases hnone⟩
      cases htask
      refine ⟨rfl, fun hconn => ?_, fun hno => absurd hdata (by rw [hno]; exact Bool.false_ne_true)⟩
      obtain ⟨n, hn⟩ := Option.ne_none_iff_exists'.1 hconn
      obtain ⟨row, -, hrow, -⟩ := h n hn
      change (st.setServer id ((st.servers id).map body.apply)).servers id ≠ none
      rw [setServer_self, hrow]
      exact Option.some_ne_none _
    · rw [if_neg hdata]
      refine ⟨_, fun _ _ => ⟨rfl, rfl⟩, List.prefix_refl _, rfl, fun task htask => ?_,
        fun hnone => by cases hnone⟩
      cases htask
      refine ⟨rfl, fun hconn => ?_, fun _ => h⟩
      obtain ⟨n, hn⟩ := Option.ne_none_iff_exists'.1 hconn
      obtain ⟨row, -, hrow, -⟩ := h n hn
      change st.servers id ≠ none
      rw [hrow]
      exact Option.some_ne_none _
  | reconnect id body =>
    simp only [McpConnections.go]
    split
    · exact ⟨none, fun _ hne => ⟨rfl, off_popConnection hne⟩, List.prefix_refl _, rfl,
        fun _ htask => (by cases htask), fun _ => current_of_none popConnection_self⟩
    · split
      · split
        next hrow =>
          refine ⟨none, fun _ _ => ⟨rfl, rfl⟩, List.prefix_refl _, rfl,
            fun _ htask => (by cases htask), fun _ => current_of_none ?_⟩
          by_contra hconn
          exact h.1 hconn hrow
        next row hrow =>
          refine ⟨_, fun _ _ => ⟨rfl, rfl⟩, List.prefix_refl _, rfl, fun task htask => ?_,
            fun hnone n hn => ?_⟩
          · split at htask
            · cases htask
              exact ⟨rfl, row, hrow, rfl⟩
            · cases htask
          · obtain ⟨⟨adapter, hadapter, hid⟩, -⟩ := hw.entered id n hn
            refine ⟨row, adapter, hrow, hadapter, hid, fun henabled => ?_⟩
            rw [if_pos henabled] at hnone
            cases hnone
      next hdata =>
        exact ⟨none, fun _ _ => ⟨rfl, rfl⟩, List.prefix_refl _, rfl,
          fun _ htask => (by cases htask), fun _ => h.2 (Bool.not_eq_true _ ▸ hdata)⟩
  | restart id config =>
    refine ⟨_, fun _ hne => ⟨rfl, off_popConnection hne⟩, List.prefix_refl _, rfl,
      fun task htask => ?_, fun hnone => by cases hnone⟩
    cases htask
    exact ⟨rfl, current_of_none popConnection_self, h⟩
  | start id config =>
    obtain ⟨hcurrent, row, hrow, hconfig⟩ := h
    simp only [McpConnections.go]
    split
    · exact ⟨none, fun _ _ => ⟨rfl, rfl⟩, List.prefix_refl _, rfl,
        fun _ htask => (by cases htask), fun _ => hcurrent⟩
    next hno =>
      refine ⟨_, fun _ _ => ⟨rfl, rfl⟩, List.prefix_append _ _, rfl, fun task htask => ?_,
        fun hnone => by cases hnone⟩
      cases htask
      exact ⟨rfl, Option.not_isSome_iff_eq_none.1 hno, row, ⟨id, config⟩, hrow,
        List.getElem?_concat_length, hconfig.symm⟩
  | connecting id n =>
    obtain ⟨-, row, adapter, hrow, hadapter, hconfig⟩ := h
    refine ⟨none, fun _ hne => ⟨rfl, Function.update_of_ne hne _ _⟩, List.prefix_refl _, rfl,
      fun _ htask => (by cases htask), fun _ m hm => ?_⟩
    change Function.update st.connections id (some n) id = some m at hm
    rw [Function.update_self] at hm
    cases hm
    obtain ⟨⟨adapter', hadapter', hid⟩, -⟩ := hw.awaited k id n hk
    rw [hadapter] at hadapter'
    cases hadapter'
    exact ⟨row, adapter, hrow, hadapter, hid, fun _ => hconfig⟩
  | remove id =>
    refine ⟨_, fun _ hne => ⟨rfl, off_popConnection hne⟩, List.prefix_refl _, rfl,
      fun task htask => ?_, fun hnone => by cases hnone⟩
    cases htask
    exact ⟨rfl, popConnection_self⟩
  | deleting id =>
    exact ⟨none, fun _ hne => ⟨off_setServer hne, rfl⟩, List.prefix_refl _, rfl,
      fun _ htask => (by cases htask), fun _ => current_of_none h⟩

/-- Where what it awaits raises, a request leaves its server fit to be left alone, unless it was to
reconnect it. -/
theorem Phase.current {task : ServerTask C} (h : Phase st task) (hraise : task.mayRaise = true)
    (hne : ∀ id body, task ≠ .reconnect id body) : Current st task.serverId := by
  cases task with
  | registered id | patch id body => exact h
  | reconnect id body => exact absurd rfl (hne id body)
  | restart id config => cases hraise
  | remove id => cases hraise
  | start id config => exact h.1
  | connecting id n => exact current_of_none h.1
  | deleting id => exact current_of_none h

theorem Coherent.advance {task : ServerTask C} {task' : Option (ServerTask C)} (h : Coherent st)
    (hk : st.requests k = some task) (hw : Wired st')
    (hadv : Advances st st' k task.serverId task') : Coherent st' := by
  refine h.alone hw hadv.off hadv.adapters hadv.requests (fun k' t hk' => ?_) hadv.task hadv.none
  constructor
  · exact fun heq => h.sole _ _ _ _ hk' hk heq
  · rintro rfl
    rw [hk] at hk'
    cases hk'
    rfl

/-- Taking a connection out leaves no server worse off. -/
theorem Coherent.popConnection (h : Coherent st) : Coherent (st.popConnection id) := by
  have hcurrent {id' : ServerId} (hc : Current st id') : Current (st.popConnection id) id' := by
    rcases eq_or_ne id' id with rfl | hne
    · exact current_of_none popConnection_self
    · exact hc.frame rfl (off_popConnection hne) (List.prefix_refl _)
  have hnone {id' : ServerId} (hc : st.connections id' = none) :
      (st.popConnection id).connections id' = none := by
    rcases eq_or_ne id' id with rfl | hne
    · exact popConnection_self
    · exact (off_popConnection hne).trans hc
  refine ⟨h.wired.popConnection, h.sole, fun k task hk => ?_, fun id' hidle =>
    hcurrent (h.current id' hidle)⟩
  have hphase := h.phases k task hk
  cases task with
  | registered id' | patch id' body | remove id' => exact hcurrent hphase
  | reconnect id' body =>
    exact ⟨fun hconn => hphase.1 fun hc => hconn (hnone hc), fun hdata => hcurrent (hphase.2 hdata)⟩
  | restart id' config => exact hphase
  | start id' config => exact ⟨hcurrent hphase.1, hphase.2⟩
  | connecting id' n => exact ⟨hnone hphase.1, hphase.2⟩
  | deleting id' => exact hnone hphase

theorem coherent_step (h : Coherent st) (hturn : InTurn st e) : Coherent (step st e) := by
  have hw : Wired (step st e) := wired_step h.wired
  cases e with
  | registerServer k id row =>
    simp only [step] at hw ⊢
    split
    next => exact h
    next hno =>
      rw [if_neg hno] at hw
      rw [not_or, Option.not_isSome_iff_eq_none, Option.not_isSome_iff_eq_none] at hno
      have hconn : st.connections id = none := by
        by_contra hconn
        obtain ⟨n, hn⟩ := Option.ne_none_iff_exists'.1 hconn
        obtain ⟨row', -, hrow', -⟩ := h.current id hturn n hn
        rw [hno.2] at hrow'
        cases hrow'
      refine h.alone hw (fun _ hne => ⟨off_setServer hne, rfl⟩) (List.prefix_refl _) rfl
        (fun k' t hk' => ?_) (fun task htask => ?_) fun _ => current_of_none hconn
      · refine iff_of_false (hturn k' t hk') ?_
        rintro rfl
        rw [hno.1] at hk'
        cases hk'
      · split at htask
        · cases htask
          exact ⟨rfl, current_of_none hconn⟩
        · cases htask
  | updateServer k id body =>
    refine h.begin hturn hw fun task htask => ?_
    obtain ⟨row, -, rfl⟩ := Option.map_eq_some_iff.1 htask
    exact ⟨rfl, h.current id hturn⟩
  | deleteServer k id =>
    refine h.begin hturn hw fun task htask => ?_
    obtain ⟨row, -, rfl⟩ := Option.map_eq_some_iff.1 htask
    exact ⟨rfl, h.current id hturn⟩
  | probeServer k id =>
    refine h.begin hturn hw fun task htask => ?_
    obtain ⟨row, hrow, rfl⟩ := Option.map_eq_some_iff.1 htask
    exact ⟨rfl, h.current id hturn, row, hrow, rfl⟩
  | stop id => exact h.popConnection
  | go k ok =>
    cases hk : st.requests k with
    | none =>
      simp only [step, hk]
      exact h
    | some task =>
      have hphase := h.phases k task hk
      simp only [step, hk] at hw ⊢
      split
      next hgo =>
        rw [if_pos hgo] at hw
        obtain ⟨task', hadv⟩ := advances_go h.wired hk hphase
        exact h.advance hk hw hadv
      next hstop =>
        rw [if_neg hstop] at hw
        obtain ⟨rfl, hraise⟩ : ok = false ∧ task.mayRaise = true := by simpa using hstop
        refine h.advance hk hw ⟨fun _ _ => ⟨rfl, rfl⟩, List.prefix_refl _, rfl,
          fun _ htask => (by cases htask), fun _ => ?_⟩
        refine Current.frame (hphase.current hraise fun id body heq => ?_) rfl rfl
          (List.prefix_refl _)
        exact hturn id body (heq ▸ hk)

end

/-- As long as the requests for a server come in turn, and an update reads the row back, a server
that none is at work on is connected, if at all, as its row says: one that is deleted has no
connection, and the tools of one that is enabled are called where its row points to. -/
theorem current_always {es : List (ConnectionEvent C)}
    (H : Guarded step InTurn (fresh servers) es) :
    Always step (fun st => ∀ id, Idle st id → Current st id) (fresh servers) es := by
  refine H.always (I := Coherent) (fun _ _ hI hok => coherent_step hI hok)
    (fun _ hI => hI.current) ⟨⟨?_, ?_, ?_, ?_⟩, ?_, ?_, ?_⟩
  · exact fun _ _ hn => by cases hn
  · exact fun _ _ _ hk => by cases hk
  · exact fun _ _ _ _ _ hk => by cases hk
  · exact fun _ hn => by cases hn
  · exact fun _ _ _ _ hk => by cases hk
  · exact fun _ _ hk => by cases hk
  · exact fun _ _ => current_of_none rfl

/-- A server is registered, and its address changed. -/
def moved : List (ConnectionEvent String) :=
  [.registerServer 0 "searxng" ⟨true, "http://old"⟩, .go 0 true, .go 0 true, .go 0 true,
    .updateServer 0 "searxng" ⟨none, some fun _ => "http://new"⟩, .go 0 true, .go 0 true,
    .go 0 true, .go 0 true, .go 0 true]

theorem current_moved :
    ∃ adapter, (run step (fresh fun _ => none) moved).adapters[1]? = some adapter ∧
      adapter.config = "http://new" := by
  have hidle (st : McpConnections String) (h : ∀ k, st.requests k = none) (id : ServerId) :
      Idle st id := by
    intro k task hk
    rw [h k] at hk
    cases hk
  have hturn : Guarded step InTurn (fresh fun _ => none) moved := by
    refine ⟨hidle _ (fun _ => rfl) _, trivial, trivial, trivial, hidle _ (fun k => ?_) _, trivial,
      trivial, trivial, trivial, trivial, trivial⟩
    cases k <;> rfl
  obtain ⟨row, adapter, hrow, hadapter, -, hconfig⟩ :=
    current_always hturn moved (List.prefix_refl _) "searxng"
      (hidle _ (fun k => by cases k <;> rfl) _) 1 rfl
  cases hrow
  exact ⟨adapter, hadapter, hconfig rfl⟩

end McpConnections

end LlmPort.Mcp
