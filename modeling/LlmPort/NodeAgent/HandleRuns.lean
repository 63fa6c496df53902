import LlmPort.NodeAgent.Dispatcher
import LlmPort.Transition.Run

/-!
# Runs of the command dispatcher

Calls of `CommandDispatcher.handle` in any order of their turns between awaits, with the tasks they
start or join. A task that is cancelled, by a waiter that was, ends at some later turn.
-/

namespace LlmPort.NodeAgent

open Backend.NodeControl Transition

/-- The fields of a command frame that `handle` reads: the id unless it is blank, and the type
stripped and in lower case. -/
structure CommandFrame where
  id : Option Uuid
  commandType : String
  payload : CommandPayload
  deriving DecidableEq

inductive HandlePhase where
  /-- The first `emit_progress` is awaited. -/
  | emitting (id : Uuid)
  /-- The task is awaited. -/
  | awaiting (id : Uuid) (task : Nat)
  | returned (r : CommandResult)
  | cancelled
  deriving DecidableEq

structure HandleCall where
  frame : CommandFrame
  phase : HandlePhase
  deriving DecidableEq

inductive TaskState where
  | running
  | done (outcome : ExecOutcome)
  | cancelled
  deriving DecidableEq

/-- A task that runs `_execute`. -/
structure CommandTask where
  id : Uuid
  frame : CommandFrame
  state : TaskState
  deriving DecidableEq

structure DispatcherSys where
  agent : AgentState
  /-- `_inflight`, with the number of the task. -/
  inflight : Uuid → Option Nat
  tasks : List CommandTask
  calls : List HandleCall

inductive HandleEvent where
  | handle (frame : CommandFrame)
  /-- The first `emit_progress` of the `w`th call ends, or raises. -/
  | emitted (w : Nat) (error : Option String)
  /-- The `t`th task ends: `none` when it is cancelled. -/
  | taskEnd (t : Nat) (outcome : Option ExecOutcome)
  /-- The `w`th call has a turn after its task ended. -/
  | wake (w : Nat)
  | cancel (w : Nat)

/-- The result for a frame without an id. -/
def invalidCommand : CommandResult :=
  ⟨false, none, some "invalid_command", some "Missing command id."⟩

namespace DispatcherSys

/-- A dispatcher on a state read from disk. -/
def start (agent : AgentState) : DispatcherSys := ⟨agent, fun _ => none, [], []⟩

def setPhase (sys : DispatcherSys) (w : Nat) (phase : HandlePhase) : DispatcherSys :=
  { sys with calls := sys.calls.modify w ({ · with phase }) }

def phaseOf (sys : DispatcherSys) (w : Nat) : Option HandlePhase := (sys.calls[w]?).map (·.phase)

/-- The frame and the id of a call that awaits its first `emit_progress`. -/
def emitting (sys : DispatcherSys) (w : Nat) : Option (CommandFrame × Uuid) :=
  sys.calls[w]?.bind fun call => match call.phase with
    | .emitting id => some (call.frame, id)
    | _ => none

def setTask (sys : DispatcherSys) (t : Nat) (state : TaskState) : DispatcherSys :=
  { sys with tasks := sys.tasks.modify t ({ · with state }) }

def stateOf (sys : DispatcherSys) (t : Nat) : Option TaskState := (sys.tasks[t]?).map (·.state)

def isRunning (sys : DispatcherSys) (t : Nat) : Bool := sys.stateOf t = some .running

/-- `prev`, unless there is none or it is done. -/
def joined (sys : DispatcherSys) (id : Uuid) : Option Nat := (sys.inflight id).filter sys.isRunning

/-- `asyncio.create_task`, and the entry of `_inflight` for it. -/
def startTask (sys : DispatcherSys) (id : Uuid) (frame : CommandFrame) : DispatcherSys :=
  { sys with
    tasks := sys.tasks ++ [⟨id, frame, .running⟩]
    inflight := Function.update sys.inflight id (some sys.tasks.length) }

/-- The last part of `handle`: the result is remembered and returned. -/
def finish (sys : DispatcherSys) (w : Nat) (id : Uuid) (r : CommandResult) : DispatcherSys :=
  { sys with agent := sys.agent.rememberCommandResult id r }.setPhase w (.returned r)

/-- The `finally` of `_guarded_execute`. -/
def popInflight (sys : DispatcherSys) (id : Uuid) (t : Nat) : DispatcherSys :=
  if sys.inflight id = some t then
    { sys with inflight := Function.update sys.inflight id none }
  else sys

def step (sys : DispatcherSys) : HandleEvent → DispatcherSys
  | .handle frame =>
    let add (sys : DispatcherSys) (phase : HandlePhase) : DispatcherSys :=
      { sys with calls := sys.calls ++ [⟨frame, phase⟩] }
    match frame.id with
    | none => add sys (.returned invalidCommand)
    | some id => match sys.agent.getCommandResult id with
      | some cached =>
        add { sys with agent := sys.agent.markReplayed id }
          (.returned (CommandDispatcher.replayed cached))
      | none => match PolicyGuard.validate frame.commandType sys.agent with
        | some message =>
          let r := (ExecOutcome.policyViolation message).normalized
          add { sys with agent := sys.agent.rememberCommandResult id r } (.returned r)
        | none => add sys (.emitting id)
  | .emitted w error => match sys.emitting w with
    | some (frame, id) => match error with
      | some message => sys.finish w id (ExecOutcome.internalError message).normalized
      | none => match sys.joined id with
        | some t => sys.setPhase w (.awaiting id t)
        | none => (sys.startTask id frame).setPhase w (.awaiting id sys.tasks.length)
    | none => sys
  | .taskEnd t outcome => match sys.tasks[t]?.filter (·.state = .running) with
    | some task => match outcome with
      | some outcome =>
        let (agent, outcome) := CommandDispatcher.execute task.frame.commandType task.frame.payload
          outcome sys.agent
        { sys with agent }.setTask t (.done outcome)
      | none => sys.setTask t .cancelled
    | none => sys
  | .wake w => match sys.phaseOf w with
    | some (.awaiting id t) => match sys.stateOf t with
      | some (.done outcome) => (sys.popInflight id t).finish w id outcome.normalized
      | some .cancelled => (sys.popInflight id t).setPhase w .cancelled
      | _ => sys
    | _ => sys
  | .cancel w => match sys.phaseOf w with
    | some (.emitting _) => sys.setPhase w .cancelled
    | some (.awaiting id t) =>
      -- a waiter of a running task passes the cancellation on, and waits for the task to end
      if sys.isRunning t then sys else (sys.popInflight id t).setPhase w .cancelled
    | _ => sys

/-- How many executions of a command were started. -/
def executions (sys : DispatcherSys) (id : Uuid) : Nat := (sys.tasks.map (·.id)).count id

/-- A handled frame replays a result that carries the mark already, and a call that comes back from
its `emit_progress` finds no result of its command, or an execution in progress. -/
def keepsDone (sys : DispatcherSys) : HandleEvent → Bool
  | .handle frame => (frame.id.bind sys.agent.getCommandResult).all fun r =>
    r.result.all (·.replayed)
  | .emitted w none => (sys.emitting w).all fun x =>
    (sys.agent.getCommandResult x.2).isNone || (sys.joined x.2).isSome
  | _ => true

end DispatcherSys

open DispatcherSys

variable {sys : DispatcherSys} {e : HandleEvent}

/-- At most one execution of a command is in progress. -/
def AtMostOneRunning (sys : DispatcherSys) : Prop :=
  ∀ (t t' : Nat) task task', sys.tasks[t]? = some task → sys.tasks[t']? = some task' →
    task.state = .running → task'.state = .running → task.id = task'.id → t = t'

/-- A command whose result is stored is not executed, and a frame that is handled then is answered
with the stored result, marked as a replay, and leaves the store alone. -/
structure KeepsDone (sys : DispatcherSys) (e : HandleEvent) : Prop where
  executions : ∀ id r, sys.agent.getCommandResult id = some r →
    (sys.step e).executions id = sys.executions id
  replays : ∀ frame id r, e = .handle frame → frame.id = some id →
    sys.agent.getCommandResult id = some r →
    (sys.step e).calls = sys.calls ++ [⟨frame, .returned (CommandDispatcher.replayed r)⟩] ∧
      (sys.step e).agent.completedCommands = sys.agent.completedCommands

namespace AgentState

theorem nodup_assign {entries : List (Uuid × CommandResult)} {id : Uuid} {r : CommandResult}
    (h : (entries.map (·.1)).Nodup) : ((assign entries id r).map (·.1)).Nodup := by
  unfold assign
  split
  next =>
    have hkeys : (entries.map fun x => if x.1 = id then (id, r) else x).map (·.1) =
        entries.map (·.1) := by
      rw [List.map_map]
      refine List.map_congr_left fun x _ => ?_
      simp only [Function.comp_apply]
      split
      next hx => exact hx.symm
      next => rfl
    rw [hkeys]
    exact h
  next hany =>
    rw [List.map_append, List.nodup_append]
    refine ⟨h, List.nodup_singleton _, ?_⟩
    rintro a ha b hb rfl
    obtain ⟨x, hx, rfl⟩ := List.mem_map.1 ha
    have hid : x.1 = id := List.mem_singleton.1 hb
    exact hany (List.any_eq_true.2 ⟨x, hx, by simpa using hid⟩)

theorem nodup_rememberCommandResult {state : AgentState} {id : Uuid} {r : CommandResult}
    (h : (state.completedCommands.map (·.1)).Nodup) :
    ((state.rememberCommandResult id r).completedCommands.map (·.1)).Nodup := by
  simp only [rememberCommandResult]
  exact (nodup_assign h).sublist ((List.drop_sublist _ _).map _)

theorem nodup_markReplayed {state : AgentState} {id : Uuid}
    (h : (state.completedCommands.map (·.1)).Nodup) :
    ((state.markReplayed id).completedCommands.map (·.1)).Nodup := by
  have hkeys : (state.markReplayed id).completedCommands.map (·.1) =
      state.completedCommands.map (·.1) := by
    simp only [markReplayed, List.map_map]
    refine List.map_congr_left fun x _ => ?_
    simp only [Function.comp_apply]
    split <;> rfl
  rw [hkeys]
  exact h

/-- A replay leaves the store alone exactly if the stored result has the mark already. -/
theorem markReplayed_eq_iff {state : AgentState} {id : Uuid} {r : CommandResult}
    (hn : (state.completedCommands.map (·.1)).Nodup) (h : state.getCommandResult id = some r) :
    (state.markReplayed id).completedCommands = state.completedCommands ↔
      r.result.all (·.replayed) := by
  have hmem := mem_of_getCommandResult h
  have hmarked : marked r = r ↔ r.result.all (·.replayed) := by
    obtain ⟨success, _ | ⟨url, replayed, entries⟩, code, message⟩ := r <;> simp [marked, eq_comm]
  rw [← hmarked]
  constructor
  · intro heq
    have hid : state.completedCommands.map (fun x => if x.1 = id then (x.1, marked x.2) else x) =
        state.completedCommands.map fun x => x := heq.trans (List.map_id' _).symm
    have hr := List.map_inj_left.1 hid _ hmem
    rw [if_pos rfl] at hr
    exact (Prod.mk.inj hr).2
  · intro heq
    have hid : ∀ x ∈ state.completedCommands, (if x.1 = id then (x.1, marked x.2) else x) = x := by
      intro x hx
      split
      next hxid =>
        have hxr : x = (id, r) := List.inj_on_of_nodup_map hn hx hmem hxid
        rw [hxr, heq]
      next => rfl
    exact (List.map_congr_left hid).trans (List.map_id' _)

end AgentState

/-- Every running task is the one `_inflight` has for its command, and the store is a dictionary. -/
structure Dedup (sys : DispatcherSys) : Prop where
  inflight : ∀ (t : Nat) task, sys.tasks[t]? = some task → task.state = .running →
    sys.inflight task.id = some t
  keys : (sys.agent.completedCommands.map (·.1)).Nodup

theorem Dedup.atMostOne (h : Dedup sys) : AtMostOneRunning sys := by
  intro t t' task task' ht ht' hrun hrun' hid
  have htask := h.inflight t task ht hrun
  rw [hid, h.inflight t' task' ht' hrun'] at htask
  exact (Option.some.inj htask).symm

theorem isRunning_iff {t : Nat} :
    sys.isRunning t ↔ ∃ task, sys.tasks[t]? = some task ∧ task.state = .running := by
  simp only [isRunning, stateOf, decide_eq_true_eq, Option.map_eq_some_iff]

theorem Dedup.popInflight {id : Uuid} {t : Nat} (h : Dedup sys) (ht : sys.isRunning t = false) :
    Dedup (sys.popInflight id t) := by
  unfold DispatcherSys.popInflight
  split
  next hpop =>
    refine ⟨fun t' task ht' hrun => ?_, h.keys⟩
    have hold := h.inflight t' task ht' hrun
    have hne : task.id ≠ id := by
      rintro rfl
      rw [hpop] at hold
      cases hold
      have hrunning : sys.isRunning t := isRunning_iff.2 ⟨task, ht', hrun⟩
      rw [ht] at hrunning
      cases hrunning
    rw [← hold]
    exact Function.update_of_ne hne _ _
  next => exact h

theorem Dedup.setPhase {w : Nat} {phase : HandlePhase} (h : Dedup sys) :
    Dedup (sys.setPhase w phase) := ⟨h.inflight, h.keys⟩

@[simp] theorem finish_agent {w : Nat} {id : Uuid} {r : CommandResult} :
    (sys.finish w id r).agent = sys.agent.rememberCommandResult id r := by
  simp only [finish, setPhase]

@[simp] theorem finish_tasks {w : Nat} {id : Uuid} {r : CommandResult} :
    (sys.finish w id r).tasks = sys.tasks := by
  simp only [finish, setPhase]

@[simp] theorem finish_inflight {w : Nat} {id : Uuid} {r : CommandResult} :
    (sys.finish w id r).inflight = sys.inflight := by
  simp only [finish, setPhase]

theorem Dedup.finish {w : Nat} {id : Uuid} {r : CommandResult} (h : Dedup sys) :
    Dedup (sys.finish w id r) := by
  constructor
  · simpa only [finish_tasks, finish_inflight] using h.inflight
  · rw [finish_agent]
    exact AgentState.nodup_rememberCommandResult h.keys

theorem Dedup.setTask {t : Nat} {state : TaskState} (h : Dedup sys) (hs : state ≠ .running) :
    Dedup (sys.setTask t state) := by
  refine ⟨fun t' task ht' hrun => ?_, h.keys⟩
  simp only [DispatcherSys.setTask, List.getElem?_modify] at ht'
  obtain ⟨old, hold, htask⟩ := Option.map_eq_some_iff.1 ht'
  split at htask
  next =>
    subst htask
    exact absurd hrun hs
  next =>
    cases htask
    exact h.inflight t' _ hold hrun

/-- A new task is started only when no task of its command runs. -/
theorem Dedup.startTask {id : Uuid} {frame : CommandFrame} (h : Dedup sys)
    (hj : sys.joined id = none) : Dedup (sys.startTask id frame) := by
  unfold DispatcherSys.startTask
  refine ⟨fun t task ht hrun => ?_, h.keys⟩
  rcases Nat.lt_or_ge t sys.tasks.length with hlt | hge
  · rw [List.getElem?_append_left hlt] at ht
    have hold := h.inflight t task ht hrun
    have hne : task.id ≠ id := by
      rintro rfl
      have hjoined : sys.joined task.id = some t := by
        rw [joined, hold]
        exact Option.filter_some_pos (isRunning_iff.2 ⟨task, ht, hrun⟩)
      rw [hj] at hjoined
      cases hjoined
    rw [← hold]
    exact Function.update_of_ne hne _ _
  · rw [List.getElem?_append_right hge] at ht
    have hlen : t = sys.tasks.length := by
      obtain ⟨hlt, -⟩ := List.getElem?_eq_some_iff.1 ht
      simp only [List.length_singleton] at hlt
      omega
    rw [List.mem_singleton.1 (List.mem_of_getElem? ht), hlen]
    exact Function.update_self _ _ _

theorem Dedup.step (h : Dedup sys) : Dedup (sys.step e) := by
  cases e with
  | handle frame =>
    simp only [DispatcherSys.step]
    split
    next => exact ⟨h.inflight, h.keys⟩
    next =>
      split
      next => exact ⟨h.inflight, AgentState.nodup_markReplayed h.keys⟩
      next =>
        split
        next => exact ⟨h.inflight, AgentState.nodup_rememberCommandResult h.keys⟩
        next => exact ⟨h.inflight, h.keys⟩
  | emitted w error =>
    simp only [DispatcherSys.step]
    split
    next frame id _ =>
      split
      next => exact h.finish
      next =>
        split
        next => exact h.setPhase
        next hj => exact (h.startTask hj).setPhase
    next => exact h
  | taskEnd t outcome =>
    simp only [DispatcherSys.step]
    split
    next task _ =>
      split
      next outcome =>
        have hagent := execute_state task.frame.commandType task.frame.payload outcome sys.agent
        generalize CommandDispatcher.execute _ _ outcome sys.agent = r at hagent ⊢
        have hnext : Dedup { sys with agent := r.1 } := ⟨h.inflight, by rw [hagent.2]; exact h.keys⟩
        exact hnext.setTask (by simp)
      next => exact h.setTask (by simp)
    next => exact h
  | wake w =>
    simp only [DispatcherSys.step]
    split
    next id t _ =>
      split
      next hs => exact (h.popInflight (by simp [isRunning, hs])).finish
      next hs => exact (h.popInflight (by simp [isRunning, hs])).setPhase
      next => exact h
    next => exact h
  | cancel w =>
    simp only [DispatcherSys.step]
    split
    next => exact h.setPhase
    next id t _ =>
      split
      next => exact h
      next hs => exact (h.popInflight (by simpa using hs)).setPhase
    next => exact h

/-- The commands of the tasks, which only a call that starts one adds to. -/
theorem step_tasks (sys : DispatcherSys) (e : HandleEvent) :
    (sys.step e).tasks.map (·.id) = sys.tasks.map (·.id) ∨
      ∃ w frame id, e = .emitted w none ∧ sys.emitting w = some (frame, id) ∧
        sys.joined id = none ∧ (sys.step e).tasks.map (·.id) = sys.tasks.map (·.id) ++ [id] := by
  have hset (sys : DispatcherSys) (t : Nat) (state : TaskState) :
      (sys.setTask t state).tasks.map (·.id) = sys.tasks.map (·.id) := by
    refine List.ext_getElem? fun i => ?_
    simp only [setTask, List.getElem?_map, List.getElem?_modify]
    cases sys.tasks[i]? with
    | none => rfl
    | some task =>
      simp only [Option.map_some]
      split <;> rfl
  have hpop (sys : DispatcherSys) (id : Uuid) (t : Nat) :
      (sys.popInflight id t).tasks = sys.tasks := by
    unfold popInflight
    split <;> rfl
  cases e with
  | handle frame =>
    refine .inl ?_
    simp only [step]
    split
    next => rfl
    next =>
      split
      next => rfl
      next => split <;> rfl
  | emitted w error =>
    cases hw : sys.emitting w with
    | none => exact .inl (by simp only [step, hw])
    | some x =>
      obtain ⟨frame, id⟩ := x
      cases error with
      | some => exact .inl (by simp only [step, hw, finish_tasks])
      | none =>
        cases hj : sys.joined id with
        | some t => exact .inl (by simp only [step, hw, hj, setPhase])
        | none =>
          refine .inr ⟨w, frame, id, rfl, hw, hj, ?_⟩
          simp only [step, hw, hj, setPhase, startTask, List.map_append, List.map_cons, List.map_nil]
  | taskEnd t outcome =>
    refine .inl ?_
    simp only [step]
    split
    next =>
      split
      next => exact hset _ t _
      next => exact hset sys t _
    next => rfl
  | wake w =>
    refine .inl ?_
    simp only [step]
    split
    next id t _ =>
      split
      next => rw [finish_tasks, hpop]
      next => exact congrArg _ (hpop sys id t)
      next => rfl
    next => rfl
  | cancel w =>
    refine .inl ?_
    simp only [step]
    split
    next => rfl
    next id t _ =>
      split
      next => rfl
      next => exact congrArg _ (hpop sys id t)
    next => rfl

theorem Dedup.keepsDone_iff (h : Dedup sys) : KeepsDone sys e ↔ sys.keepsDone e := by
  constructor
  · intro hk
    cases e with
    | handle frame =>
      cases hid : frame.id with
      | none => simp [DispatcherSys.keepsDone, hid]
      | some id =>
        cases hr : sys.agent.getCommandResult id with
        | none => simp [DispatcherSys.keepsDone, hid, hr]
        | some r =>
          have hstore := (hk.replays frame id r rfl hid hr).2
          simp only [DispatcherSys.step, hid, hr] at hstore
          simpa [DispatcherSys.keepsDone, hid, hr] using
            (AgentState.markReplayed_eq_iff h.keys hr).1 hstore
    | emitted w error =>
      cases error with
      | some => rfl
      | none =>
        cases hw : sys.emitting w with
        | none => simp [DispatcherSys.keepsDone, hw]
        | some x =>
          obtain ⟨frame, id⟩ := x
          cases hr : sys.agent.getCommandResult id with
          | none => simp [DispatcherSys.keepsDone, hw, hr]
          | some r =>
            cases hj : sys.joined id with
            | some => simp [DispatcherSys.keepsDone, hw, hj]
            | none =>
              have hcount := hk.executions id r hr
              simp [DispatcherSys.executions, DispatcherSys.step, hw, hj, DispatcherSys.setPhase,
                DispatcherSys.startTask] at hcount
    | _ => rfl
  · intro hg
    refine ⟨fun id r hr => ?_, ?_⟩
    · rcases step_tasks sys e with hsame | ⟨w, frame, id', rfl, hw, hj, htasks⟩
      · rw [DispatcherSys.executions, hsame, DispatcherSys.executions]
      · rw [DispatcherSys.executions, htasks, DispatcherSys.executions, List.count_append]
        have hne : id' ≠ id := by
          rintro rfl
          simp [DispatcherSys.keepsDone, hw, hr, hj] at hg
        rw [List.count_singleton, if_neg (by simpa using hne), Nat.add_zero]
    · rintro frame id r rfl hid hr
      have hmarked : r.result.all (·.replayed) := by
        simpa [DispatcherSys.keepsDone, hid, hr] using hg
      simp only [DispatcherSys.step, hid, hr]
      exact ⟨trivial, (AgentState.markReplayed_eq_iff h.keys hr).2 hmarked⟩

/-- At most one execution of a command is in progress, and a stored result is final and replayed
without a change to the store, exactly if every step meets the guard. -/
theorem handlesOnce_iff {agent : AgentState} {es : List HandleEvent}
    (hn : (agent.completedCommands.map (·.1)).Nodup) :
    (Always step AtMostOneRunning (.start agent) es ∧ Guarded step KeepsDone (.start agent) es) ↔
      Guarded step (fun sys e => sys.keepsDone e) (.start agent) es := by
  have h0 : Dedup (.start agent) := ⟨fun t task ht => by simp [DispatcherSys.start] at ht, hn⟩
  have hrunning : Always step AtMostOneRunning (.start agent) es := fun pre _ =>
    (run_invariant (fun _ _ h => Dedup.step h) h0).atMostOne
  have hdone : Guarded step KeepsDone (.start agent) es ↔
      Guarded step (fun sys e => sys.keepsDone e) (.start agent) es :=
    guarded_congr (fun _ _ h => Dedup.step h) (fun _ _ h => h.keepsDone_iff) h0
  exact ⟨fun h => hdone.1 h.2, fun h => ⟨hrunning, hdone.2 h⟩⟩

def deployFrame : CommandFrame := ⟨some 1, "deploy_workload", ⟨.missing, true, []⟩⟩

/-- A deploy that is sent again while it runs: both calls return the outcome of one execution. -/
theorem handlesOnce_joined :
    Always step AtMostOneRunning (.start .fresh)
        [.handle deployFrame, .emitted 0 none, .handle deployFrame, .emitted 1 none, .cancel 0,
          .taskEnd 0 (some (.success .empty)), .wake 0, .wake 1] ∧
      Guarded step KeepsDone (.start .fresh)
        [.handle deployFrame, .emitted 0 none, .handle deployFrame, .emitted 1 none, .cancel 0,
          .taskEnd 0 (some (.success .empty)), .wake 0, .wake 1] :=
  (handlesOnce_iff (by decide)).2 (by decide)

/-- A deploy that is sent again after its result was stored: the answer marks the stored result. -/
theorem not_handlesOnce_replayed :
    ¬ (Always step AtMostOneRunning (.start .fresh)
          [.handle deployFrame, .emitted 0 none, .taskEnd 0 (some (.success .empty)), .wake 0,
            .handle deployFrame] ∧
        Guarded step KeepsDone (.start .fresh)
          [.handle deployFrame, .emitted 0 none, .taskEnd 0 (some (.success .empty)), .wake 0,
            .handle deployFrame]) := by
  rintro ⟨-, -, -, -, -, hlast, -⟩
  have hstored := (hlast.replays deployFrame 1 ⟨true, some .empty, none, none⟩ rfl rfl (by decide)).2
  exact absurd hstored (by decide)

end LlmPort.NodeAgent
