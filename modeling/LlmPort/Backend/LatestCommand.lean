import LlmPort.Backend.ControlPlane
import LlmPort.Transition.LatestWins

/-!
# Which command determines a runtime's state

The commands that name a runtime are writers of one register, its status and its last command. The
service applies their outcomes as they arrive; `Register.latest` is the register in which only the
command issued last counts. The two agree after every run in which that command has the last word.
-/

namespace LlmPort.Backend

open Transition NodeControl NodeControlService Store Llm LLMService

/-- The value of the register: none while the runtime does not exist. -/
abbrev RuntimeState := Option (RuntimeStatus × Option Uuid)

/-- The command issued last among those that name the runtime. -/
def newestCommand (s : Store) (runtimeId : Uuid) : Option Uuid :=
  ((s.specs.filter fun c => runtimeIdOf c.payloadJson = some runtimeId).getLast?).map (·.id)

/-- A runtime as a register driven by its commands. -/
def registerOf (runtimeId : Uuid) (s : Store) : Register Uuid RuntimeState :=
  ⟨newestCommand s runtimeId, runtimeView s runtimeId⟩

/-- The touch of a command's outcome on the runtime, when it exists. -/
def outcomeTouch (runtimeId : Uuid) (s : Store) (success : Bool) (c : InfraNodeCommand) :
    List (Touch Uuid RuntimeState) :=
  if runtimeIdOf c.payloadJson = some runtimeId ∧ (runtimeView s runtimeId).isSome then
    match outcomeStatus c.commandType success with
    | some status => [.set c.id (some (status, some c.id))]
    | none => [.modify c.id (Option.map fun v => (v.1, some c.id))]
  else []

/-- The writers among the rows a call adds. -/
def issuedTouches (runtimeId : Uuid) (s s' : Store) : List (Touch Uuid RuntimeState) :=
  (s'.specs.drop s.specs.length).filterMap fun c =>
    if runtimeIdOf c.payloadJson = some runtimeId then some (.issued c.id) else none

/-- A change of the status that no command makes. -/
def statusTouch (runtimeId : Uuid) (s s' : Store) : List (Touch Uuid RuntimeState) :=
  match runtimeView s' runtimeId with
  | none => []
  | some v' =>
    if runtimeView s runtimeId = some v' then [] else [.direct (Option.map fun v => (v'.1, v.2))]

/-- The touch by which a request notes its command on the runtime. -/
def noteTouch (runtimeId : Uuid) (req : LifecycleRequest) (s' : Store) :
    List (Touch Uuid RuntimeState) :=
  match (runtimeView s' runtimeId).bind (·.2) with
  | none => []
  | some k => [.set k (some (req.action.pendingStatus, some k))]

/-- The touches of one event on the register of a runtime. -/
def touches (llm : LLMService) (runtimeId : Uuid) (s : Store) (e : ControlEvent) :
    List (Touch Uuid RuntimeState) :=
  let s' := controlStep llm s e
  match e with
  | .issue _ _ => issuedTouches runtimeId s s'
  | .lifecycle draw req =>
    match llm.handle draw req s with
    | .error _ => []
    | .ok _ =>
      issuedTouches runtimeId s s' ++
        if req.runtimeId = runtimeId then
          if requestNode req s = none then statusTouch runtimeId s s' else noteTouch runtimeId req s'
        else []
  | .result _ nodeId commandId payload =>
    match ownCommand s nodeId commandId with
    | none => []
    | some c => if fits 128 payload.errorCode then outcomeTouch runtimeId s payload.success c else []
  | .reap now => (staleRows llm.nodeControl now s).flatMap (outcomeTouch runtimeId s false)
  | .closeSession _ => statusTouch runtimeId s s'
  | .listForDispatch _ _ _ | .listDispatchable _ _ _ | .ack _ _ _ _ | .progress _ _ _ _
  | .openSession _ _ | .streamOffset _ _ | .heartbeat _ _ _ => []

variable {llm : LLMService} {runtimeId : Uuid} {s s' : Store} {e : ControlEvent}

theorem newestCommand_congr (h : s'.specs = s.specs) :
    newestCommand s' runtimeId = newestCommand s runtimeId := by
  simp only [newestCommand, h]

theorem newestCommand_append {c : CommandSpec} (h : s'.specs = s.specs ++ [c]) :
    newestCommand s' runtimeId =
      if runtimeIdOf c.payloadJson = some runtimeId then some c.id
      else newestCommand s runtimeId := by
  unfold newestCommand
  rw [h, List.filter_append]
  by_cases hc : runtimeIdOf c.payloadJson = some runtimeId <;> simp [hc]

theorem registerOf_congr (hs : s'.specs = s.specs)
    (hv : runtimeView s' runtimeId = runtimeView s runtimeId) :
    registerOf runtimeId s' = registerOf runtimeId s := by
  simp only [registerOf, newestCommand_congr hs, hv]

/-- The rows a call adds are the writers it announces. -/
theorem run_issuedTouches {P : InfraNodeCommand → InfraNodeCommand → Prop} {v : RuntimeState}
    (h : Extends P s s') :
    run Register.arrival ⟨newestCommand s runtimeId, v⟩ (issuedTouches runtimeId s s') =
      ⟨newestCommand s' runtimeId, v⟩ := by
  unfold issuedTouches
  cases h with
  | same h => rw [h.specs, newestCommand_congr h.specs, List.drop_length]; rfl
  | more s₁ command h hq hnew hs =>
    have hspecs : s'.specs = s.specs ++ [specOf command] := by
      rw [← h.specs]
      simp only [specs, hs, List.map_append, List.map_cons, List.map_nil]
    rw [newestCommand_append hspecs, hspecs, List.drop_left]
    by_cases hc : runtimeIdOf (specOf command).payloadJson = some runtimeId <;>
      simp [hc, Register.arrival]

theorem run_statusTouch {k : Option Uuid}
    (h : (runtimeView s' runtimeId).map (·.2) = (runtimeView s runtimeId).map (·.2)) :
    run Register.arrival ⟨k, runtimeView s runtimeId⟩ (statusTouch runtimeId s s') =
      ⟨k, runtimeView s' runtimeId⟩ := by
  unfold statusTouch
  cases hv' : runtimeView s' runtimeId with
  | none =>
    cases hv : runtimeView s runtimeId with
    | none => rfl
    | some v => simp [hv, hv'] at h
  | some v' =>
    cases hv : runtimeView s runtimeId with
    | none => simp [hv, hv'] at h
    | some v =>
      simp only [hv, hv', Option.map_some, Option.some.injEq] at h
      by_cases e : v = v'
      · simp [e]
      · simp [e, Register.arrival, ← h]

/-- The touch of an outcome is what the side effect does, whatever the row's other columns and the
store's other tables have become. -/
theorem run_outcomeTouch {svc : NodeControlService} {k : Option Uuid} {c c' : InfraNodeCommand}
    {ok : Bool} {p : CommandResult} (hc : specOf c' = specOf c)
    (hs : (runtimeView s runtimeId).isSome = (runtimeView s' runtimeId).isSome) :
    run Register.arrival ⟨k, runtimeView s' runtimeId⟩ (outcomeTouch runtimeId s ok c) =
      ⟨k, runtimeView (svc.applyRuntimeSideEffect c' ok p s') runtimeId⟩ := by
  have hid : c'.id = c.id := specOf_id hc
  have hty : c'.commandType = c.commandType := congrArg CommandSpec.commandType hc
  have hp : c'.payloadJson = c.payloadJson := congrArg CommandSpec.payloadJson hc
  rw [runtimeView_applyRuntimeSideEffect, hid, hty, hp]
  unfold outcomeTouch
  by_cases hr : runtimeIdOf c.payloadJson = some runtimeId
  · cases hv : runtimeView s' runtimeId with
    | none => simp [hr, hs, hv]
    | some v =>
      simp only [hr, hs, hv, Option.isSome_some, and_self, if_true]
      split
      next h => simp [h, Register.arrival]
      next h => simp [h, Register.arrival]
  · simp [hr]

section reaper
variable {svc : NodeControlService} {now : Time} {a : Store × Nat} {c : InfraNodeCommand}

/-- The rows of a listing are still as they were when it was made, and so are the nodes and the
existence of the runtime. -/
structure Pending (runtimeId : Uuid) (s : Store) (rows : List InfraNodeCommand) (a : Store) :
    Prop where
  keyed : a.Keyed
  specs : a.specs = s.specs
  nodes : a.nodes = s.nodes
  live : ∀ c ∈ rows, a.getCommand c.id = some c
  exists_ : (runtimeView s runtimeId).isSome = (runtimeView a runtimeId).isSome

theorem isSome_applyRuntimeSideEffect {ok : Bool} {p : CommandResult} :
    (runtimeView (svc.applyRuntimeSideEffect c ok p s) runtimeId).isSome =
      (runtimeView s runtimeId).isSome := by
  rw [runtimeView_applyRuntimeSideEffect]
  split
  · exact Option.isSome_map
  · rfl

/-- An iteration on a live row carries the register along its touch. -/
theorem registerOf_reapOne {rows : List InfraNodeCommand}
    (h : Pending runtimeId s (c :: rows) a.1) :
    registerOf runtimeId (svc.reapOne now a c).1 =
      run Register.arrival (registerOf runtimeId a.1)
        (if svc.isStale now s c then outcomeTouch runtimeId s false c else []) := by
  have hc := h.live c List.mem_cons_self
  have hstale : svc.isStale now a.1 c = svc.isStale now s c := by
    simp only [isStale, getNodeById, h.nodes]
  have hspecs : (svc.reapOne now a c).1.specs = a.1.specs :=
    (reapOne_rewrites (P := fun _ _ => True) (fun _ => trivial) h.keyed hc fun _ _ => trivial).specs
  simp only [registerOf, newestCommand_congr hspecs]
  unfold reapOne
  rw [hstale]
  split
  · refine (run_outcomeTouch rfl ?_).symm
    exact h.exists_
  · rfl

theorem Pending.reapOne {rows : List InfraNodeCommand} (hd : c.id ∉ rows.map (·.id))
    (h : Pending runtimeId s (c :: rows) a.1) :
    Pending runtimeId s rows (svc.reapOne now a c).1 := by
  have hc := h.live c List.mem_cons_self
  have hrw : Rewrites (fun _ _ => True) a.1 (svc.reapOne now a c).1 :=
    reapOne_rewrites (fun _ => trivial) h.keyed hc fun _ _ => trivial
  refine ⟨hrw.keyed h.keyed, hrw.specs.trans h.specs, ?_, ?_, ?_⟩
  · unfold NodeControlService.reapOne
    split
    · exact applyRuntimeSideEffect_nodes.trans h.nodes
    · exact h.nodes
  · intro d hdm
    have hne : d.id ≠ c.id := fun e => hd (e ▸ List.mem_map_of_mem hdm)
    have hlive := h.live d (List.mem_cons_of_mem _ hdm)
    unfold NodeControlService.reapOne
    split
    · rw [getCommand_congr applyRuntimeSideEffect_commands, ← hlive]
      exact getCommand_updateCommand_of_ne hne
    · exact hlive
  · unfold NodeControlService.reapOne
    split
    · rw [isSome_applyRuntimeSideEffect]
      exact h.exists_
    · exact h.exists_

/-- The reaper's loop over rows that are pending carries the register along the touches of the stale
ones. The induction is on the rows still to come; an iteration touches no later row, since the ids
are distinct. -/
theorem registerOf_reapLoop {rows : List InfraNodeCommand} (hd : (rows.map (·.id)).Nodup)
    (h : Pending runtimeId s rows a.1) :
    registerOf runtimeId (forEachCommand rows a (·.1) (svc.reapOne now)).1 =
      run Register.arrival (registerOf runtimeId a.1)
        ((rows.filter (svc.isStale now s)).flatMap (outcomeTouch runtimeId s false)) := by
  induction rows generalizing a with
  | nil => rfl
  | cons c rows ih =>
    rw [List.map_cons, List.nodup_cons] at hd
    have hloop : forEachCommand (c :: rows) a (·.1) (svc.reapOne now) =
        forEachCommand rows (svc.reapOne now a c) (·.1) (svc.reapOne now) := by
      simp only [forEachCommand, List.foldl_cons, h.live c List.mem_cons_self]
    rw [hloop, ih hd.2 (h.reapOne hd.1), registerOf_reapOne h, ← run_append, List.filter_cons]
    split <;> rfl

theorem registerOf_reapStaleCommands (hk : s.Keyed) :
    registerOf runtimeId (svc.reapStaleCommands now s).1 =
      run Register.arrival (registerOf runtimeId s)
        ((staleRows svc now s).flatMap (outcomeTouch runtimeId s false)) := by
  have hmem : ∀ c ∈ s.listInflightCommandsAllNodes 200, c ∈ s.commands := fun c hc =>
    List.mem_of_mem_filter (mem_of_mem_oldestFirst hc)
  refine registerOf_reapLoop (a := (s, 0)) (nodup_oldestFirst (hk.nodup_filter _)) ?_
  exact ⟨hk, rfl, rfl, fun c hc => hk.getCommand (hmem c hc), rfl⟩

end reaper

theorem listCommandsForDispatch_runtimes {now : Time} {nodeId : Uuid} {limit : Nat} :
    (listCommandsForDispatch now nodeId limit s).1.runtimes = s.runtimes := by
  refine forEachCommand_induct _ (motive := fun a : Store × List DispatchItem =>
    a.1.runtimes = s.runtimes) rfl ?_
  intro a command ha _
  unfold dispatchOne
  split <;> exact ha

theorem listDispatchableCommands_runtimes {svc : NodeControlService} {now : Time} {nodeId : Uuid}
    {limit : Nat} :
    (svc.listDispatchableCommands now nodeId limit s).1.runtimes = s.runtimes := by
  refine forEachCommand_induct _ (motive := fun a : Store × List DispatchItem =>
    a.1.runtimes = s.runtimes) listCommandsForDispatch_runtimes ?_
  intro a command ha _
  unfold redispatchOne
  split <;> exact ha

/-- An event that adds no command and leaves the runtimes alone leaves the register alone. -/
theorem registerOf_eq (h : Rewrites (fun _ _ => True) s s')
    (hr : s'.runtimes = s.runtimes) : registerOf runtimeId s' = registerOf runtimeId s :=
  registerOf_congr h.specs (runtimeView_congr hr)

/-- What a request that issues a command does to the register of its runtime. -/
theorem Issued.run_touches {draw : Draw} {req : LifecycleRequest} (h : Issued llm draw req s s')
    {P : InfraNodeCommand → InfraNodeCommand → Prop} (he : Extends P s s') :
    run Register.arrival (registerOf runtimeId s) (issuedTouches runtimeId s s' ++
        if req.runtimeId = runtimeId then noteTouch runtimeId req s' else []) =
      registerOf runtimeId s' := by
  rw [run_append, registerOf, run_issuedTouches he]
  have hv := h.view runtimeId
  by_cases hid : req.runtimeId = runtimeId
  · subst hid
    rw [if_pos rfl]
    unfold noteTouch registerOf
    rw [hv]
    cases runtimeView s req.runtimeId with
    | none => rfl
    | some v => simp [Register.arrival]
  · rw [if_neg hid]
    simp only [run_nil, registerOf, hv, Ne.symm hid, if_false, Option.map_id']

/-- The step lemma: every event carries the register along its touches. -/
theorem registerOf_controlStep (hk : s.Keyed) :
    registerOf runtimeId (controlStep llm s e) =
      run Register.arrival (registerOf runtimeId s) (touches llm runtimeId s e) := by
  have hany := controlStep_any llm e hk
  cases e with
  | issue draw req =>
    have hv : runtimeView (controlStep llm s (.issue draw req)) runtimeId =
        runtimeView s runtimeId := by
      apply runtimeView_congr
      simp only [controlStep, committed]
      cases hi : llm.nodeControl.issueCommand draw req s with
      | error => rfl
      | ok r => exact issueCommand_runtimes hi
    rw [touches, registerOf, registerOf, run_issuedTouches hany, hv]
  | lifecycle draw req =>
    simp only [controlStep, committed, touches] at hany ⊢
    cases hi : llm.handle draw req s with
    | error => rfl
    | ok s' =>
      simp only [hi] at hany ⊢
      rcases handle_cases hi with ⟨⟨h⟩⟩ | ⟨hn, h⟩
      · simp only [h.node_eq, reduceCtorEq, if_false]
        exact (h.run_touches hany).symm
      · rw [if_pos hn, run_append, registerOf, registerOf, run_issuedTouches hany]
        by_cases hid : req.runtimeId = runtimeId
        · subst hid
          rw [if_pos rfl, run_statusTouch h.last]
        · rw [if_neg hid, h.other _ (Ne.symm hid), run_nil]
  | listForDispatch now nodeId limit =>
    refine registerOf_eq ?_ listCommandsForDispatch_runtimes
    exact listCommandsForDispatch_rewrites (fun _ => trivial) (fun _ _ _ _ _ => trivial) nodeId
      limit hk fun _ _ => trivial
  | listDispatchable now nodeId limit =>
    refine registerOf_eq ?_ listDispatchableCommands_runtimes
    exact listDispatchableCommands_rewrites (fun _ => trivial) (fun _ _ _ _ _ => trivial) hk
      fun _ _ => trivial
  | ack now nodeId commandId message =>
    refine registerOf_eq (recordCommandAck_rewrites (fun _ => trivial) hk fun _ _ => trivial) ?_
    simp only [controlStep, recordCommandAck]
    split <;> rfl
  | progress now nodeId commandId message =>
    refine registerOf_eq (recordCommandProgress_rewrites (fun _ => trivial) hk fun _ _ => trivial) ?_
    simp only [controlStep, recordCommandProgress]
    split <;> rfl
  | result now nodeId commandId payload =>
    simp only [controlStep, touches, recordCommandResult]
    cases hc : ownCommand s nodeId commandId with
    | none => rfl
    | some c =>
      by_cases hf : fits 128 payload.errorCode
      · obtain ⟨s', hs', hrows⟩ := recordCommandResult_own llm.nodeControl now hc hf
        have hspecs : s'.specs = s.specs := by
          refine (recordCommandResult_rewrites (P := fun _ _ => True) (fun _ => trivial) hk hs' ?_).specs
          exact fun _ _ _ => trivial
        simp only [recordCommandResult, hc, hf, if_true, Except.ok.injEq] at hs'
        subst hs'
        simp only [hf, if_true, committed, registerOf, newestCommand_congr hspecs]
        exact (run_outcomeTouch rfl rfl).symm
      · simp [hf, committed]
  | reap now => exact registerOf_reapStaleCommands hk
  | openSession id nodeId => exact registerOf_congr rfl rfl
  | closeSession id =>
    simp only [controlStep, touches, registerOf]
    have hs : (llm.nodeControl.closeStreamSession id s).specs = s.specs := by
      simp only [specs, closeStreamSession_commands]
    rw [run_statusTouch lastCommand_closeStreamSession, newestCommand_congr hs]
  | streamOffset id offset =>
    refine registerOf_eq (.of_commands (fun _ => trivial) updateStreamOffset_commands) ?_
    exact updateStreamOffset_runtimes
  | heartbeat nodeId status host =>
    simp only [controlStep]
    split <;> exact registerOf_congr rfl rfl

/-- After every run in which the command issued last has the last word, the runtime's status and
last command are the ones that command determines. -/
theorem runtimeView_determined_by_newest {es : List ControlEvent} (hk : s.Keyed)
    (h : (registerOf runtimeId s).newestSpeaksLast true
      (trace (controlStep llm) (touches llm runtimeId) s es)) :
    runtimeView (run (controlStep llm) s es) runtimeId =
      (run Register.latest (registerOf runtimeId s)
        (trace (controlStep llm) (touches llm runtimeId) s es)).value := by
  have hsim : registerOf runtimeId (run (controlStep llm) s es) = _ :=
    run_simulates (I := Keyed) (registerOf runtimeId) (fun _ _ => controlStep_keyed)
      (fun _ _ => registerOf_controlStep) hk
  rw [← Register.run_arrival_eq_latest rfl (fun _ => rfl) h, ← hsim]
  rfl

/-- A start and a stop of runtime 9 on node 7, as commands 1 and 2. -/
def startThenStop : List ControlEvent :=
  [.lifecycle ⟨0, 1, 101⟩ (.start 9), .lifecycle ⟨seconds 1, 2, 102⟩ (.stop 9),
    .listForDispatch (seconds 2) 7 50]

/-- Both outcomes arrive in the order of issue: the stop has the last word. -/
theorem runtimeView_startThenStop :
    runtimeView (run (controlStep .plain) (.oneRuntime 7 9) (startThenStop ++
      [.result (seconds 5) 7 1 ⟨true, none, none, none⟩,
        .result (seconds 6) 7 2 ⟨true, none, none, none⟩])) 9 = some (.stopped, some 2) :=
  (runtimeView_determined_by_newest keyed_oneRuntime (by decide)).trans (by decide)

/-- The outcome of the start arrives after that of the stop, which was issued last. -/
theorem runtimeView_ne_late_start :
    runtimeView (run (controlStep .plain) (.oneRuntime 7 9) (startThenStop ++
        [.result (seconds 5) 7 2 ⟨true, none, none, none⟩,
          .result (seconds 6) 7 1 ⟨true, none, none, none⟩])) 9 ≠
      (run Register.latest (registerOf 9 (.oneRuntime 7 9))
        (trace (controlStep .plain) (touches .plain 9) (.oneRuntime 7 9) (startThenStop ++
          [.result (seconds 5) 7 2 ⟨true, none, none, none⟩,
            .result (seconds 6) 7 1 ⟨true, none, none, none⟩]))).value := by
  decide

end LlmPort.Backend
