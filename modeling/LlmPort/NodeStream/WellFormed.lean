import LlmPort.NodeStream.System

/-!
# What holds in every state of the system

Commands and frames in flight are about rows of the node, a frame in a queue or at the backend is
one the agent produced, and its number is not above the agent's counter.
-/

namespace LlmPort.NodeStream

open Transition Backend Backend.NodeControl NodeControlService Store Backend.Llm LLMService NodeAgent

/-- A queue holds copies of rows of the node, and frames of the log. -/
structure Connection.Valid (nodeId : Uuid) (s : Store) (log : List Frame) (conn : Connection) :
    Prop where
  down : ∀ item ∈ conn.down, Copies nodeId s item
  up : ∀ frame ∈ conn.up, frame ∈ log

structure WellFormed (d : Deployment) (sys : Sys) : Prop where
  keyed : sys.store.Keyed
  conns : ∀ conn ∈ sys.conns, conn.Valid d.nodeId sys.store sys.log
  busy : ∀ item, sys.busy = some item → Copies d.nodeId sys.store item
  executed : ∀ x ∈ sys.executed, Copies d.nodeId sys.store x.1
  cached : ∀ x ∈ sys.agent.completedCommands, Hosts d.nodeId sys.store x.1
  log : ∀ frame ∈ sys.log, ∀ id, frame.body.commandId? = some id → Hosts d.nodeId sys.store id
  numbered : ∀ frame ∈ sys.log, frame.seq ≤ sys.agent.txSeq
  processed : ∀ frame ∈ sys.processed, frame ∈ sys.log

variable {d : Deployment} {sys : Sys} {s s' : Store} {nodeId : Uuid}

theorem wellFormed_start (hk : s.Keyed) : WellFormed d (.start s) := by
  refine ⟨hk, ?_, ?_, ?_, ?_, ?_, ?_, ?_⟩ <;> simp [Sys.start, AgentState.fresh]

theorem Connection.Valid.mono {log log' : List Frame} {conn : Connection}
    (h : conn.Valid nodeId s log) (hg : Grows s s') (hl : ∀ frame ∈ log, frame ∈ log') :
    conn.Valid nodeId s' log' :=
  ⟨fun item hi => (h.down item hi).grows hg, fun frame hf => hl frame (h.up frame hf)⟩

namespace WellFormed

/-- A change of the store that keeps its rows. -/
theorem store (h : WellFormed d sys) (hk : s'.Keyed) (hg : Grows sys.store s') :
    WellFormed d { sys with store := s' } where
  keyed := hk
  conns conn hc := (h.conns conn hc).mono hg fun _ hf => hf
  busy item hi := (h.busy item hi).grows hg
  executed x hx := (h.executed x hx).grows hg
  cached x hx := (h.cached x hx).grows hg
  log frame hf id hid := (h.log frame hf id hid).grows hg
  numbered := h.numbered
  processed := h.processed

theorem updateConn (h : WellFormed d sys) {sessionId : Uuid} {f : Connection → Connection}
    (hf : ∀ conn, conn.Valid d.nodeId sys.store sys.log →
      (f conn).Valid d.nodeId sys.store sys.log) :
    WellFormed d (sys.updateConn sessionId f) := by
  refine { h with conns := ?_ }
  intro conn hc
  obtain ⟨conn₀, hc₀, rfl⟩ := List.mem_map.1 hc
  split
  · exact hf conn₀ (h.conns conn₀ hc₀)
  · exact h.conns conn₀ hc₀

/-- Sending a frame about a row of the node. -/
theorem send (h : WellFormed d sys) {body : FrameBody}
    (hb : ∀ id, body.commandId? = some id → Hosts d.nodeId sys.store id) :
    WellFormed d (sys.send body) where
  keyed := h.keyed
  conns conn hc := by
    obtain ⟨conn₀, hc₀, rfl⟩ := List.mem_map.1 hc
    have hv : conn₀.Valid d.nodeId sys.store (sys.send body).log :=
      (h.conns conn₀ hc₀).mono (.of_commands rfl) fun _ hf => List.mem_append_left _ hf
    split
    · refine ⟨hv.down, ?_⟩
      intro frame hf
      rcases List.mem_append.1 hf with hf | hf
      · exact hv.up frame hf
      · exact List.mem_append_right _ hf
    · exact hv
  busy := h.busy
  executed := h.executed
  cached := h.cached
  log frame hf id hid := by
    rcases List.mem_append.1 hf with hf | hf
    · exact h.log frame hf id hid
    · rw [List.mem_singleton.1 hf] at hid
      exact hb id hid
  numbered frame hf := by
    rcases List.mem_append.1 hf with hf | hf
    · exact Nat.le_succ_of_le (h.numbered frame hf)
    · rw [List.mem_singleton.1 hf]
      exact Nat.le_refl _
  processed frame hf := List.mem_append_left _ (h.processed frame hf)

theorem foldl_send {bodies : List FrameBody} (h : WellFormed d sys)
    (hb : ∀ body ∈ bodies, ∀ id, body.commandId? = some id → Hosts d.nodeId sys.store id) :
    WellFormed d (bodies.foldl Sys.send sys) := by
  induction bodies generalizing sys with
  | nil => exact h
  | cons body bodies ih =>
    refine ih (h.send (hb body List.mem_cons_self)) ?_
    exact fun body' hm => hb body' (List.mem_cons_of_mem _ hm)

end WellFormed

theorem Sys.findConn_mem {sessionId : Uuid} {conn : Connection}
    (h : sys.findConn sessionId = some conn) : conn ∈ sys.conns := List.mem_of_find?_eq_some h

theorem WellFormed.nextItem (h : WellFormed d sys) {item : DispatchItem}
    (hi : sys.nextItem = some item) : Copies d.nodeId sys.store item := by
  unfold Sys.nextItem at hi
  split at hi
  next sessionId _ _ =>
    obtain ⟨conn, hc, hh⟩ := Option.bind_eq_some_iff.1 hi
    exact (h.conns conn (Sys.findConn_mem hc)).down item (List.mem_of_mem_head? hh)
  next => cases hi

theorem WellFormed.nextFrame (h : WellFormed d sys) {sessionId : Uuid} {frame : Frame}
    (hf : sys.nextFrame sessionId = some frame) : frame ∈ sys.log := by
  obtain ⟨conn, hc, hh⟩ := Option.bind_eq_some_iff.1 hf
  have hc := (Option.filter_eq_some_iff.1 hc).1
  exact (h.conns conn (Sys.findConn_mem hc)).up frame (List.mem_of_mem_head? hh)

section
variable {now : Time} {sessionId : Uuid} {host : Option String} {item : DispatchItem} {frame : Frame}

theorem WellFormed.onConnect (h : WellFormed d sys) :
    WellFormed d (d.onConnect now sessionId sys) := by
  have hk : (createStreamSession sessionId d.nodeId sys.store).Keyed := h.keyed
  have hl := listDispatchableCommands_listed d.llm.nodeControl now d.nodeId dispatchLimit hk
  have hs := h.store (hl.rewrites.keyed hk) hl.rewrites.grows
  refine { hs with conns := ?_ }
  intro conn hc
  rcases List.mem_append.1 hc with hc | hc
  · exact hs.conns conn hc
  · rw [List.mem_singleton.1 hc]
    exact ⟨hl.copies, fun _ hf => nomatch hf⟩

theorem WellFormed.onTake (h : WellFormed d sys) (hi : Copies d.nodeId sys.store item) :
    WellFormed d (d.onTake now item sys) := by
  have hh := handleCommand_handled d.cfg now item sys.agent
  unfold Deployment.onTake
  generalize handleCommand d.cfg now item sys.agent = r at hh ⊢
  refine WellFormed.foldl_send ?_ fun body hb id hid => ?_
  · refine { h with conns := ?_, busy := ?_, cached := ?_, numbered := ?_ }
    · intro conn hc
      obtain ⟨conn₀, hc₀, rfl⟩ := List.mem_map.1 hc
      have hv := h.conns conn₀ hc₀
      have hv' : (if sys.attached = some conn₀.sessionId then { conn₀ with down := conn₀.down.tail }
          else conn₀).Valid d.nodeId sys.store sys.log := by
        split
        · exact ⟨fun x hx => hv.down x (List.mem_of_mem_tail hx), hv.up⟩
        · exact hv
      exact hv'
    · intro x hx
      simp only at hx
      split at hx
      · cases hx
        exact hi
      · cases hx
    · intro x hx
      rcases hh.mem_completedCommands hx with e | ⟨payload, hx⟩
      · rw [e]
        exact hosts_of_copies hi rfl
      · exact h.cached (x.1, payload) hx
    · intro frame hf
      simp only [hh.txSeq]
      exact h.numbered frame hf
  · rw [hh.commandId body hb] at hid
    exact hosts_of_copies hi hid

theorem WellFormed.onFinish (h : WellFormed d sys) {outcome : ExecOutcome}
    (hi : Copies d.nodeId sys.store item) : WellFormed d (d.onFinish outcome item sys) := by
  have hh := finishCommand_finished d.cfg item outcome sys.agent
  unfold Deployment.onFinish
  generalize finishCommand d.cfg item outcome sys.agent = r at hh ⊢
  refine WellFormed.send ?_ fun id hid => hosts_of_copies hi hid
  refine { h with busy := ?_, executed := ?_, cached := ?_, numbered := ?_ }
  · exact fun _ hx => nomatch hx
  · intro x hx
    rcases List.mem_append.1 hx with hx | hx
    · exact h.executed x hx
    · rw [List.mem_singleton.1 hx]
      exact hi
  · intro x hx
    rcases hh.cached x hx with rfl | hx
    · exact hosts_of_copies hi rfl
    · exact h.cached x hx.1
  · intro frame hf
    simp only [hh.txSeq]
    exact h.numbered frame hf

theorem WellFormed.onDisconnect (h : WellFormed d sys) :
    WellFormed d (Deployment.onDisconnect sessionId sys) := by
  have hidle : WellFormed d { sys with attached := none, busy := none } :=
    { h with busy := fun _ hx => nomatch hx }
  exact hidle.updateConn fun conn hv => ⟨fun _ hx => (nomatch hx), hv.up⟩

theorem WellFormed.onClose (h : WellFormed d sys) : WellFormed d (d.onClose sessionId sys) := by
  have hg : Grows sys.store (d.llm.nodeControl.closeStreamSession sessionId sys.store) :=
    .of_commands closeStreamSession_commands
  have hk : (controlStep d.llm sys.store (.closeSession sessionId)).Keyed :=
    controlStep_keyed h.keyed
  refine (h.store hk hg).updateConn ?_
  exact fun conn hv => ⟨hv.down, fun _ hf => nomatch hf⟩

theorem WellFormed.onReceive (h : WellFormed d sys) (hf : frame ∈ sys.log) :
    WellFormed d (d.onReceive now sessionId host frame sys) := by
  have hread : WellFormed d (sys.updateConn sessionId fun c => { c with up := c.up.tail }) :=
    h.updateConn fun conn hv => ⟨hv.down, fun x hx => hv.up x (List.mem_of_mem_tail hx)⟩
  simp only [Deployment.onReceive]
  split
  next => exact hread
  next =>
    split
    next => exact hread.onClose
    next =>
      have hg : Grows sys.store
          (run (controlStep d.llm) sys.store (d.turnCalls now sessionId host frame)) :=
        grows_run h.keyed
      have hs := hread.store (run_controlStep_keyed h.keyed) hg
      have hl := listCommandsForDispatch_listed now d.nodeId dispatchLimit hs.keyed
      have hs' := hs.store (hl.rewrites.keyed hs.keyed) hl.rewrites.grows
      apply WellFormed.updateConn
      · refine { hs' with processed := ?_ }
        intro x hx
        rcases List.mem_append.1 hx with hx | hx
        · exact h.processed x hx
        · rw [List.mem_singleton.1 hx]
          exact hf
      · intro conn hv
        refine ⟨?_, hv.up⟩
        intro x hx
        rcases List.mem_append.1 hx with hx | hx
        · exact hv.down x hx
        · exact hl.copies x hx

/-- Every event keeps the system well formed. -/
theorem WellFormed.step {e : SysEvent} (h : WellFormed d sys) : WellFormed d (d.step sys e) := by
  cases e with
  | control e =>
    simp only [Deployment.step]
    split
    · have hg : Grows sys.store (run (controlStep d.llm) sys.store [e]) := grows_run h.keyed
      exact { h.store (controlStep_keyed h.keyed) hg with }
    · exact h
  | connect now sessionId =>
    simp only [Deployment.step]
    split
    · exact h.onConnect
    · exact h
  | take now =>
    simp only [Deployment.step]
    split
    next item hi => exact h.onTake (h.nextItem hi)
    next => exact h
  | progress message =>
    simp only [Deployment.step]
    split
    next item hi => exact h.send fun id hid => hosts_of_copies (h.busy item hi) hid
    next => exact h
  | finish outcome =>
    simp only [Deployment.step]
    split
    next item hi => exact h.onFinish (h.busy item hi)
    next => exact h
  | heartbeat | report =>
    simp only [Deployment.step]
    split
    · exact h.send fun _ hid => by cases hid
    · exact h
  | disconnect =>
    simp only [Deployment.step]
    split
    next => exact h.onDisconnect
    next => exact h
  | receive now sessionId host =>
    simp only [Deployment.step]
    split
    next frame hf => exact h.onReceive (h.nextFrame hf)
    next => exact h
  | close sessionId =>
    simp only [Deployment.step]
    split
    · exact h.onClose
    · exact h

end

end LlmPort.NodeStream
