import LlmPort.NodeStream.WellFormed

/-!
# Agreement on executed commands

When the agent has executed a command successfully and the backend has processed all its frames, the
backend should record it as succeeded. Two things break this: a further copy that the age check or a
pruned replay store keeps from being replayed, and a frame of an old connection that is processed
after the result. `keepsAgreement` excludes both.
-/

namespace LlmPort.NodeStream

open Transition Backend Backend.NodeControl NodeControlService Store Backend.Llm LLMService NodeAgent

/-- The agent has executed the command successfully. -/
def Sys.ran (sys : Sys) (id : Uuid) : Bool :=
  sys.executed.any fun x => x.1.command.id = id ∧ x.2

def Frame.isAbout (id : Uuid) (frame : Frame) : Bool := frame.body.commandId? = some id

/-- Once all frames about a successfully executed command are processed, it is recorded as such. -/
def Agrees (sys : Sys) : Prop :=
  ∀ id, sys.ran id → (∀ frame ∈ sys.log, frame.isAbout id → frame ∈ sys.processed) →
    statusOf sys.store id = some .succeeded

def Frame.isSuccess (frame : Frame) : Bool :=
  match frame.body with
  | .commandResult _ payload => NodeAgent.isSuccess payload
  | _ => false

/-- The last frame about a command. -/
def lastFrame (log : List Frame) (id : Uuid) : Option Frame := (log.filter (·.isAbout id)).getLast?

/-- A copy of an executed command passes the age check and finds the remembered result; and a frame
about an executed command reports its success, or is processed before the last frame about it. -/
def keepsAgreement (sys : Sys) : SysEvent → Bool
  | .take now => sys.nextItem.all fun item =>
    !sys.ran item.command.id ||
      isFresh now item && (sys.agent.getCommandResult item.command.id).isSome
  | .receive _ sessionId _ => (sys.nextFrame sessionId).all fun frame =>
    frame.body.commandId?.all fun id =>
      !sys.ran id || frame.isSuccess || (lastFrame sys.log id).all (· ∉ sys.processed)
  | _ => true

/-- What the guard preserves, the last two fields for the commands in `p`. -/
structure Consistent (p : Uuid → Prop) (sys : Sys) : Prop where
  /-- What the agent would replay for an executed command is its success. -/
  cached : ∀ id, sys.ran id → ∀ r, (id, r) ∈ sys.agent.completedCommands → NodeAgent.isSuccess r
  /-- An executed command is not executed again. -/
  idle : ∀ item, sys.busy = some item → sys.ran item.command.id = false
  last : ∀ id, p id → sys.ran id → ∃ frame, lastFrame sys.log id = some frame ∧ frame.isSuccess
  recorded : ∀ id, p id → sys.ran id → ∀ frame, lastFrame sys.log id = some frame →
    frame ∈ sys.processed → statusOf sys.store id = some .succeeded

variable {d : Deployment} {sys : Sys} {id : Uuid} {log : List Frame} {frame : Frame}

theorem lastFrame_snoc : lastFrame (log ++ [frame]) id =
    if frame.isAbout id then some frame else lastFrame log id := by
  unfold lastFrame
  rw [List.filter_append]
  split
  next h => rw [List.filter_singleton, h]; exact List.getLast?_concat
  next h => simp [h]

theorem mem_of_lastFrame (h : lastFrame log id = some frame) : frame ∈ log ∧ frame.isAbout id :=
  List.mem_filter.1 (List.mem_of_getLast? h)

theorem Consistent.agrees (h : Consistent (fun _ => True) sys) : Agrees sys := by
  intro id hid hall
  obtain ⟨frame, hf, -⟩ := h.last id trivial hid
  obtain ⟨hm, ha⟩ := mem_of_lastFrame hf
  exact h.recorded id trivial hid frame hf (hall frame hm ha)

theorem consistent_start {p : Uuid → Prop} {s : Store} : Consistent p (.start s) := by
  refine ⟨?_, ?_, ?_, ?_⟩ <;> simp [Sys.start, Sys.ran]

section
variable {p : Uuid → Prop} {body : FrameBody}

theorem Consistent.send_of_ne (h : Consistent p sys)
    (hb : ∀ x, p x → sys.ran x → body.commandId? ≠ some x) : Consistent p (sys.send body) := by
  have hlast (x : Uuid) (hx : p x) (hr : sys.ran x) :
      lastFrame (sys.send body).log x = lastFrame sys.log x := by
    refine lastFrame_snoc.trans (if_neg ?_)
    simpa [Frame.isAbout] using hb x hx hr
  refine ⟨h.cached, h.idle, ?_, ?_⟩
  · intro x hx hr
    rw [hlast x hx hr]
    exact h.last x hx hr
  · intro x hx hr
    rw [hlast x hx hr]
    exact h.recorded x hx hr

/-- Any frame about a command leaves the others consistent. -/
theorem Consistent.send (h : Consistent p sys) (hb : body.commandId? = some id) :
    Consistent (fun x => p x ∧ x ≠ id) (sys.send body) := by
  have h' : Consistent (fun x => p x ∧ x ≠ id) sys :=
    ⟨h.cached, h.idle, fun x hx => h.last x hx.1, fun x hx => h.recorded x hx.1⟩
  refine h'.send_of_ne fun x hx _ hbx => hx.2 ?_
  exact (Option.some.inj (hb.symm.trans hbx)).symm

/-- The success of a command makes it consistent, too: its frame is the last one, and is not
processed yet. -/
theorem Consistent.send_success (hn : ∀ frame ∈ sys.processed, frame.seq ≤ sys.agent.txSeq)
    {payload : CommandResult} (h : Consistent (fun x => p x ∧ x ≠ id) sys)
    (hp : NodeAgent.isSuccess payload) : Consistent p (sys.send (.commandResult id payload)) := by
  have hother : Consistent (fun x => p x ∧ x ≠ id) (sys.send (.commandResult id payload)) :=
    h.send_of_ne fun x hx _ hbx => hx.2 (Option.some.inj hbx).symm
  have hself : lastFrame (sys.send (.commandResult id payload)).log id =
      some ⟨sys.agent.txSeq + 1, .commandResult id payload⟩ := by
    refine lastFrame_snoc.trans (if_pos ?_)
    simp [Frame.isAbout, FrameBody.commandId?]
  refine ⟨h.cached, h.idle, ?_, ?_⟩
  · intro x hx hr
    by_cases hne : x = id
    · subst hne
      exact ⟨_, hself, hp⟩
    · exact hother.last x ⟨hx, hne⟩ hr
  · intro x hx hr frame hf hm
    by_cases hne : x = id
    · subst hne
      rw [hself] at hf
      cases hf
      have hle : sys.agent.txSeq + 1 ≤ sys.agent.txSeq := hn _ hm
      omega
    · exact hother.recorded x ⟨hx, hne⟩ hr frame hf hm

end

section
variable {now : Time} {item : DispatchItem}

theorem WellFormed.processed_le (hw : WellFormed d sys) :
    ∀ frame ∈ sys.processed, frame.seq ≤ sys.agent.txSeq := fun frame hf =>
  hw.numbered frame (hw.processed frame hf)

/-- A copy of an executed command is replayed, and a copy of any other concerns no executed one. -/
theorem Consistent.onTake (hw : WellFormed d sys) (h : Consistent (fun _ => True) sys)
    (hg : sys.ran item.command.id →
      isFresh now item ∧ (sys.agent.getCommandResult item.command.id).isSome) :
    Consistent (fun _ => True) (d.onTake now item sys) := by
  have hh := handleCommand_handled d.cfg now item sys.agent
  unfold Deployment.onTake
  generalize handleCommand d.cfg now item sys.agent = r at hh ⊢
  have hne (hr : sys.ran item.command.id = false) (x : Uuid) (hx : sys.ran x) :
      some item.command.id ≠ some x := by
    rintro ⟨⟩
    rw [hr] at hx
    cases hx
  cases hh with
  | expired hexp =>
    have hr : sys.ran item.command.id = false := by simpa [hexp] using hg
    refine Consistent.send_of_ne ?_ fun x _ hx => hne hr x hx
    exact ⟨h.cached, fun _ hb => (nomatch hb), h.last, h.recorded⟩
  | replayed hfresh cached hc ack =>
    have hcached : ∀ id, sys.ran id → ∀ r,
        (id, r) ∈ (sys.agent.markReplayed item.command.id).completedCommands → isSuccess r := by
      intro id hid r hm
      obtain ⟨r', hm', heq⟩ := isSuccess_of_mem_markReplayed hm
      rw [heq]
      exact h.cached id hid r' hm'
    cases hr : sys.ran item.command.id with
    | true =>
      refine Consistent.send_success ?_ (Consistent.send ?_ rfl)
        (isSuccess_replayed (h.cached _ hr cached ?_))
      · exact fun frame hf => Nat.le_succ_of_le (hw.processed_le frame hf)
      · exact ⟨hcached, fun _ hb => (nomatch hb), h.last, h.recorded⟩
      · exact AgentState.mem_of_getCommandResult hc
    | false =>
      refine Consistent.send_of_ne (Consistent.send_of_ne ?_ ?_) ?_
      · exact ⟨hcached, fun _ hb => (nomatch hb), h.last, h.recorded⟩
      · exact fun x _ hx => hne hr x hx
      · exact fun x _ hx => hne hr x hx
  | blocked hfresh hc message hv ack =>
    have hr : sys.ran item.command.id = false := by simpa [hc] using hg
    refine Consistent.send_of_ne (Consistent.send_of_ne ?_ ?_) ?_
    · refine ⟨?_, fun _ hb => (nomatch hb), h.last, h.recorded⟩
      intro x hx r hm
      rcases AgentState.mem_rememberCommandResult hm with e | hm
      · cases e
        exact absurd (hr.symm.trans hx) (by decide)
      · exact h.cached x hx r hm.1
    · exact fun x _ hx => hne hr x hx
    · exact fun x _ hx => hne hr x hx
  | started hfresh hc hv ack progress =>
    have hr : sys.ran item.command.id = false := by simpa [hc] using hg
    refine Consistent.send_of_ne (Consistent.send_of_ne ?_ ?_) ?_
    · refine ⟨h.cached, ?_, h.last, h.recorded⟩
      rintro _ ⟨⟩
      exact hr
    · exact fun x _ hx => hne hr x hx
    · exact fun x _ hx => hne hr x hx

/-- The end of an execution: the result is remembered, and its frame is the last one. -/
theorem Consistent.onFinish (hw : WellFormed d sys) (h : Consistent (fun _ => True) sys)
    (hb : sys.busy = some item) {outcome : ExecOutcome} :
    Consistent (fun _ => True) (d.onFinish outcome item sys) := by
  have hh := finishCommand_finished d.cfg item outcome sys.agent
  unfold Deployment.onFinish
  generalize finishCommand d.cfg item outcome sys.agent = r at hh ⊢
  obtain ⟨agent, result⟩ := r
  have hidle := h.idle item hb
  have hran (x : Uuid) : (sys.executed ++ [(item, result.success)]).any
      (fun y => y.1.command.id = x ∧ y.2) = (sys.ran x || (item.command.id = x ∧ result.success)) := by
    simp [Sys.ran]
  have hother (x : Uuid) (hx : x ≠ item.command.id ∨ result.success = false)
      (hr : (sys.executed ++ [(item, result.success)]).any fun y => y.1.command.id = x ∧ y.2) :
      sys.ran x := by
    rw [hran] at hr
    rcases hx with hx | hx
    · simpa [Ne.symm hx] using hr
    · simpa [hx] using hr
  have hcached (x : Uuid)
      (hr : (sys.executed ++ [(item, result.success)]).any fun y => y.1.command.id = x ∧ y.2)
      (r : CommandResult) (hm : (x, r) ∈ agent.completedCommands) : NodeAgent.isSuccess r := by
    rcases hh.cached _ hm with e | ⟨hm, hne⟩
    · cases e
      apply hh.success
      rw [hran, hidle] at hr
      simpa using hr
    · exact h.cached x (hother x (.inl hne) hr) r hm
  cases hs : result.success with
  | true =>
    refine Consistent.send_success ?_ ?_ (hh.success hs)
    · intro frame hf
      exact (hw.processed_le frame hf).trans_eq hh.txSeq.symm
    · refine ⟨hcached, fun _ hb => (nomatch hb), ?_, ?_⟩
      · exact fun x hx hr => h.last x trivial (hother x (.inl hx.2) hr)
      · exact fun x hx hr => h.recorded x trivial (hother x (.inl hx.2) hr)
  | false =>
    refine Consistent.send_of_ne ⟨hcached, fun _ hb => (nomatch hb), ?_, ?_⟩ ?_
    · exact fun x _ hr => h.last x trivial (hother x (.inr hs) hr)
    · exact fun x _ hr => h.recorded x trivial (hother x (.inr hs) hr)
    · rintro x - hr ⟨⟩
      have hx := hother _ (.inr hs) hr
      rw [hidle] at hx
      cases hx

theorem hosts_of_ran (hw : WellFormed d sys) (hr : sys.ran id) : Hosts d.nodeId sys.store id := by
  obtain ⟨x, hx, hid⟩ := List.any_eq_true.1 hr
  simp only [decide_eq_true_eq] at hid
  exact hosts_of_copies (hw.executed x hx) (congrArg some hid.1)

/-- A command recorded as succeeded stays so under calls that do not name it. -/
theorem succeeded_run {s : Store} {es : List ControlEvent} (hk : s.Keyed)
    (hX : Hosts d.nodeId s id) (hw : ∀ e ∈ es, written d.nodeId id e = none)
    (hs : statusOf s id = some .succeeded) :
    statusOf (run (controlStep d.llm) s es) id = some .succeeded := by
  have ht (now : Time) (_ : .reap now ∈ es) (st : NodeCommandStatus) (hi : st.isInflight)
      (hst : st = .succeeded) : NodeCommandStatus.timedOut = .succeeded := by
    subst hst
    cases hi
  obtain ⟨st, hst, rfl⟩ := statusOf_run (Q := fun st => st = .succeeded) hk hX
    (fun h => nomatch h) ht (fun e he st hst => by simp [hw e he] at hst) hs rfl
  exact hst

theorem SameAgent.ran {sys' : Sys} (h : SameAgent sys sys') (x : Uuid) :
    sys'.ran x = sys.ran x := by
  simp only [Sys.ran, h.executed]

theorem Consistent.sameAgent {sys' : Sys} (h : Consistent (fun _ => True) sys)
    (ha : SameAgent sys sys')
    (hr : ∀ x, sys.ran x → ∀ frame, lastFrame sys.log x = some frame → frame ∈ sys'.processed →
      statusOf sys'.store x = some .succeeded) : Consistent (fun _ => True) sys' := by
  refine ⟨?_, ?_, ?_, ?_⟩
  · simp only [ha.ran, ha.agent]
    exact h.cached
  · simp only [ha.ran, ha.busy]
    exact h.idle
  · simp only [ha.ran, ha.log]
    exact h.last
  · simp only [ha.ran, ha.log]
    exact fun x _ hx => hr x hx

/-- Calls that name no command of the node. -/
theorem Consistent.calls {sys' : Sys} (es : List ControlEvent) (hw : WellFormed d sys)
    (h : Consistent (fun _ => True) sys) (ha : SameAgent sys sys')
    (ht : ∀ x, ∀ e ∈ es, written d.nodeId x e = none)
    (hs : sys'.store = run (controlStep d.llm) sys.store es) (hp : sys'.processed = sys.processed) :
    Consistent (fun _ => True) sys' := by
  refine h.sameAgent ha fun x hx frame hf hm => ?_
  rw [hs]
  rw [hp] at hm
  exact succeeded_run hw.keyed (hosts_of_ran hw hx) (ht x) (h.recorded x trivial hx frame hf hm)

/-- The turn for a frame that reports a success records it. -/
theorem succeeded_turn {sessionId x : Uuid} {host : Option String} (hw : WellFormed d sys)
    (hr : sys.ran x) (hx : frame.body.commandId? = some x) (hs : frame.isSuccess) :
    statusOf (run (controlStep d.llm) sys.store (d.turnCalls now sessionId host frame ++
      [.listForDispatch now d.nodeId dispatchLimit])) x = some .succeeded := by
  obtain ⟨seq, body⟩ := frame
  cases body with
  | commandResult id payload =>
    cases hx
    obtain ⟨hp, hfits⟩ := Bool.and_eq_true_iff.1 hs
    have hg : Grows sys.store (run (controlStep d.llm) sys.store [.streamOffset sessionId seq]) :=
      grows_run hw.keyed
    have hX := hosts_of_ran hw hr
    have hres := statusOf_result d.llm now (hX.grows hg) hfits
    rw [if_pos hp] at hres
    rw [run_append]
    refine succeeded_run (run_controlStep_keyed hw.keyed) (hX.grows (grows_run hw.keyed)) ?_ hres
    intro e he
    rw [List.mem_singleton.1 he]
    rfl
  | _ => cases hs

/-- A turn of the receive loop. When the frame is about an executed command and reports no success,
the guard says that the last frame about it is still to come. -/
theorem Consistent.onReceive {sessionId : Uuid} {host : Option String} (hw : WellFormed d sys)
    (h : Consistent (fun _ => True) sys)
    (hg : ∀ x, frame.body.commandId? = some x → sys.ran x →
      frame.isSuccess ∨ ∀ last, lastFrame sys.log x = some last → last ∉ sys.processed) :
    Consistent (fun _ => True) (d.onReceive now sessionId host frame sys) := by
  have ha : SameAgent sys (d.onReceive now sessionId host frame sys) := onReceive_sameAgent
  have hr : Received d now sessionId host frame sys (d.onReceive now sessionId host frame sys) :=
    onReceive_received
  generalize d.onReceive now sessionId host frame sys = sys' at ha hr ⊢
  cases hr with
  | dropped hs hp => exact h.calls [] hw ha (fun _ _ he => nomatch he) hs hp
  | closed hs hp =>
    refine h.calls [.closeSession sessionId] hw ha ?_ hs hp
    intro x e he
    rw [List.mem_singleton.1 he]
    rfl
  | handled hs hp =>
    refine h.sameAgent ha fun x hx last hl hm => ?_
    rw [hs]
    rw [hp] at hm
    by_cases habout : frame.body.commandId? = some x
    · apply succeeded_turn hw hx habout
      rcases hg x habout hx with hsucc | hnot
      · exact hsucc
      · -- the frame at hand is the last one, and that one reports a success
        obtain ⟨last', hl', hsucc⟩ := h.last x trivial hx
        rw [hl] at hl'
        cases hl'
        rcases List.mem_append.1 hm with hm | hm
        · exact absurd hm (hnot last hl)
        · rw [← List.mem_singleton.1 hm]
          exact hsucc
    · have hm : last ∈ sys.processed := by
        rcases List.mem_append.1 hm with hm | hm
        · exact hm
        · have := (mem_of_lastFrame hl).2
          rw [List.mem_singleton.1 hm] at this
          exact absurd (of_decide_eq_true this) habout
      refine succeeded_run hw.keyed (hosts_of_ran hw hx) ?_ (h.recorded x trivial hx last hl hm)
      intro e he
      refine Option.eq_none_iff_forall_ne_some.2 fun st hst => habout ?_
      exact (written_turn he hst).commandId

/-- Every event that meets the guard keeps the system consistent. -/
theorem Consistent.step {e : SysEvent} (hw : WellFormed d sys) (h : Consistent (fun _ => True) sys)
    (hg : keepsAgreement sys e) : Consistent (fun _ => True) (d.step sys e) := by
  cases e with
  | control e =>
    simp only [Deployment.step]
    split
    next ho =>
      refine h.calls [e] hw ⟨rfl, rfl, rfl, rfl⟩ ?_ rfl rfl
      intro x e' he
      rw [List.mem_singleton.1 he]
      exact written_of_isOutside ho x
    next => exact h
  | connect now sessionId =>
    simp only [Deployment.step]
    split
    next =>
      refine h.calls [.openSession sessionId d.nodeId, .listDispatchable now d.nodeId dispatchLimit]
        hw ⟨rfl, rfl, rfl, rfl⟩ ?_ rfl rfl
      simp [written]
    next => exact h
  | take now =>
    simp only [Deployment.step]
    split
    next item hi =>
      refine h.onTake hw fun hr => ?_
      simpa [keepsAgreement, hi, hr] using hg
    next => exact h
  | progress message =>
    simp only [Deployment.step]
    split
    next item hi =>
      apply h.send_of_ne
      rintro x - hr ⟨⟩
      rw [h.idle item hi] at hr
      cases hr
    next => exact h
  | finish outcome =>
    simp only [Deployment.step]
    split
    next item hi => exact h.onFinish hw hi
    next => exact h
  | heartbeat | report =>
    simp only [Deployment.step]
    split
    · exact h.send_of_ne fun _ _ _ hb => by cases hb
    · exact h
  | disconnect =>
    simp only [Deployment.step]
    split
    next => exact ⟨h.cached, fun _ hb => (by cases hb), h.last, h.recorded⟩
    next => exact h
  | receive now sessionId host =>
    simp only [Deployment.step]
    split
    next frame hf =>
      refine h.onReceive hw fun x hx hr => ?_
      simpa [keepsAgreement, hf, hx, hr, Option.all_eq_true] using hg
    next => exact h
  | close sessionId =>
    simp only [Deployment.step]
    split
    next =>
      refine h.calls [.closeSession sessionId] hw ⟨rfl, rfl, rfl, rfl⟩ ?_ rfl rfl
      simp [written]
    next => exact h

end

/-- From any database and a fresh agent, both programs agree in every state of a run whose events
meet the guard. -/
theorem agrees_of_keepsAgreement {s : Store} {es : List SysEvent} (hk : s.Keyed)
    (hg : Guarded d.step (fun sys e => keepsAgreement sys e) (.start s) es) :
    Always d.step Agrees (.start s) es := by
  refine hg.always (I := fun sys => WellFormed d sys ∧ Consistent (fun _ => True) sys) ?_ ?_ ?_
  · exact fun sys e h hok => ⟨h.1.step, h.2.step h.1 hok⟩
  · exact fun sys h => h.2.agrees
  · exact ⟨wellFormed_start hk, consistent_start⟩

def issueDeploy : SysEvent :=
  .control (.issue ⟨0, 1, 2⟩ ⟨7, .deployWorkload, ⟨.missing, true, []⟩, none, none, none, some "d"⟩)

/-- A deploy is sent twice, because an inventory frame is processed before its acknowledgement, and
takes 398 seconds. -/
def slowDeploy : List SysEvent :=
  [issueDeploy, .connect (seconds 1) 20, .report, .receive (seconds 2) 20 none, .take (seconds 2),
    .receive (seconds 3) 20 none, .receive (seconds 3) 20 none, .finish (.success .empty),
    .receive (seconds 400) 20 none]

/-- The same deploy with nothing sent twice. -/
theorem agrees_deploy : Agrees (run plainNode.step (.start (.oneNode 7))
    ([issueDeploy, .connect (seconds 1) 20, .take (seconds 2), .finish (.success .empty)] ++
      [.receive (seconds 3) 20 none, .receive (seconds 3) 20 none, .receive (seconds 400) 20 none])) :=
  agrees_of_keepsAgreement keyed_oneNode (by decide) _ List.prefix_rfl

/-- The second copy is older than five minutes when the agent comes to it: it is rejected, and the
rejection is recorded as the outcome of the command that was executed. -/
theorem not_agrees_expired_copy : ¬ Agrees (run plainNode.step (.start (.oneNode 7))
    (slowDeploy ++ [.take (seconds 401), .receive (seconds 402) 20 none])) := by
  intro h
  have hs := h 1 (by decide) (by decide)
  exact absurd hs (by decide)

end LlmPort.NodeStream
