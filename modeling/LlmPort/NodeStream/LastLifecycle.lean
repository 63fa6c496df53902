import LlmPort.NodeStream.WellFormed

/-!
# The last lifecycle request

The requests on a runtime are answered with commands, and the agent executes these one by one. Once
the backend has the outcome of the command the last request was answered with, that command should
be the last one the agent executed, and should be what the request asked for. A request that is
answered with an older command in flight breaks this, and so does an older command that is executed
late.
-/

namespace LlmPort.NodeStream

open Transition Backend Backend.NodeControl NodeControlService Store Backend.Llm LLMService NodeAgent

namespace Sys

/-- The answered requests on a runtime. -/
def answersFor (sys : Sys) (runtimeId : Uuid) : List Answer :=
  sys.answered.filter (·.runtimeId = runtimeId)

def lastAnswer (sys : Sys) (runtimeId : Uuid) : Option Answer := (sys.answersFor runtimeId).getLast?

/-- The command is one that a request on the runtime was answered with. -/
def isAnswer (sys : Sys) (runtimeId id : Uuid) : Bool :=
  (sys.answersFor runtimeId).any (·.commandId = id)

def hasExecuted (sys : Sys) (id : Uuid) : Bool := sys.executed.any (·.1.command.id = id)

/-- The lifecycle commands of a runtime that the agent executed. -/
def lifecycleRuns (sys : Sys) (runtimeId : Uuid) : List DispatchItem :=
  (sys.executed.map (·.1)).filter fun item => sys.isAnswer runtimeId item.command.id

end Sys

/-- Once the command of the last request has an outcome, it is the last one executed, and what the
request asked for. -/
def LastRequestWins (runtimeId : Uuid) (sys : Sys) : Prop :=
  ∀ a, sys.lastAnswer runtimeId = some a →
    ∀ st, statusOf sys.store a.commandId = some st → st.isTerminal →
      ∃ item, (sys.lifecycleRuns runtimeId).getLast? = some item ∧
        item.command.id = a.commandId ∧ item.command.commandType = a.commandType ∧
        item.command.payloadJson = a.payload

/-- The command of the last request is still to be executed. -/
def Sys.awaits (sys : Sys) (runtimeId : Uuid) (id : Uuid) : Bool :=
  (sys.lastAnswer runtimeId).any (·.commandId = id) && !sys.hasExecuted id

/-- A request is sent to the node, and answered with a new command or, when it asks for the same as
the last one, with the same; the command of the last request is neither rejected by the agent nor
reaped before it is executed; no older one is executed after it. -/
def keepsOrder (d : Deployment) (runtimeId : Uuid) (sys : Sys) : SysEvent → Bool
  | .control e =>
    ((d.answers sys.store e).all fun a => a.runtimeId ≠ runtimeId ∨
      a.nodeId = d.nodeId ∧ (statusOf sys.store a.commandId = none ∨ sys.lastAnswer runtimeId = some a)) &&
    match e with
    | .reap now => (staleRows d.llm.nodeControl now sys.store).all fun c => !sys.awaits runtimeId c.id
    | _ => true
  | .take now => sys.nextItem.all fun item =>
    !sys.awaits runtimeId item.command.id || isFresh now item &&
      (PolicyGuard.validate (d.cfg.wireType item.command.commandType) sys.agent).isNone
  | .finish _ => sys.busy.all fun item =>
    !sys.isAnswer runtimeId item.command.id ||
      (sys.lastAnswer runtimeId).all fun a => a.commandId = item.command.id ∨
        !sys.hasExecuted a.commandId
  | _ => true

/-- What the guard preserves about the answer `a` to the last request. -/
structure Tracks (d : Deployment) (runtimeId : Uuid) (sys : Sys) (a : Answer) : Prop where
  row : ∃ c, sys.store.getCommand a.commandId = some c ∧ c.nodeId = d.nodeId ∧
    c.commandType = a.commandType ∧ c.payloadJson = a.payload
  runs : sys.hasExecuted a.commandId →
    ∃ item, (sys.lifecycleRuns runtimeId).getLast? = some item ∧ item.command.id = a.commandId
  reported : ∀ frame ∈ sys.log, ∀ payload, frame.body = .commandResult a.commandId payload →
    sys.hasExecuted a.commandId
  cached : ∀ x ∈ sys.agent.completedCommands, x.1 = a.commandId → sys.hasExecuted a.commandId
  terminal : ∀ st, statusOf sys.store a.commandId = some st → st.isTerminal →
    sys.hasExecuted a.commandId

variable {d : Deployment} {runtimeId : Uuid} {sys sys' : Sys} {a : Answer} {s s' : Store}

theorem Tracks.hosts (h : Tracks d runtimeId sys a) : Hosts d.nodeId sys.store a.commandId := by
  obtain ⟨c, hc, hn, -⟩ := h.row
  exact ⟨c, hc, hn⟩

/-- The executed copy has the type and the payload of its row, and these are what was asked for. -/
theorem lastRequestWins_of_tracks (hw : WellFormed d sys)
    (h : ∀ a, sys.lastAnswer runtimeId = some a → Tracks d runtimeId sys a) :
    LastRequestWins runtimeId sys := by
  intro a ha st hs ht
  have htracks := h a ha
  obtain ⟨item, hlast, hid⟩ := htracks.runs (htracks.terminal st hs ht)
  obtain ⟨c, hc, -, htype, hpayload⟩ := htracks.row
  have hmem : item ∈ sys.executed.map (·.1) := List.mem_of_mem_filter (List.mem_of_getLast? hlast)
  obtain ⟨x, hx, rfl⟩ := List.mem_map.1 hmem
  obtain ⟨c', hc', hspec, -⟩ := hw.executed x hx
  rw [hid, hc] at hc'
  cases hc'
  have ht' : c.commandType = x.1.command.commandType := congrArg CommandSpec.commandType hspec
  have hp' : c.payloadJson = x.1.command.payloadJson := congrArg CommandSpec.payloadJson hspec
  exact ⟨x.1, hlast, hid, ht'.symm.trans htype, hp'.symm.trans hpayload⟩

theorem isAnswer_of_lastAnswer (h : sys.lastAnswer runtimeId = some a) :
    sys.isAnswer runtimeId a.commandId :=
  List.any_eq_true.2 ⟨a, List.mem_of_getLast? h, by simp⟩

theorem lastAnswer_congr (h : sys'.answered = sys.answered) :
    sys'.lastAnswer runtimeId = sys.lastAnswer runtimeId := by
  simp only [Sys.lastAnswer, Sys.answersFor, h]

theorem isAnswer_congr (h : sys'.answered = sys.answered) (id : Uuid) :
    sys'.isAnswer runtimeId id = sys.isAnswer runtimeId id := by
  simp only [Sys.isAnswer, Sys.answersFor, h]

/-- An answer is what a request's issued command says. -/
theorem mem_answers {e : ControlEvent} (h : a ∈ d.answers s e) :
    ∃ draw req, ∃ hi : Issued d.llm draw req s (controlStep d.llm s e), e = .lifecycle draw req ∧
      d.answers s e = [a] ∧
      a = ⟨req.runtimeId, hi.nodeId, req.action.commandType, hi.payload, hi.command.id⟩ := by
  cases e with
  | lifecycle draw req =>
    simp only [Deployment.answers] at h
    split at h
    next s' nodeId payload hh hn hp =>
      have hs : controlStep d.llm s (.lifecycle draw req) = s' := by
        simp only [controlStep, hh, committed]
      rcases handle_cases hh with ⟨⟨hi⟩⟩ | ⟨hnone, -⟩
      · rw [hs]
        refine ⟨draw, req, hi, rfl, ?_⟩
        have hview := hi.view req.runtimeId
        simp only [if_true] at hview
        cases hv : runtimeView s req.runtimeId with
        | none => simp [hview, hv] at h
        | some v =>
          have hnode : nodeId = hi.nodeId := Option.some.inj (hn.symm.trans hi.node_eq)
          have hpay : payload = hi.payload := Option.some.inj (hp.symm.trans hi.payload_eq)
          simp only [hview, hv, Option.map_some, Option.bind_some, Option.toList_some, List.map_cons,
            List.map_nil, List.mem_singleton] at h
          simp only [Deployment.answers, hh, hn, hp, hview, hv, Option.map_some, Option.bind_some,
            Option.toList_some, List.map_cons, List.map_nil]
          rw [h, hnode, hpay]
          exact ⟨rfl, rfl⟩
      · rw [hn] at hnone
        cases hnone
    next => cases h
  | _ => cases h

/-- Changing what the facts about the answer do not look at. -/
theorem Tracks.congr (h : Tracks d runtimeId sys a) (hagent : sys'.agent = sys.agent)
    (hlog : sys'.log = sys.log) (hexec : sys'.executed = sys.executed)
    (hans : ∀ id, sys'.isAnswer runtimeId id = sys.isAnswer runtimeId id)
    (hg : Grows sys.store sys'.store)
    (hterm : ∀ st, statusOf sys'.store a.commandId = some st → st.isTerminal →
      sys.hasExecuted a.commandId) : Tracks d runtimeId sys' a := by
  have hex (id : Uuid) : sys'.hasExecuted id = sys.hasExecuted id := by
    simp only [Sys.hasExecuted, hexec]
  refine ⟨?_, ?_, ?_, ?_, ?_⟩
  · obtain ⟨c, hc, hn, ht, hp⟩ := h.row
    obtain ⟨c', hc', hs⟩ := hg _ c hc
    exact ⟨c', hc', (congrArg CommandSpec.nodeId hs).trans hn,
      (congrArg CommandSpec.commandType hs).trans ht, (congrArg CommandSpec.payloadJson hs).trans hp⟩
  · simp only [hex, Sys.lifecycleRuns, hexec, hans]
    exact h.runs
  · simp only [hex, hlog]
    exact h.reported
  · simp only [hex, hagent]
    exact h.cached
  · simp only [hex]
    exact hterm

/-- While the command is not executed, calls that do not reap and write no terminal status on it
leave it without an outcome. -/
theorem Tracks.terminal_run (es : List ControlEvent) (hw : WellFormed d sys)
    (h : Tracks d runtimeId sys a) (hreap : ∀ now, .reap now ∉ es)
    (hwr : ∀ e ∈ es, ∀ st, written d.nodeId a.commandId e = some st → st.isTerminal →
      sys.hasExecuted a.commandId) :
    ∀ st, statusOf (run (controlStep d.llm) sys.store es) a.commandId = some st → st.isTerminal →
      sys.hasExecuted a.commandId := by
  intro st hst ht
  by_contra hex
  obtain ⟨c, hc, hn, -⟩ := h.row
  have hs : statusOf sys.store a.commandId = some c.status := by rw [statusOf, hc, Option.map_some]
  have hopen : c.status.isTerminal = false := by
    cases ht' : c.status.isTerminal with
    | true => exact absurd (h.terminal _ hs ht') hex
    | false => rfl
  have hwr' (e : ControlEvent) (he : e ∈ es) (st : NodeCommandStatus)
      (hst : written d.nodeId a.commandId e = some st) : st.isTerminal = false := by
    cases ht' : st.isTerminal with
    | true => exact absurd (hwr e he st hst ht') hex
    | false => rfl
  obtain ⟨st', hst', hopen'⟩ := statusOf_run (Q := fun st => st.isTerminal = false) hw.keyed h.hosts
    (fun _ => rfl) (fun now he => absurd he (hreap now)) hwr' hs hopen
  rw [hst] at hst'
  cases hst'
  rw [ht] at hopen'
  cases hopen'

/-- Calls of the stream that are about no frame. -/
theorem Tracks.calls (es : List ControlEvent) (hw : WellFormed d sys)
    (h : Tracks d runtimeId sys a) (ha : SameAgent sys sys') (hans : sys'.answered = sys.answered)
    (hs : sys'.store = run (controlStep d.llm) sys.store es) (hreap : ∀ now, .reap now ∉ es)
    (hwr : ∀ e ∈ es, written d.nodeId a.commandId e = none) : Tracks d runtimeId sys' a := by
  refine h.congr ha.agent ha.log ha.executed (isAnswer_congr hans) ?_ ?_
  · rw [hs]
    exact grows_run hw.keyed
  · rw [hs]
    refine h.terminal_run es hw hreap fun e he st hst => ?_
    rw [hwr e he] at hst
    cases hst

/-- A frame that is no result of the command, unless it is executed. -/
theorem Tracks.send {body : FrameBody} (h : Tracks d runtimeId sys a)
    (hb : ∀ payload, body = .commandResult a.commandId payload → sys.hasExecuted a.commandId) :
    Tracks d runtimeId (sys.send body) a := by
  refine { h with reported := ?_ }
  intro frame hf payload hbody
  rcases List.mem_append.1 hf with hf | hf
  · exact h.reported frame hf payload hbody
  · rw [List.mem_singleton.1 hf] at hbody
    exact hb payload hbody

section
variable {now : Time} {item : DispatchItem}

theorem Tracks.onTake (h : Tracks d runtimeId sys a)
    (hg : item.command.id = a.commandId → sys.hasExecuted a.commandId = false → isFresh now item ∧
      PolicyGuard.validate (d.cfg.wireType item.command.commandType) sys.agent = none) :
    Tracks d runtimeId (d.onTake now item sys) a := by
  have hh := handleCommand_handled d.cfg now item sys.agent
  unfold Deployment.onTake
  generalize handleCommand d.cfg now item sys.agent = r at hh ⊢
  have hresult {payload payload' : CommandResult}
      (hex : item.command.id = a.commandId → sys.hasExecuted a.commandId)
      (e : FrameBody.commandResult item.command.id payload = .commandResult a.commandId payload') :
      sys.hasExecuted a.commandId := hex (FrameBody.commandResult.inj e).1
  cases hh with
  | expired hexp =>
    have hex (hid : item.command.id = a.commandId) : sys.hasExecuted a.commandId := by
      by_contra hne
      have := (hg hid (by simpa using hne)).1
      rw [hexp] at this
      cases this
    refine Tracks.send ?_ fun payload hbody => hresult hex hbody
    exact { h with }
  | replayed hfresh cached hc ack =>
    have hex (hid : item.command.id = a.commandId) : sys.hasExecuted a.commandId :=
      h.cached _ (AgentState.mem_of_getCommandResult hc) hid
    refine Tracks.send (Tracks.send ?_ fun payload hbody => nomatch hbody)
      fun payload hbody => hresult hex hbody
    refine { h with cached := ?_ }
    intro x hx hid
    obtain ⟨r, hx, -⟩ := AgentState.mem_markReplayed hx
    exact h.cached (x.1, r) hx hid
  | blocked hfresh hc message hv ack =>
    have hex (hid : item.command.id = a.commandId) : sys.hasExecuted a.commandId := by
      by_contra hne
      have := (hg hid (by simpa using hne)).2
      rw [hv] at this
      cases this
    refine Tracks.send (Tracks.send ?_ fun payload hbody => nomatch hbody)
      fun payload hbody => hresult hex hbody
    refine { h with cached := ?_ }
    intro x hx hid
    rcases AgentState.mem_rememberCommandResult hx with rfl | hx
    · exact hex hid
    · exact h.cached x hx.1 hid
  | started hfresh hc hv ack progress =>
    refine Tracks.send (Tracks.send ?_ fun payload hbody => nomatch hbody)
      fun payload hbody => nomatch hbody
    exact { h with }

theorem Tracks.onFinish (h : Tracks d runtimeId sys a) {outcome : ExecOutcome}
    (ha : sys.isAnswer runtimeId a.commandId)
    (hg : sys.isAnswer runtimeId item.command.id → item.command.id ≠ a.commandId →
      sys.hasExecuted a.commandId = false) :
    Tracks d runtimeId (d.onFinish outcome item sys) a := by
  have hh := finishCommand_finished d.cfg item outcome sys.agent
  unfold Deployment.onFinish
  generalize finishCommand d.cfg item outcome sys.agent = r at hh ⊢
  have hex (id : Uuid) : (sys.executed ++ [(item, r.2.success)]).any (·.1.command.id = id) =
      (sys.hasExecuted id || item.command.id = id) := by
    simp [Sys.hasExecuted]
  have hmono (hx : sys.hasExecuted a.commandId) :
      (sys.executed ++ [(item, r.2.success)]).any (·.1.command.id = a.commandId) := by
    rw [hex, hx]
    rfl
  have hself (hid : item.command.id = a.commandId) :
      (sys.executed ++ [(item, r.2.success)]).any (·.1.command.id = a.commandId) := by
    rw [hex]
    simp [hid]
  refine Tracks.send ⟨h.row, ?_, ?_, ?_, ?_⟩ ?_
  · intro hx
    replace hx : (sys.hasExecuted a.commandId || item.command.id = a.commandId) = true :=
      (hex a.commandId).symm.trans hx
    change ∃ item', (((sys.executed ++ [(item, r.2.success)]).map (·.1)).filter fun item =>
      sys.isAnswer runtimeId item.command.id).getLast? = some item' ∧ _
    rw [List.map_append, List.filter_append]
    by_cases hid : item.command.id = a.commandId
    · rw [← hid] at ha
      refine ⟨item, ?_, hid⟩
      simp [ha]
    · have hold : sys.hasExecuted a.commandId := by simpa [hid] using hx
      obtain ⟨item', hlast, hid'⟩ := h.runs hold
      refine ⟨item', ?_, hid'⟩
      cases hia : sys.isAnswer runtimeId item.command.id with
      | true =>
        rw [hg hia hid] at hold
        cases hold
      | false =>
        have hnil : (([(item, r.2.success)].map (·.1)).filter fun item =>
            sys.isAnswer runtimeId item.command.id) = [] := by simp [hia]
        rw [hnil, List.append_nil]
        exact hlast
  · exact fun frame hf payload hbody => hmono (h.reported frame hf payload hbody)
  · intro x hx hid
    rcases hh.cached x hx with rfl | hx
    · exact hself hid
    · exact hmono (h.cached x hx.1 hid)
  · exact fun st hst ht => hmono (h.terminal st hst ht)
  · exact fun payload hbody => hself (FrameBody.commandResult.inj hbody).1

theorem Tracks.onReceive {frame : Frame} {sessionId : Uuid} {host : Option String}
    (hw : WellFormed d sys) (h : Tracks d runtimeId sys a) (hf : frame ∈ sys.log) :
    Tracks d runtimeId (d.onReceive now sessionId host frame sys) a := by
  have ha : SameAgent sys (d.onReceive now sessionId host frame sys) := onReceive_sameAgent
  have hans : (d.onReceive now sessionId host frame sys).answered = sys.answered :=
    onReceive_answered
  have hr : Received d now sessionId host frame sys (d.onReceive now sessionId host frame sys) :=
    onReceive_received
  generalize d.onReceive now sessionId host frame sys = sys' at ha hans hr ⊢
  refine h.congr ha.agent ha.log ha.executed (isAnswer_congr hans) ?_ ?_
  · cases hr with
    | dropped hs => rw [hs]; exact .of_commands rfl
    | closed hs => rw [hs]; exact .of_commands closeStreamSession_commands
    | handled hs => rw [hs]; exact grows_run hw.keyed
  · cases hr with
    | dropped hs =>
      rw [hs]
      exact h.terminal
    | closed hs =>
      rw [hs]
      simp only [statusOf, getCommand_congr closeStreamSession_commands]
      exact h.terminal
    | handled hs =>
      rw [hs]
      refine h.terminal_run _ hw ?_ fun e he st hst ht => ?_
      · rintro now' he
        obtain ⟨seq, body⟩ := frame
        cases body <;> simp [Deployment.turnCalls, frameCalls] at he
      · -- only a result writes a terminal status, and a result of the command means it was executed
        obtain ⟨seq, body⟩ := frame
        cases written_turn he hst with
        | ack | progress => cases ht
        | result payload => exact h.reported _ hf payload rfl

/-- A call that is no lifecycle request on the runtime, or one that is answered as the last one. -/
theorem Tracks.control {e : ControlEvent} (hw : WellFormed d sys) (h : Tracks d runtimeId sys a)
    (ha : sys.lastAnswer runtimeId = some a) (ho : isOutside d.nodeId sys.store e)
    (hans : ∀ b ∈ d.answers sys.store e, b.runtimeId = runtimeId → b = a)
    (hreap : ∀ now, e = .reap now →
      ∀ c ∈ staleRows d.llm.nodeControl now sys.store, sys.awaits runtimeId c.id = false) :
    Tracks d runtimeId { sys with
      store := controlStep d.llm sys.store e
      answered := sys.answered ++ d.answers sys.store e } a := by
  have hg : Grows sys.store (run (controlStep d.llm) sys.store [e]) := grows_run hw.keyed
  refine h.congr rfl rfl rfl ?_ hg ?_
  · intro id
    simp only [Sys.isAnswer, Sys.answersFor, List.filter_append, List.any_append]
    refine Bool.or_eq_left_iff_imp.2 fun hnew => ?_
    obtain ⟨b, hb, hid⟩ := List.any_eq_true.1 hnew
    obtain ⟨hb, hb'⟩ := List.mem_filter.1 hb
    cases hans b hb (of_decide_eq_true hb')
    exact List.any_eq_true.2 ⟨a, List.mem_of_getLast? ha, hid⟩
  · by_cases hr : ∃ now, e = .reap now
    · obtain ⟨now, rfl⟩ := hr
      intro st hst ht
      by_contra hex
      have hrow : a.commandId ∉ (staleRows d.llm.nodeControl now sys.store).map (·.id) := by
        intro hm
        obtain ⟨c, hc, hid⟩ := List.mem_map.1 hm
        have := hreap now rfl c hc
        simp [Sys.awaits, ha, hid, hex] at this
      have hsame : statusOf (controlStep d.llm sys.store (.reap now)) a.commandId =
          statusOf sys.store a.commandId := by
        simp only [statusOf, controlStep, getCommand_reapStaleCommands hw.keyed hrow]
      exact hex (h.terminal st (hsame.symm.trans hst) ht)
    · refine h.terminal_run [e] hw ?_ ?_
      · intro now he
        exact hr ⟨now, (List.mem_singleton.1 he).symm⟩
      · intro e' he st hst
        rw [List.mem_singleton.1 he, written_of_isOutside ho] at hst
        cases hst

/-- The answer with a new command: nothing is known of it yet. -/
theorem tracks_fresh {e : ControlEvent} (hw : WellFormed d sys) (ha : a ∈ d.answers sys.store e)
    (hn : a.nodeId = d.nodeId) (hf : statusOf sys.store a.commandId = none) :
    Tracks d runtimeId { sys with
      store := controlStep d.llm sys.store e
      answered := sys.answered ++ d.answers sys.store e } a := by
  obtain ⟨draw, req, hi, rfl, -, rfl⟩ := mem_answers ha
  obtain ⟨c, hc, hnode, htype, hpayload, hq⟩ := hi.fresh_row hf
  have hnone {id : Uuid} (hX : Hosts d.nodeId sys.store id) : id ≠ hi.command.id := by
    rintro rfl
    obtain ⟨c', hc', -⟩ := hX
    rw [statusOf, hc'] at hf
    cases hf
  have hex : ¬ sys.hasExecuted hi.command.id := by
    intro h
    obtain ⟨x, hx, hid⟩ := List.any_eq_true.1 h
    exact hnone (hosts_of_copies (hw.executed x hx) rfl) (of_decide_eq_true hid)
  refine ⟨⟨c, hc, hnode.trans hn, htype, hpayload⟩, fun h => absurd h hex, ?_, ?_, ?_⟩
  · intro frame hfr payload hbody
    exact absurd rfl (hnone (hw.log frame hfr _ (by rw [hbody]; rfl)))
  · exact fun x hx hid => absurd hid (hnone (hw.cached x hx))
  · intro st hst ht
    rw [statusOf, hc] at hst
    cases hst
    replace ht : c.status.isTerminal := ht
    rw [hq] at ht
    cases ht

end

theorem lastAnswer_append {l : List Answer} (store : Store) :
    Sys.lastAnswer { sys with store, answered := sys.answered ++ l } runtimeId =
      ((l.filter (·.runtimeId = runtimeId)).getLast? <|> sys.lastAnswer runtimeId) := by
  simp [Sys.lastAnswer, Sys.answersFor, List.getLast?_append]

/-- What the guard preserves: the facts about the answer to the last request. -/
def TracksLast (d : Deployment) (runtimeId : Uuid) (sys : Sys) : Prop :=
  ∀ a, sys.lastAnswer runtimeId = some a → Tracks d runtimeId sys a

theorem TracksLast.control {e : ControlEvent} (hw : WellFormed d sys)
    (h : TracksLast d runtimeId sys)
    (ho : isOutside d.nodeId sys.store e) (hg : keepsOrder d runtimeId sys (.control e)) :
    TracksLast d runtimeId { sys with
      store := controlStep d.llm sys.store e
      answered := sys.answered ++ d.answers sys.store e } := by
  intro a ha
  obtain ⟨hans, hreap⟩ := Bool.and_eq_true_iff.1 hg
  have hreap' (now : Time) (he : e = .reap now) (c : InfraNodeCommand)
      (hc : c ∈ staleRows d.llm.nodeControl now sys.store) : sys.awaits runtimeId c.id = false := by
    subst he
    simpa using List.all_eq_true.1 hreap c hc
  rw [lastAnswer_append] at ha
  cases hl : (d.answers sys.store e).filter (·.runtimeId = runtimeId) with
  | nil =>
    rw [hl] at ha
    refine (h a ha).control hw ha ho (fun b hb hid => ?_) hreap'
    have hb' : b ∈ (d.answers sys.store e).filter (·.runtimeId = runtimeId) :=
      List.mem_filter.2 ⟨hb, decide_eq_true hid⟩
    rw [hl] at hb'
    cases hb'
  | cons b rest =>
    have hmem : b ∈ (d.answers sys.store e).filter (·.runtimeId = runtimeId) :=
      hl ▸ List.mem_cons_self
    obtain ⟨hb, hid⟩ := List.mem_filter.1 hmem
    obtain ⟨_, _, _, _, hone, _⟩ := mem_answers hb
    have hb' := List.all_eq_true.1 hans b hb
    simp only [decide_eq_true_eq] at hid hb'
    obtain rfl : b = a := by simpa [hone, hid] using ha
    obtain ⟨hn, hold | hold⟩ := hb'.resolve_left fun hne => hne hid
    · exact tracks_fresh hw hb hn hold
    · refine (h b hold).control hw hold ho (fun b' hb' _ => ?_) hreap'
      rw [hone] at hb'
      exact List.mem_singleton.1 hb'

/-- Every event that meets the guard keeps track of the last request. -/
theorem TracksLast.step {e : SysEvent} (hw : WellFormed d sys) (h : TracksLast d runtimeId sys)
    (hg : keepsOrder d runtimeId sys e) : TracksLast d runtimeId (d.step sys e) := by
  cases e with
  | control e =>
    simp only [Deployment.step]
    split
    next ho => exact h.control hw ho hg
    next => exact h
  | connect now sessionId =>
    simp only [Deployment.step]
    split
    next =>
      intro a ha
      refine (h a ha).calls
        [.openSession sessionId d.nodeId, .listDispatchable now d.nodeId dispatchLimit] hw
        ⟨rfl, rfl, rfl, rfl⟩ rfl rfl ?_ ?_
      · simp
      · simp [written]
    next => exact h
  | take now =>
    simp only [Deployment.step]
    split
    next item hi =>
      intro a ha
      rw [lastAnswer_congr onTake_answered] at ha
      refine (h a ha).onTake fun hid hex => ?_
      simpa [keepsOrder, hi, Sys.awaits, ha, hid, hex] using hg
    next => exact h
  | progress message =>
    simp only [Deployment.step]
    split
    next item hi => exact fun a ha => (h a ha).send fun _ hb => by cases hb
    next => exact h
  | finish outcome =>
    simp only [Deployment.step]
    split
    next item hi =>
      intro a ha
      replace ha : sys.lastAnswer runtimeId = some a := ha
      refine (h a ha).onFinish (isAnswer_of_lastAnswer ha) fun hia hne => ?_
      simpa [keepsOrder, hi, hia, ha, Ne.symm hne] using hg
    next => exact h
  | heartbeat | report =>
    simp only [Deployment.step]
    split
    · exact fun a ha => (h a ha).send fun _ hb => by cases hb
    · exact h
  | disconnect =>
    simp only [Deployment.step]
    split
    next => exact fun a ha => { h a ha with }
    next => exact h
  | receive now sessionId host =>
    simp only [Deployment.step]
    split
    next frame hf =>
      intro a ha
      rw [lastAnswer_congr onReceive_answered] at ha
      exact (h a ha).onReceive hw (hw.nextFrame hf)
    next => exact h
  | close sessionId =>
    simp only [Deployment.step]
    split
    next =>
      intro a ha
      refine (h a ha).calls [.closeSession sessionId] hw ⟨rfl, rfl, rfl, rfl⟩ rfl rfl ?_ ?_
      · simp
      · simp [written]
    next => exact h

/-- A start and a stop of runtime 9 on node 7, as commands 1 and 2. -/
def startAndStop : List SysEvent :=
  [.control (.lifecycle ⟨0, 1, 101⟩ (.start 9)), .control (.lifecycle ⟨seconds 1, 2, 102⟩ (.stop 9))]

/-- The agent executes both commands, and the backend processes its frames. -/
def executeBoth : List SysEvent :=
  [.connect (seconds 3) 20, .take (seconds 4), .finish (.success .empty), .take (seconds 5),
    .finish (.success .empty)] ++ List.replicate 6 (.receive (seconds 6) 20 none)

end LlmPort.NodeStream
