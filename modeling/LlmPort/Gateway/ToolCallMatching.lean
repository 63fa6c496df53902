import LlmPort.Gateway.ClientBroker
import LlmPort.Transition.Run

/-!
# Runs of the client tool broker

Brokered calls, websocket handlers and client messages, in any order of their turns between awaits.
Where a result came from is recorded with it: a client's message answers some call, whatever call id
it carries.
-/

namespace LlmPort.Gateway

open Transition

inductive ResultOrigin where
  /-- A client's message, which answers the `n`th call, or none. -/
  | client (answers : Option Nat)
  | disconnect
  | timeout
  | noClient
  deriving DecidableEq

inductive FutureState where
  | pending
  | result (origin : ResultOrigin) (r : ToolCallResult)
  | cancelled

inductive CallPhase where
  /-- `send_json` is awaited. -/
  | sending
  | waiting
  | returned (origin : ResultOrigin) (r : ToolCallResult)
  | raised

def CallPhase.isOver : CallPhase → Bool
  | sending | waiting => false
  | returned _ _ | raised => true

/-- A number of seconds as `str` shows it, and in milliseconds. -/
structure BrokerTimeout where
  text : String
  ms : Int

/-- One run of `broker_tool_call`; `session` is the number of the client session it chose. -/
structure BrokerCall where
  callId : String
  toolId : String
  timeout : BrokerTimeout
  session : Option Nat
  future : FutureState
  phase : CallPhase

/-- `if not future.done(): future.set_result(r)` -/
def BrokerCall.resolve (call : BrokerCall) (origin : ResultOrigin) (r : ToolCallResult) :
    BrokerCall :=
  match call.future with
  | .pending => { call with future := .result origin r }
  | _ => call

/-- One run of `handle_client_websocket`. -/
structure WsHandler where
  running : Bool
  /-- `cs` -/
  cs : Option Nat
  /-- The session a `session_init` registered, while its `session_ack` is sent. -/
  acking : Option Nat

structure BrokerSys where
  sessions : List ClientSession
  connections : ClientConnections
  handlers : List WsHandler
  calls : List BrokerCall

inductive BrokerEvent where
  | accept
  | sessionInit (w : Nat) (sessionId : GatewaySessionId) (clientId : String)
  /-- A `session_init` without the two ids, for which `_handle_session_init` returns `None`. -/
  | invalidInit (w : Nat)
  | sessionAck (w : Nat) (sent : Bool)
  /-- A message about a tool call, and the call it answers. -/
  | message (w : Nat) (answers : Option Nat) (callId : String) (msg : ToolCallMessage) (now : Int)
  /-- The loop of the handler ends: up to the first await of its `finally`. -/
  | close (w : Nat)
  /-- The end of the `finally`. -/
  | unregister (w : Nat)
  | broker (sessionId : GatewaySessionId) (callId toolId : String) (timeout : BrokerTimeout) (now : Int)
  /-- The `send_json` of the `n`th call ends. -/
  | sent (n : Nat) (ok : Bool)
  /-- The `n`th call has a turn after its future was set. -/
  | wake (n : Nat)
  | timeout (n : Nat)

namespace BrokerSys

def fresh : BrokerSys := ⟨[], [], [], []⟩

/-- The handler, while its loop runs and waits for a message. -/
def listening (sys : BrokerSys) (w : Nat) : Option WsHandler :=
  sys.handlers[w]?.filter fun h => h.running && h.acking.isNone

/-- The client's message can carry the call id: it is that of the call it answers, or no call has
it. -/
def canCarry (sys : BrokerSys) (answers : Option Nat) (callId : String) : Bool :=
  match answers with
  | some n => sys.calls[n]?.any (·.callId = callId)
  | none => sys.calls.all (·.callId ≠ callId)

def resolve (sys : BrokerSys) (n : Nat) (origin : ResultOrigin) (r : ToolCallResult) : BrokerSys :=
  { sys with calls := sys.calls.modify n (·.resolve origin r) }

def setPhase (sys : BrokerSys) (n : Nat) (phase : CallPhase) : BrokerSys :=
  { sys with calls := sys.calls.modify n ({ · with phase }) }

def disconnectResult (pending : PendingToolCall) : ToolCallResult :=
  .brokered pending.callId pending.toolId "Client disconnected before tool call completed." true 0

/-- The part of the `finally` before its first await. -/
def closeHandler (sys : BrokerSys) (w : Nat) (h : WsHandler) : BrokerSys :=
  let sys := { sys with handlers := sys.handlers.set w { h with running := false, acking := none } }
  match h.cs with
  | none => sys
  | some c => match sys.sessions[c]? with
    | none => sys
    | some cs => cs.pendingCalls.foldl
      (fun sys pending => sys.resolve pending.future .disconnect (disconnectResult pending))
      { sys with sessions := sys.sessions.set c { cs with connected := false } }

/-- The pending call a message resolves, and its result. -/
def delivery (sys : BrokerSys) (w : Nat) (callId : String) :
    Option (Nat × PendingToolCall) := do
  let h ← sys.listening w
  let c ← h.cs
  let cs ← sys.sessions[c]?
  let pending ← cs.getPending callId
  pure (c, pending)

/-- The client session a broker call chooses. -/
def chosen (sys : BrokerSys) (sessionId : GatewaySessionId) : Option (Nat × ClientSession) := do
  let c ← sys.connections.getAnyForSession sys.sessions sessionId
  let cs ← sys.sessions[c]?
  pure (c, cs)

/-- The call is in `send_json`. -/
def isSending (sys : BrokerSys) (n : Nat) : Bool :=
  sys.calls[n]?.any fun call => match call.phase with
    | .sending => true
    | _ => false

/-- The call, while it is in `asyncio.wait_for`. -/
def awaiting (sys : BrokerSys) (n : Nat) : Option BrokerCall :=
  sys.calls[n]?.filter fun call => match call.phase with
    | .waiting => true
    | _ => false

def step (sys : BrokerSys) : BrokerEvent → BrokerSys
  | .accept => { sys with handlers := sys.handlers ++ [⟨true, none, none⟩] }
  | .sessionInit w sessionId clientId => match sys.listening w with
    | none => sys
    | some h =>
      let c := sys.sessions.length
      { sys with
        sessions := sys.sessions ++ [⟨sessionId, clientId, [], true⟩]
        connections := sys.connections.register (sessionId, clientId) c
        handlers := sys.handlers.set w { h with acking := some c } }
  | .invalidInit w => match sys.listening w with
    | none => sys
    | some h => { sys with handlers := sys.handlers.set w { h with cs := none } }
  | .sessionAck w sent => match sys.handlers[w]?.filter (·.acking.isSome) with
    | none => sys
    | some h =>
      if sent then { sys with handlers := sys.handlers.set w { h with cs := h.acking, acking := none } }
      else sys.closeHandler w h
  | .message w answers callId msg now =>
    if sys.canCarry answers callId then
      match sys.delivery w callId with
      | none => sys
      | some (c, pending) =>
        let sys := { sys with sessions := sys.sessions.modify c (·.popPending callId) }
        match msg.outcome with
        | some (content, isError) =>
          sys.resolve pending.future (.client answers)
            (.brokered callId pending.toolId content isError (now - pending.createdAt))
        | none => match sys.handlers[w]? with
          | some h => sys.closeHandler w h
          | none => sys
    else sys
  | .close w => match sys.listening w with
    | none => sys
    | some h => sys.closeHandler w h
  | .unregister w => match sys.handlers[w]?.filter (!·.running) with
    | none => sys
    | some h => match h.cs.bind (sys.sessions[·]?) with
      | none => sys
      | some cs =>
        { sys with
          connections := sys.connections.unregister (cs.sessionId, cs.clientId)
          handlers := sys.handlers.set w { h with cs := none } }
  | .broker sessionId callId toolId timeout now =>
    match sys.chosen sessionId with
    | none =>
      let r := .brokered callId toolId "No client connected for this session." true 0
      { sys with
        calls := sys.calls ++ [⟨callId, toolId, timeout, none, .pending, .returned .noClient r⟩] }
    | some (c, cs) =>
      { sys with
        calls := sys.calls ++ [⟨callId, toolId, timeout, some c, .pending, .sending⟩]
        sessions := sys.sessions.set c (cs.setPending ⟨callId, toolId, sys.calls.length, now⟩) }
  | .sent n ok =>
    if sys.isSending n then
      -- a `send_json` that raises does so before the `try`
      sys.setPhase n (if ok then .waiting else .raised)
    else sys
  | .wake n => match sys.awaiting n with
    | some call => match call.future with
      | .result origin r => sys.setPhase n (.returned origin r)
      | _ => sys
    | none => sys
  | .timeout n => match sys.awaiting n with
    | some call =>
      let r := .brokered call.callId call.toolId s!"Tool call timed out after {call.timeout.text}s." true
        call.timeout.ms
      { sys with
        sessions := match call.session with
          | some c => sys.sessions.modify c (·.popPending call.callId)
          | none => sys.sessions
        calls := sys.calls.modify n fun call =>
          { call with
            phase := .returned .timeout r
            future := match call.future with
              | .pending => .cancelled
              | future => future } }
    | none => sys

end BrokerSys

open BrokerSys

/-- The result is the call's own: under its ids, and not the client's answer to another call. -/
def Own (n : Nat) (call : BrokerCall) (origin : ResultOrigin) (r : ToolCallResult) : Prop :=
  r.callId = call.callId ∧ r.toolId = call.toolId ∧
    ∀ answers, origin = .client answers → answers = some n

/-- The call has not raised, and what it returned or is about to return is its own. -/
structure Settles (n : Nat) (call : BrokerCall) : Prop where
  phase : call.phase ≠ .raised
  returned : ∀ origin r, call.phase = .returned origin r → Own n call origin r
  future : ∀ origin r, call.future = .result origin r → Own n call origin r

/-- Every call settles as its own, and no pending entry of a connected session is of a call that is
over. -/
structure Matched (sys : BrokerSys) : Prop where
  calls : ∀ (n : Nat) call, sys.calls[n]? = some call → Settles n call
  entries : ∀ cs ∈ sys.sessions, cs.connected → ∀ pending ∈ cs.pendingCalls,
    ∃ call, sys.calls[pending.future]? = some call ∧ call.phase.isOver = false

namespace BrokerSys

/-- The message is resolved as the answer to the call it answers, or resolves nothing. -/
def deliversOwn (sys : BrokerSys) (w : Nat) (answers : Option Nat) (callId : String)
    (msg : ToolCallMessage) : Bool :=
  !sys.canCarry answers callId || msg.outcome.isNone || (sys.delivery w callId).all fun x =>
    answers = some x.2.future || sys.calls[x.2.future]?.all fun call => match call.future with
      | .pending => false
      | _ => true

def keepsMatching (sys : BrokerSys) : BrokerEvent → Bool
  | .message w answers callId msg _ => sys.deliversOwn w answers callId msg
  | .sent n ok => ok || !sys.isSending n
  | _ => true

end BrokerSys

variable {sys : BrokerSys} {e : BrokerEvent}

/-- The entry is of a call of the session it is in, which is still to be resolved if the session is
connected. -/
def Entered (calls : List BrokerCall) (c : Nat) (connected : Bool) (pending : PendingToolCall) :
    Prop :=
  ∃ call, calls[pending.future]? = some call ∧ call.session = some c ∧
    call.callId = pending.callId ∧ call.toolId = pending.toolId ∧
    (connected → call.future = .pending ∧ call.phase.isOver = false)

/-- What `keepsMatching` preserves. -/
structure Tracked (sys : BrokerSys) : Prop where
  calls : ∀ (n : Nat) call, sys.calls[n]? = some call → Settles n call
  entries : ∀ (c : Nat) cs, sys.sessions[c]? = some cs → ∀ pending ∈ cs.pendingCalls,
    Entered sys.calls c cs.connected pending

theorem Tracked.matched (h : Tracked sys) : Matched sys := by
  refine ⟨h.calls, fun cs hcs hconnected pending hp => ?_⟩
  obtain ⟨c, hc⟩ := List.getElem?_of_mem hcs
  obtain ⟨call, hcall, -, -, -, hopen⟩ := h.entries c cs hc pending hp
  exact ⟨call, hcall, (hopen hconnected).2⟩

theorem BrokerCall.resolve_eq (call : BrokerCall) (origin : ResultOrigin) (r : ToolCallResult) :
    call.resolve origin r = call ∨
      call.future = .pending ∧ call.resolve origin r = { call with future := .result origin r } := by
  unfold BrokerCall.resolve
  split
  next h => exact .inr ⟨h, rfl⟩
  next => exact .inl rfl

/-- Sessions may lose entries and the connection. -/
theorem Tracked.sessions {sessions : List ClientSession} {connections : ClientConnections}
    {handlers : List WsHandler} (h : Tracked sys)
    (hs : ∀ (c : Nat) cs, sessions[c]? = some cs → cs.pendingCalls = [] ∨ ∃ old, sys.sessions[c]? = some old ∧
      (∀ pending ∈ cs.pendingCalls, pending ∈ old.pendingCalls) ∧ (cs.connected → old.connected)) :
    Tracked { sys with sessions, connections, handlers } := by
  refine ⟨h.calls, fun c cs hc pending hp => ?_⟩
  rcases hs c cs hc with hnil | ⟨old, hold, hsub, hconnected⟩
  · rw [hnil] at hp
    cases hp
  · obtain ⟨call, hcall, hsession, hid, htool, hopen⟩ := h.entries c old hold pending (hsub _ hp)
    exact ⟨call, hcall, hsession, hid, htool, fun hcon => hopen (hconnected hcon)⟩

/-- One call changes, without leaving its session or its ids: it still settles as its own, and when
it is resolved or over then no connected session has an entry of it. -/
theorem Tracked.modify {n : Nat} {f : BrokerCall → BrokerCall} (h : Tracked sys)
    (hf : ∀ call, sys.calls[n]? = some call → Settles n (f call) ∧
      (f call).session = call.session ∧ (f call).callId = call.callId ∧
      (f call).toolId = call.toolId)
    (hentries : ∀ (c : Nat) cs, sys.sessions[c]? = some cs → cs.connected → ∀ pending ∈ cs.pendingCalls,
      pending.future = n → ∀ call, sys.calls[n]? = some call →
        (f call).future = .pending ∧ (f call).phase.isOver = false) :
    Tracked { sys with calls := sys.calls.modify n f } := by
  constructor
  · intro m call hm
    rw [List.getElem?_modify] at hm
    obtain ⟨old, hold, hcall⟩ := Option.map_eq_some_iff.1 hm
    split at hcall
    next hnm =>
      subst hnm hcall
      exact (hf old hold).1
    next =>
      cases hcall
      exact h.calls m _ hold
  · intro c cs hc pending hp
    obtain ⟨call, hcall, hsession, hid, htool, hopen⟩ := h.entries c cs hc pending hp
    simp only [Entered, List.getElem?_modify, hcall]
    split
    next hn =>
      rw [← hn] at hcall
      obtain ⟨-, hs, hi, ht⟩ := hf call hcall
      refine ⟨f call, rfl, hs.trans hsession, hi.trans hid, ht.trans htool, fun hcon => ?_⟩
      exact hentries c cs hc hcon pending hp hn.symm call hcall
    next => exact ⟨call, rfl, hsession, hid, htool, hopen⟩

theorem Tracked.resolve {n : Nat} {origin : ResultOrigin} {r : ToolCallResult} (h : Tracked sys)
    (hown : ∀ call, sys.calls[n]? = some call → call.future = .pending → Own n call origin r)
    (hentries : ∀ (c : Nat) cs, sys.sessions[c]? = some cs → cs.connected →
      ∀ pending ∈ cs.pendingCalls, pending.future ≠ n) :
    Tracked (sys.resolve n origin r) := by
  refine h.modify (fun call hcall => ?_) fun c cs hc hcon pending hp hn => ?_
  · have hs := h.calls n call hcall
    rcases call.resolve_eq origin r with heq | ⟨hfuture, heq⟩
    · rw [heq]
      exact ⟨hs, rfl, rfl, rfl⟩
    · rw [heq]
      refine ⟨⟨hs.phase, hs.returned, ?_⟩, rfl, rfl, rfl⟩
      rintro origin' r' ⟨⟩
      exact hown call hcall hfuture
  · exact absurd hn (hentries c cs hc hcon pending hp)

theorem popPending_ne {cs : ClientSession} {callId : String} {pending : PendingToolCall}
    (h : pending ∈ (cs.popPending callId).pendingCalls) :
    pending ∈ cs.pendingCalls ∧ pending.callId ≠ callId := by
  simpa [ClientSession.popPending] using h

/-- The disconnect errors of a session that is no longer connected. -/
theorem Tracked.disconnect {c : Nat} {cs : ClientSession} (pendings : List PendingToolCall)
    (h : Tracked sys) (hc : sys.sessions[c]? = some cs) (hcon : cs.connected = false)
    (hp : ∀ pending ∈ pendings, pending ∈ cs.pendingCalls) :
    Tracked (pendings.foldl (fun sys pending =>
      sys.resolve pending.future .disconnect (disconnectResult pending)) sys) := by
  induction pendings generalizing sys with
  | nil => exact h
  | cons pending rest ih =>
    obtain ⟨call, hcall, hsession, hid, htool, -⟩ :=
      h.entries c cs hc pending (hp _ List.mem_cons_self)
    refine ih ?_ hc fun x hx => hp x (List.mem_cons_of_mem _ hx)
    refine h.resolve (fun call' hcall' _ => ?_) fun c' cs' hc' hcon' x hx hn => ?_
    · rw [hcall] at hcall'
      cases hcall'
      exact ⟨hid.symm, htool.symm, fun _ ho => by cases ho⟩
    · obtain ⟨call', hcall', hsession', -⟩ := h.entries c' cs' hc' x hx
      rw [hn, hcall] at hcall'
      cases hcall'
      rw [hsession] at hsession'
      cases hsession'
      rw [hc] at hc'
      cases hc'
      rw [hcon] at hcon'
      cases hcon'

theorem Tracked.closeHandler (h : Tracked sys) (w : Nat) (handler : WsHandler) :
    Tracked (sys.closeHandler w handler) := by
  have hmono : ∀ (c : Nat) cs, sys.sessions[c]? = some cs → cs.pendingCalls = [] ∨
      ∃ old, sys.sessions[c]? = some old ∧ (∀ x ∈ cs.pendingCalls, x ∈ old.pendingCalls) ∧
        (cs.connected → old.connected) := fun c cs hc => .inr ⟨cs, hc, fun _ hx => hx, id⟩
  simp only [BrokerSys.closeHandler]
  split
  next => exact h.sessions hmono
  next c _ =>
    split
    next => exact h.sessions hmono
    next cs hc =>
      obtain ⟨hlt, -⟩ := List.getElem?_eq_some_iff.1 hc
      refine Tracked.disconnect (c := c) _ ?_ (List.getElem?_set_self hlt) rfl fun _ hp => hp
      refine h.sessions fun c' cs' hc' => ?_
      by_cases hcc : c = c'
      · subst hcc
        rw [List.getElem?_set_self hlt] at hc'
        cases hc'
        exact .inr ⟨cs, hc, fun _ hx => hx, fun hcon => by cases hcon⟩
      · rw [List.getElem?_set_ne hcc] at hc'
        exact hmono c' cs' hc'

/-- A session after a call id was popped from one of them. -/
theorem getElem?_pop {sessions : List ClientSession} {c c' : Nat} {callId : String}
    {cs' : ClientSession} (h : (sessions.modify c (·.popPending callId))[c']? = some cs') :
    ∃ old, sessions[c']? = some old ∧ cs'.connected = old.connected ∧
      ∀ pending ∈ cs'.pendingCalls, pending ∈ old.pendingCalls ∧
        (c = c' → pending.callId ≠ callId) := by
  rw [List.getElem?_modify] at h
  obtain ⟨old, hold, hcs⟩ := Option.map_eq_some_iff.1 h
  refine ⟨old, hold, ?_⟩
  split at hcs
  next =>
    subst hcs
    refine ⟨rfl, fun pending hp => ?_⟩
    obtain ⟨hmem, hne⟩ := popPending_ne hp
    exact ⟨hmem, fun _ => hne⟩
  next hne =>
    cases hcs
    exact ⟨rfl, fun pending hp => ⟨hp, fun hcc => absurd hcc hne⟩⟩

/-- Popping a call id from a session. -/
theorem Tracked.pop (h : Tracked sys) (c : Nat) (callId : String) :
    Tracked { sys with sessions := sys.sessions.modify c (·.popPending callId) } := by
  refine h.sessions fun c' cs' hc' => .inr ?_
  obtain ⟨old, hold, hcon, hsub⟩ := getElem?_pop hc'
  exact ⟨old, hold, fun _ hp => (hsub _ hp).1, fun h => hcon ▸ h⟩

/-- After a call's id was popped from its session, no session has an entry of the call. -/
theorem Tracked.popped {c n : Nat} {call : BrokerCall} (h : Tracked sys)
    (hcall : sys.calls[n]? = some call) (hsession : call.session = some c) :
    ∀ (c' : Nat) cs', (sys.sessions.modify c (·.popPending call.callId))[c']? = some cs' →
      ∀ pending ∈ cs'.pendingCalls, pending.future ≠ n := by
  rintro c' cs' hc' pending hp rfl
  obtain ⟨old, hold, -, hsub⟩ := getElem?_pop hc'
  obtain ⟨hmem, hne⟩ := hsub pending hp
  obtain ⟨call', hcall', hsession', hid, -⟩ := h.entries c' old hold pending hmem
  rw [hcall] at hcall'
  cases hcall'
  rw [hsession] at hsession'
  exact hne (Option.some.inj hsession') hid.symm

theorem delivery_eq_some {w c : Nat} {callId : String} {pending : PendingToolCall}
    (h : sys.delivery w callId = some (c, pending)) :
    ∃ cs, sys.sessions[c]? = some cs ∧ pending ∈ cs.pendingCalls ∧ pending.callId = callId := by
  simp only [delivery, Option.bind_eq_bind, Option.bind_eq_some_iff, Option.pure_def,
    Option.some.injEq, Prod.mk.injEq] at h
  obtain ⟨handler, -, c', -, cs', hcs, pending', hget, rfl, rfl⟩ := h
  exact ⟨cs', hcs, List.mem_of_find?_eq_some hget, by simpa using List.find?_some hget⟩

theorem Tracked.message {w : Nat} {answers : Option Nat} {callId : String} {msg : ToolCallMessage}
    {now : Int} (h : Tracked sys) (hg : sys.deliversOwn w answers callId msg) :
    Tracked (sys.step (.message w answers callId msg now)) := by
  simp only [step]
  split
  next hcarry =>
    split
    next => exact h
    next c pending hd =>
      obtain ⟨cs, hc, hmem, rfl⟩ := delivery_eq_some hd
      have hpop := h.pop c pending.callId
      obtain ⟨call, hcall, hsession, hid, htool, -⟩ := h.entries c cs hc pending hmem
      split
      next content isError hout =>
        refine hpop.resolve (fun call' hcall' hfuture => ?_) fun c' cs' hc' _ => ?_
        · rw [hcall] at hcall'
          cases hcall'
          have hanswers : answers = some pending.future := by
            simpa [deliversOwn, hcarry, hout, hd, hcall, hfuture] using hg
          refine ⟨hid.symm, htool.symm, ?_⟩
          rintro _ ⟨⟩
          exact hanswers
        · rw [← hid] at hc'
          exact h.popped hcall hsession c' cs' hc'
      next =>
        split
        next handler _ => exact hpop.closeHandler w handler
        next => exact hpop
  next => exact h

theorem awaiting_eq_some {n : Nat} {call : BrokerCall} (h : sys.awaiting n = some call) :
    sys.calls[n]? = some call ∧ call.phase = .waiting := by
  obtain ⟨hcall, hphase⟩ := Option.filter_eq_some_iff.1 h
  refine ⟨hcall, ?_⟩
  split at hphase
  next hw => exact hw
  next => cases hphase

theorem Tracked.wake {n : Nat} (h : Tracked sys) : Tracked (sys.step (.wake n)) := by
  simp only [step]
  split
  next call hawait =>
    obtain ⟨hcall, -⟩ := awaiting_eq_some hawait
    split
    next origin r hfuture =>
      refine h.modify (fun call' hcall' => ?_) fun c cs hc hcon pending hp hn => ?_
      · rw [hcall] at hcall'
        cases hcall'
        have hs := h.calls n call hcall
        refine ⟨⟨(fun hr => by cases hr), ?_, hs.future⟩, rfl, rfl, rfl⟩
        rintro _ _ ⟨⟩
        exact hs.future origin r hfuture
      · obtain ⟨call', hcall', -, -, -, hopen⟩ := h.entries c cs hc pending hp
        rw [hn, hcall] at hcall'
        cases hcall'
        rw [hfuture] at hopen
        cases (hopen hcon).1
    next => exact h
  next => exact h

theorem Tracked.timeout {n : Nat} (h : Tracked sys) : Tracked (sys.step (.timeout n)) := by
  simp only [step]
  split
  next call hawait =>
    obtain ⟨hcall, -⟩ := awaiting_eq_some hawait
    have hs := h.calls n call hcall
    have settles (r : ToolCallResult) (hid : r.callId = call.callId) (htool : r.toolId = call.toolId)
        (call' : BrokerCall) (hcall' : sys.calls[n]? = some call') :
        Settles n { call' with
          phase := .returned .timeout r
          future := match call'.future with
            | .pending => .cancelled
            | future => future } := by
      rw [hcall] at hcall'
      cases hcall'
      refine ⟨(fun hr => by cases hr), ?_, fun origin r' hfuture => ?_⟩
      · rintro _ _ ⟨⟩
        exact ⟨hid, htool, fun _ ho => by cases ho⟩
      · simp only at hfuture
        split at hfuture
        · cases hfuture
        · exact hs.future origin r' hfuture
    cases hsession : call.session with
    | none =>
      refine h.modify (fun call' hcall' => ⟨settles _ rfl rfl call' hcall', rfl, rfl, rfl⟩) ?_
      intro c cs hc _ pending hp hn
      obtain ⟨call', hcall', hsession', -⟩ := h.entries c cs hc pending hp
      rw [hn, hcall] at hcall'
      cases hcall'
      rw [hsession] at hsession'
      cases hsession'
    | some c =>
      refine (h.pop c call.callId).modify
        (fun call' hcall' => ⟨settles _ rfl rfl call' hcall', rfl, rfl, rfl⟩) ?_
      intro c' cs' hc' _ pending hp hn
      exact absurd hn (h.popped hcall hsession c' cs' hc' pending hp)
  next => exact h

theorem chosen_eq_some {sessionId : GatewaySessionId} {c : Nat} {cs : ClientSession}
    (h : sys.chosen sessionId = some (c, cs)) : sys.sessions[c]? = some cs := by
  simp only [chosen, Option.bind_eq_bind, Option.bind_eq_some_iff, Option.pure_def,
    Option.some.injEq, Prod.mk.injEq] at h
  obtain ⟨c', -, cs', hcs, rfl, rfl⟩ := h
  exact hcs

/-- A new call, and its entry in the session it chose. -/
theorem Tracked.add {call : BrokerCall} {sessions : List ClientSession} (h : Tracked sys)
    (hcall : Settles sys.calls.length call)
    (hs : ∀ (c : Nat) cs, sessions[c]? = some cs → ∃ old, sys.sessions[c]? = some old ∧
      cs.connected = old.connected ∧ ∀ pending ∈ cs.pendingCalls, pending ∈ old.pendingCalls ∨
        Entered (sys.calls ++ [call]) c cs.connected pending) :
    Tracked { sys with calls := sys.calls ++ [call], sessions } := by
  constructor
  · intro n call' hn
    rcases Nat.lt_or_ge n sys.calls.length with hlt | hge
    · rw [List.getElem?_append_left hlt] at hn
      exact h.calls n call' hn
    · rw [List.getElem?_append_right hge] at hn
      obtain ⟨hlt, heq⟩ := List.getElem?_eq_some_iff.1 hn
      have hlen : n = sys.calls.length := by
        simp only [List.length_singleton] at hlt
        omega
      subst hlen
      have hx : call = call' := by simpa using heq
      exact hx ▸ hcall
  · intro c cs hc pending hp
    obtain ⟨old, hold, hcon, hsub⟩ := hs c cs hc
    rcases hsub pending hp with hmem | hnew
    · obtain ⟨call', hcall', hrest⟩ := h.entries c old hold pending hmem
      obtain ⟨hlt, -⟩ := List.getElem?_eq_some_iff.1 hcall'
      exact ⟨call', by rw [List.getElem?_append_left hlt, hcall'], hcon ▸ hrest⟩
    · exact hnew

theorem Tracked.broker {sessionId : GatewaySessionId} {callId toolId : String}
    {timeout : BrokerTimeout} {now : Int} (h : Tracked sys) :
    Tracked (sys.step (.broker sessionId callId toolId timeout now)) := by
  simp only [step]
  split
  next =>
    refine h.add ⟨(fun hr => by cases hr), ?_, fun _ _ hf => by cases hf⟩ fun c cs hc => ?_
    · rintro _ _ ⟨⟩
      exact ⟨rfl, rfl, fun _ ho => by cases ho⟩
    · exact ⟨cs, hc, rfl, fun _ hp => .inl hp⟩
  next c cs hchosen =>
    have hc := chosen_eq_some hchosen
    obtain ⟨hlt, -⟩ := List.getElem?_eq_some_iff.1 hc
    refine h.add ⟨(fun hr => by cases hr), (fun _ _ hr => by cases hr), fun _ _ hf => by cases hf⟩ ?_
    intro c' cs' hc'
    by_cases hcc : c = c'
    · subst hcc
      rw [List.getElem?_set_self hlt] at hc'
      cases hc'
      refine ⟨cs, hc, rfl, fun pending hp => ?_⟩
      rcases List.mem_append.1 hp with hp | hp
      · exact .inl (List.mem_filter.1 hp).1
      · rw [List.mem_singleton.1 hp]
        exact .inr ⟨_, List.getElem?_concat_length, rfl, rfl, rfl, fun _ => ⟨rfl, rfl⟩⟩
    · rw [List.getElem?_set_ne hcc] at hc'
      exact ⟨cs', hc', rfl, fun _ hp => .inl hp⟩

theorem isSending_iff {n : Nat} :
    sys.isSending n ↔ ∃ call, sys.calls[n]? = some call ∧ call.phase = .sending := by
  simp only [isSending, Option.any_eq_true]
  refine exists_congr fun call => and_congr_right fun _ => ?_
  split
  next hp => simp [hp]
  next hp => simpa using hp

theorem Tracked.sent {n : Nat} (h : Tracked sys) : Tracked (sys.step (.sent n true)) := by
  simp only [step]
  split
  next hsending =>
    obtain ⟨call, hcall, hphase⟩ := isSending_iff.1 hsending
    refine h.modify (fun call' hcall' => ?_) fun c cs hc hcon pending hp hn call' hcall' => ?_
    · rw [hcall] at hcall'
      cases hcall'
      have hs := h.calls n call hcall
      exact ⟨⟨(fun hr => by cases hr), (fun _ _ hr => by cases hr), hs.future⟩, rfl, rfl, rfl⟩
    · obtain ⟨call'', hcall'', -, -, -, hopen⟩ := h.entries c cs hc pending hp
      rw [hn, hcall'] at hcall''
      cases hcall''
      exact ⟨(hopen hcon).1, rfl⟩
  next => exact h

theorem Tracked.step (h : Tracked sys) (hg : sys.keepsMatching e) : Tracked (sys.step e) := by
  have hsame : ∀ (c : Nat) cs, sys.sessions[c]? = some cs → cs.pendingCalls = [] ∨
      ∃ old, sys.sessions[c]? = some old ∧ (∀ x ∈ cs.pendingCalls, x ∈ old.pendingCalls) ∧
        (cs.connected → old.connected) := fun c cs hc => .inr ⟨cs, hc, fun _ hx => hx, id⟩
  cases e with
  | accept => exact h.sessions hsame
  | sessionInit w sessionId clientId =>
    simp only [BrokerSys.step]
    split
    next => exact h
    next =>
      refine h.sessions fun c cs hc => ?_
      rcases Nat.lt_or_ge c sys.sessions.length with hlt | hge
      · rw [List.getElem?_append_left hlt] at hc
        exact hsame c cs hc
      · rw [List.getElem?_append_right hge] at hc
        rw [List.mem_singleton.1 (List.mem_of_getElem? hc)]
        exact .inl rfl
  | invalidInit w =>
    simp only [BrokerSys.step]
    split
    next => exact h
    next => exact h.sessions hsame
  | sessionAck w sent =>
    simp only [BrokerSys.step]
    split
    next => exact h
    next handler _ =>
      split
      next => exact h.sessions hsame
      next => exact h.closeHandler w handler
  | message => exact h.message hg
  | close w =>
    simp only [BrokerSys.step]
    split
    next => exact h
    next handler _ => exact h.closeHandler w handler
  | unregister w =>
    simp only [BrokerSys.step]
    split
    next => exact h
    next =>
      split
      next => exact h
      next => exact h.sessions hsame
  | broker => exact h.broker
  | sent n ok =>
    cases ok with
    | true => exact h.sent
    | false =>
      have hn : sys.isSending n = false := by simpa [keepsMatching] using hg
      simpa [BrokerSys.step, hn] using h
  | wake => exact h.wake
  | timeout => exact h.timeout

/-- A step after which every call settles as its own meets the guard. -/
theorem Tracked.keeps (h : Tracked sys) (hm : Matched (sys.step e)) : sys.keepsMatching e := by
  cases e with
  | message w answers callId msg now =>
    by_contra hg
    simp only [keepsMatching, deliversOwn, Bool.not_eq_true, Bool.or_eq_false_iff,
      Bool.not_eq_false', Option.isNone_eq_false_iff, Option.isSome_iff_exists] at hg
    obtain ⟨⟨hcarry, ⟨content, isError⟩, hout⟩, hall⟩ := hg
    cases hd : sys.delivery w callId with
    | none => simp [hd] at hall
    | some x =>
      obtain ⟨c, pending⟩ := x
      obtain ⟨cs, hc, hmem, rfl⟩ := delivery_eq_some hd
      obtain ⟨call, hcall, -⟩ := h.entries c cs hc pending hmem
      simp only [hd, Option.all_some, hcall, Bool.or_eq_false_iff, decide_eq_false_iff_not] at hall
      obtain ⟨hne, hpending⟩ := hall
      have hfuture : call.future = .pending := by
        split at hpending
        next hf => exact hf
        next => cases hpending
      simp only [BrokerSys.step, hcarry, if_true, hd, hout] at hm
      generalize ToolCallResult.brokered _ _ _ _ _ = r at hm
      have hresolve : call.resolve (.client answers) r =
          { call with future := .result (.client answers) r } := by
        simp only [BrokerCall.resolve, hfuture]
      have hs := hm.calls pending.future (call.resolve (.client answers) r)
        (by simp [BrokerSys.resolve, hcall])
      rw [hresolve] at hs
      exact hne ((hs.future _ _ rfl).2.2 answers rfl)
  | sent n ok =>
    cases ok with
    | true => rfl
    | false =>
      cases hn : sys.isSending n with
      | false => simp [keepsMatching, hn]
      | true =>
        obtain ⟨call, hcall, -⟩ := isSending_iff.1 hn
        simp only [BrokerSys.step, hn, if_true] at hm
        exact absurd rfl (hm.calls n { call with phase := .raised }
          (by simp [setPhase, hcall])).phase
  | _ => rfl

/-- A call that is over keeps its outcome. -/
def KeepsOutcomes (sys sys' : BrokerSys) : Prop :=
  ∀ (n : Nat) call, sys.calls[n]? = some call → call.phase.isOver →
    ∃ call', sys'.calls[n]? = some call' ∧ call'.phase = call.phase

/-- A call in `asyncio.wait_for` is over when its timeout comes, at the latest. -/
def EndsInTime (sys : BrokerSys) : Prop :=
  ∀ n call, sys.awaiting n = some call →
    ∃ call', (sys.step (.timeout n)).calls[n]? = some call' ∧ call'.phase.isOver

theorem KeepsOutcomes.refl (sys : BrokerSys) : KeepsOutcomes sys sys := fun _ call hcall _ =>
  ⟨call, hcall, rfl⟩

theorem KeepsOutcomes.trans {a b c : BrokerSys} (h₁ : KeepsOutcomes a b) (h₂ : KeepsOutcomes b c) :
    KeepsOutcomes a c := by
  intro n call hcall hover
  obtain ⟨call', hcall', hphase⟩ := h₁ n call hcall hover
  obtain ⟨call'', hcall'', hphase'⟩ := h₂ n call' hcall' (hphase ▸ hover)
  exact ⟨call'', hcall'', hphase'.trans hphase⟩

theorem KeepsOutcomes.modify {n : Nat} {f : BrokerCall → BrokerCall} {sys' : BrokerSys}
    (hs : sys'.calls = sys.calls.modify n f)
    (hf : ∀ call, sys.calls[n]? = some call → call.phase.isOver → (f call).phase = call.phase) :
    KeepsOutcomes sys sys' := by
  intro m call hm hover
  simp only [hs, List.getElem?_modify, hm]
  split
  next hnm =>
    subst hnm
    exact ⟨_, rfl, hf call hm hover⟩
  next => exact ⟨call, rfl, rfl⟩

theorem resolve_keepsOutcomes {n : Nat} {origin : ResultOrigin} {r : ToolCallResult} :
    KeepsOutcomes sys (sys.resolve n origin r) := by
  refine .modify rfl fun call _ _ => ?_
  rcases call.resolve_eq origin r with heq | ⟨-, heq⟩ <;> rw [heq]

theorem closeHandler_keepsOutcomes (sys : BrokerSys) (w : Nat) (handler : WsHandler) :
    KeepsOutcomes sys (sys.closeHandler w handler) := by
  simp only [BrokerSys.closeHandler]
  split
  next => exact .refl sys
  next =>
    split
    next => exact .refl sys
    next => exact List.foldlRecOn _ _ (motive := KeepsOutcomes sys) (.refl sys)
              fun _ h _ _ => h.trans resolve_keepsOutcomes

theorem step_keepsOutcomes (sys : BrokerSys) (e : BrokerEvent) :
    KeepsOutcomes sys (sys.step e) := by
  cases e with
  | accept => exact .refl sys
  | sessionInit | invalidInit =>
    simp only [BrokerSys.step]
    split <;> exact .refl sys
  | sessionAck w sent =>
    simp only [BrokerSys.step]
    split
    next => exact .refl sys
    next handler _ =>
      split
      next => exact .refl sys
      next => exact closeHandler_keepsOutcomes sys w handler
  | message w answers callId msg now =>
    simp only [BrokerSys.step]
    split
    next =>
      split
      next => exact .refl sys
      next c _ _ =>
        split
        next => exact resolve_keepsOutcomes
        next =>
          split
          next handler _ =>
            exact closeHandler_keepsOutcomes
              { sys with sessions := sys.sessions.modify c (·.popPending callId) } w handler
          next => exact .refl sys
    next => exact .refl sys
  | close w =>
    simp only [BrokerSys.step]
    split
    next => exact .refl sys
    next handler _ => exact closeHandler_keepsOutcomes sys w handler
  | unregister =>
    simp only [BrokerSys.step]
    split
    next => exact .refl sys
    next => split <;> exact .refl sys
  | broker =>
    have happend (call : BrokerCall) : ∀ (n : Nat) old, sys.calls[n]? = some old →
      old.phase.isOver →
        ∃ call', (sys.calls ++ [call])[n]? = some call' ∧ call'.phase = old.phase := by
      intro n old hold _
      obtain ⟨hlt, -⟩ := List.getElem?_eq_some_iff.1 hold
      exact ⟨old, by rw [List.getElem?_append_left hlt, hold], rfl⟩
    simp only [BrokerSys.step]
    split <;> exact happend _
  | sent n ok =>
    simp only [BrokerSys.step]
    split
    next hn =>
      obtain ⟨call, hcall, hphase⟩ := isSending_iff.1 hn
      refine .modify rfl fun call' hcall' hover => ?_
      rw [hcall] at hcall'
      cases hcall'
      rw [hphase] at hover
      cases hover
    next => exact .refl sys
  | wake n =>
    simp only [BrokerSys.step]
    split
    next call hawait =>
      obtain ⟨hcall, hphase⟩ := awaiting_eq_some hawait
      split
      next =>
        refine .modify rfl fun call' hcall' hover => ?_
        rw [hcall] at hcall'
        cases hcall'
        rw [hphase] at hover
        cases hover
      next => exact .refl sys
    next => exact .refl sys
  | timeout n =>
    simp only [BrokerSys.step]
    split
    next call hawait =>
      obtain ⟨hcall, hphase⟩ := awaiting_eq_some hawait
      refine .modify rfl fun call' hcall' hover => ?_
      rw [hcall] at hcall'
      cases hcall'
      rw [hphase] at hover
      cases hover
    next => exact .refl sys

theorem endsInTime (sys : BrokerSys) : EndsInTime sys := by
  intro n call hawait
  obtain ⟨hcall, -⟩ := awaiting_eq_some hawait
  simp only [step, hawait, List.getElem?_modify, hcall, if_true]
  exact ⟨_, rfl, rfl⟩

/-- Every call is resolved once, as its own, in time, and leaves no entry behind, exactly if no
`send_json` of a request fails and no message resolves a call that it does not answer. -/
theorem matched_iff {es : List BrokerEvent} :
    (Always step Matched .fresh es ∧ Along step KeepsOutcomes .fresh es ∧
        Always step EndsInTime .fresh es) ↔
      Guarded step (fun sys e => sys.keepsMatching e) .fresh es := by
  have honce : Along step KeepsOutcomes .fresh es :=
    along_of_step .refl (fun _ _ _ => .trans) step_keepsOutcomes
  have htime : Always step EndsInTime .fresh es := fun pre _ => endsInTime _
  have hmatched : Always step Matched .fresh es ↔
      Guarded step (fun sys e => sys.keepsMatching e) .fresh es := by
    refine always_iff_guarded_of_invariant (I := Tracked) (fun _ h => h.matched)
      (fun _ _ h hg => h.step hg) (fun _ _ h hm => h.keeps hm) ?_
    exact ⟨fun n call h => (by simp [fresh] at h), fun c cs h => (by simp [fresh] at h)⟩
  exact ⟨fun h => hmatched.1 h.1, fun h => ⟨hmatched.2 h, honce, htime⟩⟩

/-- Two calls of one session with the empty call id: the result the client sends for the first one
is returned by the second. -/
theorem not_matched_equal_ids : ¬ Matched (run step .fresh
    [.accept, .sessionInit 0 "s" "agent", .sessionAck 0 true, .broker "s" "" "read" ⟨"30.0", 30000⟩ 0,
      .sent 0 true, .broker "s" "" "write" ⟨"30.0", 30000⟩ 1, .sent 1 true,
      .message 0 (some 0) "" (.toolCallResult (some "text of a file") true) 50, .wake 1]) := by
  intro h
  have hs := (h.calls 1 _ rfl).returned _ _ rfl
  exact absurd (hs.2.2 (some 0) rfl) (by decide)

end LlmPort.Gateway
