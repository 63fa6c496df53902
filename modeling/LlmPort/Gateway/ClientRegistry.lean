import LlmPort.Gateway.ToolCallMatching

/-!
# The registry of client connections

Which socket each client session was registered on, kept beside the runs of the broker: the registry
is keyed by session and client, and a handler cleans up under the key of its last client session.
-/

namespace LlmPort.Gateway

open Transition

structure RegistrySys where
  broker : BrokerSys
  /-- Of each client session the gateway session it is for, and the handler that registered it. -/
  registrations : List (GatewaySessionId × Nat)

inductive RegistryEvent where
  | broker (e : BrokerEvent)
  /-- `mark_client_tools_unavailable` raises, which ends the `finally`. -/
  | cleanupFails (w : Nat)

namespace RegistrySys

def fresh : RegistrySys := ⟨.fresh, []⟩

/-- The registration that an event makes. -/
def registered (reg : RegistrySys) : BrokerEvent → List (GatewaySessionId × Nat)
  | .sessionInit w sessionId _ =>
    if (reg.broker.listening w).isSome then [(sessionId, w)] else []
  | _ => []

/-- The handler, while it cleans up. -/
def cleaningUp (reg : RegistrySys) (w : Nat) : Option WsHandler :=
  reg.broker.handlers[w]?.filter fun h => !h.running && h.cs.isSome

def step (reg : RegistrySys) : RegistryEvent → RegistrySys
  | .broker e => ⟨reg.broker.step e, reg.registrations ++ reg.registered e⟩
  | .cleanupFails w => match reg.cleaningUp w with
    | none => reg
    | some h =>
      { reg with
        broker := { reg.broker with handlers := reg.broker.handlers.set w { h with cs := none } } }

def isConnected (reg : RegistrySys) (w : Nat) : Bool := reg.broker.handlers[w]?.any (·.running)

/-- The handler has returned. -/
def isClosed (reg : RegistrySys) (w : Nat) : Bool :=
  reg.broker.handlers[w]?.any fun h => !h.running && h.cs.isNone

/-- The socket of a client session. -/
def socket (reg : RegistrySys) (c : Nat) : Option Nat := reg.registrations[c]?.map (·.2)

/-- The socket that was the last to register for a session. -/
def lastToRegister (reg : RegistrySys) (sessionId : GatewaySessionId) : Option Nat :=
  (reg.registrations.reverse.find? (·.1 = sessionId)).map (·.2)

/-- The socket is registered for no session. -/
def OwnsNothing (reg : RegistrySys) (w : Nat) : Prop :=
  ∀ entry ∈ reg.broker.connections, reg.socket entry.2 ≠ some w

end RegistrySys

structure WellRegistered (reg : RegistrySys) : Prop where
  last : ∀ sessionId w, reg.lastToRegister sessionId = some w → reg.isConnected w →
    ∃ entry ∈ reg.broker.connections, entry.1.1 = sessionId ∧ reg.socket entry.2 = some w
  closed : ∀ w, reg.isClosed w → reg.OwnsNothing w

namespace RegistrySys

/-- What the end of a handler removes is its own, and all of it: nothing where no client session is
cleaned up; else every entry of the handler is under the one key that is removed, and a socket that
was the last to register for the session has another entry. -/
def keepsRegistry (reg : RegistrySys) : RegistryEvent → Prop
  | .broker (.close w) => ∀ h, reg.broker.listening w = some h → h.cs = none → reg.OwnsNothing w
  | .broker (.sessionAck w false) => ∀ h, reg.broker.handlers[w]? = some h → h.acking.isSome →
    h.cs = none → reg.OwnsNothing w
  | .broker (.unregister w) => ∀ h cs, reg.broker.handlers[w]? = some h → !h.running →
    h.cs.bind (reg.broker.sessions[·]?) = some cs →
    (∀ entry ∈ reg.broker.connections, reg.socket entry.2 = some w →
      entry.1 = (cs.sessionId, cs.clientId)) ∧
    ∀ w', reg.lastToRegister cs.sessionId = some w' → reg.isConnected w' →
      ∃ entry ∈ reg.broker.connections, entry.1.1 = cs.sessionId ∧
        entry.1 ≠ (cs.sessionId, cs.clientId) ∧ reg.socket entry.2 = some w'
  | .cleanupFails w => (reg.cleaningUp w).isSome → reg.OwnsNothing w
  | _ => True

end RegistrySys

variable {sys : BrokerSys} {reg : RegistrySys} {w : Nat}

/-! ## What a step leaves of the handlers, the connections and the sessions -/

theorem closeHandler_frame (sys : BrokerSys) (w : Nat) (h : WsHandler) :
    (sys.closeHandler w h).connections = sys.connections ∧
      (sys.closeHandler w h).handlers =
        sys.handlers.set w { h with running := false, acking := none } ∧
      (sys.closeHandler w h).sessions.length = sys.sessions.length := by
  unfold BrokerSys.closeHandler
  dsimp only
  split
  next => exact ⟨rfl, rfl, rfl⟩
  next c _ =>
    split
    next => exact ⟨rfl, rfl, rfl⟩
    next =>
      refine List.foldlRecOn _ _ (motive := fun s : BrokerSys => s.connections = sys.connections ∧
        s.handlers = sys.handlers.set w { h with running := false, acking := none } ∧
        s.sessions.length = sys.sessions.length) ⟨rfl, rfl, List.length_set ..⟩ ?_
      exact fun s hs _ _ => hs

/-- The events that leave the connections and the handlers alone. -/
def BrokerEvent.isCall : BrokerEvent → Bool
  | .broker .. | .sent .. | .wake _ | .timeout _ => true
  | _ => false

theorem step_isCall_frame (sys : BrokerSys) {e : BrokerEvent} (he : e.isCall) :
    (sys.step e).connections = sys.connections ∧ (sys.step e).handlers = sys.handlers ∧
      (sys.step e).sessions.length = sys.sessions.length := by
  cases e with
  | broker =>
    simp only [BrokerSys.step]
    split
    next => exact ⟨rfl, rfl, rfl⟩
    next => exact ⟨rfl, rfl, List.length_set ..⟩
  | sent =>
    simp only [BrokerSys.step]
    split <;> exact ⟨rfl, rfl, rfl⟩
  | wake =>
    simp only [BrokerSys.step]
    split
    next => split <;> exact ⟨rfl, rfl, rfl⟩
    next => exact ⟨rfl, rfl, rfl⟩
  | timeout =>
    simp only [BrokerSys.step]
    split
    next =>
      refine ⟨rfl, rfl, ?_⟩
      dsimp only
      split
      next => exact List.length_modify ..
      next => rfl
    next => exact ⟨rfl, rfl, rfl⟩
  | _ => cases he

theorem step_message_frame (sys : BrokerSys) (w : Nat) (answers : Option Nat) (callId : String)
    (msg : ToolCallMessage) (now : Int) :
    (sys.step (.message w answers callId msg now)).connections = sys.connections ∧
      (sys.step (.message w answers callId msg now)).sessions.length = sys.sessions.length ∧
      ((sys.step (.message w answers callId msg now)).handlers = sys.handlers ∨
        ∃ h, sys.handlers[w]? = some h ∧ h.cs.isSome ∧
          (sys.step (.message w answers callId msg now)).handlers =
            sys.handlers.set w { h with running := false, acking := none }) := by
  simp only [BrokerSys.step]
  split
  next =>
    split
    next => exact ⟨rfl, rfl, .inl rfl⟩
    next c pending hd =>
      split
      next => exact ⟨rfl, List.length_modify .., .inl rfl⟩
      next =>
        obtain ⟨h, hl, hcs⟩ := Option.bind_eq_some_iff.1 hd
        obtain ⟨_, hcs, -⟩ := Option.bind_eq_some_iff.1 hcs
        have hw := (Option.filter_eq_some_iff.1 hl).1
        split
        next h' hw' =>
          rw [hw] at hw'
          cases hw'
          obtain ⟨h1, h2, h3⟩ := closeHandler_frame
            { sys with sessions := sys.sessions.modify c (·.popPending callId) } w h
          exact ⟨h1, h3.trans (List.length_modify ..), .inr ⟨h, hw, by rw [hcs]; rfl, h2⟩⟩
        next hw' =>
          rw [hw] at hw'
          cases hw'
  next => exact ⟨rfl, rfl, .inl rfl⟩

/-! ## Steps that keep the registry right -/

namespace RegistrySys

theorem isConnected_iff : reg.isConnected w ↔
    ∃ h, reg.broker.handlers[w]? = some h ∧ h.running := by
  simp [isConnected, Option.any_eq_true]

theorem isClosed_iff : reg.isClosed w ↔
    ∃ h, reg.broker.handlers[w]? = some h ∧ h.running = false ∧ h.cs = none := by
  simp [isClosed, Option.any_eq_true]

theorem exists_of_lastToRegister {sessionId : GatewaySessionId}
    (h : reg.lastToRegister sessionId = some w) : (sessionId, w) ∈ reg.registrations := by
  obtain ⟨x, hx, rfl⟩ := Option.map_eq_some_iff.1 h
  have hid := List.find?_some hx
  simp only [decide_eq_true_eq] at hid
  rw [← hid]
  exact List.mem_reverse.1 (List.mem_of_find?_eq_some hx)

end RegistrySys

/-- What the guarded steps preserve. -/
structure Registered (reg : RegistrySys) : Prop extends WellRegistered reg where
  length : reg.registrations.length = reg.broker.sessions.length
  sockets : ∀ x ∈ reg.registrations, x.2 < reg.broker.handlers.length

namespace Registered

variable {reg' : RegistrySys} {h h' : WsHandler}

theorem of_handlers (hreg : Registered reg)
    (hconnections : reg'.broker.connections = reg.broker.connections)
    (hregistrations : reg'.registrations = reg.registrations)
    (hsessions : reg'.broker.sessions.length = reg.broker.sessions.length)
    (hlength : reg.broker.handlers.length ≤ reg'.broker.handlers.length)
    (hconnected : ∀ w < reg.broker.handlers.length, reg'.isConnected w → reg.isConnected w)
    (hclosed : ∀ w, reg'.isClosed w → reg.isClosed w ∨ reg.OwnsNothing w) : Registered reg' := by
  have hsocket : reg'.socket = reg.socket := by
    funext c
    rw [RegistrySys.socket, hregistrations, RegistrySys.socket]
  constructor
  · constructor
    · intro sessionId w hl hw
      rw [RegistrySys.lastToRegister, hregistrations] at hl
      have hlt := hreg.sockets _ (RegistrySys.exists_of_lastToRegister hl)
      rw [hconnections, hsocket]
      exact hreg.last sessionId w hl (hconnected w hlt hw)
    · intro w hw
      unfold RegistrySys.OwnsNothing
      rw [hconnections, hsocket]
      exact (hclosed w hw).elim (hreg.closed w) id
  · rw [hregistrations, hsessions]
    exact hreg.length
  · rw [hregistrations]
    exact fun x hx => Nat.lt_of_lt_of_le (hreg.sockets x hx) hlength

theorem of_same (hreg : Registered reg)
    (hconnections : reg'.broker.connections = reg.broker.connections)
    (hregistrations : reg'.registrations = reg.registrations)
    (hsessions : reg'.broker.sessions.length = reg.broker.sessions.length)
    (hhandlers : reg'.broker.handlers = reg.broker.handlers) : Registered reg' := by
  apply hreg.of_handlers hconnections hregistrations hsessions
  · exact Nat.le_of_eq (congrArg List.length hhandlers).symm
  · intro v _ hv
    rwa [RegistrySys.isConnected, hhandlers] at hv
  · intro v hv
    rw [RegistrySys.isClosed, hhandlers] at hv
    exact .inl hv

/-- One handler changes, without running again; when it returns, its socket is registered for
nothing. -/
theorem of_set (hreg : Registered reg) (hw : reg.broker.handlers[w]? = some h)
    (hconnections : reg'.broker.connections = reg.broker.connections)
    (hregistrations : reg'.registrations = reg.registrations)
    (hsessions : reg'.broker.sessions.length = reg.broker.sessions.length)
    (hhandlers : reg'.broker.handlers = reg.broker.handlers.set w h')
    (hrunning : h'.running → h.running)
    (hreturns : h'.running = false → h'.cs = none → reg.isClosed w ∨ reg.OwnsNothing w) :
    Registered reg' := by
  obtain ⟨hlt, -⟩ := List.getElem?_eq_some_iff.1 hw
  apply hreg.of_handlers hconnections hregistrations hsessions
  · exact Nat.le_of_eq (hhandlers ▸ List.length_set).symm
  · intro v _ hv
    obtain ⟨g, hg, hrun⟩ := RegistrySys.isConnected_iff.1 hv
    rw [hhandlers] at hg
    by_cases hvw : w = v
    · subst hvw
      rw [List.getElem?_set_self hlt] at hg
      cases hg
      exact RegistrySys.isConnected_iff.2 ⟨h, hw, hrunning hrun⟩
    · rw [List.getElem?_set_ne hvw] at hg
      exact RegistrySys.isConnected_iff.2 ⟨g, hg, hrun⟩
  · intro v hv
    obtain ⟨g, hg, hrun, hcs⟩ := RegistrySys.isClosed_iff.1 hv
    rw [hhandlers] at hg
    by_cases hvw : w = v
    · subst hvw
      rw [List.getElem?_set_self hlt] at hg
      cases hg
      exact hreturns hrun hcs
    · rw [List.getElem?_set_ne hvw] at hg
      exact .inl (RegistrySys.isClosed_iff.2 ⟨g, hg, hrun, hcs⟩)

theorem accept (hreg : Registered reg) : Registered (reg.step (.broker .accept)) := by
  refine hreg.of_handlers rfl (List.append_nil _) rfl (by simp [RegistrySys.step, BrokerSys.step])
    ?_ ?_
  · intro v hlt hv
    obtain ⟨g, hg, hrun⟩ := RegistrySys.isConnected_iff.1 hv
    exact RegistrySys.isConnected_iff.2 ⟨g, by rwa [← List.getElem?_append_left hlt], hrun⟩
  · intro v hv
    obtain ⟨g, hg, hrun, hcs⟩ := RegistrySys.isClosed_iff.1 hv
    simp only [RegistrySys.step, BrokerSys.step] at hg
    rcases Nat.lt_or_ge v reg.broker.handlers.length with hlt | hge
    · rw [List.getElem?_append_left hlt] at hg
      exact .inl (RegistrySys.isClosed_iff.2 ⟨g, hg, hrun, hcs⟩)
    · rw [List.getElem?_append_right hge] at hg
      rw [List.mem_singleton.1 (List.mem_of_getElem? hg)] at hrun
      cases hrun

end Registered

namespace ClientConnections

variable {connections : ClientConnections} {key : GatewaySessionId × String} {c : Nat}
  {entry : (GatewaySessionId × String) × Nat}

theorem mem_register_self : (key, c) ∈ connections.register key c := by
  unfold register
  split
  next h =>
    obtain ⟨x, hx, hk⟩ := List.any_eq_true.1 h
    exact List.mem_map.2 ⟨x, hx, if_pos (by simpa using hk)⟩
  next => exact List.mem_append_right _ (List.mem_singleton_self _)

theorem mem_register_of_ne (h : entry ∈ connections) (hne : entry.1 ≠ key) :
    entry ∈ connections.register key c := by
  unfold register
  split
  next => exact List.mem_map.2 ⟨entry, h, if_neg hne⟩
  next => exact List.mem_append_left _ h

theorem of_mem_register (h : entry ∈ connections.register key c) :
    entry = (key, c) ∨ entry ∈ connections := by
  unfold register at h
  split at h
  next =>
    obtain ⟨x, hx, rfl⟩ := List.mem_map.1 h
    split
    next => exact .inl rfl
    next => exact .inr hx
  next =>
    obtain h | h := List.mem_append.1 h
    · exact .inr h
    · exact .inl (List.mem_singleton.1 h)

theorem mem_unregister :
    entry ∈ connections.unregister key ↔ entry ∈ connections ∧ entry.1 ≠ key := by
  simp [unregister]

end ClientConnections

namespace RegistrySys

theorem listening_eq_some {h : WsHandler} (hl : reg.broker.listening w = some h) :
    reg.broker.handlers[w]? = some h ∧ h.running ∧ h.acking = none := by
  obtain ⟨hw, hp⟩ := Option.filter_eq_some_iff.1 hl
  simp only [Bool.and_eq_true, Option.isNone_iff_eq_none] at hp
  exact ⟨hw, hp.1, hp.2⟩

end RegistrySys

namespace Registered

open RegistrySys

/-- A new registration may take the entry of another socket, which then was not the last. -/
theorem sessionInit {sessionId : GatewaySessionId} {clientId : String} (hreg : Registered reg) :
    Registered (reg.step (.broker (.sessionInit w sessionId clientId))) := by
  cases hl : reg.broker.listening w with
  | none =>
    have hsame : reg.step (.broker (.sessionInit w sessionId clientId)) = reg := by
      simp [RegistrySys.step, BrokerSys.step, registered, hl]
    rwa [hsame]
  | some h =>
    obtain ⟨hw, hrun, -⟩ := listening_eq_some hl
    obtain ⟨hlt, -⟩ := List.getElem?_eq_some_iff.1 hw
    obtain ⟨reg', hreg'⟩ : ∃ reg', reg' =
        reg.step (.broker (.sessionInit w sessionId clientId)) := ⟨_, rfl⟩
    have hregistrations : reg'.registrations = reg.registrations ++ [(sessionId, w)] := by
      simp [hreg', RegistrySys.step, registered, hl]
    have hconnections : reg'.broker.connections =
        reg.broker.connections.register (sessionId, clientId) reg.broker.sessions.length := by
      simp [hreg', RegistrySys.step, BrokerSys.step, hl]
    have hhandlers : reg'.broker.handlers =
        reg.broker.handlers.set w { h with acking := some reg.broker.sessions.length } := by
      simp [hreg', RegistrySys.step, BrokerSys.step, hl]
    have hsessions : reg'.broker.sessions.length = reg.broker.sessions.length + 1 := by
      simp [hreg', RegistrySys.step, BrokerSys.step, hl]
    have hnew : reg'.socket reg.broker.sessions.length = some w := by
      simp [socket, hregistrations, ← hreg.length]
    have hold {c v : Nat} (hc : reg.socket c = some v) : reg'.socket c = some v := by
      obtain ⟨x, hx, hv⟩ := Option.map_eq_some_iff.1 hc
      obtain ⟨hclt, -⟩ := List.getElem?_eq_some_iff.1 hx
      rw [socket, hregistrations, List.getElem?_append_left hclt, hx]
      exact congrArg some hv
    have hback {c v : Nat} (hc : reg'.socket c = some v) : reg.socket c = some v ∨ v = w := by
      obtain ⟨x, hx, hv⟩ := Option.map_eq_some_iff.1 hc
      rw [hregistrations] at hx
      rcases Nat.lt_or_ge c reg.registrations.length with hclt | hge
      · rw [List.getElem?_append_left hclt] at hx
        exact .inl (Option.map_eq_some_iff.2 ⟨x, hx, hv⟩)
      · rw [List.getElem?_append_right hge] at hx
        rw [← hv, List.mem_singleton.1 (List.mem_of_getElem? hx)]
        exact .inr rfl
    have hhandler {v : Nat} {g : WsHandler} (hg : reg'.broker.handlers[v]? = some g) :
        ∃ g', reg.broker.handlers[v]? = some g' ∧ g'.running = g.running ∧ g'.cs = g.cs := by
      rw [hhandlers] at hg
      by_cases hvw : w = v
      · subst hvw
        rw [List.getElem?_set_self hlt] at hg
        cases hg
        exact ⟨h, hw, rfl, rfl⟩
      · rw [List.getElem?_set_ne hvw] at hg
        exact ⟨g, hg, rfl, rfl⟩
    rw [← hreg']
    constructor
    · constructor
      · intro s v hlast hv
        rw [lastToRegister, hregistrations] at hlast
        by_cases hs : sessionId = s
        · subst hs
          have hvw : v = w := by simpa [eq_comm] using hlast
          subst hvw
          exact ⟨_, hconnections ▸ ClientConnections.mem_register_self, rfl, hnew⟩
        · have hlast' : reg.lastToRegister s = some v := by simpa [lastToRegister, hs] using hlast
          obtain ⟨g, hg, hgr⟩ := isConnected_iff.1 hv
          obtain ⟨g', hg', hrun', -⟩ := hhandler hg
          obtain ⟨entry, hmem, hid, hsocket⟩ := hreg.last s v hlast'
            (isConnected_iff.2 ⟨g', hg', hrun'.trans hgr⟩)
          refine ⟨entry, hconnections ▸ ClientConnections.mem_register_of_ne hmem ?_, hid,
            hold hsocket⟩
          intro hkey
          exact hs (by rw [← hid, hkey])
      · intro v hv entry hmem hsocket
        obtain ⟨g, hg, hgr, hcs⟩ := isClosed_iff.1 hv
        obtain ⟨g', hg', hrun', hcs'⟩ := hhandler hg
        have hvw : v ≠ w := by
          rintro rfl
          rw [hw] at hg'
          cases hg'
          rw [hrun, hgr] at hrun'
          cases hrun'
        rw [hconnections] at hmem
        obtain rfl | hmem := ClientConnections.of_mem_register hmem
        · rw [hnew] at hsocket
          exact hvw (Option.some.inj hsocket).symm
        · have hclosed : reg.isClosed v :=
            isClosed_iff.2 ⟨g', hg', hrun'.trans hgr, hcs'.trans hcs⟩
          exact hreg.closed v hclosed entry hmem ((hback hsocket).resolve_right hvw)
    · rw [hregistrations, hsessions, List.length_append, hreg.length]
      rfl
    · intro x hx
      rw [hhandlers, List.length_set]
      rw [hregistrations] at hx
      obtain hx | hx := List.mem_append.1 hx
      · exact hreg.sockets x hx
      · rw [List.mem_singleton.1 hx]
        exact hlt

/-- The state after a handler has cleaned up. -/
theorem step_unregister {h : WsHandler} {cs : ClientSession}
    (hw : reg.broker.handlers[w]? = some h) (hrun : h.running = false)
    (hcs : h.cs.bind (reg.broker.sessions[·]?) = some cs) :
    reg.step (.broker (.unregister w)) =
      ⟨{ reg.broker with
          connections := reg.broker.connections.unregister (cs.sessionId, cs.clientId)
          handlers := reg.broker.handlers.set w { h with cs := none } }, reg.registrations⟩ := by
  have hf : reg.broker.handlers[w]?.filter (!·.running) = some h := by
    simp [hw, hrun, Option.filter]
  simp only [RegistrySys.step, BrokerSys.step, registered, hf, hcs, List.append_nil]

theorem step_unregister_of_none
    (hno : ∀ h cs, reg.broker.handlers[w]? = some h → !h.running →
      h.cs.bind (reg.broker.sessions[·]?) ≠ some cs) :
    reg.step (.broker (.unregister w)) = reg := by
  simp only [RegistrySys.step, BrokerSys.step, registered, List.append_nil]
  split
  next => rfl
  next h hf =>
    obtain ⟨hw, hrun⟩ := Option.filter_eq_some_iff.1 hf
    split
    next => rfl
    next cs hcs => exact (hno h cs hw hrun hcs).elim

theorem unregister (hreg : Registered reg) (hok : reg.keepsRegistry (.broker (.unregister w))) :
    Registered (reg.step (.broker (.unregister w))) := by
  by_cases hex : ∃ h cs, reg.broker.handlers[w]? = some h ∧ h.running = false ∧
      h.cs.bind (reg.broker.sessions[·]?) = some cs
  · obtain ⟨h, cs, hw, hrun, hcs⟩ := hex
    obtain ⟨hown, hlast⟩ := hok h cs hw (by rw [hrun]; rfl) hcs
    obtain ⟨hlt, -⟩ := List.getElem?_eq_some_iff.1 hw
    rw [step_unregister hw hrun hcs]
    -- the entries of the other keys stay, and the other handlers
    have hhandler {v : Nat} {g : WsHandler}
        (hg : (reg.broker.handlers.set w { h with cs := none })[v]? = some g) :
        v = w ∧ g.running = false ∨ reg.broker.handlers[v]? = some g := by
      by_cases hvw : w = v
      · subst hvw
        rw [List.getElem?_set_self hlt] at hg
        cases hg
        exact .inl ⟨rfl, hrun⟩
      · rw [List.getElem?_set_ne hvw] at hg
        exact .inr hg
    constructor
    · constructor
      · intro s v hl hv
        obtain ⟨g, hg, hgr⟩ := isConnected_iff.1 hv
        have hconnected : reg.isConnected v := by
          obtain ⟨-, hgr'⟩ | hg := hhandler hg
          · rw [hgr] at hgr'
            cases hgr'
          · exact isConnected_iff.2 ⟨g, hg, hgr⟩
        by_cases hs : s = cs.sessionId
        · subst hs
          obtain ⟨entry, hmem, hid, hne, hsocket⟩ := hlast v hl hconnected
          exact ⟨entry, ClientConnections.mem_unregister.2 ⟨hmem, hne⟩, hid, hsocket⟩
        · obtain ⟨entry, hmem, hid, hsocket⟩ := hreg.last s v hl hconnected
          refine ⟨entry, ClientConnections.mem_unregister.2 ⟨hmem, ?_⟩, hid, hsocket⟩
          intro hkey
          exact hs (by rw [← hid, hkey])
      · intro v hv entry hmem hsocket
        obtain ⟨hstays, hne⟩ := ClientConnections.mem_unregister.1 hmem
        obtain ⟨g, hg, hgr, hgcs⟩ := isClosed_iff.1 hv
        obtain ⟨rfl, -⟩ | hg := hhandler hg
        · exact hne (hown entry hstays hsocket)
        · exact hreg.closed v (isClosed_iff.2 ⟨g, hg, hgr, hgcs⟩) entry hstays hsocket
    · exact hreg.length
    · intro x hx
      rw [List.length_set]
      exact hreg.sockets x hx
  · rw [step_unregister_of_none]
    · exact hreg
    · exact fun h cs hw hrun hcs => hex ⟨h, cs, hw, by simpa using hrun, hcs⟩

theorem cleanupFails (hreg : Registered reg) (hok : reg.keepsRegistry (.cleanupFails w)) :
    Registered (reg.step (.cleanupFails w)) := by
  unfold RegistrySys.step
  dsimp only
  split
  next => exact hreg
  next h hc =>
    obtain ⟨hw, hp⟩ := Option.filter_eq_some_iff.1 hc
    refine hreg.of_set hw rfl rfl rfl rfl id fun _ _ => .inr (hok ?_)
    rw [hc]
    rfl

/-- A handler's loop ends: it goes on to clean up, or returns. -/
theorem closeHandler (hreg : Registered reg) {h : WsHandler}
    (hw : reg.broker.handlers[w]? = some h) (hok : h.cs = none → reg.OwnsNothing w) :
    Registered ⟨reg.broker.closeHandler w h, reg.registrations⟩ := by
  obtain ⟨hconnections, hhandlers, hsessions⟩ := closeHandler_frame reg.broker w h
  exact hreg.of_set hw hconnections rfl hsessions hhandlers (fun hrun => by cases hrun)
    fun _ hcs => .inr (hok hcs)

theorem isCall {e : BrokerEvent} (hreg : Registered reg) (he : e.isCall) :
    Registered (reg.step (.broker e)) := by
  obtain ⟨hconnections, hhandlers, hsessions⟩ := step_isCall_frame reg.broker he
  refine hreg.of_same hconnections ?_ hsessions hhandlers
  cases e with
  | broker | sent | wake | timeout => exact List.append_nil _
  | _ => cases he

theorem step {e : RegistryEvent} (hreg : Registered reg) (hok : reg.keepsRegistry e) :
    Registered (reg.step e) := by
  cases e with
  | cleanupFails w => exact hreg.cleanupFails hok
  | broker e =>
    cases e with
    | accept => exact hreg.accept
    | sessionInit => exact hreg.sessionInit
    | unregister => exact hreg.unregister hok
    | invalidInit w =>
      simp only [RegistrySys.step, BrokerSys.step, registered, List.append_nil]
      split
      next => exact hreg
      next h hl =>
        obtain ⟨hw, hrun, -⟩ := listening_eq_some hl
        refine hreg.of_set hw rfl rfl rfl rfl id fun hno => ?_
        rw [hrun] at hno
        cases hno
    | sessionAck w sent =>
      simp only [RegistrySys.step, BrokerSys.step, registered, List.append_nil]
      split
      next => exact hreg
      next h hf =>
        obtain ⟨hw, hacking⟩ := Option.filter_eq_some_iff.1 hf
        cases sent with
        | false => exact hreg.closeHandler hw (hok h hw hacking)
        | true =>
          refine hreg.of_set hw rfl rfl rfl rfl id fun _ hno => ?_
          rw [Option.isSome_iff_ne_none] at hacking
          exact (hacking hno).elim
    | close w =>
      simp only [RegistrySys.step, BrokerSys.step, registered, List.append_nil]
      split
      next => exact hreg
      next h hl => exact hreg.closeHandler (listening_eq_some hl).1 (hok h hl)
    | message w answers callId msg now =>
      obtain ⟨hconnections, hsessions, hhandlers | ⟨h, hw, hcs, hhandlers⟩⟩ :=
        step_message_frame reg.broker w answers callId msg now
      · exact hreg.of_same hconnections (List.append_nil _) hsessions hhandlers
      · refine hreg.of_set hw hconnections (List.append_nil _) hsessions hhandlers
          (fun hrun => by cases hrun) fun _ hno => ?_
        rw [Option.isSome_iff_ne_none] at hcs
        exact (hcs hno).elim
    | broker | sent | wake | timeout => exact hreg.isCall rfl

/-- A handler that has returned has left no entry behind. -/
theorem ownsNothing_of_returned {reg' : RegistrySys} {h h' : WsHandler}
    (hright : WellRegistered reg') (hw : reg.broker.handlers[w]? = some h)
    (hconnections : reg'.broker.connections = reg.broker.connections)
    (hregistrations : reg'.registrations = reg.registrations)
    (hhandlers : reg'.broker.handlers = reg.broker.handlers.set w h')
    (hrun : h'.running = false) (hcs : h'.cs = none) : reg.OwnsNothing w := by
  obtain ⟨hlt, -⟩ := List.getElem?_eq_some_iff.1 hw
  have hclosed : reg'.isClosed w := by
    refine isClosed_iff.2 ⟨h', ?_, hrun, hcs⟩
    rw [hhandlers, List.getElem?_set_self hlt]
  intro entry hmem hsocket
  refine hright.closed w hclosed entry (hconnections ▸ hmem) ?_
  rw [socket, hregistrations]
  exact hsocket

/-- A step after which the registry is right meets the guard. -/
theorem keeps {e : RegistryEvent} (hright : WellRegistered (reg.step e)) : reg.keepsRegistry e := by
  cases e with
  | cleanupFails w =>
    intro hc
    obtain ⟨h, hc⟩ := Option.isSome_iff_exists.1 hc
    obtain ⟨hw, hp⟩ := Option.filter_eq_some_iff.1 hc
    simp only [Bool.and_eq_true, Bool.not_eq_true'] at hp
    simp only [RegistrySys.step, hc] at hright
    exact ownsNothing_of_returned hright hw rfl rfl rfl hp.1 rfl
  | broker e =>
    cases e with
    | close w =>
      intro h hl hcs
      have hstep : reg.step (.broker (.close w)) =
          ⟨reg.broker.closeHandler w h, reg.registrations⟩ := by
        simp [RegistrySys.step, BrokerSys.step, registered, hl]
      rw [hstep] at hright
      obtain ⟨hconnections, hhandlers, -⟩ := closeHandler_frame reg.broker w h
      exact ownsNothing_of_returned hright (listening_eq_some hl).1 hconnections rfl hhandlers rfl
          hcs
    | sessionAck w sent =>
      cases sent with
      | true => trivial
      | false =>
        intro h hw hacking hcs
        have hf : reg.broker.handlers[w]?.filter (·.acking.isSome) = some h :=
          Option.filter_eq_some_iff.2 ⟨hw, hacking⟩
        have hstep : reg.step (.broker (.sessionAck w false)) =
            ⟨reg.broker.closeHandler w h, reg.registrations⟩ := by
          simp [RegistrySys.step, BrokerSys.step, registered, hf]
        rw [hstep] at hright
        obtain ⟨hconnections, hhandlers, -⟩ := closeHandler_frame reg.broker w h
        exact ownsNothing_of_returned hright hw hconnections rfl hhandlers rfl hcs
    | unregister w =>
      intro h cs hw hrun hcs
      have hrun : h.running = false := by simpa using hrun
      obtain ⟨hlt, -⟩ := List.getElem?_eq_some_iff.1 hw
      rw [step_unregister hw hrun hcs] at hright
      constructor
      · intro entry hmem hsocket
        by_contra hne
        refine hright.closed w ?_ entry (ClientConnections.mem_unregister.2 ⟨hmem, hne⟩) hsocket
        exact isClosed_iff.2 ⟨_, List.getElem?_set_self hlt, hrun, rfl⟩
      · intro v hlast hv
        obtain ⟨g, hg, hgr⟩ := isConnected_iff.1 hv
        have hvw : w ≠ v := by
          rintro rfl
          rw [hw] at hg
          cases hg
          rw [hrun] at hgr
          cases hgr
        obtain ⟨entry, hmem, hid, hsocket⟩ := hright.last cs.sessionId v hlast
          (isConnected_iff.2 ⟨g, (List.getElem?_set_ne hvw).trans hg, hgr⟩)
        obtain ⟨hmem, hne⟩ := ClientConnections.mem_unregister.1 hmem
        exact ⟨entry, hmem, hid, hne, hsocket⟩
    | _ => trivial

end Registered

/-- The registry is right all along a run exactly if every handler removes its own entries when it
ends, and no other. -/
theorem wellRegistered_iff {es : List RegistryEvent} :
    Always RegistrySys.step WellRegistered .fresh es ↔
      Guarded RegistrySys.step RegistrySys.keepsRegistry .fresh es := by
  refine always_iff_guarded_of_invariant (I := Registered) (fun _ h => h.toWellRegistered)
    (fun _ _ h hok => h.step hok) (fun _ _ _ hright => Registered.keeps hright) ?_
  constructor
  · constructor
    · intro sessionId w h
      cases h
    · intro w _ entry h
      cases h
  · rfl
  · intro x h
    cases h

/-- A client connects again before its first socket is closed: the end of the first socket removes
the entry of the second. -/
theorem not_wellRegistered_reconnect : ¬ ∀ es : List RegistryEvent,
    Always RegistrySys.step WellRegistered .fresh es := by
  intro h
  have hright := h [.broker .accept, .broker (.sessionInit 0 "s" "agent"),
    .broker (.sessionAck 0 true), .broker .accept, .broker (.sessionInit 1 "s" "agent"),
    .broker (.sessionAck 1 true), .broker (.close 0), .broker (.unregister 0)] _ List.prefix_rfl
  obtain ⟨entry, hmem, -⟩ := hright.last "s" 1 (by decide) (by decide)
  cases hmem

end LlmPort.Gateway
