import LlmPort.Gateway.ClientRegistry
import LlmPort.Gateway.SessionRetry
import LlmPort.Gateway.StreamBuffer
import LlmPort.Gateway.ToolAvailability

/-!
# Who obtains what of a session

The endpoints of `web/api/v1/views.py` that take a session id, over one gateway: the database, the
stream buffer and the registry of client connections. What a step hands to a caller is recorded with
the session it is of; a caller is known by the token of the request, or as the one who opened the
socket.
-/

namespace LlmPort.Gateway

open Transition

/-- `str(uuid)` -/
def uuidText (id : SessionUuid) : String :=
  let digits := (List.range 32).map fun i => Nat.digitChar (id.toNat / 16 ^ (31 - i) % 16)
  String.ofList (digits.take 8 ++ '-' :: (digits.drop 8).take 4 ++ '-' :: (digits.drop 12).take 4 ++
    '-' :: (digits.drop 16).take 4 ++ '-' :: digits.drop 20)

/-- Two numbers of `k` hexadecimal digits that agree in each are equal. -/
theorem eq_of_hexDigits {k a b : Nat} (ha : a < 16 ^ k) (hb : b < 16 ^ k)
    (h : ∀ i < k, a / 16 ^ i % 16 = b / 16 ^ i % 16) : a = b := by
  induction k generalizing a b with
  | zero => omega
  | succ k ih =>
    have hlow : a % 16 = b % 16 := by simpa using h 0 (Nat.succ_pos k)
    have hhigh : a / 16 = b / 16 := by
      rw [Nat.pow_succ] at ha hb
      refine ih (Nat.div_lt_of_lt_mul (by omega)) (Nat.div_lt_of_lt_mul (by omega)) fun i hi => ?_
      rw [Nat.div_div_eq_div_mul, Nat.div_div_eq_div_mul, ← Nat.pow_succ']
      exact h (i + 1) (Nat.succ_lt_succ hi)
    omega

theorem digitChar_inj {m n : Nat} (hm : m < 16) (hn : n < 16) (h : m.digitChar = n.digitChar) :
    m = n := by
  have hall : ∀ m n : Fin 16, m.val.digitChar = n.val.digitChar → m = n := by decide
  exact congrArg Fin.val (hall ⟨m, hm⟩ ⟨n, hn⟩ h)

theorem take_drop_groups {α : Type} (l : List α) : l.take 8 ++ ((l.drop 8).take 4 ++
    ((l.drop 12).take 4 ++ ((l.drop 16).take 4 ++ l.drop 20))) = l := by
  have hgroup (n : Nat) : (l.drop n).take 4 ++ l.drop (n + 4) = l.drop n := by
    rw [← List.drop_drop]
    exact List.take_append_drop ..
  rw [hgroup 16, hgroup 12, hgroup 8, List.take_append_drop]

theorem uuidText_injective : Function.Injective uuidText := by
  intro a b h
  have hgroups := String.ofList_injective h
  obtain ⟨hgroups, h5⟩ := List.append_inj' hgroups (by simp)
  obtain ⟨hgroups, h4⟩ := List.append_inj' hgroups (by simp)
  obtain ⟨hgroups, h3⟩ := List.append_inj' hgroups (by simp)
  obtain ⟨h1, h2⟩ := List.append_inj' hgroups (by simp)
  have hdigits := congrArg₂ (· ++ ·) h1 (congrArg₂ (· ++ ·) (List.tail_eq_of_cons_eq h2)
    (congrArg₂ (· ++ ·) (List.tail_eq_of_cons_eq h3) (congrArg₂ (· ++ ·)
      (List.tail_eq_of_cons_eq h4) (List.tail_eq_of_cons_eq h5))))
  simp only [take_drop_groups] at hdigits
  have hlt (id : SessionUuid) : id.toNat < 16 ^ 32 := Nat.lt_of_lt_of_eq id.isLt (by decide)
  refine BitVec.eq_of_toNat_eq (eq_of_hexDigits (hlt a) (hlt b) fun i hi => ?_)
  have hchar := List.map_inj_left.1 hdigits (31 - i) (List.mem_range.2 (by omega))
  have hi' : 31 - (31 - i) = i := by omega
  rw [hi'] at hchar
  exact digitChar_inj (Nat.mod_lt _ (by decide)) (Nat.mod_lt _ (by decide)) hchar
structure StreamSubscriber where
  caller : AuthContext
  sessionId : SessionUuid
  iterator : AsyncSSEIterator

structure IsolationSys where
  db : CatalogDb
  /-- The logs, summaries and so on, by session. -/
  contexts : SessionUuid → SessionState
  buffers : SessionUuid → StreamBuffer
  /-- The streamed chats, with the session of each. -/
  streams : List (AuthContext × SessionUuid)
  subscribers : List StreamSubscriber
  registry : RegistrySys
  /-- Who opened each socket. -/
  callers : List AuthContext

inductive IsolationEvent where
  | createSession (row : ChatSession)
  | updateSession (caller : AuthContext) (id : SessionUuid) (status : SessionStatus)
  | chat (caller : AuthContext) (id : SessionUuid) (run : InjectionRun)
    (messages : List RequestMessage) (stream : Bool)
  /-- The `n`th streamed chat has a chunk. -/
  | push (n : Nat) (chunk : Chunk)
  | finish (n : Nat) (now : Int)
  | cleanup (now : Int)
  | streamStatus (caller : AuthContext) (id : SessionUuid)
  | streamResume (caller : AuthContext) (id : SessionUuid)
  /-- The `k`th subscriber's iterator has a turn. -/
  | next (k : Nat)
  | toolsAvailable (caller : AuthContext) (id : SessionUuid)
    (mcpCatalog : Option (List McpCatalogEntry)) (includeDisabled includeUnavailable : Bool)
  | clientWs (caller : AuthContext)
  /-- A `session_init` whose tools the database accepts. -/
  | sessionInit (w : Nat) (id : SessionUuid) (clientId : String)
    (tools : List SessionClientCapability)
  /-- The model calls a tool of a client in a chat of the session. -/
  | toolCall (caller : AuthContext) (id : SessionUuid) (callId toolId : String)
    (timeout : BrokerTimeout) (now : Int)
  /-- Anything else that happens to sockets and brokered calls. -/
  | socket (e : RegistryEvent)

inductive SessionItem where
  | chunk (chunk : Chunk)
  | tool (dto : ToolAvailabilityDTO)
  | history (m : LoggedMessage)
  | toolCall (callId toolId : String)

/-- A caller obtains an item of a session. -/
structure Obtained where
  caller : AuthContext
  sessionId : SessionUuid
  item : SessionItem

/-- The events that are no others of the list. -/
def RegistryEvent.isPlain : RegistryEvent → Bool
  | .broker .accept | .broker (.sessionInit ..) | .broker (.broker ..) => false
  | _ => true

/-- `register_client_capabilities` -/
def CatalogDb.registerClientCapabilities (db : CatalogDb) (id : SessionUuid) (clientId : String)
    (tools : List SessionClientCapability) : CatalogDb :=
  { db with
    capabilities :=
      (db.capabilities.filter fun cap => ¬(cap.sessionId = id ∧ cap.clientId = clientId)) ++
        tools.map fun cap => { cap with sessionId := id, clientId } }

/-- `mark_client_tools_unavailable` -/
def CatalogDb.markClientToolsUnavailable (db : CatalogDb) (cs : ClientSession) : CatalogDb :=
  { db with
    capabilities := db.capabilities.map fun cap =>
      if uuidText cap.sessionId = cs.sessionId ∧ cap.clientId = cs.clientId then
        { cap with available := false }
      else cap }

namespace IsolationSys

/-- The client session that a handler cleans up. -/
def cleanedUp (sys : IsolationSys) : RegistryEvent → Option ClientSession
  | .broker (.unregister w) => (sys.registry.cleaningUp w).bind fun h =>
    h.cs.bind (sys.registry.broker.sessions[·]?)
  | _ => none

/-- The caller whose socket a tool call of the session goes to. -/
def receiver (sys : IsolationSys) (id : SessionUuid) : Option AuthContext := do
  let (c, _) ← sys.registry.broker.chosen (uuidText id)
  let w ← sys.registry.socket c
  sys.callers[w]?

def updateBuffer (sys : IsolationSys) (id : SessionUuid) (f : StreamBuffer → StreamBuffer) :
    IsolationSys :=
  { sys with buffers := Function.update sys.buffers id (f (sys.buffers id)) }

def step (sys : IsolationSys) : IsolationEvent → IsolationSys
  | .createSession row =>
    if sys.db.sessions.any (·.id = row.id) then sys
    else { sys with db := { sys.db with sessions := sys.db.sessions ++ [row] } }
  | .updateSession caller id status =>
    { sys with
      db := { sys.db with
        sessions := sys.db.sessions.map fun row =>
          if row.id = id && row.ownedBy caller then { row with status } else row } }
  | .chat caller id run messages stream =>
    match getSession sys.db.sessions id caller with
    | none => sys
    | some _ =>
      match injectSessionContext run.settings run.orders run.now run.newId (some (sys.contexts id))
          (injectRagContext run.search messages) with
      | some (_, some context) =>
        let sys := { sys with contexts := Function.update sys.contexts id context }
        if stream then
          { sys.updateBuffer id (·.start) with streams := sys.streams ++ [(caller, id)] }
        else sys
      | _ => sys
  | .push n chunk => match sys.streams[n]? with
    | none => sys
    | some (_, id) => sys.updateBuffer id (·.push chunk)
  | .finish n now => match sys.streams[n]? with
    | none => sys
    | some (_, id) => sys.updateBuffer id (·.finish now)
  | .cleanup now => { sys with buffers := fun id => (sys.buffers id).cleanup now }
  | .streamStatus _ _ => sys
  | .streamResume caller id =>
    if (sys.buffers id).entry.isSome then
      { sys with subscribers := sys.subscribers ++ [⟨caller, id, ⟨0⟩⟩] }
    else sys
  | .next k => match sys.subscribers[k]? with
    | none => sys
    | some sub => match sub.iterator.anext (sys.buffers sub.sessionId) with
      | .chunk _ =>
        let iterator : AsyncSSEIterator := ⟨sub.iterator.cursor + 1⟩
        { sys with subscribers := sys.subscribers.set k { sub with iterator } }
      | _ => sys
  | .toolsAvailable .. => sys
  | .clientWs caller =>
    { sys with
      registry := sys.registry.step (.broker .accept)
      callers := sys.callers ++ [caller] }
  | .sessionInit w id clientId tools =>
    if (sys.registry.broker.listening w).isSome ∧ sys.db.sessions.any (·.id = id) then
      { sys with
        db := sys.db.registerClientCapabilities id clientId tools
        registry := sys.registry.step (.broker (.sessionInit w (uuidText id) clientId)) }
    else sys
  | .toolCall caller id callId toolId timeout now =>
    match getSession sys.db.sessions id caller with
    | none => sys
    | some _ =>
      { sys with
        registry := sys.registry.step (.broker (.broker (uuidText id) callId toolId timeout now)) }
  | .socket e =>
    if e.isPlain then
      { sys with
        db := ((sys.cleanedUp e).map sys.db.markClientToolsUnavailable).getD sys.db
        registry := sys.registry.step e }
    else sys

/-- The tools that `GET /v1/tools/available` shows; it has the default policy engine. -/
def listing (sys : IsolationSys) (id : SessionUuid) (mcpCatalog : Option (List McpCatalogEntry))
    (includeDisabled includeUnavailable : Bool) : List ToolAvailabilityDTO :=
  (sys.db.getAvailableTools mcpCatalog (none : Option (PolicyEngine Unit)) id includeDisabled
    includeUnavailable).tools

/-- What a step hands out. -/
def obtains (sys : IsolationSys) : IsolationEvent → List Obtained
  | .chat caller id run _ _ =>
    if (getSession sys.db.sessions id caller).isSome then
      ((sys.contexts id).eligible run.settings run.orders).map (⟨caller, id, .history ·⟩)
    else []
  | .push n chunk => match sys.streams[n]? with
    | none => []
    | some (caller, id) => [⟨caller, id, .chunk chunk⟩]
  | .next k => match sys.subscribers[k]? with
    | none => []
    | some sub => match sub.iterator.anext (sys.buffers sub.sessionId) with
      | .chunk chunk => [⟨sub.caller, sub.sessionId, .chunk chunk⟩]
      | _ => []
  | .toolsAvailable caller id mcpCatalog includeDisabled includeUnavailable =>
    (sys.listing id mcpCatalog includeDisabled includeUnavailable).map (⟨caller, id, .tool ·⟩)
  | .toolCall caller id callId toolId _ _ =>
    if (getSession sys.db.sessions id caller).isSome then
      (sys.receiver id).toList.map (⟨·, id, .toolCall callId toolId⟩)
    else []
  | _ => []

/-- The session belongs to another caller. -/
def Foreign (sys : IsolationSys) (caller : AuthContext) (id : SessionUuid) : Prop :=
  ∃ row ∈ sys.db.sessions, row.id = id ∧ ¬ row.ownedBy caller

/-- No caller obtains anything of a session of another. -/
def Isolated (sys : IsolationSys) (e : IsolationEvent) : Prop :=
  ∀ x ∈ sys.obtains e, ¬ sys.Foreign x.caller x.sessionId

/-- The requests that no endpoint checks are of a caller whose session it is: to resume a buffered
stream, to list tools, and to register a socket. -/
def keepsIsolated (sys : IsolationSys) : IsolationEvent → Prop
  | .streamResume caller id => (sys.buffers id).entry.isSome → ¬ sys.Foreign caller id
  | .toolsAvailable caller id .. => ¬ sys.Foreign caller id
  | .sessionInit w id .. => (sys.registry.broker.listening w).isSome →
    ∀ opener, sys.callers[w]? = some opener → ¬ sys.Foreign opener id
  | _ => True

end IsolationSys

/-- A database in which a session id is of one row. -/
structure StoredDb extends CatalogDb where
  unique : (sessions.map (·.id)).Nodup

/-- A gateway that has just started. -/
def IsolationSys.boot (db : StoredDb) (contexts : SessionUuid → SessionState) : IsolationSys :=
  ⟨db.toCatalogDb, contexts, fun _ => .empty, [], [], .fresh, []⟩

section
variable {reg : RegistrySys} {n : Nat}

/-- What every step of a registry of `n` sockets preserves: each entry is under the session that its
client session was registered for. -/
structure Linked (reg : RegistrySys) (n : Nat) : Prop where
  handlers : reg.broker.handlers.length = n
  length : reg.registrations.length = reg.broker.sessions.length
  sockets : ∀ x ∈ reg.registrations, x.2 < n
  entries : ∀ entry ∈ reg.broker.connections, ∃ w,
    reg.registrations[entry.2]? = some (entry.1.1, w)

namespace Linked

variable {reg' : RegistrySys}

theorem of_frame (h : Linked reg n) (hregistrations : reg'.registrations = reg.registrations)
    (hsessions : reg'.broker.sessions.length = reg.broker.sessions.length)
    (hhandlers : reg'.broker.handlers.length = reg.broker.handlers.length)
    (hconnections : ∀ entry ∈ reg'.broker.connections, entry ∈ reg.broker.connections) :
    Linked reg' n := by
  constructor
  · exact hhandlers.trans h.handlers
  · rw [hregistrations, hsessions]
    exact h.length
  · rw [hregistrations]
    exact h.sockets
  · rw [hregistrations]
    exact fun entry hentry => h.entries entry (hconnections entry hentry)

theorem sessionInit {w : Nat} {sessionId : GatewaySessionId} {clientId : String}
    (h : Linked reg n) : Linked (reg.step (.broker (.sessionInit w sessionId clientId))) n := by
  rw [RegistrySys.step, RegistrySys.registered]
  cases hl : reg.broker.listening w with
  | none => simpa [BrokerSys.step, hl] using h
  | some handler =>
    have hw : w < n := by
      rw [← h.handlers]
      exact (List.getElem?_eq_some_iff.1 (Option.filter_eq_some_iff.1 hl).1).1
    constructor
    · simp [BrokerSys.step, hl, h.handlers]
    · simp [BrokerSys.step, hl, h.length]
    · intro x hx
      rcases List.mem_append.1 hx with hx | hx
      · exact h.sockets x hx
      · obtain rfl := List.mem_singleton.1 hx
        exact hw
    · intro entry hentry
      simp only [BrokerSys.step, hl] at hentry
      rcases ClientConnections.of_mem_register hentry with rfl | hentry
      · exact ⟨w, by simp [← h.length]⟩
      · obtain ⟨v, hv⟩ := h.entries entry hentry
        refine ⟨v, ?_⟩
        rw [List.getElem?_append_left (List.getElem?_eq_some_iff.1 hv).1]
        exact hv

theorem closeHandler {w : Nat} (h : Linked reg n) (handler : WsHandler) :
    Linked ⟨reg.broker.closeHandler w handler, reg.registrations⟩ n := by
  obtain ⟨hconnections, hhandlers, hsessions⟩ := closeHandler_frame reg.broker w handler
  refine h.of_frame rfl hsessions ?_ ?_
  · rw [hhandlers, List.length_set]
  · rw [hconnections]
    exact fun entry hentry => hentry

theorem of_set {w : Nat} {handler : WsHandler} {connections : ClientConnections} (h : Linked reg n)
    (hconnections : ∀ entry ∈ connections, entry ∈ reg.broker.connections) :
    Linked ⟨{ reg.broker with connections, handlers := reg.broker.handlers.set w handler },
      reg.registrations⟩ n := by
  refine h.of_frame rfl rfl ?_ hconnections
  rw [List.length_set]

theorem unregister {w : Nat} (h : Linked reg n) :
    Linked (reg.step (.broker (.unregister w))) n := by
  simp only [RegistrySys.step, BrokerSys.step, RegistrySys.registered, List.append_nil]
  split
  next => exact h
  next =>
    split
    next => exact h
    next => exact h.of_set fun entry hentry => (ClientConnections.mem_unregister.1 hentry).1

theorem message {w : Nat} {answers : Option Nat} {callId : String} {msg : ToolCallMessage}
    {now : Int} (h : Linked reg n) :
    Linked (reg.step (.broker (.message w answers callId msg now))) n := by
  obtain ⟨hconnections, hsessions, hhandlers⟩ :=
    step_message_frame reg.broker w answers callId msg now
  refine h.of_frame (List.append_nil _) hsessions ?_ ?_
  · obtain hhandlers | ⟨handler, -, -, hhandlers⟩ := hhandlers
    · rw [RegistrySys.step, hhandlers]
    · rw [RegistrySys.step, hhandlers, List.length_set]
  · rw [RegistrySys.step, hconnections]
    exact fun entry hentry => hentry

theorem isCall {e : BrokerEvent} (h : Linked reg n) (he : e.isCall) :
    Linked (reg.step (.broker e)) n := by
  obtain ⟨hconnections, hhandlers, hsessions⟩ := step_isCall_frame reg.broker he
  refine h.of_frame ?_ hsessions ?_ ?_
  · cases e with
    | broker | sent | wake | timeout => exact List.append_nil _
    | _ => cases he
  · rw [RegistrySys.step, hhandlers]
  · rw [RegistrySys.step, hconnections]
    exact fun entry hentry => hentry

theorem accept (h : Linked reg n) : Linked (reg.step (.broker .accept)) (n + 1) := by
  constructor
  · simp [RegistrySys.step, BrokerSys.step, h.handlers]
  · exact (congrArg List.length (List.append_nil _)).trans h.length
  · intro x hx
    simp only [RegistrySys.step, RegistrySys.registered, List.append_nil] at hx
    exact Nat.lt_succ_of_lt (h.sockets x hx)
  · intro entry hentry
    simp only [RegistrySys.step, RegistrySys.registered, List.append_nil]
    exact h.entries entry hentry

theorem step {e : RegistryEvent} (h : Linked reg n) (he : e ≠ .broker .accept) :
    Linked (reg.step e) n := by
  cases e with
  | cleanupFails w =>
    unfold RegistrySys.step
    dsimp only
    split
    next => exact h
    next => exact h.of_set fun entry hentry => hentry
  | broker e =>
    cases e with
    | accept => exact (he rfl).elim
    | sessionInit => exact h.sessionInit
    | unregister => exact h.unregister
    | message => exact h.message
    | invalidInit w =>
      simp only [RegistrySys.step, BrokerSys.step, RegistrySys.registered, List.append_nil]
      split
      next => exact h
      next => exact h.of_set fun entry hentry => hentry
    | sessionAck w sent =>
      simp only [RegistrySys.step, BrokerSys.step, RegistrySys.registered, List.append_nil]
      split
      next => exact h
      next =>
        cases sent with
        | false => exact h.closeHandler _
        | true => exact h.of_set fun entry hentry => hentry
    | close w =>
      simp only [RegistrySys.step, BrokerSys.step, RegistrySys.registered, List.append_nil]
      split
      next => exact h
      next => exact h.closeHandler _
    | broker | sent | wake | timeout => exact h.isCall rfl

end Linked

/-- A tool call goes to a socket that registered for its session. -/
theorem registration_of_chosen {sessionId : GatewaySessionId} {c w : Nat} {cs : ClientSession}
    (h : Linked reg n) (hchosen : reg.broker.chosen sessionId = some (c, cs))
    (hw : reg.socket c = some w) : (sessionId, w) ∈ reg.registrations := by
  obtain ⟨_, hany, hcs⟩ := Option.bind_eq_some_iff.1 hchosen
  obtain ⟨_, -, hc⟩ := Option.bind_eq_some_iff.1 hcs
  cases hc
  obtain ⟨entry, hfind, rfl⟩ := Option.map_eq_some_iff.1 hany
  have hid := List.find?_some hfind
  simp only [Bool.and_eq_true, decide_eq_true_eq] at hid
  obtain ⟨v, hv⟩ := h.entries entry (List.mem_of_find?_eq_some hfind)
  rw [RegistrySys.socket, hv] at hw
  cases hw
  rw [← hid.1]
  exact List.mem_of_getElem? hv

end

/-- What the guarded steps preserve: what was streamed, is subscribed to or was registered belongs
to who streamed it, subscribed or opened the socket. -/
structure OwnersKept (sys : IsolationSys) : Prop where
  unique : (sys.db.sessions.map (·.id)).Nodup
  streams : ∀ x ∈ sys.streams, verifySessionOwnership sys.db.sessions x.2 x.1
  buffers : ∀ id, (sys.buffers id).entry.isSome → ∃ row ∈ sys.db.sessions, row.id = id
  subscribers : ∀ sub ∈ sys.subscribers,
    verifySessionOwnership sys.db.sessions sub.sessionId sub.caller
  linked : Linked sys.registry sys.callers.length
  registrations : ∀ x ∈ sys.registry.registrations, ∀ opener, sys.callers[x.2]? = some opener →
    ∃ id, x.1 = uuidText id ∧ verifySessionOwnership sys.db.sessions id opener

section
variable {sys sys' : IsolationSys} {e : IsolationEvent} {caller : AuthContext} {id : SessionUuid}

theorem not_foreign (h : OwnersKept sys)
    (howner : verifySessionOwnership sys.db.sessions id caller) : ¬ sys.Foreign caller id := by
  obtain ⟨row, hrow, hid, hown⟩ := verifySessionOwnership_iff.1 howner
  rintro ⟨row', hrow', hid', hno⟩
  have hsame : row' = row :=
    List.inj_on_of_nodup_map h.unique hrow' hrow (hid'.trans hid.symm)
  exact hno (hsame ▸ hown)

theorem owned_of_not_foreign {row : ChatSession} (hrow : row ∈ sys.db.sessions)
    (hid : row.id = id) (hno : ¬ sys.Foreign caller id) :
    verifySessionOwnership sys.db.sessions id caller := by
  by_contra hnot
  refine hno ⟨row, hrow, hid, fun howned => hnot ?_⟩
  exact verifySessionOwnership_iff.2 ⟨row, hrow, hid, howned⟩

/-! ## What a step hands out -/

/-- The socket that a tool call goes to was opened by the owner of the session. -/
theorem owned_of_receiver {receiver : AuthContext} (h : OwnersKept sys)
    (hreceiver : sys.receiver id = some receiver) :
    verifySessionOwnership sys.db.sessions id receiver := by
  obtain ⟨⟨c, cs⟩, hchosen, hsocket⟩ := Option.bind_eq_some_iff.1 hreceiver
  obtain ⟨w, hw, hopener⟩ := Option.bind_eq_some_iff.1 hsocket
  obtain ⟨id', htext, howner⟩ :=
    h.registrations _ (registration_of_chosen h.linked hchosen hw) receiver hopener
  rwa [uuidText_injective htext]

theorem OwnersKept.isolated (h : OwnersKept sys) (hok : sys.keepsIsolated e) : sys.Isolated e := by
  intro x hx
  cases e with
  | chat caller id run messages stream =>
    simp only [IsolationSys.obtains] at hx
    split at hx
    next hget =>
      obtain ⟨m, -, rfl⟩ := List.mem_map.1 hx
      exact not_foreign h (verifySessionOwnership_of_getSession hget)
    next => cases hx
  | push n chunk =>
    simp only [IsolationSys.obtains] at hx
    split at hx
    next => cases hx
    next caller id hn =>
      obtain rfl := List.mem_singleton.1 hx
      exact not_foreign h (h.streams (caller, id) (List.mem_of_getElem? hn))
  | next k =>
    simp only [IsolationSys.obtains] at hx
    split at hx
    next => cases hx
    next sub hk =>
      split at hx
      next =>
        obtain rfl := List.mem_singleton.1 hx
        exact not_foreign h (h.subscribers sub (List.mem_of_getElem? hk))
      next => cases hx
  | toolsAvailable caller id mcpCatalog includeDisabled includeUnavailable =>
    obtain ⟨dto, -, rfl⟩ := List.mem_map.1 hx
    exact hok
  | toolCall caller id callId toolId timeout now =>
    simp only [IsolationSys.obtains] at hx
    split at hx
    next =>
      obtain ⟨receiver, hreceiver, rfl⟩ := List.mem_map.1 hx
      exact not_foreign h (owned_of_receiver h (Option.mem_toList.1 hreceiver))
    next => cases hx
  | _ => cases hx

/-! ## Steps that keep the owners -/

namespace OwnersKept

/-- The sessions change, but no id and no owner. -/
theorem of_sessions {db : CatalogDb} (h : OwnersKept sys)
    (hunique : (db.sessions.map (·.id)).Nodup)
    (hkeeps : ∀ row ∈ sys.db.sessions, ∃ row' ∈ db.sessions, row'.id = row.id ∧
      ∀ caller, row'.ownedBy caller = row.ownedBy caller) : OwnersKept { sys with db } := by
  have howner {caller : AuthContext} {id : SessionUuid}
      (ho : verifySessionOwnership sys.db.sessions id caller) :
      verifySessionOwnership db.sessions id caller := by
    obtain ⟨row, hrow, hid, hown⟩ := verifySessionOwnership_iff.1 ho
    obtain ⟨row', hrow', hid', hsame⟩ := hkeeps row hrow
    exact verifySessionOwnership_iff.2 ⟨row', hrow', hid'.trans hid, (hsame caller).trans hown⟩
  constructor
  · exact hunique
  · exact fun x hx => howner (h.streams x hx)
  · intro id hentry
    obtain ⟨row, hrow, hid⟩ := h.buffers id hentry
    obtain ⟨row', hrow', hid', -⟩ := hkeeps row hrow
    exact ⟨row', hrow', hid'.trans hid⟩
  · exact fun sub hsub => howner (h.subscribers sub hsub)
  · exact h.linked
  · intro x hx opener hopener
    obtain ⟨id, htext, ho⟩ := h.registrations x hx opener hopener
    exact ⟨id, htext, howner ho⟩

theorem createSession {row : ChatSession} (h : OwnersKept sys) :
    OwnersKept (sys.step (.createSession row)) := by
  simp only [IsolationSys.step]
  split
  next => exact h
  next hnew =>
    refine h.of_sessions ?_ fun row' hrow' =>
      ⟨row', List.mem_append_left _ hrow', rfl, fun _ => rfl⟩
    rw [List.map_append, List.nodup_append']
    refine ⟨h.unique, List.nodup_singleton _, ?_⟩
    rintro _ hmem hrow
    obtain ⟨row', hrow', rfl⟩ := List.mem_map.1 hmem
    exact hnew (List.any_eq_true.2 ⟨row', hrow', decide_eq_true (List.mem_singleton.1 hrow)⟩)

theorem updateSession {status : SessionStatus} (h : OwnersKept sys) :
    OwnersKept (sys.step (.updateSession caller id status)) := by
  simp only [IsolationSys.step]
  refine h.of_sessions ?_ fun row hrow => ⟨_, List.mem_map.2 ⟨row, hrow, rfl⟩, ?_⟩
  · rw [List.map_map]
    have hsame : ((·.id) ∘ fun row : ChatSession =>
        if row.id = id && row.ownedBy caller then { row with status } else row) = (·.id) := by
      funext row
      dsimp only [Function.comp_apply]
      split <;> rfl
    rw [hsame]
    exact h.unique
  · split
    next => exact ⟨rfl, fun _ => rfl⟩
    next => exact ⟨rfl, fun _ => rfl⟩

/-- A buffer changes, of a session that exists. -/
theorem updateBuffer {f : StreamBuffer → StreamBuffer} (h : OwnersKept sys)
    (hf : ((f (sys.buffers id)).entry.isSome → ∃ row ∈ sys.db.sessions, row.id = id)) :
    OwnersKept (sys.updateBuffer id f) := by
  refine { h with buffers := fun id' hentry => ?_ }
  rcases eq_or_ne id' id with rfl | hne
  · exact hf (by simpa [IsolationSys.updateBuffer] using hentry)
  · exact h.buffers id' (by simpa [IsolationSys.updateBuffer, hne] using hentry)

theorem chat {run : InjectionRun} {messages : List RequestMessage} {stream : Bool}
    (h : OwnersKept sys) : OwnersKept (sys.step (.chat caller id run messages stream)) := by
  simp only [IsolationSys.step]
  split
  next => exact h
  next session hget =>
    split
    next context _ =>
      have hcontext : OwnersKept { sys with contexts := Function.update sys.contexts id context } :=
        { h with }
      split
      next =>
        obtain ⟨hrow, hid, -⟩ := getSession_eq_some hget
        have howner : verifySessionOwnership sys.db.sessions id caller :=
          verifySessionOwnership_of_getSession (by rw [hget]; rfl)
        have hexists : ∃ row ∈ sys.db.sessions, row.id = id := ⟨session, hrow, hid⟩
        refine { hcontext.updateBuffer (f := (·.start)) fun _ => hexists with
          streams := fun x hx => ?_ }
        rcases List.mem_append.1 hx with hx | hx
        · exact h.streams x hx
        · obtain rfl := List.mem_singleton.1 hx
          exact howner
      next => exact hcontext
    next => exact h

/-- The buffer of a streamed chat changes. -/
theorem updateStream {n : Nat} {x : AuthContext × SessionUuid} {f : StreamBuffer → StreamBuffer}
    (h : OwnersKept sys) (hn : sys.streams[n]? = some x) : OwnersKept (sys.updateBuffer x.2 f) := by
  have howner := h.streams x (List.mem_of_getElem? hn)
  obtain ⟨row, hrow, hid, -⟩ := verifySessionOwnership_iff.1 howner
  exact h.updateBuffer fun _ => ⟨row, hrow, hid⟩

theorem cleanup {now : Int} (h : OwnersKept sys) : OwnersKept (sys.step (.cleanup now)) := by
  refine { h with buffers := fun id hentry => ?_ }
  obtain ⟨entry, hentry⟩ := Option.isSome_iff_exists.1 hentry
  obtain ⟨hentry, -⟩ := Option.filter_eq_some_iff.1 hentry
  exact h.buffers id (by rw [hentry]; rfl)

theorem streamResume (h : OwnersKept sys) (hok : sys.keepsIsolated (.streamResume caller id)) :
    OwnersKept (sys.step (.streamResume caller id)) := by
  simp only [IsolationSys.step]
  split
  next hentry =>
    refine { h with subscribers := fun sub hsub => ?_ }
    rcases List.mem_append.1 hsub with hsub | hsub
    · exact h.subscribers sub hsub
    · obtain rfl := List.mem_singleton.1 hsub
      obtain ⟨row, hrow, hid⟩ := h.buffers id hentry
      exact owned_of_not_foreign hrow hid (hok hentry)
  next => exact h

theorem next {k : Nat} (h : OwnersKept sys) : OwnersKept (sys.step (.next k)) := by
  simp only [IsolationSys.step]
  split
  next => exact h
  next sub hk =>
    split
    next =>
      refine { h with subscribers := fun sub' hsub => ?_ }
      rcases List.mem_or_eq_of_mem_set hsub with hsub | rfl
      · exact h.subscribers sub' hsub
      · exact h.subscribers sub (List.mem_of_getElem? hk)
    next => exact h

theorem clientWs (h : OwnersKept sys) : OwnersKept (sys.step (.clientWs caller)) := by
  refine { h with linked := ?_, registrations := fun x hx opener hopener => ?_ }
  · simpa [IsolationSys.step] using h.linked.accept
  · simp only [IsolationSys.step, RegistrySys.step, RegistrySys.registered, List.append_nil]
      at hx hopener
    rw [List.getElem?_append_left (h.linked.sockets x hx)] at hopener
    exact h.registrations x hx opener hopener

theorem sessionInit {w : Nat} {clientId : String} {tools : List SessionClientCapability}
    (h : OwnersKept sys) (hok : sys.keepsIsolated (.sessionInit w id clientId tools)) :
    OwnersKept (sys.step (.sessionInit w id clientId tools)) := by
  simp only [IsolationSys.step]
  split
  next hinit =>
    obtain ⟨hlistening, hrow⟩ := hinit
    refine { h with
      linked := h.linked.step (e := .broker (.sessionInit w (uuidText id) clientId))
        fun he => by cases he
      registrations := fun x hx opener hopener => ?_ }
    simp only [RegistrySys.step, RegistrySys.registered, hlistening, if_true] at hx
    rcases List.mem_append.1 hx with hx | hx
    · exact h.registrations x hx opener hopener
    · obtain rfl := List.mem_singleton.1 hx
      obtain ⟨row, hrow, hid⟩ := List.any_eq_true.1 hrow
      exact ⟨id, rfl, owned_of_not_foreign hrow (of_decide_eq_true hid)
        (hok hlistening opener hopener)⟩
  next => exact h

/-- An event of the registry that registers nothing. -/
theorem of_registry {e : RegistryEvent} {db : CatalogDb} (h : OwnersKept sys)
    (he : e ≠ .broker .accept) (hdb : db.sessions = sys.db.sessions)
    (hregistrations : (sys.registry.step e).registrations = sys.registry.registrations) :
    OwnersKept { sys with db, registry := sys.registry.step e } := by
  have hsessions : OwnersKept { sys with db } :=
    h.of_sessions (by rw [hdb]; exact h.unique) fun row hrow =>
      ⟨row, by rwa [hdb], rfl, fun _ => rfl⟩
  refine { hsessions with linked := h.linked.step he, registrations := fun x hx => ?_ }
  rw [hregistrations] at hx
  exact hsessions.registrations x hx

theorem toolCall {callId toolId : String} {timeout : BrokerTimeout} {now : Int}
    (h : OwnersKept sys) :
    OwnersKept (sys.step (.toolCall caller id callId toolId timeout now)) := by
  simp only [IsolationSys.step]
  split
  next => exact h
  next => exact h.of_registry (fun he => by cases he) rfl (List.append_nil _)

theorem socket {e : RegistryEvent} (h : OwnersKept sys) : OwnersKept (sys.step (.socket e)) := by
  simp only [IsolationSys.step]
  split
  next hplain =>
    refine h.of_registry (fun he => by rw [he] at hplain; cases hplain) ?_ ?_
    · cases sys.cleanedUp e with
      | none => rfl
      | some cs => rfl
    · cases e with
      | cleanupFails w =>
        simp only [RegistrySys.step]
        split <;> rfl
      | broker e =>
        cases e with
        | accept | sessionInit | broker => cases hplain
        | _ => exact List.append_nil _
  next => exact h

theorem step (h : OwnersKept sys) (hok : sys.keepsIsolated e) : OwnersKept (sys.step e) := by
  cases e with
  | createSession => exact h.createSession
  | updateSession => exact h.updateSession
  | chat => exact h.chat
  | push n chunk =>
    simp only [IsolationSys.step]
    split
    next => exact h
    next hn => exact h.updateStream hn
  | finish n now =>
    simp only [IsolationSys.step]
    split
    next => exact h
    next hn => exact h.updateStream hn
  | cleanup => exact h.cleanup
  | streamStatus => exact h
  | streamResume => exact h.streamResume hok
  | next => exact h.next
  | toolsAvailable => exact h
  | clientWs => exact h.clientWs
  | sessionInit => exact h.sessionInit hok
  | toolCall => exact h.toolCall
  | socket => exact h.socket

theorem boot (db : StoredDb) (contexts : SessionUuid → SessionState) :
    OwnersKept (.boot db contexts) where
  unique := db.unique
  streams _ hx := by cases hx
  buffers _ hentry := by cases hentry
  subscribers _ hsub := by cases hsub
  linked := by
    refine ⟨rfl, rfl, ?_, ?_⟩
    · intro x hx
      cases hx
    · intro entry hentry
      cases hentry
  registrations _ hx := by cases hx

end OwnersKept

/-- While the requests that no endpoint checks come from owners, no one obtains anything of the
session of another. -/
theorem isolated_of_keepsIsolated {db : StoredDb} {contexts : SessionUuid → SessionState}
    {es : List IsolationEvent}
    (hes : Guarded IsolationSys.step IsolationSys.keepsIsolated (.boot db contexts) es) :
    Guarded IsolationSys.step IsolationSys.Isolated (.boot db contexts) es :=
  hes.imp (I := OwnersKept) (fun _ _ h hok => h.step hok) (fun _ _ h hok => h.isolated hok)
    (OwnersKept.boot db contexts)

/-- A session that its owner streams, resumes and brokers a tool call in. -/
theorem isolated_of_keepsIsolated_owner :
    let owner : AuthContext := ⟨"acme", "alice"⟩
    let id : SessionUuid := 7
    let run : InjectionRun :=
      ⟨⟨20, 4096, none⟩, ⟨.stable _, .stable _, .stable _⟩, none, 0, fun i => BitVec.ofNat 128 i⟩
    Guarded IsolationSys.step IsolationSys.Isolated
      (.boot ⟨⟨⟨[], []⟩, [], []⟩, List.nodup_nil⟩ fun _ => ⟨none, [], [], [], [], [], [], []⟩)
      [.createSession ⟨id, "acme", "alice", .active, .hybrid⟩, .chat owner id run [] true,
        .push 0 [1], .streamResume owner id, .next 0, .clientWs owner,
        .sessionInit 0 id "laptop" [], .toolCall owner id "call" "files.read" ⟨"30", 30000⟩ 0] := by
  intro owner id run
  refine isolated_of_keepsIsolated ⟨trivial, trivial, trivial, fun _ => ?_, trivial, trivial,
    fun _ opener hopener => ?_, trivial, trivial⟩
  · rintro ⟨row, hrow, -, hno⟩
    obtain rfl := List.mem_singleton.1 hrow
    exact hno rfl
  · rintro ⟨row, hrow, -, hno⟩
    obtain rfl := List.mem_singleton.1 hrow
    cases hopener
    exact hno rfl

/-- Who knows the id of a session resumes the stream of its owner. -/
theorem not_isolated_resume : ¬ ∀ (db : StoredDb) (contexts : SessionUuid → SessionState)
    (es : List IsolationEvent),
    Guarded IsolationSys.step IsolationSys.Isolated (.boot db contexts) es := by
  intro h
  let owner : AuthContext := ⟨"acme", "alice"⟩
  let other : AuthContext := ⟨"globex", "mallory"⟩
  let id : SessionUuid := 7
  let row : ChatSession := ⟨id, "acme", "alice", .active, .hybrid⟩
  let run : InjectionRun :=
    ⟨⟨20, 4096, none⟩, ⟨.stable _, .stable _, .stable _⟩, none, 0, fun i => BitVec.ofNat 128 i⟩
  have hnext := guarded_iff_split.1 (h ⟨⟨⟨[], []⟩, [], []⟩, List.nodup_nil⟩
    (fun _ => ⟨none, [], [], [], [], [], [], []⟩) [.createSession row, .chat owner id run [] true,
      .push 0 [1], .streamResume other id, .next 0]) [.createSession row,
      .chat owner id run [] true, .push 0 [1], .streamResume other id] (.next 0) [] rfl
  refine hnext ⟨other, id, .chunk [1]⟩ (List.mem_singleton_self _) ⟨row, ?_, rfl, ?_⟩
  · exact List.mem_singleton_self _
  · decide

end

end LlmPort.Gateway
