import LlmPort.Gateway.Sessions
import LlmPort.Ranking.Recent

/-!
# The context of a session

`_inject_rag_context` and `_inject_session_context` of `services/gateway/service.py`, and `assemble`
of `services/gateway/context_assembler.py`, over what the DAO reads of one session. A log is ordered
by `created_at`, which messages of one transaction share.
-/

namespace LlmPort.Gateway

open Ranking

inductive ContentPart where
  | text (text : String)
  | imageUrl (url : String)
  /-- Any other value, by its JSON. -/
  | other (json : String)
  deriving DecidableEq

/-- The `content` of a message, which is empty where there is none. -/
inductive MessageContent where
  | null
  | text (text : String)
  | parts (parts : List ContentPart)
  deriving DecidableEq

structure RequestMessage where
  role : Option String
  content : MessageContent
  deriving DecidableEq

structure LoggedMessage where
  id : SessionUuid
  role : String
  content : String
  contentParts : Option (List ContentPart)
  tokenEstimate : Option Int
  createdAt : Int
  deriving DecidableEq

structure SessionSummary where
  summaryText : String
  lastMessageId : SessionUuid
  tokenEstimate : Int
  createdAt : Int

structure MemoryFact where
  key : String
  value : String

inductive ExtractionStatus where
  | pending | completed | failed | skipped
  deriving DecidableEq

structure ChatAttachment where
  id : SessionUuid
  filename : String
  contentType : String
  storageKey : String
  extractionStatus : ExtractionStatus
  extractedText : Option String
  truncated : Bool

/-- What the DAO reads for one session. -/
structure SessionState where
  /-- Of the session's project, if it has one. -/
  systemInstructions : Option String
  summaries : List SessionSummary
  userFacts : List MemoryFact
  projectFacts : List MemoryFact
  sessionFacts : List MemoryFact
  sessionAttachments : List ChatAttachment
  projectAttachments : List ChatAttachment
  log : List LoggedMessage

structure ContextSettings where
  maxRecentMessages : Nat
  tokenBudget : Int
  /-- The bytes under a storage key in base64, `none` where they cannot be read. -/
  fileStore : Option (String → Option String)

/-- How the queries of one request order rows of equal times. -/
structure ReadOrders where
  lastMessage : TimeOrder LoggedMessage.createdAt
  recentMessages : TimeOrder LoggedMessage.createdAt
  latestSummary : TimeOrder SessionSummary.createdAt

/-! ## Tokens -/

def estimateText (text : String) : Nat := max 1 (text.length / 4)

def ContentPart.tokens : ContentPart → Nat
  | text t => estimateText t
  | imageUrl _ => 85
  | other _ => 10

/-- `token_estimate or _estimate_tokens(text)` -/
def tokensOr (tokenEstimate : Option Int) (text : String) : Int :=
  (tokenEstimate.filter (· ≠ 0)).getD (estimateText text)

def LoggedMessage.tokens (m : LoggedMessage) : Int := tokensOr m.tokenEstimate m.content

def LoggedMessage.toRequest (m : LoggedMessage) : RequestMessage := ⟨some m.role, .text m.content⟩

/-! ## `assemble` -/

/-- The messages so far, and what is left of the budget. -/
structure ContextSoFar where
  messages : List RequestMessage
  budget : Int

namespace ContextSoFar

def add (ctx : ContextSoFar) (message : RequestMessage) (tokens : Int) : ContextSoFar :=
  ⟨ctx.messages ++ [message], ctx.budget - tokens⟩

def addIfFits (ctx : ContextSoFar) (message : RequestMessage) (tokens : Int) : ContextSoFar :=
  if tokens ≤ ctx.budget then ctx.add message tokens else ctx

def addInstructions (ctx : ContextSoFar) (systemInstructions : Option String) : ContextSoFar :=
  match systemInstructions.filter (· ≠ "") with
  | none => ctx
  | some text => ctx.add ⟨some "system", .text text⟩ (estimateText text)

def addSummary (ctx : ContextSoFar) : Option SessionSummary → ContextSoFar
  | none => ctx
  | some summary =>
    ctx.addIfFits ⟨some "system", .text s!"[Session Summary]\n{summary.summaryText}"⟩
      (tokensOr (some summary.tokenEstimate) summary.summaryText)

def addFacts (ctx : ContextSoFar) (facts : List MemoryFact) : ContextSoFar :=
  if facts.isEmpty then ctx
  else
    let lines := facts.map fun fact => s!"- {fact.key}: {fact.value}"
    let block := "[Memory]\n" ++ "\n".intercalate lines
    ctx.addIfFits ⟨some "system", .text block⟩ (estimateText block)

def addAttachment (fileStore : Option (String → Option String)) (ctx : ContextSoFar)
    (att : ChatAttachment) : ContextSoFar :=
  match att.extractionStatus, att.extractedText.filter (· ≠ "") with
  | .completed, some text =>
    let note := if att.truncated then " (truncated)" else ""
    let block := s!"[Attached: {att.filename}{note}]\n{text}"
    ctx.addIfFits ⟨some "system", .text block⟩ (estimateText block)
  | .skipped, _ => match fileStore.bind (· att.storageKey) with
    | none => ctx
    | some b64 =>
      ctx.addIfFits ⟨some "user", .parts [.text s!"[Attached image: {att.filename}]",
        .imageUrl s!"data:{att.contentType};base64,{b64}"]⟩ 85
  | _, _ => ctx

end ContextSoFar

/-- The recent messages without those that are not newer than the summary. -/
def afterSummary (latest : Option SessionSummary) (recent : List LoggedMessage) :
    List LoggedMessage :=
  match latest with
  | none => recent
  | some summary => recent.filter fun m => m.createdAt > summary.createdAt

namespace SessionState

def getLatestSummary (session : SessionState) (orders : ReadOrders) : Option SessionSummary :=
  orders.latestSummary.newest session.summaries

/-- `_collect_facts` -/
def collectFacts (session : SessionState) : List MemoryFact :=
  session.userFacts ++ session.projectFacts ++ session.sessionFacts

def attachments (session : SessionState) : List ChatAttachment :=
  session.sessionAttachments ++ session.projectAttachments.filter fun att =>
    session.sessionAttachments.all (·.id ≠ att.id)

/-- The segments before the history. -/
def segments (session : SessionState) (settings : ContextSettings) (orders : ReadOrders) :
    ContextSoFar :=
  session.attachments.foldl (ContextSoFar.addAttachment settings.fileStore)
    (((ContextSoFar.mk [] settings.tokenBudget).addInstructions session.systemInstructions
      |>.addSummary (session.getLatestSummary orders)).addFacts session.collectFacts)

/-- The messages that may come into the history, as far as the budget goes. -/
def eligible (session : SessionState) (settings : ContextSettings) (orders : ReadOrders) :
    List LoggedMessage :=
  afterSummary (session.getLatestSummary orders)
    (orders.recentMessages.recent settings.maxRecentMessages session.log)

/-- `none` where a content is `null`, over which `_estimate_tokens` cannot iterate. -/
def assemble (session : SessionState) (settings : ContextSettings) (orders : ReadOrders)
    (current : List RequestMessage) : Option (List RequestMessage) :=
  let ctx := session.segments settings orders
  let history := fitting LoggedMessage.tokens ctx.budget (session.eligible settings orders)
  if current.any (·.content = .null) then none
  else some (ctx.messages ++ history.map (·.toRequest) ++ current)

end SessionState

/-! ## `_inject_session_context` -/

/-- The text that is stored and compared: the text parts, of a list of parts. -/
def MessageContent.flatten : MessageContent → Option String
  | null => none
  | text t => some t
  | parts ps => some <| " ".intercalate <| ps.filterMap fun
    | .text t => some t
    | _ => none

def LoggedMessage.isRetriedBy (last : LoggedMessage) (m : RequestMessage) : Bool :=
  m.role = some last.role && m.content.flatten = some last.content

/-- The first message is taken for a retry. -/
def dropsFirst (orders : ReadOrders) (log : List LoggedMessage) (messages : List RequestMessage) :
    Bool :=
  messages.head?.any fun m => (orders.lastMessage.newest log).any (·.isRetriedBy m)

def dedup (orders : ReadOrders) (log : List LoggedMessage) (messages : List RequestMessage) :
    List RequestMessage :=
  if dropsFirst orders log messages then messages.tail else messages

/-- A message that is persisted. -/
def RequestMessage.isStored (m : RequestMessage) : Bool :=
  m.role = some "user" || m.role = some "system"

/-- The rows `append_message` makes, in the transaction that began at `now`. -/
def storedRows (now : Int) (newId : Nat → SessionUuid) (current : List RequestMessage) :
    List LoggedMessage :=
  (current.filter (·.isStored)).mapIdx fun i m =>
    { id := newId i
      role := m.role.getD ""
      content := m.content.flatten.getD ""
      contentParts := match m.content with
        | .parts parts => some parts
        | _ => none
      tokenEstimate := none
      createdAt := now }

/-- `none` for a session that is not found. -/
def injectSessionContext (settings : ContextSettings) (orders : ReadOrders) (now : Int)
    (newId : Nat → SessionUuid) (session : Option SessionState) (messages : List RequestMessage) :
    Option (List RequestMessage × Option SessionState) :=
  match session with
  | none => some (messages, none)
  | some session =>
    let current := dedup orders session.log messages
    (session.assemble settings orders current).map fun assembled =>
      (assembled, some { session with log := session.log ++ storedRows now newId current })

/-! ## `_inject_rag_context` -/

structure RagResult where
  filename : Option String
  chunkText : Option String

/-- The last message of the user. -/
def latestUser (messages : List RequestMessage) : Option RequestMessage :=
  messages.reverse.find? (·.role = some "user")

def ragBlock (results : List RagResult) : String :=
  "Use the following retrieved context to answer the user's question. " ++
    "If the context is not relevant, ignore it.\n\n" ++
    "\n\n---\n\n".intercalate (results.map fun r =>
      let src := r.filename.getD "unknown"
      let text := r.chunkText.getD ""
      s!"[Source: {src}]\n{text}")

/-- The query is made where the request asks for it and a client is there. -/
def injectRagContext (search : Option (MessageContent → List RagResult))
    (messages : List RequestMessage) : List RequestMessage :=
  match search, latestUser messages with
  | some search, some query =>
    if query.content = .text "" then messages
    else match search query.content with
      | [] => messages
      | results => ⟨some "system", .text (ragBlock results)⟩ :: messages
  | _, _ => messages

/-! ## The latest message of the user -/

/-- The context that a request with these messages is given has their latest message of the user. -/
def ReachesModel (settings : ContextSettings) (orders : ReadOrders) (now : Int)
    (newId : Nat → SessionUuid) (session : Option SessionState)
    (search : Option (MessageContent → List RagResult)) (messages : List RequestMessage) : Prop :=
  ∀ m, latestUser messages = some m → ∃ out session', injectSessionContext settings orders now newId
    session (injectRagContext search messages) = some (out, session') ∧ m ∈ out

/-- The text of the message is that of an eligible message of the user, up to which all eligible
messages fit into what the other segments leave of the budget. -/
def InHistory (settings : ContextSettings) (orders : ReadOrders) (session : SessionState)
    (m : RequestMessage) : Prop :=
  ∃ before logged after, session.eligible settings orders = before ++ logged :: after ∧
    m = logged.toRequest ∧ ∀ start, start <+: before ++ [logged] → start ≠ [] →
      (start.map LoggedMessage.tokens).sum ≤ (session.segments settings orders).budget

/-- No content is `null`; and when the first message is dropped as a retry and the message does not
come again, it is in the history, or is the message of an attached image. -/
structure LatestKept (settings : ContextSettings) (orders : ReadOrders) (session : SessionState)
    (payload : List RequestMessage) (m : RequestMessage) : Prop where
  noNull : ∀ x ∈ payload, x.content ≠ .null
  kept : dropsFirst orders session.log payload → m ∉ payload.tail →
    InHistory settings orders session m ∨ m ∈ (session.segments settings orders).messages

section
variable {settings : ContextSettings} {orders : ReadOrders} {now : Int} {newId : Nat → SessionUuid}
  {session : SessionState} {search : Option (MessageContent → List RagResult)}
  {messages payload current : List RequestMessage} {m : RequestMessage}

theorem mem_injectRagContext (h : m ∈ messages) : m ∈ injectRagContext search messages := by
  unfold injectRagContext
  split
  next =>
    split
    next => exact h
    next =>
      split
      next => exact h
      next => exact List.mem_cons_of_mem _ h
  next => exact h

theorem mem_of_latestUser (h : latestUser messages = some m) : m ∈ messages :=
  List.mem_reverse.1 (List.mem_of_find?_eq_some h)

theorem mem_dedup_iff (h : m ∈ payload) :
    m ∈ dedup orders session.log payload ↔
      (dropsFirst orders session.log payload → m ∈ payload.tail) := by
  unfold dedup
  split
  next hd => simp [hd]
  next hd => simp [hd, h]

/-- A message with content `null` is never the one that is dropped. -/
theorem any_null_dedup_iff :
    (∀ x ∈ dedup orders session.log payload, x.content ≠ .null) ↔
      ∀ x ∈ payload, x.content ≠ .null := by
  unfold dedup
  split
  next hd =>
    obtain ⟨head, hhead, hretry⟩ := (Option.any_eq_true _ _).1 hd
    obtain ⟨last, -, hlast⟩ := (Option.any_eq_true _ _).1 hretry
    obtain ⟨rest, rfl⟩ : ∃ rest, payload = head :: rest := List.head?_eq_some_iff.1 hhead
    have hne : head.content ≠ .null := by
      intro hnull
      simp [LoggedMessage.isRetriedBy, hnull, MessageContent.flatten] at hlast
    simp [hne]
  next => rfl

theorem assemble_of_noNull (session : SessionState) (settings : ContextSettings)
    (orders : ReadOrders) (h : ∀ x ∈ current, x.content ≠ .null) :
    session.assemble settings orders current = some ((session.segments settings orders).messages ++
      (fitting LoggedMessage.tokens (session.segments settings orders).budget
        (session.eligible settings orders)).map (·.toRequest) ++ current) := by
  unfold SessionState.assemble
  dsimp only
  rw [if_neg]
  intro hany
  obtain ⟨x, hx, hnull⟩ := List.any_eq_true.1 hany
  exact h x hx (by simpa using hnull)

theorem noNull_of_assemble {out : List RequestMessage}
    (h : session.assemble settings orders current = some out) :
    ∀ x ∈ current, x.content ≠ .null := by
  intro x hx hnull
  have hany : current.any (·.content = .null) := List.any_eq_true.2 ⟨x, hx, by simpa using hnull⟩
  simp [SessionState.assemble, hany] at h

theorem mem_history_iff :
    m ∈ (fitting LoggedMessage.tokens (session.segments settings orders).budget
        (session.eligible settings orders)).map (·.toRequest) ↔
      InHistory settings orders session m := by
  constructor
  · intro h
    obtain ⟨logged, hmem, rfl⟩ := List.mem_map.1 h
    obtain ⟨before, after, heq, hsum⟩ := mem_fitting_iff.1 hmem
    exact ⟨before, logged, after, heq, rfl, hsum⟩
  · rintro ⟨before, logged, after, heq, rfl, hsum⟩
    exact List.mem_map_of_mem (mem_fitting_iff.2 ⟨before, after, heq, hsum⟩)

/-- The latest message of the user is in the context of every request exactly if the deduplication
drops it only where the history shows it. -/
theorem reachesModel_iff {session : Option SessionState} :
    ReachesModel settings orders now newId session search messages ↔
      ∀ state, session = some state → ∀ m, latestUser messages = some m →
        LatestKept settings orders state (injectRagContext search messages) m := by
  cases session with
  | none =>
    refine iff_of_true ?_ (fun _ h => by cases h)
    exact fun m hm => ⟨_, _, rfl, mem_injectRagContext (mem_of_latestUser hm)⟩
  | some state =>
    simp only [Option.some.injEq, forall_eq']
    refine forall_congr' fun m => imp_congr_right fun hm => ?_
    have hpayload : m ∈ injectRagContext search messages :=
      mem_injectRagContext (mem_of_latestUser hm)
    constructor
    · rintro ⟨out, _, hinject, hout⟩
      obtain ⟨assembled, hassembled, heq⟩ := Option.map_eq_some_iff.1 hinject
      obtain rfl : assembled = out := congrArg Prod.fst heq
      have hnull := noNull_of_assemble hassembled
      obtain rfl := Option.some.inj ((assemble_of_noNull state settings orders hnull).symm.trans
        hassembled)
      refine ⟨any_null_dedup_iff.1 hnull, fun hd htail => ?_⟩
      rw [List.mem_append, List.mem_append, mem_history_iff, mem_dedup_iff hpayload] at hout
      obtain (h | h) | h := hout
      · exact .inr h
      · exact .inl h
      · exact (htail (h hd)).elim
    · rintro ⟨hnull, hkept⟩
      refine ⟨_, _, Option.map_eq_some_iff.2
        ⟨_, assemble_of_noNull state settings orders (any_null_dedup_iff.2 hnull), rfl⟩, ?_⟩
      rw [List.mem_append, List.mem_append, mem_history_iff, mem_dedup_iff hpayload]
      by_cases hd : dropsFirst orders state.log (injectRagContext search messages)
      · by_cases htail : m ∈ (injectRagContext search messages).tail
        · exact .inr fun _ => htail
        · obtain h | h := hkept hd htail
          · exact .inl (.inr h)
          · exact .inl (.inl h)
      · exact .inr fun h => (hd h).elim

end

/-- The retry of a message that is longer than the budget: it is dropped as a duplicate of the log's
last message, which the budget keeps out of the history. -/
theorem not_reachesModel_retry :
    ¬ ∀ (settings : ContextSettings) (orders : ReadOrders) (now : Int) (newId : Nat → SessionUuid)
        (session : Option SessionState) (search : Option (MessageContent → List RagResult))
        (messages : List RequestMessage),
      ReachesModel settings orders now newId session search messages := by
  intro h
  let settings : ContextSettings := ⟨20, 4, none⟩
  let orders : ReadOrders := ⟨.stable _, .stable _, .stable _⟩
  let logged : LoggedMessage := ⟨1#128, "user", "Summarise this text.", none, none, 0⟩
  let session : SessionState := ⟨none, [], [], [], [], [], [], [logged]⟩
  obtain ⟨out, _, hinject, hmem⟩ := h settings orders 1 (fun _ => 2#128) (some session) none
    [logged.toRequest] _ rfl
  have hempty : (injectSessionContext settings orders 1 (fun _ => 2#128) (some session)
      (injectRagContext none [logged.toRequest])).map (·.1) = some [] := by
    decide
  rw [hinject] at hempty
  obtain rfl : out = [] := Option.some.inj hempty
  cases hmem

end LlmPort.Gateway
