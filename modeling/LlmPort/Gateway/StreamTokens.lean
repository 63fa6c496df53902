import LlmPort.Gateway.RequestRun
import LlmPort.Gateway.Sessions
import LlmPort.Pii.Tokenize

/-!
# Tokens in answers

What `route_non_stream` and `route_stream_chat` make of an answer to a request that was tokenized
on its way out: what the client receives, and the assistant's message in the session. The first
restores the values of the tokens, the second drops the mapping.
-/

namespace LlmPort.Gateway

open Pii Text

/-! ## Streams -/

/-- An event of a stream, with the contents of the deltas of its choices. -/
inductive SseEvent where
  | data (deltas : List (Option (List Char)))
  /-- `[DONE]` -/
  | done

/-- `_accumulate_stream_content` -/
def accumulateStreamContent (acc : List (List Char)) : SseEvent → List (List Char)
  | .data (some content :: _) => if content = [] then acc else acc ++ [content]
  | _ => acc

def accumulatedContent (events : List SseEvent) : List (List Char) :=
  events.foldl accumulateStreamContent []

/-- What a stream says. -/
def streamText (events : List SseEvent) : List Char := (accumulatedContent events).flatten

/-- `payload["choices"][0]["message"]["content"]`, or the empty text -/
def messageContent (payload : ResponsePayload) : List Char :=
  ((payload.choices.getD []).head?.join).getD []

/-- `content[i : i + chunk_size]` for the multiples `i` of `chunk_size`, with no empty piece. -/
def textPieces (chunkSize : Nat) (content : List Char) : List (List Char) :=
  ((List.range ((max content.length 1 + chunkSize - 1) / chunkSize)).map fun k =>
    (content.drop (chunkSize * k)).take chunkSize).filter (!·.isEmpty)

/-- `_nonstream_to_sse`; the events of the role, of tool calls and of the end have no content. -/
def nonstreamToSse (payload : ResponsePayload) (toolCalls : Nat) : List SseEvent :=
  .data [none] :: (textPieces 24 (messageContent payload)).map (fun piece => .data [some piece]) ++
    List.replicate toolCalls (.data [none]) ++ [.data [none], .done]

/-! ## The two routes -/

/-- The token mapping that `_apply_egress_pii` returns. -/
def egressTokenMapping (policy : PIIPolicy) (isCloud : Bool) (payload : RequestPayload Pii.Segment) :
    Option (List (List Char × List Char)) :=
  if shouldScan policy isCloud then
    match policy.egress.mode with
    | .tokenizeReversible => (sanitizePayload payload).tokenMapping
    | .redact => none
  else none

/-- A chat request under a policy that tokenizes its egress, and the answer to what is sent. The
tool loop's last answer is meant where MCP tools are injected; else the upstream also streams it, in
any pieces. -/
structure TokenizedChat where
  policy : PIIPolicy
  isCloud : Bool
  payload : RequestPayload Pii.Segment
  resolvedSessionId : Option SessionUuid
  mcpToolsInjected : Bool
  answer : ResponsePayload
  toolCalls : Nat
  events : List SseEvent
  /-- The PII service answers when it is asked to detokenize. -/
  detokenizes : Bool
  scans : shouldScan policy isCloud
  tokenizes : policy.egress.mode = .tokenizeReversible
  delivers : streamText events = messageContent answer

namespace TokenizedChat

variable (c : TokenizedChat)

/-- The issued tokens, with their values. -/
def issued : List (List Char × List Char) :=
  (egressTokenMapping c.policy c.isCloud c.payload).getD []

/-- `_persist_assistant_response` -/
def persistAssistantResponse (responsePayload : ResponsePayload) : Option (List Char) :=
  if c.resolvedSessionId = none ∨ messageContent responsePayload = [] then none
  else some (messageContent responsePayload)

/-- `_persist_stream_assistant_response`, called where something was accumulated -/
def persistStreamAssistantResponse (accumulated : List (List Char)) : Option (List Char) :=
  if c.resolvedSessionId = none ∨ accumulated = [] ∨ accumulated.flatten = [] then none
  else some accumulated.flatten

/-- The payload the client receives from `route_non_stream`, and the message that is stored. -/
def routeNonStream : ResponsePayload × Option (List Char) :=
  let tokenMapping := egressTokenMapping c.policy c.isCloud c.payload
  let responsePayload := match tokenMapping with
    | none => c.answer
    | some mapping =>
      -- a failure is logged, and the raw response returned
      if mapping ≠ [] ∧ c.detokenizes then detokenizePayload c.answer mapping else c.answer
  (responsePayload, c.persistAssistantResponse responsePayload)

/-- The events the client receives from `route_stream_chat`, and the message that is stored. -/
def routeStreamChat : List SseEvent × Option (List Char) :=
  -- `egress_payload, _ = await self._apply_egress_pii(...)`
  let wrapped := if c.mcpToolsInjected then nonstreamToSse c.answer c.toolCalls else c.events
  (wrapped, c.persistStreamAssistantResponse (accumulatedContent wrapped))

/-- The client receives the same text from both routes, both store the same message, and every
issued token in it is replaced by its value. -/
structure StreamsAlike : Prop where
  received : messageContent c.routeNonStream.1 = streamText c.routeStreamChat.1
  stored : c.routeNonStream.2 = c.routeStreamChat.2
  restored : streamText c.routeStreamChat.1 = replaceTokens c.issued (messageContent c.answer)

end TokenizedChat

/-! ## What the events say -/

section
variable {content : List Char} {events : List SseEvent} {acc : List (List Char)}

theorem take_eq_flatten_range (size n : Nat) (content : List Char) :
    ((List.range n).map fun k => (content.drop (size * k)).take size).flatten =
      content.take (size * n) := by
  induction n with
  | zero => rfl
  | succ n ih =>
    rw [List.range_succ, List.map_append, List.flatten_append, ih, Nat.mul_succ, List.take_add]
    simp

/-- The pieces make up the content. -/
theorem flatten_textPieces {size : Nat} (hsize : 0 < size) :
    (textPieces size content).flatten = content := by
  rw [textPieces, List.flatten_filter_not_isEmpty, take_eq_flatten_range, List.take_of_length_le]
  have hdiv := Nat.div_add_mod (max content.length 1 + size - 1) size
  have hmod := Nat.mod_lt (max content.length 1 + size - 1) hsize
  omega

theorem foldl_accumulate_pieces (pieces : List (List Char)) :
    ((pieces.map fun piece => SseEvent.data [some piece]).foldl accumulateStreamContent acc).flatten =
      acc.flatten ++ pieces.flatten := by
  induction pieces generalizing acc with
  | nil => simp
  | cons piece pieces ih =>
    rw [List.map_cons, List.foldl_cons, ih, accumulateStreamContent]
    split
    next hnil => simp [hnil]
    next => simp

theorem foldl_accumulate_replicate (n : Nat) :
    (List.replicate n (SseEvent.data [none])).foldl accumulateStreamContent acc = acc := by
  induction n with
  | zero => rfl
  | succ n ih => exact ih

/-- The events of an answer say what it says. -/
theorem streamText_nonstreamToSse (payload : ResponsePayload) (toolCalls : Nat) :
    streamText (nonstreamToSse payload toolCalls) = messageContent payload := by
  rw [streamText, accumulatedContent, nonstreamToSse, List.append_assoc, List.cons_append,
    List.foldl_cons, List.foldl_append, List.foldl_append, foldl_accumulate_replicate]
  refine (@foldl_accumulate_pieces [] _).trans ?_
  rw [List.flatten_nil, List.nil_append, flatten_textPieces (by decide)]

theorem messageContent_detokenizePayload (payload : ResponsePayload)
    (mapping : List (List Char × List Char)) :
    messageContent (detokenizePayload payload mapping) =
      replaceTokens mapping (messageContent payload) := by
  have hnil : replaceTokens mapping [] = [] := by
    induction mapping with
    | nil => rfl
    | cons entry mapping ih => exact ih
  rw [detokenizePayload]
  split
  next h =>
    rw [h]
    rfl
  next =>
    obtain ⟨choices⟩ := payload
    cases choices with
    | none => exact hnil.symm
    | some choices =>
      cases choices with
      | nil => exact hnil.symm
      | cons choice choices =>
        cases choice with
        | none => exact hnil.symm
        | some content => rfl

end

/-! ## Where the routes agree -/

namespace TokenizedChat

variable {c : TokenizedChat}

/-- Whatever way the answer comes, the client gets it as it is. -/
theorem streamText_routeStreamChat (c : TokenizedChat) :
    streamText c.routeStreamChat.1 = messageContent c.answer := by
  rw [routeStreamChat]
  split
  next => exact streamText_nonstreamToSse c.answer c.toolCalls
  next => exact c.delivers

theorem stored_routeStreamChat (c : TokenizedChat) :
    c.routeStreamChat.2 = c.persistAssistantResponse c.answer := by
  rw [persistAssistantResponse, ← streamText_routeStreamChat]
  apply if_congr _ rfl rfl
  apply or_congr_right
  apply or_iff_right_of_imp
  intro hnil
  rw [hnil]
  rfl

theorem messageContent_routeNonStream (h : replaceTokens c.issued (messageContent c.answer) =
    messageContent c.answer) : messageContent c.routeNonStream.1 = messageContent c.answer := by
  rw [issued] at h
  simp only [routeNonStream]
  split
  next => rfl
  next mapping hmapping =>
    rw [hmapping] at h
    split
    next => exact (messageContent_detokenizePayload _ _).trans h
    next => rfl

/-- The two routes agree exactly where the answer is the same with its tokens replaced. -/
theorem streamsAlike_iff (c : TokenizedChat) :
    c.StreamsAlike ↔ replaceTokens c.issued (messageContent c.answer) = messageContent c.answer := by
  constructor
  · intro H
    rw [← H.restored, streamText_routeStreamChat]
  · intro h
    have hcontent := messageContent_routeNonStream h
    refine ⟨?_, ?_, ?_⟩
    · rw [hcontent, streamText_routeStreamChat]
    · rw [stored_routeStreamChat]
      simp only [routeNonStream] at hcontent ⊢
      rw [persistAssistantResponse, hcontent]
      rfl
    · rw [streamText_routeStreamChat, h]

/-! ## Answers without tokens -/

theorem replaceTokens_cons {entry : List Char × List Char} {mapping : List (List Char × List Char)}
    {text : List Char} : replaceTokens (entry :: mapping) text =
      replaceTokens mapping (replace entry.1 entry.2 text) := rfl

theorem replaceTokens_eq_self {mapping : List (List Char × List Char)} {text : List Char}
    (h : ∀ entry ∈ mapping, ¬ entry.1 <:+: text) : replaceTokens mapping text = text := by
  induction mapping with
  | nil => rfl
  | cons entry mapping ih =>
    have hhead : replace entry.1 entry.2 text = text :=
      replace_eq_self (h entry List.mem_cons_self)
    rw [replaceTokens_cons, hhead]
    exact ih fun entry hmem => h entry (List.mem_cons_of_mem _ hmem)

theorem count_replaceTokens_le {mapping : List (List Char × List Char)} {text : List Char}
    (htoken : ∀ entry ∈ mapping, '[' ∈ entry.1) (hvalue : ∀ entry ∈ mapping, '[' ∉ entry.2) :
    (replaceTokens mapping text).count '[' ≤ text.count '[' := by
  induction mapping generalizing text with
  | nil => exact Nat.le_refl _
  | cons entry mapping ih =>
    have hne : entry.1 ≠ [] := List.ne_nil_of_mem (htoken entry List.mem_cons_self)
    have hrest := @ih (replace entry.1 entry.2 text)
      (fun entry hmem => htoken entry (List.mem_cons_of_mem _ hmem))
      (fun entry hmem => hvalue entry (List.mem_cons_of_mem _ hmem))
    exact hrest.trans (count_replace_le hne (hvalue entry List.mem_cons_self))

/-- Where no value has an opening bracket, replacing the tokens changes nothing exactly if there is
none: each that is replaced takes its bracket with it. -/
theorem replaceTokens_eq_self_iff {mapping : List (List Char × List Char)} {text : List Char}
    (htoken : ∀ entry ∈ mapping, '[' ∈ entry.1) (hvalue : ∀ entry ∈ mapping, '[' ∉ entry.2) :
    replaceTokens mapping text = text ↔ ∀ entry ∈ mapping, ¬ entry.1 <:+: text := by
  refine ⟨fun h => ?_, replaceTokens_eq_self⟩
  induction mapping with
  | nil => exact nofun
  | cons entry mapping ih =>
    have htail : ∀ entry ∈ mapping, '[' ∈ entry.1 :=
      fun entry hmem => htoken entry (List.mem_cons_of_mem _ hmem)
    have hrest : ∀ entry ∈ mapping, '[' ∉ entry.2 :=
      fun entry hmem => hvalue entry (List.mem_cons_of_mem _ hmem)
    rw [replaceTokens_cons] at h
    have hhead : ¬ entry.1 <:+: text := by
      intro hinfix
      have hlt := count_replace_lt (htoken entry List.mem_cons_self)
        (hvalue entry List.mem_cons_self) hinfix
      have hle := @count_replaceTokens_le mapping (replace entry.1 entry.2 text) htail hrest
      rw [h] at hle
      omega
    rw [replace_eq_self hhead] at h
    exact List.forall_mem_cons.2 ⟨hhead, ih htail hrest h⟩

theorem issued_eq (c : TokenizedChat) :
    c.issued = (surrogates c.payload.texts).map fun s => (s.token, s.value) := by
  rw [issued, egressTokenMapping, if_pos c.scans, c.tokenizes]
  exact (sanitizePayload_spec c.payload).2.1

/-- Where no tokenized value has an opening bracket, they agree exactly on the answers that say no
issued token. -/
theorem streamsAlike_iff_no_token (hvalue : ∀ entry ∈ c.issued, '[' ∉ entry.2) :
    c.StreamsAlike ↔ ∀ entry ∈ c.issued, ¬ entry.1 <:+: messageContent c.answer := by
  rw [streamsAlike_iff]
  refine replaceTokens_eq_self_iff ?_ hvalue
  rw [issued_eq]
  intro entry hmem
  obtain ⟨s, -, rfl⟩ := List.mem_map.1 hmem
  exact List.mem_cons_self

/-- A request that names Ann, who is named in the answer by her token, split over two events. -/
def askedOfAnn : TokenizedChat where
  policy := {
    telemetry := ⟨false, "sanitized", false⟩
    egress := ⟨true, false, .tokenizeReversible, .block⟩
    presidio := ⟨"en", 0, ["PERSON"]⟩ }
  isCloud := true
  payload := {
    messages := some [.text ⟨"I am Ann".toList, [⟨⟨5, 8⟩, "PERSON", 1⟩], by decide⟩]
    input := none }
  resolvedSessionId := some 7
  mcpToolsInjected := false
  answer := .saying ["Hello [PERSON_1]".toList]
  toolCalls := 0
  events := [.data [none], .data [some "Hello [PER".toList], .data [some "SON_1]".toList],
    .data [none], .done]
  detokenizes := true
  scans := rfl
  tokenizes := rfl
  delivers := by decide

/-- The stream leaves the token in. -/
theorem not_streamsAlike_askedOfAnn : ¬ askedOfAnn.StreamsAlike := by
  intro H
  have hrestored := H.restored
  revert hrestored
  decide

end TokenizedChat

end LlmPort.Gateway
