import LlmPort.Gateway.StreamTokens
import LlmPort.Skills.Frontmatter
import LlmPort.Text.JsonLoads
import LlmPort.Text.Lines

/-!
# Answers as events

`_nonstream_to_sse` writes an answer as a stream of server-sent events. They are read back by
`_accumulate_stream_content`, by `_extract_usage_from_chunk`, and by a client that gathers the tool
calls of the deltas. What is read is the first choice's message and the usage.
-/

namespace LlmPort.Gateway.Sse

open Text Text.Json ModelSync

/-! ## Writing -/

/-- A dict that Python can hold. -/
abbrev Dict := {entries : JsonObject // wellFormed (object entries) = true}

structure Message where
  content : Option String
  /-- Empty where there are none, or `None`. -/
  toolCalls : List Dict

structure Choice where
  message : Message
  /-- `null` where there is none. -/
  finishReason : Value

/-- A response to a chat completion; `usage` is `null` where there is none. -/
structure CompletionPayload where
  error : Option Value
  choices : List Choice
  id : Option Value
  model : Option Value
  usage : Value

namespace CompletionPayload

variable (payload : CompletionPayload)

/-- `msg.get("content", "") or ""`, of the first choice -/
def content : String := (payload.choices.head?.bind (·.message.content)).getD ""

/-- `msg.get("tool_calls")`, of the first choice -/
def toolCalls : List Dict := (payload.choices.head?.map (·.message.toolCalls)).getD []

/-- `choices[0].get("finish_reason") or ("tool_calls" if tool_calls else "stop")` -/
def finishReason : Json :=
  match payload.choices with
  | [] => .string "stop"
  | choice :: _ =>
    if truthy choice.finishReason.1 then choice.finishReason.1
    else if payload.toolCalls ≠ [] then .string "tool_calls"
    else .string "stop"

/-- `payload.get("id", f"chatcmpl-mcp-{int(time.time())}")` -/
def completionId (now : Nat) : Json :=
  (payload.id.map (·.1)).getD (.string ("chatcmpl-mcp-" ++ now.repr))

/-- `payload.get("model", "unknown")` -/
def modelName : Json := (payload.model.map (·.1)).getD (.string "unknown")

/-- A chunk of the completion, with the delta of its choice. -/
def chunkEvent (now : Nat) (delta : JsonObject) (finishReason : Json) : JsonObject :=
  [("id", payload.completionId now), ("object", .string "chat.completion.chunk"),
    ("model", payload.modelName),
    ("choices", .array [.object [("index", .number "0"), ("delta", .object delta),
      ("finish_reason", finishReason)]])]

/-- The delta of a tool call. -/
def toolCallDelta (tc : JsonObject) (idx : Nat) : Json :=
  .object [("index", .number idx.repr), ("id", (tc.lookup "id").getD (.string "")),
    ("type", .string "function"), ("function", (tc.lookup "function").getD (.object []))]

/-- The dicts of the events. -/
def events (now : Nat) : List JsonObject :=
  match payload.error, payload.choices with
  | some error, [] => [[("error", error.1)]]
  | _, _ =>
    payload.chunkEvent now [("role", .string "assistant")] .null ::
      (textPieces 24 payload.content.toList).map (fun textPiece =>
        payload.chunkEvent now [("content", .string (String.ofList textPiece))] .null) ++
      payload.toolCalls.zipIdx.map (fun (tc, idx) =>
        payload.chunkEvent now [("tool_calls", .array [toolCallDelta tc.1 idx])] .null) ++
      [payload.chunkEvent now [] payload.finishReason ++
        if truthy payload.usage.1 then [("usage", payload.usage.1)] else []]

/-- An error, and no answer. -/
def failed : Bool := payload.error.isSome && payload.choices.isEmpty

end CompletionPayload

/-- `f"data: {json.dumps(event)}\n\n"`; as it is ASCII, its bytes are its characters. -/
def sseData (event : JsonObject) : List Char :=
  "data:".toList ++ ' ' :: (dumpsAscii (.object event) ++ ['\n', '\n'])

def doneChunk : List Char := "data: [DONE]\n\n".toList

/-- `_nonstream_to_sse` -/
def nonstreamToSse (now : Nat) (payload : CompletionPayload) : List (List Char) :=
  (payload.events now).map sseData ++ [doneChunk]

/-! ## Reading -/

/-- The JSON of a line of data. -/
def lineData (line : List Char) : Option Json :=
  if "data:".toList.isPrefixOf line then
    let payload := strip (line.drop "data:".length)
    if payload = [] ∨ payload = "[DONE]".toList then none else loads payload
  else none

/-- The JSON of the lines of a chunk. -/
def chunkData (chunk : List Char) : List Json := (splitLines chunk).filterMap lineData

/-- `value.get(key, default)`, which raises where the value is no dict. -/
def getItem (key : String) (default : Json) : Json → Option Json
  | .object entries => some ((entries.lookup key).getD default)
  | _ => none

/-- `value[0]`; that of a text is a text, which has no `get`. -/
def firstItem : Json → Option Json
  | .array (item :: _) => some item
  | _ => none

/-- What `_accumulate_stream_content` does with the JSON of a line. -/
def accumulateData (acc : List Json) (parsed : Json) : Option (List Json) := do
  let choices ← getItem "choices" .null parsed
  if truthy choices then
    let choice ← firstItem choices
    if truthy choice then
      let delta ← getItem "delta" (.object []) choice
      let content ← getItem "content" .null delta
      return if truthy content then acc ++ [content] else acc
    else return acc
  else return acc

/-- `_accumulate_stream_content`, `none` where it raises -/
def accumulateStreamContent (acc : List Json) (chunk : List Char) : Option (List Json) :=
  (chunkData chunk).foldlM accumulateData acc

def contentText : Json → Option (List Char)
  | .string s => some s.toList
  | _ => none

/-- `"".join(accumulated_content)` -/
def joinContent (acc : List Json) : Option (List Char) := (acc.mapM contentText).map List.flatten

/-- What a stream says. -/
def streamContent (chunks : List (List Char)) : Option (List Char) :=
  (chunks.foldlM accumulateStreamContent []).bind joinContent

structure Usage where
  promptTokens : Option Int
  completionTokens : Option Int
  totalTokens : Option Int
  deriving DecidableEq

inductive IntError where
  | typeError | valueError | overflowError
  deriving DecidableEq

section
variable (int : Json → Except IntError Int)

/-- `_as_int`; an `OverflowError` is not caught. -/
def asInt (value : Json) : Option (Option Int) :=
  if value = .null then some none
  else match int value with
    | .ok n => some (some n)
    | .error .overflowError => none
    | .error _ => some none

/-- `usage_from_payload`, of `payload.get("usage")` -/
def usageFromPayload : Json → Option Usage
  | .object raw => do
    let promptTokens ← asInt int ((raw.lookup "prompt_tokens").getD .null)
    let completionTokens ← asInt int ((raw.lookup "completion_tokens").getD .null)
    let totalTokens ← asInt int ((raw.lookup "total_tokens").getD .null)
    return ⟨promptTokens, completionTokens, totalTokens⟩
  | _ => some ⟨none, none, none⟩

/-- What `_extract_usage_from_chunk` does with the JSON of a line. -/
def extractUsage (stats : Usage) (parsed : Json) : Option Usage := do
  let usage ← usageFromPayload int (← getItem "usage" .null parsed)
  return if usage.totalTokens.isSome then usage else stats

/-- `_extract_usage_from_chunk`, `none` where it raises -/
def extractUsageFromChunk (stats : Usage) (chunk : List Char) : Option Usage :=
  (chunkData chunk).foldlM (extractUsage int) stats

/-- The usage of a stream. -/
def streamUsage (chunks : List (List Char)) : Option Usage :=
  chunks.foldlM (extractUsageFromChunk int) ⟨none, none, none⟩

end

/-- The tool calls of the first choice's delta. -/
def deltaToolCalls (parsed : Json) : List Json :=
  match (parsed.get? "choices").bind firstItem |>.bind (get? "delta")
      |>.bind (get? "tool_calls") with
  | some (.array toolCalls) => toolCalls
  | _ => []

/-- The tool calls of a stream, in order. -/
def streamToolCalls (chunks : List (List Char)) : List Json :=
  chunks.flatMap fun chunk => (chunkData chunk).flatMap deltaToolCalls

/-! ## A chunk is read as it was written -/

section
variable {event : JsonObject} {line text : List Char}

theorem isLineBreak_of_printable {c : Char} (h : isPrintable c = true) : isLineBreak c = false := by
  have hrange := of_decide_eq_true h
  simp only [isLineBreak, List.mem_cons, List.not_mem_nil, or_false, decide_eq_false_iff_not]
  omega

theorem isSpace_of_printable {c : Char} (h : isPrintable c = true) (hne : c ≠ ' ') :
    isSpace c = false := by
  have hrange := of_decide_eq_true h
  have hcode : c.toNat ≠ 32 := fun heq => hne (Char.toNat_inj.1 heq)
  simp only [isSpace, List.mem_cons, List.not_mem_nil, or_false, decide_eq_false_iff_not]
  omega

theorem strip_braces (text : List Char) :
    strip (' ' :: '{' :: (text ++ ['}'])) = '{' :: (text ++ ['}']) := by
  have hopen : isSpace '{' = false := by decide
  have hclose : isSpace '}' = false := by decide
  have hspace : ∀ c ∈ [' '], isSpace c := List.forall_mem_singleton.2 (by decide)
  rw [strip_eq_trim, ← List.singleton_append, trim_append_of_all hspace,
    trim_cons_of_neg hopen, List.rdropWhile_concat_neg _ _ _ (by simp [hclose])]

theorem lineData_dumps (h : wellFormed (.object event) = true) :
    lineData ("data:".toList ++ ' ' :: dumpsAscii (.object event)) = some (.object event) := by
  obtain ⟨text, htext⟩ := dumpsAscii_object event
  have hstrip : strip (("data:".toList ++ ' ' :: dumpsAscii (.object event)).drop "data:".length) =
      dumpsAscii (.object event) := by
    rw [htext]
    exact strip_braces text
  have hne : ¬ (dumpsAscii (.object event) = [] ∨
      dumpsAscii (.object event) = "[DONE]".toList) := by
    rw [htext]
    rintro (heq | heq) <;> cases heq
  rw [lineData, if_pos (List.isPrefixOf_iff_prefix.2 (List.prefix_append _ _)), hstrip]
  dsimp only
  rw [if_neg hne, loads_dumps h]

/-- An event is one line, and is read as it was written. -/
theorem chunkData_sseData (h : wellFormed (.object event) = true) :
    chunkData (sseData event) = [.object event] := by
  have hprintable := List.all_eq_true.1 (isPrintable_dumps _ h)
  have hline : ∀ c ∈ "data:".toList ++ ' ' :: dumpsAscii (.object event),
      isLineBreak c = false := by
    intro c hc
    apply isLineBreak_of_printable
    rcases List.mem_append.1 hc with hc | hc
    · have hlabel : "data:".toList.all isPrintable = true := by decide
      exact List.all_eq_true.1 hlabel c hc
    · rcases List.mem_cons.1 hc with rfl | hc
      · rfl
      · exact hprintable c hc
  have hsplit := splitLines_line hline ['\n']
  rw [List.append_assoc, List.cons_append] at hsplit
  rw [chunkData, sseData, hsplit, List.filterMap_cons, lineData_dumps h]
  rfl

theorem chunkData_doneChunk : chunkData doneChunk = [] := by
  decide +kernel

/-- A reader of the chunks reads the dicts of the events. -/
theorem foldlM_chunks {σ : Type} (f : σ → Json → Option σ) {events : List JsonObject}
    (h : ∀ event ∈ events, wellFormed (.object event) = true) (s : σ) :
    (events.map sseData ++ [doneChunk]).foldlM (fun s chunk => (chunkData chunk).foldlM f s) s =
      events.foldlM (fun s event => f s (.object event)) s := by
  induction events generalizing s with
  | nil =>
    rw [List.map_nil, List.nil_append, List.foldlM_cons, chunkData_doneChunk]
    rfl
  | cons event events ih =>
    have hevent := chunkData_sseData (h event List.mem_cons_self)
    have htail := ih fun event hmem => h event (List.mem_cons_of_mem _ hmem)
    rw [List.map_cons, List.cons_append, List.foldlM_cons, List.foldlM_cons, hevent,
      List.foldlM_cons]
    simp only [List.foldlM_nil, bind_pure, htail]

theorem streamToolCalls_chunks {events : List JsonObject}
    (h : ∀ event ∈ events, wellFormed (.object event) = true) :
    streamToolCalls (events.map sseData ++ [doneChunk]) =
      events.flatMap fun event => deltaToolCalls (.object event) := by
  rw [streamToolCalls, List.flatMap_append, List.flatMap_map, List.flatMap_singleton,
    chunkData_doneChunk, List.flatMap_nil, List.append_nil]
  refine List.flatMap_congr fun event hmem => ?_
  rw [chunkData_sseData (h event hmem), List.flatMap_singleton]

end

/-! ## The events of an answer -/

section
variable {payload : CompletionPayload} {now : Nat} {delta extra : JsonObject} {finishReason : Json}

theorem wellFormed_singleton {key : String} {value : Json} (h : wellFormed value = true) :
    wellFormed (.object [(key, value)]) = true := by
  have hkeys : [key].Nodup := List.nodup_singleton key
  refine wellFormed_object hkeys ?_
  rw [entriesWellFormed, h]
  rfl

theorem wellFormed_array_singleton {value : Json} (h : wellFormed value = true) :
    wellFormed (.array [value]) = true := by
  rw [wellFormed, allWellFormed, h]
  rfl

theorem wellFormed_getD {value : Option Value} {default : Json} (h : wellFormed default = true) :
    wellFormed ((value.map (·.1)).getD default) = true := by
  cases value with
  | none => exact h
  | some value => exact value.2

theorem wellFormed_lookup_getD (dict : Dict) (key : String) {default : Json}
    (h : wellFormed default = true) : wellFormed ((dict.1.lookup key).getD default) = true := by
  have hdict := dict.2
  rw [wellFormed, Bool.and_eq_true] at hdict
  cases hlookup : dict.1.lookup key with
  | none => exact h
  | some value => exact wellFormed_of_lookup hdict.2 hlookup

theorem wellFormed_finishReason (payload : CompletionPayload) :
    wellFormed payload.finishReason = true := by
  unfold CompletionPayload.finishReason
  split
  next => rfl
  next choice _ _ =>
    split
    next => exact choice.finishReason.2
    next =>
      split
      next => rfl
      next => rfl

theorem wellFormed_chunkEvent (hdelta : wellFormed (.object delta) = true)
    (hfinish : wellFormed finishReason = true)
    (hextra : extra = [] ∨ ∃ usage : Value, extra = [("usage", usage.1)]) :
    wellFormed (.object (payload.chunkEvent now delta finishReason ++ extra)) = true := by
  have hid : wellFormed (payload.completionId now) = true := wellFormed_getD rfl
  have hmodel : wellFormed payload.modelName = true := wellFormed_getD rfl
  have hchoice : wellFormed (.object [("index", .number "0"), ("delta", .object delta),
      ("finish_reason", finishReason)]) = true := by
    have hkeys : ["index", "delta", "finish_reason"].Nodup := by decide
    refine wellFormed_object hkeys ?_
    rw [entriesWellFormed, entriesWellFormed, entriesWellFormed, hdelta, hfinish]
    rfl
  have hchoices := wellFormed_array_singleton hchoice
  rcases hextra with rfl | ⟨usage, rfl⟩
  · have hkeys : ["id", "object", "model", "choices"].Nodup := by decide
    refine wellFormed_object hkeys ?_
    simp only [CompletionPayload.chunkEvent, List.append_nil, entriesWellFormed, hid, hmodel,
      hchoices]
    rfl
  · have hkeys : ["id", "object", "model", "choices", "usage"].Nodup := by decide
    refine wellFormed_object hkeys ?_
    simp only [CompletionPayload.chunkEvent, List.cons_append, List.nil_append, entriesWellFormed,
      hid, hmodel, hchoices, usage.2]
    rfl

theorem wellFormed_toolCallDelta (tc : Dict) (idx : Nat) :
    wellFormed (CompletionPayload.toolCallDelta tc.1 idx) = true := by
  have hid : wellFormed ((tc.1.lookup "id").getD (.string "")) = true :=
    wellFormed_lookup_getD tc "id" rfl
  have hfunction : wellFormed ((tc.1.lookup "function").getD (.object [])) = true :=
    wellFormed_lookup_getD tc "function" rfl
  have hkeys : ["index", "id", "type", "function"].Nodup := by decide
  refine wellFormed_object hkeys ?_
  rw [entriesWellFormed, entriesWellFormed, entriesWellFormed, entriesWellFormed, wellFormed_nat,
    hid, hfunction]
  rfl

/-- Each event can be written. -/
theorem wellFormed_events (now : Nat) (payload : CompletionPayload) :
    ∀ event ∈ payload.events now, wellFormed (.object event) = true := by
  unfold CompletionPayload.events
  split
  next error _ _ => exact List.forall_mem_singleton.2 (wellFormed_singleton error.2)
  next =>
    have hplain {delta : JsonObject} (hdelta : wellFormed (.object delta) = true) :
        wellFormed (.object (payload.chunkEvent now delta .null)) = true := by
      have hchunk := @wellFormed_chunkEvent payload now delta [] .null hdelta rfl (.inl rfl)
      rwa [List.append_nil] at hchunk
    intro event hmem
    simp only [List.mem_append, List.mem_cons, List.mem_map, List.not_mem_nil, or_false] at hmem
    rcases hmem with ((rfl | ⟨textPiece, -, rfl⟩) | ⟨tc, -, rfl⟩) | rfl
    · exact hplain (wellFormed_singleton rfl)
    · exact hplain (wellFormed_singleton rfl)
    · exact hplain (wellFormed_singleton
        (wellFormed_array_singleton (wellFormed_toolCallDelta tc.1 tc.2)))
    · refine wellFormed_chunkEvent rfl (wellFormed_finishReason payload) ?_
      split
      next => exact .inr ⟨payload.usage, rfl⟩
      next => exact .inl rfl

theorem lookup_chunkEvent_choices : (payload.chunkEvent now delta finishReason ++ extra).lookup
    "choices" = some (.array [.object [("index", .number "0"), ("delta", .object delta),
      ("finish_reason", finishReason)]]) := by
  simp [CompletionPayload.chunkEvent, List.lookup_cons]

theorem lookup_chunkEvent_usage :
    (payload.chunkEvent now delta finishReason ++ extra).lookup "usage" = extra.lookup "usage" := by
  simp [CompletionPayload.chunkEvent, List.lookup_cons]

/-- A chunk says what its delta does. -/
theorem accumulateData_chunkEvent (acc : List Json) :
    accumulateData acc (.object (payload.chunkEvent now delta finishReason ++ extra)) =
      some (if truthy ((delta.lookup "content").getD .null) then
        acc ++ [(delta.lookup "content").getD .null] else acc) := by
  simp [accumulateData, getItem, lookup_chunkEvent_choices, firstItem, truthy, List.lookup_cons]

theorem deltaToolCalls_chunkEvent :
    deltaToolCalls (.object (payload.chunkEvent now delta finishReason ++ extra)) =
      match delta.lookup "tool_calls" with
      | some (.array toolCalls) => toolCalls
      | _ => [] := by
  simp [deltaToolCalls, get?, lookup_chunkEvent_choices, firstItem, List.lookup_cons]

theorem extractUsage_chunkEvent (int : Json → Except IntError Int) (stats : Usage) :
    extractUsage int stats (.object (payload.chunkEvent now delta finishReason ++ extra)) =
      (usageFromPayload int ((extra.lookup "usage").getD .null)).map fun usage =>
        if usage.totalTokens.isSome then usage else stats := by
  simp only [extractUsage, getItem, lookup_chunkEvent_usage, Option.map_eq_bind]
  rfl

theorem chunkEvent_plain :
    payload.chunkEvent now delta finishReason =
      payload.chunkEvent now delta finishReason ++ [] := (List.append_nil _).symm

/-- A chunk without content, and without usage. -/
theorem accumulateData_plain (hcontent : delta.lookup "content" = none) (acc : List Json) :
    accumulateData acc (.object (payload.chunkEvent now delta finishReason)) = some acc := by
  rw [chunkEvent_plain, accumulateData_chunkEvent, hcontent]
  rfl

theorem extractUsage_plain (int : Json → Except IntError Int) (stats : Usage) :
    extractUsage int stats (.object (payload.chunkEvent now delta finishReason)) = some stats := by
  rw [chunkEvent_plain, extractUsage_chunkEvent]
  rfl

end

/-! ## What is read -/

theorem foldlM_keep {σ α : Type} {f : σ → α → Option σ} {l : List α}
    (h : ∀ x ∈ l, ∀ s, f s x = some s) (s : σ) : l.foldlM f s = some s := by
  induction l with
  | nil => rfl
  | cons x l ih =>
    rw [List.foldlM_cons, h x List.mem_cons_self s]
    exact ih fun y hy => h y (List.mem_cons_of_mem _ hy)

theorem mapM_contentText (pieces : List (List Char)) :
    (pieces.map fun piece => Json.string (String.ofList piece)).mapM contentText = some pieces := by
  induction pieces with
  | nil => rfl
  | cons piece pieces ih =>
    rw [List.map_cons, List.mapM_cons, ih, contentText, String.toList_ofList]
    rfl

section
variable {payload : CompletionPayload} {now : Nat}

theorem events_of_failed (h : payload.failed = true) :
    ∃ error, payload.events now = [[("error", error)]] := by
  obtain ⟨herror, hchoices⟩ := Bool.and_eq_true_iff.1 h
  obtain ⟨error, herror⟩ := Option.isSome_iff_exists.1 herror
  rw [CompletionPayload.events, herror, List.isEmpty_iff.1 hchoices]
  exact ⟨_, rfl⟩

theorem events_of_not_failed (h : payload.failed = false) : payload.events now =
    payload.chunkEvent now [("role", .string "assistant")] .null ::
      (textPieces 24 payload.content.toList).map (fun textPiece =>
        payload.chunkEvent now [("content", .string (String.ofList textPiece))] .null) ++
      payload.toolCalls.zipIdx.map (fun (tc, idx) =>
        payload.chunkEvent now
          [("tool_calls", .array [CompletionPayload.toolCallDelta tc.1 idx])] .null) ++
      [payload.chunkEvent now [] payload.finishReason ++
        if truthy payload.usage.1 then [("usage", payload.usage.1)] else []] := by
  rw [CompletionPayload.events]
  split
  next error herror hchoices =>
    rw [CompletionPayload.failed, herror, hchoices] at h
    cases h
  next => rfl

theorem foldlM_pieces {pieces : List (List Char)} (h : ∀ piece ∈ pieces, piece ≠ [])
    (acc : List Json) :
    (pieces.map fun piece =>
        payload.chunkEvent now [("content", .string (String.ofList piece))] .null).foldlM
      (fun acc event => accumulateData acc (.object event)) acc =
      some (acc ++ pieces.map fun piece => .string (String.ofList piece)) := by
  induction pieces generalizing acc with
  | nil => rw [List.map_nil, List.map_nil, List.append_nil]; rfl
  | cons piece pieces ih =>
    have hpiece : truthy (.string (String.ofList piece)) = true := by
      simpa [truthy] using h piece List.mem_cons_self
    have hread : accumulateData acc
        (.object (payload.chunkEvent now [("content", .string (String.ofList piece))] .null)) =
        some (acc ++ [.string (String.ofList piece)]) := by
      rw [chunkEvent_plain, accumulateData_chunkEvent]
      exact congrArg some (if_pos hpiece)
    rw [List.map_cons, List.foldlM_cons, hread]
    refine (ih (fun p hp => h p (List.mem_cons_of_mem _ hp)) _).trans ?_
    rw [List.append_assoc, List.singleton_append, List.map_cons]

theorem ne_nil_of_mem_textPieces {size : Nat} {content piece : List Char}
    (h : piece ∈ textPieces size content) : piece ≠ [] := by
  simpa using (List.mem_filter.1 h).2

theorem foldlM_content (h : payload.failed = false) :
    (payload.events now).foldlM (fun acc event => accumulateData acc (.object event)) [] =
      some ((textPieces 24 payload.content.toList).map fun piece =>
        .string (String.ofList piece)) := by
  have hpieces := @foldlM_pieces payload now _
    fun piece => @ne_nil_of_mem_textPieces 24 payload.content.toList piece
  have hcalls : ∀ acc, (payload.toolCalls.zipIdx.map fun (tc, idx) =>
      payload.chunkEvent now
        [("tool_calls", .array [CompletionPayload.toolCallDelta tc.1 idx])] .null).foldlM
      (fun acc event => accumulateData acc (.object event)) acc = some acc := by
    intro acc
    refine foldlM_keep (fun event hmem acc => ?_) acc
    obtain ⟨tc, -, rfl⟩ := List.mem_map.1 hmem
    exact accumulateData_plain rfl acc
  have hrole : ∀ acc, accumulateData acc
      (.object (payload.chunkEvent now [("role", .string "assistant")] .null)) = some acc :=
    accumulateData_plain rfl
  have hlast : ∀ extra acc, accumulateData acc
      (.object (payload.chunkEvent now [] payload.finishReason ++ extra)) = some acc :=
    fun extra acc => accumulateData_chunkEvent acc
  rw [events_of_not_failed h]
  simp only [List.cons_append, List.foldlM_cons, List.foldlM_append, List.foldlM_nil, hrole,
    hpieces, hcalls, hlast, Option.bind_eq_bind, Option.bind_some, List.nil_append]
  rfl

theorem streamContent_nonstreamToSse (now : Nat) (payload : CompletionPayload) :
    streamContent (nonstreamToSse now payload) = some payload.content.toList := by
  have hread : (nonstreamToSse now payload).foldlM accumulateStreamContent [] =
      (payload.events now).foldlM (fun acc event => accumulateData acc (.object event)) [] :=
    foldlM_chunks accumulateData (wellFormed_events now payload) []
  rw [streamContent, hread]
  cases hfailed : payload.failed with
  | true =>
    obtain ⟨error, hevents⟩ := @events_of_failed payload now hfailed
    have hchoices := List.isEmpty_iff.1 (Bool.and_eq_true_iff.1 hfailed).2
    rw [hevents, CompletionPayload.content, hchoices]
    rfl
  | false =>
    rw [foldlM_content hfailed, Option.bind_some, joinContent, mapM_contentText, Option.map_some,
      flatten_textPieces (by decide)]

theorem streamToolCalls_nonstreamToSse (now : Nat) (payload : CompletionPayload) :
    streamToolCalls (nonstreamToSse now payload) =
      payload.toolCalls.zipIdx.map fun (tc, idx) => CompletionPayload.toolCallDelta tc.1 idx := by
  rw [nonstreamToSse, streamToolCalls_chunks (wellFormed_events now payload)]
  cases hfailed : payload.failed with
  | true =>
    obtain ⟨error, hevents⟩ := @events_of_failed payload now hfailed
    have hchoices := List.isEmpty_iff.1 (Bool.and_eq_true_iff.1 hfailed).2
    rw [hevents, CompletionPayload.toolCalls, hchoices]
    rfl
  | false =>
    have hplain {delta : JsonObject} (hdelta : delta.lookup "tool_calls" = none) :
        deltaToolCalls (.object (payload.chunkEvent now delta .null)) = [] := by
      rw [chunkEvent_plain, deltaToolCalls_chunkEvent, hdelta]
    have hpieces : ((textPieces 24 payload.content.toList).map fun textPiece =>
        payload.chunkEvent now [("content", .string (String.ofList textPiece))] .null).flatMap
        (fun event => deltaToolCalls (.object event)) = [] := by
      rw [List.flatMap_map, List.flatMap_eq_nil_iff]
      exact fun textPiece _ => hplain rfl
    have hcalls : (payload.toolCalls.zipIdx.map fun (tc, idx) => payload.chunkEvent now
        [("tool_calls", .array [CompletionPayload.toolCallDelta tc.1 idx])] .null).flatMap
        (fun event => deltaToolCalls (.object event)) =
        payload.toolCalls.zipIdx.map fun (tc, idx) => CompletionPayload.toolCallDelta tc.1 idx := by
      rw [List.flatMap_map, List.map_eq_flatMap]
      refine List.flatMap_congr fun tc _ => ?_
      obtain ⟨tc, idx⟩ := tc
      dsimp only
      rw [chunkEvent_plain, deltaToolCalls_chunkEvent]
      rfl
    have hlast (extra : JsonObject) : deltaToolCalls
        (.object (payload.chunkEvent now [] payload.finishReason ++ extra)) = [] := by
      rw [deltaToolCalls_chunkEvent]
      rfl
    rw [events_of_not_failed hfailed, List.flatMap_append, List.flatMap_append, List.flatMap_cons,
      hplain rfl, hpieces, hcalls, List.flatMap_singleton, hlast, List.append_nil]
    rfl

/-- What is no usage has no counts. -/
theorem usageFromPayload_of_falsy (int : Json → Except IntError Int) {raw : Json}
    (h : truthy raw = false) : usageFromPayload int raw = some ⟨none, none, none⟩ := by
  cases raw with
  | object entries =>
    have hnil : entries = [] := by simpa [truthy] using h
    rw [hnil]
    rfl
  | _ => rfl

theorem streamUsage_nonstreamToSse (int : Json → Except IntError Int) (now : Nat)
    (payload : CompletionPayload) :
    streamUsage int (nonstreamToSse now payload) =
      if payload.failed then some ⟨none, none, none⟩
      else (usageFromPayload int payload.usage.1).map fun usage =>
        if usage.totalTokens.isSome then usage else ⟨none, none, none⟩ := by
  have hread : (nonstreamToSse now payload).foldlM (extractUsageFromChunk int) ⟨none, none, none⟩ =
      (payload.events now).foldlM (fun stats event => extractUsage int stats (.object event))
        ⟨none, none, none⟩ :=
    foldlM_chunks (extractUsage int) (wellFormed_events now payload) _
  rw [streamUsage, hread]
  cases hfailed : payload.failed with
  | true =>
    obtain ⟨error, hevents⟩ := @events_of_failed payload now hfailed
    rw [hevents]
    rfl
  | false =>
    have hpieces : ∀ stats, ((textPieces 24 payload.content.toList).map fun textPiece =>
        payload.chunkEvent now [("content", .string (String.ofList textPiece))] .null).foldlM
        (fun stats event => extractUsage int stats (.object event)) stats = some stats := by
      refine foldlM_keep fun event hmem stats => ?_
      obtain ⟨textPiece, -, rfl⟩ := List.mem_map.1 hmem
      exact extractUsage_plain int stats
    have hcalls : ∀ stats, (payload.toolCalls.zipIdx.map fun (tc, idx) =>
        payload.chunkEvent now
          [("tool_calls", .array [CompletionPayload.toolCallDelta tc.1 idx])] .null).foldlM
        (fun stats event => extractUsage int stats (.object event)) stats = some stats := by
      refine foldlM_keep fun event hmem stats => ?_
      obtain ⟨tc, -, rfl⟩ := List.mem_map.1 hmem
      exact extractUsage_plain int stats
    have hraw : usageFromPayload int (((if truthy payload.usage.1 then
        [("usage", payload.usage.1)] else []).lookup "usage").getD .null) =
        usageFromPayload int payload.usage.1 := by
      split
      next => rfl
      next hfalsy => exact (usageFromPayload_of_falsy int (Bool.not_eq_true _ ▸ hfalsy)).symm
    rw [events_of_not_failed hfailed]
    simp only [List.cons_append, List.foldlM_cons, List.foldlM_append, List.foldlM_nil,
      extractUsage_plain, hpieces, hcalls, extractUsage_chunkEvent, hraw, Option.bind_eq_bind,
      Option.bind_some, bind_pure]
    rfl

/-- What is read of an answer that was written as a stream. -/
structure ReadsBack (int : Json → Except IntError Int) (now : Nat) (payload : CompletionPayload) :
    Prop where
  content : streamContent (nonstreamToSse now payload) = some payload.content.toList
  /-- Each has its place as index. -/
  toolCalls : streamToolCalls (nonstreamToSse now payload) =
    payload.toolCalls.zipIdx.map fun (tc, idx) => CompletionPayload.toolCallDelta tc.1 idx
  /-- If it has a total. -/
  usage : streamUsage int (nonstreamToSse now payload) =
    if payload.failed then some ⟨none, none, none⟩
    else (usageFromPayload int payload.usage.1).map fun usage =>
      if usage.totalTokens.isSome then usage else ⟨none, none, none⟩
  done : (nonstreamToSse now payload).getLast? = some doneChunk

/-- Every answer is. -/
theorem nonstreamToSse_readsBack (int : Json → Except IntError Int) (now : Nat)
    (payload : CompletionPayload) : ReadsBack int now payload where
  content := streamContent_nonstreamToSse now payload
  toolCalls := streamToolCalls_nonstreamToSse now payload
  usage := streamUsage_nonstreamToSse int now payload
  done := List.getLast?_concat

/-! ## The stream as the contents of its deltas -/

/-- The content of the first choice's delta. -/
def deltaContent (parsed : Json) : Option (List Char) :=
  (parsed.get? "choices").bind firstItem |>.bind (get? "delta") |>.bind (get? "content")
    |>.bind contentText

/-- What `accumulateStreamContent` of contents is told of a chunk. -/
def sseEvent (chunk : List Char) : SseEvent :=
  match chunkData chunk with
  | [] => .done
  | parsed :: _ => .data [deltaContent parsed]

/-- The payload, as far as its contents go. -/
def CompletionPayload.response (payload : CompletionPayload) : Pii.ResponsePayload :=
  ⟨some (payload.choices.map fun choice => choice.message.content.map String.toList)⟩

theorem messageContent_response (payload : CompletionPayload) :
    messageContent payload.response = payload.content.toList := by
  rw [messageContent, CompletionPayload.response, CompletionPayload.content]
  cases payload.choices with
  | nil => rfl
  | cons choice choices =>
    rw [Option.getD_some, List.map_cons, List.head?_cons, List.head?_cons, Option.bind_some]
    cases choice.message.content with
    | none => rfl
    | some content => rfl

theorem sseEvent_sseData {event : JsonObject} (h : wellFormed (.object event) = true) :
    sseEvent (sseData event) = .data [deltaContent (.object event)] := by
  rw [sseEvent, chunkData_sseData h]

theorem sseEvent_doneChunk : sseEvent doneChunk = .done := by
  rw [sseEvent, chunkData_doneChunk]

theorem deltaContent_chunkEvent {delta extra : JsonObject} {finishReason : Json} :
    deltaContent (.object (payload.chunkEvent now delta finishReason ++ extra)) =
      (delta.lookup "content").bind contentText := by
  simp [deltaContent, get?, lookup_chunkEvent_choices, firstItem, List.lookup_cons]

/-- An answer's chunks are the events of its contents. -/
theorem map_sseEvent_nonstreamToSse (h : payload.failed = false) :
    (nonstreamToSse now payload).map sseEvent =
      Gateway.nonstreamToSse payload.response payload.toolCalls.length := by
  have hmap : ((payload.events now).map sseData).map sseEvent =
      (payload.events now).map fun event => .data [deltaContent (.object event)] := by
    rw [List.map_map]
    exact List.map_congr_left fun event hmem =>
      sseEvent_sseData (wellFormed_events now payload event hmem)
  rw [nonstreamToSse, List.map_append, hmap, List.map_singleton, sseEvent_doneChunk,
    events_of_not_failed h, Gateway.nonstreamToSse, messageContent_response]
  have hplain (delta : JsonObject) (finishReason : Json) :
      deltaContent (.object (payload.chunkEvent now delta finishReason)) =
        (delta.lookup "content").bind contentText := by
    rw [chunkEvent_plain, deltaContent_chunkEvent]
  have hpiece (textPiece : List Char) : deltaContent (.object (payload.chunkEvent now
      [("content", .string (String.ofList textPiece))] .null)) = some textPiece := by
    rw [hplain]
    exact congrArg some String.toList_ofList
  have hcalls : (payload.toolCalls.zipIdx.map fun (tc, idx) => payload.chunkEvent now
      [("tool_calls", .array [CompletionPayload.toolCallDelta tc.1 idx])] .null).map
      (fun event => SseEvent.data [deltaContent (.object event)]) =
      List.replicate payload.toolCalls.length (.data [none]) := by
    rw [List.map_map, List.eq_replicate_iff, List.length_map, List.length_zipIdx]
    refine ⟨rfl, fun event hmem => ?_⟩
    obtain ⟨⟨tc, idx⟩, -, rfl⟩ := List.mem_map.1 hmem
    rw [Function.comp_apply]
    dsimp only
    rw [hplain]
    rfl
  rw [List.map_append, List.map_append, List.map_cons, List.map_map, hcalls, List.map_singleton,
    hplain, deltaContent_chunkEvent]
  simp only [Function.comp_def, hpiece, List.append_assoc]
  rfl

/-! ## What is not read -/

/-- All that an answer says is read: each tool call, up to the index, and the usage. -/
structure ReadsAll (int : Json → Except IntError Int) (now : Nat) (payload : CompletionPayload) :
    Prop where
  content : streamContent (nonstreamToSse now payload) = some payload.content.toList
  toolCalls : List.Forall₂ (fun read tc => ∀ key ≠ "index", get? key read = tc.1.lookup key)
    (streamToolCalls (nonstreamToSse now payload)) payload.toolCalls
  usage : streamUsage int (nonstreamToSse now payload) = usageFromPayload int payload.usage.1
  done : (nonstreamToSse now payload).getLast? = some doneChunk

/-- Of a number written with digits alone. -/
def intOfDigits : Json → Except IntError Int
  | .number text => .ok (text.toList.foldl (fun n c => 10 * n + (c.toNat - '0'.toNat)) 0)
  | _ => .error .typeError

/-- An answer that asks for a tool that is no function. -/
def customCall : CompletionPayload where
  error := none
  choices := [{
    message := {
      content := none
      toolCalls := [⟨[("id", .string "call_1"), ("type", .string "custom"),
        ("custom", .object [("name", .string "grep")])], by decide⟩] }
    finishReason := ⟨.string "tool_calls", rfl⟩ }]
  id := none
  model := none
  usage := ⟨.null, rfl⟩

/-- A usage without a total. -/
def partialUsage : CompletionPayload where
  error := none
  choices := []
  id := none
  model := none
  usage := ⟨.object [("prompt_tokens", .number "5"), ("completion_tokens", .number "2")], by decide⟩

/-- An error that has cost tokens. -/
def failedAnswer : CompletionPayload where
  error := some ⟨.string "upstream", rfl⟩
  choices := []
  id := none
  model := none
  usage := ⟨.object [("total_tokens", .number "5")], by decide⟩

theorem not_readsAll : ¬ ReadsAll intOfDigits 0 customCall ∧
    ¬ ReadsAll intOfDigits 0 partialUsage ∧ ¬ ReadsAll intOfDigits 0 failedAnswer := by
  refine ⟨fun H => ?_, fun H => ?_, fun H => ?_⟩
  · have hcalls := H.toolCalls
    rw [streamToolCalls_nonstreamToSse] at hcalls
    cases hcalls with
    | cons hcall _ =>
      have htype := hcall "type" (by decide)
      revert htype
      decide
  · have husage := H.usage
    rw [streamUsage_nonstreamToSse] at husage
    revert husage
    decide
  · have husage := H.usage
    rw [streamUsage_nonstreamToSse] at husage
    revert husage
    decide

end

end LlmPort.Gateway.Sse
