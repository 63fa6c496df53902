import LlmPort.Frontend.ChatClient

/-!
# What the chat client reads of a stream

The gateway writes each event as one line of ASCII, with an empty line behind it. However these
bytes are cut into chunks, the readers yield the same deltas, and the contents of these are the
content of the events.
-/

namespace LlmPort.Frontend

open Text Text.Json Gateway.Sse

/-! ## What the gateway sends -/

/-- A chunk of a completion. -/
structure CompletionChunk where
  entries : JsonObject
  wellFormed : wellFormed (.object entries) = true
  choices : List Json
  hasChoices : entries.lookup "choices" = some (.array choices)
  noError : jsTruthy (entries.lookup "error") = false

/-- The events of an answer: chunks of the completion, an error where there was one, and the mark
of the end, unless the connection ended before. -/
structure GatewayStream where
  events : List CompletionChunk
  failure : Option Value
  done : Bool

/-- The line of an event. -/
def eventLine (event : JsonObject) : List Char := "data:".toList ++ ' ' :: dumpsAscii (.object event)

namespace GatewayStream

variable (g : GatewayStream)

/-- The error, and the mark of the end. -/
def closing : List Char :=
  (g.failure.elim [] fun error => sseData [("error", error.1)]) ++ if g.done then doneChunk else []

def text : List Char := (g.events.flatMap fun event => sseData event.entries) ++ g.closing

def bytes : List UInt8 := g.text.map fun c => UInt8.ofNat c.toNat

/-- The content of the events, as the gateway keeps it. -/
def content : List Char := g.events.flatMap fun event => (deltaContent (.object event.entries)).getD []

end GatewayStream

/-- The contents that were yielded, one behind the other. -/
def contents (deltas : List StreamDelta) : List Char :=
  deltas.flatMap fun delta => (delta.content.bind contentText).getD []

/-! ## One line -/

variable {platform : Platform} {traceId : Option String} {emitted : Bool} {parsed : Json}
  {event : JsonObject} {g : GatewayStream}

theorem dataOf_eventLine (event : JsonObject) :
    dataOf (eventLine event) = some (dumpsAscii (.object event)) := by
  obtain ⟨text, htext⟩ := dumpsAscii_object event
  have hclose : isJsSpace '}' = false := by decide
  have hd : isJsSpace 'd' = false := by decide
  have hopen : isJsSpace '{' = false := by decide
  have hspace : ∀ c ∈ [' '], isJsSpace c := List.forall_mem_singleton.2 (by decide)
  have hline : trim isJsSpace (eventLine event) = eventLine event := by
    have hends : eventLine event = 'd' :: (("ata: ".toList ++ '{' :: text) ++ ['}']) := by
      rw [eventLine, htext]
      simp
    rw [hends, trim_cons_of_neg hd, List.rdropWhile_concat_neg _ _ _ (by simp [hclose])]
  have hdata : trim isJsSpace ((eventLine event).drop 5) = dumpsAscii (.object event) := by
    have hdrop : (eventLine event).drop 5 = [' '] ++ dumpsAscii (.object event) := rfl
    rw [hdrop, trim_append_of_all hspace, htext, trim_cons_of_neg hopen,
      List.rdropWhile_concat_neg _ _ _ (by simp [hclose])]
  have hprefix : "data:".toList.isPrefixOf (eventLine event) = true :=
    List.isPrefixOf_iff_prefix.2 (List.prefix_append _ _)
  rw [dataOf, hline]
  exact (if_pos hprefix).trans (congrArg some hdata)

theorem dumps_ne_done (event : JsonObject) : dumpsAscii (.object event) ≠ "[DONE]".toList := by
  obtain ⟨text, htext⟩ := dumpsAscii_object event
  rw [htext]
  intro heq
  cases heq

theorem contentText_of_falsy {content : Option Json} (h : jsTruthy content = false) :
    (content.bind contentText).getD [] = [] := by
  rcases content with _ | ⟨_ | _ | _ | s | _ | _⟩
  case some.string =>
    have hempty : s.isEmpty = true := by simpa [jsTruthy, truthy] using h
    rw [String.isEmpty_iff.1 hempty]
    rfl
  all_goals rfl

theorem contents_ite {delta : StreamDelta} (h : delta.content = none) (yields : Bool) :
    contents (if yields then some delta else none).toList = [] := by
  cases yields with
  | true => simp [contents, h]
  | false => rfl

theorem contents_readDelta (traceId : Option String) (emitted : Bool) (parsed : Json) :
    contents (readDelta traceId emitted parsed).2.toList =
      ((optGet "content" (optGet "delta" (optFirst (get? "choices" parsed)))).bind
        contentText).getD [] := by
  rw [readDelta]
  generalize optGet "content" (optGet "delta" (optFirst (get? "choices" parsed))) = content
  cases hcontent : jsTruthy content with
  | true =>
    cases content with
    | none => cases hcontent
    | some content => simp [contents]
  | false =>
    rw [contentText_of_falsy hcontent]
    exact contents_ite rfl _

/-- The content of a delta is what its chunk says. -/
theorem contents_readDelta_chunk (chunk : CompletionChunk) (traceId : Option String)
    (emitted : Bool) : contents (readDelta traceId emitted (.object chunk.entries)).2.toList =
      (deltaContent (.object chunk.entries)).getD [] := by
  have hchoices : get? "choices" (.object chunk.entries) = some (.array chunk.choices) :=
    chunk.hasChoices
  have hfirst : firstItem (.array chunk.choices) = optFirst (some (.array chunk.choices)) := by
    cases chunk.choices <;> rfl
  rw [contents_readDelta, deltaContent, hchoices, Option.bind_some, hfirst]
  rfl

theorem errorOf_object (platform : Platform) (event : JsonObject) :
    errorOf platform (.object event) = .ok (event.lookup "error") := rfl

/-- What `JSON.parse` gives for an event that has no error. -/
theorem streamChatData_event (h : wellFormed (.object event) = true) :
    streamChatData platform traceId emitted (dumpsAscii (.object event)) =
      if jsTruthy (event.lookup "error") then
        .error (gatewayMessage platform (.object event) (event.lookup "error"))
      else .ok (readDelta traceId emitted (.object event)) := by
  rw [streamChatData, platform.parse_dumps _ h]
  change ((errorOf platform (.object event)).bind fun error =>
    if jsTruthy error then .error (gatewayMessage platform (.object event) error)
    else .ok (readDelta traceId emitted (.object event))) = _
  rw [errorOf_object]
  rfl

theorem resumeStreamData_event (h : wellFormed (.object event) = true) :
    resumeStreamData platform traceId emitted (dumpsAscii (.object event)) =
      .ok (if jsTruthy (event.lookup "error") then (emitted, none)
        else readDelta traceId emitted (.object event)) := by
  rw [resumeStreamData, platform.parse_dumps _ h]
  change ((errorOf platform (.object event)).bind fun error =>
    if jsTruthy error then .ok (emitted, none)
    else .ok (readDelta traceId emitted (.object event))) = _
  rw [errorOf_object]
  exact (apply_ite Except.ok _ _ _).symm

/-! ## Readers -/

/-- A line handler that follows the lines of the gateway. -/
structure Follows (traceId : Option String)
    (line : Bool → List Char → LineResult Bool StreamDelta ReadEnd) : Prop where
  blank : ∀ emitted, line emitted [] = .next emitted none
  chunk : ∀ emitted (chunk : CompletionChunk), line emitted (eventLine chunk.entries) =
    .next (readDelta traceId emitted (.object chunk.entries)).1
      (readDelta traceId emitted (.object chunk.entries)).2
  /-- An error is passed over, stops the reader, or is a delta without content. -/
  failure : ∀ emitted (error : Value),
    (∃ emitted' delta, line emitted (eventLine [("error", error.1)]) = .next emitted' delta ∧
      contents delta.toList = []) ∨
    ∃ readEnd, line emitted (eventLine [("error", error.1)]) = .stop readEnd
  done : ∀ emitted, line emitted "data: [DONE]".toList = .stop .returned

theorem dataOf_done : dataOf "data: [DONE]".toList = some "[DONE]".toList := rfl

theorem wellFormed_error (error : Value) : wellFormed (.object [("error", error.1)]) = true :=
  wellFormed_object (List.nodup_singleton _) (by simp [entriesWellFormed, error.2])

/-- An error has no choices, and so no content. -/
theorem contents_readDelta_error (error : Json) (traceId : Option String) (emitted : Bool) :
    contents (readDelta traceId emitted (.object [("error", error)])).2.toList = [] :=
  contents_readDelta traceId emitted _

theorem follows_streamChat (platform : Platform) (traceId : Option String) :
    Follows traceId (streamChatLine platform traceId) where
  blank emitted := rfl
  chunk emitted chunk := by
    rw [streamChatLine, dataOf_eventLine]
    dsimp only
    rw [if_neg (dumps_ne_done _), streamChatData_event chunk.wellFormed, chunk.noError]
    rfl
  failure emitted error := by
    rw [streamChatLine, dataOf_eventLine]
    dsimp only
    rw [if_neg (dumps_ne_done _), streamChatData_event (wellFormed_error error)]
    cases hthrown : jsTruthy (List.lookup "error" [("error", error.1)]) with
    | true =>
      rw [if_pos rfl]
      dsimp only
      split
      next => exact .inl ⟨emitted, none, rfl, rfl⟩
      next => exact .inr ⟨_, rfl⟩
    | false => exact .inl ⟨_, _, rfl, contents_readDelta_error _ _ _⟩
  done emitted := by
    rw [streamChatLine, dataOf_done]
    exact if_pos rfl

theorem follows_resumeStream (platform : Platform) (traceId : Option String) :
    Follows traceId (resumeStreamLine platform traceId) where
  blank emitted := rfl
  chunk emitted chunk := by
    rw [resumeStreamLine, dataOf_eventLine]
    dsimp only
    rw [if_neg (dumps_ne_done _), resumeStreamData_event chunk.wellFormed, chunk.noError]
    rfl
  failure emitted error := by
    rw [resumeStreamLine, dataOf_eventLine]
    dsimp only
    rw [if_neg (dumps_ne_done _), resumeStreamData_event (wellFormed_error error)]
    cases hpassed : jsTruthy (List.lookup "error" [("error", error.1)]) with
    | true => exact .inl ⟨emitted, none, rfl, rfl⟩
    | false => exact .inl ⟨_, _, rfl, contents_readDelta_error _ _ _⟩
  done emitted := by
    rw [resumeStreamLine, dataOf_done]
    exact if_pos rfl

/-! ## The lines of a stream -/

theorem isAscii_eventLine (h : wellFormed (.object event) = true) :
    ∀ c ∈ eventLine event, 32 ≤ c.toNat ∧ c.toNat < 127 := by
  have hfield : ∀ c ∈ "data:".toList, 32 ≤ c.toNat ∧ c.toNat < 127 := by simp
  intro c hc
  rcases List.mem_append.1 hc with hc | hc
  · exact hfield c hc
  · rcases List.mem_cons.1 hc with rfl | hc
    · decide
    · exact of_decide_eq_true (List.all_eq_true.1 (isPrintable_dumps _ h) c hc)

theorem sseData_eq (event : JsonObject) : sseData event = eventLine event ++ ['\n', '\n'] := by
  rw [sseData, eventLine, List.append_assoc, List.cons_append]

/-- An event is a line, and an empty one. -/
theorem cutLines_sseData (h : wellFormed (.object event) = true) (text : List Char) :
    (cutLines (sseData event ++ text)).1 = eventLine event :: [] :: (cutLines text).1 := by
  have hbreak : '\n' ∉ eventLine event := fun hmem =>
    absurd (isAscii_eventLine h _ hmem).1 (by decide)
  have hlines : sseData event ++ text = eventLine event ++ '\n' :: ([] ++ '\n' :: text) := by
    rw [sseData_eq, List.append_assoc]
    rfl
  rw [hlines, cutLines_line hbreak, cutLines_line List.not_mem_nil]

theorem isAscii_sseData (h : wellFormed (.object event) = true) :
    ∀ c ∈ sseData event, c.toNat < 128 := by
  have hbreaks : ∀ c ∈ ['\n', '\n'], c.toNat < 128 := by simp
  intro c hc
  rw [sseData_eq] at hc
  rcases List.mem_append.1 hc with hc | hc
  · exact (isAscii_eventLine h c hc).2.trans (by decide)
  · exact hbreaks c hc

namespace GatewayStream

theorem isAscii_closing (g : GatewayStream) : ∀ c ∈ g.closing, c.toNat < 128 := by
  intro c hc
  rcases List.mem_append.1 hc with hc | hc
  · cases hfailure : g.failure with
    | none =>
      rw [hfailure] at hc
      cases hc
    | some error =>
      rw [hfailure] at hc
      exact isAscii_sseData (wellFormed_error error) c hc
  · have hall : (doneChunk.all fun c => Nat.blt c.toNat 128) = true := by decide
    have hdone : ∀ c ∈ doneChunk, c.toNat < 128 :=
      fun c hc => Nat.le_of_ble_eq_true (List.all_eq_true.1 hall c hc)
    split at hc
    · exact hdone c hc
    · cases hc

theorem isAscii_text (g : GatewayStream) : ∀ c ∈ g.text, c.toNat < 128 := by
  intro c hc
  rcases List.mem_append.1 hc with hc | hc
  · obtain ⟨event, -, hevent⟩ := List.mem_flatMap.1 hc
    exact isAscii_sseData event.wellFormed c hevent
  · exact g.isAscii_closing c hc

end GatewayStream

section
variable {line : Bool → List Char → LineResult Bool StreamDelta ReadEnd}
  (follows : Follows traceId line)

include follows

theorem contents_readLines_done (done : Bool) (emitted : Bool) :
    contents (readLines line emitted (cutLines (if done then doneChunk else [])).1).1 = [] := by
  cases done with
  | false => rfl
  | true =>
    have hlines : (cutLines doneChunk).1 = ["data: [DONE]".toList, []] := rfl
    rw [if_pos rfl, hlines, readLines, follows.done]
    rfl

/-- Behind the chunks there is no content. -/
theorem contents_readLines_closing (g : GatewayStream) (emitted : Bool) :
    contents (readLines line emitted (cutLines g.closing).1).1 = [] := by
  rw [GatewayStream.closing]
  cases g.failure with
  | none => exact contents_readLines_done follows g.done emitted
  | some error =>
    rw [Option.elim_some, cutLines_sseData (wellFormed_error error), readLines]
    rcases follows.failure emitted error with ⟨emitted', delta, hnext, hsilent⟩ | ⟨readEnd, hstop⟩
    · rw [hnext]
      dsimp only
      rw [readLines, follows.blank]
      dsimp only [Option.toList_none, List.nil_append]
      rw [contents, List.flatMap_append]
      exact List.append_eq_nil_iff.2 ⟨hsilent, contents_readLines_done follows g.done emitted'⟩
    · rw [hstop]
      rfl

/-- The contents of the deltas are the content of the events. -/
theorem contents_readLines (g : GatewayStream) (emitted : Bool) :
    contents (readLines line emitted (cutLines g.text).1).1 = g.content := by
  obtain ⟨events, failure, done⟩ := g
  induction events generalizing emitted with
  | nil => exact contents_readLines_closing follows ⟨[], failure, done⟩ emitted
  | cons event events ih =>
    have htext : GatewayStream.text ⟨event :: events, failure, done⟩ =
        sseData event.entries ++ GatewayStream.text ⟨events, failure, done⟩ := by
      rw [GatewayStream.text, List.flatMap_cons, List.append_assoc]
      rfl
    rw [htext, cutLines_sseData event.wellFormed, readLines, follows.chunk]
    dsimp only
    rw [readLines, follows.blank]
    dsimp only [Option.toList_none, List.nil_append]
    rw [contents, List.flatMap_append]
    exact congrArg₂ _ (contents_readDelta_chunk event traceId emitted) (ih _)

end

/-! ## Chunks of the network -/

variable {chunks : List (List UInt8)}

theorem readStream_eq (line : Bool → List Char → LineResult Bool StreamDelta ReadEnd)
    (chunks : List (List UInt8)) :
    readStream platform line chunks = readStream platform line [chunks.flatten] := by
  rw [readStream, readStream, readChunks_eq _ rfl, readChunks_eq _ rfl, List.flatten_singleton]

theorem contents_readStream {line : Bool → List Char → LineResult Bool StreamDelta ReadEnd}
    (follows : Follows traceId line) (g : GatewayStream) :
    contents (readStream platform line [g.bytes]).1 = g.content := by
  have hdecoded : (platform.decoder.decode platform.decoder.start g.bytes).2 = g.text :=
    platform.decode_ascii g.text g.isAscii_text
  have hread : (readStream platform line [g.bytes]).1 =
      (readLines line false (cutLines g.text).1).1 := by
    rw [readStream, readChunks_eq _ rfl, List.flatten_singleton, hdecoded, List.nil_append]
    split
    next heq => rw [heq]
    next heq => rw [heq]
  rw [hread]
  exact contents_readLines follows g false

def asciiDecoder : StreamDecoder where
  State := Unit
  start := ()
  decode _ bytes := ((), bytes.map fun byte => Char.ofNat byte.toNat)
  decode_nil _ := rfl
  decode_append _ _ _ := congrArg _ List.map_append

theorem decode_asciiDecoder (text : List Char) (h : ∀ c ∈ text, c.toNat < 128) :
    (asciiDecoder.decode () (text.map fun c => UInt8.ofNat c.toNat)).2 = text := by
  change (text.map _).map _ = text
  rw [List.map_map]
  refine (List.map_congr_left fun c hc => ?_).trans text.map_id
  have hsmall : c.toNat < 256 := (h c hc).trans (by decide)
  change Char.ofNat (UInt8.ofNat c.toNat).toNat = c
  rw [UInt8.toNat_ofNat_of_lt' hsmall, Char.ofNat_toNat]

def asciiPlatform : Platform where
  decoder := asciiDecoder
  decode_ascii := decode_asciiDecoder
  parse text := (loads text).elim (.error "Unexpected end of JSON input") .ok
  parse_dumps j h := by rw [loads_dumps h]; rfl
  toText j := String.ofList (dumpsAscii j)
  nullError := "Cannot read properties of null (reading 'error')"

def greeting : GatewayStream where
  events := [
    { entries := [("choices", .array [.object [("delta", .object [("content", .string "Hi")])]])]
      wellFormed := by simp [wellFormed, entriesWellFormed, allWellFormed]
      choices := [.object [("delta", .object [("content", .string "Hi")])]]
      hasChoices := rfl
      noError := rfl }]
  failure := none
  done := true

end LlmPort.Frontend
