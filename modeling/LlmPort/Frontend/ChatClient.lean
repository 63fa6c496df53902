import LlmPort.Gateway.NonstreamSse
import LlmPort.Text.LineReader

/-!
# The chat client

The readers of `app/api/chatClient.ts`: `streamChat` follows a completion, `resumeStream` one that
is under way.
-/

namespace LlmPort.Frontend

open Text Text.Json

/-- What the page's platform gives. -/
structure Platform where
  /-- `TextDecoder` with `{ stream: true }` -/
  decoder : StreamDecoder
  decode_ascii : ∀ text : List Char, (∀ c ∈ text, c.toNat < 128) →
    (decoder.decode decoder.start (text.map fun c => UInt8.ofNat c.toNat)).2 = text
  /-- `JSON.parse`, or the message of its error -/
  parse : List Char → Except String Json
  parse_dumps : ∀ j, wellFormed j = true → parse (dumpsAscii j) = .ok j
  /-- `String(value)` -/
  toText : Json → String
  /-- The message where a property of `null` is read. -/
  nullError : String

/-! ## Values; `none` is `undefined` -/

/-- Whether a value counts as true; an array or an object always does. -/
def jsTruthy : Option Json → Bool
  | none => false
  | some (.array _) => true
  | some (.object _) => true
  | some value => truthy value

/-- `value?.key` -/
def optGet (key : String) (value : Option Json) : Option Json := value.bind (get? key)

/-- `value?.[0]` -/
def optFirst : Option Json → Option Json
  | some (.array items) => items.head?
  | some (.object entries) => entries.lookup "0"
  | some (.string s) => s.toList.head?.map fun c => .string (String.ofList [c])
  | _ => none

/-- `typeof value === "object"`, of a value that counts as true -/
def isObjectValue : Json → Bool
  | .array _ => true
  | .object _ => true
  | _ => false

/-- `value ?? 0` -/
def orZero : Option Json → Json
  | none => .number "0"
  | some .null => .number "0"
  | some value => value

def objectField (key : String) (value : Option Json) : Option Json :=
  (optGet key value).filter isObjectValue

def stringField (key : String) (value : Option Json) : Option String :=
  match optGet key value with
  | some (.string s) => some s
  | _ => none

def parseApiErrorMessage (payload : Json) (status : Nat) : Option String :=
  if !isObjectValue payload then none
  else
    let record := some payload
    let detail := objectField "detail" record
    let error := (objectField "error" detail).or (objectField "error" record)
    let code := (stringField "code" error).or (stringField "code" detail)
    let type := (stringField "type" error).or (stringField "type" detail)
    let message :=
      ((stringField "message" error).or (stringField "message" detail)).or
        (stringField "message" record)
    if status = 429 ∨ code = some "rate_limit_error" ∨ code = some "rate_limit_rpm" ∨
        code = some "rate_limit_tpm" ∨ type = some "rate_limit_error" then
      match message.filter (· ≠ "") with
      | some message => some ("Rate limit reached (429): " ++ message)
      | none => some
          "Rate limit reached (429). Please wait and retry, or choose another model/provider."
    else message

/-! ## Deltas -/

structure TokenUsage where
  promptTokens : Json
  completionTokens : Json
  totalTokens : Json

structure StreamDelta where
  content : Option Json
  finishReason : Option Json
  usage : Option TokenUsage
  traceId : Option String

/-- The delta of a chunk, and whether the trace id has been given away. -/
def readDelta (traceId : Option String) (traceIdEmitted : Bool) (parsed : Json) :
    Bool × Option StreamDelta :=
  let choice := optFirst (get? "choices" parsed)
  let content := optGet "content" (optGet "delta" choice)
  let finishReason := optGet "finish_reason" choice
  let usage := get? "usage" parsed
  let traceId := if traceIdEmitted then none else traceId.filter (· ≠ "")
  let delta : StreamDelta :=
    { content := if jsTruthy content then content else none
      finishReason := if jsTruthy finishReason then finishReason else none
      usage :=
        if jsTruthy usage then
          some ⟨orZero (optGet "prompt_tokens" usage), orZero (optGet "completion_tokens" usage),
            orZero (optGet "total_tokens" usage)⟩
        else none
      traceId := traceId }
  (traceIdEmitted || traceId.isSome,
    if delta.content.isSome || delta.finishReason.isSome || delta.usage.isSome ||
      delta.traceId.isSome then some delta else none)

/-! ## Lines -/

/-- What `trim` takes away. -/
def isJsSpace (c : Char) : Bool :=
  c.toNat ∈ [0x9, 0xa, 0xb, 0xc, 0xd, 0x20, 0xa0, 0x1680, 0x2000, 0x2001, 0x2002, 0x2003, 0x2004,
    0x2005, 0x2006, 0x2007, 0x2008, 0x2009, 0x200a, 0x2028, 0x2029, 0x202f, 0x205f, 0x3000, 0xfeff]

/-- The data of a line that has some. -/
def dataOf (line : List Char) : Option (List Char) :=
  let trimmed := trim isJsSpace line
  if "data:".toList.isPrefixOf trimmed then some (trim isJsSpace (trimmed.drop 5)) else none

/-- How a reader ends. -/
inductive ReadEnd where
  | returned
  | thrown (message : String)
  deriving DecidableEq

section
variable (platform : Platform) (traceId : Option String)

/-- `parsed.error` -/
def errorOf (parsed : Json) : Except String (Option Json) :=
  match parsed with
  | .null => .error platform.nullError
  | parsed => .ok (get? "error" parsed)

/-- The message of the error that is thrown for an error of the gateway. -/
def gatewayMessage (parsed : Json) (error : Option Json) : String :=
  match (parseApiErrorMessage parsed 500).filter (· ≠ "") with
  | some apiMessage => apiMessage
  | none =>
    if jsTruthy (optGet "message" error) then
      (optGet "message" error).elim "" platform.toText
    else if jsTruthy (optGet "type" error) then (optGet "type" error).elim "" platform.toText
    else "Unknown streaming error"

/-- The `try` of `streamChat`. -/
def streamChatData (traceIdEmitted : Bool) (data : List Char) :
    Except String (Bool × Option StreamDelta) := do
  let parsed ← platform.parse data
  let error ← errorOf platform parsed
  if jsTruthy error then throw (gatewayMessage platform parsed error)
  return readDelta traceId traceIdEmitted parsed

def streamChatLine (traceIdEmitted : Bool) (line : List Char) :
    LineResult Bool StreamDelta ReadEnd :=
  match dataOf line with
  | none => .next traceIdEmitted none
  | some data =>
    if data = "[DONE]".toList then .stop .returned
    else match streamChatData platform traceId traceIdEmitted data with
      | .ok (traceIdEmitted, delta) => .next traceIdEmitted delta
      | .error message =>
        -- what is taken for malformed JSON is passed over
        if message = "Unexpected end of JSON input" then .next traceIdEmitted none
        else .stop (.thrown message)

/-- The `try` of `resumeStream`, which passes over errors of the gateway. -/
def resumeStreamData (traceIdEmitted : Bool) (data : List Char) :
    Except String (Bool × Option StreamDelta) := do
  let parsed ← platform.parse data
  let error ← errorOf platform parsed
  if jsTruthy error then return (traceIdEmitted, none)
  return readDelta traceId traceIdEmitted parsed

def resumeStreamLine (traceIdEmitted : Bool) (line : List Char) :
    LineResult Bool StreamDelta ReadEnd :=
  match dataOf line with
  | none => .next traceIdEmitted none
  | some data =>
    if data = "[DONE]".toList then .stop .returned
    else match resumeStreamData platform traceId traceIdEmitted data with
      | .ok (traceIdEmitted, delta) => .next traceIdEmitted delta
      | .error _ => .next traceIdEmitted none

/-- The loop over the chunks. -/
def readStream (line : Bool → List Char → LineResult Bool StreamDelta ReadEnd)
    (chunks : List (List UInt8)) : List StreamDelta × ReadEnd :=
  match readChunks line platform.decoder platform.decoder.start [] false chunks with
  | (deltas, .ok _) => (deltas, .returned)
  | (deltas, .error readEnd) => (deltas, readEnd)

def streamChat (chunks : List (List UInt8)) : List StreamDelta × ReadEnd :=
  readStream platform (streamChatLine platform traceId) chunks

def resumeStream (chunks : List (List UInt8)) : List StreamDelta × ReadEnd :=
  readStream platform (resumeStreamLine platform traceId) chunks

end

end LlmPort.Frontend
