import LlmPort.Backend.Llm.Lifecycle
import LlmPort.ModelSync.Manifest
import LlmPort.Text.Json
import LlmPort.Transition.Run

/-!
# The command of a workload

How `runtime_manager.py` reads a deploy payload: the fields with their fallbacks, the container's
command, given or built for the provider, and the arguments it refuses.
-/

namespace LlmPort.NodeAgent

open Backend.Llm Text

/-! ## Shell words -/

/-- Where `shlex` stands in its input. -/
inductive ShlexState where
  | white
  | word
  | quoted (quote : Char)
  /-- Behind a backslash, in a word or between quotes. -/
  | escape (within : Option Char)

/-- `'` -/
def singleQuote : Char := Char.ofNat 39

def ShlexState.back : Option Char → ShlexState
  | none => .word
  | some quote => .quoted quote

/-- `read_token` until the input ends, with `posix` and `whitespace_split` on; `token` is what has
been read of a token, `wasQuoted` whether some of it was between quotes. -/
def readTokens (state : ShlexState) (token : List Char) (wasQuoted : Bool) :
    List Char → Except String (List String)
  | [] => match state with
    | .white => .ok []
    | .word => .ok (if token ≠ [] ∨ wasQuoted then [String.ofList token] else [])
    | .quoted _ => .error "No closing quotation"
    | .escape _ => .error "No escaped character"
  | c :: rest => match state with
    | .white =>
      if c ∈ [' ', '\t', '\r', '\n'] then readTokens .white [] false rest
      else if c = '\\' then readTokens (.escape none) [] wasQuoted rest
      else if c = '"' ∨ c = singleQuote then readTokens (.quoted c) [] wasQuoted rest
      else readTokens .word [c] wasQuoted rest
    | .word =>
      if c ∈ [' ', '\t', '\r', '\n'] then
        (readTokens .white [] false rest).map fun tokens =>
          if token ≠ [] ∨ wasQuoted then String.ofList token :: tokens else tokens
      else if c = '"' ∨ c = singleQuote then readTokens (.quoted c) token wasQuoted rest
      else if c = '\\' then readTokens (.escape none) token wasQuoted rest
      else readTokens .word (token ++ [c]) wasQuoted rest
    | .quoted quote =>
      if c = quote then readTokens .word token true rest
      -- only within double quotes does a backslash escape
      else if c = '\\' ∧ quote = '"' then readTokens (.escape (some quote)) token true rest
      else readTokens (.quoted quote) (token ++ [c]) true rest
    | .escape within =>
      let kept := if within.any fun quote => c ≠ '\\' ∧ c ≠ quote then ['\\'] else []
      readTokens (.back within) (token ++ kept ++ [c]) wasQuoted rest

/-- `shlex.split`, with the text of its `ValueError`. -/
def shlexSplit (text : String) : Except String (List String) :=
  readTokens .white [] false text.toList

/-! ## Reading a payload -/

/-- Why a payload is rejected for what it contains. -/
inductive Rejection where
  /-- `deploy_workload` and the other operations word this differently. -/
  | noRuntimeId (deploy : Bool)
  | noImage
  | unparsableCommand (reason : String)
  | noModel
  | deniedFlag (arg : String)
  | volumeMount (arg : String)
  | hostNetwork (arg : String)
  deriving DecidableEq

def Rejection.message : Rejection → String
  | noRuntimeId true => "runtime_id is required for deploy_workload."
  | noRuntimeId false => "runtime_id is required."
  | noImage => "No image provided for workload deployment."
  | unparsableCommand reason => reason
  | noModel => "Cannot build vLLM command: the deploy payload has no model. " ++
      "Set the runtime's model, or pass provider_config.command or " ++
      "generic_config.model explicitly."
  | deniedFlag arg => s!"Blocked Docker flag in command override: {arg}"
  | volumeMount arg => s!"Volume mounts in command override are not allowed: {arg}"
  | hostNetwork arg => s!"Host network mode in command override is not allowed: {arg}"

/-- A runtime manager: the interpreter's text functions, the constructor's arguments as it keeps
them, and which of the two transfers it was given. -/
structure RuntimeManager where
  llm : LLMService
  /-- `repr` of a list or a dict -/
  repr : Json → String
  advertiseHost : String
  advertiseScheme : String
  modelStoreRoot : String
  modelPuller : Bool
  imageLoader : Bool

/-- `str.strip` -/
def strip (text : String) : String := String.ofList (ModelSync.strip text.toList)

/-- `d[key]` when it is a dict, else the empty one. -/
def dictAt (d : JsonObject) (key : String) : JsonObject :=
  match d.lookup key with
  | some (.object entries) => entries
  | _ => []

namespace RuntimeManager

variable (mgr : RuntimeManager)

/-- `str(value)` -/
def str : Json → String
  | .null => "None"
  | .bool b => if b then "True" else "False"
  | .number text => text
  | .string s => s
  | value => mgr.repr value

/-- `str(d.get(key) or d'.get(key) or … or default)`, over the dicts given -/
def textOr (dicts : List JsonObject) (key default : String) : String :=
  match dicts.findSome? fun d => (d.lookup key).filter Json.truthy with
  | some value => mgr.str value
  | none => default

/-- The same, stripped. -/
def field (dicts : List JsonObject) (key default : String) : String :=
  strip (mgr.textOr dicts key default)

/-- `str(d.get(key, ""))` -/
def textAt (d : JsonObject) (key : String) : String := ((d.lookup key).map mgr.str).getD ""

/-- The value's text when it is not `None` and not blank. -/
def givenText (value : Option Json) : Option String :=
  ((value.filter (· ≠ .null)).map mgr.str).filter (strip · ≠ "")

/-! ## The command built for vLLM -/

def vllmModel (payload : JsonObject) : String :=
  let gc := dictAt payload "generic_config"
  let pc := dictAt payload "provider_config"
  let synced := strip (mgr.textAt (dictAt payload "model_sync") "hf_repo_id")
  if synced ≠ "" then synced
  -- a falsy model of the provider's is still written out
  else if (gc.lookup "model").any Json.truthy then strip (mgr.textAt gc "model")
  else strip (mgr.textAt pc "model")

/-- `_GC_FLAGS` -/
def gcFlags : List (String × String) :=
  [("max_model_len", "--max-model-len"), ("dtype", "--dtype"),
    ("gpu_memory_utilization", "--gpu-memory-utilization"),
    ("tensor_parallel_size", "--tensor-parallel-size"), ("swap_space", "--swap-space")]

def configFlags (gc : JsonObject) : List String :=
  (gcFlags.flatMap fun (key, flag) => match mgr.givenText (gc.lookup key) with
    | some text => [flag, text]
    | none => []) ++
  if (gc.lookup "enforce_eager").any Json.truthy then ["--enforce-eager"] else []

/-- The entries of `engine_args` whose flag has nothing but letters, digits, dashes and
underscores. -/
def engineArgs (pc : JsonObject) : JsonObject :=
  (dictAt pc "engine_args").filter fun (flag, _) =>
    let clean := flag.toList.filter fun c => c ≠ '-' ∧ c ≠ '_'
    clean ≠ [] ∧ clean.all mgr.llm.isAlnum

/-- The flags of tool calling, which is on unless the engine's arguments turn it off. -/
def toolFlags (gc pc engine : JsonObject) : List String :=
  let parser := match mgr.givenText (engine.lookup "tool-call-parser") with
    | some text => strip text
    | none => LLMService.orDefault (mgr.field [gc] "tool_call_parser" "")
        (mgr.field [pc] "tool_call_parser" "")
  (if engine.lookup "enable-auto-tool-choice" = some (.bool false) then []
    else ["--enable-auto-tool-choice", "--tool-call-parser", LLMService.orDefault parser "openai"]) ++
  match mgr.givenText (engine.lookup "chat-template") with
  | some text => ["--chat-template", strip text]
  | none => []

/-- The engine arguments that remain, without the flags that are set already. -/
def remainingFlags (cmd : List String) (engine : JsonObject) : List String :=
  let existing := (cmd.filter fun arg => "--".toList <+: arg.toList).map fun arg =>
    arg.toList.dropWhile (· = '-')
  engine.flatMap fun (flag, value) =>
    if flag ∈ ["enable-auto-tool-choice", "tool-call-parser", "chat-template"] ∨
        flag.toList ∈ existing then []
    else match value with
      | .bool b => if b then ["--" ++ flag] else []
      | value => match mgr.givenText (some value) with
        | some text => ["--" ++ flag, text]
        | none => []

/-- `_build_vllm_command`, without the entrypoint -/
def buildVllmCommand (payload : JsonObject) (containerPort : String) :
    Except Rejection (List String) :=
  let gc := dictAt payload "generic_config"
  let pc := dictAt payload "provider_config"
  let model := mgr.vllmModel payload
  if model = "" then .error .noModel
  else
    let engine := mgr.engineArgs pc
    let cmd := ["serve", "--model", model, "--host", "0.0.0.0", "--port", containerPort] ++
      mgr.configFlags gc ++ mgr.toolFlags gc pc engine
    let cmd := cmd ++ mgr.remainingFlags cmd engine
    .ok <| match pc.lookup "extra_args" with
      | some (.array items) => cmd ++ items.map mgr.str
      | _ => cmd

/-- `_build_provider_command` -/
def buildProviderCommand (providerType : String) (payload : JsonObject) (containerPort : String) :
    Except Rejection (List String × Option String) :=
  if providerType = "vllm" then
    (mgr.buildVllmCommand payload containerPort).map fun cmd => (cmd, some "vllm")
  else .ok ([], none)

/-- The command `provider_config` gives. -/
def commandOverride (pc : JsonObject) : Except Rejection (List String) :=
  match pc.lookup "command" with
  | some (.array items) => .ok (items.map mgr.str)
  | some (.string text) =>
    if strip text = "" then .ok [] else (shlexSplit text).mapError .unparsableCommand
  | _ => .ok []

/-! ## Arguments that are refused -/

/-- `_DENIED_DOCKER_FLAGS` -/
def deniedDockerFlags : List String :=
  ["--privileged", "--cap-add", "--pid", "--security-opt", "--device", "--userns", "--ipc=host"]

/-- Why one argument of a command is refused, if it is. -/
def blocked (args : List String) (arg : String) : Option Rejection :=
  let normalized := (mgr.llm.lower (strip arg)).toList
  if deniedDockerFlags.any fun denied =>
      normalized = denied.toList ∨ denied.toList ++ ['='] <+: normalized then
    some (.deniedFlag arg)
  else if "-v".toList <+: normalized ∨ "--volume".toList <+: normalized then some (.volumeMount arg)
  else if normalized = "--network=host".toList ∨
      normalized = "--network".toList ∧ "host" ∈ args then some (.hostNetwork arg)
  else none

/-- `_sanitize_command_args` -/
def sanitizeCommandArgs (args : List String) : Except Rejection Unit :=
  match args.findSome? (mgr.blocked args) with
  | some rejection => .error rejection
  | none => .ok ()

/-- The command that is given, or else built. -/
def chosenCommand (providerType : String) (payload : JsonObject) (containerPort : String) :
    Except Rejection (List String × Option String) :=
  match mgr.commandOverride (dictAt payload "provider_config") with
  | .error rejection => .error rejection
  | .ok [] => mgr.buildProviderCommand providerType payload containerPort
  | .ok override => .ok (override, none)

/-- The command the container is run with, and its entrypoint. -/
def workloadCommand (providerType : String) (payload : JsonObject) (containerPort : String) :
    Except Rejection (List String × Option String) := do
  let (cmd, entrypoint) ← mgr.chosenCommand providerType payload containerPort
  mgr.sanitizeCommandArgs cmd
  pure (cmd, entrypoint)

variable {mgr}

theorem sanitizeCommandArgs_eq_ok {args : List String} :
    mgr.sanitizeCommandArgs args = .ok () ↔ ∀ arg ∈ args, mgr.blocked args arg = none := by
  rw [← List.findSome?_eq_none_iff, sanitizeCommandArgs]
  cases args.findSome? (mgr.blocked args) with
  | none => exact iff_of_true rfl rfl
  | some rejection => exact iff_of_false (by simp) (by simp)

/-- Whether it is given or built, no argument of a container's command is one that is refused. -/
theorem not_blocked_of_workloadCommand {providerType containerPort : String} {payload : JsonObject}
    {cmd : List String} {entrypoint : Option String}
    (h : mgr.workloadCommand providerType payload containerPort = .ok (cmd, entrypoint)) :
    ∀ arg ∈ cmd, mgr.blocked cmd arg = none := by
  obtain ⟨⟨cmd', entrypoint'⟩, -, h⟩ := Transition.bind_eq_ok.1 h
  obtain ⟨⟨⟩, hsane, h⟩ := Transition.bind_eq_ok.1 h
  cases h
  exact sanitizeCommandArgs_eq_ok.1 hsane

end RuntimeManager

end LlmPort.NodeAgent
