import LlmPort.Backend.Llm.VllmFlags
import LlmPort.NodeAgent.WorkloadCommand

/-!
# The options of a vLLM command

The command that the node agent builds, as settings. The agent passes over an engine argument whose
flag is letter for letter among the words of the command, but takes flags that are spelled with `_`;
the adapter of the backend does not take these.
-/

namespace LlmPort.NodeAgent.RuntimeManager

open Backend.Llm Text

/-- The option a word of the command names. -/
def wordOption (word : String) : Option (List Char) := longOption word.toList

variable (mgr : RuntimeManager)

/-! ## What the command sets -/

def fixedSettings (model containerPort : String) : List (Setting String) :=
  [⟨"--model", some model⟩, ⟨"--host", some "0.0.0.0"⟩, ⟨"--port", some containerPort⟩]

def gcSettings (gc : JsonObject) : List (Setting String) :=
  (gcFlags.filterMap fun (key, flag) =>
    (mgr.givenText (gc.lookup key)).map fun text => ⟨flag, some text⟩) ++
  if (gc.lookup "enforce_eager").any Json.truthy then [⟨"--enforce-eager", none⟩] else []

/-- Where the engine arguments give a parser for tool calls, it goes before the others. -/
def givenParser (engine : JsonObject) : Option String :=
  (mgr.givenText (engine.lookup "tool-call-parser")).map strip

def toolParser (gc pc engine : JsonObject) : String :=
  let parser := (mgr.givenParser engine).getD <|
    LLMService.orDefault (mgr.field [gc] "tool_call_parser" "")
      (mgr.field [pc] "tool_call_parser" "")
  LLMService.orDefault parser "openai"

def toolSettings (gc pc engine : JsonObject) : List (Setting String) :=
  (if engine.lookup "enable-auto-tool-choice" = some (.bool false) then []
    else [⟨"--enable-auto-tool-choice", none⟩,
      ⟨"--tool-call-parser", some (mgr.toolParser gc pc engine)⟩]) ++
  ((mgr.givenText (engine.lookup "chat-template")).map fun text =>
    ⟨"--chat-template", some (strip text)⟩).toList

/-- What is set apart from the engine arguments that remain. -/
def baseSettings (payload : JsonObject) (containerPort : String) : List (Setting String) :=
  let gc := dictAt payload "generic_config"
  let pc := dictAt payload "provider_config"
  fixedSettings (mgr.vllmModel payload) containerPort ++ mgr.gcSettings gc ++
    mgr.toolSettings gc pc (mgr.engineArgs pc)

def engineSetting (flag : String) : Json → Option (Setting String)
  | .bool b => if b then some ⟨"--" ++ flag, none⟩ else none
  | value => (mgr.givenText (some value)).map fun text => ⟨"--" ++ flag, some text⟩

/-- What is set for an engine argument, unless its flag is one for tool calls or among the words. -/
def remainingSetting (cmd : List String) (entry : String × Json) : Option (Setting String) :=
  let existing := (cmd.filter fun arg => "--".toList <+: arg.toList).map fun arg =>
    arg.toList.dropWhile (· = '-')
  if entry.1 ∈ ["enable-auto-tool-choice", "tool-call-parser", "chat-template"] ∨
      entry.1.toList ∈ existing then none
  else mgr.engineSetting entry.1 entry.2

/-- The engine arguments that are passed on. -/
def passedArgs (payload : JsonObject) (containerPort : String) : JsonObject :=
  (mgr.engineArgs (dictAt payload "provider_config")).filter fun entry =>
    (mgr.remainingSetting ("serve" :: wordsOf (mgr.baseSettings payload containerPort)) entry).isSome

def vllmSettings (payload : JsonObject) (containerPort : String) : List (Setting String) :=
  mgr.baseSettings payload containerPort ++
    (mgr.engineArgs (dictAt payload "provider_config")).filterMap
      (mgr.remainingSetting ("serve" :: wordsOf (mgr.baseSettings payload containerPort)))

variable {mgr} {payload gc pc engine : JsonObject} {containerPort : String}

theorem configFlags_eq (mgr : RuntimeManager) (gc : JsonObject) :
    mgr.configFlags gc = wordsOf (mgr.gcSettings gc) := by
  rw [configFlags, gcSettings, wordsOf_append]
  congr 1
  · rw [wordsOf_filterMap]
    refine List.flatMap_congr fun (key, flag) _ => ?_
    dsimp only
    cases mgr.givenText (gc.lookup key) <;> rfl
  · split <;> rfl

theorem toolFlags_eq (mgr : RuntimeManager) (gc pc engine : JsonObject) :
    mgr.toolFlags gc pc engine = wordsOf (mgr.toolSettings gc pc engine) := by
  have hparser : mgr.toolParser gc pc engine =
      LLMService.orDefault (((mgr.givenText (engine.lookup "tool-call-parser")).map strip).getD
        (LLMService.orDefault (mgr.field [gc] "tool_call_parser" "")
          (mgr.field [pc] "tool_call_parser" ""))) "openai" := by
    rw [toolParser, givenParser]
  rw [toolFlags, toolSettings, wordsOf_append, hparser]
  congr 1
  · cases mgr.givenText (engine.lookup "tool-call-parser") <;> (split <;> rfl)
  · cases mgr.givenText (engine.lookup "chat-template") <;> rfl

theorem remainingFlags_eq (mgr : RuntimeManager) (cmd : List String) (engine : JsonObject) :
    mgr.remainingFlags cmd engine =
      wordsOf (engine.filterMap (mgr.remainingSetting cmd)) := by
  rw [remainingFlags, wordsOf_filterMap]
  refine List.flatMap_congr fun (flag, value) _ => ?_
  rw [remainingSetting]
  dsimp only
  split
  next => rfl
  next =>
    cases value with
    | bool b => cases b <;> rfl
    | _ =>
      dsimp only [engineSetting]
      split
      next heq => rw [heq]; rfl
      next heq => rw [heq]; rfl

/-- Where there is a model, the command is these settings. -/
theorem buildVllmCommand_eq (hextra : (dictAt payload "provider_config").lookup "extra_args" = none)
    {cmd : List String} (h : mgr.buildVllmCommand payload containerPort = .ok cmd) :
    cmd = "serve" :: wordsOf (mgr.vllmSettings payload containerPort) := by
  rw [buildVllmCommand] at h
  dsimp only at h
  split at h
  next => cases h
  next =>
    rw [hextra] at h
    have hbase : ["serve", "--model", mgr.vllmModel payload, "--host", "0.0.0.0", "--port",
        containerPort] ++ mgr.configFlags (dictAt payload "generic_config") ++
          mgr.toolFlags (dictAt payload "generic_config") (dictAt payload "provider_config")
            (mgr.engineArgs (dictAt payload "provider_config")) =
        "serve" :: wordsOf (mgr.baseSettings payload containerPort) := by
      rw [baseSettings, wordsOf_append, wordsOf_append, configFlags_eq, toolFlags_eq]
      rfl
    rw [hbase, remainingFlags_eq] at h
    rw [← Except.ok.inj h, vllmSettings, wordsOf_append, List.cons_append]

/-! ## Which options are set -/

def knownFlags : List String :=
  ["--model", "--host", "--port", "--max-model-len", "--dtype", "--gpu-memory-utilization",
    "--tensor-parallel-size", "--swap-space", "--enforce-eager", "--enable-auto-tool-choice",
    "--tool-call-parser", "--chat-template"]

theorem nodup_options_knownFlags : (knownFlags.filterMap wordOption).Nodup := by decide

theorem gcSettings_sublist (mgr : RuntimeManager) (gc : JsonObject) :
    ((mgr.gcSettings gc).map Setting.flag).Sublist
      (gcFlags.map Prod.snd ++ ["--enforce-eager"]) := by
  rw [gcSettings, List.map_append]
  refine List.Sublist.append ?_ ?_
  · have hflags := @filterMap_flags _ _ _ (fun entry : String × String =>
      (mgr.givenText (gc.lookup entry.1)).map fun text => (⟨entry.2, some text⟩ : Setting String))
      some Prod.snd gcFlags ?_
    · rw [List.filterMap_some] at hflags
      rw [hflags]
      exact List.filter_sublist.map _
    · intro entry _ s hmake
      obtain ⟨text, -, rfl⟩ := Option.map_eq_some_iff.1 hmake
      rfl
  · split
    · exact List.Sublist.refl _
    · exact List.nil_sublist _

theorem toolSettings_sublist (mgr : RuntimeManager) (gc pc engine : JsonObject) :
    ((mgr.toolSettings gc pc engine).map Setting.flag).Sublist
      (["--enable-auto-tool-choice", "--tool-call-parser"] ++ ["--chat-template"]) := by
  rw [toolSettings, List.map_append]
  refine List.Sublist.append ?_ ?_
  · split
    · exact List.nil_sublist _
    · exact List.Sublist.refl _
  · cases mgr.givenText (engine.lookup "chat-template") with
    | none => exact List.nil_sublist _
    | some text => exact List.Sublist.refl _

/-- Apart from the engine arguments that remain, no option is set twice. -/
theorem nodup_baseSettings (mgr : RuntimeManager) (payload : JsonObject) (containerPort : String) :
    (((mgr.baseSettings payload containerPort).map Setting.flag).filterMap wordOption).Nodup := by
  have hknown : ((mgr.baseSettings payload containerPort).map Setting.flag).Sublist
      knownFlags := by
    rw [baseSettings, List.map_append, List.map_append]
    exact ((List.Sublist.refl _).append (gcSettings_sublist mgr _)).append
      (toolSettings_sublist mgr _ _ _)
  exact (hknown.filterMap _).nodup nodup_options_knownFlags

theorem flag_of_engineSetting {flag : String} {value : Json} {s : Setting String}
    (h : mgr.engineSetting flag value = some s) : s.flag = "--" ++ flag := by
  cases value with
  | bool b =>
    cases b with
    | false => cases h
    | true => rw [← Option.some.inj h]
  | _ =>
    dsimp only [engineSetting] at h
    obtain ⟨text, -, rfl⟩ := Option.map_eq_some_iff.1 h
    rfl

theorem flag_of_remainingSetting {cmd : List String} {entry : String × Json} {s : Setting String}
    (h : mgr.remainingSetting cmd entry = some s) : s.flag = "--" ++ entry.1 := by
  rw [remainingSetting] at h
  split at h
  next => cases h
  next => exact flag_of_engineSetting h

/-- A flag of the engine arguments names the option it spells. -/
theorem wordOption_engineArgs (halnum : mgr.llm.isAlnum '=' = false) {entry : String × Json}
    (h : entry ∈ mgr.engineArgs pc) :
    wordOption ("--" ++ entry.1) = some (optionName entry.1.toList) := by
  obtain ⟨-, hname⟩ := List.mem_filter.1 h
  obtain ⟨hclean, hall⟩ := of_decide_eq_true hname
  have hplain : '=' ∉ entry.1.toList := by
    intro hmem
    have hleft : '=' ∈ entry.1.toList.filter fun c => c ≠ '-' ∧ c ≠ '_' :=
      List.mem_filter.2 ⟨hmem, by decide⟩
    have htrue := List.all_eq_true.1 hall _ hleft
    rw [halnum] at htrue
    cases htrue
  have hne : entry.1.toList ≠ [] := fun hnil => hclean (by rw [hnil]; rfl)
  have hword : ("--" ++ entry.1).toList = '-' :: '-' :: entry.1.toList := String.toList_append
  rw [wordOption, hword, longOption_flag hne hplain]

/-- What keeps the options of the command apart: the spellings of the engine arguments, and values
that do not look like flags. -/
structure FlagsApart (mgr : RuntimeManager) (payload : JsonObject) (containerPort : String) :
    Prop where
  /-- No two engine arguments that are passed on differ only in `-` and `_`. -/
  spellings : ∀ entry ∈ mgr.passedArgs payload containerPort,
    ∀ other ∈ mgr.passedArgs payload containerPort,
      optionName entry.1.toList = optionName other.1.toList → entry.1 = other.1
  /-- None is, in another spelling, what is set apart from them. -/
  free : ∀ entry ∈ mgr.passedArgs payload containerPort, optionName entry.1.toList ∉
    ((mgr.baseSettings payload containerPort).map Setting.flag).filterMap wordOption
  values : ValuesApart wordOption (mgr.vllmSettings payload containerPort)

theorem nodup_vllmSettings_iff (halnum : mgr.llm.isAlnum '=' = false)
    (hkeys : ((dictAt (dictAt payload "provider_config") "engine_args").map Prod.fst).Nodup) :
    (((mgr.vllmSettings payload containerPort).map Setting.flag).filterMap wordOption).Nodup ↔
      (∀ entry ∈ mgr.passedArgs payload containerPort,
        ∀ other ∈ mgr.passedArgs payload containerPort,
          optionName entry.1.toList = optionName other.1.toList → entry.1 = other.1) ∧
      ∀ entry ∈ mgr.passedArgs payload containerPort, optionName entry.1.toList ∉
        ((mgr.baseSettings payload containerPort).map Setting.flag).filterMap wordOption := by
  have hoptions : (((mgr.engineArgs (dictAt payload "provider_config")).filterMap
      (mgr.remainingSetting ("serve" :: wordsOf (mgr.baseSettings payload containerPort)))).map
        Setting.flag).filterMap wordOption =
      (mgr.passedArgs payload containerPort).map fun entry => optionName entry.1.toList := by
    refine filterMap_flags fun entry hentry s hmake => ?_
    rw [flag_of_remainingSetting hmake]
    exact wordOption_engineArgs halnum hentry
  have hpassed : ((mgr.passedArgs payload containerPort).map Prod.fst).Nodup :=
    ((List.filter_sublist.trans List.filter_sublist).map _).nodup hkeys
  have hnames : ((mgr.passedArgs payload containerPort).map fun entry =>
      optionName entry.1.toList) = ((mgr.passedArgs payload containerPort).map Prod.fst).map
        fun key => optionName key.toList := by
    rw [List.map_map]
    rfl
  rw [vllmSettings, List.map_append, List.filterMap_append, hoptions, List.nodup_append']
  refine ⟨fun ⟨_, hspelled, hfree⟩ => ⟨fun entry hentry other hother heq => ?_,
    fun entry hentry hname => hfree hname (List.mem_map_of_mem hentry)⟩,
    fun ⟨hspelled, hfree⟩ => ⟨nodup_baseSettings mgr payload containerPort, ?_, ?_⟩⟩
  · rw [hnames] at hspelled
    exact List.inj_on_of_nodup_map hspelled (List.mem_map_of_mem hentry)
      (List.mem_map_of_mem hother) heq
  · rw [hnames]
    refine hpassed.map_on fun key hkey other hother heq => ?_
    obtain ⟨entry, hentry, rfl⟩ := List.mem_map.1 hkey
    obtain ⟨entry', hentry', rfl⟩ := List.mem_map.1 hother
    exact hspelled entry hentry entry' hentry' heq
  · intro name hname hpass
    obtain ⟨entry, hentry, rfl⟩ := List.mem_map.1 hpass
    exact hfree entry hentry hname

/-- The settings the command has to keep: those of `generic_config`, and the parser for tool calls
of the engine arguments. -/
def keptSettings (mgr : RuntimeManager) (payload : JsonObject) : List (Setting String) :=
  let engine := mgr.engineArgs (dictAt payload "provider_config")
  mgr.gcSettings (dictAt payload "generic_config") ++
    if engine.lookup "enable-auto-tool-choice" = some (.bool false) then []
    else ((mgr.givenParser engine).map fun parser =>
      ⟨"--tool-call-parser", some parser⟩).toList

theorem keptSettings_subset (mgr : RuntimeManager) (payload : JsonObject)
    (containerPort : String) :
    ∀ s ∈ mgr.keptSettings payload, s ∈ mgr.vllmSettings payload containerPort := by
  intro s hs
  refine List.mem_append_left _ ?_
  rw [baseSettings]
  rcases List.mem_append.1 hs with hgeneric | hparser
  · exact List.mem_append_left _ (List.mem_append_right _ hgeneric)
  · refine List.mem_append_right _ (List.mem_append_left _ ?_)
    split at hparser
    next => cases hparser
    next hon =>
      rw [if_neg hon]
      obtain ⟨parser, hgiven, rfl⟩ := Option.map_eq_some_iff.1 (Option.mem_toList.1 hparser)
      have hset : mgr.toolParser (dictAt payload "generic_config")
          (dictAt payload "provider_config")
          (mgr.engineArgs (dictAt payload "provider_config")) = parser := by
        obtain ⟨text, htext, hstrip⟩ := Option.map_eq_some_iff.1 hgiven
        have hne : parser ≠ "" := by
          rw [← hstrip]
          exact of_decide_eq_true (Option.filter_eq_some_iff.1 htext).2
        rw [toolParser, hgiven, Option.getD_some, LLMService.orDefault, if_neg hne]
      rw [hset]
      exact List.mem_cons_of_mem _ List.mem_cons_self

theorem flagsUnique_buildVllmCommand (halnum : mgr.llm.isAlnum '=' = false)
    (hkeys : ((dictAt (dictAt payload "provider_config") "engine_args").map Prod.fst).Nodup)
    (hextra : (dictAt payload "provider_config").lookup "extra_args" = none) {cmd : List String}
    (h : mgr.buildVllmCommand payload containerPort = .ok cmd) :
    FlagsUnique wordOption (mgr.keptSettings payload) cmd ↔
      mgr.FlagsApart payload containerPort := by
  have hcmd := buildVllmCommand_eq hextra h
  have hserve : cmd.filterMap wordOption =
      (wordsOf (mgr.vllmSettings payload containerPort)).filterMap wordOption := by
    rw [hcmd]
    rfl
  have hflags := @nodup_vllmSettings_iff mgr payload containerPort halnum hkeys
  refine ⟨fun hunique => ?_, fun happart => ⟨?_, fun s hs => ?_⟩⟩
  · have honce := hunique.once
    rw [hserve, nodup_wordsOf_iff, hflags] at honce
    exact ⟨honce.1.1, honce.1.2, honce.2⟩
  · rw [hserve, nodup_wordsOf_iff, hflags]
    exact ⟨⟨happart.spellings, happart.free⟩, happart.values⟩
  · rw [hcmd]
    exact (words_of_mem (keptSettings_subset mgr payload containerPort s hs)).trans
      (List.suffix_cons _ _).isInfix

/-! ## Both commands -/

/-- When no option is set twice, in the command of the agent and in that of the adapter. -/
theorem flagsUnique_iff (mgr : RuntimeManager) (adapter : VLLMAdapter) :
    (∀ (payload : JsonObject) (containerPort : String) (cmd : List String),
      mgr.llm.isAlnum '=' = false →
      ((dictAt (dictAt payload "provider_config") "engine_args").map Prod.fst).Nodup →
      (dictAt payload "provider_config").lookup "extra_args" = none →
      mgr.buildVllmCommand payload containerPort = .ok cmd →
      (FlagsUnique wordOption (mgr.keptSettings payload) cmd ↔
        mgr.FlagsApart payload containerPort)) ∧
    ∀ (inventory : GpuInventory) (model : Backend.NodeControl.LLMModel)
      (gc pc : JsonObject) (cmd : List Json),
      (∀ c ∈ ['_', '='], adapter.isAlnum c = false) →
      (∀ engineArgs, pc.lookup "engine_args" = some (.object engineArgs) →
        (engineArgs.map Prod.fst).Nodup) →
      pc.lookup "extra_args" = none →
      adapter.containerCommand inventory model gc pc = .ok cmd →
      (FlagsUnique VLLMAdapter.wordOption (adapter.genericSettings gc ++
          VLLMAdapter.switched "--enforce-eager" (VLLMAdapter.enforceEager gc)) cmd ↔
        ∀ settings, adapter.commandSettings inventory model gc pc = .ok settings →
          ValuesApart VLLMAdapter.wordOption settings) := by
  refine ⟨fun payload containerPort cmd halnum hkeys hextra h =>
    flagsUnique_buildVllmCommand halnum hkeys hextra h, ?_⟩
  intro inventory model gc pc cmd halnum hkeys hextra h
  obtain ⟨settings, hsettings, h⟩ := Transition.bind_eq_ok.1 h
  have hnone : VLLMAdapter.extraWords pc = .ok [] := by
    rw [VLLMAdapter.extraWords, VLLMAdapter.given, hextra]
    rfl
  rw [hnone] at h
  have hcmd : cmd = wordsOf settings := by
    rw [← Except.ok.inj h]
    exact List.append_nil _
  rw [hcmd, VLLMAdapter.flagsUnique_commandSettings halnum hkeys hsettings]
  refine ⟨fun happart settings' hsettings' => ?_, fun happart => happart settings hsettings⟩
  rw [hsettings] at hsettings'
  exact Except.ok.inj hsettings' ▸ happart

/-! ## A maximal length given twice -/

def plainManager : RuntimeManager where
  llm := LLMService.plain
  repr _ := "[]"
  advertiseHost := "127.0.0.1"
  advertiseScheme := "http"
  modelStoreRoot := "/models"
  modelPuller := false
  imageLoader := false

def plainAdapter : VLLMAdapter where
  defaultVllmImage := "vllm/vllm-openai:latest"
  defaultVllmRocmImage := "vllm/vllm-openai-rocm:latest"
  defaultVllmLegacyImage := "vllm/vllm-openai:v0.6.6"
  isAlnum := Char.isAlphanum
  repr _ := "[]"

def lengthPayload (flag : String) : JsonObject :=
  [("model_sync", .object [("hf_repo_id", .string "org/m")]),
    ("generic_config", .object [("max_model_len", .number "4096")]),
    ("provider_config", .object [("engine_args", .object [(flag, .number "8192")])])]

theorem flagsUnique_iff_length :
    (FlagsUnique wordOption (plainManager.keptSettings (lengthPayload "max-model-len"))
        ["serve", "--model", "org/m", "--host", "0.0.0.0", "--port", "8000", "--max-model-len",
          "4096", "--enable-auto-tool-choice", "--tool-call-parser", "openai"] ↔
      plainManager.FlagsApart (lengthPayload "max-model-len") "8000") ∧
    (FlagsUnique VLLMAdapter.wordOption
        (plainAdapter.genericSettings [("enforce_eager", .bool false)] ++
          VLLMAdapter.switched "--enforce-eager"
            (VLLMAdapter.enforceEager [("enforce_eager", .bool false)]))
        [.string "--model", .string "org/m"] ↔
      ∀ settings, plainAdapter.commandSettings ⟨1, .nvidia⟩ ⟨0, .available, some "org/m"⟩
          [("enforce_eager", .bool false)] [] = .ok settings →
        ValuesApart VLLMAdapter.wordOption settings) :=
  ⟨(flagsUnique_iff plainManager plainAdapter).1 (lengthPayload "max-model-len") "8000" _ rfl
      (List.nodup_singleton _) rfl rfl,
    (flagsUnique_iff plainManager plainAdapter).2 ⟨1, .nvidia⟩ ⟨0, .available, some "org/m"⟩
      [("enforce_eager", .bool false)] [] _
      (List.forall_mem_cons.2 ⟨rfl, List.forall_mem_singleton.2 rfl⟩) (fun _ h => by cases h)
      rfl rfl⟩

/-- In another spelling the length of the engine arguments goes behind the other one. -/
theorem length_set_twice :
    plainManager.buildVllmCommand (lengthPayload "max_model_len") "8000" =
        .ok ["serve", "--model", "org/m", "--host", "0.0.0.0", "--port", "8000",
          "--max-model-len", "4096", "--enable-auto-tool-choice", "--tool-call-parser", "openai",
          "--max_model_len", "8192"] ∧
      ¬ FlagsUnique wordOption (plainManager.keptSettings (lengthPayload "max_model_len"))
        ["serve", "--model", "org/m", "--host", "0.0.0.0", "--port", "8000", "--max-model-len",
          "4096", "--enable-auto-tool-choice", "--tool-call-parser", "openai", "--max_model_len",
          "8192"] :=
  ⟨rfl, fun h => absurd h.once (by decide)⟩

end LlmPort.NodeAgent.RuntimeManager
