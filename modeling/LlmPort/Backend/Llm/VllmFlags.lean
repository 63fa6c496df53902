import LlmPort.Backend.Llm.VllmAdapter
import LlmPort.Transition.PartialMap

/-!
# The options of the adapter's command

The adapter passes on no engine argument whose flag is among the words of its command already, and
takes no flag that is spelled with `_`. What is left to go wrong are values that look like flags.
-/

namespace LlmPort.Backend.Llm.VLLMAdapter

open NodeControl Text

/-- The option a word of the command names. -/
def wordOption (word : Json) : Option (List Char) :=
  (textOf word).bind fun text => longOption text.toList

/-- The flags the adapter knows. -/
def knownFlags : List String :=
  ["--model", "--max-model-len", "--dtype", "--gpu-memory-utilization", "--tensor-parallel-size",
    "--swap-space", "--enable-metrics", "--device", "--enforce-eager",
    "--disable-frontend-multiprocessing"]

theorem nodup_knownFlags : ((knownFlags.map Json.string).filterMap wordOption).Nodup := by decide

/-- The name of a flag that is known is what is left of it without its dashes. -/
theorem wordOption_knownFlags : ∀ flag ∈ knownFlags, "--".toList <+: flag.toList ∧
    wordOption (.string flag) = some (flag.toList.dropWhile (· = '-')) := by decide

variable {adapter : VLLMAdapter} {inventory : GpuInventory} {model : LLMModel}
  {gc pc : JsonObject} {vendor : GpuVendor}

theorem valued_sublist (flag : String) (value : Option Json) :
    ((adapter.valued flag value).map Setting.flag).Sublist [.string flag] := by
  cases value with
  | none => exact List.nil_sublist _
  | some value => exact List.Sublist.refl _

theorem switched_sublist (flag : String) (on : Bool) :
    ((switched flag on).map Setting.flag).Sublist [.string flag] := by
  cases on with
  | false => exact List.nil_sublist _
  | true => exact List.Sublist.refl _

theorem genericSettings_sublist (adapter : VLLMAdapter) (gc : JsonObject) :
    ((adapter.genericSettings gc).map Setting.flag).Sublist
      (["--max-model-len", "--dtype", "--gpu-memory-utilization", "--tensor-parallel-size",
        "--swap-space", "--enable-metrics"].map Json.string) := by
  have hdtype : (((dtype gc).map fun value =>
      (⟨.string "--dtype", some value⟩ : Setting Json)).toList.map Setting.flag).Sublist
        [.string "--dtype"] := by
    cases dtype gc with
    | none => exact List.nil_sublist _
    | some value => exact List.Sublist.refl _
  simp only [genericSettings, List.map_append]
  exact (((((valued_sublist _ _).append hdtype).append (valued_sublist _ _)).append
    (valued_sublist _ _)).append (valued_sublist _ _)).append (switched_sublist _ _)

/-- Each flag the adapter knows is set at most once. -/
theorem baseSettings_sublist (adapter : VLLMAdapter) (inventory : GpuInventory) (model : LLMModel)
    (gc : JsonObject) (vendor : GpuVendor) :
    ((adapter.baseSettings inventory model gc vendor).map Setting.flag).Sublist
      (knownFlags.map Json.string) := by
  have hdevice : ((if vendor = .unknown ∨ vendor = .apple ∨ !inventory.hasGpu then
      [(⟨.string "--device", some (.string "cpu")⟩ : Setting Json)] else []).map
        Setting.flag).Sublist [.string "--device"] := by
    split
    · exact List.Sublist.refl _
    · exact List.nil_sublist _
  simp only [baseSettings, List.map_append]
  exact ((((List.Sublist.refl _).append (genericSettings_sublist adapter gc)).append hdevice).append
    (switched_sublist _ _)).append (switched_sublist _ _)

theorem nodup_baseSettings (adapter : VLLMAdapter) (inventory : GpuInventory) (model : LLMModel)
    (gc : JsonObject) (vendor : GpuVendor) :
    (((adapter.baseSettings inventory model gc vendor).map Setting.flag).filterMap
      wordOption).Nodup :=
  ((baseSettings_sublist adapter inventory model gc vendor).filterMap _).nodup nodup_knownFlags

/-- The options of known flags among the words are taken. -/
theorem mem_existing {words : List String} {settings : List (Setting Json)} {name : List Char}
    (hwords : (wordsOf settings).mapM textOf = some words)
    (hknown : (settings.map Setting.flag).Sublist (knownFlags.map Json.string))
    (hname : name ∈ (settings.map Setting.flag).filterMap wordOption) : name ∈ existing words := by
  obtain ⟨word, hword, hoption⟩ := List.mem_filterMap.1 hname
  obtain ⟨flag, hflag, rfl⟩ := List.mem_map.1 (hknown.subset hword)
  obtain ⟨hdashes, hrest⟩ := wordOption_knownFlags flag hflag
  obtain ⟨s, hs, hsflag⟩ := List.mem_map.1 hword
  have hcmd : Json.string flag ∈ wordsOf settings :=
    List.mem_flatMap.2 ⟨s, hs, hsflag ▸ List.mem_cons_self⟩
  have htext : some flag ∈ words.map some := by
    rw [Transition.map_some_of_mapM hwords]
    exact List.mem_map.2 ⟨_, hcmd, rfl⟩
  obtain ⟨flag', hmem, heq⟩ := List.mem_map.1 htext
  rw [Option.some.inj heq] at hmem
  rw [← Option.some.inj (hrest.symm.trans hoption)]
  exact List.mem_map_of_mem (List.mem_filter.2 ⟨hmem, decide_eq_true hdashes⟩)

section
variable (halnum : ∀ c ∈ ['_', '='], adapter.isAlnum c = false)
include halnum

theorem wordOption_flagName {flag : String} (h : adapter.isFlagName flag = true) :
    wordOption (.string ("--" ++ flag)) = some flag.toList := by
  obtain ⟨hclean, hall⟩ := of_decide_eq_true h
  have hkept : ∀ c ∈ ['_', '='], c ∉ flag.toList := by
    intro c hc hmem
    have hdash : c ≠ '-' := by
      intro heq
      rw [heq] at hc
      exact absurd hc (by decide)
    have hleft : c ∈ flag.toList.filter (· ≠ '-') :=
      List.mem_filter.2 ⟨hmem, decide_eq_true hdash⟩
    have htrue := List.all_eq_true.1 hall c hleft
    rw [halnum c hc] at htrue
    cases htrue
  have hne : flag.toList ≠ [] := fun hnil => hclean (by rw [hnil]; rfl)
  have hword : ("--" ++ flag).toList = '-' :: '-' :: flag.toList := String.toList_append
  change longOption ("--" ++ flag).toList = _
  rw [hword, longOption_flag hne (hkept _ (by simp)), optionName_eq (hkept _ (by simp))]

/-- The options of the engine arguments that are passed on are their keys. -/
theorem engineFlags_options {words : List String} {legacyImage : Bool} {engineArgs : JsonObject} :
    ∃ passed : JsonObject, passed.Sublist engineArgs ∧
      (∀ entry ∈ passed, entry.1.toList ∉ existing words) ∧
      ((adapter.engineFlags words legacyImage engineArgs).map Setting.flag).filterMap wordOption =
        passed.map fun entry => entry.1.toList := by
  refine ⟨_, List.filter_sublist, fun entry hentry => ?_, filterMap_flags ?_⟩
  · obtain ⟨-, hsome⟩ := List.mem_filter.1 hentry
    dsimp only at hsome
    split at hsome
    next => cases hsome
    next hpass => exact fun hmem => hpass (.inr hmem)
  · intro entry _ s hmake
    dsimp only at hmake
    split at hmake
    next => cases hmake
    next hpass =>
      rw [not_or, Bool.not_eq_true', Bool.not_eq_false] at hpass
      have hflag : s.flag = .string ("--" ++ entry.1) := by
        split at hmake
        next => cases hmake
        next =>
          rw [engineSetting.eq_def] at hmake
          split at hmake
          next =>
            split at hmake
            · rw [← Option.some.inj hmake]
            · cases hmake
          next => rw [← Option.some.inj hmake]
      rw [hflag]
      exact wordOption_flagName halnum hpass.1

/-- No flag is set twice. -/
theorem nodup_commandSettings {settings : List (Setting Json)}
    (hkeys : ∀ engineArgs, pc.lookup "engine_args" = some (.object engineArgs) →
      (engineArgs.map Prod.fst).Nodup)
    (h : adapter.commandSettings inventory model gc pc = .ok settings) :
    ((settings.map Setting.flag).filterMap wordOption).Nodup := by
  obtain ⟨vendor, -, h⟩ := Transition.bind_eq_ok.1 h
  obtain ⟨engine, hengine, h⟩ := Transition.bind_eq_ok.1 h
  cases h
  have hbase := nodup_baseSettings adapter inventory model gc vendor
  rw [List.map_append, List.filterMap_append]
  rw [engineSettings] at hengine
  split at hengine
  next =>
    cases hengine
    rw [List.map_nil, List.filterMap_nil, List.append_nil]
    exact hbase
  next engineArgs hgiven =>
    cases hwords : (wordsOf (adapter.baseSettings inventory model gc vendor)).mapM textOf with
    | none =>
      rw [hwords] at hengine
      cases hengine
    | some words =>
      rw [hwords] at hengine
      cases hengine
      obtain ⟨passed, hpassed, hfresh, hoptions⟩ :=
        @engineFlags_options adapter halnum words _ engineArgs
      have hnodup : (passed.map fun entry => entry.1.toList).Nodup := by
        have hkeys := hkeys engineArgs (Option.filter_eq_some_iff.1 hgiven).1
        have hchars : ((engineArgs.map Prod.fst).map String.toList).Nodup :=
          hkeys.map fun a b heq => String.toList_injective heq
        rw [List.map_map] at hchars
        exact (hpassed.map _).nodup hchars
      rw [hoptions]
      refine List.nodup_append'.2 ⟨hbase, hnodup, fun name hname hpass => ?_⟩
      obtain ⟨entry, hentry, rfl⟩ := List.mem_map.1 hpass
      exact hfresh entry hentry
        (mem_existing hwords (baseSettings_sublist adapter inventory model gc vendor) hname)
  next => cases hengine

/-- Only values that look like flags can make an option occur twice. -/
theorem flagsUnique_commandSettings {settings : List (Setting Json)}
    (hkeys : ∀ engineArgs, pc.lookup "engine_args" = some (.object engineArgs) →
      (engineArgs.map Prod.fst).Nodup)
    (h : adapter.commandSettings inventory model gc pc = .ok settings) :
    FlagsUnique wordOption
        (adapter.genericSettings gc ++ switched "--enforce-eager" (enforceEager gc))
        (wordsOf settings) ↔
      ValuesApart wordOption settings := by
  have hnodup := nodup_commandSettings halnum hkeys h
  refine ⟨fun hunique => (nodup_wordsOf_iff.1 hunique.once).2, fun happart =>
    ⟨nodup_wordsOf_iff.2 ⟨hnodup, happart⟩, fun s hs => words_of_mem ?_⟩⟩
  obtain ⟨vendor, -, h⟩ := Transition.bind_eq_ok.1 h
  obtain ⟨engine, -, h⟩ := Transition.bind_eq_ok.1 h
  cases h
  rw [baseSettings]
  rcases List.mem_append.1 hs with hgeneric | heager
  · simp [hgeneric]
  · simp [heager]

end

end LlmPort.Backend.Llm.VLLMAdapter
