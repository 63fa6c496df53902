import LlmPort.Backend.Llm.Lifecycle
import LlmPort.Files.Path
import LlmPort.Text.CommandLine
import LlmPort.Text.Json
import LlmPort.Transition.Run

/-!
# The vLLM adapter

The command `build_container_spec` of `services/llm/adapters/vllm.py` gives a container that runs on
the backend's own host.
-/

namespace LlmPort.Backend.Llm

open NodeControl Text

inductive GpuVendor where
  | nvidia | amd | intel | apple | unknown
  deriving DecidableEq

def GpuVendor.value : GpuVendor → String
  | nvidia => "nvidia"
  | amd => "amd"
  | intel => "intel"
  | apple => "apple"
  | unknown => "unknown"

/-- `GpuVendor(value)` -/
def GpuVendor.ofValue (value : Json) : Option GpuVendor :=
  [nvidia, amd, intel, apple, unknown].find? fun vendor => .string vendor.value = value

structure GpuInventory where
  deviceCount : Nat
  primaryVendor : GpuVendor

def GpuInventory.hasGpu (inventory : GpuInventory) : Bool := 0 < inventory.deviceCount

/-- What is raised where a configuration has a value of another type than the code takes for
granted. -/
inductive SpecError where
  /-- `ValueError`, of a vendor that is not known -/
  | noVendor (value : Json)
  /-- `AttributeError`, where a word of the command is no text, or the engine arguments no dict -/
  | noAttribute
  /-- `TypeError`, where the extra arguments are no sequence -/
  | noSequence
  deriving DecidableEq

/-- The settings of the backend that the adapter reads, and what it takes from the interpreter. -/
structure VLLMAdapter where
  defaultVllmImage : String
  defaultVllmRocmImage : String
  defaultVllmLegacyImage : String
  /-- `str.isalnum` on one character -/
  isAlnum : Char → Bool
  /-- `repr` of a list or a dict -/
  repr : Json → String

namespace VLLMAdapter

variable (adapter : VLLMAdapter)

/-- `str(value)` -/
def str : Json → String
  | .null => "None"
  | .bool b => if b then "True" else "False"
  | .number text => text
  | .string s => s
  | value => adapter.repr value

/-- `_VLLM_IMAGES.get(vendor, settings.default_vllm_image)` -/
def vllmImage : GpuVendor → String
  | .amd => adapter.defaultVllmRocmImage
  | _ => adapter.defaultVllmImage

/-- `gc.get(key)` where it counts as true -/
def given (gc : JsonObject) (key : String) : Option Json := (gc.lookup key).filter Json.truthy

def enforceEager (gc : JsonObject) : Bool := ((gc.lookup "enforce_eager").getD (.bool true)).truthy

def gpuVendor (inventory : GpuInventory) (pc : JsonObject) : Except SpecError GpuVendor :=
  match given pc "gpu_vendor" with
  | none => .ok inventory.primaryVendor
  | some value => (GpuVendor.ofValue value).elim (.error (.noVendor value)) .ok

/-- The image is the provider's, or one for the vendor. -/
def image (gc pc : JsonObject) (vendor : GpuVendor) : Json :=
  let defaultImage :=
    if enforceEager gc ∧ vendor = .nvidia then adapter.defaultVllmLegacyImage
    else adapter.vllmImage vendor
  (pc.lookup "image").getD (.string defaultImage)

def dtype (gc : JsonObject) : Option Json :=
  (given gc "dtype").or (if enforceEager gc then some (.string "float16") else none)

def swapSpace (gc : JsonObject) : Option Json :=
  ((gc.lookup "swap_space").filter (· ≠ .null)).or
    (if enforceEager gc then some (.number "1") else none)

/-- A flag with the text of its value, where there is one. -/
def valued (flag : String) (value : Option Json) : List (Setting Json) :=
  (value.map fun value => ⟨.string flag, some (.string (adapter.str value))⟩).toList

def switched (flag : String) (on : Bool) : List (Setting Json) :=
  if on then [⟨.string flag, none⟩] else []

/-- The flags of `generic_config`; the dtype is passed on as it is. -/
def genericSettings (gc : JsonObject) : List (Setting Json) :=
  adapter.valued "--max-model-len" (given gc "max_model_len") ++
  ((dtype gc).map fun value => ⟨.string "--dtype", some value⟩).toList ++
  adapter.valued "--gpu-memory-utilization" (given gc "gpu_memory_utilization") ++
  adapter.valued "--tensor-parallel-size" (given gc "tensor_parallel_size") ++
  adapter.valued "--swap-space" (swapSpace gc) ++
  switched "--enable-metrics" ((gc.lookup "enable_metrics").any Json.truthy)

/-- The flags behind which there are those of the engine arguments. -/
def baseSettings (inventory : GpuInventory) (model : LLMModel) (gc : JsonObject)
    (vendor : GpuVendor) : List (Setting Json) :=
  let modelName := (model.hfRepoId.filter (· ≠ "")).getD (uuidStr model.id)
  [⟨.string "--model", some (.string modelName)⟩] ++ adapter.genericSettings gc ++
  (if vendor = .unknown ∨ vendor = .apple ∨ !inventory.hasGpu then
    [⟨.string "--device", some (.string "cpu")⟩] else []) ++
  switched "--enforce-eager" (enforceEager gc) ++
  switched "--disable-frontend-multiprocessing" (enforceEager gc)

/-- Whether the name of a flag has nothing but letters, digits and dashes. -/
def isFlagName (flag : String) : Bool :=
  let clean := flag.toList.filter (· ≠ '-')
  clean ≠ [] ∧ clean.all adapter.isAlnum

/-- The names of flags among the words. -/
def existing (words : List String) : List (List Char) :=
  (words.filter fun word => "--".toList <+: word.toList).map fun word =>
    word.toList.dropWhile (· = '-')

def engineSetting (flag : String) : Json → Option (Setting Json)
  | .bool b => if b then some ⟨.string ("--" ++ flag), none⟩ else none
  | value => some ⟨.string ("--" ++ flag), some (.string (adapter.str value))⟩

/-- The engine arguments that are not set already. -/
def engineFlags (words : List String) (legacyImage : Bool) (engineArgs : JsonObject) :
    List (Setting Json) :=
  engineArgs.filterMap fun (flag, value) =>
    if !adapter.isFlagName flag ∨ flag.toList ∈ existing words then none
    -- `_LEGACY_ONLY_FLAGS`
    else if flag = "task" ∧ !legacyImage then none
    else adapter.engineSetting flag value

def textOf : Json → Option String
  | .string s => some s
  | _ => none

def engineSettings (cmd : List Json) (legacyImage : Bool) (pc : JsonObject) :
    Except SpecError (List (Setting Json)) :=
  match given pc "engine_args" with
  | none => .ok []
  | some (.object engineArgs) =>
    (cmd.mapM textOf).elim (.error .noAttribute) fun words =>
      .ok (adapter.engineFlags words legacyImage engineArgs)
  | some _ => .error .noAttribute

/-- `cmd += extra_args` -/
def extraWords (pc : JsonObject) : Except SpecError (List Json) :=
  match given pc "extra_args" with
  | none => .ok []
  | some (.array items) => .ok items
  | some (.string text) => .ok (text.toList.map fun c => .string (String.ofList [c]))
  | some (.object entries) => .ok (entries.map fun entry => .string entry.1)
  | some _ => .error .noSequence

/-- All that the command sets. -/
def commandSettings (inventory : GpuInventory) (model : LLMModel) (gc pc : JsonObject) :
    Except SpecError (List (Setting Json)) := do
  let vendor ← gpuVendor inventory pc
  let base := adapter.baseSettings inventory model gc vendor
  let legacyImage := adapter.image gc pc vendor = .string adapter.defaultVllmLegacyImage
  let engine ← adapter.engineSettings (wordsOf base) legacyImage pc
  return base ++ engine

/-- The command of the container, behind the entrypoint `vllm serve`. -/
def containerCommand (inventory : GpuInventory) (model : LLMModel) (gc pc : JsonObject) :
    Except SpecError (List Json) := do
  let settings ← adapter.commandSettings inventory model gc pc
  let extra ← extraWords pc
  return wordsOf settings ++ extra

end VLLMAdapter

end LlmPort.Backend.Llm
