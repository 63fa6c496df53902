import Mathlib.Data.List.Sort
import LlmPort.Backend.NodeControl.Model
import LlmPort.ModelSync.Manifest
import LlmPort.Text.Document

/-!
# Monitoring of runtimes

`services/llm/monitoring.py`: a scrape target in one file and a dashboard of its own for each
runtime. `provision` and `deprovision` keep the target and the dashboard of one runtime,
`rebuild_all` writes those of all rows and removes what is left over.
-/

namespace LlmPort.Backend.Llm

open Text NodeControl Transition

inductive MonitoringError where
  | valueError | attributeError | osError
  deriving DecidableEq

/-! ## Rows -/

structure LLMProvider where
  name : String
  type : ProviderType
  endpointUrl : Option String

structure LLMModel where
  displayName : String
  hfRepoId : Option String

structure LLMRuntime where
  id : String
  name : String
  endpointUrl : Option String

/-- A runtime with its model and its provider. -/
structure MonitoredRow where
  runtime : LLMRuntime
  model : LLMModel
  provider : LLMProvider

/-- `text or other` -/
def textOr (text : Option String) (other : String) : String :=
  match text with
  | none => other
  | some text => if text = "" then other else text

/-- What is put into the target and the dashboard of a runtime. -/
structure Plan where
  runtimeId : String
  runtimeName : String
  providerName : String
  modelName : String
  nodeHost : String
  instanceName : String

namespace Plan

def title (plan : Plan) : String :=
  plan.providerName ++ " · " ++ plan.modelName ++ " (" ++ plan.nodeHost ++ ")"

def entry (plan : Plan) : JsonObject :=
  [("targets", .array [.string plan.instanceName]),
    ("labels", .object
      [("job", .string "llm-runtimes"), ("runtime_id", .string plan.runtimeId),
        ("runtime_name", .string plan.runtimeName),
        ("provider_name", .string plan.providerName), ("model_name", .string plan.modelName),
        ("node_host", .string plan.nodeHost)])]

end Plan

/-! ## The dashboard's template -/

/-- What is put into the template. -/
inductive Slot where
  | uid | title | runtimeName | instanceName
  deriving DecidableEq

def Slot.token : Slot → List Char
  | uid => "__UID__".toList
  | title => "__TITLE__".toList
  | runtimeName => "__RUNTIME_NAME__".toList
  | instanceName => "__INSTANCE__".toList

/-- A template: its text is a document, and no placeholder is in it but where one was put. -/
structure DashboardTemplate where
  document : Document Slot
  keysDistinct : document.keysDistinct = true
  separated : ∀ slot : Slot, ∀ l ∈ stretches [] (document.layout 0), Separates slot.token l

def DashboardTemplate.text (template : DashboardTemplate) : List Char :=
  render Slot.token (template.document.layout 0)

/-! ## Files -/

/-- The files of a directory. -/
structure Directory where
  files : List (List Char × Json)
  nodup : (files.map (·.1)).Nodup

namespace Directory

variable (dir : Directory)

def read (path : List Char) : Option Json := (dir.files.find? (·.1 = path)).map (·.2)

def write (path : List Char) (data : Json) : Directory where
  files := upsert (·.1) (path, data) (fun _ => (path, data)) dir.files
  nodup := nodup_upsert (fun _ h => h.symm) dir.nodup

/-- Without the files whose names are not kept. -/
def keep (p : List Char → Bool) : Directory where
  files := dir.files.filter fun file => p file.1
  nodup := dir.nodup.sublist ((List.filter_sublist ..).map _)

variable {dir}

theorem read_write (path : List Char) (data : Json) (other : List Char) :
    (dir.write path data).read other = if other = path then some data else dir.read other := by
  rw [read, write, find?_upsert fun _ h => h.symm]
  split
  next =>
    cases dir.files.find? (·.1 = other) with
    | none => rfl
    | some file => rfl
  next => rfl

theorem read_keep (p : List Char → Bool) (path : List Char) :
    (dir.keep p).read path = if p path then dir.read path else none := by
  rw [read, keep, List.find?_filter]
  have hfound (file : List Char × Json) :
      decide (p file.1 = true ∧ decide (file.1 = path) = true) =
        (p path && decide (file.1 = path)) := by
    by_cases hpath : file.1 = path
    · simp [hpath]
    · simp [hpath]
  simp only [hfound]
  split
  next hp =>
    simp only [hp, Bool.true_and]
    rfl
  next hp =>
    have hnone : dir.files.find? (fun file => p path && decide (file.1 = path)) = none :=
      List.find?_eq_none.2 fun file _ => by simp [hp]
    rw [hnone]
    rfl

end Directory

structure Disk where
  /-- What the targets file is read as; `none` where it is missing or holds no JSON. -/
  targets : Option Json
  dashboards : Directory
  targetsWritable : Bool
  dashboardsWritable : Bool

/-- `_read_targets` -/
def Disk.readTargets (disk : Disk) : List JsonObject :=
  match disk.targets with
  | some (.array items) => items.filterMap fun
    | .object entries => some entries
    | _ => none
  | _ => []

/-- `_atomic_write_json_inplace(self._targets_file, targets)` -/
def Disk.writeTargets (disk : Disk) (targets : List JsonObject) : Except MonitoringError Disk :=
  if disk.targetsWritable then
    .ok { disk with targets := some (.array (targets.map .object)) }
  else .error .osError

/-- `_atomic_write_json(path, data)` -/
def Disk.writeDashboard (disk : Disk) (path : List Char) (data : Json) :
    Except MonitoringError Disk :=
  if disk.dashboardsWritable then .ok { disk with dashboards := disk.dashboards.write path data }
  else .error .osError

/-- The dashboards that are not kept are removed. -/
def Disk.removeDashboards (disk : Disk) (keep : List Char → Bool) : Except MonitoringError Disk :=
  if disk.dashboardsWritable || disk.dashboards.files.all fun file => keep file.1 then
    .ok { disk with dashboards := disk.dashboards.keep keep }
  else .error .osError

/-- The labels of a target are a dict, if there are any. -/
def hasLabels (target : JsonObject) : Bool :=
  match target.lookup "labels" with
  | none => true
  | some (.object _) => true
  | some _ => false

/-- Of a target whose labels are a dict. -/
def isOf (runtimeId : String) (target : JsonObject) : Bool :=
  match target.lookup "labels" with
  | some (.object labels) => labels.lookup "runtime_id" = some (.string runtimeId)
  | _ => false

structure MonitoringProvisioner where
  /-- `urllib.parse.urlparse(url).hostname` -/
  hostname : String → Except MonitoringError (Option String)
  /-- `urllib.parse.urlparse(url).port` -/
  port : String → Except MonitoringError (Option Nat)
  /-- `hashlib.sha256(id).hexdigest()[:8]` -/
  hash8 : String → List Char
  hexdigits : ∀ id, ∀ c ∈ hash8 id, c.isAlphanum = true
  /-- `str` of a value that is no string -/
  repr : Json → String
  /-- `none` where the file cannot be read. -/
  template : Option DashboardTemplate
  grafanaUrl : String

namespace MonitoringProvisioner

variable (m : MonitoringProvisioner)

def dashboardUidFor (runtimeId : String) : List Char := "vllm-rt-".toList ++ m.hash8 runtimeId

def dashboardPath (runtimeId : String) : List Char :=
  m.dashboardUidFor runtimeId ++ ".json".toList

def dashboardUrl (runtimeId : String) : String :=
  m.grafanaUrl ++ "/d/" ++ String.ofList (m.dashboardUidFor runtimeId) ++ "/vllm-runtime?orgId=1"

def isMonitored (provider : LLMProvider) : Bool := provider.type = .vllm

def endpointHostForTarget (endpointUrl : String) :
    Except MonitoringError (Option (String × Option Nat)) := do
  let host := textOr (← m.hostname endpointUrl) ""
  if host = "" then return none
  let target :=
    if host ∈ ["127.0.0.1", "localhost", "0.0.0.0", "::1"] then "host.docker.internal" else host
  return some (target, ← m.port endpointUrl)

/-- The host of a URL, if it has one. -/
def hostOf (endpointUrl : Option String) : Except MonitoringError (Option String) := do
  let url := textOr endpointUrl ""
  if url = "" then return none
  let host := textOr (← m.hostname url) ""
  return if host = "" then none else some host

def nodeHostOf (runtime : LLMRuntime) (provider : LLMProvider) :
    Except MonitoringError String := do
  match ← m.hostOf provider.endpointUrl with
  | some host => return host
  | none => return (← m.hostOf runtime.endpointUrl).getD "local"

/-- `f"{host}:{port}" if port else host` -/
def instanceOf (host : String) (port : Option Nat) : String :=
  match port with
  | none => host
  | some port => if port = 0 then host else host ++ ":" ++ toString port

/-- What is put in for a row whose target is known. -/
def planOf (row : MonitoredRow) (target : String × Option Nat) : Except MonitoringError Plan := do
  return {
    runtimeId := row.runtime.id
    runtimeName := row.runtime.name
    providerName := textOr (some row.provider.name) "vLLM"
    modelName := textOr row.model.hfRepoId (textOr (some row.model.displayName) "unknown")
    nodeHost := ← m.nodeHostOf row.runtime row.provider
    instanceName := instanceOf target.1 target.2 }

def slotValue (plan : Plan) : Slot → List Char
  | .uid => m.dashboardUidFor plan.runtimeId
  | .title => plan.title.toList
  | .runtimeName => plan.runtimeName.toList
  | .instanceName => plan.instanceName.toList

def replaceSlot (plan : Plan) (slot : Slot) (text : List Char) : List Char :=
  replace slot.token (m.slotValue plan slot) text

/-- `_render_dashboard` -/
def renderDashboard (plan : Plan) : Except MonitoringError Json :=
  match m.template with
  | none => .error .osError
  | some template =>
    let rendered := m.replaceSlot plan .instanceName (m.replaceSlot plan .runtimeName
      (m.replaceSlot plan .title (m.replaceSlot plan .uid template.text)))
    match Json.loads rendered with
    | none => .error .valueError
    | some data => .ok data

/-- `str(t.get("labels", {}).get("runtime_name", ""))` -/
def sortKey (target : JsonObject) : String :=
  match target.lookup "labels" with
  | some (.object labels) =>
    match labels.lookup "runtime_name" with
    | none => ""
    | some (.string name) => name
    | some value => m.repr value
  | _ => ""

def sortTargets (targets : List JsonObject) : List JsonObject :=
  targets.insertionSort fun t u => m.sortKey t ≤ m.sortKey u

def upsertTarget (disk : Disk) (runtimeId : String) (entry : JsonObject) :
    Except MonitoringError Disk :=
  if disk.readTargets.all hasLabels then
    let targets := disk.readTargets.filter fun t => !isOf runtimeId t
    disk.writeTargets (m.sortTargets (targets ++ [entry]))
  else .error .attributeError

/-- `provision`, from the target on. -/
def provisionPlan (disk : Disk) (plan : Plan) : Except MonitoringError (Option String) × Disk :=
  match m.upsertTarget disk plan.runtimeId plan.entry with
  | .error e => (.error e, disk)
  | .ok disk =>
    match m.renderDashboard plan with
    | .error e => (.error e, disk)
    | .ok data =>
      match disk.writeDashboard (m.dashboardPath plan.runtimeId) data with
      | .error e => (.error e, disk)
      | .ok disk => (.ok (some (m.dashboardUrl plan.runtimeId)), disk)

/-- What `provision` puts in for a row, `none` where it is not monitorable. -/
def provisionedPlan (row : MonitoredRow) : Except MonitoringError (Option Plan) := do
  if !isMonitored row.provider then return none
  let endpointUrl := textOr row.runtime.endpointUrl ""
  if ModelSync.strip endpointUrl.toList = [] then return none
  match ← m.endpointHostForTarget endpointUrl with
  | none => return none
  | some target => return some (← m.planOf row target)

/-- `row` is what the runtime's id is found with. -/
def provision (disk : Disk) (row : Option MonitoredRow) :
    Except MonitoringError (Option String) × Disk :=
  match row with
  | none => (.ok none, disk)
  | some row =>
    match m.provisionedPlan row with
    | .error e => (.error e, disk)
    | .ok none => (.ok none, disk)
    | .ok (some plan) => m.provisionPlan disk plan

def deprovision (disk : Disk) (runtimeId : String) : Except MonitoringError Unit × Disk :=
  if disk.readTargets.all hasLabels then
    let remaining := disk.readTargets.filter fun t => !isOf runtimeId t
    match if remaining.length = disk.readTargets.length then .ok disk
      else disk.writeTargets remaining with
    | .error e => (.error e, disk)
    | .ok disk =>
      match disk.removeDashboards (· ≠ m.dashboardPath runtimeId) with
      | .error e => (.error e, disk)
      | .ok disk => (.ok (), disk)
  else (.error .attributeError, disk)

/-- What `rebuild_all` puts in for a row. -/
def rebuiltPlan (row : MonitoredRow) : Except MonitoringError (Option Plan) := do
  if !isMonitored row.provider then return none
  let endpointUrl := textOr row.runtime.endpointUrl ""
  match ← m.endpointHostForTarget endpointUrl with
  | none => return none
  | some target =>
    if ModelSync.strip endpointUrl.toList = [] then return none
    return some (← m.planOf row target)

/-- The loop of `rebuild_all`: the dashboards are written on the way. -/
def rebuildRows : List MonitoredRow → List Plan → Disk →
    Except MonitoringError (List Plan) × Disk
  | [], plans, disk => (.ok plans, disk)
  | row :: rows, plans, disk =>
    match m.rebuiltPlan row with
    | .error e => (.error e, disk)
    | .ok none => rebuildRows rows plans disk
    | .ok (some plan) =>
      match m.renderDashboard plan with
      | .error e => (.error e, disk)
      | .ok data =>
        match disk.writeDashboard (m.dashboardPath plan.runtimeId) data with
        | .error e => (.error e, disk)
        | .ok disk => rebuildRows rows (plans ++ [plan]) disk

/-- `glob("vllm-rt-*.json")` -/
def isGenerated (path : List Char) : Bool :=
  "vllm-rt-".toList.isPrefixOf path && ".json".toList.isSuffixOf path && 13 ≤ path.length

def rebuildAll (disk : Disk) (rows : List MonitoredRow) : Except MonitoringError Nat × Disk :=
  match m.rebuildRows rows [] disk with
  | (.error e, disk) => (.error e, disk)
  | (.ok plans, disk) =>
    match disk.writeTargets (m.sortTargets (plans.map (·.entry))) with
    | .error e => (.error e, disk)
    | .ok disk =>
      let paths := plans.map fun plan => m.dashboardPath plan.runtimeId
      match disk.removeDashboards fun path => !isGenerated path || path ∈ paths with
      | .error e => (.error e, disk)
      | .ok disk => (.ok plans.length, disk)

end MonitoringProvisioner

end LlmPort.Backend.Llm
