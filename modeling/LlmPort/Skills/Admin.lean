import LlmPort.Skills.Dao
import LlmPort.Transition.Run

/-!
# The admin endpoints of the skills registry

`web/api/admin/views.py` with the schemas of its requests and responses. A request runs in one
transaction, which is rolled back when the endpoint raises.
-/

namespace LlmPort.Skills

open Text ModelSync Backend.NodeControl

structure AuthContext where
  userId : String
  tenantId : String

structure CreateSkillRequest where
  content : List Char
  name : Option String
  contentNonempty : content ≠ []
  nameFits : name.elim 0 String.length ≤ 255

/-- A JSON array of texts, or null. -/
def isStringList : Json → Bool
  | .null => true
  | .array items => items.all fun item => (asText item).isSome
  | _ => false

def scopeValues : List String := ["global", "tenant", "workspace", "assistant", "user"]

/-- The fields of `UpdateSkillMetadataRequest`. -/
def updateFields : List String :=
  ["name", "description", "scope", "enabled", "priority", "tags", "allowed_tools",
    "preferred_tools", "forbidden_tools", "knowledge_sources", "trigger_rules"]

/-- A field of a validated `UpdateSkillMetadataRequest`, as `model_dump` gives it. -/
def isUpdate : String × Json → Bool
  | (field, .null) => field ∈ updateFields
  | ("name", .string text) => text.length ≤ 255
  | ("description", .string _) => true
  | ("scope", .string text) => text ∈ scopeValues
  | ("enabled", .bool _) => true
  | ("priority", .number text) => text.toInt?.any fun n => 0 ≤ n ∧ n ≤ 100
  | ("trigger_rules", .object _) => true
  | (field, value) => isStringList value && field ∈
    ["tags", "allowed_tools", "preferred_tools", "forbidden_tools", "knowledge_sources"]

/-- `model_dump(exclude_unset=True)` -/
def MetadataUpdates := { updates : JsonObject // ∀ entry ∈ updates, isUpdate entry }

structure UpdateSkillBodyRequest where
  content : List Char
  changeNote : Option String
  contentNonempty : content ≠ []
  changeNoteFits : changeNote.elim 0 String.length ≤ 500

def targetTypes : List String := ["assistant", "workspace", "project", "tenant", "global"]

structure CreateAssignmentRequest where
  targetType : String
  targetId : Option String
  enabled : Bool
  priorityOverride : Option Int
  targetTypeKnown : targetType ∈ targetTypes
  priorityInRange : ∀ n, priorityOverride = some n → 0 ≤ n ∧ n ≤ 100

/-- The requests that read or write the tables. -/
inductive AdminRequest where
  | listSkills (tenantId : Option String) (filter : SkillFilter) (offset limit : Int)
  | createSkill (draw : SkillsDraw) (body : CreateSkillRequest)
  | getSkill (skillId : Uuid)
  | updateSkillMetadata (draw : SkillsDraw) (skillId : Uuid) (updates : MetadataUpdates)
  | updateSkillBody (draw : SkillsDraw) (skillId : Uuid) (body : UpdateSkillBodyRequest)
  | publishSkill (draw : SkillsDraw) (skillId : Uuid)
  | archiveSkill (draw : SkillsDraw) (skillId : Uuid)
  | deleteSkill (skillId : Uuid)
  | listVersions (skillId : Uuid)
  | getVersion (skillId : Uuid) (version : Int)
  | listAssignments (skillId : Uuid)
  | createAssignment (draw : SkillsDraw) (skillId : Uuid) (body : CreateAssignmentRequest)
  | deleteAssignment (skillId assignmentId : Uuid)
  | importSkill (draw : SkillsDraw) (file : SkillFile)
  | exportSkill (skillId : Uuid)

structure SkillDetail where
  skill : SkillRow
  bodyMarkdown : Option (List Char)
  frontmatterYaml : Option (List Char)
  assignments : List SkillAssignmentRow
  deriving DecidableEq

inductive AdminResponse where
  | skills (items : List SkillRow) (total : Nat) (offset limit : Int)
  | detail (detail : SkillDetail)
  | version (row : SkillVersionRow)
  | versions (rows : List SkillVersionRow)
  | assignment (row : SkillAssignmentRow)
  | assignments (rows : List SkillAssignmentRow)
  | document (filename content : List Char)
  | noContent
  deriving DecidableEq

/-- `SkillSummaryResponse` takes the row. -/
def SkillRow.summarizes (row : SkillRow) : Bool := isStringList row.tags

def isObject : Json → Bool
  | .null | .object _ => true
  | _ => false

/-- `SkillDetailResponse` takes the row. -/
def SkillRow.details (row : SkillRow) : Bool :=
  row.summarizes && isStringList row.allowedTools && isStringList row.preferredTools &&
    isStringList row.forbiddenTools && isStringList row.knowledgeSources &&
    isObject row.triggerRules

def skillNotFound : ImportFailure := .http 404 "Skill not found."

/-- `parsed.raw_frontmatter or None` -/
def frontmatterOrNone (text : List Char) : Option (List Char) := some text |>.filter (· ≠ [])

/-- `body.name or metadata.get("name")` -/
def CreateSkillRequest.skillName (body : CreateSkillRequest) (metadata : JsonObject) : Json :=
  ((given body.name).map Json.string <|> metadata.lookup "name").getD .null

/-- `metadata.pop("name", None)` -/
def withoutName (metadata : JsonObject) : JsonObject := metadata.filter (·.1 ≠ "name")

namespace SkillsDb

variable (cfg : SkillsConfig) (auth : AuthContext) (db : SkillsDb)

/-- `_skill_to_detail` -/
def skillToDetail (skill : SkillRow) : Except ImportFailure SkillDetail :=
  let versions := db.listVersions skill.id
  let current := versions.find? (·.version = skill.currentVersion) <|> versions.head?
  if skill.details then
    .ok ⟨skill, current.map (·.bodyMarkdown), current.bind (·.frontmatterYaml),
      db.listAssignments skill.id⟩
  else .error (.raised "ValidationError")

/-- The response of an endpoint that has looked a skill up. -/
def detailOrNotFound (skill : Option SkillRow) : Except ImportFailure AdminResponse :=
  match skill with
  | none => .error skillNotFound
  | some skill => (db.skillToDetail skill).map .detail

/-- The end of the endpoints that create a skill. -/
def created (draw : SkillsDraw) (name : Json) (parsed : ParsedSkill) (metadata : JsonObject) :
    Except ImportFailure (SkillsDb × AdminResponse) := do
  let (db, skill) ← db.createSkill cfg draw auth.tenantId name parsed.body
    (frontmatterOrNone parsed.rawFrontmatter) auth.userId (withoutName metadata)
  let detail ← db.skillToDetail skill
  return (db, .detail detail)

/-- An endpoint that looks a skill up first. -/
def withSkill (skillId : Uuid) (respond : SkillRow → Except ImportFailure AdminResponse) :
    Except ImportFailure (SkillsDb × AdminResponse) :=
  match db.getSkill skillId auth.tenantId with
  | none => .error skillNotFound
  | some skill => (respond skill).map (db, ·)

def handle : AdminRequest → Except ImportFailure (SkillsDb × AdminResponse)
  | .listSkills tenantId filter offset limit => do
    let effectiveTenant := (given tenantId).getD auth.tenantId
    let (items, total) ← db.listSkills cfg effectiveTenant filter offset (min limit 100)
    if items.all (·.summarizes) then return (db, .skills items total offset limit)
    else .error (.raised "ValidationError")
  | .createSkill draw body =>
    let parsed := cfg.yaml.parseSkillDocument body.content
    let metadata := extractMetadataFromFrontmatter parsed.frontmatter
    let name := body.skillName metadata
    if name.truthy then db.created cfg auth draw name parsed metadata
    else .error (.http 422 "Skill name is required (in frontmatter or request body).")
  | .getSkill skillId => db.withSkill auth skillId fun skill =>
    (db.skillToDetail skill).map .detail
  | .updateSkillMetadata draw skillId updates => do
    if updates.1 = [] then .error (.http 422 "No fields to update.")
    else
      let (db, skill) ← db.updateSkillMetadata cfg draw.now skillId auth.tenantId updates.1
      let response ← db.detailOrNotFound skill
      return (db, response)
  | .updateSkillBody draw skillId body => do
    let parsed := cfg.yaml.parseSkillDocument body.content
    let metadata := extractMetadataFromFrontmatter parsed.frontmatter
    let (db, _) ← db.updateSkillMetadata cfg draw.now skillId auth.tenantId metadata
    let (db, version) ← db.updateSkillBody cfg draw skillId auth.tenantId parsed.body
      (frontmatterOrNone parsed.rawFrontmatter) body.changeNote auth.userId
    match version with
    | none => .error skillNotFound
    | some version => return (db, .version version)
  | .publishSkill draw skillId => do
    let (db, skill) ← db.setStatus cfg draw.now skillId auth.tenantId published
    let response ← db.detailOrNotFound skill
    return (db, response)
  | .archiveSkill draw skillId => do
    let (db, skill) ← db.setStatus cfg draw.now skillId auth.tenantId "archived"
    let response ← db.detailOrNotFound skill
    return (db, response)
  | .deleteSkill skillId =>
    let (db, deleted) := db.deleteSkill skillId auth.tenantId
    if deleted then .ok (db, .noContent) else .error skillNotFound
  | .listVersions skillId => db.withSkill auth skillId fun _ =>
    .ok (.versions (db.listVersions skillId))
  | .getVersion skillId version => db.withSkill auth skillId fun _ =>
    match db.getVersion skillId version with
    | none => .error (.http 404 "Version not found.")
    | some row => .ok (.version row)
  | .listAssignments skillId => db.withSkill auth skillId fun _ =>
    .ok (.assignments (db.listAssignments skillId))
  | .createAssignment draw skillId body =>
    match db.getSkill skillId auth.tenantId with
    | none => .error skillNotFound
    | some _ =>
      let row : SkillAssignmentRow := ⟨draw.assignmentId, skillId, body.targetType, body.targetId,
        body.enabled, body.priorityOverride, draw.now⟩
      (db.createAssignment cfg row auth.tenantId).map fun db => (db, .assignment row)
  | .deleteAssignment _ assignmentId =>
    let (db, deleted) := db.deleteAssignment assignmentId
    if deleted then .ok (db, .noContent) else .error (.http 404 "Assignment not found.")
  | .importSkill draw file =>
    if markdownSuffix <:+ file.filename then
      let parsed := cfg.yaml.parseSkillDocument file.content
      let metadata := extractMetadataFromFrontmatter parsed.frontmatter
      db.created cfg auth draw (Registry.importName metadata file.filename) parsed metadata
    else .error (.http 422 "Only .md files are supported.")
  | .exportSkill skillId => db.withSkill auth skillId fun skill =>
    let version := db.getCurrentVersionBody skillId
    let file := cfg.yaml.exportSkill (skill.toSkill ((version.map (·.bodyMarkdown)).getD []))
    .ok (.document file.filename file.content)

/-- One request of a caller: the transaction is rolled back when the endpoint raises. -/
def request (r : AdminRequest) : SkillsDb := match db.handle cfg auth r with
  | .ok (db, _) => db
  | .error _ => db

def response (r : AdminRequest) : Except ImportFailure AdminResponse :=
  (db.handle cfg auth r).map (·.2)

/-- The request of some caller. -/
def serve (call : AuthContext × AdminRequest) : SkillsDb := db.request cfg call.1 call.2

def reply (call : AuthContext × AdminRequest) : Except ImportFailure AdminResponse :=
  db.response cfg call.1 call.2

end SkillsDb

end LlmPort.Skills
