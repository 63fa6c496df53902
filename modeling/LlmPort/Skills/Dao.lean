import Mathlib
import LlmPort.Backend.NodeControl.Model
import LlmPort.Skills.Exchange
import LlmPort.Transition.KeyedTable

/-!
# The tables of the skills registry

The rows of `db/models/skill.py` for all tenants and the queries of `services/dao.py`. A statement
that the database refuses raises, and the request's transaction is rolled back.
-/

namespace LlmPort.Skills

open Text ModelSync Transition Backend.NodeControl

structure SkillRow where
  id : Uuid
  tenantId : String
  name : String
  slug : List Char
  description : String
  scope : String
  status : String
  enabled : Bool
  priority : Int
  tags : Json
  allowedTools : Json
  preferredTools : Json
  forbiddenTools : Json
  knowledgeSources : Json
  triggerRules : Json
  currentVersion : Nat
  createdBy : Option String
  createdAt : Time
  updatedAt : Time
  deriving DecidableEq

structure SkillVersionRow where
  id : Uuid
  skillId : Uuid
  version : Nat
  bodyMarkdown : List Char
  frontmatterYaml : Option (List Char)
  changeNote : Option String
  createdBy : Option String
  createdAt : Time
  deriving DecidableEq

structure SkillAssignmentRow where
  id : Uuid
  skillId : Uuid
  targetType : String
  targetId : Option String
  enabled : Bool
  priorityOverride : Option Int
  createdAt : Time
  deriving DecidableEq

structure SkillsDb where
  skills : List SkillRow
  versions : List SkillVersionRow
  assignments : List SkillAssignmentRow
  deriving DecidableEq

/-- The settings of the service and what it has from Python, PyYAML and the database driver. -/
structure SkillsConfig where
  yaml : Yaml
  /-- `str.lower` -/
  lower : List Char → List Char
  /-- What the driver makes of a value for a `Boolean` column; `none` raises. -/
  asBool : Json → Option Bool
  /-- The same for an `Integer` column. -/
  asInteger : Json → Option Int
  /-- `text.ilike(pattern)` -/
  ilike : String → String → Bool
  maxPublished : Nat
  maxVersions : Nat
  maxAssignments : Nat

/-- The instant of a transaction and the primary keys it draws for its new rows. -/
structure SkillsDraw where
  now : Time
  skillId : Uuid
  versionId : Uuid
  assignmentId : Uuid

def published : String := "published"

def asText : Json → Option String
  | .string text => some text
  | _ => none

namespace SkillRow

/-- The columns hold the row: `String(n)` and `Integer`. -/
def fits (row : SkillRow) : Bool :=
  row.tenantId.length ≤ 128 ∧ row.name.length ≤ 255 ∧ row.slug.length ≤ 255 ∧
    row.scope.length ≤ 32 ∧ row.status.length ≤ 32 ∧
    (-2 ^ 31 ≤ row.priority ∧ row.priority < 2 ^ 31) ∧ row.currentVersion < 2 ^ 31 ∧
    row.createdBy.elim 0 String.length ≤ 128

/-- A column as `updates` sets it, with the value as the flush writes it; `none` raises. -/
def column {α : Type} (convert : Json → Option α) (updates : JsonObject) (key : String)
    (current : α) : Option α :=
  match updates.lookup key with
  | none => some current
  | some value => convert value

/-- `setattr(skill, key, value)` for each entry of a dict. -/
def setColumns (cfg : SkillsConfig) (row : SkillRow) (updates : JsonObject) : Option SkillRow := do
  let name ← column asText updates "name" row.name
  let description ← column asText updates "description" row.description
  let scope ← column asText updates "scope" row.scope
  let status ← column asText updates "status" row.status
  let enabled ← column cfg.asBool updates "enabled" row.enabled
  let priority ← column cfg.asInteger updates "priority" row.priority
  return { row with
    name, description, scope, status, enabled, priority
    tags := (updates.lookup "tags").getD row.tags
    allowedTools := (updates.lookup "allowed_tools").getD row.allowedTools
    preferredTools := (updates.lookup "preferred_tools").getD row.preferredTools
    forbiddenTools := (updates.lookup "forbidden_tools").getD row.forbiddenTools
    knowledgeSources := (updates.lookup "knowledge_sources").getD row.knowledgeSources
    triggerRules := (updates.lookup "trigger_rules").getD row.triggerRules }

/-- The columns that an export writes, with the body of the current version. -/
def toSkill (row : SkillRow) (bodyMarkdown : List Char) : Skill :=
  { row with bodyMarkdown }

end SkillRow

/-- `if value:` of an optional text -/
def given (text : Option String) : Option String := text.filter (· ≠ "")

/-- The query parameters of a listing. -/
structure SkillFilter where
  status : Option String
  scope : Option String
  tag : Option String
  search : Option String

/-- `tags @> '["tag"]'` -/
def hasTag (tag : String) : Json → Bool
  | .array items => .string tag ∈ items
  | _ => false

def SkillFilter.admits (cfg : SkillsConfig) (f : SkillFilter) (row : SkillRow) : Bool :=
  (given f.status).all (row.status = ·) && (given f.scope).all (row.scope = ·) &&
    (given f.tag).all (hasTag · row.tags) &&
    (given f.search).all fun search => cfg.ilike s!"%{search}%" row.name ||
      cfg.ilike s!"%{search}%" row.description

namespace SkillsDb

variable (cfg : SkillsConfig) (db : SkillsDb)

/-- The rows of a page, the last changed first, and how many rows there are in all. -/
def listSkills (tenantId : String) (f : SkillFilter) (offset limit : Int) :
    Except ImportFailure (List SkillRow × Nat) :=
  let rows := db.skills.filter fun row => row.tenantId = tenantId ∧ f.admits cfg row
  if offset < 0 ∨ limit < 0 then .error (.raised "DBAPIError")
  else .ok (((rows.insertionSort (·.updatedAt ≥ ·.updatedAt)).drop offset.toNat).take limit.toNat,
    rows.length)

def getSkill (skillId : Uuid) (tenantId : String) : Option SkillRow :=
  db.skills.find? fun row => row.id = skillId ∧ row.tenantId = tenantId

/-- How many skills of the tenant are published. -/
def publishedCount (tenantId : String) : Nat :=
  db.skills.countP fun row => row.tenantId = tenantId ∧ row.status = published

/-- The message of the `ValueError` at the cap. -/
def publishedLimit : ImportFailure :=
  .http 409
    ("Tenant has reached the maximum of " ++ toString cfg.maxPublished ++ " published skills.")

/-- `_slugify` -/
def slugify (name : String) : List Char :=
  (trim (· = '-') (dashed (strip (cfg.lower name.toList)))).take 255

def insertSkill (row : SkillRow) : Except ImportFailure SkillsDb :=
  if row.fits then
    if db.skills.any fun other => other.id = row.id ∨
        (other.tenantId = row.tenantId ∧ other.slug = row.slug) then
      .error (.raised "IntegrityError")
    else .ok { db with skills := db.skills ++ [row] }
  else .error (.raised "DBAPIError")

def insertVersion (row : SkillVersionRow) : Except ImportFailure SkillsDb :=
  if row.changeNote.elim 0 String.length ≤ 500 ∧ row.createdBy.elim 0 String.length ≤ 128 then
    if db.versions.any fun other => other.id = row.id ∨
        (other.skillId = row.skillId ∧ other.version = row.version) then
      .error (.raised "IntegrityError")
    else .ok { db with versions := db.versions ++ [row] }
  else .error (.raised "DBAPIError")

/-- The new row of `create_skill` before the keyword arguments. -/
def newSkill (draw : SkillsDraw) (tenantId name : String) (createdBy : String) : SkillRow where
  id := draw.skillId
  tenantId := tenantId
  name := name
  slug := slugify cfg name
  description := ""
  scope := "tenant"
  status := "draft"
  enabled := true
  priority := 50
  tags := .array []
  allowedTools := .null
  preferredTools := .null
  forbiddenTools := .null
  knowledgeSources := .null
  triggerRules := .null
  currentVersion := 1
  createdBy := some createdBy
  createdAt := draw.now
  updatedAt := draw.now

def createSkill (draw : SkillsDraw) (tenantId : String) (name : Json) (bodyMarkdown : List Char)
    (frontmatterYaml : Option (List Char)) (createdBy : String) (metadata : JsonObject) :
    Except ImportFailure (SkillsDb × SkillRow) :=
  if cfg.maxPublished ≤ db.publishedCount tenantId then .error (publishedLimit cfg)
  else match asText name with
    -- `name.lower()`
    | none => .error (.raised "AttributeError")
    | some name =>
      match (newSkill cfg draw tenantId name createdBy).setColumns cfg metadata with
      | none => .error (.raised "DBAPIError")
      | some row => do
        let db ← db.insertSkill row
        let db ← db.insertVersion ⟨draw.versionId, row.id, 1, bodyMarkdown, frontmatterYaml,
          some "Initial version", some createdBy, draw.now⟩
        return (db, row)

/-- The changed row is flushed; `updated_at` follows, if a column has changed. -/
def flushSkill (now : Time) (old new : SkillRow) : Except ImportFailure (SkillsDb × SkillRow) :=
  if new = old then .ok (db, old)
  else if new.fits then
    let new := { new with updatedAt := now }
    .ok ({ db with skills := replaceRow (·.id) new db.skills }, new)
  else .error (.raised "DBAPIError")

def updateSkillMetadata (now : Time) (skillId : Uuid) (tenantId : String) (updates : JsonObject) :
    Except ImportFailure (SkillsDb × Option SkillRow) :=
  match db.getSkill skillId tenantId with
  | none => .ok (db, none)
  | some skill =>
    match skill.setColumns cfg updates with
    | none => .error (.raised "DBAPIError")
    | some new => (db.flushSkill now skill new).map fun (db, skill) => (db, some skill)

/-- `ORDER BY version DESC` -/
def listVersions (skillId : Uuid) : List SkillVersionRow :=
  (db.versions.filter (·.skillId = skillId)).insertionSort (·.version ≥ ·.version)

/-- `versions[max_versions_per_skill - 1 :]`, once there are that many. -/
def oldVersions (versions : List SkillVersionRow) : List SkillVersionRow :=
  if cfg.maxVersions ≤ versions.length then
    if cfg.maxVersions = 0 then versions.getLast?.toList else versions.drop (cfg.maxVersions - 1)
  else []

def updateSkillBody (draw : SkillsDraw) (skillId : Uuid) (tenantId : String)
    (bodyMarkdown : List Char) (frontmatterYaml : Option (List Char)) (changeNote : Option String)
    (createdBy : String) : Except ImportFailure (SkillsDb × Option SkillVersionRow) :=
  match db.getSkill skillId tenantId with
  | none => .ok (db, none)
  | some skill => do
    let old := (oldVersions cfg (db.listVersions skillId)).map (·.id)
    let version : SkillVersionRow := ⟨draw.versionId, skillId, skill.currentVersion + 1,
      bodyMarkdown, frontmatterYaml, changeNote, some createdBy, draw.now⟩
    -- the flush inserts and updates before it deletes
    let db ← db.insertVersion version
    let (db, _) ← db.flushSkill draw.now skill
      { skill with currentVersion := skill.currentVersion + 1 }
    return ({ db with versions := db.versions.filter (·.id ∉ old) }, some version)

/-- The skill goes, and with it its versions and assignments. -/
def deleteSkill (skillId : Uuid) (tenantId : String) : SkillsDb × Bool :=
  match db.getSkill skillId tenantId with
  | none => (db, false)
  | some _ => ({
      skills := db.skills.filter (·.id ≠ skillId)
      versions := db.versions.filter (·.skillId ≠ skillId)
      assignments := db.assignments.filter (·.skillId ≠ skillId) }, true)

def setStatus (now : Time) (skillId : Uuid) (tenantId status : String) :
    Except ImportFailure (SkillsDb × Option SkillRow) :=
  let others := db.skills.countP fun row =>
    row.tenantId = tenantId ∧ row.status = published ∧ row.id ≠ skillId
  if status = published ∧ cfg.maxPublished ≤ others then .error (publishedLimit cfg)
  else db.updateSkillMetadata cfg now skillId tenantId [("status", .string status)]

def getVersion (skillId : Uuid) (version : Int) : Option SkillVersionRow :=
  db.versions.find? fun row => row.skillId = skillId ∧ row.version = version

def getCurrentVersionBody (skillId : Uuid) : Option SkillVersionRow :=
  (db.skills.find? (·.id = skillId)).bind fun row => db.getVersion skillId row.currentVersion

def listAssignments (skillId : Uuid) : List SkillAssignmentRow :=
  db.assignments.filter (·.skillId = skillId)

/-- The skill is the tenant's. -/
def owns (tenantId : String) (skillId : Uuid) : Bool :=
  db.skills.any fun row => row.id = skillId ∧ row.tenantId = tenantId

def createAssignment (row : SkillAssignmentRow) (tenantId : String) :
    Except ImportFailure SkillsDb :=
  if cfg.maxAssignments ≤ db.assignments.countP fun a => db.owns tenantId a.skillId then
    .error (.http 409
      ("Tenant has reached the maximum of " ++ toString cfg.maxAssignments ++ " assignments."))
  else if row.targetId.elim 0 String.length ≤ 128 then
    if db.assignments.any (·.id = row.id) then .error (.raised "IntegrityError")
    else .ok { db with assignments := db.assignments ++ [row] }
  else .error (.raised "DBAPIError")

/-- The query goes by the assignment's own id alone. -/
def deleteAssignment (assignmentId : Uuid) : SkillsDb × Bool :=
  ({ db with assignments := db.assignments.filter (·.id ≠ assignmentId) },
    db.assignments.any (·.id = assignmentId))

end SkillsDb

end LlmPort.Skills
