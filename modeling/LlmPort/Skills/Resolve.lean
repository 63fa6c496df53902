import Mathlib.Data.List.Infix
import LlmPort.Ranking.Overrides
import LlmPort.Ranking.TopK
import LlmPort.Skills.Dao

/-!
# Which skills a request gets

`resolve_skills` of `services/dao.py`: the published skills of a tenant are scored by their
assignments and triggers, the best are taken, and of these the ones that nothing speaks for are left
out. What raises is `none`.
-/

namespace LlmPort.Skills

open Text

/-- The keyword arguments of `resolve_skills` that describe the request. -/
structure ResolveContext where
  assistantId : Option String
  workspaceId : Option String
  projectId : Option String
  userQuery : Option String
  fileTypes : Option (List String)
  tags : Option (List String)

/-- An assignment's target is the request's. -/
def ResolveContext.matches (ctx : ResolveContext) (assignment : SkillAssignmentRow) : Bool :=
  if assignment.targetType = "assistant" then assignment.targetId = ctx.assistantId
  else if assignment.targetType = "workspace" then assignment.targetId = ctx.workspaceId
  else if assignment.targetType = "project" then assignment.targetId = ctx.projectId
  else assignment.targetType = "global" || assignment.targetType = "tenant"

/-- `for item in value` -/
def iterate : Json → Option (List Json)
  | .array items => some items
  | .string text => some (text.toList.map fun c => .string (String.singleton c))
  | .object entries => some (entries.map fun (key, _) => .string key)
  | _ => none

/-- `item in value`, of a text -/
def hasItem (item : String) : Json → Option Bool
  | .array items => some (.string item ∈ items)
  | .string text => some (item.toList <:+: text.toList)
  | .object entries => some (entries.any fun (key, _) => key = item)
  | _ => none

namespace SkillRow

variable (cfg : SkillsConfig) (ctx : ResolveContext) (skill : SkillRow)

/-- What an enabled assignment that matches makes of the score. -/
def assign (score : Int) (assignment : SkillAssignmentRow) : Int :=
  if assignment.enabled && ctx.matches assignment then
    assignment.priorityOverride.getD (score + 50)
  else score

/-- The items of `(trigger_rules or {}).get(key, [])`. -/
def triggers (key : String) : Option (List Json) :=
  if skill.triggerRules.truthy then
    match skill.triggerRules with
    | .object entries => iterate ((entries.lookup key).getD (.array []))
    | _ => none
  else some []

/-- How many of the keywords the query contains. -/
def keywordHits : Option Nat :=
  match given ctx.userQuery with
  | none => some 0
  | some query => do
    let keywords ← (← skill.triggers "keywords").mapM asText
    return keywords.countP fun kw => cfg.lower kw.toList <:+: cfg.lower query.toList

/-- How many of the file types the request has. -/
def fileTypeHits : Option Nat :=
  match ctx.fileTypes.getD [] with
  | [] => some 0
  | fileTypes => do
    let triggerFileTypes ← skill.triggers "file_types"
    return triggerFileTypes.countP (· ∈ fileTypes.map Json.string)

/-- How many of the request's tags the skill has. -/
def tagHits : Option Nat :=
  match ctx.tags.getD [] with
  | [] => some 0
  | tags => do
    let found ← tags.mapM fun t => if skill.tags.truthy then hasItem t skill.tags else some false
    return found.count true

def triggerPoints : Option Nat := do
  let keywords ← skill.keywordHits cfg ctx
  let fileTypes ← skill.fileTypeHits ctx
  let tags ← skill.tagHits ctx
  return 30 * keywords + 30 * fileTypes + 20 * tags

/-- The score, with the assignments in the order they are loaded in. -/
def score (assignments : List SkillAssignmentRow) : Option Int := do
  let points ← skill.triggerPoints cfg ctx
  return assignments.foldl (assign ctx) skill.priority + points

/-- Only these have a place with their priority alone. -/
def general : Bool := skill.scope = "global" || skill.scope = "tenant"

end SkillRow

namespace SkillsDb

variable (cfg : SkillsConfig) (db : SkillsDb)

/-- The published, enabled skills of a tenant. -/
def candidates (tenantId : String) : List SkillRow :=
  db.skills.filter fun row => row.tenantId = tenantId ∧ row.status = published ∧ row.enabled

def resolveSkills (loaded : SkillRow → List SkillAssignmentRow) (tenantId : String)
    (ctx : ResolveContext) (maxResults : Nat) :
    Option (List (SkillRow × SkillVersionRow × Int)) := do
  let scored ← (db.candidates tenantId).mapM fun skill => do
    return (skill, ← skill.score cfg ctx (loaded skill))
  let top := (scored.insertionSort (·.2 ≥ ·.2)).take maxResults
  return top.filterMap fun (skill, score) =>
    if score ≤ skill.priority ∧ ¬ skill.general then none
    else (db.getCurrentVersionBody skill.id).map fun version => (skill, version, score)

end SkillsDb

end LlmPort.Skills
