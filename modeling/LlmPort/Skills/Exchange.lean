import Mathlib
import LlmPort.Skills.Frontmatter

/-!
# Exporting and importing skills

`export_skill` and `import_skill` of the admin endpoints, with `create_skill` of
`services/dao.py`: what an imported document has to fulfil for the skill to come back.
-/

namespace LlmPort.Skills

open Text ModelSync

/-- A row of `skills` with the body of its current version. JSONB columns hold any value. -/
structure Skill where
  name : String
  slug : List Char
  description : String
  scope : String
  status : String
  enabled : Bool
  priority : Int
  tags : Json
  allowedTools : Json
  preferredTools : Json
  forbiddenTools : Json
  knowledgeSources : Json
  triggerRules : Json
  bodyMarkdown : List Char

/-- The types of the columns: `String(255)`, `String(32)` and `Integer`. -/
structure Skill.Fits (s : Skill) : Prop where
  name : s.name.length ≤ 255
  slug : s.slug.length ≤ 255
  scope : s.scope.length ≤ 32
  status : s.status.length ≤ 32
  priority : -2 ^ 31 ≤ s.priority ∧ s.priority < 2 ^ 31

instance (s : Skill) : Decidable s.Fits :=
  decidable_of_iff (s.name.length ≤ 255 ∧ s.slug.length ≤ 255 ∧ s.scope.length ≤ 32 ∧
    s.status.length ≤ 32 ∧ (-2 ^ 31 ≤ s.priority ∧ s.priority < 2 ^ 31))
    ⟨fun ⟨h1, h2, h3, h4, h5⟩ => ⟨h1, h2, h3, h4, h5⟩,
      fun h => ⟨h.name, h.slug, h.scope, h.status, h.priority⟩⟩

/-- A skill as the table holds it. -/
structure StoredSkill extends Skill where
  fits : toSkill.Fits

structure SkillFile where
  filename : List Char
  content : List Char

/-! ## Export -/

/-- `if value: frontmatter[key] = value` -/
def entryIf (key : String) (value : Json) : JsonObject :=
  if value.truthy then [(key, value)] else []

/-- The frontmatter of an exported skill. -/
def Skill.frontmatter (s : Skill) : JsonObject :=
  [("name", .string s.name), ("description", .string s.description), ("scope", .string s.scope),
    ("priority", .number s.priority.repr),
    ("tags", if s.tags.truthy then s.tags else .array [])] ++
  entryIf "allowed_tools" s.allowedTools ++ entryIf "preferred_tools" s.preferredTools ++
  entryIf "forbidden_tools" s.forbiddenTools ++
  entryIf "knowledge_sources" s.knowledgeSources ++ entryIf "trigger_rules" s.triggerRules

def markdownSuffix : List Char := ['.', 'm', 'd']

def Yaml.exportSkill (yaml : Yaml) (s : Skill) : SkillFile where
  filename := s.slug ++ markdownSuffix
  content := yaml.composeSkillDocument s.frontmatter s.bodyMarkdown

/-! ## Import -/

inductive ImportFailure where
  | http (statusCode : Nat) (detail : String)
  /-- An exception the endpoint does not handle. -/
  | raised (exception : String)
  deriving DecidableEq

/-- The registry an import runs in: `str.lower`, `max_published_skills_per_tenant` and the skills
of the tenant. -/
structure Registry where
  lower : List Char → List Char
  maxPublished : Nat
  skills : List StoredSkill

/-- `re.sub(r"[^a-z0-9]+", "-", text)` -/
def dashed : List Char → List Char
  | [] => []
  | c :: text =>
    if ('a' ≤ c ∧ c ≤ 'z') ∨ ('0' ≤ c ∧ c ≤ '9') then c :: dashed text
    else if (dashed text).head? = some '-' then dashed text
    else '-' :: dashed text

/-- `text.removesuffix(suffix)` -/
def removesuffix (suffix text : List Char) : List Char :=
  if suffix <:+ text then text.take (text.length - suffix.length) else text

namespace Registry

variable (reg : Registry)

def slugify (name : String) : List Char :=
  (trim (· = '-') (dashed (strip (reg.lower name.toList)))).take 255

def publishedCount : Nat := reg.skills.countP (·.status = "published")

/-- A text column; `none` is a value of another type. -/
def textColumn (metadata : JsonObject) (key default : String) : Option String :=
  match metadata.lookup key with
  | none => some default
  | some (.string text) => some text
  | some _ => none

def boolColumn (metadata : JsonObject) (key : String) (default : Bool) : Option Bool :=
  match metadata.lookup key with
  | none => some default
  | some (.bool b) => some b
  | some _ => none

def intColumn (metadata : JsonObject) (key : String) (default : Int) : Option Int :=
  match metadata.lookup key with
  | none => some default
  | some (.number text) => text.toInt?
  | some _ => none

/-- The row of `SkillModel(**metadata)`, where its values are of the types of the columns. -/
def skillRow (name : String) (bodyMarkdown : List Char) (metadata : JsonObject) :
    Option Skill := do
  let description ← textColumn metadata "description" ""
  let scope ← textColumn metadata "scope" "tenant"
  let status ← textColumn metadata "status" "draft"
  let enabled ← boolColumn metadata "enabled" true
  let priority ← intColumn metadata "priority" 50
  return {
    name, slug := reg.slugify name, description, scope, status, enabled, priority
    tags := (metadata.lookup "tags").getD (.array [])
    allowedTools := (metadata.lookup "allowed_tools").getD .null
    preferredTools := (metadata.lookup "preferred_tools").getD .null
    forbiddenTools := (metadata.lookup "forbidden_tools").getD .null
    knowledgeSources := (metadata.lookup "knowledge_sources").getD .null
    triggerRules := (metadata.lookup "trigger_rules").getD .null
    bodyMarkdown }

/-- The row is flushed. -/
def insertSkill (row : Skill) : Except ImportFailure StoredSkill :=
  if h : row.Fits then
    if row.slug ∈ reg.skills.map (·.slug) then .error (.raised "IntegrityError")
    else .ok ⟨row, h⟩
  else .error (.raised "DBAPIError")

def createSkill (name : Json) (bodyMarkdown : List Char) (metadata : JsonObject) :
    Except ImportFailure StoredSkill :=
  if reg.maxPublished ≤ reg.publishedCount then
    .error (.http 409
      ("Tenant has reached the maximum of " ++ toString reg.maxPublished ++ " published skills."))
  else match name with
    | .string name =>
      match reg.skillRow name bodyMarkdown metadata with
      | some row => reg.insertSkill row
      | none => .error (.raised "DBAPIError")
    | _ => .error (.raised "AttributeError")

/-- `metadata.pop("name", None) or file.filename.removesuffix(".md")` -/
def importName (metadata : JsonObject) (filename : List Char) : Json :=
  match (metadata.lookup "name").filter (·.truthy) with
  | some name => name
  | none => .string (String.ofList (removesuffix markdownSuffix filename))

/-- The skill an import creates. -/
def importSkill (yaml : Yaml) (file : SkillFile) : Except ImportFailure StoredSkill :=
  if markdownSuffix <:+ file.filename then
    let parsed := yaml.parseSkillDocument file.content
    let metadata := extractMetadataFromFrontmatter parsed.frontmatter
    reg.createSkill (importName metadata file.filename) parsed.body metadata
  else .error (.http 422 "Only .md files are supported.")

end Registry

/-! ## The round trip -/

/-- What a document carries of a skill. -/
structure Skill.SameContents (s t : Skill) : Prop where
  name : t.name = s.name
  description : t.description = s.description
  scope : t.scope = s.scope
  priority : t.priority = s.priority
  tags : t.tags = s.tags
  allowedTools : t.allowedTools = s.allowedTools
  preferredTools : t.preferredTools = s.preferredTools
  forbiddenTools : t.forbiddenTools = s.forbiddenTools
  knowledgeSources : t.knowledgeSources = s.knowledgeSources
  triggerRules : t.triggerRules = s.triggerRules
  bodyMarkdown : t.bodyMarkdown = s.bodyMarkdown

/-- A value that comes back as the default of its key does where it is left out. -/
def Kept (default value : Json) : Prop := value.truthy ∨ value = default

/-- The columns that exporting normalises hold values that come back. -/
structure Skill.Portable (s : Skill) : Prop where
  name : s.name ≠ "" ∨ s.slug = []
  tags : Kept (.array []) s.tags
  allowedTools : Kept .null s.allowedTools
  preferredTools : Kept .null s.preferredTools
  forbiddenTools : Kept .null s.forbiddenTools
  knowledgeSources : Kept .null s.knowledgeSources
  triggerRules : Kept .null s.triggerRules

section
variable {reg : Registry} {s : Skill} {value : Json} {key : String} {yaml : Yaml}
  {body : List Char}

theorem lookup_entryIf (k : String) :
    (entryIf key value).lookup k = if k = key ∧ value.truthy then some value else none := by
  rw [entryIf]
  split
  next h =>
    by_cases hk : k = key
    · simp [hk, h]
    · have hne : (k == key) = false := by simpa using hk
      simp [List.lookup_cons, hne, hk]
  next h => simp [h]

theorem lookup_frontmatter_name : s.frontmatter.lookup "name" = some (.string s.name) := rfl

theorem lookup_frontmatter_description :
    s.frontmatter.lookup "description" = some (.string s.description) := rfl

theorem lookup_frontmatter_scope : s.frontmatter.lookup "scope" = some (.string s.scope) := rfl

theorem lookup_frontmatter_priority :
    s.frontmatter.lookup "priority" = some (.number s.priority.repr) := rfl

theorem lookup_frontmatter_tags :
    s.frontmatter.lookup "tags" = some (if s.tags.truthy then s.tags else .array []) := rfl

/-- A key written only with a value. -/
theorem lookup_frontmatter_entryIf
    (hkey : key ∉ ["name", "description", "scope", "priority", "tags"]) :
    s.frontmatter.lookup key = (entryIf "allowed_tools" s.allowedTools ++
      entryIf "preferred_tools" s.preferredTools ++ entryIf "forbidden_tools" s.forbiddenTools ++
      entryIf "knowledge_sources" s.knowledgeSources ++
      entryIf "trigger_rules" s.triggerRules).lookup key := by
  have hne : ∀ k ∈ ["name", "description", "scope", "priority", "tags"], (key == k) = false := by
    intro k hk
    have hkk : key ≠ k := fun h => hkey (h ▸ hk)
    simpa using hkk
  simp only [List.mem_cons, List.not_mem_nil, or_false, forall_eq_or_imp, forall_eq] at hne
  simp [Skill.frontmatter, List.lookup_cons, hne]

/-- What a JSONB column is read back as. -/
def orElse (default value : Json) : Json := if value.truthy then value else default

theorem orElse_eq_self_iff {default : Json} :
    orElse default value = value ↔ Kept default value := by
  rw [orElse, Kept]
  split
  next h => simp [h]
  next h => simp [h, eq_comm]

theorem getD_filter_truthy :
    ((if value.truthy then some value else none).getD .null) = orElse .null value := by
  rw [orElse]
  split <;> rfl

/-- The name an exported skill is imported with. -/
def Skill.importedName (s : Skill) : String :=
  if s.name = "" then String.ofList s.slug else s.name

/-- The row an exported skill is imported as. -/
def Skill.imported (reg : Registry) (s : Skill) : Skill where
  name := s.importedName
  slug := reg.slugify s.importedName
  description := s.description
  scope := s.scope
  status := "draft"
  enabled := true
  priority := s.priority
  tags := orElse (.array []) s.tags
  allowedTools := orElse .null s.allowedTools
  preferredTools := orElse .null s.preferredTools
  forbiddenTools := orElse .null s.forbiddenTools
  knowledgeSources := orElse .null s.knowledgeSources
  triggerRules := orElse .null s.triggerRules
  bodyMarkdown := strip s.bodyMarkdown

theorem removesuffix_append (text suffix : List Char) :
    removesuffix suffix (text ++ suffix) = text := by
  rw [removesuffix, if_pos (List.suffix_append _ _)]
  simp

theorem importName_frontmatter :
    Registry.importName (extractMetadataFromFrontmatter s.frontmatter) (s.slug ++ markdownSuffix) =
      .string s.importedName := by
  rw [Registry.importName, lookup_extractMetadata (by decide), lookup_frontmatter_name,
    removesuffix_append, Skill.importedName]
  by_cases hname : s.name = ""
  · have hfilter : (some (Json.string s.name)).filter (·.truthy) = none := by
      rw [hname]
      simp [Option.filter, Json.truthy.eq_4]
    rw [hfilter, if_pos hname]
  · have hfilter : (some (Json.string s.name)).filter (·.truthy) = some (.string s.name) := by
      simp [Option.filter, Json.truthy.eq_4, hname]
    rw [hfilter, if_neg hname]

theorem skillRow_frontmatter :
    reg.skillRow s.importedName (strip s.bodyMarkdown)
      (extractMetadataFromFrontmatter s.frontmatter) = some (s.imported reg) := by
  have hrest : ∀ key ∈ ["status", "enabled", "allowed_tools", "preferred_tools", "forbidden_tools",
      "knowledge_sources", "trigger_rules"], key ∈ knownKeys ∧
        key ∉ ["name", "description", "scope", "priority", "tags"] := by decide
  have hlookup : ∀ key ∈ ["status", "enabled", "allowed_tools", "preferred_tools",
      "forbidden_tools", "knowledge_sources", "trigger_rules"],
      (extractMetadataFromFrontmatter s.frontmatter).lookup key =
        (entryIf "allowed_tools" s.allowedTools ++ entryIf "preferred_tools" s.preferredTools ++
          entryIf "forbidden_tools" s.forbiddenTools ++
          entryIf "knowledge_sources" s.knowledgeSources ++
          entryIf "trigger_rules" s.triggerRules).lookup key := by
    intro key hkey
    rw [lookup_extractMetadata (hrest key hkey).1, lookup_frontmatter_entryIf (hrest key hkey).2]
  simp only [List.mem_cons, List.not_mem_nil, or_false, forall_eq_or_imp, forall_eq,
    List.lookup_append, lookup_entryIf] at hlookup
  obtain ⟨hstatus, henabled, hallowed, hpreferred, hforbidden, hsources, hrules⟩ := hlookup
  rw [Registry.skillRow, Registry.textColumn, Registry.textColumn, Registry.textColumn,
    Registry.boolColumn, Registry.intColumn, hstatus, henabled, hallowed, hpreferred, hforbidden,
    hsources, hrules, lookup_extractMetadata (by decide), lookup_extractMetadata (by decide),
    lookup_extractMetadata (by decide), lookup_extractMetadata (by decide),
    lookup_frontmatter_description, lookup_frontmatter_scope, lookup_frontmatter_priority,
    lookup_frontmatter_tags]
  simp [Int.toInt?_repr, Skill.imported, getD_filter_truthy, orElse]

theorem imported_fits (h : s.Fits) : (s.imported reg).Fits where
  name := by
    change s.importedName.length ≤ 255
    rw [Skill.importedName]
    split
    next => simpa using h.slug
    next => exact h.name
  slug := by simp [Skill.imported, Registry.slugify]
  scope := h.scope
  status := by
    change "draft".length ≤ 32
    decide
  priority := h.priority

/-- What importing an exported document comes to, where the YAML text holds no delimiter. -/
theorem importSkill_exportSkill (s : StoredSkill)
    (hload : yaml.safeLoad (yaml.fmYaml s.frontmatter) = some (.object s.frontmatter))
    (hclean : ¬ delimiter <:+: yaml.fmYaml s.frontmatter) :
    reg.importSkill yaml (yaml.exportSkill s.toSkill) =
      if reg.maxPublished ≤ reg.publishedCount then
        .error (.http 409 ("Tenant has reached the maximum of " ++ toString reg.maxPublished ++
          " published skills."))
      else reg.insertSkill (s.imported reg) := by
  rw [Registry.importSkill, Yaml.exportSkill, if_pos (List.suffix_append _ _),
    Yaml.parse_compose_of_no_delimiter hclean]
  have hdict : yaml.loadDict (yaml.fmYaml s.frontmatter) = s.frontmatter := by
    rw [Yaml.loadDict, hload]
  dsimp only
  rw [hdict, importName_frontmatter, Registry.createSkill, skillRow_frontmatter]

theorem insertSkill_eq_ok_iff {row : Skill} {created : StoredSkill} :
    reg.insertSkill row = .ok created ↔
      created.toSkill = row ∧ row.slug ∉ reg.skills.map (·.slug) := by
  rw [Registry.insertSkill]
  constructor
  · intro h
    split at h
    next =>
      split at h
      next => cases h
      next hfree =>
        cases h
        exact ⟨rfl, hfree⟩
    next => cases h
  · rintro ⟨rfl, hfree⟩
    rw [dif_pos created.fits, if_neg hfree]

theorem bodyMarkdown_of_skillRow {name : String} {metadata : JsonObject} {row : Skill}
    (h : reg.skillRow name body metadata = some row) : row.bodyMarkdown = body := by
  simp only [Registry.skillRow, Option.bind_eq_bind, Option.bind_eq_some_iff] at h
  obtain ⟨_, _, _, _, _, _, _, _, _, _, hrow⟩ := h
  cases hrow
  rfl

theorem exists_skillRow_of_createSkill {name : Json} {metadata : JsonObject}
    {created : StoredSkill} (h : reg.createSkill name body metadata = .ok created) :
    ∃ text, reg.skillRow text body metadata = some created.toSkill := by
  unfold Registry.createSkill at h
  split at h
  next => cases h
  next =>
    split at h
    next text =>
      split at h
      next row hrow =>
        obtain ⟨hcreated, -⟩ := insertSkill_eq_ok_iff.1 h
        exact ⟨text, hcreated ▸ hrow⟩
      next => cases h
    next => cases h

/-- A skill that is created has the body of its document. -/
theorem bodyMarkdown_of_importSkill {file : SkillFile} {created : StoredSkill}
    (h : reg.importSkill yaml file = .ok created) :
    created.bodyMarkdown = (yaml.parseSkillDocument file.content).body := by
  rw [Registry.importSkill] at h
  split at h
  next =>
    obtain ⟨text, hrow⟩ := exists_skillRow_of_createSkill h
    exact bodyMarkdown_of_skillRow hrow
  next => cases h

theorem importedName_eq_iff : s.importedName = s.name ↔ s.name ≠ "" ∨ s.slug = [] := by
  rw [Skill.importedName]
  split
  next h => simp [h]
  next h => simp [h]

theorem imported_sameContents_iff :
    s.SameContents (s.imported reg) ↔ s.Portable ∧ strip s.bodyMarkdown = s.bodyMarkdown := by
  constructor
  · intro h
    refine ⟨?_, h.bodyMarkdown⟩
    exact {
      name := importedName_eq_iff.1 h.name
      tags := orElse_eq_self_iff.1 h.tags
      allowedTools := orElse_eq_self_iff.1 h.allowedTools
      preferredTools := orElse_eq_self_iff.1 h.preferredTools
      forbiddenTools := orElse_eq_self_iff.1 h.forbiddenTools
      knowledgeSources := orElse_eq_self_iff.1 h.knowledgeSources
      triggerRules := orElse_eq_self_iff.1 h.triggerRules }
  · rintro ⟨h, hbody⟩
    exact {
      name := importedName_eq_iff.2 h.name
      description := rfl
      scope := rfl
      priority := rfl
      tags := orElse_eq_self_iff.2 h.tags
      allowedTools := orElse_eq_self_iff.2 h.allowedTools
      preferredTools := orElse_eq_self_iff.2 h.preferredTools
      forbiddenTools := orElse_eq_self_iff.2 h.forbiddenTools
      knowledgeSources := orElse_eq_self_iff.2 h.knowledgeSources
      triggerRules := orElse_eq_self_iff.2 h.triggerRules
      bodyMarkdown := hbody }

/-- A delimiter in the YAML text moves the rest of it into the body. -/
theorem not_sameContents_of_delimiter {created : StoredSkill}
    (hin : delimiter <:+: yaml.fmYaml s.frontmatter)
    (h : reg.importSkill yaml (yaml.exportSkill s) = .ok created) :
    ¬ s.SameContents created.toSkill := by
  intro hsame
  have hbody := bodyMarkdown_of_importSkill h
  rw [hsame.bodyMarkdown] at hbody
  exact Yaml.parse_compose_of_delimiter hin hbody.symm

/-- The registry takes a skill of a name. -/
def Registry.Takes (reg : Registry) (name : String) : Prop :=
  reg.publishedCount < reg.maxPublished ∧ reg.slugify name ∉ reg.skills.map (·.slug)

/-- An exported skill comes back from its document exactly where the YAML text holds no delimiter,
nothing is lost by the way the columns are written, and the registry has room for it. -/
theorem export_import_iff (reg : Registry) (yaml : Yaml) (s : StoredSkill)
    (hload : yaml.safeLoad (yaml.dump s.frontmatter) = some (.object s.frontmatter))
    (hstrip : yaml.safeLoad (strip (yaml.dump s.frontmatter)) =
      yaml.safeLoad (yaml.dump s.frontmatter)) :
    (∃ created, reg.importSkill yaml (yaml.exportSkill s.toSkill) = .ok created ∧
      s.SameContents created.toSkill) ↔
    ¬ delimiter <:+: strip (yaml.dump s.frontmatter) ∧ strip s.bodyMarkdown = s.bodyMarkdown ∧
      s.Portable ∧ reg.Takes s.name := by
  have hfm : yaml.safeLoad (yaml.fmYaml s.frontmatter) = some (.object s.frontmatter) :=
    hstrip.trans hload
  constructor
  · rintro ⟨created, hcreated, hsame⟩
    have hclean : ¬ delimiter <:+: yaml.fmYaml s.frontmatter := fun hin =>
      not_sameContents_of_delimiter hin hcreated hsame
    rw [importSkill_exportSkill s hfm hclean] at hcreated
    split at hcreated
    next => cases hcreated
    next hroom =>
      obtain ⟨hrow, hfree⟩ := insertSkill_eq_ok_iff.1 hcreated
      rw [hrow] at hsame
      obtain ⟨hportable, hbody⟩ := imported_sameContents_iff.1 hsame
      have hname : s.importedName = s.name := importedName_eq_iff.2 hportable.name
      exact ⟨hclean, hbody, hportable, Nat.not_le.1 hroom, hname ▸ hfree⟩
  · rintro ⟨hclean, hbody, hportable, hroom, hfree⟩
    have hname : s.importedName = s.name := importedName_eq_iff.2 hportable.name
    refine ⟨⟨s.imported reg, imported_fits s.fits⟩, ?_, imported_sameContents_iff.2
      ⟨hportable, hbody⟩⟩
    rw [importSkill_exportSkill s hfm hclean, if_neg (Nat.not_le.2 hroom)]
    refine insertSkill_eq_ok_iff.2 ⟨rfl, ?_⟩
    change reg.slugify s.importedName ∉ _
    rw [hname]
    exact hfree

end

/-! ## A name with dashes -/

/-- A skill with one tag and nothing else to it. -/
def noteRow (name : String) : Skill where
  name := name
  slug := ['n', 'o', 't', 'e']
  description := ""
  scope := "tenant"
  status := "draft"
  enabled := true
  priority := 50
  tags := .array [.string "finance"]
  allowedTools := .null
  preferredTools := .null
  forbiddenTools := .null
  knowledgeSources := .null
  triggerRules := .null
  bodyMarkdown := ['h', 'i']

theorem noteRow_fits {name : String} (h : name.length ≤ 255) : (noteRow name).Fits where
  name := h
  slug := (by decide : 4 ≤ 255)
  scope := (by decide : "tenant".length ≤ 32)
  status := (by decide : "draft".length ≤ 32)
  priority := (by decide : -2 ^ 31 ≤ (50 : Int) ∧ (50 : Int) < 2 ^ 31)

def noteSkill (name : String) (h : name.length ≤ 255) : StoredSkill :=
  ⟨noteRow name, noteRow_fits h⟩

/-- The YAML text of such a skill. -/
def noteYamlText (name : String) : List Char :=
  "name: ".toList ++ name.toList ++
    "\ndescription: ''\nscope: tenant\npriority: 50\ntags:\n- finance\n".toList

/-- PyYAML on the texts of such a skill. -/
def noteYaml (name : String) : Yaml where
  safeLoad text :=
    if text = noteYamlText name ∨ text = strip (noteYamlText name) then
      some (.object (noteRow name).frontmatter)
    else if text = "name: a".toList then some (.object [("name", .string "a")])
    else none
  dump _ := noteYamlText name

/-- A registry without skills. -/
def emptyRegistry : Registry := ⟨fun text => text.map Char.toLower, 25, []⟩

set_option maxRecDepth 4000 in
theorem export_import_iff_note :
    ∃ created, emptyRegistry.importSkill (noteYaml "note") ((noteYaml "note").exportSkill
      (noteSkill "note" (by decide)).toSkill) = .ok created ∧
      (noteSkill "note" (by decide)).SameContents created.toSkill :=
  (export_import_iff emptyRegistry (noteYaml "note") (noteSkill "note" (by decide))
    (by decide) (by decide)).2
    ⟨by decide, by decide, ⟨by decide, .inl (by decide), .inr rfl, .inr rfl, .inr rfl, .inr rfl,
      .inr rfl⟩, by decide, by decide⟩

/-- The name is cut at its dashes, and the rest of the frontmatter becomes part of the body. -/
theorem import_of_name_with_dashes :
    ∃ created, emptyRegistry.importSkill (noteYaml "a---b") ((noteYaml "a---b").exportSkill
      (noteSkill "a---b" (by decide)).toSkill) = .ok created ∧ created.name = "a" ∧
      created.tags = .array [] ∧ created.bodyMarkdown = ("b\ndescription: ''\nscope: tenant\n" ++
        "priority: 50\ntags:\n- finance\n---\n\nhi").toList ∧
      ¬ (noteSkill "a---b" (by decide)).SameContents created.toSkill := by
  refine ⟨⟨_, _⟩, rfl, rfl, rfl, rfl, ?_⟩
  exact fun h => absurd h.name (by decide)

end LlmPort.Skills
