import LlmPort.ModelSync.Manifest
import LlmPort.Text.Json
import LlmPort.Text.Split

/-!
# Skill documents

`services/frontmatter.py` of the skills registry: a document is YAML between two delimiters and a
markdown body. The closing delimiter is looked for as a text, wherever it stands.
-/

namespace LlmPort.Skills

open Text ModelSync

/-- PyYAML, as the documents use it. -/
structure Yaml where
  /-- `yaml.safe_load`; `none` is a `YAMLError`. -/
  safeLoad : List Char → Option Json
  /-- `yaml.dump(d, default_flow_style=False, allow_unicode=True, sort_keys=False)` -/
  dump : JsonObject → List Char

structure ParsedSkill where
  frontmatter : JsonObject
  body : List Char
  rawFrontmatter : List Char

def delimiter : List Char := ['-', '-', '-']

namespace Yaml

variable (yaml : Yaml)

/-- What is loaded, where it is a dict. -/
def loadDict (text : List Char) : JsonObject :=
  match yaml.safeLoad text with
  | some (.object entries) => entries
  | _ => []

def parseSkillDocument (content : List Char) : ParsedSkill :=
  let content := strip content
  if delimiter <+: content then
    match breakOn delimiter (content.drop 3) with
    | none => ⟨[], content, []⟩
    | some (raw, rest) => ⟨yaml.loadDict (strip raw), strip rest, strip raw⟩
  else ⟨[], content, []⟩

/-- The YAML text of a document. -/
def fmYaml (frontmatter : JsonObject) : List Char := strip (yaml.dump frontmatter)

def composeSkillDocument (frontmatter : JsonObject) (body : List Char) : List Char :=
  delimiter ++ '\n' :: (yaml.fmYaml frontmatter ++ '\n' :: (delimiter ++ '\n' :: '\n' :: body))

end Yaml

def knownKeys : List String :=
  ["name", "description", "scope", "status", "enabled", "priority", "tags", "allowed_tools",
    "preferred_tools", "forbidden_tools", "knowledge_sources", "trigger_rules"]

def extractMetadataFromFrontmatter (fm : JsonObject) : JsonObject :=
  fm.filter fun entry => entry.1 ∈ knownKeys

theorem lookup_extractMetadata {fm : JsonObject} {key : String} (h : key ∈ knownKeys) :
    (extractMetadataFromFrontmatter fm).lookup key = fm.lookup key := by
  induction fm with
  | nil => rfl
  | cons entry fm ih =>
    obtain ⟨k, value⟩ := entry
    rw [extractMetadataFromFrontmatter] at ih ⊢
    by_cases hk : key = k
    · subst hk
      rw [List.filter_cons_of_pos (by simpa using h), List.lookup_cons_self,
        List.lookup_cons_self]
    · have hne : (key == k) = false := by simpa using hk
      rw [List.filter_cons]
      split <;> simp [List.lookup_cons, hne, ih]

/-! ## Parsing what was composed -/

theorem isSpace_dash : isSpace '-' = false := by decide

theorem isSpace_newline : isSpace '\n' = true := by decide

namespace Yaml

variable {yaml : Yaml} {fm : JsonObject} {body : List Char}

/-- What follows the closing delimiter of a stripped document. -/
def bodyLines (body : List Char) : List Char := ('\n' :: '\n' :: body).rdropWhile isSpace

theorem strip_bodyLines : strip (bodyLines body) = strip body := by
  have hidem : (bodyLines body).rdropWhile isSpace = bodyLines body :=
    List.rdropWhile_idempotent _ _
  rw [strip_eq_trim, ← dropWhile_rdropWhile_comm, hidem, bodyLines, dropWhile_rdropWhile_comm]
  exact trim_append_of_all (l := ['\n', '\n']) (by simp [isSpace_newline])

/-- What the closing delimiter is looked for in. -/
theorem strip_compose :
    strip (yaml.composeSkillDocument fm body) =
      delimiter ++ ('\n' :: yaml.fmYaml fm ++ '\n' :: (delimiter ++ bodyLines body)) := by
  have hsplit : yaml.composeSkillDocument fm body =
      (delimiter ++ '\n' :: (yaml.fmYaml fm ++ ['\n', '-', '-'])) ++
        '-' :: ('\n' :: '\n' :: body) := by
    simp [composeSkillDocument, delimiter]
  rw [strip_eq_trim, hsplit, trim_append_cons isSpace_dash]
  simp [delimiter, bodyLines, isSpace_dash]

theorem delimiter_not_prefix_newline {l : List Char} : ¬ delimiter <+: '\n' :: l := by
  simp [delimiter]

/-- The parse of a composed document, by where the delimiter is found first. -/
theorem parse_compose {raw rest : List Char}
    (h : breakOn delimiter ('\n' :: yaml.fmYaml fm ++ '\n' :: (delimiter ++ bodyLines body)) =
      some (raw, rest)) :
    yaml.parseSkillDocument (yaml.composeSkillDocument fm body) =
      ⟨yaml.loadDict (strip raw), strip rest, strip raw⟩ := by
  rw [parseSkillDocument, strip_compose, if_pos (List.prefix_append _ _)]
  have hdrop : (delimiter ++ ('\n' :: yaml.fmYaml fm ++
      '\n' :: (delimiter ++ bodyLines body))).drop 3 =
      '\n' :: yaml.fmYaml fm ++ '\n' :: (delimiter ++ bodyLines body) := rfl
  rw [hdrop, h]

/-- Where the YAML text holds no delimiter, the one behind it closes it. -/
theorem parse_compose_of_no_delimiter (h : ¬ delimiter <:+: yaml.fmYaml fm) :
    yaml.parseSkillDocument (yaml.composeSkillDocument fm body) =
      ⟨yaml.loadDict (yaml.fmYaml fm), strip body, yaml.fmYaml fm⟩ := by
  have hbreak : breakOn delimiter
      ('\n' :: yaml.fmYaml fm ++ '\n' :: (delimiter ++ bodyLines body)) =
        some ('\n' :: yaml.fmYaml fm ++ ['\n'], bodyLines body) := by
    have hshift : '\n' :: yaml.fmYaml fm ++ '\n' :: (delimiter ++ bodyLines body) =
        ('\n' :: yaml.fmYaml fm ++ ['\n']) ++ (delimiter ++ bodyLines body) := by simp
    rw [hshift]
    apply breakOn_append_sep
    intro k hk hp
    rw [← hshift] at hp
    cases k with
    | zero => exact delimiter_not_prefix_newline hp
    | succ k =>
      have hle : k ≤ (yaml.fmYaml fm).length := by
        simp only [List.cons_append, List.length_cons, List.length_append, List.length_nil] at hk
        omega
      have hnl : '\n' ∉ delimiter := by decide
      exact h (infix_of_start hnl hle hp)
  rw [parse_compose hbreak, strip_bodyLines]
  have hraw : strip ('\n' :: yaml.fmYaml fm ++ ['\n']) = yaml.fmYaml fm := by
    have hnl : ∀ a ∈ ['\n'], isSpace a := by simp [isSpace_newline]
    exact (trim_surrounded (l := ['\n']) hnl hnl).trans (strip_strip _)
  rw [hraw]

/-- Where it holds one, the rest of the YAML text and the closing delimiter go to the body. -/
theorem parse_compose_of_delimiter (h : delimiter <:+: yaml.fmYaml fm) :
    (yaml.parseSkillDocument (yaml.composeSkillDocument fm body)).body ≠ body := by
  obtain ⟨p, q, hpq⟩ := exists_breakOn h
  have hcons : breakOn delimiter ('\n' :: yaml.fmYaml fm) = some ('\n' :: p, q) := by
    rw [breakOn_cons_of_not delimiter_not_prefix_newline, hpq]
    rfl
  rw [parse_compose (breakOn_append hcons)]
  intro hbody
  have hidem : (bodyLines body).rdropWhile isSpace = bodyLines body :=
    List.rdropWhile_idempotent _ _
  have hparsed : strip (q ++ '\n' :: (delimiter ++ bodyLines body)) =
      (q ++ ['\n', '-', '-']).dropWhile isSpace ++ '-' :: bodyLines body := by
    have hsplit : q ++ '\n' :: (delimiter ++ bodyLines body) =
        (q ++ ['\n', '-', '-']) ++ '-' :: bodyLines body := by simp [delimiter]
    rw [strip_eq_trim, hsplit, trim_append_cons isSpace_dash, hidem]
  -- the body would be longer than the lines it ends
  have hlines : bodyLines body = '\n' :: '\n' :: body := by
    have hshape := hparsed.symm.trans hbody
    rw [bodyLines, ← hshape, ← List.cons_append, ← List.cons_append,
      rdropWhile_append_cons isSpace_dash, hidem]
  have hlen := congrArg List.length (hparsed.symm.trans hbody)
  rw [hlines] at hlen
  simp only [List.length_append, List.length_cons] at hlen
  omega

end Yaml

end LlmPort.Skills
