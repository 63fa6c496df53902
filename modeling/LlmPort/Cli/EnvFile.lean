import LlmPort.ModelSync.Manifest
import LlmPort.Text.Lines
import LlmPort.Transition.Dict

/-!
# Env files

`read_env_file` of `core/env_gen.py`, and the lines that are written for a dict of variables.
-/

namespace LlmPort.Cli

open Text ModelSync Transition

/-- A dict of variables. -/
abbrev Env := Dict String String

/-! ## Reading -/

/-- The variable of a line. -/
def lineVar (line : List Char) : Option (String × String) :=
  let line := strip line
  if line = [] ∨ line.head? = some '#' then none
  else
    let key := line.takeWhile (· ≠ '=')
    let value := (line.dropWhile (· ≠ '=')).drop 1
    if key = [] then none else some (String.ofList (strip key), String.ofList (strip value))

/-- `read_env_file`; the text is `none` where the file does not exist. -/
def readEnvFile (text : Option (List Char)) : Env :=
  match text with
  | none => .empty
  | some text => Dict.empty.update ((splitLines text).filterMap lineVar)

/-! ## Writing -/

inductive VarGroup where
  | core | langfuse | clickhouse | llmPort
  deriving DecidableEq

namespace VarGroup

def of (key : String) : VarGroup :=
  if "LLM_PORT_".toList.isPrefixOf key.toList then llmPort
  else if "LANGFUSE_".toList.isPrefixOf key.toList then langfuse
  else if "CLICKHOUSE_".toList.isPrefixOf key.toList then clickhouse
  else core

def label : VarGroup → String
  | core => "Core Infrastructure"
  | langfuse => "Langfuse"
  | clickhouse => "ClickHouse"
  | llmPort => "llm.port Services"

end VarGroup

/-- `f"{k}={v}"` -/
def varLine (item : String × String) : List Char := item.1.toList ++ '=' :: item.2.toList

def groupLines (env : Env) (group : VarGroup) : List (List Char) :=
  let items := env.entries.filter fun item => VarGroup.of item.1 = group
  if items = [] then []
  else ("# ── " ++ group.label ++ " ──").toList :: (items.map varLine ++ [[]])

/-- What `_timestamp` returns. -/
structure Timestamp where
  text : List Char
  oneLine : OneLine text

def envHeader : String :=
  "# Generated by llmport init — do not edit manually unless you know what you're doing."

def envLines (timestamp : Timestamp) (env : Env) : List (List Char) :=
  envHeader.toList :: ("# Generated at: ".toList ++ timestamp.text) :: [] ::
    [.core, .langfuse, .clickhouse, .llmPort].flatMap (groupLines env)

/-- What `write_env_file` writes for the variables. -/
def envText (timestamp : Timestamp) (env : Env) : List Char :=
  ['\n'].intercalate (envLines timestamp env)

/-! ## What is written is read back -/

/-- The symbols of keys and of generated secrets. -/
def isToken (c : Char) : Bool := c.isAlphanum || c = '_' || c = '-'

/-- The text of a key. -/
def isKey (key : String) : Bool := key ≠ "" && key.toList.all isToken

/-- The variables can be written to lines of their own. -/
structure Env.Writable (env : Env) : Prop where
  keys : ∀ item ∈ env.entries, isKey item.1 = true
  values : ∀ item ∈ env.entries, OneLine item.2.toList

/-- Without the spaces around it. -/
def stripped (value : String) : String := String.ofList (strip value.toList)

variable {env : Env} {item : String × String} {key value : String} {line text : List Char}
  {c : Char}

theorem isToken_toNat (h : isToken c = true) : 0x2d ≤ c.toNat ∧ c.toNat ≤ 0x7a := by
  simp only [isToken, Bool.or_eq_true, decide_eq_true_iff] at h
  rcases h with (h | rfl) | rfl
  · have hrange := toNat_of_isAlphanum h
    omega
  · decide
  · decide

theorem isSpace_of_isToken (h : isToken c = true) : isSpace c = false := by
  have hrange := isToken_toNat h
  simp only [isSpace, List.mem_cons, List.not_mem_nil, or_false, decide_eq_false_iff_not]
  omega

theorem isSpace_of_isLineBreak (h : isLineBreak c = true) : isSpace c = true := by
  have hcode := of_decide_eq_true h
  simp only [List.mem_cons, List.not_mem_nil, or_false] at hcode
  simp only [isSpace, List.mem_cons, List.not_mem_nil, or_false, decide_eq_true_iff]
  omega

theorem oneLine_of_isToken (h : ∀ c ∈ text, isToken c = true) : OneLine text := by
  intro c hc
  refine Bool.eq_false_iff.2 fun hbreak => ?_
  have hspace := isSpace_of_isToken (h c hc)
  rw [isSpace_of_isLineBreak hbreak] at hspace
  cases hspace

theorem strip_of_isToken (h : ∀ c ∈ text, isToken c = true) : strip text = text := by
  cases text with
  | nil => rfl
  | cons c text =>
    have hspace := isSpace_of_isToken (h c List.mem_cons_self)
    rw [strip_eq_trim, trim_cons_of_neg hspace]
    refine congrArg (c :: ·) (List.rdropWhile_eq_self_iff.2 fun hne => ?_)
    have hlast := h _ (List.mem_cons_of_mem c (List.getLast_mem hne))
    rw [isSpace_of_isToken hlast]
    exact Bool.false_ne_true

theorem lineVar_nil : lineVar [] = none := rfl

theorem lineVar_comment (text : List Char) : lineVar ('#' :: text) = none := by
  rw [lineVar, strip_eq_trim, trim_cons_of_neg (by decide)]
  exact if_pos (.inr rfl)

theorem strip_rdropWhile (text : List Char) : strip (text.rdropWhile isSpace) = strip text := by
  rw [strip_eq_trim, trim, dropWhile_rdropWhile_comm, ← strip_eq_trim, strip_eq_trim,
    rdropWhile_eq_of_trim_eq trim_trim]

theorem tokens_of_isKey (h : isKey key = true) :
    key.toList ≠ [] ∧ ∀ c ∈ key.toList, isToken c = true := by
  rw [isKey, Bool.and_eq_true, decide_eq_true_iff, List.all_eq_true] at h
  exact ⟨fun hnil => h.1 (String.toList_eq_nil_iff.1 hnil), h.2⟩

theorem isKey_ofList (hne : text ≠ []) (h : text.all isToken = true) :
    isKey (String.ofList text) = true := by
  rw [isKey, String.toList_ofList, h, Bool.and_true, decide_eq_true_iff]
  exact fun hnil => hne (String.ofList_eq_empty_iff.1 hnil)

theorem isKey_append {key' : String} (h : isKey key = true) (h' : isKey key' = true) :
    isKey (key ++ key') = true := by
  have htokens := tokens_of_isKey h
  rw [isKey, String.toList_append, Bool.and_eq_true, decide_eq_true_iff, List.all_eq_true]
  refine ⟨fun hnil => htokens.1 ?_, List.forall_mem_append.2 ⟨htokens.2, (tokens_of_isKey h').2⟩⟩
  rw [(String.append_eq_empty_iff.1 hnil).1]
  rfl

theorem lineVar_varLine (h : isKey item.1 = true) :
    lineVar (varLine item) = some (item.1, stripped item.2) := by
  obtain ⟨hne, htoken⟩ := tokens_of_isKey h
  have hequals : isSpace '=' = false := by decide
  have hkey : item.1.toList.dropWhile isSpace = item.1.toList := by
    refine List.dropWhile_eq_self_iff.2 fun hlen => ?_
    rw [isSpace_of_isToken (htoken _ (List.getElem_mem hlen))]
    exact Bool.false_ne_true
  have hall : ∀ c ∈ item.1.toList, decide (c ≠ '=') = true := by
    refine fun c hc => decide_eq_true fun heq => ?_
    have hc := htoken c hc
    rw [heq] at hc
    revert hc
    decide
  rw [lineVar, varLine, strip_eq_trim, trim_append_cons hequals, hkey]
  dsimp only
  have hfirst : ¬ (item.1.toList ++ '=' :: item.2.toList.rdropWhile isSpace = [] ∨
      (item.1.toList ++ '=' :: item.2.toList.rdropWhile isSpace).head? = some '#') := by
    cases hlist : item.1.toList with
    | nil => exact (hne hlist).elim
    | cons c cs =>
      rintro (heq | heq)
      · cases heq
      · have hc := htoken c (hlist ▸ List.mem_cons_self)
        rw [Option.some.inj heq] at hc
        revert hc
        decide
  rw [if_neg hfirst, takeWhile_append_cons (by decide), List.takeWhile_eq_self_iff.2 hall,
    dropWhile_append_cons (by decide), List.dropWhile_eq_nil_iff.2 hall,
    if_neg hne, strip_of_isToken htoken,
    String.ofList_toList]
  exact congrArg (fun value => some (item.1, String.ofList value)) (strip_rdropWhile _)

/-- The variables of an env file, in the order of their lines. -/
def readVars (env : Env) : List (String × String) :=
  [VarGroup.core, .langfuse, .clickhouse, .llmPort].flatMap fun group =>
    (env.entries.filter fun item => VarGroup.of item.1 = group).map fun item =>
      (item.1, stripped item.2)

theorem filterMap_groupLines (h : env.Writable) (group : VarGroup) :
    (groupLines env group).filterMap lineVar =
      (env.entries.filter fun item => VarGroup.of item.1 = group).map fun item =>
        (item.1, stripped item.2) := by
  rw [groupLines]
  split
  next hnil => rw [hnil]; rfl
  next =>
    have hlabel : lineVar ("# ── " ++ group.label ++ " ──").toList = none := by
      rw [String.toList_append, String.toList_append]
      exact lineVar_comment _
    rw [List.filterMap_cons_none hlabel, List.filterMap_append,
      List.filterMap_cons_none lineVar_nil, List.filterMap_nil, List.append_nil,
      List.filterMap_map, ← List.filterMap_eq_map]
    refine List.filterMap_congr fun item hitem => ?_
    exact lineVar_varLine (h.keys item (List.mem_filter.1 hitem).1)

theorem filterMap_envLines (h : env.Writable) (timestamp : Timestamp) :
    (envLines timestamp env).filterMap lineVar = readVars env := by
  have hheader : lineVar envHeader.toList = none := lineVar_comment _
  have hat : lineVar ("# Generated at: ".toList ++ timestamp.text) = none := lineVar_comment _
  rw [envLines, List.filterMap_cons_none hheader, List.filterMap_cons_none hat,
    List.filterMap_cons_none lineVar_nil, List.filterMap_flatMap, readVars]
  exact List.flatMap_congr fun group _ => filterMap_groupLines h group

theorem mem_readVars : item ∈ readVars env ↔ ∃ x ∈ env.entries, item = (x.1, stripped x.2) := by
  rw [readVars, List.mem_flatMap]
  constructor
  · rintro ⟨group, -, hitem⟩
    obtain ⟨x, hx, rfl⟩ := List.mem_map.1 hitem
    exact ⟨x, (List.mem_filter.1 hx).1, rfl⟩
  · rintro ⟨x, hx, rfl⟩
    refine ⟨VarGroup.of x.1, ?_, List.mem_map.2 ⟨x, List.mem_filter.2 ⟨hx, decide_eq_true rfl⟩,
      rfl⟩⟩
    cases VarGroup.of x.1 <;> decide

theorem nodup_readVars (env : Env) : ((readVars env).map (·.1)).Nodup := by
  have hkeys : (readVars env).map (·.1) =
      [VarGroup.core, .langfuse, .clickhouse, .llmPort].flatMap fun group =>
        (env.entries.filter fun item => VarGroup.of item.1 = group).map (·.1) := by
    rw [readVars, List.map_flatMap]
    refine List.flatMap_congr fun group _ => ?_
    rw [List.map_map]
    rfl
  have hdistinct : [VarGroup.core, .langfuse, .clickhouse, .llmPort].Pairwise (· ≠ ·) := by decide
  rw [hkeys, List.nodup_flatMap]
  refine ⟨fun group _ => env.nodup.sublist ((List.filter_sublist ..).map _),
    hdistinct.imp fun {g g'} hne key hkey hkey' => hne ?_⟩
  obtain ⟨x, hx, rfl⟩ := List.mem_map.1 hkey
  obtain ⟨y, hy, hxy⟩ := List.mem_map.1 hkey'
  rw [← of_decide_eq_true (List.mem_filter.1 hx).2, ← of_decide_eq_true (List.mem_filter.1 hy).2,
    hxy]

theorem oneLine_groupLines (h : env.Writable) (group : VarGroup) :
    ∀ line ∈ groupLines env group, OneLine line := by
  intro line hline
  rw [groupLines] at hline
  split at hline
  next => cases hline
  next =>
    rcases List.mem_cons.1 hline with rfl | hline
    · have hdashes : OneLine "# ── ".toList ∧ OneLine " ──".toList :=
        ⟨oneLine_ofList rfl, oneLine_ofList rfl⟩
      have hlabel : OneLine group.label.toList := by
        cases group <;> exact oneLine_ofList rfl
      rw [String.toList_append, String.toList_append]
      exact (hdashes.1.append hlabel).append hdashes.2
    · rcases List.mem_append.1 hline with hline | hline
      · obtain ⟨item, hitem, rfl⟩ := List.mem_map.1 hline
        have hitem := (List.mem_filter.1 hitem).1
        refine OneLine.append (oneLine_of_isToken (tokens_of_isKey (h.keys item hitem)).2) ?_
        exact List.forall_mem_cons.2 ⟨rfl, h.values item hitem⟩
      · rw [List.mem_singleton.1 hline]
        exact nofun

theorem oneLine_envLines (h : env.Writable) (timestamp : Timestamp) :
    ∀ line ∈ envLines timestamp env, OneLine line := by
  intro line hline
  rw [envLines] at hline
  rcases List.mem_cons.1 hline with rfl | hline
  · exact oneLine_ofList rfl
  · rcases List.mem_cons.1 hline with rfl | hline
    · exact OneLine.append (oneLine_ofList rfl) timestamp.oneLine
    · rcases List.mem_cons.1 hline with rfl | hline
      · exact nofun
      · obtain ⟨group, -, hline⟩ := List.mem_flatMap.1 hline
        exact oneLine_groupLines h group line hline

/-- What is read from a written file, up to the spaces around the values. -/
theorem get_readEnvFile_envText (h : env.Writable) (timestamp : Timestamp) (key : String) :
    (readEnvFile (some (envText timestamp env))).get key = (env.get key).map stripped := by
  have hvars : (readEnvFile (some (envText timestamp env))).entries = readVars env := by
    rw [readEnvFile, envText,
      filterMap_splitLines_intercalate lineVar_nil (oneLine_envLines h timestamp),
      filterMap_envLines h, Dict.entries_update (nodup_readVars env)]
    rfl
  refine Option.ext fun value => ?_
  rw [Dict.get_eq_some_iff, hvars, mem_readVars, Option.map_eq_some_iff]
  constructor
  · rintro ⟨⟨key', old⟩, hmem, heq⟩
    cases heq
    exact ⟨old, Dict.get_eq_some_iff.2 hmem, rfl⟩
  · rintro ⟨old, hget, rfl⟩
    exact ⟨_, Dict.get_eq_some_iff.1 hget, rfl⟩

theorem strip_subset (text : List Char) : strip text ⊆ text := fun _ hc =>
  (List.dropWhile_sublist _).subset (List.mem_reverse.1
    ((List.dropWhile_sublist _).subset (List.mem_reverse.1 hc)))

/-- The values of a file are single lines without spaces around them. -/
theorem readEnvFile_values {file : Option (List Char)} (h : item ∈ (readEnvFile file).entries) :
    OneLine item.2.toList ∧ stripped item.2 = item.2 := by
  cases file with
  | none => cases h
  | some text =>
    rcases Dict.mem_of_mem_update h with h | h
    · cases h
    · obtain ⟨line, hline, hitem⟩ := List.mem_filterMap.1 h
      rw [lineVar] at hitem
      split at hitem
      next => cases hitem
      next =>
        dsimp only at hitem
        split at hitem
        next => cases hitem
        next =>
          cases hitem
          refine ⟨?_, ?_⟩
          · rw [String.toList_ofList]
            refine (oneLine_of_mem_splitLines hline).subset fun c hc => strip_subset _ ?_
            exact (List.dropWhile_sublist _).subset (List.mem_of_mem_drop (strip_subset _ hc))
          · rw [stripped, String.toList_ofList, strip_strip]

end LlmPort.Cli
