import LlmPort.Backend.Logs.LogQL
import LlmPort.ModelSync.Manifest
import LlmPort.Text.Pattern
import Mathlib.Data.List.Dedup
import Mathlib.Data.List.Sort

/-!
# The label allowlist of the logs API

The label check of `web/api/logs/views.py`: a query's labels are found with two regular
expressions, of which none knows a quotation mark.
-/

namespace LlmPort.Backend.Logs

open Text ModelSync

structure HTTPException where
  statusCode : Nat
  detail : List Char
  deriving DecidableEq

structure LogsSettings where
  /-- `str.lower` -/
  lower : List Char → List Char
  logsAllowedLabelsRaw : Option (List Char)

namespace LogsSettings

variable (settings : LogsSettings)

def logsAllowedLabels : Option (List (List Char)) :=
  match settings.logsAllowedLabelsRaw with
  | none => none
  | some raw =>
    if raw = [] then none
    else
      let labels := ((raw.splitOn ',').filter (strip · ≠ [])).map fun chunk =>
        settings.lower (strip chunk)
      if labels = [] then none else some labels

/-- `=|!=|=~|!~` -/
def operatorRe : Pattern :=
  .alt (.one (· = '=')) (.alt (.seq (.one (· = '!')) (.one (· = '=')))
    (.alt (.seq (.one (· = '=')) (.one (· = '~'))) (.seq (.one (· = '!')) (.one (· = '~')))))

/-- `_LABEL_MATCH_RE` -/
def labelMatchRe : Pattern :=
  .seq (.group (.seq (.one isNameStart) (.many isNameChar))) (.seq (.many isSpace) operatorRe)

/-- `\{([^}]*)\}` -/
def selectorRe : Pattern :=
  .seq (.one (· = '{')) (.seq (.group (.many (· ≠ '}'))) (.one (· = '}')))

def extractQueryLabels (query : List Char) : List (List Char) :=
  ((selectorRe.findAll query).flatMap labelMatchRe.findAll).map settings.lower

def enforceQueryAllowlist (query : List Char) : Except HTTPException Unit :=
  match settings.logsAllowedLabels with
  | none => .ok ()
  | some allowed =>
    let used := (settings.extractQueryLabels query).dedup
    let disallowed := (used.filter (· ∉ allowed)).insertionSort (· ≤ ·)
    if disallowed = [] then .ok ()
    else .error ⟨400, "Disallowed labels in query: ".toList ++ [',', ' '].intercalate disallowed⟩

/-! ## What the expressions find -/

section
variable {c : Char} {cs text : List Char}

theorem isSpace_of_isNameChar (h : isNameChar c = true) : isSpace c = false := by
  have hrange : 48 ≤ c.toNat ∧ c.toNat ≤ 122 := by
    simp only [isNameChar, Bool.or_eq_true, decide_eq_true_eq] at h
    rcases h with h | rfl
    · exact toNat_of_isAlphanum h
    · decide
  simp only [isSpace, List.mem_cons, List.not_mem_nil, or_false, decide_eq_false_iff_not]
  omega

theorem spacing_isSpace : Spacing isSpace where
  nameChar c h := isSpace_of_isNameChar h
  mark c h := by
    simp only [List.mem_cons, List.not_mem_nil, or_false] at h
    rcases h with rfl | rfl | rfl | rfl <;> decide

theorem isSpace_of_startsOperator (h : startsOperator c cs = true) :
    isSpace c = false ∧ isNameStart c = false := by
  simp only [startsOperator, Bool.or_eq_true, Bool.and_eq_true, decide_eq_true_eq] at h
  rcases h with rfl | ⟨rfl, _⟩ <;> decide

theorem ways_operatorRe_of_neg (h : startsOperator c cs = false) :
    operatorRe.ways (c :: cs) = [] := by
  obtain ⟨heq, hbang⟩ := Bool.or_eq_false_iff.1 h
  have hone : (Pattern.one (· = '=')).ways (c :: cs) = [] := Pattern.ways_one_of_neg heq
  have hpair d (hd : decide (cs.head? = some d) = false ∨ decide (c = '!') = false) :
      ((Pattern.one (· = '!')).seq (.one (· = d))).ways (c :: cs) = [] := by
    rcases Bool.eq_false_or_eq_true (decide (c = '!')) with hc | hc
    · have hcs := of_decide_eq_false (hd.resolve_right (Bool.eq_false_iff.not_left.2 hc))
      rw [Pattern.ways_one_seq hc]
      exact Pattern.ways_one_of_head? fun e he => decide_eq_false fun hed => hcs (hed ▸ he)
    · exact Pattern.ways_seq_of_nil (Pattern.ways_one_of_neg hc)
  have hheads := Bool.and_eq_false_iff.1 hbang
  rw [Bool.or_eq_false_iff, or_and_left] at hheads
  rw [operatorRe, Pattern.ways_alt_of_nil hone, Pattern.ways_alt_of_nil (hpair _ hheads.1.symm),
    Pattern.ways_alt_of_nil (Pattern.ways_seq_of_nil hone), hpair _ hheads.2.symm]

/-- The first alternative that matches leaves what the tokens take for no name either. -/
theorem head?_ways_operatorRe (h : startsOperator c cs = true) :
    ∃ rest, (operatorRe.ways (c :: cs)).head? = some ([], rest) ∧ rest.length ≤ cs.length ∧
      labelNames (tokens isSpace rest) = labelNames (tokens isSpace cs) := by
  have hfirst : ∀ d rest, isNameStart d = false → isSpace d = false →
      labelNames (tokens isSpace rest) = labelNames (tokens isSpace (d :: rest)) := by
    intro d rest hstart hspace
    rw [tokens_of_symbol hstart hspace, labelNames_cons_of_ne fun _ => symbol_ne_name]
  simp only [startsOperator, Bool.or_eq_true, Bool.and_eq_true, decide_eq_true_eq] at h
  rcases h with rfl | ⟨rfl, h⟩
  · exact ⟨cs, rfl, le_rfl, rfl⟩
  · cases cs with
    | nil => simp at h
    | cons d rest =>
      rw [List.head?_cons, Option.some.injEq, Option.some.injEq] at h
      rcases h with rfl | rfl
      · exact ⟨rest, rfl, Nat.le_succ _, hfirst _ _ (by decide) (by decide)⟩
      · exact ⟨rest, rfl, Nat.le_succ _, hfirst _ _ (by decide) (by decide)⟩

theorem head?_tokens (hspace : isSpace c = false) (h : startsOperator c cs = false) :
    (tokens isSpace (c :: cs)).head? ≠ some .operator := by
  rcases Bool.eq_false_or_eq_true (isNameStart c) with hstart | hstart
  · rw [tokens_of_nameStart hstart]
    intro heq
    cases heq
  · rw [tokens_of_symbol hstart hspace, List.head?_cons, symbol, h, if_neg Bool.false_ne_true]
    intro heq
    split at heq
    · cases heq
    · split at heq <;> cases heq

theorem tokens_of_startsOperator (h : startsOperator c cs = true) :
    tokens isSpace (c :: cs) = .operator :: tokens isSpace cs := by
  obtain ⟨hspace, hstart⟩ := isSpace_of_startsOperator h
  have hbrace : c ≠ '{' ∧ c ≠ '}' := by
    simp only [startsOperator, Bool.or_eq_true, Bool.and_eq_true, decide_eq_true_eq] at h
    rcases h with rfl | ⟨rfl, _⟩ <;> decide
  rw [tokens_of_symbol hstart hspace, symbol, if_neg hbrace.1, if_neg hbrace.2, if_pos h]

theorem ways_labelMatchRe (h : isNameStart c = true) :
    labelMatchRe.ways (c :: cs) =
      (operatorRe.ways ((cs.dropWhile isNameChar).dropWhile isSpace)).map fun more =>
        (c :: cs.takeWhile isNameChar ++ more.1, more.2) := by
  have hoperator d ds (hd : isSpace d = true) : operatorRe.ways (d :: ds) = [] := by
    refine ways_operatorRe_of_neg (Bool.eq_false_iff.2 fun hstarts => ?_)
    exact absurd hd (Bool.eq_false_iff.1 (isSpace_of_startsOperator hstarts).1)
  have hafter d ds (hd : isNameChar d = true) :
      ((Pattern.many isSpace).seq operatorRe).ways (d :: ds) = [] := by
    rw [Pattern.ways_many_seq hoperator,
      List.dropWhile_cons_of_neg (Bool.eq_false_iff.1 (isSpace_of_isNameChar hd))]
    refine ways_operatorRe_of_neg (Bool.eq_false_iff.2 fun hstarts => ?_)
    simp only [startsOperator, Bool.or_eq_true, Bool.and_eq_true, decide_eq_true_eq] at hstarts
    rcases hstarts with rfl | ⟨rfl, _⟩ <;> exact absurd hd (by decide)
  rw [labelMatchRe, Pattern.ways_group_one_many_seq h hafter, Pattern.ways_many_seq hoperator]

/-- A name is found where an operator follows it; where none does, no end of it is. -/
theorem findAll_labelMatchRe (text : List Char) :
    labelMatchRe.findAll text = labelNames (tokens isSpace text) := by
  induction h : text.length using Nat.strong_induction_on generalizing text with
  | _ n ih =>
    cases text with
    | nil => rw [Pattern.findAll, tokens_nil, labelNames]
    | cons c cs =>
      have hlt : cs.length < n := h ▸ Nat.lt_succ_self _
      rcases Bool.eq_false_or_eq_true (isNameStart c) with hstart | hstart
      · have hle : ((cs.dropWhile isNameChar).dropWhile isSpace).length ≤ cs.length :=
          (List.dropWhile_suffix _).length_le.trans (List.dropWhile_suffix _).length_le
        have hdrop : tokens isSpace ((cs.dropWhile isNameChar).dropWhile isSpace) =
            tokens isSpace (cs.dropWhile isNameChar) := tokens_dropWhile_space spacing_isSpace
        have hways := @ways_labelMatchRe c cs hstart
        rw [tokens_of_nameStart hstart, labelNames]
        generalize hafter : (cs.dropWhile isNameChar).dropWhile isSpace = after at *
        have hskip (hno : (tokens isSpace after).head? ≠ some .operator)
            (hnil : operatorRe.ways after = []) : labelMatchRe.findAll (c :: cs) =
              labelNames (tokens isSpace (cs.dropWhile isNameChar)) := by
          rw [hnil] at hways
          rw [Pattern.findAll_of_none hways, ih _ hlt cs rfl,
            labelNames_tokens_dropWhile spacing_isSpace (hdrop ▸ hno)]
        cases after with
        | nil =>
          have hno : (tokens isSpace []).head? ≠ some .operator := by
            rw [tokens_nil]
            exact (Option.some_ne_none _).symm
          rw [hskip hno rfl, if_neg (hdrop ▸ hno)]
        | cons d ds =>
          have hspace : isSpace d = false := by
            have hnot := List.head?_dropWhile_not isSpace (cs.dropWhile isNameChar)
            rw [hafter] at hnot
            exact hnot
          rcases Bool.eq_false_or_eq_true (startsOperator d ds) with hstarts | hstarts
          · obtain ⟨rest, hhead, hrest, hlabels⟩ := head?_ways_operatorRe hstarts
            have hfirst : (labelMatchRe.ways (c :: cs)).head? =
                some (c :: cs.takeWhile isNameChar, rest) := by
              rw [hways, List.head?_map, hhead, Option.map_some, List.append_nil]
            have hshort : rest.length < cs.length := hrest.trans_lt hle
            rw [Pattern.findAll_of_some hfirst hshort.le, ih _ (hshort.trans hlt) rest rfl,
              hlabels, ← hdrop, tokens_of_startsOperator hstarts]
            rfl
          · have hno := head?_tokens hspace hstarts
            rw [hskip hno (ways_operatorRe_of_neg hstarts), if_neg (hdrop ▸ hno)]
      · have hnone : labelMatchRe.ways (c :: cs) = [] :=
          Pattern.ways_group_one_seq_of_neg hstart
        rw [Pattern.findAll_of_none hnone, ih _ hlt cs rfl]
        rcases Bool.eq_false_or_eq_true (isSpace c) with hspace | hspace
        · rw [tokens_of_space hstart hspace]
        · rw [tokens_of_symbol hstart hspace, labelNames_cons_of_ne fun _ => symbol_ne_name]

theorem ways_selectorRe (cs : List Char) : selectorRe.ways ('{' :: cs) =
    ((Pattern.one (· = '}')).ways (cs.dropWhile (· ≠ '}'))).map fun more =>
      (cs.takeWhile (· ≠ '}') ++ more.1, more.2) := by
  have hclose d ds (hd : decide (d ≠ '}') = true) :
      (Pattern.one (· = '}')).ways (d :: ds) = [] :=
    Pattern.ways_one_of_neg (decide_eq_false (of_decide_eq_true hd))
  rw [selectorRe, Pattern.ways_one_seq rfl, Pattern.ways_group_many_seq hclose]

theorem findAll_selectorRe (text : List Char) :
    (selectorRe.findAll text).map (tokens isSpace) =
      selectorsFrom none (tokens isSpace text) := by
  induction h : text.length using Nat.strong_induction_on generalizing text with
  | _ n ih =>
    cases text with
    | nil => rw [Pattern.findAll, tokens_nil, List.map_nil, selectorsFrom]
    | cons c cs =>
      have hlt : cs.length < n := h ▸ Nat.lt_succ_self _
      by_cases hc : c = '{'
      · subst hc
        rw [tokens_of_symbol (by decide) (by decide), symbol, if_pos rfl, selectorsFrom,
          if_pos rfl]
        by_cases hclose : '}' ∈ cs
        · obtain ⟨content, rest, rfl, hcontent⟩ := List.eq_append_cons_of_mem hclose
          have hall : ∀ d ∈ content, decide (d ≠ '}') = true := fun d hd =>
            decide_eq_true fun heq => hcontent (heq ▸ hd)
          have hways : (selectorRe.ways ('{' :: (content ++ '}' :: rest))).head? =
              some (content, rest) := by
            rw [ways_selectorRe, List.dropWhile_append_of_pos hall,
              List.takeWhile_append_of_pos hall]
            simp [Pattern.ways]
          have hrest : rest.length ≤ (content ++ '}' :: rest).length := by
            rw [List.length_append, List.length_cons]
            omega
          rw [Pattern.findAll_of_some hways hrest, spacing_isSpace.tokens_append_closing,
            selectorsFrom_append_closing _ _ (closing_notMem_tokens hcontent), List.map_cons,
            ih _ (hrest.trans_lt hlt) rest rfl, List.nil_append]
        · have hnone : selectorRe.ways ('{' :: cs) = [] := by
            have hdrop : cs.dropWhile (· ≠ '}') = [] := List.dropWhile_eq_nil_iff.2 fun d hd =>
              decide_eq_true fun heq => hclose (heq ▸ hd)
            rw [ways_selectorRe, hdrop]
            rfl
          have hno : .closing ∉ tokens isSpace cs := closing_notMem_tokens hclose
          rw [Pattern.findAll_of_none hnone, ih _ hlt cs rfl, selectorsFrom_of_closing_notMem _ hno,
            selectorsFrom_of_closing_notMem _ hno]
      · have hnone : selectorRe.ways (c :: cs) = [] :=
          Pattern.ways_seq_of_nil (Pattern.ways_one_of_neg (decide_eq_false hc))
        rw [Pattern.findAll_of_none hnone, ih _ hlt cs rfl,
          selectorsFrom_tokens_cons spacing_isSpace hc]

end

/-- What the expressions take for a label: the names that stand before an operator between a brace
and the next closing one, in quotation marks or not. -/
theorem extractQueryLabels_eq (query : List Char) :
    settings.extractQueryLabels query = (bareLabels isSpace query).map settings.lower := by
  have hfind : labelMatchRe.findAll = fun text => labelNames (tokens isSpace text) :=
    funext findAll_labelMatchRe
  rw [extractQueryLabels, bareLabels, ← findAll_selectorRe, List.flatMap_map, hfind]

variable {settings} {allowed : List (List Char)} {query : List Char}

theorem enforceQueryAllowlist_eq_ok (h : settings.logsAllowedLabels = some allowed) :
    settings.enforceQueryAllowlist query = .ok () ↔
      ∀ label ∈ bareLabels isSpace query, settings.lower label ∈ allowed := by
  have hnil : (((settings.extractQueryLabels query).dedup.filter (· ∉ allowed)).insertionSort
      (· ≤ ·)) = [] ↔ ∀ label ∈ bareLabels isSpace query, settings.lower label ∈ allowed := by
    rw [List.eq_nil_iff_forall_not_mem, extractQueryLabels_eq]
    simp only [List.mem_insertionSort, List.mem_filter, List.mem_dedup, List.mem_map,
      decide_eq_true_eq, not_and, not_not, forall_exists_index, and_imp, forall_apply_eq_imp_iff₂]
  rw [enforceQueryAllowlist, h, ← hnil]
  dsimp only
  split
  next hall => exact iff_of_true rfl hall
  next hall => exact iff_of_false nofun hall

/-! ## Quotation marks -/

variable (settings query)

/-- A label of the query that is found too. -/
def Shown (label : List Char) : Prop :=
  label ∈ streamLabels query ∧
    settings.lower label ∈ (bareLabels isSpace query).map settings.lower

/-- A label of the query that a quotation mark keeps from being found. -/
def Hidden (label : List Char) : Prop :=
  label ∈ streamLabels query ∧
    settings.lower label ∉ (bareLabels isSpace query).map settings.lower

/-- What stands in quotation marks like a label. -/
def Phantom (label : List Char) : Prop :=
  label ∈ bareLabels isSpace query ∧
    settings.lower label ∉ (streamLabels query).map settings.lower

/-- A query passes the allowlist exactly if its labels are on it. -/
def Exact : Prop :=
  ∀ allowed, settings.logsAllowedLabels = some allowed →
    (settings.enforceQueryAllowlist query = .ok () ↔
      ∀ label ∈ streamLabels query, settings.lower label ∈ allowed)

variable {settings query}

theorem exists_streamLabels_iff : (∃ label ∈ streamLabels query, settings.lower label ∉ allowed) ↔
    (∃ label, settings.Shown query label ∧ settings.lower label ∉ allowed) ∨
      ∃ label, settings.Hidden query label ∧ settings.lower label ∉ allowed := by
  refine ⟨fun ⟨label, hmem, hnot⟩ => ?_, ?_⟩
  · by_cases hshown : settings.lower label ∈ (bareLabels isSpace query).map settings.lower
    · exact .inl ⟨label, ⟨hmem, hshown⟩, hnot⟩
    · exact .inr ⟨label, ⟨hmem, hshown⟩, hnot⟩
  · rintro (⟨label, hlabel, hnot⟩ | ⟨label, hlabel, hnot⟩)
    · exact ⟨label, hlabel.1, hnot⟩
    · exact ⟨label, hlabel.1, hnot⟩

theorem exists_bareLabels_iff :
    (∃ label ∈ bareLabels isSpace query, settings.lower label ∉ allowed) ↔
    (∃ label, settings.Shown query label ∧ settings.lower label ∉ allowed) ∨
      ∃ label, settings.Phantom query label ∧ settings.lower label ∉ allowed := by
  refine ⟨fun ⟨label, hmem, hnot⟩ => ?_, ?_⟩
  · by_cases hused : settings.lower label ∈ (streamLabels query).map settings.lower
    · obtain ⟨used, hmemUsed, heq⟩ := List.mem_map.1 hused
      exact .inl ⟨used, ⟨hmemUsed, List.mem_map.2 ⟨label, hmem, heq.symm⟩⟩, heq.symm ▸ hnot⟩
    · exact .inr ⟨label, ⟨hmem, hused⟩, hnot⟩
  · rintro (⟨label, hlabel, hnot⟩ | ⟨label, hlabel, hnot⟩)
    · obtain ⟨found, hmem, heq⟩ := List.mem_map.1 hlabel.2
      exact ⟨found, hmem, heq.symm ▸ hnot⟩
    · exact ⟨label, hlabel.1, hnot⟩

/-- The allowlist decides about a query as about its labels if and only if a label that is seen is
refused, or else hidden labels are refused where phantoms are. -/
theorem exact_iff (settings : LogsSettings) (query : List Char) : settings.Exact query ↔
    ∀ allowed, settings.logsAllowedLabels = some allowed →
      (∃ label, settings.Shown query label ∧ settings.lower label ∉ allowed) ∨
        ((∃ label, settings.Hidden query label ∧ settings.lower label ∉ allowed) ↔
          ∃ label, settings.Phantom query label ∧ settings.lower label ∉ allowed) := by
  refine forall_congr' fun allowed => forall_congr' fun hallowed => ?_
  have hbare := @exists_bareLabels_iff settings allowed query
  have hstream := @exists_streamLabels_iff settings allowed query
  have hall (labels : List (List Char)) : (∀ label ∈ labels, settings.lower label ∈ allowed) ↔
      ¬ ∃ label ∈ labels, settings.lower label ∉ allowed := by
    push Not
    exact Iff.rfl
  rw [enforceQueryAllowlist_eq_ok hallowed, hall, hall, not_iff_not, hbare, hstream]
  refine ⟨fun hboth => ?_, fun hcond => ?_⟩
  · refine or_iff_not_imp_left.2 fun hshown => ?_
    rw [or_iff_right hshown, or_iff_right hshown] at hboth
    exact hboth.symm
  · rcases hcond with hshown | hsame
    · exact iff_of_true (.inl hshown) (.inl hshown)
    · exact or_congr_right hsame.symm

/-- With `app` alone allowed, `{app="}", secret="x"}` passes: the selector seems to end within the
first value. -/
theorem not_exact_braceInValue : ¬ (LogsSettings.mk (·.map Char.toLower) (some "app".toList)).Exact
    "\x7bapp=\"\x7d\", secret=\"x\"\x7d".toList := by
  intro hexact
  have haccepts : (LogsSettings.mk (·.map Char.toLower) (some "app".toList)).enforceQueryAllowlist
      "\x7bapp=\"\x7d\", secret=\"x\"\x7d".toList = .ok () := by decide +kernel
  have hsecret : "secret".toList ∈ streamLabels "\x7bapp=\"\x7d\", secret=\"x\"\x7d".toList := by
    decide +kernel
  have hallowed := (hexact ["app".toList] (by decide +kernel)).1 haccepts _ hsecret
  revert hallowed
  decide +kernel

end LogsSettings

end LlmPort.Backend.Logs
