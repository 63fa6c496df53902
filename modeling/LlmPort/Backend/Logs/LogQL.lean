import LlmPort.Text.Split

/-!
# LogQL's stream selectors

The lexical rules of LogQL as far as the label names of a query's stream selectors depend on them:
quoted values and comments, names, operators and braces.
-/

namespace LlmPort.Backend.Logs

open Text

inductive Token where
  | name (text : List Char)
  | operator
  | opening
  | closing
  | other
  deriving DecidableEq

def isNameStart (c : Char) : Bool := c.isAlpha || c = '_'

def isNameChar (c : Char) : Bool := c.isAlphanum || c = '_'

/-- `=`, `=~`, `!=` or `!~` -/
def startsOperator (c : Char) (cs : List Char) : Bool :=
  c = '=' || (c = '!' && (cs.head? = some '=' || cs.head? = some '~'))

/-- The token of a character that belongs to no name; an operator is one token for each character,
of which the first is `operator`. -/
def symbol (c : Char) (cs : List Char) : Token :=
  if c = '{' then .opening else if c = '}' then .closing
  else if startsOperator c cs then .operator else .other

/-- The tokens of a text in which quotation marks have no meaning. -/
def tokens (isSpace : Char → Bool) : List Char → List Token
  | [] => []
  | c :: cs =>
    if isNameStart c then
      .name (c :: cs.takeWhile isNameChar) :: tokens isSpace (cs.dropWhile isNameChar)
    else if isSpace c then tokens isSpace cs
    else symbol c cs :: tokens isSpace cs
termination_by text => text.length
decreasing_by
  · exact Nat.lt_succ_of_le (List.dropWhile_suffix _).length_le
  · exact Nat.lt_succ_self _
  · exact Nat.lt_succ_self _

/-- What stands between an opening brace and the next closing one; `some seen` within a selector. -/
def selectorsFrom : Option (List Token) → List Token → List (List Token)
  | _, [] => []
  | none, t :: ts => selectorsFrom (if t = .opening then some [] else none) ts
  | some seen, t :: ts =>
    if t = .closing then seen :: selectorsFrom none ts else selectorsFrom (some (seen ++ [t])) ts

/-- The names before an operator. -/
def labelNames : List Token → List (List Char)
  | [] => []
  | .name text :: ts =>
    if ts.head? = some .operator then text :: labelNames ts else labelNames ts
  | _ :: ts => labelNames ts

/-- Where a character stands. -/
inductive Within where
  | query
  /-- Between `"` and `"`, where a backslash escapes the next character. -/
  | quotes
  | escape
  /-- Between backticks. -/
  | backticks
  | comment
  deriving DecidableEq

def Within.next : Within → Char → Within
  | query, c =>
    if c = '"' then quotes else if c = '\x60' then backticks else if c = '#' then comment else query
  | quotes, c => if c = '\\' then escape else if c = '"' then query else quotes
  | escape, _ => quotes
  | backticks, c => if c = '\x60' then query else backticks
  | comment, c => if c = '\n' then query else comment

/-- The text with a quotation mark for each character of a quoted value or a comment. -/
def unquoted : Within → List Char → List Char
  | _, [] => []
  | w, c :: cs => (if w = .query ∧ w.next c = .query then c else '"') :: unquoted (w.next c) cs

def isLogQLSpace (c : Char) : Bool := c = ' ' || c = '\t' || c = '\n' || c = '\r'

/-- The label names of a query's stream selectors. -/
def streamLabels (query : List Char) : List (List Char) :=
  (selectorsFrom none (tokens isLogQLSpace (unquoted .query query))).flatMap labelNames

/-- The names that stand before an operator between a brace and the next closing one, wherever
the query's quotation marks are. -/
def bareLabels (isSpace : Char → Bool) (query : List Char) : List (List Char) :=
  (selectorsFrom none (tokens isSpace query)).flatMap labelNames

variable {isSpace : Char → Bool} {c : Char} {cs text rest : List Char} {ts : List Token}

@[simp] theorem tokens_nil : tokens isSpace [] = [] := by rw [tokens]

theorem tokens_of_nameStart (h : isNameStart c = true) : tokens isSpace (c :: cs) =
    .name (c :: cs.takeWhile isNameChar) :: tokens isSpace (cs.dropWhile isNameChar) := by
  rw [tokens, if_pos h]

theorem tokens_of_space (hname : isNameStart c = false) (h : isSpace c = true) :
    tokens isSpace (c :: cs) = tokens isSpace cs := by
  rw [tokens, if_neg (Bool.eq_false_iff.1 hname), if_pos h]

theorem tokens_of_symbol (hname : isNameStart c = false) (h : isSpace c = false) :
    tokens isSpace (c :: cs) = symbol c cs :: tokens isSpace cs := by
  rw [tokens, if_neg (Bool.eq_false_iff.1 hname), if_neg (Bool.eq_false_iff.1 h)]

theorem isNameChar_of_isNameStart (h : isNameStart c = true) : isNameChar c = true := by
  rcases Bool.or_eq_true_iff.1 h with h | h
  · exact Bool.or_eq_true_iff.2 (.inl (Bool.or_eq_true_iff.2 (.inl h)))
  · exact Bool.or_eq_true_iff.2 (.inr h)

theorem symbol_eq_opening_iff : symbol c cs = .opening ↔ c = '{' := by
  rw [symbol]
  refine ⟨fun h => ?_, fun h => if_pos h⟩
  split at h
  · assumption
  · split at h
    · cases h
    · split at h <;> cases h

theorem symbol_eq_closing_iff : symbol c cs = .closing ↔ c = '}' := by
  rw [symbol]
  refine ⟨fun h => ?_, fun h => ?_⟩
  · split at h
    · cases h
    · split at h
      · assumption
      · split at h <;> cases h
  · subst h
    rfl

theorem symbol_ne_name {name : List Char} : symbol c cs ≠ .name name := by
  rw [symbol]
  split
  · nofun
  · split
    · nofun
    · split <;> nofun

theorem symbol_append_closing : symbol c (cs ++ '}' :: rest) = symbol c cs := by
  have hstarts : startsOperator c (cs ++ '}' :: rest) = startsOperator c cs := by
    rw [startsOperator, startsOperator]
    cases cs with
    | nil => simp
    | cons d cs => rfl
  rw [symbol, hstarts, symbol]

/-- Nothing that a selector is made of is a space. -/
structure Spacing (isSpace : Char → Bool) : Prop where
  nameChar : ∀ c, isNameChar c = true → isSpace c = false
  mark : ∀ c, c ∈ ['{', '}', '=', '!'] → isSpace c = false

namespace Spacing

variable (hs : Spacing isSpace)
include hs

/-- A closing brace ends a name and an operator. -/
theorem tokens_append_closing :
    tokens isSpace (text ++ '}' :: rest) =
      tokens isSpace text ++ .closing :: tokens isSpace rest := by
  fun_induction tokens isSpace text with
  | case1 => exact tokens_of_symbol (by decide) (hs.mark '}' (by decide))
  | case2 c cs h ih =>
    rw [List.cons_append, tokens_of_nameStart h, takeWhile_append_cons (by decide),
      dropWhile_append_cons (by decide), ih, List.cons_append]
  | case3 c cs h hspace ih =>
    rw [List.cons_append, tokens_of_space (Bool.eq_false_iff.2 h) hspace, ih]
  | case4 c cs h hspace ih =>
    rw [List.cons_append, tokens_of_symbol (Bool.eq_false_iff.2 h) (Bool.eq_false_iff.2 hspace),
      symbol_append_closing, ih, List.cons_append]

end Spacing

theorem closing_notMem_tokens (h : '}' ∉ text) : .closing ∉ tokens isSpace text := by
  fun_induction tokens isSpace text with
  | case1 => exact List.not_mem_nil
  | case2 c cs _ ih =>
    have hcs := fun hmem => h (List.mem_cons_of_mem _ ((List.dropWhile_suffix isNameChar).mem hmem))
    exact fun hmem => ih hcs ((List.mem_cons.1 hmem).resolve_left nofun)
  | case3 c cs _ _ ih => exact ih fun hmem => h (List.mem_cons_of_mem _ hmem)
  | case4 c cs _ _ ih =>
    intro hmem
    rcases List.mem_cons.1 hmem with hc | hmem
    · exact h (symbol_eq_closing_iff.1 hc.symm ▸ List.mem_cons_self)
    · exact ih (fun hcs => h (List.mem_cons_of_mem _ hcs)) hmem

theorem selectorsFrom_of_closing_notMem (seen : Option (List Token)) (h : .closing ∉ ts) :
    selectorsFrom seen ts = [] := by
  induction ts generalizing seen with
  | nil => cases seen <;> rfl
  | cons t ts ih =>
    obtain ⟨ht, hts⟩ := List.ne_and_not_mem_of_not_mem_cons h
    cases seen with
    | none => exact ih _ hts
    | some seen => rw [selectorsFrom, if_neg ht.symm, ih _ hts]

theorem selectorsFrom_append_closing (seen after : List Token) (h : .closing ∉ ts) :
    selectorsFrom (some seen) (ts ++ .closing :: after) =
      (seen ++ ts) :: selectorsFrom none after := by
  induction ts generalizing seen with
  | nil => rw [List.nil_append, selectorsFrom, if_pos rfl, List.append_nil]
  | cons t ts ih =>
    obtain ⟨ht, hts⟩ := List.ne_and_not_mem_of_not_mem_cons h
    rw [List.cons_append, selectorsFrom, if_neg ht.symm, ih _ hts, List.append_assoc]
    rfl

theorem labelNames_cons_of_ne {t : Token} (h : ∀ name, t ≠ .name name) :
    labelNames (t :: ts) = labelNames ts := by
  cases t with
  | name text => exact (h text rfl).elim
  | operator | opening | closing | other => rfl

/-- Outside of the selectors nothing is left of what is no opening brace. -/
theorem selectorsFrom_tokens_dropWhile (hs : Spacing isSpace) :
    selectorsFrom none (tokens isSpace (text.dropWhile isNameChar)) =
      selectorsFrom none (tokens isSpace text) := by
  induction text with
  | nil => rfl
  | cons c cs ih =>
    rcases Bool.eq_false_or_eq_true (isNameChar c) with hc | hc
    · rw [List.dropWhile_cons_of_pos hc]
      rcases Bool.eq_false_or_eq_true (isNameStart c) with hstart | hstart
      · rw [tokens_of_nameStart hstart]
        rfl
      · have hne : symbol c cs ≠ .opening := by
          rw [Ne, symbol_eq_opening_iff]
          rintro rfl
          exact absurd hc (by decide)
        rw [tokens_of_symbol hstart (hs.nameChar c hc), selectorsFrom, if_neg hne, ih]
    · rw [List.dropWhile_cons_of_neg (Bool.eq_false_iff.1 hc)]

theorem selectorsFrom_tokens_cons (hs : Spacing isSpace) (h : c ≠ '{') :
    selectorsFrom none (tokens isSpace (c :: cs)) = selectorsFrom none (tokens isSpace cs) := by
  rcases Bool.eq_false_or_eq_true (isNameStart c) with hstart | hstart
  · rw [tokens_of_nameStart hstart, ← selectorsFrom_tokens_dropWhile hs]
    rfl
  · rcases Bool.eq_false_or_eq_true (isSpace c) with hspace | hspace
    · rw [tokens_of_space hstart hspace]
    · rw [tokens_of_symbol hstart hspace, selectorsFrom,
        if_neg fun hc => h (symbol_eq_opening_iff.1 hc)]

theorem tokens_dropWhile_space (hs : Spacing isSpace) :
    tokens isSpace (text.dropWhile isSpace) = tokens isSpace text := by
  induction text with
  | nil => rfl
  | cons c cs ih =>
    rcases Bool.eq_false_or_eq_true (isSpace c) with hc | hc
    · have hstart : isNameStart c = false := by
        refine Bool.eq_false_iff.2 fun hstart => ?_
        have hnot := hs.nameChar c (isNameChar_of_isNameStart hstart)
        rw [hc] at hnot
        cases hnot
      rw [List.dropWhile_cons_of_pos hc, ih, tokens_of_space hstart hc]
    · rw [List.dropWhile_cons_of_neg (Bool.eq_false_iff.1 hc)]

/-- The end of a name is no name of its own: no operator follows it. -/
theorem labelNames_tokens_dropWhile (hs : Spacing isSpace)
    (h : (tokens isSpace (text.dropWhile isNameChar)).head? ≠ some .operator) :
    labelNames (tokens isSpace (text.dropWhile isNameChar)) =
      labelNames (tokens isSpace text) := by
  induction text with
  | nil => rfl
  | cons c cs ih =>
    rcases Bool.eq_false_or_eq_true (isNameChar c) with hc | hc
    · rw [List.dropWhile_cons_of_pos hc] at h ⊢
      rcases Bool.eq_false_or_eq_true (isNameStart c) with hstart | hstart
      · rw [tokens_of_nameStart hstart, labelNames, if_neg h]
      · rw [tokens_of_symbol hstart (hs.nameChar c hc),
          labelNames_cons_of_ne fun _ => symbol_ne_name, ih h]
    · rw [List.dropWhile_cons_of_neg (Bool.eq_false_iff.1 hc)]

end LlmPort.Backend.Logs
