import Mathlib.Data.Char

/-!
# Lines

`str.splitlines`, and texts that are one line.
-/

namespace LlmPort.Text

def isLineBreak (c : Char) : Bool :=
  c.toNat ∈ [0xa, 0xb, 0xc, 0xd, 0x1c, 0x1d, 0x1e, 0x85, 0x2028, 0x2029]

/-- `str.splitlines` -/
def splitLines : List Char → List (List Char)
  | [] => []
  | '\r' :: '\n' :: text => [] :: splitLines text
  | c :: text =>
    if isLineBreak c then [] :: splitLines text
    else match splitLines text with
      | [] => [[c]]
      | line :: lines => (c :: line) :: lines

/-- No line ends within the text. -/
def OneLine (text : List Char) : Prop := ∀ c ∈ text, isLineBreak c = false

instance : DecidablePred OneLine := fun text =>
  inferInstanceAs (Decidable (∀ c ∈ text, isLineBreak c = false))

variable {line text text' : List Char} {lines : List (List Char)} {c : Char}

theorem OneLine.append (h : OneLine text) (h' : OneLine text') : OneLine (text ++ text') :=
  fun c hc => (List.mem_append.1 hc).elim (h c) (h' c)

theorem OneLine.subset (h : OneLine text) (hsub : text' ⊆ text) : OneLine text' :=
  fun c hc => h c (hsub hc)

theorem oneLine_ofList (h : (text.all fun c => !isLineBreak c) = true) :
    OneLine (String.ofList text).toList := by
  intro c hc
  rw [String.toList_ofList] at hc
  exact Bool.not_eq_eq_eq_not.1 (List.all_eq_true.1 h c hc)

theorem splitLines_cons (hc : isLineBreak c = false) :
    splitLines (c :: text) = match splitLines text with
      | [] => [[c]]
      | line :: lines => (c :: line) :: lines := by
  rw [splitLines, hc, if_neg Bool.false_ne_true]
  rintro _ rfl
  cases hc

theorem splitLines_line (hline : ∀ c ∈ line, isLineBreak c = false) (text : List Char) :
    splitLines (line ++ '\n' :: text) = line :: splitLines text := by
  induction line with
  | nil => rfl
  | cons c line ih =>
    rw [List.cons_append, splitLines_cons (hline c List.mem_cons_self),
      ih fun d hd => hline d (List.mem_cons_of_mem _ hd)]

theorem splitLines_oneLine (hline : OneLine line) (hne : line ≠ []) : splitLines line = [line] := by
  induction line with
  | nil => exact (hne rfl).elim
  | cons c line ih =>
    rw [splitLines_cons (hline c List.mem_cons_self)]
    rcases eq_or_ne line [] with rfl | hne
    · rfl
    · rw [ih (fun d hd => hline d (List.mem_cons_of_mem _ hd)) hne]

theorem oneLine_of_mem_splitLines (h : line ∈ splitLines text) : OneLine line := by
  induction text using splitLines.induct generalizing line with
  | case1 => cases h
  | case2 text ih =>
    rw [splitLines] at h
    rcases List.mem_cons.1 h with rfl | h
    · exact nofun
    · exact ih h
  | case3 c text hno hc ih =>
    rw [splitLines, if_pos hc] at h
    · rcases List.mem_cons.1 h with rfl | h
      · exact nofun
      · exact ih h
    · exact hno
  | case4 c text hno hc hnil ih =>
    rw [splitLines, if_neg hc, hnil] at h
    · rw [List.mem_singleton.1 h]
      exact List.forall_mem_singleton.2 (Bool.eq_false_iff.2 hc)
    · exact hno
  | case5 c text hno hc first lines hlines ih =>
    rw [splitLines, if_neg hc, hlines] at h
    · rw [hlines] at ih
      rcases List.mem_cons.1 h with rfl | h
      · exact List.forall_mem_cons.2 ⟨Bool.eq_false_iff.2 hc, ih List.mem_cons_self⟩
      · exact ih (List.mem_cons_of_mem _ h)
    · exact hno

/-- Of joined lines those are read that are not empty. -/
theorem filterMap_splitLines_intercalate {β : Type*} {f : List Char → Option β}
    (hf : f [] = none) (h : ∀ line ∈ lines, OneLine line) :
    (splitLines (['\n'].intercalate lines)).filterMap f = lines.filterMap f := by
  induction lines with
  | nil => rfl
  | cons line lines ih =>
    have hline := h line List.mem_cons_self
    cases lines with
    | nil =>
      rw [List.intercalate_singleton]
      rcases eq_or_ne line [] with rfl | hne
      · rw [List.filterMap_cons_none hf]
        rfl
      · rw [splitLines_oneLine hline hne]
    | cons next lines =>
      rw [List.intercalate_cons_cons, List.append_assoc, List.singleton_append,
        splitLines_line hline, List.filterMap_cons, List.filterMap_cons,
        ih fun l hl => h l (List.mem_cons_of_mem _ hl)]

end LlmPort.Text
