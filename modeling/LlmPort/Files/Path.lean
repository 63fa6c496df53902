import Mathlib.Data.List.Basic

/-!
# Paths

Relative paths as their parts, and as texts: `str(path)`, the parts of a text, the way from one
directory to another and where a path leads from a directory.
-/

namespace LlmPort.Files

abbrev Name := List Char

instance : LawfulBEq Name := inferInstance

def dotdot : Name := ['.', '.']

/-- A name a file can have. -/
structure ProperName (name : Name) : Prop where
  ne_nil : name ≠ []
  ne_dot : name ≠ ['.']
  ne_dotdot : name ≠ dotdot
  no_slash : '/' ∉ name

/-- `str(path)` -/
def pathText (path : List Name) : List Char := ['/'].intercalate path

/-- `Path(text).parts`, of a text that is not absolute. -/
def pathParts (text : List Char) : List Name :=
  (text.splitOn '/').filter fun part => part ≠ [] ∧ part ≠ ['.']

def isAbsolute (text : List Char) : Bool := text.head? = some '/'

/-- Where a path leads from a directory. -/
def resolve (start path : List Name) : List Name :=
  path.foldl (fun d part => if part = dotdot then d.dropLast else d ++ [part]) start

/-- How many parts two paths share. -/
def commonLength : List Name → List Name → Nat
  | a :: p, b :: q => if a = b then commonLength p q + 1 else 0
  | _, _ => 0

/-- `os.path.relpath` -/
def relpath (target start : List Name) : List Name :=
  let k := commonLength target start
  List.replicate (start.length - k) dotdot ++ target.drop k

variable {path start target : List Name} {name a b : Name} {text : List Char}

theorem head_pathText {p : List Name} (hname : name ≠ []) :
    (pathText (name :: p)).head? = name.head? := by
  obtain ⟨c, t, rfl⟩ := List.exists_cons_of_ne_nil hname
  cases p <;> simp [pathText]

theorem isAbsolute_pathText (h : ∀ n ∈ path, ProperName n) :
    isAbsolute (pathText path) = false := by
  cases path with
  | nil => rfl
  | cons n p =>
    have hn := h n List.mem_cons_self
    obtain ⟨c, t, rfl⟩ := List.exists_cons_of_ne_nil hn.ne_nil
    rw [isAbsolute, head_pathText hn.ne_nil, decide_eq_false_iff_not]
    intro hc
    rw [List.head?_cons] at hc
    exact hn.no_slash (Option.some.inj hc ▸ List.mem_cons_self)

/-- The parts of the text of a path are the path. -/
theorem pathParts_pathText (hpath : path ≠ []) (h : ∀ n ∈ path, ProperName n) :
    pathParts (pathText path) = path := by
  rw [pathParts, pathText, List.splitOn_intercalate _ (fun n hn => (h n hn).no_slash) hpath,
    List.filter_eq_self]
  exact fun n hn => decide_eq_true ⟨(h n hn).ne_nil, (h n hn).ne_dot⟩

theorem mem_pathText {c : Char} (h : c ∈ pathText path) : c = '/' ∨ ∃ n ∈ path, c ∈ n := by
  induction path with
  | nil => cases h
  | cons n p ih =>
    cases p with
    | nil => exact .inr ⟨n, List.mem_cons_self, by simpa [pathText] using h⟩
    | cons m p =>
      have htext : pathText (n :: m :: p) = n ++ '/' :: pathText (m :: p) := by simp [pathText]
      rw [htext, List.mem_append, List.mem_cons] at h
      rcases h with h | h | h
      · exact .inr ⟨n, List.mem_cons_self, h⟩
      · exact .inl h
      · obtain h | ⟨k, hk, h⟩ := ih h
        · exact .inl h
        · exact .inr ⟨k, List.mem_cons_of_mem _ hk, h⟩

theorem mem_of_mem_splitOn {c : Char} {part : List Char} (h : part ∈ text.splitOn '/')
    (hc : c ∈ part) : c ∈ text := by
  have htext : ['/'].intercalate (text.splitOn '/') = text := List.intercalate_splitOn '/'
  rw [← htext, List.intercalate, List.mem_flatten]
  refine ⟨part, ?_, hc⟩
  generalize text.splitOn '/' = parts at h
  induction parts with
  | nil => cases h
  | cons p parts ih =>
    cases parts with
    | nil => exact h
    | cons q parts =>
      rw [List.intersperse_cons_cons]
      rcases List.mem_cons.1 h with rfl | h
      · exact List.mem_cons_self
      · exact List.mem_cons_of_mem _ (List.mem_cons_of_mem _ (ih h))

theorem mem_of_mem_pathParts {c : Char} {part : List Char} (h : part ∈ pathParts text)
    (hc : c ∈ part) : c ∈ text :=
  mem_of_mem_splitOn (List.mem_of_mem_filter h) hc

/-- From directories that part at once, the way leads all the way up. -/
theorem relpath_of_ne (h : a ≠ b) : relpath (a :: target) (b :: start) =
    List.replicate (start.length + 1) dotdot ++ a :: target := by
  rw [relpath, commonLength, if_neg h]
  rfl

theorem take_commonLength :
    target.take (commonLength target start) = start.take (commonLength target start) := by
  fun_induction commonLength target start with
  | case1 a p q ih => rw [List.take_succ_cons, List.take_succ_cons, ih]
  | case2 => rfl
  | case3 => rfl

theorem commonLength_le : commonLength target start ≤ start.length := by
  fun_induction commonLength target start with
  | case1 a p q ih => exact Nat.succ_le_succ ih
  | case2 => exact Nat.zero_le _
  | case3 => exact Nat.zero_le _

theorem resolve_append {p q : List Name} : resolve start (p ++ q) = resolve (resolve start p) q :=
  List.foldl_append

theorem resolve_up {n : Nat} : resolve start (List.replicate n dotdot) =
    start.take (start.length - n) := by
  induction n generalizing start with
  | zero => simp [resolve]
  | succ n ih =>
    have hstep : resolve start (List.replicate (n + 1) dotdot) =
        resolve start.dropLast (List.replicate n dotdot) := rfl
    rw [hstep, ih, List.length_dropLast, List.dropLast_eq_take, List.take_take]
    congr 1
    omega

end LlmPort.Files
