import Mathlib.Data.List.Infix
import LlmPort.Files.Path

/-!
# Disks with links

A disk as the entries under its absolute paths. `real` resolves a path that need not exist, as far
as there are links on it; `walk` is the way an operation on a path takes, through directories only.
-/

namespace LlmPort.Files

abbrev Path := List Name

structure LinkTarget where
  absolute : Bool
  parts : List Name
  deriving DecidableEq

/-- Where the target leads from, for a link in the directory `at_`. -/
def LinkTarget.start (target : LinkTarget) (at_ : Path) : Path := if target.absolute then [] else at_

inductive Entry (B : Type) where
  | dir
  | file (bytes : B)
  | link (target : LinkTarget)

structure Disk (B : Type) where
  entries : List (Path × Entry B)

inductive WalkError where
  | missing
  | notDir
  | loop
  deriving DecidableEq

namespace Disk

variable {B : Type} (disk : Disk B)

def get (path : Path) : Option (Entry B) :=
  (disk.entries.find? fun x => x.1 == path).map (·.2)

def remove (path : Path) : Disk B := ⟨disk.entries.filter fun x => x.1 != path⟩

def set (path : Path) (entry : Entry B) : Disk B := ⟨(path, entry) :: (disk.remove path).entries⟩

/-- Without the path and all that is below it. -/
def removeTree (path : Path) : Disk B := ⟨disk.entries.filter fun x => !path.isPrefixOf x.1⟩

/-- What is at `source` and below it, put at `target` in place of what is there. -/
def move (source target : Path) : Disk B :=
  ⟨(disk.entries.filter fun x => source.isPrefixOf x.1).map
      (fun x => (target ++ x.1.drop source.length, x.2)) ++
    ((disk.removeTree source).removeTree target).entries⟩

/-- Nothing is below the path. -/
def isEmptyDir (path : Path) : Bool :=
  disk.entries.all fun x => !path.isPrefixOf x.1 || x.1 == path

def IsLink (path : Path) : Prop := ∃ target, disk.get path = some (.link target)

/-- `os.path.realpath`, of the parts of a path from a directory on; `none` where it meets a loop. -/
def real : Nat → Path → List Name → Option Path
  | _, at_, [] => some at_
  | 0, _, _ :: _ => none
  | n + 1, at_, part :: rest =>
    if part = dotdot then real n at_.dropLast rest
    else match disk.get (at_ ++ [part]) with
      | some (.link target) => real n (target.start at_) (target.parts ++ rest)
      | _ => real n (at_ ++ [part]) rest

/-- Where a path leads that need not be there, in a directory that has to; a link at its end is
followed or not. -/
def walk (follow : Bool) : Nat → Path → List Name → Except WalkError Path
  | _, at_, [] => .ok at_
  | 0, _, _ :: _ => .error .loop
  | n + 1, at_, part :: rest =>
    if part = dotdot then walk follow n at_.dropLast rest
    else match disk.get (at_ ++ [part]) with
      | none => if rest.isEmpty then .ok (at_ ++ [part]) else .error .missing
      | some .dir => walk follow n (at_ ++ [part]) rest
      | some (.file _) => if rest.isEmpty then .ok (at_ ++ [part]) else .error .notDir
      | some (.link target) =>
        if rest.isEmpty && !follow then .ok (at_ ++ [part])
        else walk follow n (target.start at_) (target.parts ++ rest)

/-- No link is on the path, nor at its end. -/
def Plain (path : Path) : Prop := ∀ q, q <+: path → ¬ disk.IsLink q

/-- What resolving a path gives. -/
structure Resolved (path : Path) : Prop where
  plain : disk.Plain path
  noDots : dotdot ∉ path

variable {disk} {path q source target at_ p : Path} {parts rest more : List Name} {entry : Entry B}
  {follow : Bool} {n : Nat}

/-! ## Entries -/

theorem get_cons {x : Path × Entry B} {entries : List (Path × Entry B)} :
    (⟨x :: entries⟩ : Disk B).get q = if x.1 = q then some x.2 else (⟨entries⟩ : Disk B).get q := by
  unfold get
  rw [List.find?_cons]
  by_cases h : x.1 = q
  · rw [if_pos h, beq_iff_eq.2 h]
    rfl
  · rw [if_neg h, beq_eq_false_iff_ne.2 h]

theorem get_filter (f : Path → Bool) :
    (⟨disk.entries.filter fun x => f x.1⟩ : Disk B).get q = if f q then disk.get q else none := by
  obtain ⟨entries⟩ := disk
  induction entries with
  | nil => exact (ite_self _).symm
  | cons x rest ih =>
    rw [List.filter_cons, get_cons]
    split
    next hx =>
      rw [get_cons, ih]
      split
      next hq => rw [← hq, if_pos hx]
      next => rfl
    next hx =>
      rw [ih]
      split
      next hq => rw [if_neg fun h : x.1 = q => hx (h ▸ hq)]
      next => rfl

@[simp] theorem get_remove : (disk.remove path).get q = if q = path then none else disk.get q := by
  unfold remove
  rw [get_filter fun k => k != path]
  simp

@[simp] theorem get_set :
    (disk.set path entry).get q = if q = path then some entry else disk.get q := by
  unfold set
  rw [get_cons]
  split
  next h => rw [if_pos h.symm]
  next h =>
    rw [if_neg fun hq => h hq.symm]
    exact get_remove.trans (if_neg fun hq => h hq.symm)

@[simp] theorem get_removeTree :
    (disk.removeTree path).get q = if path <+: q then none else disk.get q := by
  unfold removeTree
  rw [get_filter fun k => !path.isPrefixOf k]
  simp only [Bool.not_eq_true', Bool.eq_false_iff, ne_eq, List.isPrefixOf_iff_prefix, ite_not]

theorem get_append {left right : List (Path × Entry B)} :
    (⟨left ++ right⟩ : Disk B).get q = ((⟨left⟩ : Disk B).get q).or ((⟨right⟩ : Disk B).get q) := by
  unfold get
  rw [List.find?_append]
  cases left.find? fun x => x.1 == q <;> rfl

/-- What has been moved is what was below the source; nothing else is new. -/
theorem get_move_of_prefix : (disk.move source target).get (target ++ rest) =
    disk.get (source ++ rest) := by
  unfold move
  rw [get_append]
  have hrest : (⟨((disk.removeTree source).removeTree target).entries⟩ : Disk B).get (target ++ rest) =
      none := by
    refine get_removeTree.trans (if_pos (List.prefix_append _ _))
  rw [hrest, Option.or_none]
  clear hrest
  obtain ⟨entries⟩ := disk
  induction entries with
  | nil => rfl
  | cons x entries ih =>
    rw [get_cons, List.filter_cons]
    split
    next hx =>
      obtain ⟨r, hr⟩ := List.isPrefixOf_iff_prefix.1 hx
      rw [List.map_cons, get_cons, ih]
      simp only [← hr, List.drop_left, List.append_cancel_left_eq]
    next hx =>
      rw [ih, if_neg]
      intro h
      rw [h] at hx
      exact hx (List.isPrefixOf_iff_prefix.2 (List.prefix_append _ _))

theorem get_move_of_not_prefix (h : ¬ target <+: q) :
    (disk.move source target).get q = if source <+: q then none else disk.get q := by
  unfold move
  rw [get_append]
  have hmoved : (⟨(disk.entries.filter fun x => source.isPrefixOf x.1).map
      fun x => (target ++ x.1.drop source.length, x.2)⟩ : Disk B).get q = none := by
    generalize disk.entries.filter (fun x => source.isPrefixOf x.1) = entries
    induction entries with
    | nil => rfl
    | cons x entries ih =>
      rw [List.map_cons, get_cons, ih, if_neg]
      rintro rfl
      exact h (List.prefix_append _ _)
  rw [hmoved, Option.none_or]
  exact (get_removeTree.trans (if_neg h)).trans get_removeTree

/-! ## Resolving -/

theorem Plain.mono (h : disk.Plain path) (hq : q <+: path) : disk.Plain q :=
  fun _ hp => h _ (hp.trans hq)

theorem Resolved.mono (h : disk.Resolved path) (hq : q <+: path) : disk.Resolved q :=
  ⟨h.plain.mono hq, fun hdots => h.noDots (hq.subset hdots)⟩

theorem Plain.append (h : disk.Plain at_) {part : Name} (hpart : ¬ disk.IsLink (at_ ++ [part])) :
    disk.Plain (at_ ++ [part]) := by
  intro q hq
  rcases List.prefix_concat_iff.1 hq with rfl | hq
  · exact hpart
  · exact h q hq

/-- A path that has been resolved has no link on it. -/
theorem resolved_real (hroot : ¬ disk.IsLink []) (h : disk.Resolved at_)
    (hreal : disk.real n at_ parts = some p) : disk.Resolved p := by
  have hstart : disk.Resolved [] :=
    ⟨fun q hq => by rwa [List.prefix_nil.1 hq], List.not_mem_nil⟩
  induction n generalizing at_ parts with
  | zero =>
    cases parts with
    | nil =>
      cases hreal
      exact h
    | cons part rest => cases hreal
  | succ n ih =>
    cases parts with
    | nil =>
      cases hreal
      exact h
    | cons part rest =>
      rw [real] at hreal
      split at hreal
      next => exact ih (h.mono (List.dropLast_prefix _)) hreal
      next hpart =>
        split at hreal
        next target htarget =>
          refine ih ?_ hreal
          unfold LinkTarget.start
          split
          · exact hstart
          · exact h
        next hlink =>
          refine ih ⟨h.plain.append fun ⟨t, ht⟩ => hlink t ht, fun hdots => ?_⟩ hreal
          rcases List.mem_append.1 hdots with hdots | hdots
          · exact h.noDots hdots
          · exact hpart (List.mem_singleton.1 hdots).symm

/-- A path without links is resolved to itself. -/
theorem real_of_resolved (h : disk.Resolved (at_ ++ parts)) (hreal : disk.real n at_ parts = some p) :
    p = at_ ++ parts := by
  induction n generalizing at_ parts with
  | zero =>
    cases parts with
    | nil =>
      cases hreal
      exact (List.append_nil _).symm
    | cons part rest => cases hreal
  | succ n ih =>
    cases parts with
    | nil =>
      cases hreal
      exact (List.append_nil _).symm
    | cons part rest =>
      have happend : at_ ++ part :: rest = (at_ ++ [part]) ++ rest := by simp
      rw [happend] at h ⊢
      rw [real, if_neg fun hdots => h.noDots (by simp [hdots])] at hreal
      split at hreal
      next target htarget =>
        exact absurd ⟨target, htarget⟩ (h.plain _ (List.prefix_append _ _))
      next => exact ih h hreal

/-! ## Walking -/

/-- The link at the path, if there is one, leads to nothing that has entries. -/
def DeadEnd (disk : Disk B) (path : Path) : Prop :=
  ∀ target, disk.get path = some (.link target) → ∀ n follow more, more ≠ [] → ∀ p,
    disk.walk follow n (target.start path.dropLast) (target.parts ++ more) ≠ .ok p

/-- A path on which links lead nowhere leads to itself. -/
theorem walk_eq (hdots : dotdot ∉ parts)
    (hdead : ∀ q, q <+: at_ ++ parts → q ≠ at_ ++ parts → disk.DeadEnd q)
    (hlast : follow = true → ¬ disk.IsLink (at_ ++ parts))
    (hwalk : disk.walk follow n at_ parts = .ok p) : p = at_ ++ parts := by
  induction n generalizing at_ parts with
  | zero =>
    cases parts with
    | nil =>
      cases hwalk
      exact (List.append_nil _).symm
    | cons part rest => cases hwalk
  | succ n ih =>
    cases parts with
    | nil =>
      cases hwalk
      exact (List.append_nil _).symm
    | cons part rest =>
      have happend : at_ ++ part :: rest = (at_ ++ [part]) ++ rest := by simp
      rw [happend] at hdead hlast ⊢
      rw [walk, if_neg fun hpart => hdots (by simp [hpart])] at hwalk
      have hempty {a : Path} (h : a = at_ ++ [part]) (hrest : rest.isEmpty) :
          a = at_ ++ [part] ++ rest := by
        rw [List.isEmpty_iff.1 hrest, List.append_nil, h]
      split at hwalk
      next =>
        split at hwalk
        next hrest => exact hempty (Except.ok.inj hwalk).symm hrest
        next => cases hwalk
      next => exact ih (fun h => hdots (List.mem_cons_of_mem _ h)) hdead hlast hwalk
      next =>
        split at hwalk
        next hrest => exact hempty (Except.ok.inj hwalk).symm hrest
        next => cases hwalk
      next target htarget =>
        split at hwalk
        next hrest => exact hempty (Except.ok.inj hwalk).symm (Bool.and_eq_true_iff.1 hrest).1
        next hrest =>
          by_cases hnil : rest = []
          · have hfollow : follow = true := by simpa [hnil] using hrest
            refine absurd ⟨target, ?_⟩ (hlast hfollow)
            rw [hnil, List.append_nil, htarget]
          · have hproper : at_ ++ [part] ≠ at_ ++ [part] ++ rest := by simpa using Ne.symm hnil
            have hdead := hdead _ (List.prefix_append _ _) hproper target htarget n follow rest hnil p
            rw [List.dropLast_concat] at hdead
            exact absurd hwalk hdead

theorem Plain.deadEnd (h : disk.Plain path) (hq : q <+: path) : disk.DeadEnd q :=
  fun target htarget => absurd ⟨target, htarget⟩ (h q hq)

/-- A path without links leads to itself. -/
theorem Resolved.walk_eq (h : disk.Resolved path) (hwalk : disk.walk follow n [] path = .ok p) :
    p = path := by
  have hplain : disk.Plain ([] ++ path) := h.plain
  exact Disk.walk_eq h.noDots (fun _ hq _ => hplain.deadEnd hq) (fun _ => hplain _ List.prefix_rfl)
    hwalk

/-- Nothing is below a file. -/
theorem walk_below_file {bytes : B} (hfile : disk.get (at_ ++ parts) = some (.file bytes))
    (h : disk.Resolved (at_ ++ parts)) (hparts : parts ≠ []) (hmore : more ≠ []) :
    disk.walk follow n at_ (parts ++ more) ≠ .ok p := by
  intro hwalk
  induction n generalizing at_ parts with
  | zero =>
    cases parts with
    | nil => exact hparts rfl
    | cons part rest => cases hwalk
  | succ n ih =>
    cases parts with
    | nil => exact hparts rfl
    | cons part rest =>
      have happend : at_ ++ part :: rest = (at_ ++ [part]) ++ rest := by simp
      rw [happend] at h hfile
      have hfull : (rest ++ more).isEmpty = false := by simp [hmore]
      rw [List.cons_append, walk, if_neg fun hdots => h.noDots (by simp [hdots]), hfull] at hwalk
      split at hwalk
      next => cases hwalk
      next hdir =>
        cases rest with
        | nil =>
          rw [List.append_nil, hdir] at hfile
          cases hfile
        | cons part' rest => exact ih hfile h (List.cons_ne_nil _ _) hwalk
      next => cases hwalk
      next target htarget => exact absurd ⟨target, htarget⟩ (h.plain _ (List.prefix_append _ _))

theorem walk_up {k : Nat} (hwalk : disk.walk follow n at_ (List.replicate k dotdot ++ parts) = .ok p) :
    ∃ m, disk.walk follow m (at_.take (at_.length - k)) parts = .ok p := by
  induction k generalizing n at_ with
  | zero => exact ⟨n, by simpa using hwalk⟩
  | succ k ih =>
    cases n with
    | zero => cases hwalk
    | succ n =>
      rw [List.replicate_succ, List.cons_append, walk, if_pos rfl] at hwalk
      obtain ⟨m, hm⟩ := ih hwalk
      rw [List.length_dropLast, List.dropLast_eq_take, List.take_take] at hm
      refine ⟨m, ?_⟩
      convert hm using 2
      congr 1
      omega

/-- Where a walk ends is also what the path is resolved to. -/
theorem real_of_walk (hwalk : disk.walk true n at_ parts = .ok p) :
    disk.real n at_ parts = some p := by
  induction n generalizing at_ parts with
  | zero =>
    cases parts with
    | nil =>
      cases hwalk
      rfl
    | cons part rest => cases hwalk
  | succ n ih =>
    cases parts with
    | nil =>
      cases hwalk
      rfl
    | cons part rest =>
      have hend {a : Path} (h : a = at_ ++ [part]) (hrest : rest.isEmpty) :
          disk.real n (at_ ++ [part]) rest = some a := by
        rw [List.isEmpty_iff.1 hrest, h]
        cases n <;> rfl
      rw [walk] at hwalk
      rw [real]
      split
      next hdots =>
        rw [if_pos hdots] at hwalk
        exact ih hwalk
      next hdots =>
        rw [if_neg hdots] at hwalk
        split at hwalk
        next hget =>
          rw [hget]
          split at hwalk
          next hrest => exact hend (Except.ok.inj hwalk).symm hrest
          next => cases hwalk
        next hget =>
          rw [hget]
          exact ih hwalk
        next hget =>
          rw [hget]
          split at hwalk
          next hrest => exact hend (Except.ok.inj hwalk).symm hrest
          next => cases hwalk
        next hget =>
          rw [hget]
          rw [Bool.not_true, Bool.and_false, if_neg Bool.false_ne_true] at hwalk
          exact ih hwalk

/-- The path and all above it are directories. -/
def Dirs (disk : Disk B) (path : Path) : Prop := ∀ q, q <+: path → q ≠ [] → disk.get q = some .dir

/-- A walk ends in a directory that it has come to, no deeper than it is long. -/
theorem dirs_of_walk {length : Nat} (hdirs : disk.Dirs at_) (hdots : dotdot ∉ at_)
    (hlength : at_.length + n ≤ length) (hwalk : disk.walk follow n at_ parts = .ok p) :
    disk.Dirs p.dropLast ∧ dotdot ∉ p ∧ p.length ≤ length := by
  have hmono {path q : Path} (h : disk.Dirs path) (hq : q <+: path) : disk.Dirs q :=
    fun r hr => h r (hr.trans hq)
  induction n generalizing at_ parts with
  | zero =>
    cases parts with
    | nil =>
      cases hwalk
      exact ⟨hmono hdirs (List.dropLast_prefix _), hdots, by omega⟩
    | cons part rest => cases hwalk
  | succ n ih =>
    cases parts with
    | nil =>
      cases hwalk
      exact ⟨hmono hdirs (List.dropLast_prefix _), hdots, by omega⟩
    | cons part rest =>
      rw [walk] at hwalk
      split at hwalk
      next =>
        refine ih (hmono hdirs (List.dropLast_prefix _)) (fun h => hdots (List.mem_of_mem_dropLast h))
          ?_ hwalk
        rw [List.length_dropLast]
        omega
      next hpart =>
        have hdots' : dotdot ∉ at_ ++ [part] := by
          simpa [hdots] using Ne.symm hpart
        have hend (hp : at_ ++ [part] = p) : disk.Dirs p.dropLast ∧ dotdot ∉ p ∧ p.length ≤ length := by
          rw [← hp, List.dropLast_concat, List.length_append, List.length_singleton]
          exact ⟨hdirs, hdots', by omega⟩
        split at hwalk
        next =>
          split at hwalk
          next => exact hend (Except.ok.inj hwalk)
          next => cases hwalk
        next hdir =>
          refine ih (fun q hq hne => ?_) hdots' ?_ hwalk
          · rcases List.prefix_concat_iff.1 hq with rfl | hq
            · exact hdir
            · exact hdirs q hq hne
          · rw [List.length_append, List.length_singleton]
            omega
        next =>
          split at hwalk
          next => exact hend (Except.ok.inj hwalk)
          next => cases hwalk
        next target _ =>
          split at hwalk
          next => exact hend (Except.ok.inj hwalk)
          next =>
            unfold LinkTarget.start at hwalk
            split at hwalk
            · refine ih (fun q hq hne => absurd (List.prefix_nil.1 hq) hne) List.not_mem_nil ?_ hwalk
              simp only [List.length_nil]
              omega
            · exact ih hdirs hdots (by omega) hwalk

/-- In a directory, a path that is no link is found. -/
theorem walk_of_dirs (hdirs : disk.Dirs (at_ ++ parts).dropLast) (hdots : dotdot ∉ parts)
    (hlink : ¬ disk.IsLink (at_ ++ parts)) (hlength : parts.length ≤ n) :
    disk.walk follow n at_ parts = .ok (at_ ++ parts) := by
  induction parts generalizing n at_ with
  | nil =>
    rw [List.append_nil]
    cases n <;> rfl
  | cons part rest ih =>
    obtain ⟨n, rfl⟩ : ∃ m, n = m + 1 := ⟨n - 1, by simp at hlength; omega⟩
    have happend : at_ ++ part :: rest = (at_ ++ [part]) ++ rest := by simp
    rw [happend] at hdirs hlink ⊢
    rw [walk, if_neg fun h => hdots (by simp [h])]
    have hlength : rest.length ≤ n := by simpa using hlength
    have hrec := ih hdirs (fun h => hdots (List.mem_cons_of_mem _ h)) hlink hlength
    cases rest with
    | nil =>
      rw [List.append_nil] at hlink hrec ⊢
      split
      · rfl
      · exact hrec
      · rfl
      next target htarget => exact absurd ⟨target, htarget⟩ hlink
    | cons part' rest =>
      have hdir : disk.get (at_ ++ [part]) = some .dir := by
        refine hdirs _ ?_ (by simp)
        rw [List.dropLast_append_cons]
        exact List.prefix_append _ _
      rw [hdir]
      exact hrec

/-- Where a walk has come to a file, it comes again. -/
theorem walk_again {bytes : B} (hwalk : disk.walk follow n [] parts = .ok p)
    (hfile : disk.get p = some (.file bytes)) : disk.walk follow n [] p = .ok p := by
  obtain ⟨hdirs, hdots, hlength⟩ := dirs_of_walk
    (fun q hq hne => absurd (List.prefix_nil.1 hq) hne) List.not_mem_nil (Nat.le_of_eq (Nat.zero_add n))
    hwalk
  refine walk_of_dirs hdirs hdots (fun ⟨target, htarget⟩ => ?_) hlength
  have hsame := hfile.symm.trans htarget
  cases hsame

end Disk

end LlmPort.Files
