import Mathlib.Data.List.Sort
import LlmPort.Transition.Run

/-!
# Directories

A directory as its entries, in the order in which it lists them, with leaves of any type under names
of any type; what is under a path, the walk through all files, and writing a file whose parent
directories are made on the way.
-/

namespace LlmPort.Files

inductive Dir (N L : Type) where
  | empty
  | file (name : N) (leaf : L) (rest : Dir N L)
  | sub (name : N) (entries : Dir N L) (rest : Dir N L)

namespace Dir

variable {N L : Type}

def names : Dir N L → List N
  | empty => []
  | file name _ rest => name :: rest.names
  | sub name _ rest => name :: rest.names

/-- The directory has this file under the path. -/
def Has : Dir N L → List N → L → Prop
  | empty, _, _ => False
  | file name leaf rest, path, x => path = [name] ∧ x = leaf ∨ rest.Has path x
  | sub name entries rest, path, x => (∃ path', path = name :: path' ∧ entries.Has path' x) ∨
    rest.Has path x

/-- Names are distinct in each directory. -/
def Distinct : Dir N L → Prop
  | empty => True
  | file name _ rest => name ∉ rest.names ∧ rest.Distinct
  | sub name entries rest => name ∉ rest.names ∧ entries.Distinct ∧ rest.Distinct

/-- Every directory in it has a file. -/
def Full : Dir N L → Prop
  | empty => True
  | file _ _ rest => rest.Full
  | sub _ entries rest => entries.Full ∧ (∃ path x, entries.Has path x) ∧ rest.Full

/-- The files directly in the directory. -/
def files : Dir N L → List (N × L)
  | empty => []
  | file name leaf rest => (name, leaf) :: rest.files
  | sub _ _ rest => rest.files

/-- The directories directly in the directory. -/
def subs : Dir N L → List (N × Dir N L)
  | empty => []
  | file _ _ rest => rest.subs
  | sub name entries rest => (name, entries) :: rest.subs

/-- The files below the directories directly in it, each directory's own files in the order that
`sort` gives them, before those below. -/
def walkSubs (sort : List (N × L) → List (N × L)) : Dir N L → List N → List (List N × L)
  | empty, _ => []
  | file _ _ rest, at_ => rest.walkSubs sort at_
  | sub name entries rest, at_ =>
    (sort entries.files).map (fun x => (at_ ++ [name, x.1], x.2)) ++
      entries.walkSubs sort (at_ ++ [name]) ++ rest.walkSubs sort at_

/-- All files with their paths. -/
def walk (sort : List (N × L) → List (N × L)) (d : Dir N L) : List (List N × L) :=
  (sort d.files).map (fun x => ([x.1], x.2)) ++ d.walkSubs sort []

section
variable [DecidableEq N]

/-- The file of this name. -/
def get : Dir N L → N → Option L
  | empty, _ => none
  | file name leaf rest, k => if name = k then some leaf else rest.get k
  | sub name _ rest, k => if name = k then none else rest.get k

/-- Without the entry of this name. -/
def erase : Dir N L → N → Dir N L
  | empty, _ => empty
  | file name leaf rest, k => if name = k then rest else file name leaf (rest.erase k)
  | sub name entries rest, k => if name = k then rest else sub name entries (rest.erase k)

/-- Some file is met on the way along the path `k :: path`, or at its end. -/
def onFile : Dir N L → N → List N → Bool
  | empty, _, _ => false
  | file name _ rest, k, path => if name = k then true else rest.onFile k path
  | sub name entries rest, k, path =>
    if name = k then
      match path with
      | [] => false
      | k' :: path => entries.onFile k' path
    else rest.onFile k path

/-- The file `k :: path` and its parents. -/
def chain : N → List N → L → Dir N L
  | k, [], x => file k x empty
  | k, k' :: path, x => sub k (chain k' path x) empty

/-- Write the file `k :: path`, with the parents it needs; `none` where a parent is a file or the
path a directory. -/
def put : Dir N L → N → List N → L → Option (Dir N L)
  | empty, k, path, x => some (chain k path x)
  | file name leaf rest, k, path, x =>
    if name = k then
      match path with
      | [] => some (file name x rest)
      | _ :: _ => none
    else (rest.put k path x).map (file name leaf)
  | sub name entries rest, k, path, x =>
    if name = k then
      match path with
      | [] => none
      | k' :: path => (entries.put k' path x).map (sub name · rest)
    else (rest.put k path x).map (sub name entries)

end

/-! ## Paths -/

section
variable {d d' : Dir N L} {path path' : List N} {k : N} {x y : L}

theorem ne_nil_of_has (h : d.Has path x) : path ≠ [] := by
  induction d generalizing path with
  | empty => cases h
  | file name leaf rest ih =>
    rcases h with ⟨rfl, -⟩ | h
    · exact List.cons_ne_nil _ _
    · exact ih h
  | sub name entries rest _ ih =>
    rcases h with ⟨path', rfl, -⟩ | h
    · exact List.cons_ne_nil _ _
    · exact ih h

theorem mem_names_of_has (h : d.Has (k :: path) x) : k ∈ d.names := by
  induction d with
  | empty => cases h
  | file name leaf rest ih =>
    rcases h with ⟨hpath, -⟩ | h
    · rw [(List.cons.inj hpath).1]
      exact List.mem_cons_self
    · exact List.mem_cons_of_mem _ (ih h)
  | sub name entries rest _ ih =>
    rcases h with ⟨path', hpath, -⟩ | h
    · rw [(List.cons.inj hpath).1]
      exact List.mem_cons_self
    · exact List.mem_cons_of_mem _ (ih h)

/-- A path that leads to a file ends there, and leads to that file only. -/
theorem Distinct.eq_of_has_append (hd : d.Distinct) (hx : d.Has path x)
    (hy : d.Has (path ++ path') y) : path' = [] ∧ x = y := by
  induction d generalizing path with
  | empty => cases hx
  | file name leaf rest ih =>
    have hname {path : List N} {z : L} (h : rest.Has (name :: path) z) : False :=
      hd.1 (mem_names_of_has h)
    rcases hx with ⟨rfl, rfl⟩ | hx
    · rcases hy with ⟨hpath, rfl⟩ | hy
      · exact ⟨List.cons.inj hpath |>.2, rfl⟩
      · exact (hname hy).elim
    · rcases hy with ⟨hpath, rfl⟩ | hy
      · obtain ⟨a, t, rfl⟩ := List.exists_cons_of_ne_nil (ne_nil_of_has hx)
        obtain ⟨rfl, -⟩ := List.cons.inj hpath
        exact (hname hx).elim
      · exact ih hd.2 hx hy
  | sub name entries rest ihe ih =>
    have hname {path : List N} {z : L} (h : rest.Has (name :: path) z) : False :=
      hd.1 (mem_names_of_has h)
    rcases hx with ⟨p, rfl, hx⟩ | hx
    · rcases hy with ⟨q, hpath, hy⟩ | hy
      · obtain ⟨-, rfl⟩ := List.cons.inj hpath
        exact ihe hd.2.1 hx hy
      · exact (hname hy).elim
    · rcases hy with ⟨q, hpath, hy⟩ | hy
      · obtain ⟨a, t, rfl⟩ := List.exists_cons_of_ne_nil (ne_nil_of_has hx)
        obtain ⟨rfl, -⟩ := List.cons.inj hpath
        exact (hname hx).elim
      · exact ih hd.2.2 hx hy

/-- Distinct names leave room for a file that is in the directory. -/
theorem Distinct.not_prefix (hd : d.Distinct) (hx : d.Has path x) (hy : d.Has path' y)
    (hne : path ≠ path') : ¬ path <+: path' := by
  rintro ⟨rest, rfl⟩
  obtain ⟨rfl, -⟩ := hd.eq_of_has_append hx hy
  exact hne (List.append_nil _).symm

theorem has_singleton_iff : d.Has [k] x ↔ (k, x) ∈ d.files := by
  induction d with
  | empty => simp [Has, files]
  | file name leaf rest ih => simp [Has, files, ih]
  | sub name entries rest _ ih =>
    simp only [Has, files, ih, or_iff_right_iff_imp]
    rintro ⟨path', hpath, h⟩
    obtain ⟨-, rfl⟩ := List.cons.inj hpath
    exact (ne_nil_of_has h rfl).elim

theorem has_cons_iff (hpath : path ≠ []) :
    d.Has (k :: path) x ↔ ∃ entries, (k, entries) ∈ d.subs ∧ entries.Has path x := by
  induction d with
  | empty => simp [Has, subs]
  | file name leaf rest ih => simp [Has, subs, ih, hpath]
  | sub name entries rest _ ih =>
    simp only [Has, subs, ih, List.mem_cons, Prod.mk.injEq]
    constructor
    · rintro (⟨_, ⟨rfl, rfl⟩, h⟩ | ⟨e, he, h⟩)
      · exact ⟨entries, .inl ⟨rfl, rfl⟩, h⟩
      · exact ⟨e, .inr he, h⟩
    · rintro ⟨e, ⟨rfl, rfl⟩ | he, h⟩
      · exact .inl ⟨path, rfl, h⟩
      · exact .inr ⟨e, he, h⟩

theorem mem_names_of_mem_subs (h : (k, d') ∈ d.subs) : k ∈ d.names := by
  induction d with
  | empty => cases h
  | file name leaf rest ih => exact List.mem_cons_of_mem _ (ih h)
  | sub name entries rest _ ih =>
    rcases List.mem_cons.1 h with h | h
    · rw [(Prod.mk.inj h).1]
      exact List.mem_cons_self
    · exact List.mem_cons_of_mem _ (ih h)

theorem nodup_subs (hd : d.Distinct) : (d.subs.map (·.1)).Nodup := by
  induction d with
  | empty => exact List.nodup_nil
  | file name leaf rest ih => exact ih hd.2
  | sub name entries rest _ ih =>
    refine List.nodup_cons.2 ⟨fun hmem => hd.1 ?_, ih hd.2.2⟩
    obtain ⟨x, hx, rfl⟩ := List.mem_map.1 hmem
    exact mem_names_of_mem_subs hx

theorem Distinct.of_mem_subs (hd : d.Distinct) (h : (k, d') ∈ d.subs) : d'.Distinct := by
  induction d with
  | empty => cases h
  | file name leaf rest ih => exact ih hd.2 h
  | sub name entries rest _ ih =>
    rcases List.mem_cons.1 h with h | h
    · obtain ⟨-, rfl⟩ := Prod.mk.inj h
      exact hd.2.1
    · exact ih hd.2.2 h

theorem nodup_files (hd : d.Distinct) : (d.files.map (·.1)).Nodup := by
  induction d with
  | empty => exact List.nodup_nil
  | file name leaf rest ih =>
    refine List.nodup_cons.2 ⟨fun hmem => hd.1 ?_, ih hd.2⟩
    obtain ⟨x, hx, hname⟩ := List.mem_map.1 hmem
    exact mem_names_of_has (hname ▸ has_singleton_iff.2 hx)
  | sub name entries rest _ ih => exact ih hd.2.2

/-! ## The walk -/

variable {sort : List (N × L) → List (N × L)} (hsort : ∀ l x, x ∈ sort l ↔ x ∈ l)

include hsort

theorem mem_walkSubs {at_ : List N} : (path, x) ∈ d.walkSubs sort at_ ↔
    ∃ path', path = at_ ++ path' ∧ d.Has path' x ∧ ∀ k, path' ≠ [k] := by
  induction d generalizing at_ with
  | empty => simp [walkSubs, Has]
  | file name leaf rest ih =>
    rw [walkSubs, ih]
    constructor
    · rintro ⟨path', rfl, h, hlong⟩
      exact ⟨path', rfl, .inr h, hlong⟩
    · rintro ⟨path', rfl, ⟨rfl, -⟩ | h, hlong⟩
      · exact (hlong name rfl).elim
      · exact ⟨path', rfl, h, hlong⟩
  | sub name entries rest ihe ih =>
    rw [walkSubs, List.mem_append, List.mem_append, ih, ihe]
    constructor
    · rintro ((h | ⟨path', rfl, h, -⟩) | ⟨path', rfl, h, hlong⟩)
      · obtain ⟨⟨k, y⟩, hfile, hx⟩ := List.mem_map.1 h
        obtain ⟨rfl, rfl⟩ := Prod.mk.inj hx
        refine ⟨[name, k], rfl, .inl ⟨[k], rfl, ?_⟩, by simp⟩
        exact has_singleton_iff.2 ((hsort ..).1 hfile)
      · refine ⟨name :: path', by simp, .inl ⟨path', rfl, h⟩, fun k hk => ?_⟩
        exact ne_nil_of_has h (List.cons.inj hk).2
      · exact ⟨path', rfl, .inr h, hlong⟩
    · rintro ⟨path', rfl, ⟨p, rfl, h⟩ | h, hlong⟩
      · by_cases hp : ∃ k, p = [k]
        · obtain ⟨k, rfl⟩ := hp
          refine .inl (.inl (List.mem_map.2 ⟨(k, x), (hsort ..).2 (has_singleton_iff.1 h), rfl⟩))
        · exact .inl (.inr ⟨p, by simp, h, fun k hk => hp ⟨k, hk⟩⟩)
      · exact .inr ⟨path', rfl, h, hlong⟩

/-- The walk meets each file, under its path. -/
theorem mem_walk : (path, x) ∈ d.walk sort ↔ d.Has path x := by
  rw [walk, List.mem_append, mem_walkSubs hsort]
  constructor
  · rintro (h | ⟨path', rfl, h, -⟩)
    · obtain ⟨⟨k, y⟩, hfile, hx⟩ := List.mem_map.1 h
      obtain ⟨rfl, rfl⟩ := Prod.mk.inj hx
      exact has_singleton_iff.2 ((hsort ..).1 hfile)
    · exact h
  · intro h
    by_cases hp : ∃ k, path = [k]
    · obtain ⟨k, rfl⟩ := hp
      exact .inl (List.mem_map.2 ⟨(k, x), (hsort ..).2 (has_singleton_iff.1 h), rfl⟩)
    · exact .inr ⟨path, rfl, h, fun k hk => hp ⟨k, hk⟩⟩

omit hsort

variable (hperm : ∀ l : List (N × L), (sort l).Perm l)

include hperm

theorem nodup_sort_files (hd : d.Distinct) {f : N → List N} (hf : Function.Injective f) :
    (((sort d.files).map fun x => (f x.1, x.2)).map (·.1)).Nodup := by
  rw [List.map_map]
  have hsorted := ((hperm d.files).map (·.1)).nodup_iff.2 (nodup_files hd)
  have hmap := hsorted.map hf
  rwa [List.map_map] at hmap

/-- What is below `entries` has the name of the directory in its path, and what is below `rest` does
not. -/
theorem nodup_walkSubs (hd : d.Distinct) (at_ : List N) :
    ((d.walkSubs sort at_).map (·.1)).Nodup := by
  have hmem (l : List (N × L)) (x : N × L) : x ∈ sort l ↔ x ∈ l := (hperm l).mem_iff
  induction d generalizing at_ with
  | empty => exact List.nodup_nil
  | file name leaf rest ih => exact ih hd.2 at_
  | sub name entries rest ihe ih =>
    have hown := nodup_sort_files hperm hd.2.1 (f := fun a => at_ ++ [name, a])
      fun a b h => by simpa using h
    rw [walkSubs, List.map_append, List.map_append, List.nodup_append', List.nodup_append']
    refine ⟨⟨hown, ihe hd.2.1 _, ?_⟩, ih hd.2.2 at_, ?_⟩
    · rintro path hown hbelow
      obtain ⟨x, hx, rfl⟩ := List.mem_map.1 hown
      obtain ⟨y, -, rfl⟩ := List.mem_map.1 hx
      obtain ⟨z, hz, hpath⟩ := List.mem_map.1 hbelow
      obtain ⟨p, hp, -, hlong⟩ := (mem_walkSubs hmem).1 hz
      rw [hp] at hpath
      exact hlong y.1 (by simpa using hpath)
    · rintro path hentries hrest
      obtain ⟨z, hz, hpath⟩ := List.mem_map.1 hrest
      obtain ⟨p, hp, hhas, -⟩ := (mem_walkSubs hmem).1 hz
      have hhead : ∃ q, path = at_ ++ name :: q := by
        rcases List.mem_append.1 hentries with h | h
        · obtain ⟨x, hx, rfl⟩ := List.mem_map.1 h
          obtain ⟨y, -, rfl⟩ := List.mem_map.1 hx
          exact ⟨_, rfl⟩
        · obtain ⟨x, hx, rfl⟩ := List.mem_map.1 h
          obtain ⟨q, hq, -⟩ := (mem_walkSubs hmem).1 hx
          exact ⟨q, by rw [hq, List.append_assoc, List.singleton_append]⟩
      obtain ⟨q, hq⟩ := hhead
      have hsame : at_ ++ p = at_ ++ name :: q := hp.symm.trans (hpath.trans hq)
      rw [List.append_cancel_left hsame] at hhas
      exact hd.1 (mem_names_of_has hhas)

/-- The walk meets no path twice. -/
theorem nodup_walk (hd : d.Distinct) : ((d.walk sort).map (·.1)).Nodup := by
  have hmem (l : List (N × L)) (x : N × L) : x ∈ sort l ↔ x ∈ l := (hperm l).mem_iff
  have hown := nodup_sort_files hperm hd (f := fun a => [a]) fun a b h => by simpa using h
  rw [walk, List.map_append, List.nodup_append']
  refine ⟨hown, nodup_walkSubs hperm hd [], ?_⟩
  rintro path hown hbelow
  obtain ⟨x, hx, rfl⟩ := List.mem_map.1 hown
  obtain ⟨y, -, rfl⟩ := List.mem_map.1 hx
  obtain ⟨z, hz, hpath⟩ := List.mem_map.1 hbelow
  obtain ⟨p, hp, -, hlong⟩ := (mem_walkSubs hmem).1 hz
  exact hlong y.1 (by simpa [hp] using hpath)

end

/-! ## Writing a file -/

section
variable {path path' : List N} {k : N} {x y : L}

theorem has_chain : (chain k path x).Has path' y ↔ path' = k :: path ∧ y = x := by
  induction path generalizing k path' with
  | nil => simp [chain, Has]
  | cons k' path ih =>
    simp only [chain, Has, ih, or_false]
    constructor
    · rintro ⟨_, rfl, rfl, rfl⟩
      exact ⟨rfl, rfl⟩
    · rintro ⟨rfl, rfl⟩
      exact ⟨_, rfl, rfl, rfl⟩

theorem names_chain : (chain k path x).names = [k] := by
  cases path <;> rfl

theorem distinct_chain : (chain k path x).Distinct := by
  induction path generalizing k with
  | nil => exact ⟨List.not_mem_nil, trivial⟩
  | cons k' path ih => exact ⟨List.not_mem_nil, ih, trivial⟩

theorem full_chain : (chain k path x).Full := by
  induction path generalizing k with
  | nil => trivial
  | cons k' path ih => exact ⟨ih, ⟨_, _, has_chain.2 ⟨rfl, rfl⟩⟩, trivial⟩

end

section
variable [DecidableEq N] {d d' entries rest : Dir N L} {path path' : List N} {name k : N}
  {leaf x y : L}

theorem put_file : (file name leaf rest).put k path x =
    if name = k then
      match path with
      | [] => some (file name x rest)
      | _ :: _ => none
    else (rest.put k path x).map (file name leaf) := rfl

theorem put_sub : (sub name entries rest).put k path x =
    if name = k then
      match path with
      | [] => none
      | k' :: path => (entries.put k' path x).map (sub name · rest)
    else (rest.put k path x).map (sub name entries) := rfl

theorem put_file_eq_some (h : (file name leaf rest).put k path x = some d') :
    (name = k ∧ path = [] ∧ d' = file name x rest) ∨
      (name ≠ k ∧ ∃ rest', rest.put k path x = some rest' ∧ d' = file name leaf rest') := by
  rw [put_file] at h
  split at h
  next hk =>
    split at h
    next => exact .inl ⟨hk, rfl, (Option.some.inj h).symm⟩
    next => cases h
  next hk =>
    obtain ⟨rest', hrest, rfl⟩ := Option.map_eq_some_iff.1 h
    exact .inr ⟨hk, rest', hrest, rfl⟩

theorem put_sub_eq_some (h : (sub name entries rest).put k path x = some d') :
    (name = k ∧ ∃ k' path' entries', path = k' :: path' ∧
      entries.put k' path' x = some entries' ∧ d' = sub name entries' rest) ∨
      (name ≠ k ∧ ∃ rest', rest.put k path x = some rest' ∧ d' = sub name entries rest') := by
  rw [put_sub] at h
  split at h
  next hk =>
    split at h
    next => cases h
    next k' path =>
      obtain ⟨entries', hentries, rfl⟩ := Option.map_eq_some_iff.1 h
      exact .inl ⟨hk, k', path, entries', rfl, hentries, rfl⟩
  next hk =>
    obtain ⟨rest', hrest, rfl⟩ := Option.map_eq_some_iff.1 h
    exact .inr ⟨hk, rest', hrest, rfl⟩

theorem mem_names_put (h : d.put k path x = some d') {a : N} (ha : a ∈ d'.names) :
    a = k ∨ a ∈ d.names := by
  have hcons {name : N} {d rest rest' : Dir N L} (hnames : d.names = name :: rest.names)
      (hrest : a ∈ rest'.names → a = k ∨ a ∈ rest.names) (ha : a ∈ name :: rest'.names) :
      a = k ∨ a ∈ d.names := by
    rw [hnames]
    rcases List.mem_cons.1 ha with rfl | ha
    · exact .inr List.mem_cons_self
    · exact (hrest ha).imp id (List.mem_cons_of_mem _)
  induction d generalizing d' with
  | empty =>
    cases h
    rw [names_chain] at ha
    exact .inl (List.mem_singleton.1 ha)
  | file name leaf rest ih =>
    obtain ⟨rfl, rfl, rfl⟩ | ⟨-, rest', hrest, rfl⟩ := put_file_eq_some h
    · exact .inr ha
    · exact hcons rfl (ih hrest) ha
  | sub name entries rest _ ih =>
    obtain ⟨rfl, _, _, _, rfl, -, rfl⟩ | ⟨-, rest', hrest, rfl⟩ := put_sub_eq_some h
    · exact .inr ha
    · exact hcons rfl (ih hrest) ha

theorem Distinct.put (hd : d.Distinct) (h : d.put k path x = some d') : d'.Distinct := by
  induction d generalizing k path d' with
  | empty =>
    cases h
    exact distinct_chain
  | file name leaf rest ih =>
    obtain ⟨rfl, rfl, rfl⟩ | ⟨hne, rest', hrest, rfl⟩ := put_file_eq_some h
    · exact hd
    · exact ⟨fun hmem => (mem_names_put hrest hmem).elim hne hd.1, ih hd.2 hrest⟩
  | sub name entries rest ihe ih =>
    obtain ⟨rfl, _, _, entries', rfl, hentries, rfl⟩ | ⟨hne, rest', hrest, rfl⟩ :=
      put_sub_eq_some h
    · exact ⟨hd.1, ihe hd.2.1 hentries, hd.2.2⟩
    · exact ⟨fun hmem => (mem_names_put hrest hmem).elim hne hd.1, hd.2.1, ih hd.2.2 hrest⟩

/-- The file is there, and the files under other paths stay. -/
theorem has_put (hd : d.Distinct) (h : d.put k path x = some d') :
    d'.Has path' y ↔ path' = k :: path ∧ y = x ∨ path' ≠ k :: path ∧ d.Has path' y := by
  induction d generalizing k path d' path' with
  | empty =>
    cases h
    simp [has_chain, Has]
  | file name leaf rest ih =>
    obtain ⟨rfl, rfl, rfl⟩ | ⟨hk, rest', hrest, rfl⟩ := put_file_eq_some h
    · have hrest : rest.Has path' y → path' ≠ [name] := fun hr hp =>
        hd.1 (mem_names_of_has (hp ▸ hr))
      simp only [Has]
      tauto
    · have hne : path' = [name] → path' ≠ k :: path := by
        rintro rfl hp
        exact hk (List.cons.inj hp).1
      simp only [Has, ih hd.2 hrest]
      tauto
  | sub name entries rest ihe ih =>
    obtain ⟨rfl, k', path, entries', rfl, hentries, rfl⟩ | ⟨hk, rest', hrest, rfl⟩ :=
      put_sub_eq_some h
    · have hrest : rest.Has path' y → path' ≠ name :: k' :: path := fun hr hp =>
        hd.1 (mem_names_of_has (hp ▸ hr))
      simp only [Has, ihe hd.2.1 hentries]
      constructor
      · rintro (⟨p, rfl, ⟨rfl, rfl⟩ | ⟨hp, he⟩⟩ | hr)
        · exact .inl ⟨rfl, rfl⟩
        · exact .inr ⟨fun hpp => hp (List.cons.inj hpp).2, .inl ⟨p, rfl, he⟩⟩
        · exact .inr ⟨hrest hr, .inr hr⟩
      · rintro (⟨rfl, rfl⟩ | ⟨hne, ⟨p, rfl, he⟩ | hr⟩)
        · exact .inl ⟨_, rfl, .inl ⟨rfl, rfl⟩⟩
        · exact .inl ⟨p, rfl, .inr ⟨fun hp => hne (hp ▸ rfl), he⟩⟩
        · exact .inr hr
    · have hne : (∃ p, path' = name :: p ∧ entries.Has p y) → path' ≠ k :: path := by
        rintro ⟨p, rfl, -⟩ hp
        exact hk (List.cons.inj hp).1
      simp only [Has, ih hd.2.2 hrest]
      constructor
      · rintro (he | h | ⟨hp, hr⟩)
        · exact .inr ⟨hne he, .inl he⟩
        · exact .inl h
        · exact .inr ⟨hp, .inr hr⟩
      · rintro (h | ⟨hp, he | hr⟩)
        · exact .inr (.inl h)
        · exact .inl he
        · exact .inr (.inr ⟨hp, hr⟩)

theorem Full.put (hd : d.Distinct) (hfull : d.Full) (h : d.put k path x = some d') : d'.Full := by
  induction d generalizing k path d' with
  | empty =>
    cases h
    exact full_chain
  | file name leaf rest ih =>
    obtain ⟨rfl, rfl, rfl⟩ | ⟨-, rest', hrest, rfl⟩ := put_file_eq_some h
    · exact hfull
    · have hrest' : rest'.Full := ih hd.2 hfull hrest
      exact hrest'
  | sub name entries rest ihe ih =>
    obtain ⟨rfl, k', path, entries', rfl, hentries, rfl⟩ | ⟨-, rest', hrest, rfl⟩ :=
      put_sub_eq_some h
    · refine ⟨ihe hd.2.1 hfull.1 hentries, ⟨k' :: path, x, ?_⟩, hfull.2.2⟩
      exact (has_put hd.2.1 hentries).2 (.inl ⟨rfl, rfl⟩)
    · exact ⟨hfull.1, hfull.2.1, ih hd.2.2 hfull.2.2 hrest⟩

/-- No file is under a part of the path or below it. -/
def Free (d : Dir N L) (path : List N) : Prop :=
  ∀ path' x, d.Has path' x → ¬ path' <+: path ∧ ¬ path <+: path'

/-- Where there is room, the file can be written, and no file is met on the way. -/
theorem Free.exists_put (hfull : d.Full) (h : d.Free (k :: path)) :
    (∃ d', d.put k path x = some d') ∧ d.onFile k path = false := by
  induction d generalizing k path with
  | empty => exact ⟨⟨_, rfl⟩, rfl⟩
  | file name leaf rest ih =>
    have hk : name ≠ k := by
      rintro rfl
      exact (h [name] leaf (.inl ⟨rfl, rfl⟩)).1 ⟨path, rfl⟩
    obtain ⟨⟨rest', hrest⟩, hon⟩ := ih hfull fun path' x hx => h path' x (.inr hx)
    rw [put_file, onFile, if_neg hk, if_neg hk, hrest]
    exact ⟨⟨_, rfl⟩, hon⟩
  | sub name entries rest ihe ih =>
    by_cases hk : name = k
    · subst hk
      rw [put_sub, if_pos rfl]
      cases path with
      | nil =>
        obtain ⟨p, y, hy⟩ := hfull.2.1
        exact ((h (name :: p) y (.inl ⟨p, rfl, hy⟩)).2 ⟨p, rfl⟩).elim
      | cons k' path =>
        have hfree : entries.Free (k' :: path) := fun p y hy => by
          obtain ⟨h1, h2⟩ := h (name :: p) y (.inl ⟨p, rfl, hy⟩)
          exact ⟨fun hp => h1 ((List.prefix_cons_inj name).2 hp),
            fun hp => h2 ((List.prefix_cons_inj name).2 hp)⟩
        obtain ⟨⟨entries', hentries⟩, hon⟩ := ihe hfull.1 hfree
        refine ⟨⟨sub name entries' rest, by simp [hentries]⟩, ?_⟩
        rwa [onFile, if_pos rfl]
    · obtain ⟨⟨rest', hrest⟩, hon⟩ := ih hfull.2.2 fun path' x hx => h path' x (.inr hx)
      have hsub : (sub name entries rest).onFile k path = rest.onFile k path := by
        cases path <;> exact if_neg hk
      rw [put_sub, if_neg hk, hrest, hsub]
      exact ⟨⟨_, rfl⟩, hon⟩

/-- One file more. -/
structure Adds (d : Dir N L) (path : List N) (x : L) (d' : Dir N L) : Prop where
  distinct : d'.Distinct
  full : d'.Full
  has : ∀ path' y, d'.Has path' y ↔ path' = path ∧ y = x ∨ d.Has path' y

theorem Free.adds_put (hd : d.Distinct) (hfull : d.Full) (h : d.Free (k :: path)) :
    ∃ d', d.put k path x = some d' ∧ d.Adds (k :: path) x d' := by
  obtain ⟨⟨d', hd'⟩, -⟩ := h.exists_put hfull (x := x)
  refine ⟨d', hd', hd.put hd', hfull.put hd hd', fun path' y => ?_⟩
  rw [has_put hd hd']
  have hne : d.Has path' y → path' ≠ k :: path := by
    rintro hy rfl
    exact (h _ y hy).1 List.prefix_rfl
  tauto

omit [DecidableEq N] in
/-- A loop that adds one file for each element, under paths of which none leads to another, lays out
the files of all. -/
theorem layOut {α κ : Type*} {f : Dir N L → α → Except κ (Dir N L)} {l : List α}
    {path : α → List N} (leaf : α → L) (hnodup : (l.map path).Nodup)
    (hfree : ∀ x ∈ l, ∀ y ∈ l, path x <+: path y → path x = path y)
    (hf : ∀ d, ∀ x ∈ l, d.Distinct → d.Full → d.Free (path x) →
      (∀ p y, d.Has p y → ∃ z ∈ l, p = path z) →
        ∃ d', f d x = .ok d' ∧ d.Adds (path x) (leaf x) d') :
    ∃ out, l.foldlM f empty = .ok out ∧ out.Distinct ∧ out.Full ∧
      ∀ p y, out.Has p y ↔ ∃ x ∈ l, p = path x ∧ y = leaf x := by
  refine Transition.foldlM_total (P := fun (done : List α) (d : Dir N L) => d.Distinct ∧ d.Full ∧
    ∀ p y, d.Has p y ↔ ∃ x ∈ done, p = path x ∧ y = leaf x) ?_ ⟨trivial, trivial, by simp [Has]⟩
  rintro done x todo d rfl ⟨hd, hfull, hhas⟩
  have hx : x ∈ done ++ x :: todo := List.mem_append_right _ List.mem_cons_self
  have hroom : d.Free (path x) := by
    intro p y hp
    obtain ⟨z, hz, rfl, -⟩ := (hhas p y).1 hp
    have hne : path z ≠ path x := by
      rw [List.map_append, List.nodup_append] at hnodup
      exact hnodup.2.2 _ (List.mem_map_of_mem hz) _ List.mem_cons_self
    have hz : z ∈ done ++ x :: todo := List.mem_append_left _ hz
    exact ⟨fun h => hne (hfree z hz x hx h), fun h => hne (hfree x hx z hz h).symm⟩
  obtain ⟨d', hd', hadds⟩ := hf d x hx hd hfull hroom fun p y hp => by
    obtain ⟨z, hz, hpz, -⟩ := (hhas p y).1 hp
    exact ⟨z, List.mem_append_left _ hz, hpz⟩
  refine ⟨d', hd', hadds.distinct, hadds.full, fun p y => ?_⟩
  rw [hadds.has, hhas]
  constructor
  · rintro (⟨rfl, rfl⟩ | ⟨z, hz, h⟩)
    · exact ⟨x, List.mem_append_right _ (List.mem_singleton_self x), rfl, rfl⟩
    · exact ⟨z, List.mem_append_left _ hz, h⟩
  · rintro ⟨z, hz, h⟩
    rcases List.mem_append.1 hz with hz | hz
    · exact .inr ⟨z, hz, h⟩
    · rw [List.mem_singleton.1 hz] at h
      exact .inl h

/-! ## Files directly in a directory -/

/-- Erasing a name leaves the other files. -/
theorem get_erase_of_ne {k' : N} (hne : k' ≠ k) : (d.erase k).get k' = d.get k' := by
  induction d with
  | empty => rfl
  | file name leaf rest ih =>
    rw [erase]
    split
    next hk => rw [get, if_neg fun h => hne (h.symm.trans hk)]
    next => rw [get, get, ih]
  | sub name entries rest _ ih =>
    rw [erase]
    split
    next hk => rw [get, if_neg fun h => hne (h.symm.trans hk)]
    next => rw [get, get, ih]

/-- A file written directly in the directory is there. -/
theorem get_put_self (h : d.put k [] x = some d') : d'.get k = some x := by
  induction d generalizing d' with
  | empty =>
    cases h
    exact if_pos rfl
  | file name leaf rest ih =>
    obtain ⟨rfl, -, rfl⟩ | ⟨hk, rest', hrest, rfl⟩ := put_file_eq_some h
    · exact if_pos rfl
    · rw [get, if_neg hk, ih hrest]
  | sub name entries rest _ ih =>
    obtain ⟨-, _, _, _, hpath, -⟩ | ⟨hk, rest', hrest, rfl⟩ := put_sub_eq_some h
    · cases hpath
    · rw [get, if_neg hk, ih hrest]

/-- Writing a file leaves those of other names. -/
theorem get_put_of_ne {k' : N} (hne : k' ≠ k) (h : d.put k [] x = some d') :
    d'.get k' = d.get k' := by
  induction d generalizing d' with
  | empty =>
    cases h
    exact if_neg (Ne.symm hne)
  | file name leaf rest ih =>
    obtain ⟨rfl, -, rfl⟩ | ⟨-, rest', hrest, rfl⟩ := put_file_eq_some h
    · rw [get, get, if_neg (Ne.symm hne), if_neg (Ne.symm hne)]
    · rw [get, get, ih hrest]
  | sub name entries rest _ ih =>
    obtain ⟨-, _, _, _, hpath, -⟩ | ⟨-, rest', hrest, rfl⟩ := put_sub_eq_some h
    · cases hpath
    · rw [get, get, ih hrest]

theorem get_eq_some_iff (hd : d.Distinct) : d.get k = some x ↔ d.Has [k] x := by
  induction d with
  | empty => simp [get, Has]
  | file name leaf rest ih =>
    rw [get]
    split
    next hk =>
      subst hk
      have hno : ¬ rest.Has [name] x := fun h => hd.1 (mem_names_of_has h)
      simp [Has, hno, eq_comm]
    next hk =>
      have hne : [k] ≠ [name] := fun h => hk (List.cons.inj h).1.symm
      rw [ih hd.2]
      simp [Has, Ne.symm hk]
  | sub name entries rest _ ih =>
    have hno : ¬ ∃ p, [k] = name :: p ∧ entries.Has p x := by
      rintro ⟨p, hp, h⟩
      obtain ⟨-, rfl⟩ := List.cons.inj hp
      exact ne_nil_of_has h rfl
    rw [get]
    split
    next hk =>
      subst hk
      have hrest : ¬ rest.Has [name] x := fun h => hd.1 (mem_names_of_has h)
      simp only [Has, reduceCtorEq, false_iff, not_or]
      exact ⟨hno, hrest⟩
    next hk =>
      rw [ih hd.2.2]
      simp only [Has, iff_or_self]
      exact fun h => (hno h).elim

theorem names_erase_subset : (d.erase k).names ⊆ d.names := by
  induction d with
  | empty => exact List.Subset.refl _
  | file name leaf rest ih =>
    rw [erase]
    split
    next => exact List.subset_cons_self _ _
    next => exact List.cons_subset_cons name ih
  | sub name entries rest _ ih =>
    rw [erase]
    split
    next => exact List.subset_cons_self _ _
    next => exact List.cons_subset_cons name ih

theorem erase_of_not_mem (h : k ∉ d.names) : d.erase k = d := by
  induction d with
  | empty => rfl
  | file name leaf rest ih =>
    obtain ⟨hne, hrest⟩ := not_or.1 (mt List.mem_cons.2 h)
    rw [erase, if_neg (Ne.symm hne), ih hrest]
  | sub name entries rest _ ih =>
    obtain ⟨hne, hrest⟩ := not_or.1 (mt List.mem_cons.2 h)
    rw [erase, if_neg (Ne.symm hne), ih hrest]

theorem mem_subs_erase {name : N} (h : (name, d') ∈ (d.erase k).subs) : (name, d') ∈ d.subs := by
  induction d with
  | empty => exact h
  | file _ leaf rest ih =>
    rw [erase] at h
    split at h
    next => exact h
    next => exact ih h
  | sub _ entries rest _ ih =>
    rw [erase] at h
    split at h
    next => exact List.mem_cons_of_mem _ h
    next =>
      rcases List.mem_cons.1 h with h | h
      · exact List.mem_cons.2 (.inl h)
      · exact List.mem_cons_of_mem _ (ih h)

theorem Distinct.erase (hd : d.Distinct) : (d.erase k).Distinct := by
  induction d with
  | empty => trivial
  | file name leaf rest ih =>
    rw [Dir.erase]
    split
    next => exact hd.2
    next => exact ⟨fun h => hd.1 (names_erase_subset h), ih hd.2⟩
  | sub name entries rest _ ih =>
    rw [Dir.erase]
    split
    next => exact hd.2.2
    next => exact ⟨fun h => hd.1 (names_erase_subset h), hd.2.1, ih hd.2.2⟩

theorem Full.erase (hfull : d.Full) : (d.erase k).Full := by
  induction d with
  | empty => trivial
  | file name leaf rest ih =>
    rw [Dir.erase]
    split
    next => exact hfull
    next => exact ih hfull
  | sub name entries rest _ ih =>
    rw [Dir.erase]
    split
    next => exact hfull.2.2
    next => exact ⟨hfull.1, hfull.2.1, ih hfull.2.2⟩

theorem has_erase (hd : d.Distinct) :
    (d.erase k).Has path x ↔ d.Has path x ∧ path.head? ≠ some k := by
  have hhead {d : Dir N L} {k : N} (hk : k ∉ d.names) (h : d.Has path x) : path.head? ≠ some k := by
    intro hp
    obtain ⟨t, rfl⟩ := List.head?_eq_some_iff.1 hp
    exact hk (mem_names_of_has h)
  induction d with
  | empty => simp [erase, Has]
  | file name leaf rest ih =>
    have hrest := hhead hd.1
    rw [erase]
    split
    next hk =>
      subst hk
      simp only [Has]
      constructor
      · exact fun h => ⟨.inr h, hrest h⟩
      · rintro ⟨⟨rfl, -⟩ | h, hne⟩
        · exact (hne rfl).elim
        · exact h
    next hk =>
      simp only [Has, ih hd.2]
      constructor
      · rintro (⟨rfl, rfl⟩ | ⟨h, hne⟩)
        · exact ⟨.inl ⟨rfl, rfl⟩, fun h => hk (Option.some.inj h)⟩
        · exact ⟨.inr h, hne⟩
      · rintro ⟨h | h, hne⟩
        · exact .inl h
        · exact .inr ⟨h, hne⟩
  | sub name entries rest _ ih =>
    have hrest := hhead hd.1
    rw [erase]
    split
    next hk =>
      subst hk
      simp only [Has]
      constructor
      · exact fun h => ⟨.inr h, hrest h⟩
      · rintro ⟨⟨p, rfl, -⟩ | h, hne⟩
        · exact (hne rfl).elim
        · exact h
    next hk =>
      simp only [Has, ih hd.2.2]
      constructor
      · rintro (⟨p, rfl, h⟩ | ⟨h, hne⟩)
        · exact ⟨.inl ⟨p, rfl, h⟩, fun h => hk (Option.some.inj h)⟩
        · exact ⟨.inr h, hne⟩
      · rintro ⟨h | h, hne⟩
        · exact .inl h
        · exact .inr ⟨h, hne⟩

end

end Dir

end LlmPort.Files
