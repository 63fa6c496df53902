import Mathlib.Data.List.Basic
import Mathlib.Data.List.Nodup
import Mathlib.Data.List.TakeWhile

/-!
# Options on a command line

The long options among the words of a command line, where a command line is put together from
settings: a flag, and the value behind it if it takes one. A value that looks like a flag is read
as an option as well.
-/

namespace LlmPort.Text

/-- The name of an option, whichever of `-` and `_` it is spelled with. -/
def optionName (flag : List Char) : List Char := flag.map fun c => if c = '_' then '-' else c

/-- The long option a word names, if it does. -/
def longOption : List Char → Option (List Char)
  | '-' :: '-' :: name =>
    if name = [] then none else some (optionName (name.takeWhile (· ≠ '=')))
  | _ => none

theorem longOption_flag {key : List Char} (hne : key ≠ []) (hplain : '=' ∉ key) :
    longOption ('-' :: '-' :: key) = some (optionName key) := by
  have hwhole : key.takeWhile (· ≠ '=') = key :=
    List.takeWhile_eq_self_iff.2 fun c hc => decide_eq_true fun heq => hplain (heq ▸ hc)
  rw [longOption, if_neg hne, hwhole]

/-- Without `_` an option is spelled with its name. -/
theorem optionName_eq {key : List Char} (h : '_' ∉ key) : optionName key = key := by
  refine (List.map_congr_left fun c hc => ?_).trans key.map_id
  exact if_neg fun heq : c = '_' => h (heq ▸ hc)

/-- A flag, and the value behind it. -/
structure Setting (W : Type*) where
  flag : W
  value : Option W

section
variable {W N : Type*}

def Setting.words (s : Setting W) : List W := s.flag :: s.value.toList

def wordsOf (settings : List (Setting W)) : List W := settings.flatMap Setting.words

theorem wordsOf_append (settings settings' : List (Setting W)) :
    wordsOf (settings ++ settings') = wordsOf settings ++ wordsOf settings' := List.flatMap_append

theorem wordsOf_filterMap {A : Type*} (make : A → Option (Setting W)) (table : List A) :
    wordsOf (table.filterMap make) = table.flatMap fun a => (make a).elim [] Setting.words := by
  induction table with
  | nil => rfl
  | cons a table ih =>
    rw [List.flatMap_cons, ← ih]
    cases hmake : make a with
    | none =>
      rw [List.filterMap_cons_none hmake]
      rfl
    | some s =>
      rw [List.filterMap_cons_some hmake, wordsOf, List.flatMap_cons]
      rfl

theorem words_of_mem {s : Setting W} {settings : List (Setting W)} (h : s ∈ settings) :
    s.words <:+: wordsOf settings := by
  obtain ⟨before, behind, rfl⟩ := List.append_of_mem h
  rw [wordsOf_append]
  exact ⟨wordsOf before, wordsOf behind, List.append_assoc _ _ _⟩

/-- What is read in the words are the flags, and the values that look like flags. -/
theorem filterMap_wordsOf_perm (read : W → Option N) (settings : List (Setting W)) :
    ((wordsOf settings).filterMap read).Perm
      ((settings.map Setting.flag).filterMap read ++
        (settings.filterMap Setting.value).filterMap read) := by
  induction settings with
  | nil => exact .nil
  | cons s settings ih =>
    have hwords : (wordsOf (s :: settings)).filterMap read =
        ([s.flag].filterMap read ++ s.value.toList.filterMap read) ++
          (wordsOf settings).filterMap read := by
      rw [wordsOf, List.flatMap_cons, List.filterMap_append, Setting.words, ← List.singleton_append,
        List.filterMap_append]
      rfl
    have hflags : ((s :: settings).map Setting.flag).filterMap read =
        [s.flag].filterMap read ++ (settings.map Setting.flag).filterMap read := by
      rw [List.map_cons, ← List.singleton_append, List.filterMap_append]
    have hvalues : ((s :: settings).filterMap Setting.value).filterMap read =
        s.value.toList.filterMap read ++ (settings.filterMap Setting.value).filterMap read := by
      cases hvalue : s.value with
      | none =>
        rw [List.filterMap_cons_none hvalue]
        rfl
      | some value =>
        rw [List.filterMap_cons_some hvalue, ← List.singleton_append, List.filterMap_append]
        rfl
    rw [hwords, hflags, hvalues, List.append_assoc, List.append_assoc]
    refine List.Perm.append_left _ ((ih.append_left _).trans ?_)
    rw [← List.append_assoc, ← List.append_assoc]
    exact List.perm_append_comm.append_right _

/-- No value reads as an option that is set, or that another value reads as. -/
structure ValuesApart (read : W → Option N) (settings : List (Setting W)) : Prop where
  once : ((settings.filterMap Setting.value).filterMap read).Nodup
  apart : ∀ name ∈ (settings.filterMap Setting.value).filterMap read,
    name ∉ (settings.map Setting.flag).filterMap read

theorem nodup_wordsOf_iff {read : W → Option N} {settings : List (Setting W)} :
    ((wordsOf settings).filterMap read).Nodup ↔
      ((settings.map Setting.flag).filterMap read).Nodup ∧ ValuesApart read settings := by
  rw [(filterMap_wordsOf_perm read settings).nodup_iff, List.nodup_append']
  refine and_congr_right fun _ => ⟨fun ⟨honce, happart⟩ => ⟨honce, fun name hvalue hflag => ?_⟩,
    fun h => ⟨h.once, fun name hflag hvalue => h.apart name hvalue hflag⟩⟩
  exact happart hflag hvalue

/-- No option occurs twice, and the settings given are the ones of theirs. -/
structure FlagsUnique (read : W → Option N) (given : List (Setting W)) (cmd : List W) : Prop where
  once : (cmd.filterMap read).Nodup
  present : ∀ s ∈ given, s.words <:+: cmd

/-- The options of settings that are made from the entries of a table. -/
theorem filterMap_flags {A : Type*} {make : A → Option (Setting W)} {read : W → Option N}
    {name : A → N} {table : List A}
    (h : ∀ a ∈ table, ∀ s, make a = some s → read s.flag = some (name a)) :
    ((table.filterMap make).map Setting.flag).filterMap read =
      (table.filter fun a => (make a).isSome).map name := by
  induction table with
  | nil => rfl
  | cons a table ih =>
    have htail := ih fun b hb => h b (List.mem_cons_of_mem _ hb)
    cases hmake : make a with
    | none =>
      rw [List.filterMap_cons_none hmake, List.filter_cons_of_neg (by simp [hmake])]
      exact htail
    | some s =>
      rw [List.filterMap_cons_some hmake, List.filter_cons_of_pos (by simp [hmake]), List.map_cons,
        List.filterMap_cons_some (h a List.mem_cons_self s hmake), List.map_cons, htail]

end

end LlmPort.Text
