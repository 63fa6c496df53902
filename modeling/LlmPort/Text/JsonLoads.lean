import Mathlib.Data.List.TakeWhile
import LlmPort.Text.Json
import LlmPort.Transition.Upsert

/-!
# Reading what has been written

`json.dumps` with `ensure_ascii` on, as it is by default, and `json.loads`: what is written is one
line of printable ASCII characters, and is read back as it was. A string is read as its UTF-16 code
units first; one with a lone surrogate is not read, since no text has it.
-/

namespace LlmPort.Text

open Transition

namespace Json

/-! ## Strings -/

def hexDigit (n : Nat) : Char :=
  "0123456789abcdef".toList.getD n '0'

/-- `'\\u{0:04x}'` -/
def unitEscape (u : Nat) : List Char :=
  ['\\', 'u', hexDigit (u / 4096), hexDigit (u / 256 % 16), hexDigit (u / 16 % 16),
    hexDigit (u % 16)]

/-- The code units of a character. -/
def units (c : Char) : List Nat :=
  if c.toNat < 0x10000 then [c.toNat]
  else [0xd800 + (c.toNat - 0x10000) / 1024, 0xdc00 + (c.toNat - 0x10000) % 1024]

/-- `ESCAPE_DCT` -/
def shortEscapes : List (Char × Char) :=
  [('\\', '\\'), ('"', '"'), (Char.ofNat 8, 'b'), (Char.ofNat 12, 'f'), ('\n', 'n'), ('\r', 'r'),
    ('\t', 't')]

def isPrintable (c : Char) : Bool := 32 ≤ c.toNat ∧ c.toNat < 127

/-- A character between quotes. -/
def asciiEscape (c : Char) : List Char :=
  match shortEscapes.lookup c with
  | some e => ['\\', e]
  | none => if isPrintable c then [c] else (units c).flatMap unitEscape

def asciiQuoted (s : String) : List Char := '"' :: (s.toList.flatMap asciiEscape ++ ['"'])

def hexVal (c : Char) : Option Nat :=
  if '0' ≤ c ∧ c ≤ '9' then some (c.toNat - '0'.toNat)
  else if 'a' ≤ c ∧ c ≤ 'f' then some (c.toNat - 'a'.toNat + 10)
  else if 'A' ≤ c ∧ c ≤ 'F' then some (c.toNat - 'A'.toNat + 10)
  else none

/-- `_decode_uXXXX` -/
def hexUnit (a b c d : Char) : Option Nat := do
  let a ← hexVal a
  let b ← hexVal b
  let c ← hexVal c
  let d ← hexVal d
  return a * 4096 + b * 256 + c * 16 + d

/-- `BACKSLASH` -/
def unescape (e : Char) : Option Char :=
  [('"', '"'), ('\\', '\\'), ('/', '/'), ('b', Char.ofNat 8), ('f', Char.ofNat 12), ('n', '\n'),
    ('r', '\r'), ('t', '\t')].lookup e

/-- The code units up to the closing quote, and what is behind it. -/
def scanUnits : List Char → Option (List Nat × List Char)
  | [] => none
  | '"' :: rest => some ([], rest)
  | '\\' :: 'u' :: a :: b :: c :: d :: rest =>
    (hexUnit a b c d).bind fun u => (scanUnits rest).map fun (us, rest) => (u :: us, rest)
  | '\\' :: e :: rest =>
    (unescape e).bind fun c => (scanUnits rest).map fun (us, rest) => (c.toNat :: us, rest)
  | c :: rest =>
    if c.toNat < 32 then none else (scanUnits rest).map fun (us, rest) => (c.toNat :: us, rest)

def isHigh (u : Nat) : Bool := 0xd800 ≤ u ∧ u < 0xdc00

def isLow (u : Nat) : Bool := 0xdc00 ≤ u ∧ u < 0xe000

/-- The text with the given code units. -/
def joinUnits : List Nat → Option (List Char)
  | [] => some []
  | [u] => if isHigh u || isLow u then none else some [Char.ofNat u]
  | u :: v :: us =>
    if isHigh u && isLow v then
      (joinUnits us).map (Char.ofNat (0x10000 + (u - 0xd800) * 1024 + (v - 0xdc00)) :: ·)
    else if isHigh u || isLow u then none
    else (joinUnits (v :: us)).map (Char.ofNat u :: ·)

/-- `py_scanstring`, behind the opening quote. -/
def scanString (text : List Char) : Option (String × List Char) :=
  (scanUnits text).bind fun (us, rest) => (joinUnits us).map fun s => (String.ofList s, rest)

theorem hexVal_hexDigit : ∀ n < 16, hexVal (hexDigit n) = some n := by decide

theorem isPrintable_hexDigit : ∀ n < 16, isPrintable (hexDigit n) = true := by decide

theorem scanUnits_unitEscape {u : Nat} (hu : u < 0x10000) (rest : List Char) :
    scanUnits (unitEscape u ++ rest) =
      (scanUnits rest).map fun (us, rest) => (u :: us, rest) := by
  have hunit : hexUnit (hexDigit (u / 4096)) (hexDigit (u / 256 % 16)) (hexDigit (u / 16 % 16))
      (hexDigit (u % 16)) = some u := by
    rw [hexUnit, hexVal_hexDigit _ (by omega), hexVal_hexDigit _ (by omega),
      hexVal_hexDigit _ (by omega), hexVal_hexDigit _ (by omega)]
    simp only [Option.bind_eq_bind, Option.bind_some, Option.pure_def, Option.some.injEq]
    omega
  simp only [unitEscape, List.cons_append, List.nil_append, scanUnits, hunit, Option.bind_some]

theorem toNat_valid (c : Char) :
    c.toNat < 0xd800 ∨ 0xdfff < c.toNat ∧ c.toNat < 0x110000 := c.valid

theorem units_lt (c : Char) : ∀ u ∈ units c, u < 0x10000 := by
  have hvalid := toNat_valid c
  unfold units
  split
  next h => simpa using h
  next h =>
    intro u hu
    rcases List.mem_cons.1 hu with hu | hu
    · omega
    · have hlow := List.mem_singleton.1 hu
      omega

theorem scanUnits_unitEscapes {us : List Nat} (hus : ∀ u ∈ us, u < 0x10000) (rest : List Char) :
    scanUnits (us.flatMap unitEscape ++ rest) =
      (scanUnits rest).map fun (vs, rest) => (us ++ vs, rest) := by
  induction us with
  | nil => simp
  | cons u us ih =>
    rw [List.flatMap_cons, List.append_assoc, scanUnits_unitEscape (hus u List.mem_cons_self),
      ih fun v hv => hus v (List.mem_cons_of_mem _ hv), Option.map_map]
    rfl

theorem shortEscapes_valid : ∀ x ∈ shortEscapes, unescape x.2 = some x.1 ∧
    isPrintable x.2 = true ∧ x.2 ≠ 'u' ∧ units x.1 = [x.1.toNat] := by decide

theorem mem_of_lookup {c e : Char} (h : shortEscapes.lookup c = some e) :
    (c, e) ∈ shortEscapes := by
  obtain ⟨before, after, heq, -⟩ := List.lookup_eq_some_iff.1 h
  rw [heq]
  exact List.mem_append_right _ List.mem_cons_self

theorem ne_of_lookup_eq_none {c : Char} (h : shortEscapes.lookup c = none) :
    c ≠ '"' ∧ c ≠ '\\' := by
  constructor
  · rintro rfl
    revert h
    decide
  · rintro rfl
    revert h
    decide

theorem scanUnits_backslash {e c : Char} (hu : e ≠ 'u') (h : unescape e = some c)
    (rest : List Char) : scanUnits ('\\' :: e :: rest) =
      (scanUnits rest).map fun (us, rest) => (c.toNat :: us, rest) := by
  rw [scanUnits, h, Option.bind_some]
  intro a b c d tail he
  exact absurd he hu

theorem scanUnits_plain {c : Char} (hquote : c ≠ '"') (hback : c ≠ '\\') (h : 32 ≤ c.toNat)
    (rest : List Char) : scanUnits (c :: rest) =
      (scanUnits rest).map fun (us, rest) => (c.toNat :: us, rest) := by
  rw [scanUnits, if_neg (by omega)]
  · exact hquote
  · intro a b c d tail he
    exact absurd he hback
  · intro a tail he
    exact absurd he hback

theorem units_of_lt {c : Char} (h : c.toNat < 0x10000) : units c = [c.toNat] := if_pos h

theorem scanUnits_asciiEscape (c : Char) (rest : List Char) :
    scanUnits (asciiEscape c ++ rest) =
      (scanUnits rest).map fun (us, rest) => (units c ++ us, rest) := by
  unfold asciiEscape
  cases hshort : shortEscapes.lookup c with
  | some e =>
    obtain ⟨hun, -, hu, hunits⟩ := shortEscapes_valid _ (mem_of_lookup hshort)
    rw [hunits]
    exact scanUnits_backslash hu hun rest
  | none =>
    dsimp only
    split
    next hprint =>
      obtain ⟨hquote, hback⟩ := ne_of_lookup_eq_none hshort
      have hrange := of_decide_eq_true hprint
      rw [List.singleton_append, scanUnits_plain hquote hback (by omega), units_of_lt (by omega)]
      rfl
    next => exact scanUnits_unitEscapes (units_lt c) rest

theorem isHigh_iff {u : Nat} : isHigh u = true ↔ 0xd800 ≤ u ∧ u < 0xdc00 := decide_eq_true_iff

theorem isLow_iff {u : Nat} : isLow u = true ↔ 0xdc00 ≤ u ∧ u < 0xe000 := decide_eq_true_iff

theorem joinUnits_cons {u : Nat} (hhigh : isHigh u = false) (hlow : isLow u = false)
    (us : List Nat) : joinUnits (u :: us) = (joinUnits us).map (Char.ofNat u :: ·) := by
  cases us with
  | nil => simp [joinUnits, hhigh, hlow]
  | cons v us => simp [joinUnits, hhigh, hlow]

theorem joinUnits_units (c : Char) (us : List Nat) :
    joinUnits (units c ++ us) = (joinUnits us).map (c :: ·) := by
  have hvalid := toNat_valid c
  unfold units
  split
  next h =>
    have hhigh : isHigh c.toNat = false := by
      rw [← Bool.not_eq_true, isHigh_iff]
      omega
    have hlow : isLow c.toNat = false := by
      rw [← Bool.not_eq_true, isLow_iff]
      omega
    rw [List.singleton_append, joinUnits_cons hhigh hlow, Char.ofNat_toNat]
  next h =>
    have hhigh : isHigh (0xd800 + (c.toNat - 0x10000) / 1024) = true := isHigh_iff.2 (by omega)
    have hlow : isLow (0xdc00 + (c.toNat - 0x10000) % 1024) = true := isLow_iff.2 (by omega)
    have hcode : 0x10000 + (0xd800 + (c.toNat - 0x10000) / 1024 - 0xd800) * 1024 +
        (0xdc00 + (c.toNat - 0x10000) % 1024 - 0xdc00) = c.toNat := by omega
    rw [List.cons_append, List.singleton_append, joinUnits, hhigh, hlow, Bool.and_self, if_pos rfl,
      hcode, Char.ofNat_toNat]

theorem joinUnits_flatMap (text : List Char) : joinUnits (text.flatMap units) = some text := by
  induction text with
  | nil => rfl
  | cons c text ih => rw [List.flatMap_cons, joinUnits_units, ih, Option.map_some]

theorem scanUnits_escaped (text rest : List Char) :
    scanUnits (text.flatMap asciiEscape ++ '"' :: rest) = some (text.flatMap units, rest) := by
  induction text with
  | nil => rw [List.flatMap_nil, List.nil_append, scanUnits, List.flatMap_nil]
  | cons c text ih =>
    rw [List.flatMap_cons, List.append_assoc, scanUnits_asciiEscape, ih, Option.map_some,
      List.flatMap_cons]

/-- A string is read back as it was. -/
theorem scanString_escaped (s : String) (rest : List Char) :
    scanString (s.toList.flatMap asciiEscape ++ '"' :: rest) = some (s, rest) := by
  rw [scanString, scanUnits_escaped, Option.bind_some]
  dsimp only
  rw [joinUnits_flatMap, Option.map_some, String.ofList_toList]

theorem isPrintable_unitEscape (u : Nat) (hu : u < 0x10000) :
    ∀ c ∈ unitEscape u, isPrintable c = true := by
  have hhex := isPrintable_hexDigit
  have hback : isPrintable '\\' = true := by decide
  have hletter : isPrintable 'u' = true := by decide
  simp only [unitEscape, List.forall_mem_cons]
  exact ⟨hback, hletter, hhex _ (by omega), hhex _ (by omega), hhex _ (by omega),
    hhex _ (by omega), List.forall_mem_nil _⟩

theorem isPrintable_asciiEscape (c : Char) : ∀ d ∈ asciiEscape c, isPrintable d = true := by
  unfold asciiEscape
  cases hshort : shortEscapes.lookup c with
  | some e =>
    obtain ⟨-, hprint, -⟩ := shortEscapes_valid _ (mem_of_lookup hshort)
    exact List.forall_mem_cons.2 ⟨by decide, List.forall_mem_singleton.2 hprint⟩
  | none =>
    dsimp only
    split
    next hprint => exact List.forall_mem_singleton.2 hprint
    next =>
      intro d hd
      obtain ⟨u, hu, hd⟩ := List.mem_flatMap.1 hd
      exact isPrintable_unitEscape u (units_lt c u hu) d hd

theorem isPrintable_asciiQuoted (s : String) : ∀ d ∈ asciiQuoted s, isPrintable d = true := by
  have hquote : isPrintable '"' = true := by decide
  intro d hd
  rcases List.mem_cons.1 hd with rfl | hd
  · exact hquote
  rcases List.mem_append.1 hd with hd | hd
  · obtain ⟨c, -, hd⟩ := List.mem_flatMap.1 hd
    exact isPrintable_asciiEscape c d hd
  · rw [List.mem_singleton.1 hd]
    exact hquote

/-! ## Values -/

mutual

/-- `json.dumps(value)` -/
def dumpsAscii : Json → List Char
  | null => "null".toList
  | bool b => if b then "true".toList else "false".toList
  | number text => text.toList
  | string s => asciiQuoted s
  | array [] => "[]".toList
  | array (item :: items) => '[' :: (dumpsAscii item ++ asciiItems items)
  | object [] => "{}".toList
  | object ((key, value) :: entries) =>
    '{' :: (asciiQuoted key ++ ':' :: ' ' :: (dumpsAscii value ++ asciiEntries entries))

/-- What stands behind an item of an array. -/
def asciiItems : List Json → List Char
  | [] => [']']
  | item :: items => ',' :: ' ' :: (dumpsAscii item ++ asciiItems items)

/-- What stands behind an entry of an object. -/
def asciiEntries : List (String × Json) → List Char
  | [] => ['}']
  | (key, value) :: entries =>
    ',' :: ' ' :: (asciiQuoted key ++ ':' :: ' ' :: (dumpsAscii value ++ asciiEntries entries))

end

def isWhitespace (c : Char) : Bool := c ∈ [' ', '\t', '\n', '\r']

def skipWs (text : List Char) : List Char := text.dropWhile isWhitespace

/-- A character of a number. -/
def numberChar (c : Char) : Bool := c.isDigit || c ∈ ['-', '+', '.', 'e', 'E']

/-- The end of a number: nothing, or an exponent. -/
def isExponent : List Char → Bool
  | [] => true
  | e :: text =>
    let digits := match text with
      | '+' :: digits => digits
      | '-' :: digits => digits
      | digits => digits
    (e = 'e' || e = 'E') && !digits.isEmpty && digits.all Char.isDigit

/-- What may follow the integer part. -/
def isFraction : List Char → Bool
  | '.' :: text => (text.takeWhile Char.isDigit) ≠ [] && isExponent (text.dropWhile Char.isDigit)
  | text => isExponent text

/-- `NUMBER_RE` -/
def isNumber (text : List Char) : Bool :=
  text.all numberChar &&
    match (match text with | '-' :: rest => rest | rest => rest) with
    | [] => false
    | '0' :: rest => isFraction rest
    | c :: rest => c.isDigit && isFraction (rest.dropWhile Char.isDigit)

/-- The values written as words. -/
def words : List (List Char × Json) :=
  [("null".toList, null), ("true".toList, bool true), ("false".toList, bool false),
    ("NaN".toList, number "NaN"), ("Infinity".toList, number "Infinity"),
    ("-Infinity".toList, number "-Infinity")]

/-- A number or a word. -/
def parseAtom (text : List Char) : Option (Json × List Char) :=
  if isNumber (text.takeWhile numberChar) then
    some (number (String.ofList (text.takeWhile numberChar)), text.dropWhile numberChar)
  else (words.find? fun word => word.1.isPrefixOf text).map fun word =>
    (word.2, text.drop word.1.length)

/-- A key of an object, up to its value. -/
def scanKey : List Char → Option (String × List Char)
  | '"' :: text => (scanString text).bind fun (key, rest) =>
    if (skipWs rest).head? = some ':' then some (key, skipWs (skipWs rest).tail) else none
  | _ => none

/-- A dict of pairs: of a key that occurs again the last value counts. -/
def dictOf (entries : List (String × Json)) : JsonObject :=
  entries.foldl (fun dict entry => upsert (·.1) entry (fun _ => entry) dict) []

mutual

/-- `scan_once`. Each call it makes gets a shorter text, so that as much fuel as there are
characters is enough. -/
def parseValue : Nat → List Char → Option (Json × List Char)
  | 0, _ => none
  | _ + 1, '"' :: text => (scanString text).map fun (s, rest) => (string s, rest)
  | fuel + 1, '[' :: text =>
    if (skipWs text).head? = some ']' then some (array [], (skipWs text).tail)
    else (parseValue fuel (skipWs text)).bind fun (item, rest) =>
      (parseItems fuel rest).map fun (items, rest) => (array (item :: items), rest)
  | fuel + 1, '{' :: text =>
    if (skipWs text).head? = some '}' then some (object [], (skipWs text).tail)
    else (scanKey (skipWs text)).bind fun (key, rest) =>
      (parseValue fuel rest).bind fun (value, rest) =>
        (parseEntries fuel rest).map fun (entries, rest) =>
          (object (dictOf ((key, value) :: entries)), rest)
  | _ + 1, text => parseAtom text

/-- Behind an item of an array. -/
def parseItems : Nat → List Char → Option (List Json × List Char)
  | 0, _ => none
  | fuel + 1, text =>
    if (skipWs text).head? = some ']' then some ([], (skipWs text).tail)
    else if (skipWs text).head? = some ',' then
      (parseValue fuel (skipWs (skipWs text).tail)).bind fun (item, rest) =>
        (parseItems fuel rest).map fun (items, rest) => (item :: items, rest)
    else none

/-- Behind an entry of an object. -/
def parseEntries : Nat → List Char → Option (List (String × Json) × List Char)
  | 0, _ => none
  | fuel + 1, text =>
    if (skipWs text).head? = some '}' then some ([], (skipWs text).tail)
    else if (skipWs text).head? = some ',' then
      (scanKey (skipWs (skipWs text).tail)).bind fun (key, rest) =>
        (parseValue fuel rest).bind fun (value, rest) =>
          (parseEntries fuel rest).map fun (entries, rest) => ((key, value) :: entries, rest)
    else none

end

/-- `json.loads(text)`, `none` where it raises. -/
def loads (text : List Char) : Option Json :=
  (parseValue (text.length + 1) (skipWs text)).bind fun (value, rest) =>
    if skipWs rest = [] then some value else none

mutual

/-- A value of Python: its numbers are ones, and its dicts have each key once. -/
def wellFormed : Json → Bool
  | null => true
  | bool _ => true
  | number text => isNumber text.toList || text ∈ ["NaN", "Infinity", "-Infinity"]
  | string _ => true
  | array items => allWellFormed items
  | object entries => decide (entries.map (·.1)).Nodup && entriesWellFormed entries

def allWellFormed : List Json → Bool
  | [] => true
  | item :: items => wellFormed item && allWellFormed items

def entriesWellFormed : List (String × Json) → Bool
  | [] => true
  | (_, value) :: entries => wellFormed value && entriesWellFormed entries

end

/-! ## The round trip -/

/-- What follows does not go on with a number. -/
def NumberEnds (rest : List Char) : Prop := ∀ c ∈ rest.head?, numberChar c = false

theorem numberEnds_nil : NumberEnds [] := by
  intro c hc
  cases hc

theorem numberEnds_cons {c : Char} {rest : List Char} (h : numberChar c = false) :
    NumberEnds (c :: rest) := by
  intro d hd
  rwa [Option.mem_some_iff.1 hd] at h

theorem numberEnds_asciiItems (items : List Json) (rest : List Char) :
    NumberEnds (asciiItems items ++ rest) := by
  cases items with
  | nil => exact numberEnds_cons (by decide)
  | cons item items => exact numberEnds_cons (by decide)

theorem numberEnds_asciiEntries (entries : List (String × Json)) (rest : List Char) :
    NumberEnds (asciiEntries entries ++ rest) := by
  cases entries with
  | nil => exact numberEnds_cons (by decide)
  | cons entry entries => exact numberEnds_cons (by decide)

theorem takeWhile_numberChar {text rest : List Char} (h : text.all numberChar = true)
    (hrest : NumberEnds rest) : (text ++ rest).takeWhile numberChar = text ∧
      (text ++ rest).dropWhile numberChar = rest := by
  have hall := List.all_eq_true.1 h
  rw [List.takeWhile_append_of_pos hall, List.dropWhile_append_of_pos hall]
  cases rest with
  | nil => exact ⟨List.append_nil text, rfl⟩
  | cons c rest =>
    have hc : numberChar c = false := hrest c rfl
    rw [List.takeWhile_cons_of_neg (by simp [hc]), List.dropWhile_cons_of_neg (by simp [hc])]
    exact ⟨List.append_nil text, rfl⟩

theorem all_numberChar_of_isNumber {text : List Char} (h : isNumber text = true) :
    text.all numberChar = true := (Bool.and_eq_true_iff.1 h).1

theorem isNumber_nil : isNumber [] = false := rfl

theorem isNumber_minus : isNumber ['-'] = false := by decide

theorem parseAtom_number {text rest : List Char} (h : isNumber text = true)
    (hrest : NumberEnds rest) :
    parseAtom (text ++ rest) = some (number (String.ofList text), rest) := by
  obtain ⟨htake, hdrop⟩ := takeWhile_numberChar (all_numberChar_of_isNumber h) hrest
  rw [parseAtom, htake, hdrop, if_pos h]

theorem parseAtom_word (rest : List Char) : ∀ word ∈ words,
    parseAtom (word.1 ++ rest) = some (word.2, rest) := by
  simp only [words, List.forall_mem_cons]
  exact ⟨rfl, rfl, rfl, rfl, rfl, rfl, List.forall_mem_nil _⟩

theorem parseValue_atom {c : Char} {text : List Char} {fuel : Nat} (h : c ∉ ['"', '[', '{']) :
    parseValue (fuel + 1) (c :: text) = parseAtom (c :: text) := by
  simp only [List.mem_cons, List.not_mem_nil, or_false, not_or] at h
  rw [parseValue]
  · intro t he
    exact h.1 (List.head_eq_of_cons_eq he)
  · intro t he
    exact h.2.1 (List.head_eq_of_cons_eq he)
  · intro t he
    exact h.2.2 (List.head_eq_of_cons_eq he)

/-- No white space, and no delimiter. -/
def opens (c : Char) : Bool := !isWhitespace c && c ∉ [']', '}', ',', ':']

theorem opens_of_numberChar {c : Char} (h : numberChar c = true) :
    opens c = true ∧ c ∉ ['"', '[', '{'] := by
  have hclosers : [' ', '\t', '\n', '\r', ']', '}', ',', ':', '"', '[', '{'].all
      (fun d => !numberChar d) = true := by decide
  have hc : c ∉ [' ', '\t', '\n', '\r', ']', '}', ',', ':', '"', '[', '{'] := by
    intro hmem
    have hnot := List.all_eq_true.1 hclosers c hmem
    rw [h] at hnot
    cases hnot
  simp only [opens, isWhitespace, List.mem_cons, List.not_mem_nil, or_false, not_or] at hc ⊢
  simp [hc]

theorem skipWs_cons {c : Char} {text : List Char} (h : opens c = true) :
    skipWs (c :: text) = c :: text := by
  have hspace : ¬ isWhitespace c = true := by
    simpa using (Bool.and_eq_true_iff.1 h).1
  rw [skipWs, List.dropWhile_cons_of_neg hspace]

theorem ne_of_opens {c : Char} (h : opens c = true) : c ≠ ']' := by
  rintro rfl
  revert h
  decide

theorem words_open : ∀ word ∈ words, ∃ c text, word.1 = c :: text ∧ opens c = true ∧
    c ∉ ['"', '[', '{'] := by
  simp only [words, List.forall_mem_cons]
  refine ⟨⟨_, _, rfl, ?_⟩, ⟨_, _, rfl, ?_⟩, ⟨_, _, rfl, ?_⟩, ⟨_, _, rfl, ?_⟩, ⟨_, _, rfl, ?_⟩,
    ⟨_, _, rfl, ?_⟩, List.forall_mem_nil _⟩ <;> decide

/-- What is no string, array or object is written as a number or a word. -/
inductive Atom : Json → List Char → Prop
  | number {text : String} : isNumber text.toList = true → Atom (number text) text.toList
  | word (word : List Char × Json) : word ∈ words → Atom word.2 word.1

theorem Atom.parse {j : Json} {text rest : List Char} (h : Atom j text) (hrest : NumberEnds rest) :
    parseAtom (text ++ rest) = some (j, rest) := by
  cases h with
  | number h => rw [parseAtom_number h hrest, String.ofList_toList]
  | word word h => exact parseAtom_word rest word h

theorem Atom.head {j : Json} {text : List Char} (h : Atom j text) :
    ∃ c tail, text = c :: tail ∧ opens c = true ∧ c ∉ ['"', '[', '{'] := by
  cases h with
  | @number text h =>
    cases htext : text.toList with
    | nil =>
      rw [htext] at h
      cases h
    | cons c tail =>
      have hall := all_numberChar_of_isNumber h
      rw [htext] at hall
      exact ⟨c, tail, rfl, opens_of_numberChar (Bool.and_eq_true_iff.1 hall).1⟩
  | word word h => exact words_open word h

theorem Atom.value {j : Json} {text rest : List Char} {fuel : Nat} (h : Atom j text)
    (hfuel : text.length ≤ fuel) (hrest : NumberEnds rest) :
    parseValue fuel (text ++ rest) = some (j, rest) := by
  obtain ⟨c, tail, rfl, -, hc⟩ := h.head
  obtain ⟨fuel, rfl⟩ : ∃ n, fuel = n + 1 := Nat.exists_eq_succ_of_ne_zero (by
    rw [List.length_cons] at hfuel
    omega)
  rw [List.cons_append, parseValue_atom hc]
  exact h.parse hrest

theorem atom_null : Atom null (dumpsAscii null) := .word ("null".toList, null) (by decide)

theorem atom_bool (b : Bool) : Atom (bool b) (dumpsAscii (bool b)) := by
  cases b with
  | false => exact .word ("false".toList, bool false) (by decide)
  | true => exact .word ("true".toList, bool true) (by decide)

theorem atom_number {text : String} (h : wellFormed (number text) = true) :
    Atom (number text) (dumpsAscii (number text)) := by
  rw [wellFormed, Bool.or_eq_true] at h
  rw [dumpsAscii]
  rcases h with h | h
  · exact .number h
  · have hword : (text.toList, number text) ∈ words := by
      simp only [decide_eq_true_eq, List.mem_cons, List.not_mem_nil, or_false] at h
      rcases h with rfl | rfl | rfl
      · decide
      · decide
      · decide
    exact .word _ hword

theorem dumpsAscii_head (j : Json) (h : wellFormed j = true) :
    ∃ c tail, dumpsAscii j = c :: tail ∧ opens c = true := by
  have hatom {j : Json} (h : Atom j (dumpsAscii j)) :
      ∃ c tail, dumpsAscii j = c :: tail ∧ opens c = true := by
    obtain ⟨c, tail, htext, hc, -⟩ := h.head
    exact ⟨c, tail, htext, hc⟩
  cases j with
  | null => exact hatom atom_null
  | bool b => exact hatom (atom_bool b)
  | number text => exact hatom (atom_number h)
  | string s => exact ⟨_, _, rfl, by decide⟩
  | array items =>
    cases items with
    | nil => exact ⟨_, _, rfl, by decide⟩
    | cons item items => exact ⟨_, _, rfl, by decide⟩
  | object entries =>
    cases entries with
    | nil => exact ⟨_, _, rfl, by decide⟩
    | cons entry entries => exact ⟨_, _, rfl, by decide⟩

theorem scanKey_dumps (key : String) {c : Char} (tail : List Char) (hc : opens c = true) :
    scanKey (asciiQuoted key ++ ':' :: ' ' :: c :: tail) = some (key, c :: tail) := by
  have hcolon : skipWs (':' :: ' ' :: c :: tail) = ':' :: ' ' :: c :: tail := rfl
  have hspace : skipWs (' ' :: c :: tail) = c :: tail := skipWs_cons hc
  rw [asciiQuoted, List.cons_append, List.append_assoc, List.singleton_append, scanKey,
    scanString_escaped, Option.bind_some]
  dsimp only
  rw [hcolon, List.head?_cons, if_pos rfl, List.tail_cons, hspace]

theorem foldl_upsert_of_nodup (dict : List (String × Json)) {entries : List (String × Json)}
    (h : ((dict ++ entries).map (·.1)).Nodup) :
    entries.foldl (fun dict entry => upsert (·.1) entry (fun _ => entry) dict) dict =
      dict ++ entries := by
  induction entries generalizing dict with
  | nil => exact (List.append_nil dict).symm
  | cons entry entries ih =>
    have hnew : entry.1 ∉ dict.map (·.1) := by
      rw [List.map_append, List.nodup_append] at h
      intro hmem
      exact h.2.2 _ hmem _ List.mem_cons_self rfl
    rw [List.foldl_cons, upsert_of_new hnew, ih, List.append_assoc, List.singleton_append]
    rwa [List.append_assoc, List.singleton_append]

theorem dictOf_of_nodup {entries : List (String × Json)} (h : (entries.map (·.1)).Nodup) :
    dictOf entries = entries := foldl_upsert_of_nodup [] h

theorem parseValue_string (s : String) (rest : List Char) {fuel : Nat}
    (hfuel : (asciiQuoted s).length ≤ fuel) :
    parseValue fuel (asciiQuoted s ++ rest) = some (string s, rest) := by
  cases fuel with
  | zero => simp [asciiQuoted] at hfuel
  | succ fuel =>
    rw [asciiQuoted, List.cons_append, List.append_assoc, List.singleton_append, parseValue,
      scanString_escaped, Option.map_some]

theorem skipWs_dumps {j : Json} (h : wellFormed j = true) (rest : List Char) :
    skipWs (dumpsAscii j ++ rest) = dumpsAscii j ++ rest := by
  obtain ⟨c, tail, htext, hc⟩ := dumpsAscii_head j h
  rw [htext, List.cons_append, skipWs_cons hc]

theorem head?_dumps_ne {j : Json} (h : wellFormed j = true) (rest : List Char) :
    (dumpsAscii j ++ rest).head? ≠ some ']' := by
  obtain ⟨c, tail, htext, hc⟩ := dumpsAscii_head j h
  rw [htext, List.cons_append, List.head?_cons]
  exact fun he => ne_of_opens hc (Option.some.inj he)

/-- A key is read up to its value. -/
theorem scanKey_entry (key : String) {value : Json} (h : wellFormed value = true)
    (rest : List Char) :
    scanKey (asciiQuoted key ++ ':' :: ' ' :: (dumpsAscii value ++ rest)) =
      some (key, dumpsAscii value ++ rest) := by
  obtain ⟨c, tail, htext, hc⟩ := dumpsAscii_head value h
  rw [htext, List.cons_append, scanKey_dumps key _ hc]

theorem skipWs_asciiQuoted (key : String) (rest : List Char) :
    skipWs (asciiQuoted key ++ rest) = asciiQuoted key ++ rest := rfl

/-- Behind an item, where another one is. -/
theorem parseItems_comma (fuel : Nat) (text : List Char) :
    parseItems (fuel + 1) (',' :: ' ' :: text) =
      (parseValue fuel (skipWs text)).bind fun (item, rest) =>
        (parseItems fuel rest).map fun (items, rest) => (item :: items, rest) := rfl

theorem parseEntries_comma (fuel : Nat) (text : List Char) :
    parseEntries (fuel + 1) (',' :: ' ' :: text) =
      (scanKey (skipWs text)).bind fun (key, rest) =>
        (parseValue fuel rest).bind fun (value, rest) =>
          (parseEntries fuel rest).map fun (entries, rest) => ((key, value) :: entries, rest) := rfl

theorem parseValue_brace (fuel : Nat) (key : String) (text : List Char) :
    parseValue (fuel + 1) ('{' :: (asciiQuoted key ++ text)) =
      (scanKey (asciiQuoted key ++ text)).bind fun (key, rest) =>
        (parseValue fuel rest).bind fun (value, rest) =>
          (parseEntries fuel rest).map fun (entries, rest) =>
            (object (dictOf ((key, value) :: entries)), rest) := rfl

mutual

/-- A value is read back as it was. -/
theorem parseValue_dumps : ∀ (j : Json) (fuel : Nat) (rest : List Char), wellFormed j = true →
    (dumpsAscii j).length ≤ fuel → NumberEnds rest →
    parseValue fuel (dumpsAscii j ++ rest) = some (j, rest)
  | null, _, _, _, hfuel, hrest => atom_null.value hfuel hrest
  | bool b, _, _, _, hfuel, hrest => (atom_bool b).value hfuel hrest
  | number _, _, _, h, hfuel, hrest => (atom_number h).value hfuel hrest
  | string s, _, rest, _, hfuel, _ => parseValue_string s rest hfuel
  | array [], fuel, rest, _, hfuel, _ => by
    cases fuel with
    | zero => cases hfuel
    | succ fuel => rfl
  | array (item :: items), fuel, rest, h, hfuel, _ => by
    rw [wellFormed, allWellFormed, Bool.and_eq_true] at h
    rw [dumpsAscii, List.length_cons, List.length_append] at hfuel
    cases fuel with
    | zero => omega
    | succ fuel =>
      have hitem := parseValue_dumps item fuel (asciiItems items ++ rest) h.1 (by omega)
        (numberEnds_asciiItems items rest)
      have hitems := parseItems_dumps items fuel rest h.2 (by omega)
      rw [dumpsAscii, List.cons_append, List.append_assoc, parseValue, skipWs_dumps h.1,
        if_neg (head?_dumps_ne h.1 _), hitem, Option.bind_some]
      dsimp only
      rw [hitems, Option.map_some]
  | object [], fuel, rest, _, hfuel, _ => by
    cases fuel with
    | zero => cases hfuel
    | succ fuel => rfl
  | object ((key, value) :: entries), fuel, rest, h, hfuel, _ => by
    rw [wellFormed, entriesWellFormed, Bool.and_eq_true, Bool.and_eq_true] at h
    obtain ⟨hkeys, hvalue, hentries⟩ := h
    rw [dumpsAscii, List.length_cons, List.length_append, List.length_cons, List.length_cons,
      List.length_append] at hfuel
    cases fuel with
    | zero => omega
    | succ fuel =>
      have hread := parseValue_dumps value fuel (asciiEntries entries ++ rest) hvalue (by omega)
        (numberEnds_asciiEntries entries rest)
      have hbehind := parseEntries_dumps entries fuel rest hentries (by omega)
      rw [dumpsAscii, List.cons_append, List.append_assoc, List.cons_append, List.cons_append,
        List.append_assoc, parseValue_brace, scanKey_entry key hvalue, Option.bind_some]
      dsimp only
      rw [hread, Option.bind_some]
      dsimp only
      rw [hbehind, Option.map_some, dictOf_of_nodup (of_decide_eq_true hkeys)]

/-- The items of an array are. -/
theorem parseItems_dumps : ∀ (items : List Json) (fuel : Nat) (rest : List Char),
    allWellFormed items = true → (asciiItems items).length ≤ fuel →
    parseItems fuel (asciiItems items ++ rest) = some (items, rest)
  | [], fuel, rest, _, hfuel => by
    cases fuel with
    | zero => cases hfuel
    | succ fuel => rfl
  | item :: items, fuel, rest, h, hfuel => by
    rw [allWellFormed, Bool.and_eq_true] at h
    rw [asciiItems, List.length_cons, List.length_cons, List.length_append] at hfuel
    cases fuel with
    | zero => omega
    | succ fuel =>
      have hitem := parseValue_dumps item fuel (asciiItems items ++ rest) h.1 (by omega)
        (numberEnds_asciiItems items rest)
      have hitems := parseItems_dumps items fuel rest h.2 (by omega)
      rw [asciiItems, List.cons_append, List.cons_append, List.append_assoc, parseItems_comma,
        skipWs_dumps h.1, hitem, Option.bind_some]
      dsimp only
      rw [hitems, Option.map_some]

/-- And the entries of an object. -/
theorem parseEntries_dumps : ∀ (entries : List (String × Json)) (fuel : Nat) (rest : List Char),
    entriesWellFormed entries = true → (asciiEntries entries).length ≤ fuel →
    parseEntries fuel (asciiEntries entries ++ rest) = some (entries, rest)
  | [], fuel, rest, _, hfuel => by
    cases fuel with
    | zero => cases hfuel
    | succ fuel => rfl
  | (key, value) :: entries, fuel, rest, h, hfuel => by
    rw [entriesWellFormed, Bool.and_eq_true] at h
    rw [asciiEntries, List.length_cons, List.length_cons, List.length_append, List.length_cons,
      List.length_cons, List.length_append] at hfuel
    cases fuel with
    | zero => omega
    | succ fuel =>
      have hread := parseValue_dumps value fuel (asciiEntries entries ++ rest) h.1 (by omega)
        (numberEnds_asciiEntries entries rest)
      have hbehind := parseEntries_dumps entries fuel rest h.2 (by omega)
      rw [asciiEntries, List.cons_append, List.cons_append, List.append_assoc, List.cons_append,
        List.cons_append, List.append_assoc, parseEntries_comma, skipWs_asciiQuoted,
        scanKey_entry key h.1, Option.bind_some]
      dsimp only
      rw [hread, Option.bind_some]
      dsimp only
      rw [hbehind, Option.map_some]

end

/-- What is written is read back as it was. -/
theorem loads_dumps {j : Json} (h : wellFormed j = true) : loads (dumpsAscii j) = some j := by
  have hskip := skipWs_dumps h []
  have hread := parseValue_dumps j ((dumpsAscii j).length + 1) [] h (Nat.le_succ _) numberEnds_nil
  rw [List.append_nil] at hskip hread
  rw [loads, hskip, hread, Option.bind_some]
  rfl

/-! ## One line of printable characters -/

theorem isPrintable_of_numberChar {c : Char} (h : numberChar c = true) : isPrintable c = true := by
  rw [numberChar, Bool.or_eq_true] at h
  rcases h with h | h
  · obtain ⟨hlow, hhigh⟩ := Char.isDigit_iff_toNat.1 h
    have hzero : '0'.toNat = 48 := rfl
    have hnine : '9'.toNat = 57 := rfl
    exact decide_eq_true (by omega)
  · have hother : ['-', '+', '.', 'e', 'E'].all isPrintable = true := by decide
    exact List.all_eq_true.1 hother c (of_decide_eq_true h)

theorem Atom.printable {j : Json} {text : List Char} (h : Atom j text) :
    ∀ c ∈ text, isPrintable c = true := by
  cases h with
  | number h =>
    have hall := List.all_eq_true.1 (all_numberChar_of_isNumber h)
    exact fun c hc => isPrintable_of_numberChar (hall c hc)
  | word word h =>
    have hwords : words.all (fun word => word.1.all isPrintable) = true := by decide
    exact List.all_eq_true.1 (List.all_eq_true.1 hwords word h)

mutual

theorem isPrintable_dumps : ∀ j : Json, wellFormed j = true →
    (dumpsAscii j).all isPrintable = true
  | null, _ => List.all_eq_true.2 atom_null.printable
  | bool b, _ => List.all_eq_true.2 (atom_bool b).printable
  | number _, h => List.all_eq_true.2 (atom_number h).printable
  | string s, _ => List.all_eq_true.2 (isPrintable_asciiQuoted s)
  | array [], _ => rfl
  | array (item :: items), h => by
    rw [wellFormed, allWellFormed, Bool.and_eq_true] at h
    rw [dumpsAscii, List.all_cons, List.all_append, isPrintable_dumps item h.1,
      isPrintable_asciiItems items h.2]
    rfl
  | object [], _ => rfl
  | object ((key, value) :: entries), h => by
    rw [wellFormed, entriesWellFormed, Bool.and_eq_true, Bool.and_eq_true] at h
    have hkey := List.all_eq_true.2 (isPrintable_asciiQuoted key)
    rw [dumpsAscii, List.all_cons, List.all_append, List.all_cons, List.all_cons, List.all_append,
      hkey, isPrintable_dumps value h.2.1, isPrintable_asciiEntries entries h.2.2]
    rfl

theorem isPrintable_asciiItems : ∀ items : List Json, allWellFormed items = true →
    (asciiItems items).all isPrintable = true
  | [], _ => rfl
  | item :: items, h => by
    rw [allWellFormed, Bool.and_eq_true] at h
    rw [asciiItems, List.all_cons, List.all_cons, List.all_append, isPrintable_dumps item h.1,
      isPrintable_asciiItems items h.2]
    rfl

theorem isPrintable_asciiEntries : ∀ entries : List (String × Json),
    entriesWellFormed entries = true → (asciiEntries entries).all isPrintable = true
  | [], _ => rfl
  | (key, value) :: entries, h => by
    rw [entriesWellFormed, Bool.and_eq_true] at h
    have hkey := List.all_eq_true.2 (isPrintable_asciiQuoted key)
    rw [asciiEntries, List.all_cons, List.all_cons, List.all_append, List.all_cons, List.all_cons,
      List.all_append, hkey, isPrintable_dumps value h.1, isPrintable_asciiEntries entries h.2]
    rfl

end

/-! ## What a parser gives -/

/-- A value that Python can hold. -/
abbrev Value := {j : Json // wellFormed j = true}

theorem wellFormed_object {entries : List (String × Json)} (hkeys : (entries.map (·.1)).Nodup)
    (hvalues : entriesWellFormed entries = true) : wellFormed (object entries) = true := by
  rw [wellFormed, hvalues, Bool.and_true]
  exact decide_eq_true hkeys

theorem wellFormed_of_lookup {entries : List (String × Json)} (h : entriesWellFormed entries = true)
    {key : String} {value : Json} (hlookup : entries.lookup key = some value) :
    wellFormed value = true := by
  induction entries with
  | nil => cases hlookup
  | cons entry entries ih =>
    obtain ⟨k, v⟩ := entry
    rw [entriesWellFormed, Bool.and_eq_true] at h
    rw [List.lookup_cons] at hlookup
    split at hlookup
    next => exact Option.some.inj hlookup ▸ h.1
    next => exact ih h.2 hlookup

/-- Only zero starts with a zero. -/
theorem toDigits_head (n : Nat) : ∃ c digits, Nat.toDigits 10 n = c :: digits ∧
    (c = '0' → n = 0) := by
  induction n using Nat.strongRecOn with
  | ind n ih =>
    rcases Nat.lt_or_ge n 10 with hlt | hge
    · have hdigit : ∀ n < 10, n.digitChar = '0' → n = 0 := by decide
      exact ⟨_, [], Nat.toDigits_of_lt_base hlt, hdigit n hlt⟩
    · obtain ⟨c, digits, hdigits, hzero⟩ := ih (n / 10) (by omega)
      refine ⟨c, digits ++ [(n % 10).digitChar], ?_, fun hc => ?_⟩
      · rw [Nat.toDigits_of_base_le (by decide) hge, hdigits, List.cons_append]
      · have hquot := hzero hc
        omega

theorem isNumber_digits {c : Char} {digits : List Char} (hzero : c ≠ '0')
    (hdigits : ∀ d ∈ c :: digits, d.isDigit = true) : isNumber (c :: digits) = true := by
  have hall : (c :: digits).all numberChar = true := by
    refine List.all_eq_true.2 fun d hd => ?_
    rw [numberChar, hdigits d hd, Bool.true_or]
  have hhead := hdigits c List.mem_cons_self
  have hminus : c ≠ '-' := by
    rintro rfl
    cases hhead
  have htail : digits.dropWhile Char.isDigit = [] := by
    rw [List.dropWhile_eq_nil_iff]
    exact fun d hd => hdigits d (List.mem_cons_of_mem _ hd)
  simp [isNumber, hall, hhead, htail, isFraction, isExponent, hminus]

/-- A natural number is written as a number. -/
theorem isNumber_toDigits (n : Nat) : isNumber (Nat.toDigits 10 n) = true := by
  obtain ⟨c, digits, hdigits, hzero⟩ := toDigits_head n
  rcases eq_or_ne c '0' with hc | hc
  · rw [hzero hc]
    rfl
  · rw [hdigits]
    apply isNumber_digits hc
    rw [← hdigits]
    exact fun d hd => Nat.isDigit_of_mem_toDigits (by decide) (by decide) hd

theorem wellFormed_nat (n : Nat) : wellFormed (number n.repr) = true := by
  rw [wellFormed, Nat.toList_repr, isNumber_toDigits, Bool.true_or]

/-! ## Objects stand between braces -/

theorem asciiEntries_eq (entries : List (String × Json)) :
    ∃ text, asciiEntries entries = text ++ ['}'] := by
  induction entries with
  | nil => exact ⟨[], rfl⟩
  | cons entry entries ih =>
    obtain ⟨text, htext⟩ := ih
    rw [asciiEntries, htext]
    exact ⟨',' :: ' ' :: (asciiQuoted entry.1 ++ ':' :: ' ' :: (dumpsAscii entry.2 ++ text)),
      by simp⟩

theorem dumpsAscii_object (entries : List (String × Json)) :
    ∃ text, dumpsAscii (object entries) = '{' :: (text ++ ['}']) := by
  cases entries with
  | nil => exact ⟨[], rfl⟩
  | cons entry entries =>
    obtain ⟨text, htext⟩ := asciiEntries_eq entries
    rw [dumpsAscii, htext]
    exact ⟨asciiQuoted entry.1 ++ ':' :: ' ' :: (dumpsAscii entry.2 ++ text), by simp⟩

end Json

end LlmPort.Text
