/-!
# JSON values

Values as one program writes them and another reads them, and the text `json.dumps` makes of one
with `ensure_ascii` off.
-/

namespace LlmPort.Text

/-- A number is kept as the text it is written with, an object as its entries in order. -/
inductive Json where
  | null
  | bool (b : Bool)
  | number (text : String)
  | string (s : String)
  | array (items : List Json)
  | object (entries : List (String × Json))

abbrev JsonObject := List (String × Json)

namespace Json

/-- Four hexadecimal digits. -/
def hex4 (n : Nat) : List Char :=
  let digits := Nat.toDigits 16 n
  List.replicate (4 - digits.length) '0' ++ digits

/-- A character between quotes. -/
def escape (c : Char) : List Char :=
  if c = '"' then ['\\', '"']
  else if c = '\\' then ['\\', '\\']
  else if c = '\n' then ['\\', 'n']
  else if c = '\r' then ['\\', 'r']
  else if c = '\t' then ['\\', 't']
  else if c.toNat = 8 then ['\\', 'b']
  else if c.toNat = 12 then ['\\', 'f']
  else if c.toNat < 32 then '\\' :: 'u' :: hex4 c.toNat
  else [c]

def quoted (s : String) : List Char := '"' :: (s.toList.flatMap escape ++ ['"'])

mutual

/-- `json.dumps(value, ensure_ascii=False)` -/
def dumps : Json → List Char
  | null => "null".toList
  | bool b => if b then "true".toList else "false".toList
  | number text => text.toList
  | string s => quoted s
  | array items => '[' :: (", ".toList.intercalate (dumpsItems items) ++ [']'])
  | object entries => '{' :: (", ".toList.intercalate (dumpsEntries entries) ++ ['}'])

def dumpsItems : List Json → List (List Char)
  | [] => []
  | item :: items => dumps item :: dumpsItems items

def dumpsEntries : List (String × Json) → List (List Char)
  | [] => []
  | (key, value) :: entries => (quoted key ++ ':' :: ' ' :: dumps value) :: dumpsEntries entries

end

/-- `bool(value)`, with numbers as `repr` writes them. -/
def truthy : Json → Bool
  | null => false
  | bool b => b
  | number text => text ∉ ["0", "0.0", "-0.0"]
  | string s => !s.isEmpty
  | array items => !items.isEmpty
  | object entries => !entries.isEmpty

/-- `d.get(key)` of a value that is a dict. -/
def get? (key : String) : Json → Option Json
  | object entries => entries.lookup key
  | _ => none

/-! ## Equality -/

mutual

def decEq : (a b : Json) → Decidable (a = b)
  | null, null => .isTrue rfl
  | bool b, bool c => decidable_of_iff (b = c) (by simp)
  | number b, number c => decidable_of_iff (b = c) (by simp)
  | string b, string c => decidable_of_iff (b = c) (by simp)
  | array xs, array ys => @decidable_of_iff _ _ (by simp) (decEqItems xs ys)
  | object xs, object ys => @decidable_of_iff _ _ (by simp) (decEqEntries xs ys)
  | null, bool _ | null, number _ | null, string _ | null, array _ | null, object _
  | bool _, null | bool _, number _ | bool _, string _ | bool _, array _ | bool _, object _
  | number _, null | number _, bool _ | number _, string _ | number _, array _
  | number _, object _
  | string _, null | string _, bool _ | string _, number _ | string _, array _
  | string _, object _
  | array _, null | array _, bool _ | array _, number _ | array _, string _ | array _, object _
  | object _, null | object _, bool _ | object _, number _ | object _, string _
  | object _, array _ => .isFalse (by simp)

def decEqItems : (xs ys : List Json) → Decidable (xs = ys)
  | [], [] => .isTrue rfl
  | [], _ :: _ | _ :: _, [] => .isFalse (by simp)
  | x :: xs, y :: ys =>
    have := decEq x y
    have := decEqItems xs ys
    decidable_of_iff (x = y ∧ xs = ys) (by simp)

def decEqEntries : (xs ys : List (String × Json)) → Decidable (xs = ys)
  | [], [] => .isTrue rfl
  | [], _ :: _ | _ :: _, [] => .isFalse (by simp)
  | (k, x) :: xs, (l, y) :: ys =>
    have := decEq x y
    have := decEqEntries xs ys
    decidable_of_iff (k = l ∧ x = y ∧ xs = ys) (by simp [and_assoc])

end

instance : DecidableEq Json := decEq

end Json

end LlmPort.Text
