import Mathlib.Algebra.Order.BigOperators.Group.List
import Mathlib.Algebra.Order.Group.Nat
import LlmPort.Text.JsonWeight
import LlmPort.Text.Replace

/-!
# JSON documents with places for values

A document as `json.dumps(document, indent=2)` lays it out, with places for values within its
strings. What is put in such a place comes out of the document as it was put in exactly if it needs
no escape.
-/

namespace LlmPort.Text

open Json

inductive Document (ι : Type) where
  /-- A number or a word. -/
  | atom (text : List Char) (value : Json) (valid : Atom value text)
  | string (pieces : List (Piece Char ι))
  | array (items : List (Document ι))
  | object (entries : List (String × Document ι))

namespace Document

variable {ι : Type}

def newline (n : Nat) : List Char := '\n' :: List.replicate (2 * n) ' '

/-- A piece of a string; what is put in is not escaped. -/
def escaped : Piece Char ι → Piece Char ι
  | .text l => .text (l.flatMap escape)
  | .value i => .value i

mutual

/-- The text of the document, `n` levels deep. -/
def layout (n : Nat) : Document ι → List (Piece Char ι)
  | atom text _ _ => [.text text]
  | string pieces => .text ['"'] :: (pieces.map escaped ++ [.text ['"']])
  | array [] => [.text ['[', ']']]
  | array (item :: items) =>
    .text ('[' :: newline (n + 1)) :: (item.layout (n + 1) ++ layoutItems n items)
  | object [] => [.text ['{', '}']]
  | object ((key, item) :: entries) =>
    .text ('{' :: (newline (n + 1) ++ (quoted key ++ [':', ' ']))) ::
      (item.layout (n + 1) ++ layoutEntries n entries)

/-- What stands behind an item. -/
def layoutItems (n : Nat) : List (Document ι) → List (Piece Char ι)
  | [] => [.text (newline n ++ [']'])]
  | item :: items =>
    .text (',' :: newline (n + 1)) :: (item.layout (n + 1) ++ layoutItems n items)

def layoutEntries (n : Nat) : List (String × Document ι) → List (Piece Char ι)
  | [] => [.text (newline n ++ ['}'])]
  | (key, item) :: entries =>
    .text (',' :: (newline (n + 1) ++ (quoted key ++ [':', ' ']))) ::
      (item.layout (n + 1) ++ layoutEntries n entries)

end

mutual

/-- The value of the document, with `v i` for the value `i`. -/
def fill (v : ι → List Char) : Document ι → Json
  | atom _ value _ => value
  | string pieces => .string (String.ofList (render v pieces))
  | array items => .array (fillItems v items)
  | object entries => .object (fillEntries v entries)

def fillItems (v : ι → List Char) : List (Document ι) → List Json
  | [] => []
  | item :: items => item.fill v :: fillItems v items

def fillEntries (v : ι → List Char) : List (String × Document ι) → List (String × Json)
  | [] => []
  | (key, item) :: entries => (key, item.fill v) :: fillEntries v entries

end

/-- The values of some pieces. -/
def values (pieces : List (Piece Char ι)) : List ι :=
  pieces.filterMap fun
    | .text _ => none
    | .value i => some i

mutual

/-- The values of the document, as often as they occur. -/
def slots : Document ι → List ι
  | atom _ _ _ => []
  | string pieces => values pieces
  | array items => itemSlots items
  | object entries => entrySlots entries

def itemSlots : List (Document ι) → List ι
  | [] => []
  | item :: items => item.slots ++ itemSlots items

def entrySlots : List (String × Document ι) → List ι
  | [] => []
  | (_, item) :: entries => item.slots ++ entrySlots entries

end

mutual

/-- Each object has each key once. -/
def keysDistinct : Document ι → Bool
  | atom _ _ _ => true
  | string _ => true
  | array items => itemsDistinct items
  | object entries => decide (entries.map (·.1)).Nodup && entriesDistinct entries

def itemsDistinct : List (Document ι) → Bool
  | [] => true
  | item :: items => item.keysDistinct && itemsDistinct items

def entriesDistinct : List (String × Document ι) → Bool
  | [] => true
  | (_, item) :: entries => item.keysDistinct && entriesDistinct entries

end

end Document

/-! ## Reading between quotation marks -/

namespace Json

variable {text value rest : List Char}

theorem scanUnits_escape (c : Char) (rest : List Char) :
    scanUnits (escape c ++ rest) =
      (scanUnits rest).map fun (us, rest) => (c.toNat :: us, rest) := by
  have hcontrol : ∀ n < 32, '\\' :: 'u' :: hex4 n = unitEscape n := by decide
  rw [escape]
  split_ifs with hquote hback hn hr ht hb hf hc
  · subst hquote
    exact scanUnits_backslash (by decide) rfl rest
  · subst hback
    exact scanUnits_backslash (by decide) rfl rest
  · subst hn
    exact scanUnits_backslash (by decide) rfl rest
  · subst hr
    exact scanUnits_backslash (by decide) rfl rest
  · subst ht
    exact scanUnits_backslash (by decide) rfl rest
  · rw [hb]
    exact scanUnits_backslash (c := Char.ofNat 8) (by decide) rfl rest
  · rw [hf]
    exact scanUnits_backslash (c := Char.ofNat 12) (by decide) rfl rest
  · rw [hcontrol _ hc, scanUnits_unitEscape (by omega)]
  · exact scanUnits_plain hquote hback (by omega) rest

theorem joinUnits_append {us vs : List Nat} (h : joinUnits us = some text) :
    joinUnits (us ++ vs) = (joinUnits vs).map (text ++ ·) := by
  have hcons {u : Nat} (hu : ¬ (isHigh u || isLow u) = true) (ws : List Nat) :
      joinUnits (u :: ws) = (joinUnits ws).map (Char.ofNat u :: ·) := by
    obtain ⟨hhigh, hlow⟩ := Bool.or_eq_false_iff.1 (Bool.eq_false_iff.2 hu)
    exact joinUnits_cons hhigh hlow ws
  fun_induction joinUnits us generalizing text with
  | case1 =>
    cases h
    exact (Option.map_id' ..).symm
  | case2 u hu => cases h
  | case3 u hu =>
    cases h
    exact hcons hu vs
  | case4 u v us huv ih =>
    obtain ⟨text, hjoin, rfl⟩ := Option.map_eq_some_iff.1 h
    rw [List.cons_append, List.cons_append, joinUnits, if_pos huv, ih hjoin, Option.map_map]
    rfl
  | case5 u v us huv hu => cases h
  | case6 u v us huv hu ih =>
    obtain ⟨text, hjoin, rfl⟩ := Option.map_eq_some_iff.1 h
    rw [List.cons_append, hcons hu, ih hjoin, Option.map_map]
    rfl

/-- Within a string, `text` stands for `value`. -/
def Scans (text value : List Char) : Prop :=
  ∃ us, (∀ rest, scanUnits (text ++ rest) =
    (scanUnits rest).map fun (vs, rest) => (us ++ vs, rest)) ∧ joinUnits us = some value

theorem Scans.nil : Scans [] [] :=
  ⟨[], fun rest => by simp, rfl⟩

theorem Scans.append {more added : List Char} (h : Scans text value) (hmore : Scans more added) :
    Scans (text ++ more) (value ++ added) := by
  obtain ⟨us, hscan, hjoin⟩ := h
  obtain ⟨vs, hscan', hjoin'⟩ := hmore
  refine ⟨us ++ vs, fun rest => ?_, ?_⟩
  · rw [List.append_assoc, hscan, hscan', Option.map_map]
    congr 1
    funext found
    exact Prod.ext (List.append_assoc ..).symm rfl
  · rw [joinUnits_append hjoin, hjoin', Option.map_some]

theorem scans_escape (c : Char) : Scans (escape c) [c] := by
  have hvalid := toNat_valid c
  have hsurrogate : ¬ (isHigh c.toNat || isLow c.toNat) = true := by
    rw [Bool.or_eq_true, isHigh_iff, isLow_iff]
    omega
  refine ⟨[c.toNat], scanUnits_escape c, ?_⟩
  rw [joinUnits, if_neg hsurrogate, Char.ofNat_toNat]

theorem scans_escaped (text : List Char) : Scans (text.flatMap escape) text := by
  induction text with
  | nil => exact .nil
  | cons c text ih => exact (scans_escape c).append ih

theorem Scans.scanString (h : Scans text value) (rest : List Char) :
    scanString (text ++ '"' :: rest) = some (String.ofList value, rest) := by
  obtain ⟨us, hscan, hjoin⟩ := h
  have hend : scanUnits ('"' :: rest) = some ([], rest) := by rw [scanUnits]
  rw [Json.scanString, hscan, hend, Option.map_some, Option.bind_some]
  dsimp only
  rw [List.append_nil, hjoin, Option.map_some]

/-- Read between quotation marks, `text` is `value`. -/
def ReadsAs (text value : List Char) : Prop :=
  scanString (text ++ ['"']) = some (String.ofList value, [])

/-- What is read up to the last quotation mark begins before it. -/
theorem eq_append_of_append_quote (before : List Char) {tail : List Char} (htail : tail ≠ [])
    (h : before ++ tail = text ++ ['"']) : ∃ t, tail = t ++ ['"'] ∧ text = before ++ t := by
  rcases List.eq_nil_or_concat tail with rfl | ⟨t, c, rfl⟩
  · exact (htail rfl).elim
  · rw [List.concat_eq_append] at h ⊢
    rw [← List.append_assoc] at h
    obtain ⟨htext, hc⟩ := List.append_inj' h rfl
    exact ⟨t, by rw [hc], htext.symm⟩

theorem scanUnits_append_of_quote {us : List Nat} (h : scanUnits (text ++ ['"']) = some (us, []))
    (rest : List Char) : scanUnits (text ++ rest) =
      (scanUnits rest).map fun (vs, rest) => (us ++ vs, rest) := by
  have hne {tail : List Char} {found : List Nat × List Char} (h : scanUnits tail = some found) :
      tail ≠ [] := by
    rintro rfl
    cases h
  generalize hl : text ++ ['"'] = l at h
  fun_induction scanUnits l generalizing text us with
  | case1 => cases h
  | case2 tail =>
    cases h
    obtain rfl : text = [] := by
      have hlen := congrArg List.length hl
      rw [List.length_append] at hlen
      exact List.eq_nil_of_length_eq_zero (by simpa using hlen)
    simp
  | case3 a b c d tail ih =>
    obtain ⟨u, hhex, h⟩ := Option.bind_eq_some_iff.1 h
    obtain ⟨⟨vs, last⟩, hscan, h⟩ := Option.map_eq_some_iff.1 h
    obtain ⟨rfl, rfl⟩ := Prod.mk.inj h
    obtain ⟨t, rfl, rfl⟩ := eq_append_of_append_quote ['\\', 'u', a, b, c, d]
      (hne hscan) hl.symm
    simp only [List.cons_append, List.nil_append, scanUnits, hhex, Option.bind_some, ih rfl hscan,
      Option.map_map]
    rfl
  | case4 e tail hu ih =>
    obtain ⟨c, hun, h⟩ := Option.bind_eq_some_iff.1 h
    obtain ⟨⟨vs, last⟩, hscan, h⟩ := Option.map_eq_some_iff.1 h
    obtain ⟨rfl, rfl⟩ := Prod.mk.inj h
    obtain ⟨t, rfl, rfl⟩ := eq_append_of_append_quote ['\\', e] (hne hscan) hl.symm
    have hletter : e ≠ 'u' := by
      rintro rfl
      cases hun
    change scanUnits ('\\' :: e :: (t ++ rest)) = _
    rw [scanUnits_backslash hletter hun, ih rfl hscan, Option.map_map]
    rfl
  | case5 c tail hquote hu hback hlow => cases h
  | case6 c tail hquote hu hback hlow ih =>
    obtain ⟨⟨vs, last⟩, hscan, h⟩ := Option.map_eq_some_iff.1 h
    obtain ⟨rfl, rfl⟩ := Prod.mk.inj h
    obtain ⟨t, rfl, rfl⟩ := eq_append_of_append_quote [c] (hne hscan) hl.symm
    have hplain : c ≠ '\\' := by
      intro hc
      cases t with
      | nil => exact hback _ _ hc rfl
      | cons e t => exact hback e _ hc rfl
    change scanUnits (c :: (t ++ rest)) = _
    rw [scanUnits_plain hquote hplain (Nat.le_of_not_lt hlow), ih rfl hscan, Option.map_map]
    rfl

theorem ReadsAs.scans (h : ReadsAs text value) : Scans text value := by
  obtain ⟨⟨us, rest⟩, hscan, hjoin⟩ := Option.bind_eq_some_iff.1 h
  obtain ⟨chars, hchars, hvalue⟩ := Option.map_eq_some_iff.1 hjoin
  obtain ⟨hs, rfl⟩ := Prod.mk.inj hvalue
  refine ⟨us, scanUnits_append_of_quote hscan, ?_⟩
  rw [hchars, String.ofList_injective hs]

theorem Scans.readsAs (h : Scans text value) : ReadsAs text value := h.scanString []

/-- What needs no escape is itself. -/
theorem readsAs_self_iff : ReadsAs text text ↔ text.flatMap escape = text := by
  refine ⟨fun h => ?_, fun h => ?_⟩
  · have hle := weight_scanString h
    have hquote : weight ['"'] = 1 := by decide
    rw [String.toList_ofList, weight_nil, weight_append, hquote] at hle
    exact flatMap_escape_of_weight (by omega)
  · have hscans := scans_escaped text
    rw [h] at hscans
    exact hscans.readsAs

end Json

namespace Document

variable {ι : Type} {f v : ι → List Char} {rest : List Char}

/-! ## Reading a document -/

theorem render_text (l : List Char) (pieces : List (Piece Char ι)) :
    render f (.text l :: pieces) = l ++ render f pieces := render_cons

theorem render_escaped (pieces : List (Piece Char ι))
    (h : ∀ i ∈ values pieces, Scans (f i) (v i)) :
    Scans (render f (pieces.map escaped)) (render v pieces) := by
  induction pieces with
  | nil => exact .nil
  | cons p pieces ih =>
    rw [List.map_cons, render_cons, render_cons]
    cases p with
    | text l => exact (scans_escaped l).append (ih h)
    | value i =>
      obtain ⟨hi, hpieces⟩ := List.forall_mem_cons.1
        (show ∀ j ∈ i :: values pieces, Scans (f j) (v j) from h)
      exact hi.append (ih hpieces)

theorem skipWs_newline (n : Nat) (rest : List Char) :
    skipWs (newline n ++ rest) = skipWs rest := by
  have hspaces : ∀ c ∈ newline n, isWhitespace c = true := by
    refine List.forall_mem_cons.2 ⟨by decide, fun c hc => ?_⟩
    rw [List.eq_of_mem_replicate hc]
    decide
  exact List.dropWhile_append_of_pos hspaces

theorem numberEnds_items (n : Nat) (items : List (Document ι)) (rest : List Char) :
    NumberEnds (render f (layoutItems n items) ++ rest) := by
  cases items with
  | nil => exact numberEnds_cons (by decide)
  | cons item items => exact numberEnds_cons (by decide)

theorem numberEnds_entries (n : Nat) (entries : List (String × Document ι)) (rest : List Char) :
    NumberEnds (render f (layoutEntries n entries) ++ rest) := by
  cases entries with
  | nil => exact numberEnds_cons (by decide)
  | cons entry entries => exact numberEnds_cons (by decide)

theorem layout_head (n : Nat) (d : Document ι) (f : ι → List Char) :
    ∃ c tail, render f (d.layout n) = c :: tail ∧ opens c = true := by
  cases d with
  | atom text value valid =>
    obtain ⟨c, tail, htext, hc, -⟩ := valid.head
    exact ⟨c, tail, by rw [layout, render_cons, render_nil, Piece.shown, htext, List.append_nil],
      hc⟩
  | string pieces => exact ⟨_, _, rfl, by decide⟩
  | array items =>
    cases items with
    | nil => exact ⟨_, _, rfl, by decide⟩
    | cons item items => exact ⟨_, _, rfl, by decide⟩
  | object entries =>
    cases entries with
    | nil => exact ⟨_, _, rfl, by decide⟩
    | cons entry entries => exact ⟨_, _, rfl, by decide⟩

theorem skipWs_layout (n : Nat) (d : Document ι) (rest : List Char) :
    skipWs (render f (d.layout n) ++ rest) = render f (d.layout n) ++ rest := by
  obtain ⟨c, tail, htext, hc⟩ := d.layout_head n f
  rw [htext, List.cons_append, skipWs_cons hc]

theorem head?_layout_ne (n : Nat) (d : Document ι) (rest : List Char) :
    (render f (d.layout n) ++ rest).head? ≠ some ']' := by
  obtain ⟨c, tail, htext, hc⟩ := d.layout_head n f
  rw [htext, List.cons_append, List.head?_cons]
  exact fun he => ne_of_opens hc (Option.some.inj he)

theorem scanKey_quoted (key : String) (n : Nat) (d : Document ι) (rest : List Char) :
    scanKey (quoted key ++ ':' :: ' ' :: (render f (d.layout n) ++ rest)) =
      some (key, render f (d.layout n) ++ rest) := by
  have hscan := (scans_escaped key.toList).scanString
    (':' :: ' ' :: (render f (d.layout n) ++ rest))
  have hcolon : skipWs (':' :: ' ' :: (render f (d.layout n) ++ rest)) =
      ':' :: ' ' :: (render f (d.layout n) ++ rest) := rfl
  have hspace : skipWs (' ' :: (render f (d.layout n) ++ rest)) =
      render f (d.layout n) ++ rest := skipWs_layout n d rest
  rw [quoted, List.cons_append, List.append_assoc, List.singleton_append, scanKey, hscan,
    Option.bind_some]
  dsimp only
  rw [hcolon, List.head?_cons, if_pos rfl, List.tail_cons, hspace, String.ofList_toList]

/-- What the rules of the parser need to know of the values of a part. -/
theorem forall_mem_slots {slots more : List ι} (h : ∀ i ∈ slots ++ more, Scans (f i) (v i)) :
    (∀ i ∈ slots, Scans (f i) (v i)) ∧ ∀ i ∈ more, Scans (f i) (v i) :=
  List.forall_mem_append.1 h

theorem fillEntries_keys (v : ι → List Char) (entries : List (String × Document ι)) :
    (fillEntries v entries).map (·.1) = entries.map (·.1) := by
  induction entries with
  | nil => rfl
  | cons entry entries ih => exact congrArg (entry.1 :: ·) ih

mutual

/-- The text of a document is read as its value. -/
theorem parseValue_layout : ∀ (d : Document ι) (n fuel : Nat) (rest : List Char),
    d.keysDistinct = true → (∀ i ∈ d.slots, Scans (f i) (v i)) →
    (render f (d.layout n)).length ≤ fuel → NumberEnds rest →
    parseValue fuel (render f (d.layout n) ++ rest) = some (d.fill v, rest)
  | .atom text value valid, n, fuel, rest, _, _, hfuel, hrest => by
    rw [layout, render_text, render_nil, List.append_nil] at hfuel ⊢
    exact valid.value hfuel hrest
  | .string pieces, n, fuel, rest, _, hslots, hfuel, _ => by
    rw [layout, render_text, render_append, render_text, render_nil, List.append_nil,
      List.singleton_append] at hfuel ⊢
    cases fuel with
    | zero => cases hfuel
    | succ fuel =>
      have hscan := (render_escaped pieces hslots).scanString rest
      rw [List.cons_append, List.append_assoc, List.singleton_append, parseValue, hscan,
        Option.map_some]
      rfl
  | .array [], n, fuel, rest, _, _, hfuel, _ => by
    cases fuel with
    | zero => cases hfuel
    | succ fuel => rfl
  | .array (item :: items), n, fuel, rest, hkeys, hslots, hfuel, _ => by
    obtain ⟨hitem, hitems⟩ := forall_mem_slots hslots
    rw [keysDistinct, itemsDistinct, Bool.and_eq_true] at hkeys
    rw [layout, render_text, render_append, List.cons_append] at hfuel ⊢
    simp only [List.length_cons, List.length_append] at hfuel
    cases fuel with
    | zero => omega
    | succ fuel =>
      have hread := parseValue_layout item (n + 1) fuel (render f (layoutItems n items) ++ rest)
        hkeys.1 hitem (by omega) (numberEnds_items n items rest)
      have hbehind := parseItems_layout items n fuel rest hkeys.2 hitems (by omega)
      rw [List.cons_append, parseValue, List.append_assoc, skipWs_newline, List.append_assoc,
        skipWs_layout, if_neg (head?_layout_ne _ _ _), hread, Option.bind_some]
      dsimp only
      rw [hbehind, Option.map_some]
      rfl
  | .object [], n, fuel, rest, _, _, hfuel, _ => by
    cases fuel with
    | zero => cases hfuel
    | succ fuel => rfl
  | .object ((key, item) :: entries), n, fuel, rest, hkeys, hslots, hfuel, _ => by
    obtain ⟨hitem, hentries⟩ := forall_mem_slots hslots
    rw [keysDistinct, entriesDistinct, Bool.and_eq_true, Bool.and_eq_true] at hkeys
    obtain ⟨hnodup, hkey, hkeys⟩ := hkeys
    have hkeysFill : ((fillEntries v ((key, item) :: entries)).map (·.1)).Nodup := by
      rw [fillEntries_keys]
      exact of_decide_eq_true hnodup
    have hdict := dictOf_of_nodup hkeysFill
    rw [layout, render_text, render_append, List.cons_append] at hfuel ⊢
    simp only [List.length_cons, List.length_append] at hfuel
    cases fuel with
    | zero => omega
    | succ fuel =>
      have hread := parseValue_layout item (n + 1) fuel (render f (layoutEntries n entries) ++ rest)
        hkey hitem (by omega) (numberEnds_entries n entries rest)
      have hbehind := parseEntries_layout entries n fuel rest hkeys hentries (by omega)
      have hkey (text : List Char) : skipWs (quoted key ++ text) = quoted key ++ text := rfl
      have hopen (text : List Char) : (quoted key ++ text).head? ≠ some '}' := by
        rw [quoted, List.cons_append, List.head?_cons]
        decide
      simp only [List.cons_append, List.append_assoc, List.nil_append]
      rw [parseValue, skipWs_newline, hkey, if_neg (hopen _), scanKey_quoted, Option.bind_some]
      dsimp only
      rw [hread, Option.bind_some]
      dsimp only
      rw [hbehind, Option.map_some]
      exact congrArg (fun dict => some (Json.object dict, rest)) hdict

theorem parseItems_layout : ∀ (items : List (Document ι)) (n fuel : Nat) (rest : List Char),
    itemsDistinct items = true → (∀ i ∈ itemSlots items, Scans (f i) (v i)) →
    (render f (layoutItems n items)).length ≤ fuel →
    parseItems fuel (render f (layoutItems n items) ++ rest) = some (fillItems v items, rest)
  | [], n, fuel, rest, _, _, hfuel => by
    rw [layoutItems, render_text, render_nil, List.append_nil] at hfuel ⊢
    cases fuel with
    | zero => cases hfuel
    | succ fuel =>
      have hclose : skipWs (']' :: rest) = ']' :: rest := rfl
      rw [List.append_assoc, List.singleton_append, parseItems, skipWs_newline, hclose,
        List.head?_cons, if_pos rfl]
      rfl
  | item :: items, n, fuel, rest, hkeys, hslots, hfuel => by
    obtain ⟨hitem, hitems⟩ := forall_mem_slots hslots
    rw [itemsDistinct, Bool.and_eq_true] at hkeys
    rw [layoutItems, render_text, render_append, List.cons_append] at hfuel ⊢
    simp only [List.length_cons, List.length_append] at hfuel
    cases fuel with
    | zero => omega
    | succ fuel =>
      have hread := parseValue_layout item (n + 1) fuel (render f (layoutItems n items) ++ rest)
        hkeys.1 hitem (by omega) (numberEnds_items n items rest)
      have hbehind := parseItems_layout items n fuel rest hkeys.2 hitems (by omega)
      simp only [List.cons_append, List.append_assoc]
      have hcomma (text : List Char) : skipWs (',' :: text) = ',' :: text := rfl
      rw [parseItems, hcomma, List.head?_cons, if_neg (by decide), if_pos rfl, List.tail_cons,
        skipWs_newline, skipWs_layout, hread, Option.bind_some]
      dsimp only
      rw [hbehind, Option.map_some]
      rfl

theorem parseEntries_layout : ∀ (entries : List (String × Document ι)) (n fuel : Nat)
    (rest : List Char), entriesDistinct entries = true →
    (∀ i ∈ entrySlots entries, Scans (f i) (v i)) →
    (render f (layoutEntries n entries)).length ≤ fuel →
    parseEntries fuel (render f (layoutEntries n entries) ++ rest) =
      some (fillEntries v entries, rest)
  | [], n, fuel, rest, _, _, hfuel => by
    rw [layoutEntries, render_text, render_nil, List.append_nil] at hfuel ⊢
    cases fuel with
    | zero => cases hfuel
    | succ fuel =>
      have hclose : skipWs ('}' :: rest) = '}' :: rest := rfl
      rw [List.append_assoc, List.singleton_append, parseEntries, skipWs_newline, hclose,
        List.head?_cons, if_pos rfl]
      rfl
  | (key, item) :: entries, n, fuel, rest, hkeys, hslots, hfuel => by
    obtain ⟨hitem, hentries⟩ := forall_mem_slots hslots
    rw [entriesDistinct, Bool.and_eq_true] at hkeys
    rw [layoutEntries, render_text, render_append, List.cons_append] at hfuel ⊢
    simp only [List.length_cons, List.length_append] at hfuel
    cases fuel with
    | zero => omega
    | succ fuel =>
      have hread := parseValue_layout item (n + 1) fuel (render f (layoutEntries n entries) ++ rest)
        hkeys.1 hitem (by omega) (numberEnds_entries n entries rest)
      have hbehind := parseEntries_layout entries n fuel rest hkeys.2 hentries (by omega)
      have hcomma (text : List Char) : skipWs (',' :: text) = ',' :: text := rfl
      have hkey (text : List Char) : skipWs (quoted key ++ text) = quoted key ++ text := rfl
      simp only [List.cons_append, List.append_assoc, List.nil_append]
      rw [parseEntries, hcomma, List.head?_cons, if_neg (by decide), if_pos rfl, List.tail_cons,
        skipWs_newline, hkey, scanKey_quoted, Option.bind_some]
      dsimp only
      rw [hread, Option.bind_some]
      dsimp only
      rw [hbehind, Option.map_some]
      rfl

end

theorem loads_layout {d : Document ι} (hkeys : d.keysDistinct = true)
    (h : ∀ i ∈ d.slots, Scans (f i) (v i)) : loads (render f (d.layout 0)) = some (d.fill v) := by
  have hskip := skipWs_layout (f := f) 0 d []
  have hread := parseValue_layout (f := f) d 0 ((render f (d.layout 0)).length + 1) [] hkeys h
    (Nat.le_succ _) numberEnds_nil
  rw [List.append_nil] at hskip hread
  rw [loads, hskip, hread, Option.bind_some]
  rfl

/-! ## What is put in without an escape -/

theorem weight_newline (n : Nat) : weight (newline n) = 0 := by
  refine List.countP_eq_zero.2 (List.forall_mem_cons.2 ⟨by decide, fun c hc => ?_⟩)
  rw [List.eq_of_mem_replicate hc]
  decide

theorem weight_key (key : String) :
    weight (quoted key ++ [':', ' ']) = innerWeight key.toList + 3 := by
  have hend : weight ([':', ' '] : List Char) = 1 := by decide
  have hquote : weight ['"'] = 1 := by decide
  rw [quoted, List.cons_append, weight_cons (by decide), weight_append, weight_append, hend, hquote,
    innerWeight]

theorem innerWeight_append (text more : List Char) :
    innerWeight (text ++ more) = innerWeight text + innerWeight more := by
  rw [innerWeight, List.flatMap_append, weight_append, innerWeight, innerWeight]

theorem weight_render_escaped (pieces : List (Piece Char ι)) :
    weight (render f (pieces.map escaped)) + ((values pieces).map fun i => innerWeight (v i)).sum =
      innerWeight (render v pieces) + ((values pieces).map fun i => weight (f i)).sum := by
  induction pieces with
  | nil => rfl
  | cons p pieces ih =>
    rw [List.map_cons, render_cons, render_cons, weight_append, innerWeight_append]
    cases p with
    | text l =>
      change weight (l.flatMap escape) + _ + ((values pieces).map _).sum =
        innerWeight l + _ + ((values pieces).map _).sum
      rw [innerWeight]
      omega
    | value i =>
      change weight (f i) + _ + ((i :: values pieces).map _).sum =
        innerWeight (v i) + _ + ((i :: values pieces).map _).sum
      rw [List.map_cons, List.sum_cons, List.map_cons, List.sum_cons]
      omega

mutual

/-- The text weighs what its value does, but for the values that are put in. -/
theorem weight_layout : ∀ (d : Document ι) (n : Nat),
    weight (render f (d.layout n)) + (d.slots.map fun i => innerWeight (v i)).sum =
      jsonWeight (d.fill v) + (d.slots.map fun i => weight (f i)).sum
  | .atom text value valid, n => by
    rw [layout, render_text, render_nil, List.append_nil, fill, valid.weight_eq]
    rfl
  | .string pieces, n => by
    have hpieces := weight_render_escaped (f := f) (v := v) pieces
    have hquote : weight ['"'] = 1 := by decide
    rw [layout, render_text, render_append, render_text, render_nil, List.append_nil, fill,
      jsonWeight, String.toList_ofList, slots, weight_append, weight_append, hquote]
    omega
  | .array [], n => rfl
  | .array (item :: items), n => by
    have hitem := weight_layout item (n + 1)
    have hitems := weight_layoutItems items n
    have hpos := itemsWeight_pos (fillItems v items)
    rw [layout, render_text, render_append, List.cons_append, weight_cons (by decide),
      weight_append, weight_append, weight_newline, fill, jsonWeight, fillItems, itemsWeight, slots,
      itemSlots, List.map_append, List.map_append, List.sum_append, List.sum_append]
    omega
  | .object [], n => rfl
  | .object ((key, item) :: entries), n => by
    have hitem := weight_layout item (n + 1)
    have hentries := weight_layoutEntries entries n
    rw [layout, render_text, render_append, List.cons_append, weight_cons (by decide),
      weight_append, weight_append, weight_key, weight_append, weight_newline, fill, jsonWeight,
      fillEntries, entriesWeight, slots, entrySlots, List.map_append, List.map_append,
      List.sum_append, List.sum_append]
    omega

theorem weight_layoutItems : ∀ (items : List (Document ι)) (n : Nat),
    weight (render f (layoutItems n items)) +
        ((itemSlots items).map fun i => innerWeight (v i)).sum =
      itemsWeight (fillItems v items) + ((itemSlots items).map fun i => weight (f i)).sum
  | [], n => by
    rw [layoutItems, render_text, render_nil, List.append_nil, weight_append, weight_newline]
    rfl
  | item :: items, n => by
    have hitem := weight_layout item (n + 1)
    have hitems := weight_layoutItems items n
    rw [layoutItems, render_text, render_append, List.cons_append, weight_cons (by decide),
      weight_append, weight_append, weight_newline, fillItems, itemsWeight, itemSlots,
      List.map_append, List.map_append, List.sum_append, List.sum_append]
    omega

theorem weight_layoutEntries : ∀ (entries : List (String × Document ι)) (n : Nat),
    weight (render f (layoutEntries n entries)) +
        ((entrySlots entries).map fun i => innerWeight (v i)).sum =
      entriesWeight (fillEntries v entries) + ((entrySlots entries).map fun i => weight (f i)).sum
  | [], n => by
    rw [layoutEntries, render_text, render_nil, List.append_nil, weight_append, weight_newline]
    rfl
  | (key, item) :: entries, n => by
    have hitem := weight_layout item (n + 1)
    have hentries := weight_layoutEntries entries n
    rw [layoutEntries, render_text, render_append, List.cons_append, weight_cons (by decide),
      weight_append, weight_append, weight_key, weight_append, weight_newline, fillEntries,
      entriesWeight, entrySlots, List.map_append, List.map_append, List.sum_append,
      List.sum_append]
    omega

end

/-- If the values put in as they are come out again, none needs an escape. -/
theorem flatMap_escape_of_loads {d : Document ι}
    (h : loads (render v (d.layout 0)) = some (d.fill v)) :
    ∀ i ∈ d.slots, (v i).flatMap escape = v i := by
  have hle := jsonWeight_le_of_loads h
  have htext := weight_layout (f := v) (v := v) d 0
  have hsum : (d.slots.map fun i => innerWeight (v i)).sum ≤
      (d.slots.map fun i => weight (v i)).sum := by omega
  intro i hi
  refine flatMap_escape_of_weight ?_
  by_contra hlt
  refine absurd hsum (Nat.not_le.2 (List.sum_lt_sum _ _ (fun j _ => weight_le_innerWeight _)
    ⟨i, hi, Nat.lt_of_not_le hlt⟩))

end Document

end LlmPort.Text
