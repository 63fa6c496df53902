import Mathlib.Algebra.GroupWithZero.Nat
import LlmPort.Text.JsonLoads

/-!
# How much text a JSON value needs

The weight of a text is the number of its characters that are no white space. A text that is read
as a value has at least the weight the value is written with: what stands in a string must be
escaped, and each escape adds to the weight.
-/

namespace LlmPort.Text

namespace Json

def weight (text : List Char) : Nat := text.countP fun c => !isWhitespace c

@[simp] theorem weight_nil : weight [] = 0 := rfl

@[simp] theorem weight_append (text rest : List Char) :
    weight (text ++ rest) = weight text + weight rest := List.countP_append

theorem weight_cons_of_space {c : Char} {text : List Char} (h : isWhitespace c = true) :
    weight (c :: text) = weight text := by
  rw [weight, List.countP_cons_of_neg (by simp [h])]
  rfl

theorem weight_cons {c : Char} {text : List Char} (h : isWhitespace c = false) :
    weight (c :: text) = weight text + 1 := by
  rw [weight, List.countP_cons_of_pos (by simp [h])]
  rfl

@[simp] theorem weight_skipWs (text : List Char) : weight (skipWs text) = weight text := by
  induction text with
  | nil => rfl
  | cons c text ih =>
    rw [skipWs] at ih ⊢
    rcases Bool.eq_false_or_eq_true (isWhitespace c) with hc | hc
    · rw [List.dropWhile_cons_of_pos hc, ih, weight_cons_of_space hc]
    · rw [List.dropWhile_cons_of_neg (Bool.eq_false_iff.1 hc)]

/-- The weight of what stands between quotation marks. -/
def innerWeight (text : List Char) : Nat := weight (text.flatMap escape)

mutual

/-- The weight of what `dumps` writes. -/
def jsonWeight : Json → Nat
  | null => 4
  | bool b => if b then 4 else 5
  | number text => weight text.toList
  | string s => innerWeight s.toList + 2
  | array items => max 2 (itemsWeight items)
  | object entries => max 2 (entriesWeight entries)

/-- With a separator before each item, and one behind the last. -/
def itemsWeight : List Json → Nat
  | [] => 1
  | item :: items => jsonWeight item + itemsWeight items + 1

def entriesWeight : List (String × Json) → Nat
  | [] => 1
  | (key, value) :: entries =>
    innerWeight key.toList + 3 + jsonWeight value + entriesWeight entries + 1

end

/-! ## Strings -/

theorem escape_of_plain {c : Char} (hquote : c ≠ '"') (hback : c ≠ '\\') (h : 32 ≤ c.toNat) :
    escape c = [c] := by
  have hne {d : Char} (hd : d.toNat < 32) : c ≠ d := by
    rintro rfl
    omega
  rw [escape, if_neg hquote, if_neg hback, if_neg (hne (by decide)), if_neg (hne (by decide)),
    if_neg (hne (by decide)), if_neg (by omega), if_neg (by omega), if_neg (by omega)]

theorem weight_escape_le (c : Char) : weight (escape c) ≤ 6 := by
  have hcontrol : ∀ n < 32, weight ('\\' :: 'u' :: hex4 n) ≤ 6 := by decide
  rw [escape]
  split_ifs with hquote hback hn hr ht hb hf hc
  · decide
  · decide
  · decide
  · decide
  · decide
  · decide
  · decide
  · exact hcontrol _ hc
  · exact List.countP_le_length.trans (by simp)

/-- The weight of a code unit's share in a text. -/
def unitWeight (u : Nat) : Nat :=
  if isHigh u then 1 else if isLow u then 0 else weight (escape (Char.ofNat u))

theorem unitWeight_toNat (c : Char) : unitWeight c.toNat = weight (escape c) := by
  have hvalid := toNat_valid c
  have hhigh : ¬ isHigh c.toNat = true := by
    rw [isHigh_iff]
    omega
  have hlow : ¬ isLow c.toNat = true := by
    rw [isLow_iff]
    omega
  rw [unitWeight, if_neg hhigh, if_neg hlow, Char.ofNat_toNat]

theorem unitWeight_le (u : Nat) : unitWeight u ≤ 6 := by
  rw [unitWeight]
  split_ifs
  · omega
  · omega
  · exact weight_escape_le _

theorem innerWeight_cons (c : Char) (text : List Char) :
    innerWeight (c :: text) = weight (escape c) + innerWeight text := by
  rw [innerWeight, List.flatMap_cons, weight_append, innerWeight]

theorem weight_singleton_le (c : Char) : weight [c] ≤ 1 := List.countP_le_length

/-- An escape is heavier than the character. -/
theorem escape_cases (c : Char) : escape c = [c] ∨ weight [c] < weight (escape c) := by
  have hcontrol : ∀ n < 32, 1 < weight ('\\' :: 'u' :: hex4 n) := by decide
  have hle := weight_singleton_le c
  have htwo {d : Char} (hd : isWhitespace d = false) : weight [c] < weight ['\\', d] := by
    have hpair : weight ['\\', d] = 2 := by rw [weight_cons (by decide), weight_cons hd, weight_nil]
    omega
  rw [escape]
  split_ifs with hquote hback hn hr ht hb hf hc
  · exact .inr (htwo (by decide))
  · exact .inr (htwo (by decide))
  · exact .inr (htwo (by decide))
  · exact .inr (htwo (by decide))
  · exact .inr (htwo (by decide))
  · exact .inr (htwo (by decide))
  · exact .inr (htwo (by decide))
  · exact .inr (hle.trans_lt (hcontrol _ hc))
  · exact .inl rfl

theorem weight_le_innerWeight (text : List Char) : weight text ≤ innerWeight text := by
  induction text with
  | nil => exact Nat.le_refl _
  | cons c text ih =>
    have hsplit := weight_append [c] text
    rw [List.singleton_append] at hsplit
    rw [innerWeight_cons, hsplit]
    rcases escape_cases c with hc | hc
    · rw [hc]
      omega
    · omega

theorem flatMap_escape_of_weight {text : List Char} (h : innerWeight text ≤ weight text) :
    text.flatMap escape = text := by
  induction text with
  | nil => rfl
  | cons c text ih =>
    have hsplit := weight_append [c] text
    have hle := weight_le_innerWeight text
    rw [List.singleton_append] at hsplit
    rw [innerWeight_cons, hsplit] at h
    rcases escape_cases c with hc | hc
    · rw [hc] at h
      rw [List.flatMap_cons, hc, ih (by omega), List.singleton_append]
    · omega

/-- A surrogate pair is one character. -/
theorem weight_escape_pair {u v : Nat} (hu : isHigh u = true) (hv : isLow v = true) :
    weight (escape (Char.ofNat (0x10000 + (u - 0xd800) * 1024 + (v - 0xdc00)))) ≤
      unitWeight u + unitWeight v := by
  have hhigh := isHigh_iff.1 hu
  have hlow := isLow_iff.1 hv
  obtain ⟨n, hn⟩ : ∃ n, n = 0x10000 + (u - 0xd800) * 1024 + (v - 0xdc00) := ⟨_, rfl⟩
  have hvalid : n.isValidChar := Or.inr (by omega)
  have hcode : (Char.ofNat n).toNat = n := by
    rw [Char.ofNat, dif_pos hvalid]
    rfl
  have hne {d : Char} (hd : d.toNat < 0x10000) : Char.ofNat n ≠ d := by
    intro heq
    rw [heq] at hcode
    omega
  rw [← hn, escape_of_plain (hne (by decide)) (hne (by decide)) (by omega), unitWeight, if_pos hu]
  exact (weight_singleton_le _).trans (Nat.le_add_right _ _)

theorem innerWeight_le_of_joinUnits {us : List Nat} {text : List Char}
    (h : joinUnits us = some text) : innerWeight text ≤ (us.map unitWeight).sum := by
  have hshare {u : Nat} (hu : ¬ (isHigh u || isLow u) = true) :
      weight (escape (Char.ofNat u)) = unitWeight u := by
    rw [Bool.or_eq_true, not_or] at hu
    rw [unitWeight, if_neg hu.1, if_neg hu.2]
  fun_induction joinUnits us generalizing text with
  | case1 =>
    cases h
    exact Nat.zero_le _
  | case2 u hu => cases h
  | case3 u hu =>
    cases h
    rw [innerWeight_cons, hshare hu]
    exact Nat.le_refl _
  | case4 u v us huv ih =>
    obtain ⟨text, hjoin, rfl⟩ := Option.map_eq_some_iff.1 h
    obtain ⟨hu, hv⟩ := Bool.and_eq_true_iff.1 huv
    have hpair := weight_escape_pair hu hv
    have hle := ih hjoin
    rw [innerWeight_cons, List.map_cons, List.map_cons, List.sum_cons, List.sum_cons]
    omega
  | case5 u v us huv hu => cases h
  | case6 u v us huv hu ih =>
    obtain ⟨text, hjoin, rfl⟩ := Option.map_eq_some_iff.1 h
    have hle := ih hjoin
    rw [innerWeight_cons, hshare hu, List.map_cons, List.sum_cons]
    omega

theorem isWhitespace_of_hexVal {c : Char} {n : Nat} (h : hexVal c = some n) :
    isWhitespace c = false := by
  have hspaces : [' ', '\t', '\n', '\r'].all (fun c => (hexVal c).isNone) = true := by decide
  refine Bool.eq_false_iff.2 fun hspace => ?_
  have hnone := List.all_eq_true.1 hspaces c (of_decide_eq_true hspace)
  rw [h] at hnone
  cases hnone

/-- What a short escape stands for needs no longer one. -/
theorem unescape_valid {e c : Char} (h : unescape e = some c) :
    isWhitespace e = false ∧ weight (escape c) ≤ 2 := by
  have hall : [('"', '"'), ('\\', '\\'), ('/', '/'), ('b', Char.ofNat 8), ('f', Char.ofNat 12),
      ('n', '\n'), ('r', '\r'), ('t', '\t')].all (fun entry =>
        !isWhitespace entry.1 && decide (weight (escape entry.2) ≤ 2)) = true := by decide
  obtain ⟨before, after, heq, -⟩ := List.lookup_eq_some_iff.1 h
  have hmem := List.all_eq_true.1 hall (e, c)
    (heq ▸ List.mem_append_right _ List.mem_cons_self)
  rw [Bool.and_eq_true, Bool.not_eq_true', decide_eq_true_eq] at hmem
  exact hmem

theorem weight_scanUnits {text rest : List Char} {us : List Nat}
    (h : scanUnits text = some (us, rest)) :
    (us.map unitWeight).sum + weight rest + 1 ≤ weight text := by
  fun_induction scanUnits text generalizing us rest with
  | case1 => cases h
  | case2 tail =>
    cases h
    rw [weight_cons (by decide), List.map_nil, List.sum_nil]
    omega
  | case3 a b c d text ih =>
    obtain ⟨u, hhex, h⟩ := Option.bind_eq_some_iff.1 h
    obtain ⟨⟨vs, tail⟩, hscan, h⟩ := Option.map_eq_some_iff.1 h
    obtain ⟨rfl, rfl⟩ := Prod.mk.inj h
    have hle := ih hscan
    have hunit := unitWeight_le u
    obtain ⟨_, ha, hhex⟩ := Option.bind_eq_some_iff.1 hhex
    obtain ⟨_, hb, hhex⟩ := Option.bind_eq_some_iff.1 hhex
    obtain ⟨_, hc, hhex⟩ := Option.bind_eq_some_iff.1 hhex
    obtain ⟨_, hd, -⟩ := Option.bind_eq_some_iff.1 hhex
    rw [weight_cons (by decide), weight_cons (by decide), weight_cons (isWhitespace_of_hexVal ha),
      weight_cons (isWhitespace_of_hexVal hb), weight_cons (isWhitespace_of_hexVal hc),
      weight_cons (isWhitespace_of_hexVal hd), List.map_cons, List.sum_cons]
    omega
  | case4 e text hu ih =>
    obtain ⟨c, hun, h⟩ := Option.bind_eq_some_iff.1 h
    obtain ⟨⟨vs, tail⟩, hscan, h⟩ := Option.map_eq_some_iff.1 h
    obtain ⟨rfl, rfl⟩ := Prod.mk.inj h
    obtain ⟨hspace, hweight⟩ := unescape_valid hun
    have hle := ih hscan
    rw [weight_cons (by decide), weight_cons hspace, List.map_cons, List.sum_cons,
      unitWeight_toNat]
    omega
  | case5 c text hquote hu hback hlow => cases h
  | case6 c text hquote hu hback hlow ih =>
    obtain ⟨⟨vs, tail⟩, hscan, h⟩ := Option.map_eq_some_iff.1 h
    obtain ⟨rfl, rfl⟩ := Prod.mk.inj h
    have hle := ih hscan
    have hplain : c ≠ '\\' := by
      intro hc
      cases text with
      | nil => cases hscan
      | cons e text => exact hback e text hc rfl
    have hsplit := weight_append [c] text
    rw [List.singleton_append] at hsplit
    rw [hsplit, List.map_cons, List.sum_cons, unitWeight_toNat,
      escape_of_plain hquote hplain (Nat.le_of_not_lt hlow)]
    omega

theorem weight_scanString {text rest : List Char} {s : String}
    (h : scanString text = some (s, rest)) :
    innerWeight s.toList + weight rest + 1 ≤ weight text := by
  obtain ⟨⟨us, tail⟩, hscan, hjoin⟩ := Option.bind_eq_some_iff.1 h
  obtain ⟨chars, hchars, hs⟩ := Option.map_eq_some_iff.1 hjoin
  obtain ⟨rfl, rfl⟩ := Prod.mk.inj hs
  have hle := weight_scanUnits hscan
  have hinner := innerWeight_le_of_joinUnits hchars
  rw [String.toList_ofList]
  omega

/-! ## Values -/

theorem weight_takeWhile_add (p : Char → Bool) (text : List Char) :
    weight (text.takeWhile p) + weight (text.dropWhile p) = weight text := by
  rw [← weight_append, List.takeWhile_append_dropWhile]

theorem jsonWeight_word : ∀ word ∈ words, jsonWeight word.2 = weight word.1 := by
  simp only [words, List.forall_mem_cons]
  exact ⟨rfl, rfl, rfl, rfl, rfl, rfl, List.forall_mem_nil _⟩

theorem Atom.weight_eq {text : List Char} {j : Json} (h : Atom j text) :
    jsonWeight j = weight text := by
  cases h with
  | number h => rw [jsonWeight]
  | word word h => exact jsonWeight_word word h

theorem weight_parseAtom {text rest : List Char} {j : Json} (h : parseAtom text = some (j, rest)) :
    jsonWeight j + weight rest ≤ weight text := by
  rw [parseAtom] at h
  split at h
  next hnumber =>
    obtain ⟨rfl, rfl⟩ := Prod.mk.inj (Option.some.inj h)
    rw [jsonWeight, String.toList_ofList, weight_takeWhile_add]
  next hnumber =>
    obtain ⟨word, hfind, h⟩ := Option.map_eq_some_iff.1 h
    obtain ⟨rfl, rfl⟩ := Prod.mk.inj h
    have hprefix : word.1.isPrefixOf text = true :=
      (List.find?_eq_some_iff_append.1 hfind).1
    obtain ⟨tail, rfl⟩ := List.isPrefixOf_iff_prefix.1 hprefix
    rw [jsonWeight_word word (List.mem_of_find?_eq_some hfind), List.drop_left, weight_append]

theorem itemsWeight_pos (items : List Json) : 0 < itemsWeight items := by
  cases items with
  | nil => exact Nat.zero_lt_one
  | cons item items => exact Nat.succ_pos _

theorem weight_of_head? {c : Char} {text : List Char} (hc : isWhitespace c = false)
    (h : (skipWs text).head? = some c) : weight (skipWs text).tail + 1 = weight text := by
  obtain ⟨tail, htail⟩ := List.head?_eq_some_iff.1 h
  rw [← weight_skipWs text, htail, weight_cons hc, List.tail_cons]

theorem weight_scanKey {text rest : List Char} {key : String}
    (h : scanKey text = some (key, rest)) :
    innerWeight key.toList + 3 + weight rest ≤ weight text := by
  cases text with
  | nil => cases h
  | cons c text =>
    by_cases hc : c = '"'
    · subst hc
      obtain ⟨⟨scanned, tail⟩, hscan, h⟩ := Option.bind_eq_some_iff.1 h
      dsimp only at h
      split at h
      next hcolon =>
        cases h
        have hle := weight_scanString hscan
        have hbehind := weight_of_head? (by decide) hcolon
        rw [weight_cons (by decide), weight_skipWs]
        omega
      next => cases h
    · rw [scanKey] at h
      · cases h
      · rintro tail heq
        exact hc (List.head_eq_of_cons_eq heq)

def entryWeight (entry : String × Json) : Nat :=
  innerWeight entry.1.toList + 4 + jsonWeight entry.2

theorem entriesWeight_eq (entries : List (String × Json)) :
    entriesWeight entries = (entries.map entryWeight).sum + 1 := by
  induction entries with
  | nil => rfl
  | cons entry entries ih =>
    obtain ⟨key, value⟩ := entry
    rw [entriesWeight, ih, List.map_cons, List.sum_cons, entryWeight]
    dsimp only
    omega

/-- A value that takes another one's place adds no more than a new one. -/
theorem sum_entryWeight_replace (entry : String × Json) {dict : List (String × Json)}
    (h : (dict.map (·.1)).Nodup) :
    ((dict.map fun y => if y.1 = entry.1 then entry else y).map entryWeight).sum ≤
      (dict.map entryWeight).sum + entryWeight entry := by
  induction dict with
  | nil => exact Nat.zero_le _
  | cons y dict ih =>
    obtain ⟨hy, hdict⟩ := List.nodup_cons.1 h
    rw [List.map_cons, List.map_cons, List.map_cons, List.sum_cons, List.sum_cons]
    by_cases hkey : y.1 = entry.1
    · have hsame : (dict.map fun y => if y.1 = entry.1 then entry else y) = dict := by
        have hother : ∀ x ∈ dict, (if x.1 = entry.1 then entry else x) = x := fun x hx =>
          if_neg fun heq => hy (List.mem_map.2 ⟨x, hx, heq.trans hkey.symm⟩)
        rw [List.map_congr_left hother, List.map_id']
      rw [if_pos hkey, hsame]
      omega
    · have hle := ih hdict
      rw [if_neg hkey]
      omega

theorem sum_entryWeight_upsert (entry : String × Json) {dict : List (String × Json)}
    (h : (dict.map (·.1)).Nodup) :
    ((Transition.upsert (·.1) entry (fun _ => entry) dict).map entryWeight).sum ≤
      (dict.map entryWeight).sum + entryWeight entry := by
  rw [Transition.upsert]
  split
  next => exact sum_entryWeight_replace entry h
  next =>
    rw [List.map_append, List.sum_append, List.map_singleton, List.sum_singleton]

theorem entriesWeight_dictOf (entries : List (String × Json)) :
    entriesWeight (dictOf entries) ≤ entriesWeight entries := by
  have hfold : ∀ dict : List (String × Json), (dict.map (·.1)).Nodup →
      ((entries.foldl (fun dict entry =>
        Transition.upsert (·.1) entry (fun _ => entry) dict) dict).map entryWeight).sum ≤
        (dict.map entryWeight).sum + (entries.map entryWeight).sum := by
    induction entries with
    | nil => exact fun dict _ => Nat.le_refl _
    | cons entry entries ih =>
      intro dict hdict
      have hkeys : ((Transition.upsert (·.1) entry (fun _ => entry) dict).map (·.1)).Nodup :=
        Transition.nodup_upsert (fun _ h => h.symm) hdict
      have hle := ih _ hkeys
      have hstep := sum_entryWeight_upsert entry hdict
      rw [List.foldl_cons, List.map_cons, List.sum_cons]
      omega
  have hle := hfold [] List.nodup_nil
  rw [entriesWeight_eq, entriesWeight_eq, dictOf]
  simpa using hle

/-- What is read is no heavier than what it is read from. -/
theorem weight_parse (fuel : Nat) :
    (∀ text j rest, parseValue fuel text = some (j, rest) →
      jsonWeight j + weight rest ≤ weight text) ∧
    (∀ text items rest, parseItems fuel text = some (items, rest) →
      itemsWeight items + weight rest ≤ weight text) ∧
    ∀ text entries rest, parseEntries fuel text = some (entries, rest) →
      entriesWeight entries + weight rest ≤ weight text := by
  induction fuel with
  | zero =>
    refine ⟨?_, ?_, ?_⟩
    · intro text j rest h
      rw [parseValue] at h
      cases h
    · intro text j rest h
      rw [parseItems] at h
      cases h
    · intro text j rest h
      rw [parseEntries] at h
      cases h
  | succ fuel ih =>
    obtain ⟨ihValue, ihItems, ihEntries⟩ := ih
    refine ⟨?_, ?_, ?_⟩
    · intro text j rest h
      rw [parseValue.eq_def] at h
      split at h
      next => cases h
      next fuel' text =>
        obtain ⟨⟨s, tail⟩, hscan, h⟩ := Option.map_eq_some_iff.1 h
        obtain ⟨rfl, rfl⟩ := Prod.mk.inj h
        have hle := weight_scanString hscan
        rw [jsonWeight, weight_cons (by decide)]
        omega
      next fuel' text hfuel =>
        cases hfuel
        rw [weight_cons (by decide)]
        split at h
        next hclose =>
          obtain ⟨rfl, rfl⟩ := Prod.mk.inj (Option.some.inj h)
          have hbehind := weight_of_head? (by decide) hclose
          rw [jsonWeight, itemsWeight]
          omega
        next hclose =>
          obtain ⟨⟨item, tail⟩, hitem, h⟩ := Option.bind_eq_some_iff.1 h
          obtain ⟨⟨items, tail⟩, hitems, h⟩ := Option.map_eq_some_iff.1 h
          obtain ⟨rfl, rfl⟩ := Prod.mk.inj h
          have hle := ihValue _ _ _ hitem
          have hrest := ihItems _ _ _ hitems
          rw [weight_skipWs] at hle
          have hpos := itemsWeight_pos items
          rw [jsonWeight, itemsWeight]
          omega
      next fuel' text hfuel =>
        cases hfuel
        rw [weight_cons (by decide)]
        split at h
        next hclose =>
          obtain ⟨rfl, rfl⟩ := Prod.mk.inj (Option.some.inj h)
          have hbehind := weight_of_head? (by decide) hclose
          rw [jsonWeight, entriesWeight]
          omega
        next hclose =>
          obtain ⟨⟨key, tail⟩, hkey, h⟩ := Option.bind_eq_some_iff.1 h
          obtain ⟨⟨value, tail⟩, hvalue, h⟩ := Option.bind_eq_some_iff.1 h
          obtain ⟨⟨entries, tail⟩, hentries, h⟩ := Option.map_eq_some_iff.1 h
          obtain ⟨rfl, rfl⟩ := Prod.mk.inj h
          have hscan := weight_scanKey hkey
          have hle := ihValue _ _ _ hvalue
          have hrest := ihEntries _ _ _ hentries
          have hdict := entriesWeight_dictOf ((key, value) :: entries)
          rw [weight_skipWs] at hscan
          rw [entriesWeight] at hdict
          rw [jsonWeight]
          omega
      next => exact weight_parseAtom h
    · intro text items rest h
      rw [parseItems] at h
      split at h
      next hclose =>
        obtain ⟨rfl, rfl⟩ := Prod.mk.inj (Option.some.inj h)
        have hbehind := weight_of_head? (by decide) hclose
        rw [itemsWeight]
        omega
      next hclose =>
        split at h
        next hcomma =>
          obtain ⟨⟨item, tail⟩, hitem, h⟩ := Option.bind_eq_some_iff.1 h
          obtain ⟨⟨items, tail⟩, hitems, h⟩ := Option.map_eq_some_iff.1 h
          obtain ⟨rfl, rfl⟩ := Prod.mk.inj h
          have hbehind := weight_of_head? (by decide) hcomma
          have hle := ihValue _ _ _ hitem
          have hrest := ihItems _ _ _ hitems
          rw [weight_skipWs] at hle
          rw [itemsWeight]
          omega
        next => cases h
    · intro text entries rest h
      rw [parseEntries] at h
      split at h
      next hclose =>
        obtain ⟨rfl, rfl⟩ := Prod.mk.inj (Option.some.inj h)
        have hbehind := weight_of_head? (by decide) hclose
        rw [entriesWeight]
        omega
      next hclose =>
        split at h
        next hcomma =>
          obtain ⟨⟨key, tail⟩, hkey, h⟩ := Option.bind_eq_some_iff.1 h
          obtain ⟨⟨value, tail⟩, hvalue, h⟩ := Option.bind_eq_some_iff.1 h
          obtain ⟨⟨entries, tail⟩, hentries, h⟩ := Option.map_eq_some_iff.1 h
          obtain ⟨rfl, rfl⟩ := Prod.mk.inj h
          have hbehind := weight_of_head? (by decide) hcomma
          have hscan := weight_scanKey hkey
          have hle := ihValue _ _ _ hvalue
          have hrest := ihEntries _ _ _ hentries
          rw [weight_skipWs] at hscan
          rw [entriesWeight]
          omega
        next => cases h

theorem jsonWeight_le_of_loads {text : List Char} {j : Json} (h : loads text = some j) :
    jsonWeight j ≤ weight text := by
  obtain ⟨⟨value, rest⟩, hparse, hrest⟩ := Option.bind_eq_some_iff.1 h
  dsimp only at hrest
  split at hrest
  next hnil =>
    cases hrest
    have hle := (weight_parse _).1 _ _ _ hparse
    rw [weight_skipWs] at hle
    omega
  next hnil => cases hrest

end Json

end LlmPort.Text
