import LlmPort.Backend.NodeControl.Model

/-!
# The text of a UUID

The characters of `str(uuid)`, and that the text determines the UUID.
-/

namespace LlmPort.Backend.NodeControl

theorem mem_toDigits {n : Nat} {c : Char} (h : c ∈ Nat.toDigits 16 n) :
    ∃ d < 16, c = Nat.digitChar d := by
  induction n using Nat.strongRecOn with
  | ind n ih =>
    rw [Nat.toDigits_eq_if (by decide)] at h
    split at h
    next hlt => exact ⟨n, hlt, List.mem_singleton.1 h⟩
    next hge =>
      obtain h | h := List.mem_append.1 h
      · exact ih (n / 16) (Nat.div_lt_self (by omega) (by decide)) h
      · exact ⟨n % 16, Nat.mod_lt _ (by decide), List.mem_singleton.1 h⟩

/-- The 32 digits of a UUID. -/
def uuidHex (id : Uuid) : List Char := (Nat.toDigits 16 id.toNat).leftpad 32 '0'

variable {id id' : Uuid} {c : Char}

theorem mem_uuidHex (h : c ∈ uuidHex id) : ∃ d < 16, c = Nat.digitChar d := by
  obtain h | h := List.mem_append.1 h
  · exact ⟨0, by decide, (List.mem_replicate.1 h).2⟩
  · exact mem_toDigits h

theorem toList_uuidStr (id : Uuid) : (uuidStr id).toList =
    (uuidHex id).take 8 ++ '-' :: ((uuidHex id).drop 8).take 4 ++ '-' ::
      ((uuidHex id).drop 12).take 4 ++ '-' :: ((uuidHex id).drop 16).take 4 ++ '-' ::
      (uuidHex id).drop 20 := by
  unfold uuidStr
  rw [String.toList_ofList]
  rfl

theorem length_uuidHex (id : Uuid) : (uuidHex id).length = 32 := by
  have hle : (Nat.toDigits 16 id.toNat).length ≤ 32 :=
    (Nat.length_toDigits_le_iff (by decide) (by decide)).2 id.isLt
  unfold uuidHex
  rw [List.length_leftpad]
  omega

theorem length_uuidStr (id : Uuid) : (uuidStr id).length = 36 := by
  rw [← String.length_toList, toList_uuidStr]
  simp [length_uuidHex]

theorem mem_uuidStr (h : c ∈ (uuidStr id).toList) : c = '-' ∨ ∃ d < 16, c = Nat.digitChar d := by
  have hgroup (k m : Nat) : c ∈ ((uuidHex id).drop k).take m → ∃ d < 16, c = Nat.digitChar d :=
    fun hm => mem_uuidHex (List.mem_of_mem_drop (List.mem_of_mem_take hm))
  rw [toList_uuidStr] at h
  simp only [List.mem_append, List.mem_cons] at h
  obtain ((((h | h | h) | h | h) | h | h) | h | h) := h
  · exact .inr (hgroup 0 8 h)
  · exact .inl h
  · exact .inr (hgroup _ _ h)
  · exact .inl h
  · exact .inr (hgroup _ _ h)
  · exact .inl h
  · exact .inr (hgroup _ _ h)
  · exact .inl h
  · exact .inr (mem_uuidHex (List.mem_of_mem_drop h))

/-- A character that is no hyphen and no digit is not in the text. -/
theorem not_mem_uuidStr (hc : c ≠ '-') (hdigit : ∀ d < 16, Nat.digitChar d ≠ c) (id : Uuid) :
    c ∉ (uuidStr id).toList := by
  intro h
  obtain h | ⟨d, hd, h⟩ := mem_uuidStr h
  · exact hc h
  · exact hdigit d hd h.symm

/-- Without its hyphens the text is the digits. -/
theorem filter_uuidStr (id : Uuid) : (uuidStr id).toList.filter (· ≠ '-') = uuidHex id := by
  have hdigit : ∀ d < 16, Nat.digitChar d ≠ '-' := by decide
  have hall (l : List Char) (hl : ∀ c ∈ l, c ∈ uuidHex id) : l.filter (· ≠ '-') = l := by
    refine List.filter_eq_self.2 fun c hc => decide_eq_true ?_
    obtain ⟨d, hd, rfl⟩ := mem_uuidHex (hl c hc)
    exact hdigit d hd
  have hgroup (k m : Nat) : (((uuidHex id).drop k).take m).filter (· ≠ '-') =
      ((uuidHex id).drop k).take m :=
    hall _ fun c hc => List.mem_of_mem_drop (List.mem_of_mem_take hc)
  rw [toList_uuidStr]
  simp only [List.filter_append, List.filter_cons, ne_eq, not_true_eq_false, decide_false,
    Bool.false_eq_true, if_false]
  have h8 := hgroup 0 8
  have h20 := hall ((uuidHex id).drop 20) fun c hc => List.mem_of_mem_drop hc
  simp only [List.drop_zero, ne_eq] at h8 h20 hgroup
  rw [h8, hgroup, hgroup, hgroup, h20]
  have hsplit (k : Nat) : ((uuidHex id).drop k).take 4 ++ (uuidHex id).drop (k + 4) =
      (uuidHex id).drop k := by
    rw [← List.drop_drop]
    exact List.take_append_drop ..
  rw [List.append_assoc, List.append_assoc, List.append_assoc, hsplit 16, hsplit 12, hsplit 8,
    List.take_append_drop]

/-- The number that hexadecimal digits write. -/
def readHex (digits : List Char) : Nat :=
  digits.foldl (fun n c => 16 * n + if c.toNat < 58 then c.toNat - 48 else c.toNat - 87) 0

theorem readHex_snoc {l : List Char} {d : Nat} (hd : d < 16) :
    readHex (l ++ [Nat.digitChar d]) = 16 * readHex l + d := by
  have hval : ∀ d < 16, (if (Nat.digitChar d).toNat < 58 then (Nat.digitChar d).toNat - 48
      else (Nat.digitChar d).toNat - 87) = d := by decide
  unfold readHex
  rw [List.foldl_append, List.foldl_cons, List.foldl_nil, hval d hd]

theorem readHex_replicate (k : Nat) : readHex (List.replicate k '0') = 0 := by
  induction k with
  | zero => rfl
  | succ k ih =>
    rw [List.replicate_succ']
    exact (readHex_snoc (d := 0) (by decide)).trans (by rw [ih])

theorem readHex_toDigits (k n : Nat) :
    readHex (List.replicate k '0' ++ Nat.toDigits 16 n) = n := by
  induction n using Nat.strongRecOn with
  | ind n ih =>
    rw [Nat.toDigits_eq_if (by decide)]
    split
    next hlt => rw [readHex_snoc hlt, readHex_replicate, Nat.mul_zero, Nat.zero_add]
    next hge =>
      rw [← List.append_assoc, readHex_snoc (Nat.mod_lt _ (by decide)),
        ih (n / 16) (Nat.div_lt_self (by omega) (by decide))]
      exact Nat.div_add_mod n 16

theorem uuidStr_injective (h : uuidStr id = uuidStr id') : id = id' := by
  have hread (id : Uuid) : readHex ((uuidStr id).toList.filter (· ≠ '-')) = id.toNat := by
    rw [filter_uuidStr]
    exact readHex_toDigits _ _
  apply BitVec.eq_of_toNat_eq
  rw [← hread id, h, hread id']

end LlmPort.Backend.NodeControl
