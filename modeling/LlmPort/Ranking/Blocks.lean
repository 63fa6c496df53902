import Mathlib.Algebra.Order.Group.Nat
import Mathlib.Data.Nat.Basic
import Mathlib.Tactic.Ring

/-!
# Items in blocks

A list is answered block by block, and the answers are put behind one another. The answer at a
position of the whole is the one for the item there only if every block but the last is answered by
as many items as it has, and all of them in order.
-/

namespace LlmPort.Ranking

variable {β : Type*} {key : β → Int} {size n k : Nat} {blocks : List (List β)}

/-- How many blocks `n` items make. -/
def blockCount (size n : Nat) : Nat := (n + size - 1) / size

/-- The items in order, each with the number of its block. -/
def tagged : (k : Nat) → (blocks : List (List β)) → List (Nat × β)
  | _, [] => []
  | k, block :: blocks => block.map (k, ·) ++ tagged (k + 1) blocks

theorem map_snd_tagged (k : Nat) (blocks : List (List β)) :
    (tagged k blocks).map (·.2) = blocks.flatten := by
  induction blocks generalizing k with
  | nil => rfl
  | cons block blocks ih =>
    rw [tagged, List.map_append, ih, List.map_map, List.flatten_cons]
    exact congrArg (· ++ _) (List.map_id _)

theorem lt_of_mem_tagged {p : Nat × β} (h : p ∈ tagged k blocks) : k ≤ p.1 := by
  induction blocks generalizing k with
  | nil => exact absurd h List.not_mem_nil
  | cons block blocks ih =>
    rcases List.mem_append.1 h with h | h
    · obtain ⟨b, -, rfl⟩ := List.mem_map.1 h
      exact le_rfl
    · exact (Nat.le_succ k).trans (ih h)

theorem blockCount_eq_zero_iff (hsize : 0 < size) : blockCount size n = 0 ↔ n = 0 := by
  rw [blockCount, Nat.div_eq_zero_iff]
  omega

theorem blockCount_of_lt (hsize : 0 < size) (h : size < n) :
    blockCount size n = blockCount size (n - size) + 1 := by
  rw [blockCount, blockCount, ← Nat.add_div_right _ hsize]
  congr 1
  omega

theorem blockCount_of_le (hn : 0 < n) (h : n ≤ size) : blockCount size n = 1 := by
  rw [blockCount, Nat.div_eq_iff (by omega)]
  omega

/-- The answers of a block as they should be: in order, and no more if others follow. -/
def Answers (key : β → Int) (size n : Nat) (block : List β) : Prop :=
  (∀ i < min size n, ∃ b, block[i]? = some b ∧ key b = i) ∧ (size < n → block.length = size)

/-- The answer at a position is the one of the right block for the right item. -/
def InPlace (key : β → Int) (size n k : Nat) (blocks : List (List β)) : Prop :=
  ∀ i < n, ∃ b, (tagged k blocks)[i]? = some (k + i / size, b) ∧ key b = (i % size : Nat)

theorem getElem?_tagged_head {block : List β} {i : Nat} {b : β} :
    (tagged k (block :: blocks))[i]? = some (k, b) ↔ block[i]? = some b := by
  rw [tagged]
  rcases Nat.lt_or_ge i block.length with h | h
  · rw [List.getElem?_append_left (by rwa [List.length_map]), List.getElem?_map]
    simp [List.getElem?_eq_getElem h]
  · rw [List.getElem?_append_right (by rwa [List.length_map]), List.getElem?_eq_none h]
    refine iff_of_false (fun hb => ?_) nofun
    have hle := lt_of_mem_tagged (List.mem_of_getElem? hb)
    omega

theorem getElem?_tagged_tail {block : List β} {i : Nat} :
    (tagged k (block :: blocks))[i + block.length]? = (tagged (k + 1) blocks)[i]? := by
  rw [tagged, List.getElem?_append_right (by rw [List.length_map]; omega), List.length_map,
    Nat.add_sub_cancel]

/-- A block that others follow has as many items as it should. -/
theorem InPlace.length_eq {block : List β} (hsize : 0 < size)
    (H : InPlace key size n k (block :: blocks)) (hn : size < n) : block.length = size := by
  rcases Nat.lt_trichotomy block.length size with h | h | h
  · obtain ⟨b, hb, -⟩ := H block.length (by omega)
    rw [Nat.div_eq_of_lt h, Nat.add_zero, getElem?_tagged_head,
      List.getElem?_eq_none le_rfl] at hb
    cases hb
  · exact h
  · obtain ⟨b, hb, -⟩ := H size hn
    have hhead : (tagged k (block :: blocks))[size]? = some (k, block[size]) :=
      getElem?_tagged_head.2 (List.getElem?_eq_getElem h)
    rw [hhead, Nat.div_self hsize] at hb
    have htag := congrArg Prod.fst (Option.some.inj hb)
    omega

theorem inPlace_cons_iff {block : List β} (hsize : 0 < size)
    (hlength : size < n → block.length = size) :
    InPlace key size n k (block :: blocks) ↔
      (∀ i < min size n, ∃ b, block[i]? = some b ∧ key b = i) ∧
        InPlace key size (n - size) (k + 1) blocks := by
  have hhead : ∀ i < size, (∃ b, (tagged k (block :: blocks))[i]? = some (k + i / size, b) ∧
      key b = (i % size : Nat)) ↔ ∃ b, block[i]? = some b ∧ key b = i := by
    intro i hi
    rw [Nat.div_eq_of_lt hi, Nat.mod_eq_of_lt hi, Nat.add_zero]
    simp only [getElem?_tagged_head]
  have htail : ∀ i < n - size, (∃ b, (tagged k (block :: blocks))[i + size]? =
      some (k + (i + size) / size, b) ∧ key b = ((i + size) % size : Nat)) ↔
      ∃ b, (tagged (k + 1) blocks)[i]? = some (k + 1 + i / size, b) ∧
        key b = (i % size : Nat) := by
    intro i hi
    have hindex : i + size = i + block.length := by rw [hlength (by omega)]
    rw [Nat.add_div_right _ hsize, Nat.add_mod_right, hindex, getElem?_tagged_tail,
      Nat.add_right_comm, Nat.add_assoc]
  constructor
  · intro H
    exact ⟨fun i hi => (hhead i (by omega)).1 (H i (by omega)),
      fun i hi => (htail i hi).1 (H (i + size) (by omega))⟩
  · rintro ⟨hfirst, hrest⟩ i hi
    rcases Nat.lt_or_ge i size with h | h
    · exact (hhead i h).2 (hfirst i (by omega))
    · obtain ⟨j, rfl⟩ := Nat.exists_eq_add_of_le' h
      exact (htail j (by omega)).2 (hrest j (by omega))

/-- All answers are in place exactly if those of each block are. -/
theorem inPlace_iff (hsize : 0 < size) (h : blocks.length = blockCount size n) :
    InPlace key size n k blocks ↔
      ∀ j block, blocks[j]? = some block → Answers key size (n - j * size) block := by
  induction blocks generalizing n k with
  | nil =>
    rw [List.length_nil, eq_comm, blockCount_eq_zero_iff hsize] at h
    exact iff_of_true (fun i hi => by omega) fun j block hj => by cases hj
  | cons block blocks ih =>
    have hcount : blocks.length = blockCount size (n - size) := by
      rw [List.length_cons] at h
      rcases Nat.lt_or_ge size n with hn | hn
      · rw [blockCount_of_lt hsize hn] at h
        omega
      · have hpos : 0 < n := Nat.pos_of_ne_zero fun hzero => by
          rw [(blockCount_eq_zero_iff hsize).2 hzero] at h
          cases h
        rw [blockCount_of_le hpos hn] at h
        rw [Nat.sub_eq_zero_of_le hn, (blockCount_eq_zero_iff hsize).2 rfl]
        omega
    constructor
    · intro H
      have hlength := H.length_eq hsize
      obtain ⟨hfirst, hrest⟩ := (inPlace_cons_iff hsize hlength).1 H
      rintro (_ | j) block' hj
      · obtain rfl := Option.some.inj hj
        rw [Nat.zero_mul, Nat.sub_zero]
        exact ⟨hfirst, hlength⟩
      · have hj := (ih hcount).1 hrest j block' hj
        rwa [Nat.succ_mul, Nat.add_comm, ← Nat.sub_sub]
    · intro H
      have hfirst := H 0 block rfl
      rw [Nat.zero_mul, Nat.sub_zero] at hfirst
      refine (inPlace_cons_iff hsize hfirst.2).2 ⟨hfirst.1, (ih hcount).2 fun j block' hj => ?_⟩
      have hj := H (j + 1) block' hj
      rwa [Nat.succ_mul, Nat.add_comm, ← Nat.sub_sub] at hj

end LlmPort.Ranking
