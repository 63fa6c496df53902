import Mathlib.Data.List.Perm.Basic
import Mathlib.Data.List.Nodup
import Mathlib.Order.Lattice
import LlmPort.Transition.Upsert

/-!
# Recency

The rows of a table in the order in which they were last written, and the latest of them. A table
that only keeps its latest rows knows as much as one that keeps them all: `latest_touch`.
-/

namespace LlmPort.Transition

variable {ρ : Type*} {κ : Type*} [DecidableEq κ]
variable {key : ρ → κ} {row x : ρ} {l l' : List ρ} {n : Nat}

/-- The row is written: it is the last one now. -/
def touch (key : ρ → κ) (row : ρ) (l : List ρ) : List ρ :=
  l.filter (fun x => key x ≠ key row) ++ [row]

/-- The last `n` rows. -/
def latest (n : Nat) (l : List ρ) : List ρ := l.drop (l.length - n)

theorem latest_of_length_le (h : l.length ≤ n) : latest n l = l := by
  rw [latest, Nat.sub_eq_zero_of_le h, List.drop_zero]

theorem latest_append (h : l'.length = n) : latest n (l ++ l') = l' := by
  rw [latest, List.length_append, h, Nat.add_sub_cancel, List.drop_left]

theorem length_latest : (latest n l).length = min n l.length := by
  rw [latest, List.length_drop]
  omega

theorem latest_sublist : (latest n l).Sublist l := List.drop_sublist ..

/-- Of sorted rows, those are among the latest that have few after them. -/
theorem mem_latest_iff {α : Type*} [LinearOrder α] {l : List α} {a : α} (h : l.Pairwise (· < ·))
    (ha : a ∈ l) : a ∈ latest n l ↔ (l.filter (a < ·)).length < n := by
  obtain ⟨s, t, rfl⟩ := List.append_of_mem ha
  obtain ⟨-, hcons, hbefore⟩ := List.pairwise_append.1 h
  have hafter := (List.pairwise_cons.1 hcons).1
  have hs : s.filter (a < ·) = [] := List.filter_eq_nil_iff.2 fun b hb hlt =>
    (of_decide_eq_true hlt).asymm (hbefore b hb a List.mem_cons_self)
  have ht : t.filter (a < ·) = t := List.filter_eq_self.2 fun b hb => decide_eq_true (hafter b hb)
  have hlater : ((s ++ a :: t).filter (a < ·)).length = t.length := by
    rw [List.filter_append, hs, List.nil_append, List.filter_cons_of_neg (by simp), ht]
  rw [hlater, latest, List.length_append, List.length_cons]
  by_cases hn : t.length < n
  · refine iff_of_true ?_ hn
    rw [List.drop_append_of_le_length (by omega)]
    exact List.mem_append_right _ List.mem_cons_self
  · refine iff_of_false (fun hmem => ?_) hn
    have hdrop : (s ++ a :: t).drop (s.length + (t.length + 1) - n) =
        t.drop (t.length - n) := by
      have hcount : s.length + (t.length + 1) - n = s.length + 1 + (t.length - n) := by omega
      rw [hcount, ← List.drop_drop, ← List.drop_drop, List.drop_left]
      rfl
    rw [hdrop] at hmem
    exact (hafter a (List.mem_of_mem_drop hmem)).ne rfl

/-- What is before the latest rows. -/
theorem take_append_latest (n : Nat) (l : List ρ) : l.take (l.length - n) ++ latest n l = l :=
  List.take_append_drop ..

theorem nodup_touch (h : (l.map key).Nodup) : ((touch key row l).map key).Nodup := by
  rw [touch, List.map_append, List.map_singleton]
  refine List.nodup_append.2 ⟨h.sublist (List.filter_sublist.map _), List.nodup_singleton _, ?_⟩
  intro a ha b hb heq
  obtain ⟨x, hx, rfl⟩ := List.mem_map.1 ha
  rw [List.mem_singleton.1 hb] at heq
  exact of_decide_eq_true (List.mem_filter.1 hx).2 heq

theorem touch_perm (h : l.Perm l') : (touch key row l).Perm (touch key row l') :=
  (h.filter _).append_right _

/-- Rows of other keys stay. -/
theorem filter_ne_of_not_mem (h : key row ∉ l.map key) :
    l.filter (fun x => key x ≠ key row) = l :=
  List.filter_eq_self.2 fun x hx => decide_eq_true fun heq => h (List.mem_map.2 ⟨x, hx, heq⟩)

theorem touch_of_not_mem (h : key row ∉ l.map key) : touch key row l = l ++ [row] := by
  rw [touch, filter_ne_of_not_mem h]

/-- A row that is there is written in its place, a new one is appended. -/
theorem upsert_perm_touch (h : (l.map key).Nodup) :
    (upsert key row (fun _ => row) l).Perm (touch key row l) := by
  rw [upsert]
  split
  next hany =>
    obtain ⟨y, hy, hkey⟩ := List.any_eq_true.1 hany
    have hkey : key y = key row := of_decide_eq_true hkey
    obtain ⟨a, b, rfl⟩ := List.append_of_mem hy
    rw [List.map_append, List.map_cons, List.nodup_append, List.nodup_cons] at h
    have ha : key row ∉ a.map key := fun hmem =>
      h.2.2 _ hmem _ List.mem_cons_self hkey.symm
    have hb : key row ∉ b.map key := hkey ▸ h.2.1.1
    have hstays {c : List ρ} (hc : key row ∉ c.map key) :
        c.map (fun x => if key x = key row then row else x) = c := by
      refine (List.map_congr_left fun x hx => ?_).trans (List.map_id c)
      exact if_neg fun heq => hc (List.mem_map.2 ⟨x, hx, heq⟩)
    rw [touch, List.map_append, List.map_cons, if_pos hkey, hstays ha, hstays hb, List.filter_append,
      List.filter_cons_of_neg (by simpa using hkey), filter_ne_of_not_mem ha,
      filter_ne_of_not_mem hb, List.append_assoc]
    exact (List.perm_append_singleton row b).symm.append_left a
  next hany =>
    rw [touch_of_not_mem]
    intro hmem
    obtain ⟨x, hx, hkey⟩ := List.mem_map.1 hmem
    exact hany (List.any_eq_true.2 ⟨x, hx, decide_eq_true hkey⟩)

theorem length_touch_of_mem (h : (l.map key).Nodup) (hmem : key row ∈ l.map key) :
    (touch key row l).length = l.length := by
  obtain ⟨x, hx, hkey⟩ := List.mem_map.1 hmem
  rw [← (upsert_perm_touch h).length_eq, upsert, if_pos, List.length_map]
  exact List.any_eq_true.2 ⟨x, hx, decide_eq_true hkey⟩

/-- A table that keeps the latest rows only knows the latest ones after the next one. -/
theorem latest_touch (hn : 0 < n) (h : (l.map key).Nodup) :
    latest n (touch key row l) = latest n (touch key row (latest n l)) := by
  by_cases hlen : l.length ≤ n
  · rw [latest_of_length_le hlen]
  · have hcur : (latest n l).length = n := by
      rw [length_latest]
      omega
    have hsplit := take_append_latest n l
    generalize l.take (l.length - n) = old at hsplit
    generalize latest n l = cur at hcur hsplit ⊢
    subst hsplit
    rw [List.map_append, List.nodup_append] at h
    by_cases hmem : key row ∈ cur.map key
    · -- the row moves to the end of the latest ones
      have hold : key row ∉ old.map key := fun hin => h.2.2 _ hin _ hmem rfl
      have hlength : (touch key row cur).length = n := (length_touch_of_mem h.2.1 hmem).trans hcur
      have htouch : touch key row (old ++ cur) = old ++ touch key row cur := by
        rw [touch, List.filter_append, filter_ne_of_not_mem hold, List.append_assoc]
        rfl
      rw [htouch, latest_append hlength, latest_of_length_le (Nat.le_of_eq hlength)]
    · -- the oldest of the latest ones makes room
      rw [touch, touch, List.filter_append, filter_ne_of_not_mem hmem]
      cases cur with
      | nil =>
        rw [List.length_nil] at hcur
        omega
      | cons c rest =>
        have hlength : (rest ++ [row]).length = n := by
          rw [List.length_append, ← hcur]
          rfl
        have hleft : old.filter (fun x => key x ≠ key row) ++ c :: rest ++ [row] =
            old.filter (fun x => key x ≠ key row) ++ [c] ++ (rest ++ [row]) := by simp
        have hright : c :: rest ++ [row] = [c] ++ (rest ++ [row]) := rfl
        rw [hleft, hright, latest_append hlength, latest_append hlength]

/-- Without its first row a table is without the first row of another order of it exactly if the two
are the same. -/
theorem tail_perm_iff {a b : ρ} (h : (a :: l).Perm (b :: l')) (hnodup : (a :: l).Nodup) :
    l.Perm l' ↔ a = b := by
  constructor
  · intro htail
    have hmem : a ∈ b :: l' := h.mem_iff.1 List.mem_cons_self
    rcases List.mem_cons.1 hmem with heq | hin
    · exact heq
    · exact absurd (htail.mem_iff.2 hin) (List.nodup_cons.1 hnodup).1
  · rintro rfl
    exact h.cons_inv

/-- A table that updates its rows in place and drops its first one when it gets too long keeps the
latest rows over a step exactly if the row it drops, if any, is the oldest of them. -/
theorem drop_upsert_perm_iff (hn : 0 < n) (h : (l.map key).Nodup) (hperm : l'.Perm (latest n l)) :
    ((upsert key row (fun _ => row) l').drop
        ((upsert key row (fun _ => row) l').length - n)).Perm (latest n (touch key row l)) ↔
      (l'.length = n → key row ∉ l'.map key → l'.head? = (latest n l).head?) := by
  rw [latest_touch hn h]
  have hcur : ((latest n l).map key).Nodup := h.sublist (latest_sublist.map _)
  have hle : (latest n l).length ≤ n := Nat.le_trans (Nat.le_of_eq length_latest) (Nat.min_le_left ..)
  generalize latest n l = cur at hperm hcur hle ⊢
  have hnodup : (l'.map key).Nodup := (hperm.map key).nodup_iff.2 hcur
  have hupsert : (upsert key row (fun _ => row) l').Perm (touch key row l') :=
    upsert_perm_touch hnodup
  have hwritten := hupsert.trans (touch_perm hperm)
  by_cases hfull : l'.length = n ∧ key row ∉ l'.map key
  · obtain ⟨hlen, hnew⟩ := hfull
    have hnew' : key row ∉ cur.map key := fun hmem => hnew ((hperm.map key).mem_iff.2 hmem)
    have happend : upsert key row (fun _ => row) l' = l' ++ [row] := by
      rw [upsert, if_neg]
      intro hany
      obtain ⟨x, hx, hkey⟩ := List.any_eq_true.1 hany
      exact hnew (List.mem_map.2 ⟨x, hx, of_decide_eq_true hkey⟩)
    rw [happend, touch_of_not_mem hnew', forall_prop_of_true hlen, forall_prop_of_true hnew]
    cases l' with
    | nil =>
      rw [List.length_nil] at hlen
      omega
    | cons a rest =>
      cases cur with
      | nil => exact absurd hperm.length_eq (by simp)
      | cons b rest' =>
        have hrest : (rest' ++ [row]).length = n := by
          rw [← hlen, hperm.length_eq, List.length_append]
          rfl
        have hright : latest n (b :: rest' ++ [row]) = rest' ++ [row] := by
          rw [List.cons_append]
          exact latest_append (l := [b]) hrest
        have hleft : (a :: rest ++ [row]).length - n = 1 := by
          rw [List.length_append, hlen]
          simp
        rw [hright, hleft, List.cons_append, List.drop_one, List.tail_cons,
          List.perm_append_right_iff, tail_perm_iff hperm hnodup.of_map]
        simp
  · have hshort : (touch key row cur).length ≤ n := by
      rw [← hwritten.length_eq, upsert]
      split
      next =>
        rw [List.length_map, hperm.length_eq]
        exact hle
      next hany =>
        have hnew : key row ∉ l'.map key := by
          intro hmem
          obtain ⟨x, hx, hkey⟩ := List.mem_map.1 hmem
          exact hany (List.any_eq_true.2 ⟨x, hx, decide_eq_true hkey⟩)
        have hlen : l'.length ≠ n := fun heq => hfull ⟨heq, hnew⟩
        have hle' : l'.length ≤ n := Nat.le_trans (Nat.le_of_eq hperm.length_eq) hle
        rw [List.length_append, List.length_singleton]
        omega
    rw [latest_of_length_le hshort, hwritten.length_eq, Nat.sub_eq_zero_of_le hshort, List.drop_zero]
    exact iff_of_true hwritten fun hlen hnew => absurd ⟨hlen, hnew⟩ hfull

end LlmPort.Transition
