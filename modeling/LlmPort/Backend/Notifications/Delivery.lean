import Mathlib.Data.List.Perm.Basic
import LlmPort.Backend.Notifications.Outbox

/-!
# How often a notification is sent

Two dispatchers that have one row in hand both send it, and the one that is late overwrites what the
other wrote. What follows is about runs in which a poll takes no row that another dispatcher has in
hand, as when there is one process: when nothing is sent twice, how attempts are spaced, and how
often a poll passes a row over.
-/

namespace LlmPort.Backend.Notifications

open Transition NodeControl

variable {π : Type*}

namespace Phase

variable {p : Phase π} {row : NotificationOutbox π}

/-- The rows that `_deliver` has not been called with yet. -/
def waiting : Phase π → List (NotificationOutbox π)
  | delivering rows | accepted _ rows | raised _ _ rows => rows

/-- The row that is being delivered. -/
def current : Phase π → Option (NotificationOutbox π)
  | delivering _ => none
  | accepted row _ | raised row _ _ => some row

theorem held_eq (p : Phase π) : p.held = p.current.toList ++ p.waiting := by cases p <;> rfl

theorem held_of_waiting (h : row ∈ p.waiting) : row ∈ p.held := by
  rw [held_eq]
  exact List.mem_append_right _ h

theorem held_of_current (h : p.current = some row) : row ∈ p.held := by
  rw [held_eq, h]
  exact List.mem_append_left _ List.mem_cons_self

end Phase

namespace System

variable {st st' : System π} {e : Event π} {w v : Nat} {p : Phase π} {o : Outcome} {id : Uuid}
  {f : NotificationOutbox π → NotificationOutbox π} {row row' : NotificationOutbox π}

/-- A poll takes no row that a dispatcher has in hand. -/
def PollsApart (st : System π) : Event π → Prop
  | .poll w mailerEnabled ties => mailerEnabled = true → st.phase w = .delivering [] →
      ∀ v, ∀ row ∈ (st.phase v).held,
        ∀ row' ∈ NotificationOutbox.select st.now ties st.outbox, row'.id ≠ row.id
  | _ => True

/-- No row is in two places, and those that wait are as the table has them. -/
structure Apart (st : System π) : Prop where
  hand : ∀ w, ((st.phase w).held.map (·.id)).Nodup
  hands : ∀ w v, ∀ row ∈ (st.phase w).held, ∀ row' ∈ (st.phase v).held, row.id = row'.id → w = v
  waiting : ∀ w, ∀ row ∈ (st.phase w).waiting, row ∈ st.outbox ∧ row.due st.now

theorem nodup_select {now : Time} {ties : Uuid → Nat} {outbox : List (NotificationOutbox π)}
    (h : (outbox.map (·.id)).Nodup) :
    ((NotificationOutbox.select now ties outbox).map (·.id)).Nodup := by
  have hdue : ((outbox.filter (·.due now)).map (·.id)).Nodup :=
    h.sublist (List.filter_sublist.map _)
  refine List.Nodup.sublist ((List.take_sublist ..).map _) ?_
  exact ((List.mergeSort_perm ..).map _).nodup_iff.2 hdue

theorem due_mono {now now' : Time} (h : row.due now) (hle : now ≤ now') : row.due now' := by
  obtain ⟨hp, hat⟩ := of_decide_eq_true h
  exact decide_eq_true ⟨hp, hat.trans hle⟩

/-- A row of another id is not touched. -/
theorem mem_commit_of_ne (h : row ∈ st.outbox) (hne : row.id ≠ id) :
    row ∈ (st.commit id f o).outbox := by
  rw [commit_outbox]
  split
  next => exact List.mem_map.2 ⟨row, h, if_neg hne⟩
  next => exact h

/-- The row being delivered is not among those that wait. -/
theorem Apart.ne_current (h : st.Apart) (hrow : (st.phase w).current = some row)
    (hrow' : row' ∈ (st.phase v).waiting) : row'.id ≠ row.id := by
  intro heq
  have hwv := h.hands v w row' (Phase.held_of_waiting hrow') row (Phase.held_of_current hrow) heq
  subst hwv
  have hnodup := h.hand v
  rw [Phase.held_eq, hrow, List.map_append, List.nodup_append] at hnodup
  exact hnodup.2.2 _ (List.mem_map_of_mem List.mem_cons_self) _ (List.mem_map_of_mem hrow')
    heq.symm

/-- A dispatcher that goes on with no more than it had in hand. -/
theorem Apart.goto (h : st.Apart) (hphase : st'.phase = st.phase) (hnow : st'.now = st.now)
    (hheld : p.held.Sublist (st.phase w).held)
    (hwaiting : ∀ x ∈ p.waiting, x ∈ (st.phase w).waiting)
    (houtbox : ∀ v, ∀ x ∈ (st.phase v).waiting, x ∈ st.outbox → x ∈ st'.outbox) :
    (st'.goto w p).Apart := by
  have hsub (v : Nat) : ((st'.goto w p).phase v).held.Sublist (st.phase v).held := by
    rw [goto_phase, hphase, Function.update_apply]
    split
    next heq => exact heq ▸ hheld
    next => exact .refl _
  refine ⟨fun v => (h.hand v).sublist ((hsub v).map _), fun v v' x hx y hy =>
    h.hands v v' x ((hsub v).subset hx) y ((hsub v').subset hy), fun v x hx => ?_⟩
  have hx : x ∈ (st.phase v).waiting := by
    rw [goto_phase, hphase, Function.update_apply] at hx
    split at hx
    next heq => exact heq ▸ hwaiting x hx
    next => exact hx
  obtain ⟨hmem, hdue⟩ := h.waiting v x hx
  rw [goto_outbox, goto_now, hnow]
  exact ⟨houtbox v x hx hmem, hdue⟩

theorem apart_step (hinv : st.Inv) (h : st.Apart) (hok : PollsApart st e) : (st.step e).Apart := by
  have hmove := move_step st e
  generalize st.step e = st' at hmove
  cases hmove with
  | stay => exact h
  | tick d =>
    refine ⟨h.hand, h.hands, fun w x hx => ?_⟩
    obtain ⟨hmem, hdue⟩ := h.waiting w x hx
    exact ⟨hmem, due_mono hdue (Int.le_add_of_nonneg_right (Int.natCast_nonneg d))⟩
  | enqueue hkind hfresh =>
    refine ⟨h.hand, h.hands, fun w x hx => ?_⟩
    obtain ⟨hmem, hdue⟩ := h.waiting w x hx
    exact ⟨List.mem_append_left _ hmem, hdue⟩
  | @poll w ties hw =>
    have hok := hok rfl hw
    have hphase (v : Nat) :
        (st.goto w (.delivering (NotificationOutbox.select st.now ties st.outbox))).phase v =
          if v = w then .delivering (NotificationOutbox.select st.now ties st.outbox)
          else st.phase v := by
      rw [goto_phase, Function.update_apply]
    refine ⟨fun v => ?_, fun v v' x hx y hy heq => ?_, fun v x hx => ?_⟩
    · rw [hphase]
      split
      next => exact nodup_select hinv.nodup
      next => exact h.hand v
    · rw [hphase] at hx hy
      split at hx <;> split at hy
      next hv hv' => rw [hv, hv']
      next hv hv' => exact absurd heq (hok v' y hy x hx)
      next hv hv' => exact absurd heq.symm (hok v x hx y hy)
      next hv hv' => exact h.hands v v' x hx y hy heq
    · rw [hphase] at hx
      split at hx
      next => exact mem_select hx
      next => exact h.waiting v x hx
  | @skip w o row rows hw hkind =>
    refine h.goto rfl rfl ?_ (fun x hx => ?_) fun _ _ _ hx => hx
    · rw [hw]
      exact List.sublist_cons_self ..
    · rw [hw]
      exact List.mem_cons_of_mem _ hx
  | @send w o row rows hw hkind =>
    refine h.goto (by simp) (by simp) ?_ (fun x hx => ?_) fun v x _ hx => (by simpa using hx)
    · rw [hw]
      cases o <;> exact .refl _
    · rw [hw]
      cases o <;> exact List.mem_cons_of_mem _ hx
  | @mark w o row rows hw =>
    have hcurrent : (st.phase w).current = some row := by rw [hw]; rfl
    refine h.goto (by simp) (by simp) ?_ (fun x hx => ?_) fun v x hx hmem => ?_
    · rw [hw]
      cases o with
      | done => exact List.sublist_cons_self ..
      | lost exc => exact .refl _
      | failed exc => exact .refl _
    · rw [hw]
      cases o <;> exact hx
    · rw [warn_outbox]
      exact mem_commit_of_ne hmem (h.ne_current hcurrent hx)
  | @record w o row exc rows hw =>
    have hcurrent : (st.phase w).current = some row := by rw [hw]; rfl
    refine h.goto (by simp) (by simp) ?_ (fun x hx => ?_) fun v x hx hmem =>
      mem_commit_of_ne hmem (h.ne_current hcurrent hx)
    · rw [hw]
      cases o with
      | done => exact List.sublist_cons_self ..
      | lost exc => exact List.nil_sublist _
      | failed exc => exact List.nil_sublist _
    · rw [hw]
      cases o with
      | done => exact hx
      | lost exc => cases hx
      | failed exc => cases hx
  | crash w =>
    refine h.goto rfl rfl (List.nil_sublist _) (fun x hx => ?_) fun _ _ _ hx => hx
    cases hx

theorem apart_start {now : Time} : (start (π := π) now).Apart :=
  ⟨fun _ => List.nodup_nil, fun _ _ _ h => (by cases h), fun _ _ h => (by cases h)⟩

/-- The event is of no other dispatcher. -/
def Only (w : Nat) : Event π → Prop
  | .poll v _ _ | .send v _ | .mark v _ | .record v _ | .crash v => v = w
  | _ => True

/-- One dispatcher alone meets no other. -/
theorem guarded_pollsApart {now : Time} {es : List (Event π)} (h : ∀ e ∈ es, Only w e) :
    Guarded step PollsApart (start now) es := by
  have htrue : Guarded step (fun (_ : System π) _ => True) (start now) es :=
    guarded_iff_split.2 fun _ _ _ _ => trivial
  refine (htrue.and_events h).imp (I := fun st => ∀ v, v ≠ w → st.phase v = .delivering [])
    (fun st e hI hok v hv => ?_) (fun st e hI hok => ?_) fun _ _ => rfl
  · have hmove := move_step st e
    generalize st.step e = st' at hmove
    have hgoto {p : Phase π} : Function.update st.phase w p v = .delivering [] := by
      rw [Function.update_of_ne hv]
      exact hI v hv
    cases hmove with
    | stay | tick | enqueue => exact hI v hv
    | poll | skip | crash =>
      cases hok.1
      exact hgoto
    | send | mark | record =>
      cases hok.1
      simpa using hgoto
  · cases e with
    | poll u mailerEnabled ties =>
      have huw : u = w := hok.1
      subst huw
      intro _ hu v row hrow
      by_cases hv : v = u
      · rw [hv, hu] at hrow
        cases hrow
      · rw [hI v hv] at hrow
        cases hrow
    | _ => trivial

/-! ## Nothing is sent twice -/

/-- The mailer's answer to what it accepts arrives and is written down. -/
def SendsOnce (st : System π) (e : Event π) : Prop :=
  PollsApart st e ∧ match e with
    | .send _ o => ∀ exc, o ≠ .lost exc
    | .mark _ o => o = .done
    | .crash w => ∀ row rows, st.phase w ≠ .accepted row rows
    | _ => True

/-- What the mailer has accepted is settled, or about to be. -/
structure Once (st : System π) : Prop where
  nodup : (st.mailed.map (·.id)).Nodup
  stored : ∀ w, ∀ row ∈ (st.phase w).held, row ∈ st.outbox ∧ row.status = .pending
  settled : ∀ m ∈ st.mailed, (∃ row ∈ st.outbox, row.id = m.id ∧ row.status = .sent) ∨
    ∃ w row rows, st.phase w = .accepted row rows ∧ row.id = m.id

theorem Inv.eq_of_id (h : st.Inv) (hrow : row ∈ st.outbox) (hrow' : row' ∈ st.outbox)
    (heq : row.id = row'.id) : row = row' :=
  List.inj_on_of_nodup_map h.nodup hrow hrow' heq

/-- A row that waits has not been accepted yet. -/
theorem Once.not_mailed (h : st.Once) (hinv : st.Inv) (hapart : st.Apart)
    (hrow : row ∈ (st.phase w).waiting) : row.id ∉ st.mailed.map (·.id) := by
  intro hmem
  obtain ⟨m, hm, hid⟩ := List.mem_map.1 hmem
  have hheld := Phase.held_of_waiting hrow
  obtain ⟨hstored, hpending⟩ := h.stored w row hheld
  rcases h.settled m hm with ⟨x, hx, hxid, hsent⟩ | ⟨v, x, rows, hv, hxid⟩
  · rw [hinv.eq_of_id hx hstored (hxid.trans hid), hpending] at hsent
    cases hsent
  · have hcurrent : (st.phase v).current = some x := by rw [hv]; rfl
    exact hapart.ne_current hcurrent hrow (hid.symm.trans hxid.symm)

/-- A step after which a dispatcher that was not waiting to settle anything is somewhere else. -/
theorem Once.settled_goto (h : st.Once) (houtbox : st'.outbox = st.outbox)
    (hphase : st'.phase = st.phase) (hw : ∀ row rows, st.phase w ≠ .accepted row rows) {m : Mail π}
    (hm : m ∈ st.mailed) :
    (∃ row ∈ (st'.goto w p).outbox, row.id = m.id ∧ row.status = .sent) ∨
      ∃ v row rows, (st'.goto w p).phase v = .accepted row rows ∧ row.id = m.id := by
  rw [goto_outbox, houtbox, goto_phase, hphase]
  refine (h.settled m hm).imp_right fun ⟨v, row, rows, hv, hid⟩ => ⟨v, row, rows, ?_, hid⟩
  have hne : v ≠ w := by
    rintro rfl
    exact hw row rows hv
  rw [Function.update_of_ne hne]
  exact hv

/-- The rows in hand are as the table has them, if a step leaves them there. -/
theorem Once.stored_goto (h : st.Once) (hphase : st'.phase = st.phase)
    (hheld : ∀ x ∈ p.held, x ∈ (st.phase w).held ∧ x ∈ st'.outbox)
    (hothers : ∀ v, v ≠ w → ∀ x ∈ (st.phase v).held, x ∈ st'.outbox) :
    ∀ v, ∀ x ∈ ((st'.goto w p).phase v).held, x ∈ (st'.goto w p).outbox ∧ x.status = .pending := by
  intro v x hx
  rw [goto_phase, hphase, Function.update_apply] at hx
  split at hx
  next heq =>
    obtain ⟨hmem, hstored⟩ := hheld x hx
    exact ⟨hstored, (h.stored w x hmem).2⟩
  next hne => exact ⟨hothers v hne x hx, (h.stored v x hx).2⟩

theorem once_step (hinv : st.Inv) (hapart : st.Apart) (h : st.Once) (hok : SendsOnce st e) :
    (st.step e).Once := by
  obtain ⟨-, hok⟩ := hok
  have hmove := move_step st e
  generalize st.step e = st' at hmove
  cases hmove with
  | stay => exact h
  | tick d => exact ⟨h.nodup, h.stored, h.settled⟩
  | enqueue hkind hfresh =>
    refine ⟨h.nodup, fun w x hx => ?_, fun m hm => ?_⟩
    · exact ⟨List.mem_append_left _ (h.stored w x hx).1, (h.stored w x hx).2⟩
    · exact (h.settled m hm).imp_left fun ⟨x, hx, hsent⟩ => ⟨x, List.mem_append_left _ hx, hsent⟩
  | @poll w ties hw =>
    refine ⟨h.nodup, fun v x hx => ?_, fun m hm =>
      h.settled_goto rfl rfl (by simp [hw]) hm⟩
    rw [goto_phase, Function.update_apply] at hx
    split at hx
    next =>
      obtain ⟨hmem, hdue⟩ := mem_select hx
      exact ⟨hmem, (of_decide_eq_true hdue).1⟩
    next => exact h.stored v x hx
  | @skip w o row rows hw hkind =>
    refine ⟨h.nodup, h.stored_goto rfl (fun x hx => ?_) fun v _ x hx => (h.stored v x hx).1,
      fun m hm => h.settled_goto rfl rfl (by simp [hw]) hm⟩
    have hx : x ∈ (st.phase w).held := by
      rw [hw]
      exact List.mem_cons_of_mem _ hx
    exact ⟨hx, (h.stored w x hx).1⟩
  | @send w o row rows hw hkind =>
    have hwaiting : row ∈ (st.phase w).waiting := by
      rw [hw]
      exact List.mem_cons_self
    have hheld (next : Phase π) (hnext : next.held = row :: rows) (x : NotificationOutbox π)
        (hx : x ∈ next.held) : x ∈ (st.phase w).held ∧ x ∈ st.outbox := by
      have hx : x ∈ (st.phase w).held := by
        rw [hw]
        exact hnext ▸ hx
      exact ⟨hx, (h.stored w x hx).1⟩
    cases o with
    | done =>
      refine ⟨?_, h.stored_goto rfl (hheld _ rfl) fun v _ x hx => (h.stored v x hx).1,
        fun m hm => ?_⟩
      · exact List.nodup_cons.2 ⟨h.not_mailed hinv hapart hwaiting, h.nodup⟩
      · rcases List.mem_cons.1 hm with rfl | hm
        · exact .inr ⟨w, row, rows, Function.update_self .., rfl⟩
        · exact h.settled_goto rfl rfl (by simp [hw]) hm
    | lost exc => exact absurd rfl (hok exc)
    | failed exc =>
      exact ⟨h.nodup, h.stored_goto rfl (hheld _ rfl) fun v _ x hx => (h.stored v x hx).1,
        fun m hm => h.settled_goto rfl rfl (by simp [hw]) hm⟩
  | @mark w o row rows hw =>
    cases hok
    have hcurrent : (st.phase w).current = some row := by rw [hw]; rfl
    have hrow : row ∈ st.outbox := (h.stored w row (Phase.held_of_current hcurrent)).1
    have hkept (x : NotificationOutbox π) (hx : x ∈ st.outbox) (hne : x.id ≠ row.id) :
        x ∈ ((st.commit row.id (·.markSent st.now) .done).warn row.id .done).outbox := by
      rw [warn_outbox]
      exact mem_commit_of_ne hx hne
    refine ⟨h.nodup, h.stored_goto rfl (fun x hx => ?_) fun v hne x hx => ?_, fun m hm => ?_⟩
    · have hx : x ∈ (st.phase w).waiting := by
        rw [hw]
        exact hx
      exact ⟨Phase.held_of_waiting hx, hkept x (h.stored w x (Phase.held_of_waiting hx)).1
        (hapart.ne_current hcurrent hx)⟩
    · refine hkept x (h.stored v x hx).1 fun heq => hne ?_
      exact hapart.hands v w x hx row (Phase.held_of_current hcurrent) heq
    · have hsent (x : NotificationOutbox π) (hx : x ∈ st.outbox) (hid : x.id = row.id) :
          ∃ y ∈ (st.commit row.id (·.markSent st.now) .done).outbox,
            y.id = x.id ∧ y.status = .sent :=
        ⟨x.markSent st.now, List.mem_map.2 ⟨x, hx, if_pos hid⟩, rfl, rfl⟩
      rcases h.settled m hm with ⟨x, hx, hid, hs⟩ | ⟨v, x, rows', hv, hid⟩
      · by_cases hxid : x.id = row.id
        · obtain ⟨y, hy, hyid, hs⟩ := hsent x hx hxid
          exact .inl ⟨y, hy, hyid.trans hid, hs⟩
        · exact .inl ⟨x, hkept x hx hxid, hid, hs⟩
      · by_cases hvw : v = w
        · subst hvw
          cases hw.symm.trans hv
          obtain ⟨y, hy, hyid, hs⟩ := hsent row hrow rfl
          exact .inl ⟨y, hy, hyid.trans hid, hs⟩
        · refine .inr ⟨v, x, rows', ?_, hid⟩
          rw [goto_phase, Function.update_of_ne hvw]
          exact hv
  | @record w o row exc rows hw =>
    have hcurrent : (st.phase w).current = some row := by rw [hw]; rfl
    obtain ⟨hrow, hpending⟩ := h.stored w row (Phase.held_of_current hcurrent)
    refine ⟨by simpa using h.nodup, h.stored_goto (by simp) (fun x hx => ?_) fun v hne x hx => ?_,
      fun m hm => ?_⟩
    · have hx : x ∈ (st.phase w).waiting := by
        rw [hw]
        cases o with
        | done => exact hx
        | lost exc => cases hx
        | failed exc => cases hx
      exact ⟨Phase.held_of_waiting hx, mem_commit_of_ne (h.stored w x (Phase.held_of_waiting hx)).1
        (hapart.ne_current hcurrent hx)⟩
    · refine mem_commit_of_ne (h.stored v x hx).1 fun heq => hne ?_
      exact hapart.hands v w x hx row (Phase.held_of_current hcurrent) heq
    · rw [goto_mailed, commit_mailed] at hm
      rcases h.settled m hm with ⟨x, hx, hid, hs⟩ | ⟨v, x, rows', hv, hid⟩
      · refine .inl ⟨x, mem_commit_of_ne hx fun heq => ?_, hid, hs⟩
        -- what is sent is not in the hand of anyone
        rw [hinv.eq_of_id hx hrow heq, hpending] at hs
        cases hs
      · have hvw : v ≠ w := by
          rintro rfl
          cases hw.symm.trans hv
        refine .inr ⟨v, x, rows', ?_, hid⟩
        rw [goto_phase, commit_phase, Function.update_of_ne hvw]
        exact hv
  | crash w =>
    refine ⟨h.nodup, h.stored_goto rfl (fun x hx => ?_) fun v _ x hx => (h.stored v x hx).1,
      fun m hm => h.settled_goto rfl rfl hok hm⟩
    cases hx

theorem once_start {now : Time} : (start (π := π) now).Once :=
  ⟨List.nodup_nil, fun _ _ h => (by cases h), fun _ h => (by cases h)⟩

/-- Rows that are sent or given up are not written again. -/
def Final (st st' : System π) : Prop :=
  ∀ row ∈ st.outbox, row.status ≠ .pending → row ∈ st'.outbox

/-- Only a row in hand is written, and that one is pending. -/
theorem final_step (hinv : st.Inv) (h : st.Once) : Final st (st.step e) := by
  intro x hx hs
  have hmove := move_step st e
  generalize st.step e = st' at hmove
  have hwritten (w : Nat) (row : NotificationOutbox π)
      (hcurrent : (st.phase w).current = some row) : x.id ≠ row.id := by
    intro heq
    obtain ⟨hrow, hpending⟩ := h.stored w row (Phase.held_of_current hcurrent)
    exact hs (hinv.eq_of_id hx hrow heq ▸ hpending)
  cases hmove with
  | stay | tick | poll | skip | crash => exact hx
  | enqueue => exact List.mem_append_left _ hx
  | send => simpa using hx
  | @mark w o row rows hw =>
    rw [goto_outbox, warn_outbox]
    exact mem_commit_of_ne hx (hwritten w row (by rw [hw]; rfl))
  | @record w o row exc rows hw => exact mem_commit_of_ne hx (hwritten w row (by rw [hw]; rfl))

/-- A row that is given up has not been accepted. -/
theorem Once.failed_not_mailed (h : st.Once) (hinv : st.Inv) (hrow : row ∈ st.outbox)
    (hs : row.status = .failed) : row.id ∉ st.mailed.map (·.id) := by
  intro hmem
  obtain ⟨m, hm, hid⟩ := List.mem_map.1 hmem
  rcases h.settled m hm with ⟨x, hx, hxid, hsent⟩ | ⟨w, x, rows, hw, hxid⟩
  · rw [hinv.eq_of_id hx hrow (hxid.trans hid), hs] at hsent
    cases hsent
  · have hcurrent : (st.phase w).current = some x := by rw [hw]; rfl
    obtain ⟨hx, hpending⟩ := h.stored w x (Phase.held_of_current hcurrent)
    rw [hinv.eq_of_id hx hrow (hxid.trans hid), hs] at hpending
    cases hpending

/-- Where the dispatchers do not meet and no answer of the mailer gets lost, no notification is
accepted twice, none that is given up is accepted at all, and either end is final. -/
theorem delivered_once {now : Time} {es : List (Event π)}
    (h : Guarded step SendsOnce (start now) es) :
    Always step (fun st => (st.mailed.map (·.id)).Nodup ∧
      ∀ row ∈ st.outbox, row.status = .failed → row.id ∉ st.mailed.map (·.id)) (start now) es ∧
    Along step Final (start now) es := by
  let Good (st : System π) : Prop := st.Inv ∧ st.Apart ∧ st.Once
  have hgood (st : System π) (e : Event π) (hI : Good st) (hok : SendsOnce st e) :
      Good (st.step e) :=
    ⟨inv_step hI.1, apart_step hI.1 hI.2.1 hok.1, once_step hI.1 hI.2.1 hI.2.2 hok⟩
  have hstart : Good (start now) := ⟨inv_start, apart_start, once_start⟩
  constructor
  · exact h.always hgood (fun st hI => ⟨hI.2.2.nodup, fun row hrow hs =>
      hI.2.2.failed_not_mailed hI.1 hrow hs⟩) hstart
  · rintro pre mid post rfl
    have hall : Guarded step (fun st _ => Good st) (start now) (pre ++ mid ++ post) :=
      h.imp hgood (fun _ _ hI _ => hI) hstart
    have hmid := (guarded_append.1 (guarded_append.1 hall).1).2
    rw [run_append]
    exact hmid.relation (I := fun _ => True) (fun _ _ hx _ => hx)
      (fun _ b _ hab hbc row hrow hs => hbc row (hab row hrow hs) hs) (fun _ _ _ => trivial)
      (fun st e _ hI => final_step hI.1 hI.2.2) trivial

/-- One notification that the mailer first refuses. -/
def refusedOnce : List (Event Unit) :=
  [.enqueue 1 .passwordReset rfl () 0, .poll 0 true fun _ => 0, .send 0 (.failed []),
    .record 0 .done, .tick 60000000, .poll 0 true fun _ => 0, .send 0 .done, .mark 0 .done]

theorem guarded_refusedOnce : Guarded step PollsApart (start 0) refusedOnce :=
  guarded_pollsApart (w := 0) (by simp [refusedOnce, Only])

theorem delivered_once_refusedOnce :
    ((run step (start 0) refusedOnce).mailed.map (·.id)).Nodup ∧
      (run step (start 0) refusedOnce).mailed = [⟨1, .passwordReset, ()⟩] := by
  have hguard : Guarded step SendsOnce (start 0) refusedOnce := by
    refine guarded_refusedOnce.and ⟨trivial, trivial, fun exc => (by simp), trivial, trivial,
      trivial, fun exc => (by simp), rfl, trivial⟩
  exact ⟨((delivered_once hguard).1 _ (List.prefix_refl _)).1, by decide +kernel⟩

/-! ## Attempts are spaced -/

/-- Instants, the latest first, of which each comes after the backoff that the earlier ones call
for. -/
def Spaced : List Time → Prop
  | t :: t' :: ts => t' + backoff (ts.length + 1) ≤ t ∧ Spaced (t' :: ts)
  | _ => True

/-- Every failed delivery is written down, whether the writing dispatcher knows or not. -/
def Recorded (st : System π) (e : Event π) : Prop :=
  PollsApart st e ∧ match e with
    | .record _ o => o.took = true
    | .crash w => (st.phase w).current = none
    | _ => True

/-- When the mailer was asked to send a notification, the latest first. -/
def times (st : System π) (id : Uuid) : List Time :=
  (st.attempts.filter (·.1 = id)).map (·.2)

theorem times_post : (st.post row o).times id =
    if row.id = id then st.now :: st.times id else st.times id := by
  unfold times
  rw [post_attempts, List.filter_cons]
  split <;> simp_all

theorem times_congr (h : st'.attempts = st.attempts) : st'.times id = st.times id := by
  rw [times, times, h]

structure Paced (st : System π) : Prop where
  spaced : ∀ id, Spaced (st.times id) ∧ (st.times id).length ≤ maxAttempts ∧
    ∀ t ∈ (st.times id).head?, t ≤ st.now
  known : ∀ id, st.times id ≠ [] → ∃ row ∈ st.outbox, row.id = id
  /-- A row that is not being delivered counts its attempts and waits for the backoff. -/
  rests : ∀ row ∈ st.outbox, row.status = .pending →
    (∀ w x, (st.phase w).current = some x → x.id ≠ row.id) →
    (st.times row.id).length = row.attemptCount ∧
      ∀ t ∈ (st.times row.id).head?, t + backoff row.attemptCount ≤ row.nextAttemptAt
  current : ∀ w row, (st.phase w).current = some row →
    (st.times row.id).length = row.attemptCount + 1


theorem mem_commit_took (ho : o.took) (h : row ∈ (st.commit id f o).outbox) :
    row ∈ st.outbox ∧ row.id ≠ id ∨ ∃ x ∈ st.outbox, x.id = id ∧ row = f x := by
  rw [commit_outbox, if_pos ho] at h
  obtain ⟨x, hx, rfl⟩ := List.mem_map.1 h
  split
  next hid => exact .inr ⟨x, hx, hid, rfl⟩
  next hid => exact .inl ⟨hx, hid⟩

theorem exists_id (hg : Grows st st') (h : ∃ row ∈ st.outbox, row.id = id) :
    ∃ row ∈ st'.outbox, row.id = id := by
  obtain ⟨row, hrow, rfl⟩ := h
  obtain ⟨row', hrow', hmail, -⟩ := hg.outbox row hrow
  exact ⟨row', hrow', congrArg Mail.id hmail⟩

theorem current_goto : ((st.goto w p).phase v).current =
    if v = w then p.current else (st.phase v).current := by
  rw [goto_phase, Function.update_apply]
  split <;> rfl

/-- A dispatcher that delivers nothing moves on to deliver nothing. -/
theorem Paced.goto (h : st.Paced) (hw : (st.phase w).current = none) (hp : p.current = none) :
    (st.goto w p).Paced := by
  have hcurrent (v : Nat) : ((st.goto w p).phase v).current = (st.phase v).current := by
    rw [current_goto]
    split
    next heq => rw [heq, hw, hp]
    next => rfl
  refine ⟨h.spaced, h.known, fun x hx hs hfree => ?_, fun v x hx => ?_⟩
  · exact h.rests x hx hs fun v y hy => hfree v y (hcurrent v ▸ hy)
  · exact h.current v x (hcurrent v ▸ hx)

theorem spaced_cons {t : Time} {ts : List Time} (h : Spaced ts)
    (hlast : ∀ t' ∈ ts.head?, t' + backoff ts.length ≤ t) : Spaced (t :: ts) := by
  cases ts with
  | nil => trivial
  | cons t' ts => exact ⟨hlast t' rfl, h⟩

theorem paced_step (hinv : st.Inv) (hapart : st.Apart) (h : st.Paced) (hok : Recorded st e) :
    (st.step e).Paced := by
  obtain ⟨-, hok⟩ := hok
  have hmove := move_step st e
  have hg : Grows st (st.step e) := grows_step
  generalize st.step e = st' at hmove hg
  cases hmove with
  | stay => exact h
  | tick d =>
    refine ⟨fun id => ?_, h.known, h.rests, h.current⟩
    obtain ⟨hspaced, hlen, hlast⟩ := h.spaced id
    exact ⟨hspaced, hlen, fun t ht =>
      (hlast t ht).trans (Int.le_add_of_nonneg_right (Int.natCast_nonneg d))⟩
  | @enqueue id kind hkind payload createdAt hfresh =>
    refine ⟨h.spaced, fun i hi => exists_id hg (h.known i hi), fun x hx hs hfree => ?_, h.current⟩
    rcases List.mem_append.1 hx with hx | hx
    · exact h.rests x hx hs hfree
    · rw [List.mem_singleton] at hx
      subst hx
      have hnone : st.times id = [] := by
        by_contra hne
        obtain ⟨y, hy, hid⟩ := h.known id hne
        exact hfresh y hy hid
      have htimes : times { st with outbox := st.outbox ++ [.new id kind payload createdAt] }
          (NotificationOutbox.new id kind payload createdAt).id = [] := hnone
      rw [htimes]
      exact ⟨rfl, fun t ht => (by cases ht)⟩
  | @poll w ties hw => exact h.goto (by rw [hw]; rfl) rfl
  | @skip w o row rows hw hkind => exact h.goto (by rw [hw]; rfl) rfl
  | @send w o row rows hw hkind =>
    have hwaiting : row ∈ (st.phase w).waiting := by
      rw [hw]
      exact List.mem_cons_self
    obtain ⟨hrow, hdue⟩ := hapart.waiting w row hwaiting
    obtain ⟨hpending, hat⟩ := of_decide_eq_true hdue
    obtain ⟨hcount, hlast⟩ := h.rests row hrow hpending fun v x hx heq =>
      hapart.ne_current hx hwaiting heq.symm
    have hcurrent (v : Nat) : ((((st.post row o).warn row.id o).goto w
        (Phase.after row rows (.accepted row rows) o)).phase v).current =
          if v = w then some row else (st.phase v).current := by
      rw [current_goto, warn_phase, post_phase]
      cases o <;> rfl
    have htimes (id : Uuid) : (((st.post row o).warn row.id o).goto w
        (Phase.after row rows (.accepted row rows) o)).times id =
          if row.id = id then st.now :: st.times id else st.times id := by
      rw [← times_post (o := o)]
      exact times_congr (by simp)
    obtain ⟨hspaced, hlen, -⟩ := h.spaced row.id
    refine ⟨fun id => ?_, fun id hid => ?_, fun x hx hs hfree => ?_, fun v x hx => ?_⟩
    · rw [htimes, goto_now, warn_now, post_now]
      split
      next heq =>
        subst heq
        refine ⟨spaced_cons hspaced fun t ht => ?_, ?_, fun t ht => ?_⟩
        · rw [hcount]
          exact (hlast t ht).trans hat
        · rw [List.length_cons, hcount]
          exact (hinv.rows row hrow).pending hpending
        · cases ht
          exact le_rfl
      next => exact h.spaced id
    · rw [htimes] at hid
      split at hid
      next heq => exact exists_id hg ⟨row, hrow, heq⟩
      next => exact exists_id hg (h.known id hid)
    · have hx : x ∈ st.outbox := by simpa using hx
      have hne : row.id ≠ x.id := hfree w row (by rw [hcurrent, if_pos rfl])
      rw [htimes, if_neg hne]
      refine h.rests x hx hs fun v y hy => hfree v y ?_
      rw [hcurrent, if_neg, hy]
      rintro rfl
      rw [hw] at hy
      cases hy
    · rw [hcurrent] at hx
      split at hx
      next =>
        cases hx
        rw [htimes, if_pos rfl, List.length_cons, hcount]
      next =>
        rw [htimes, if_neg (hapart.ne_current hx hwaiting)]
        exact h.current v x hx
  | @mark w o row rows hw =>
    have hold : (st.phase w).current = some row := by rw [hw]; rfl
    have htimes (id : Uuid) : (((st.commit row.id (·.markSent st.now) o).warn row.id o).goto w
        (Phase.after row rows (.delivering rows) o)).times id = st.times id :=
      times_congr (by simp)
    have hcurrent (v : Nat) : ((((st.commit row.id (·.markSent st.now) o).warn row.id o).goto w
        (Phase.after row rows (.delivering rows) o)).phase v).current =
          if v = w then (if o.exc = none then none else some row) else (st.phase v).current := by
      rw [current_goto, warn_phase, commit_phase]
      cases o <;> rfl
    refine ⟨fun id => ?_, fun id hid => ?_, fun x hx hs hfree => ?_, fun v x hx => ?_⟩
    · rw [htimes, goto_now, warn_now, commit_now]
      exact h.spaced id
    · rw [htimes] at hid
      exact exists_id hg (h.known id hid)
    · have hmem : x ∈ st.outbox ∧ x.id ≠ row.id := by
        rw [goto_outbox, warn_outbox] at hx
        cases ho : o.exc with
        | none =>
          have htook : o.took := by cases o <;> first | rfl | cases ho
          rcases mem_commit_took htook hx with hx | ⟨y, -, -, rfl⟩
          · exact hx
          · cases hs
        | some exc =>
          have hraised : (if o.exc = none then none else some row) = some row := by simp [ho]
          have hne : row.id ≠ x.id := hfree w row (by rw [hcurrent, if_pos rfl, hraised])
          obtain ⟨y, hy, rfl | ⟨hid, rfl⟩⟩ := mem_commit hx
          · exact ⟨hy, hne.symm⟩
          · exact absurd hid.symm hne
      rw [htimes]
      refine h.rests x hmem.1 hs fun v y hy => ?_
      by_cases hvw : v = w
      · subst hvw
        cases hold.symm.trans hy
        exact hmem.2.symm
      · exact hfree v y (by rw [hcurrent, if_neg hvw, hy])
    · rw [htimes]
      rw [hcurrent] at hx
      split at hx
      next =>
        split at hx
        next => cases hx
        next =>
          cases hx
          exact h.current w row hold
      next => exact h.current v x hx
  | @record w o row exc rows hw =>
    have hold : (st.phase w).current = some row := by rw [hw]; rfl
    have hcurrent (v : Nat) : (((st.commit row.id
        (·.recordFailure st.now row.attemptCount exc) o).goto w
          (.delivering (if o.exc.isSome then [] else rows))).phase v).current =
            if v = w then none else (st.phase v).current := by
      rw [current_goto, commit_phase]
      rfl
    have htimes (id : Uuid) : ((st.commit row.id
        (·.recordFailure st.now row.attemptCount exc) o).goto w
          (.delivering (if o.exc.isSome then [] else rows))).times id = st.times id :=
      times_congr (by simp)
    have hcounted := h.current w row hold
    refine ⟨fun id => ?_, fun id hid => ?_, fun x hx hs hfree => ?_, fun v x hx => ?_⟩
    · rw [htimes, goto_now, commit_now]
      exact h.spaced id
    · rw [htimes] at hid
      exact exists_id hg (h.known id hid)
    · rw [htimes]
      rcases mem_commit_took hok hx with ⟨hmem, hne⟩ | ⟨y, -, hid, rfl⟩
      · refine h.rests x hmem hs fun v y hy => ?_
        by_cases hvw : v = w
        · subst hvw
          cases hold.symm.trans hy
          exact hne.symm
        · exact hfree v y (by rw [hcurrent, if_neg hvw, hy])
      · have hid : (y.recordFailure st.now row.attemptCount exc).id = row.id := hid
        rw [hid]
        refine ⟨hcounted, fun t ht => ?_⟩
        have hle := (h.spaced row.id).2.2 t ht
        simp only [NotificationOutbox.recordFailure] at hs ⊢
        split at hs
        next => cases hs
        next hmore =>
          rw [if_neg hmore]
          exact Int.add_le_add_right hle _
    · rw [hcurrent] at hx
      split at hx
      next => cases hx
      next =>
        rw [htimes]
        exact h.current v x hx
  | crash w => exact h.goto hok rfl

theorem paced_start {now : Time} : (start (π := π) now).Paced :=
  ⟨fun _ => ⟨trivial, Nat.zero_le _, fun _ h => (by cases h)⟩, fun _ h => absurd rfl h,
    fun _ h => (by cases h), fun _ _ h => (by cases h)⟩

theorem paced_step' (hI : st.Inv ∧ st.Apart ∧ st.Paced) (hok : Recorded st e) :
    (st.step e).Inv ∧ (st.step e).Apart ∧ (st.step e).Paced :=
  ⟨inv_step hI.1, apart_step hI.1 hI.2.1 hok.1, paced_step hI.1 hI.2.1 hI.2.2 hok⟩

/-- Where the dispatchers do not meet and every failure is recorded, the mailer is asked to send a
notification five times at most, and each time only after the backoff the earlier ones call for. -/
theorem spaced_always {now : Time} {es : List (Event π)}
    (h : Guarded step Recorded (start now) es) :
    Always step (fun st => ∀ id, Spaced (st.times id) ∧ (st.times id).length ≤ maxAttempts)
      (start now) es := by
  exact h.always (I := fun st => st.Inv ∧ st.Apart ∧ st.Paced) (fun _ _ => paced_step')
    (fun st hI id => ⟨(hI.2.2.spaced id).1, (hI.2.2.spaced id).2.1⟩)
    ⟨inv_start, apart_start, paced_start⟩

theorem spaced_refusedOnce :
    Spaced ((run step (start 0) refusedOnce).times 1) ∧
      (run step (start 0) refusedOnce).times 1 = [60000000, 0] := by
  have hguard : Guarded step Recorded (start 0) refusedOnce :=
    guarded_refusedOnce.and ⟨trivial, trivial, trivial, rfl, trivial, trivial, trivial, trivial,
      trivial⟩
  exact ⟨(spaced_always hguard _ (List.prefix_refl _) 1).1, by decide +kernel⟩

/-! ## No row is passed over for long -/

/-- Moreover, one dispatcher finishes the batches it begins. -/
def Steady (w : Nat) (st : System π) (e : Event π) : Prop :=
  Recorded st e ∧ match e with
    | .record v o => v = w → o = .done
    | .crash v => v = w → (st.phase w).waiting = []
    | _ => True

/-- The dispatcher polls and leaves a due row behind. -/
def passesOver (w : Nat) (id : Uuid) (st : System π) : Event π → Bool
  | .poll v true ties => v = w ∧ (st.phase w).held.isEmpty ∧
      st.outbox.any (fun row => row.id = id && row.due st.now) ∧
      (NotificationOutbox.select st.now ties st.outbox).all (·.id ≠ id)
  | _ => false

/-- How often it does so in a run. -/
def passes (w : Nat) (id : Uuid) : System π → List (Event π) → Nat
  | _, [] => 0
  | st, e :: es => (passesOver w id st e).toNat + passes w id (st.step e) es

theorem before_iff {ties : Uuid → Nat} : NotificationOutbox.before ties row row' ↔
    row.createdAt < row'.createdAt ∨
      row.createdAt = row'.createdAt ∧ ties row.id ≤ ties row'.id := by
  rw [NotificationOutbox.before, decide_eq_true_eq]

theorem before_trans {ties : Uuid → Nat} (a b c : NotificationOutbox π)
    (hab : NotificationOutbox.before ties a b) (hbc : NotificationOutbox.before ties b c) :
    NotificationOutbox.before ties a c := by
  rw [before_iff] at *
  rcases hab with hab | ⟨hab, hties⟩
  · rcases hbc with hbc | ⟨hbc, -⟩
    · exact .inl (hab.trans hbc)
    · exact .inl (hbc ▸ hab)
  · rw [hab]
    exact hbc.imp_right fun ⟨hbc, hties'⟩ => ⟨hbc, hties.trans hties'⟩

theorem before_total {ties : Uuid → Nat} (a b : NotificationOutbox π) :
    (NotificationOutbox.before ties a b || NotificationOutbox.before ties b a) = true := by
  rw [Bool.or_eq_true, before_iff, before_iff]
  rcases lt_trichotomy a.createdAt b.createdAt with h | h | h
  · exact .inl (.inl h)
  · exact (Nat.le_total (ties a.id) (ties b.id)).imp (fun hle => .inr ⟨h, hle⟩)
      fun hle => .inr ⟨h.symm, hle⟩
  · exact .inr (.inl h)

/-- What is selected instead of a due row is as old as it, and a full batch. -/
theorem select_of_not_mem {now : Time} {ties : Uuid → Nat} {outbox : List (NotificationOutbox π)}
    (hrow : row ∈ outbox) (hdue : row.due now)
    (h : row ∉ NotificationOutbox.select now ties outbox) :
    (NotificationOutbox.select now ties outbox).length = 20 ∧
      ∀ x ∈ NotificationOutbox.select now ties outbox, x.createdAt ≤ row.createdAt := by
  unfold NotificationOutbox.select at *
  have hsorted : ((outbox.filter (·.due now)).mergeSort (NotificationOutbox.before ties)).Pairwise
      fun a b => NotificationOutbox.before ties a b :=
    List.pairwise_mergeSort before_trans before_total _
  have hmem : row ∈ (outbox.filter (·.due now)).mergeSort (NotificationOutbox.before ties) :=
    List.mem_mergeSort.2 (List.mem_filter.2 ⟨hrow, hdue⟩)
  generalize (outbox.filter (·.due now)).mergeSort (NotificationOutbox.before ties) = l at *
  have hdrop : row ∈ l.drop 20 := by
    rw [← List.take_append_drop 20 l] at hmem
    exact (List.mem_append.1 hmem).resolve_left h
  have hlong : 20 < l.length := by
    have hpos := List.length_pos_of_mem hdrop
    rw [List.length_drop] at hpos
    omega
  refine ⟨by rw [List.length_take]; omega, fun x hx => ?_⟩
  rw [← List.take_append_drop 20 l, List.pairwise_append] at hsorted
  exact (before_iff.1 (hsorted.2.2 x hx row hdrop)).elim le_of_lt fun heq => le_of_eq heq.1

theorem waiting_step (h : ∀ w, (st.phase w).waiting.length ≤ 20) :
    ∀ w, ((st.step e).phase w).waiting.length ≤ 20 := by
  have hmove := move_step st e
  generalize st.step e = st' at hmove
  have hgoto {w : Nat} {p : Phase π} (hp : p.waiting.length ≤ 20) (v : Nat) :
      (Function.update st.phase w p v).waiting.length ≤ 20 := by
    rw [Function.update_apply]
    split
    · exact hp
    · exact h v
  cases hmove with
  | stay | tick | enqueue => exact h
  | poll hw => exact hgoto (List.length_take_le ..)
  | @skip w o row rows hw hkind =>
    have hle := h w
    rw [hw] at hle
    exact hgoto (Nat.le_of_succ_le hle)
  | @send w o row rows hw hkind =>
    have hle := h w
    rw [hw] at hle
    rw [goto_phase, warn_phase, post_phase]
    refine hgoto ?_
    cases o <;> exact Nat.le_of_succ_le hle
  | @mark w o row rows hw =>
    have hle := h w
    rw [hw] at hle
    rw [goto_phase, warn_phase, commit_phase]
    refine hgoto ?_
    cases o <;> exact hle
  | @record w o row exc rows hw =>
    have hle := h w
    rw [hw] at hle
    rw [goto_phase, commit_phase]
    refine hgoto ?_
    split
    · exact Nat.zero_le _
    · exact hle
  | crash => exact hgoto (Nat.zero_le _)

/-- The attempts on the rows of a kind, and those that a dispatcher has before it. -/
def begun (p : Uuid → Bool) (w : Nat) (st : System π) : Nat :=
  st.attempts.countP (p ·.1) + (st.phase w).waiting.countP (p ·.id)

/-- The rows that are as old as the one of an id are of the kind. -/
def Ahead (p : Uuid → Bool) (id : Uuid) (st : System π) : Prop :=
  ∀ row ∈ st.outbox, row.id = id → ∀ x ∈ st.outbox, x.id ≠ id → x.createdAt ≤ row.createdAt → p x.id

theorem begun_goto {p : Uuid → Bool} {q : Phase π} : (st.goto v q).begun p w =
    st.attempts.countP (p ·.1) + (if w = v then q else st.phase w).waiting.countP (p ·.id) := by
  rw [begun, goto_attempts, goto_phase, Function.update_apply]

/-- A dispatcher goes on with the rows it had. -/
theorem begun_goto_of_waiting {p : Uuid → Bool} {q : Phase π} (hphase : st'.phase = st.phase)
    (hattempts : st'.attempts = st.attempts) (hq : v = w → q.waiting = (st.phase w).waiting) :
    (st'.goto v q).begun p w = st.begun p w := by
  rw [begun_goto, hphase, hattempts, begun]
  split
  next heq => rw [hq heq.symm]
  next => rfl

/-- A row that is taken is sent. -/
theorem begun_le_step {p : Uuid → Bool} (hinv : st.Inv) (hapart : st.Apart) (hok : Steady w st e) :
    st.begun p w ≤ (st.step e).begun p w := by
  obtain ⟨-, hok⟩ := hok
  have hmove := move_step st e
  generalize st.step e = st' at hmove
  cases hmove with
  | stay | tick | enqueue => exact le_rfl
  | @poll v ties hv =>
    rw [begun_goto]
    refine Nat.add_le_add_left ?_ _
    split
    next heq =>
      rw [heq, hv]
      exact Nat.zero_le _
    next => exact le_rfl
  | @skip v o row rows hv hkind =>
    -- there are no rows of an unknown kind
    have hwaiting : row ∈ (st.phase v).waiting := by
      rw [hv]
      exact List.mem_cons_self
    rw [(hinv.rows row (hapart.waiting v row hwaiting).1).known] at hkind
    cases hkind
  | @send v o row rows hv hkind =>
    rw [begun_goto, warn_attempts, post_attempts, warn_phase, post_phase, List.countP_cons, begun]
    by_cases heq : w = v
    · subst heq
      have hrest : (Phase.after row rows (.accepted row rows) o).waiting = rows := by
        cases o <;> rfl
      have hall : (st.phase w).waiting = row :: rows := by rw [hv]; rfl
      rw [if_pos rfl, hrest, hall, List.countP_cons]
      exact Nat.le_of_eq (by rw [Nat.add_right_comm, Nat.add_assoc])
    · rw [if_neg heq]
      omega
  | @mark v o row rows hv =>
    refine Nat.le_of_eq (begun_goto_of_waiting (by simp) (by simp) fun heq => ?_).symm
    rw [← heq, hv]
    cases o <;> rfl
  | @record v o row exc rows hv =>
    refine Nat.le_of_eq (begun_goto_of_waiting (by simp) (by simp) fun heq => ?_).symm
    rw [hok heq, ← heq, hv]
    rfl
  | crash v =>
    refine Nat.le_of_eq (begun_goto_of_waiting rfl rfl fun heq => ?_).symm
    rw [hok heq]
    rfl

/-- A poll that passes a row over takes twenty rows that are ahead of it. -/
theorem begun_of_passesOver {p : Uuid → Bool} (hahead : Ahead p id st)
    (h : passesOver w id st e) : st.begun p w + 20 ≤ (st.step e).begun p w := by
  cases e with
  | poll v mailerEnabled ties =>
    cases mailerEnabled with
    | false => cases h
    | true =>
      obtain ⟨rfl, hempty, hany, hall⟩ := of_decide_eq_true h
      obtain ⟨row, hrow, hid⟩ := List.any_eq_true.1 hany
      obtain ⟨hid, hdue⟩ := Bool.and_eq_true_iff.1 hid
      have hid : row.id = id := of_decide_eq_true hid
      have hne (x : NotificationOutbox π)
          (hx : x ∈ NotificationOutbox.select st.now ties st.outbox) : x.id ≠ id :=
        of_decide_eq_true (List.all_eq_true.1 hall x hx)
      obtain ⟨hlen, hold⟩ := select_of_not_mem hrow hdue fun hmem => hne row hmem hid
      have hphase : st.phase v = .delivering [] := by
        cases hv : st.phase v with
        | delivering rows =>
          rw [hv] at hempty
          exact congrArg Phase.delivering (List.isEmpty_iff.1 hempty)
        | accepted row rows =>
          rw [hv] at hempty
          cases hempty
        | raised row exc rows =>
          rw [hv] at hempty
          cases hempty
      have hstep : st.step (.poll v true ties) =
          st.goto v (.delivering (NotificationOutbox.select st.now ties st.outbox)) := by
        simp only [step, poll, hphase, if_true]
      rw [hstep, begun_goto, if_pos rfl, begun, hphase]
      have hcount : (NotificationOutbox.select st.now ties st.outbox).countP (p ·.id) = 20 := by
        rw [← hlen]
        refine List.countP_eq_length.2 fun x hx => ?_
        exact hahead row hrow hid x (mem_select hx).1 (hne x hx) (hold x hx)
      exact Nat.add_le_add_left hcount.ge _
  | _ => cases h

theorem grows_run {es : List (Event π)} : Grows st (run step st es) := by
  induction es generalizing st with
  | nil => exact .refl
  | cons e es ih => exact grows_step.trans ih

/-- The attempts and batches that the passes of a run have cost. -/
theorem begun_run {p : Uuid → Bool} {es : List (Event π)} (hinv : st.Inv) (hapart : st.Apart)
    (hahead : ∀ st', Grows st' (run step st es) → Ahead p id st')
    (h : Guarded step (Steady w) st es) :
    st.begun p w + 20 * passes w id st es ≤ (run step st es).begun p w := by
  induction es generalizing st with
  | nil => exact le_rfl
  | cons e es ih =>
    obtain ⟨hok, hrest⟩ := h
    have hrun := ih (inv_step hinv) (apart_step hinv hapart hok.1.1) hahead hrest
    have hfirst : st.begun p w + 20 * (passesOver w id st e).toNat ≤ (st.step e).begun p w := by
      cases hpass : passesOver w id st e with
      | false => exact begun_le_step hinv hapart hok
      | true => exact begun_of_passesOver (hahead st grows_run) hpass
    rw [passes, run_cons, Nat.mul_add]
    omega

/-- What is counted of some ids is what is counted of each. -/
theorem countP_le_of_each {ids : List Uuid} {l : List (Uuid × Time)} {n : Nat}
    (h : ∀ id ∈ ids, l.countP (·.1 = id) ≤ n) :
    l.countP (fun a => ids.contains a.1) ≤ n * ids.length := by
  induction ids with
  | nil => exact Nat.le_of_eq (List.countP_eq_zero.2 fun a _ => by simp)
  | cons id ids ih =>
    have hsplit : l.countP (fun a => (id :: ids).contains a.1) ≤
        l.countP (·.1 = id) + l.countP (fun a => ids.contains a.1) := by
      clear h ih
      induction l with
      | nil => exact Nat.zero_le _
      | cons a l ih =>
        simp only [List.countP_cons, List.contains_cons] at ih ⊢
        by_cases ha : a.1 = id <;> simp only [ha] <;> split <;> simp_all <;> omega
    have hhead := h id List.mem_cons_self
    have htail := ih fun i hi => h i (List.mem_cons_of_mem _ hi)
    rw [List.length_cons, Nat.mul_succ]
    omega

/-- Its row after that. -/
def refusedRow : NotificationOutbox Unit :=
  ⟨1, .passwordReset, (), .sent, 1, 60000000, some [], 0, some 60000000⟩

end System

end LlmPort.Backend.Notifications
