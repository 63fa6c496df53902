import Mathlib.Data.List.Infix
import Mathlib.Logic.Function.Basic

/-!
# Replacing in texts

`replace` puts one text for another, from the left and without overlaps, over any alphabet. A text
in which values are shown by stand-ins is a list of pieces; where a stand-in occurs only where it
was put, replacing it shows its value and changes nothing else.
-/

namespace LlmPort.Text

variable {α ι : Type*}

section
variable [DecidableEq α]

/-- `skip` symbols are left of an occurrence that was replaced. -/
def replaceFrom (old new : List α) : Nat → List α → List α
  | _, [] => []
  | skip + 1, _ :: l => replaceFrom old new skip l
  | 0, a :: l =>
    if old.isPrefixOf (a :: l) then new ++ replaceFrom old new (old.length - 1) l
    else a :: replaceFrom old new 0 l

/-- All occurrences of a nonempty text are replaced. -/
def replace (old new l : List α) : List α := replaceFrom old new 0 l

variable {old new l r : List α} {a : α}

@[simp] theorem replace_nil : replace old new [] = [] := rfl

theorem replaceFrom_eq (skip : Nat) :
    replaceFrom old new skip l = replace old new (l.drop skip) := by
  induction skip generalizing l with
  | zero => rfl
  | succ skip ih =>
    cases l with
    | nil => rfl
    | cons a l => exact ih

theorem replace_cons_skip (h : ¬ old <+: a :: l) :
    replace old new (a :: l) = a :: replace old new l := by
  rw [replace, replaceFrom, if_neg (mt List.isPrefixOf_iff_prefix.1 h)]
  rfl

theorem replace_append_self (h : old ≠ []) :
    replace old new (old ++ l) = new ++ replace old new l := by
  cases old with
  | nil => exact (h rfl).elim
  | cons a t =>
    have hp : (a :: t).isPrefixOf (a :: (t ++ l)) :=
      List.isPrefixOf_iff_prefix.2 (List.prefix_append (a :: t) l)
    rw [List.cons_append, replace, replaceFrom, if_pos hp, replaceFrom_eq]
    simp

/-- What no occurrence starts in stays. -/
theorem replace_append_of_no_start (h : ∀ k < l.length, ¬ old <+: (l ++ r).drop k) :
    replace old new (l ++ r) = l ++ replace old new r := by
  induction l with
  | nil => rfl
  | cons a l ih =>
    have h0 : ¬ old <+: a :: (l ++ r) := h 0 (Nat.succ_pos _)
    have hl := ih fun k hk => h (k + 1) (Nat.succ_lt_succ hk)
    rw [List.cons_append, List.cons_append, replace_cons_skip h0, hl]

theorem replace_same (h : old ≠ []) : replace old old l = l := by
  generalize hn : l.length = n
  induction n using Nat.strongRecOn generalizing l with
  | _ n ih =>
    cases l with
    | nil => rfl
    | cons a l =>
      by_cases hp : old <+: a :: l
      · obtain ⟨t, ht⟩ := hp
        have hlt : t.length < n := by
          have hlen := congrArg List.length ht
          have hpos := List.length_pos_iff.2 h
          rw [List.length_append] at hlen
          omega
        rw [← ht, replace_append_self h, ih _ hlt rfl]
      · rw [replace_cons_skip hp, ih l.length (by rw [← hn]; exact Nat.lt_succ_self _) rfl]

theorem replace_eq_self (h : ¬ old <:+: l) : replace old new l = l := by
  have hstart : ∀ k < l.length, ¬ old <+: (l ++ []).drop k := by
    intro k _ hp
    rw [List.append_nil] at hp
    exact h (hp.isInfix.trans (List.drop_suffix k l).isInfix)
  have hsplit : replace old new (l ++ []) = l ++ replace old new [] :=
    replace_append_of_no_start hstart
  rwa [List.append_nil, replace_nil, List.append_nil] at hsplit

/-- What is not put in does not become more. -/
theorem count_replace_le (hold : old ≠ []) (hnew : a ∉ new) :
    (replace old new l).count a ≤ l.count a := by
  generalize hn : l.length = n
  induction n using Nat.strongRecOn generalizing l with
  | _ n ih =>
    cases l with
    | nil => exact Nat.le_refl _
    | cons b l =>
      by_cases hp : old <+: b :: l
      · obtain ⟨t, ht⟩ := hp
        have hlt : t.length < n := by
          have hlen := congrArg List.length ht
          have hpos := List.length_pos_iff.2 hold
          rw [List.length_append] at hlen
          omega
        rw [← ht, replace_append_self hold, List.count_append, List.count_append,
          List.count_eq_zero_of_not_mem hnew]
        have hle := ih _ hlt rfl
        omega
      · rw [replace_cons_skip hp, List.count_cons, List.count_cons]
        have hle := ih l.length (by rw [← hn]; exact Nat.lt_succ_self _) rfl
        omega

/-- What is taken out with an occurrence becomes less. -/
theorem count_replace_lt (hold : a ∈ old) (hnew : a ∉ new) (h : old <:+: l) :
    (replace old new l).count a < l.count a := by
  have hne : old ≠ [] := List.ne_nil_of_mem hold
  induction l with
  | nil => exact (hne (List.infix_nil.1 h)).elim
  | cons b l ih =>
    by_cases hp : old <+: b :: l
    · obtain ⟨t, ht⟩ := hp
      have hpos := List.count_pos_iff.2 hold
      have hle := count_replace_le (l := t) hne hnew
      rw [← ht, replace_append_self hne, List.count_append, List.count_append,
        List.count_eq_zero_of_not_mem hnew]
      omega
    · rw [replace_cons_skip hp, List.count_cons, List.count_cons]
      have hlt := ih ((List.infix_cons_iff.1 h).resolve_left hp)
      omega

/-- A symbol that no occurrence has in it divides the text. -/
theorem replace_append_cons (hold : old ≠ []) (ha : a ∉ old) :
    replace old new (l ++ a :: r) = replace old new l ++ a :: replace old new r := by
  generalize hn : l.length = n
  induction n using Nat.strongRecOn generalizing l with
  | _ n ih =>
    cases l with
    | nil =>
      refine replace_cons_skip fun ⟨t, ht⟩ => ?_
      cases old with
      | nil => exact hold rfl
      | cons b old => exact ha ((List.head_eq_of_cons_eq ht) ▸ List.mem_cons_self)
    | cons b l =>
      by_cases hp : old <+: b :: l
      · obtain ⟨t, ht⟩ := hp
        have hlt : t.length < n := by
          have hlen := congrArg List.length ht
          have hpos := List.length_pos_iff.2 hold
          rw [List.length_append] at hlen
          omega
        rw [← ht, List.append_assoc, replace_append_self hold, replace_append_self hold,
          ih _ hlt rfl, List.append_assoc]
      · have hno : ¬ old <+: b :: (l ++ a :: r) := by
          intro hp'
          rcases List.prefix_or_prefix_of_prefix hp' (List.prefix_append (b :: l) (a :: r)) with
            h | ⟨t, rfl⟩
          · exact hp h
          · cases t with
            | nil => exact hp (List.append_nil _ ▸ List.prefix_rfl)
            | cons c t =>
              obtain ⟨u, hu⟩ := (List.prefix_append_right_inj (b :: l)).1 hp'
              have hc : c = a := List.head_eq_of_cons_eq hu
              exact ha (hc ▸ List.mem_append_right _ List.mem_cons_self)
        rw [List.cons_append, replace_cons_skip hno, replace_cons_skip hp, List.cons_append,
          ih l.length (by rw [← hn]; exact Nat.lt_succ_self _) rfl]

end

/-! ## Texts with stand-ins -/

inductive Piece (α ι : Type*) where
  | text (l : List α)
  | value (i : ι)

/-- The piece, with `f i` for the value `i`. -/
def Piece.shown (f : ι → List α) : Piece α ι → List α
  | text l => l
  | value i => f i

def render (f : ι → List α) (ps : List (Piece α ι)) : List α := ps.flatMap (·.shown f)

/-- Wherever what stands for the value `i` occurs, it was put. -/
def OnlyWherePut (f : ι → List α) (i : ι) (ps : List (Piece α ι)) : Prop :=
  ∀ pre post, render f ps = pre ++ f i ++ post →
    ∃ qs rs, ps = qs ++ .value i :: rs ∧ pre = render f qs

section
variable {f g : ι → List α} {i : ι} {p : Piece α ι} {ps qs : List (Piece α ι)}

@[simp] theorem render_nil : render f [] = [] := rfl

@[simp] theorem render_cons : render f (p :: ps) = p.shown f ++ render f ps := List.flatMap_cons

@[simp] theorem render_append : render f (ps ++ qs) = render f ps ++ render f qs :=
  List.flatMap_append

theorem render_congr (h : ∀ i, .value i ∈ ps → f i = g i) : render f ps = render g ps := by
  induction ps with
  | nil => rfl
  | cons p ps ih =>
    rw [render_cons, render_cons, ih fun i hi => h i (List.mem_cons_of_mem _ hi)]
    cases p with
    | text => rfl
    | value i => rw [Piece.shown, Piece.shown, h i List.mem_cons_self]

theorem OnlyWherePut.tail (hi : f i ≠ []) (h : OnlyWherePut f i (p :: ps)) :
    OnlyWherePut f i ps := by
  intro pre post hps
  obtain ⟨qs, rs, hsplit, hpre⟩ := h (p.shown f ++ pre) post (by simp [hps])
  cases qs with
  | nil =>
    obtain ⟨rfl, rfl⟩ := List.cons.inj hsplit
    exact (hi (List.append_eq_nil_iff.1 hpre).1).elim
  | cons q qs =>
    obtain ⟨rfl, rfl⟩ := List.cons.inj hsplit
    exact ⟨qs, rs, rfl, List.append_cancel_left hpre⟩

/-- No occurrence starts in another piece. -/
theorem OnlyWherePut.no_start (h : OnlyWherePut f i (p :: ps)) (hp : p ≠ .value i) :
    ∀ k < (p.shown f).length, ¬ f i <+: (p.shown f ++ render f ps).drop k := by
  rintro k hk ⟨post, hpost⟩
  have hocc : render f (p :: ps) = (p.shown f ++ render f ps).take k ++ f i ++ post := by
    rw [List.append_assoc, hpost, List.take_append_drop, render_cons]
  obtain ⟨qs, rs, hsplit, hpre⟩ := h _ post hocc
  cases qs with
  | nil => exact hp (List.cons.inj hsplit).1
  | cons q qs =>
    obtain ⟨rfl, -⟩ := List.cons.inj hsplit
    have hlen := congrArg List.length hpre
    rw [render_cons, List.length_take, List.length_append, List.length_append] at hlen
    omega

/-- A mark that occurs once on either side of `=` divides both alike. -/
theorem append_cons_inj {a : α} {l l' d d' : List α} (hd : a ∉ d) (hd' : a ∉ d')
    (h : l ++ a :: d = l' ++ a :: d') : l = l' ∧ d = d' := by
  rcases List.append_eq_append_iff.1 h with ⟨m, hl, hm⟩ | ⟨m, hl, hm⟩
  · cases m with
    | nil => exact ⟨by simpa using hl.symm, (List.cons.inj hm).2⟩
    | cons b m =>
      obtain ⟨-, rfl⟩ := List.cons.inj hm
      exact (hd (List.mem_append_right _ List.mem_cons_self)).elim
  · cases m with
    | nil => exact ⟨by simpa using hl, (List.cons.inj hm).2.symm⟩
    | cons b m =>
      obtain ⟨-, rfl⟩ := List.cons.inj hm
      exact (hd' (List.mem_append_right _ List.mem_cons_self)).elim

/-- So does the first of several. -/
theorem append_cons_inj_left {a : α} {l l' d d' : List α} (hl : a ∉ l) (hl' : a ∉ l')
    (h : l ++ a :: d = l' ++ a :: d') : l = l' := by
  rcases List.append_eq_append_iff.1 h with ⟨m, rfl, hm⟩ | ⟨m, rfl, hm⟩
  · cases m with
    | nil => exact (List.append_nil _).symm
    | cons b m =>
      obtain ⟨rfl, -⟩ := List.cons.inj hm
      exact (hl' (List.mem_append_right _ List.mem_cons_self)).elim
  · cases m with
    | nil => exact List.append_nil _
    | cons b m =>
      obtain ⟨rfl, -⟩ := List.cons.inj hm
      exact (hl (List.mem_append_right _ List.mem_cons_self)).elim

/-- The text stands between `a` and `b` and has neither inside. -/
def Bracketed (a b : α) (l : List α) : Prop := ∃ c, l = a :: (c ++ [b]) ∧ a ∉ c ∧ b ∉ c

/-- Stand-ins in brackets are found, where nothing else has an opening bracket. -/
theorem onlyWherePut_of_bracketed {a b : α} (hab : a ≠ b) (hi : Bracketed a b (f i))
    (htexts : ∀ l, .text l ∈ ps → a ∉ l)
    (hvalues : ∀ j, .value j ∈ ps → a ∉ f j ∨ Bracketed a b (f j) ∧ (f j = f i → j = i)) :
    OnlyWherePut f i ps := by
  obtain ⟨c, hc, -, hbc⟩ := hi
  induction ps with
  | nil =>
    intro pre post h
    simp [hc] at h
  | cons p ps ih =>
    have ih := ih (fun l hl => htexts l (List.mem_cons_of_mem _ hl))
      (fun j hj => hvalues j (List.mem_cons_of_mem _ hj))
    intro pre post h
    rw [render_cons, List.append_assoc] at h
    have hrest {m : List α} (hpre : pre = p.shown f ++ m)
        (hm : render f ps = m ++ (f i ++ post)) :
        ∃ qs rs, p :: ps = qs ++ .value i :: rs ∧ pre = render f qs := by
      obtain ⟨qs, rs, rfl, hqs⟩ := ih m post (by rw [hm, List.append_assoc])
      exact ⟨p :: qs, rs, rfl, by rw [render_cons, ← hqs, hpre]⟩
    rcases List.append_eq_append_iff.1 h with ⟨m, hpre, hm⟩ | ⟨m, hp, hm⟩
    · exact hrest hpre hm
    · cases m with
      | nil =>
        refine hrest (m := []) ?_ hm.symm
        rw [hp, List.append_nil, List.append_nil]
      | cons a' m =>
        -- the occurrence starts within the first piece, with its opening bracket
        rw [hc] at hm
        obtain ⟨rfl, hm⟩ := List.cons.inj hm
        have hmem : a ∈ p.shown f := by
          rw [hp]
          exact List.mem_append_right _ List.mem_cons_self
        cases p with
        | text l => exact (htexts l List.mem_cons_self hmem).elim
        | value j =>
          obtain ⟨⟨d, hd, had, hbd⟩, hj⟩ := (hvalues j List.mem_cons_self).resolve_left (· hmem)
          rw [Piece.shown, hd] at hp
          cases pre with
          | nil =>
            obtain ⟨-, rfl⟩ := List.cons.inj hp
            have hm : c ++ b :: post = d ++ b :: render f ps := by simpa using hm
            have hcd : c = d := append_cons_inj_left hbc hbd hm
            have hji : j = i := hj (by rw [hd, hc, hcd])
            exact ⟨[], ps, by rw [hji, List.nil_append], rfl⟩
          | cons a' pre =>
            obtain ⟨-, hin⟩ := List.cons.inj hp
            have hmem : a ∈ d ++ [b] := by
              rw [hin]
              exact List.mem_append_right _ List.mem_cons_self
            rcases List.mem_append.1 hmem with had' | hb
            · exact (had had').elim
            · exact (hab (List.mem_singleton.1 hb)).elim

/-- Replacing a stand-in shows its value. -/
theorem replace_render [DecidableEq α] [DecidableEq ι] (hi : f i ≠ []) (h : OnlyWherePut f i ps) :
    replace (f i) new (render f ps) = render (Function.update f i new) ps := by
  induction ps with
  | nil => rfl
  | cons p ps ih =>
    have ih := ih (h.tail hi)
    by_cases hp : p = .value i
    · subst hp
      rw [render_cons, render_cons, Piece.shown, Piece.shown, replace_append_self hi, ih,
        Function.update_self]
    · have hsame : p.shown (Function.update f i new) = p.shown f := by
        cases p with
        | text => rfl
        | value j =>
          have hj : j ≠ i := fun h => hp (congrArg Piece.value h)
          exact Function.update_of_ne hj ..
      rw [render_cons, render_cons, replace_append_of_no_start (h.no_start hp), ih, hsame]

/-! ## Values that stand apart -/

/-- The stretches of text between the values, behind what the first begins with. -/
def stretches : List α → List (Piece α ι) → List (List α)
  | start, [] => [start]
  | start, .text l :: ps => stretches (start ++ l) ps
  | start, .value _ :: ps => start :: stretches [] ps

/-- What is looked for is neither in the stretch nor goes on over one of its ends. -/
structure Separates (old l : List α) : Prop where
  apart : ¬ old <:+: l
  first : ∃ a rest, l = a :: rest ∧ a ∉ old
  last : ∃ rest a, l = rest ++ [a] ∧ a ∉ old

theorem separates_iff [DecidableEq α] {old l : List α} : Separates old l ↔
    ¬ old <:+: l ∧ l.head?.any (· ∉ old) = true ∧ l.getLast?.any (· ∉ old) = true := by
  refine ⟨fun h => ?_, fun h => ?_⟩
  · obtain ⟨a, rest, hfirst, ha⟩ := h.first
    obtain ⟨rest', b, hlast, hb⟩ := h.last
    refine ⟨h.apart, ?_, ?_⟩
    · rw [hfirst]
      exact decide_eq_true ha
    · rw [hlast, List.getLast?_concat]
      exact decide_eq_true hb
  · obtain ⟨hapart, hfirst, hlast⟩ := h
    obtain ⟨a, ⟨rest, rfl⟩, ha⟩ : ∃ a, (∃ rest, l = a :: rest) ∧ a ∉ old := by
      cases l with
      | nil => cases hfirst
      | cons a rest => exact ⟨a, ⟨rest, rfl⟩, of_decide_eq_true hfirst⟩
    rcases List.eq_nil_or_concat (a :: rest) with hnil | ⟨pre, b, hconcat⟩
    · cases hnil
    · rw [List.concat_eq_append] at hconcat
      rw [hconcat, List.getLast?_concat] at hlast
      exact ⟨hapart, ⟨a, rest, rfl, ha⟩, ⟨pre, b, hconcat, of_decide_eq_true hlast⟩⟩

instance [DecidableEq α] (old l : List α) : Decidable (Separates old l) :=
  decidable_of_iff _ separates_iff.symm

theorem stretches_head {old start : List α} (h : ∀ l ∈ stretches start ps, Separates old l) :
    ∃ a rest, start ++ render f ps = a :: rest ∧ a ∉ old := by
  induction ps generalizing start with
  | nil =>
    obtain ⟨a, rest, hstart, ha⟩ := (h start List.mem_cons_self).first
    exact ⟨a, rest, by rw [render_nil, List.append_nil, hstart], ha⟩
  | cons p ps ih =>
    rw [render_cons, ← List.append_assoc]
    cases p with
    | text l => exact ih h
    | value i =>
      obtain ⟨a, rest, hstart, ha⟩ := (h start List.mem_cons_self).first
      exact ⟨a, _, by rw [hstart]; rfl, ha⟩

/-- Within values that stand apart, each is replaced on its own. -/
theorem replace_render_apart [DecidableEq α] {old new start : List α} (hold : old ≠ [])
    (h : ∀ l ∈ stretches start ps, Separates old l) :
    replace old new (start ++ render f ps) =
      start ++ render (fun i => replace old new (f i)) ps := by
  induction ps generalizing start with
  | nil =>
    rw [render_nil, render_nil, List.append_nil]
    exact replace_eq_self (h start List.mem_cons_self).apart
  | cons p ps ih =>
    rw [render_cons, render_cons]
    cases p with
    | text l =>
      have hl := @ih (start ++ l) h
      rwa [List.append_assoc, List.append_assoc] at hl
    | value i =>
      obtain ⟨hstart, hps⟩ := List.forall_mem_cons.1
        (show ∀ l ∈ start :: stretches [] ps, Separates old l from h)
      obtain ⟨pre, a, rfl, ha⟩ := hstart.last
      obtain ⟨b, rest, hb, hbold⟩ := stretches_head (f := f) hps
      have hb : render f ps = b :: rest := hb
      have htail : replace old new (render f ps) = render (fun i => replace old new (f i)) ps :=
        ih hps
      have hpre : replace old new pre = pre :=
        replace_eq_self fun hin => hstart.apart (hin.trans (List.prefix_append _ _).isInfix)
      rw [Piece.shown, Piece.shown, List.append_assoc, List.singleton_append,
        replace_append_cons hold ha, hpre, ← htail, hb, replace_append_cons hold hbold]
      have hb' : replace old new (b :: rest) = b :: replace old new rest :=
        replace_append_cons hold hbold (l := [])
      rw [hb', List.append_assoc, List.singleton_append]

/-! ## Replacing all stand-ins in turn -/

variable [DecidableEq ι] {token original : ι → List α} {is done : List ι}

def restore [DecidableEq α] (token original : ι → List α) (is : List ι) (l : List α) : List α :=
  is.foldl (fun l i => replace (token i) (original i) l) l

/-- What the values are shown by when those in `done` have been replaced. -/
def shownAfter (token original : ι → List α) (done : List ι) (i : ι) : List α :=
  if i ∈ done then original i else token i

theorem shownAfter_snoc : shownAfter token original (done ++ [i]) =
    Function.update (shownAfter token original done) i (original i) := by
  funext j
  rcases eq_or_ne j i with rfl | hj
  · simp [shownAfter]
  · simp [shownAfter, hj]

/-- In turn each stand-in is the value itself, or occurs only where it was put. -/
def FoundInTurn (token original : ι → List α) (is : List ι) (ps : List (Piece α ι)) : Prop :=
  ∀ done i rest, is = done ++ i :: rest →
    token i = original i ∨ OnlyWherePut (shownAfter token original done) i ps

theorem restore_step [DecidableEq α] (hi : i ∉ done) (htoken : token i ≠ [])
    (h : token i = original i ∨ OnlyWherePut (shownAfter token original done) i ps) :
    replace (token i) (original i) (render (shownAfter token original done) ps) =
      render (shownAfter token original (done ++ [i])) ps := by
  have hshown : shownAfter token original done i = token i := if_neg hi
  rw [shownAfter_snoc]
  obtain hsame | honly := h
  · rw [← hsame, replace_same htoken, ← hshown, Function.update_eq_self]
  · rw [← hshown] at htoken ⊢
    exact replace_render htoken honly

/-- Stand-ins that are found in turn are all undone. -/
theorem restore_render [DecidableEq α] (hnodup : is.Nodup) (htoken : ∀ i ∈ is, token i ≠ [])
    (hvalues : ∀ i, .value i ∈ ps → i ∈ is) (h : FoundInTurn token original is ps) :
    restore token original is (render token ps) = render original ps := by
  have hturns : ∀ done rest, is = done ++ rest →
      restore token original rest (render (shownAfter token original done) ps) =
        render (shownAfter token original is) ps := by
    intro done rest his
    induction rest generalizing done with
    | nil => rw [his, List.append_nil]; rfl
    | cons i rest ih =>
      have hi : i ∉ done := by
        rw [his] at hnodup
        exact fun hmem => (List.nodup_append.1 hnodup).2.2 i hmem i List.mem_cons_self rfl
      have hmem : i ∈ is := his ▸ List.mem_append_right _ List.mem_cons_self
      rw [restore, List.foldl_cons, restore_step hi (htoken i hmem) (h done i rest his)]
      exact ih (done ++ [i]) (by rw [his, List.append_assoc, List.singleton_append])
  have hstart : render token ps = render (shownAfter token original []) ps :=
    render_congr fun i _ => (if_neg List.not_mem_nil).symm
  rw [hstart, hturns [] is rfl]
  exact render_congr fun i hi => if_pos (hvalues i hi)

end

end LlmPort.Text
