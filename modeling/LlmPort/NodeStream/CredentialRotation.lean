import LlmPort.Backend.NodeControl.Credentials
import LlmPort.Transition.Run

/-!
# Credential rotation between agent and backend

The exchange over a channel that may lose or delay both messages: the agent's rotation loop sends
its credential and waits, the backend revokes it and issues another in one transaction, and the
agent keeps what it is answered. The loop runs while the stream is open and ends with it.
-/

namespace LlmPort.NodeStream

open Backend.NodeControl CredentialStore Transition

/-- What becomes of a rotation that authenticated: the answer is sent before the commit. -/
inductive RotationOutcome where
  | committed
  /-- The answer is sent, and the commit fails. -/
  | rolledBack
  | failed
  deriving DecidableEq

structure RotationSys where
  backend : CredentialStore
  credential : Option AgentCredential
  authFailStreak : Nat
  streaming : Bool
  /-- The request whose answer the rotation loop awaits. -/
  waiting : Option Nat
  /-- The requests under way, each with its number and credential. -/
  requests : List (Nat × AgentCredential)
  /-- The answers under way: a new credential, or an error. -/
  responses : List (Nat × Option AgentCredential)
  /-- How many requests were sent. -/
  sent : Nat

inductive RotationEvent where
  | connect
  | disconnect (clean : Bool)
  | send
  /-- The backend handles the `i`th request under way, with the credential it would draw. -/
  | process (i : Nat) (draw : AgentCredential) (outcome : RotationOutcome)
  /-- The `i`th answer under way arrives. -/
  | deliver (i : Nat)
  /-- The request raises: a timeout or a lost connection. -/
  | giveUp

/-- `_MAX_AUTH_RETRIES` -/
def maxAuthRetries : Nat := 3

namespace RotationSys

/-- An enrolled agent that is not connected. -/
def start (backend : CredentialStore) (credential : AgentCredential) : RotationSys :=
  ⟨backend, some credential, 0, false, none, [], [], 0⟩

/-- The stream is rejected: the credential is cleared after several rejections in a row. -/
def rejected (sys : RotationSys) : RotationSys :=
  if sys.authFailStreak + 1 ≥ maxAuthRetries then { sys with credential := none, authFailStreak := 0 }
  else { sys with authFailStreak := sys.authFailStreak + 1 }

/-- The backend's handling of a request with number `r`. -/
def rotate (sys : RotationSys) (r : Nat) (credential draw : AgentCredential)
    (outcome : RotationOutcome) : RotationSys :=
  let answer (sys : RotationSys) (a : Option AgentCredential) : RotationSys :=
    { sys with responses := sys.responses ++ [(r, a)] }
  match sys.backend.rotateCredential draw credential with
  | none => answer sys none
  | some backend => match outcome with
    | .committed => answer { sys with backend } (some draw)
    | .rolledBack => answer sys (some draw)
    | .failed => answer sys none

def step (sys : RotationSys) : RotationEvent → RotationSys
  | .connect => match sys.credential with
    | none => sys
    | some credential =>
      if sys.streaming then sys
      else if sys.backend.accepts credential then { sys with streaming := true }
      else sys.rejected
  | .disconnect clean =>
    { sys with
      streaming := false
      waiting := none
      authFailStreak := if clean then 0 else sys.authFailStreak }
  | .send => match sys.credential with
    | none => sys
    | some credential =>
      if sys.streaming ∧ sys.waiting = none then
        { sys with
          waiting := some sys.sent
          requests := sys.requests ++ [(sys.sent, credential)]
          sent := sys.sent + 1 }
      else sys
  | .process i draw outcome => match sys.requests[i]? with
    | none => sys
    | some (r, credential) =>
      { sys with requests := sys.requests.eraseIdx i }.rotate r credential draw outcome
  | .deliver i => match sys.responses[i]? with
    | none => sys
    | some (r, a) =>
      let sys := { sys with responses := sys.responses.eraseIdx i }
      if sys.waiting = some r then { sys with waiting := none, credential := a <|> sys.credential }
      else sys
  | .giveUp => { sys with waiting := none }

/-- The agent's credential is accepted. -/
def holdsAccepted (sys : RotationSys) : Bool := sys.credential.any sys.backend.accepts

def keepsAccess (sys : RotationSys) : RotationEvent → Bool
  | .process i draw .committed => match sys.requests[i]? with
    | none => true
    | some (r, credential) =>
      sys.waiting = some r || sys.credential.all (·.id ≠ credential.id) ||
        (sys.backend.rotateCredential draw credential).isNone
  | .deliver i => match sys.responses[i]? with
    | some (r, some credential) => sys.waiting ≠ some r || sys.backend.accepts credential
    | _ => true
  | .giveUp | .disconnect _ => sys.waiting.isNone || sys.holdsAccepted
  | _ => true

end RotationSys

open RotationSys

variable {sys : RotationSys} {e : RotationEvent}

/-- A credential that is accepted is on its way to the agent, as the answer it waits for. -/
def Arriving (sys : RotationSys) (credential : AgentCredential) : Prop :=
  ∃ r, sys.waiting = some r ∧ (r, some credential) ∈ sys.responses ∧ sys.backend.accepts credential

/-- The agent has a credential, which is accepted, or is about to be replaced by one that is. -/
def KeepsAccess (sys : RotationSys) : Prop :=
  ∃ credential, sys.credential = some credential ∧
    (sys.backend.accepts credential ∨ ∃ new, Arriving sys new)

/-- The numbers of the messages under way. -/
def RotationSys.numbers (sys : RotationSys) : List Nat :=
  sys.requests.map (·.1) ++ sys.responses.map (·.1)

/-- What `keepsAccess` preserves. -/
structure Rotates (sys : RotationSys) : Prop where
  holds : ∃ credential, sys.credential = some credential ∧ (sys.backend.accepts credential ∨
    ∃ new, Arriving sys new ∧ ∀ x ∈ sys.requests, x.2.id ≠ new.id)
  numbers : sys.numbers.Nodup
  sent : ∀ r ∈ sys.numbers, r < sys.sent
  current : ∀ x ∈ sys.requests, sys.waiting = some x.1 → sys.credential = some x.2
  rows : ∀ x ∈ sys.requests, ∃ row ∈ sys.backend.credentials, row.id = x.2.id
  stream : sys.streaming = false → sys.waiting = none

theorem Rotates.keeps (h : Rotates sys) : KeepsAccess sys := by
  obtain ⟨credential, hc, ha | ⟨new, hnew, -⟩⟩ := h.holds
  · exact ⟨credential, hc, .inl ha⟩
  · exact ⟨credential, hc, .inr ⟨new, hnew⟩⟩

/-- At rest the agent's credential is accepted. -/
theorem Rotates.accepted (h : Rotates sys) (hw : sys.waiting = none) : sys.holdsAccepted := by
  obtain ⟨credential, hc, ha | ⟨new, ⟨r, hr, -⟩, -⟩⟩ := h.holds
  · simp [holdsAccepted, hc, ha]
  · rw [hw] at hr
    cases hr

theorem holdsAccepted_iff : sys.holdsAccepted ↔
    ∃ credential, sys.credential = some credential ∧ sys.backend.accepts credential := by
  simp only [holdsAccepted, Option.any_eq_true]

/-- The agent stops waiting, with an accepted credential. -/
theorem Rotates.stop {streaming : Bool} {authFailStreak : Nat} (h : Rotates sys)
    (hg : sys.waiting.isNone || sys.holdsAccepted) :
    Rotates { sys with streaming, waiting := none, authFailStreak } := by
  have ha : sys.holdsAccepted := by
    simp only [Bool.or_eq_true, Option.isNone_iff_eq_none] at hg
    exact hg.elim h.accepted id
  obtain ⟨credential, hc, ha⟩ := holdsAccepted_iff.1 ha
  exact ⟨⟨credential, hc, .inl ha⟩, h.numbers, h.sent, (fun _ _ hw => by cases hw), h.rows,
    fun _ => rfl⟩

theorem Rotates.send (h : Rotates sys) : Rotates (sys.step .send) := by
  simp only [step]
  split
  next => exact h
  next credential hc =>
    split
    next hw =>
      obtain ⟨credential', hc', ha⟩ := holdsAccepted_iff.1 (h.accepted hw.2)
      rw [hc] at hc'
      cases hc'
      have hnew : ∀ r ∈ sys.numbers, r ≠ sys.sent := fun r hr => Nat.ne_of_lt (h.sent r hr)
      refine ⟨⟨credential, hc, .inl ha⟩, ?_, ?_, ?_, ?_, fun hs => ?_⟩
      · have hnodup := h.numbers
        simp only [RotationSys.numbers] at hnodup hnew ⊢
        simp only [List.map_append, List.map_cons, List.map_nil, List.append_assoc,
          List.singleton_append]
        refine (List.perm_middle.nodup_iff).2 (List.nodup_cons.2 ⟨fun hm => ?_, hnodup⟩)
        exact hnew _ hm rfl
      · intro r hr
        simp only [RotationSys.numbers, List.map_append, List.map_cons, List.map_nil,
          List.append_assoc, List.mem_append, List.mem_singleton] at hr
        rcases hr with hr | rfl | hr
        · exact Nat.lt_succ_of_lt (h.sent r (List.mem_append_left _ hr))
        · exact Nat.lt_succ_self _
        · exact Nat.lt_succ_of_lt (h.sent r (List.mem_append_right _ hr))
      · intro x hx hwait
        rcases List.mem_append.1 hx with hx | hx
        · have hr := hnew x.1 (List.mem_append_left _ (List.mem_map_of_mem hx))
          exact absurd (Option.some.inj hwait).symm hr
        · rw [List.mem_singleton.1 hx]
          exact hc
      · intro x hx
        rcases List.mem_append.1 hx with hx | hx
        · exact h.rows x hx
        · rw [List.mem_singleton.1 hx]
          exact exists_row_of_accepts ha
      · rw [hw.1] at hs
        cases hs
    next => exact h

theorem mem_of_mem_eraseIdx_ne {α : Type*} {l : List α} {i : Nat} {x y : α} (hi : l[i]? = some x)
    (hy : y ∈ l) (hne : y ≠ x) : y ∈ l.eraseIdx i := by
  obtain ⟨hlt, rfl⟩ := List.getElem?_eq_some_iff.1 hi
  have hperm := List.getElem_cons_eraseIdx_perm hlt
  exact (List.mem_cons.1 (hperm.mem_iff.2 hy)).resolve_left hne

/-- A request is answered: its number moves from the requests to the answers. -/
theorem Rotates.answer {i r : Nat} {credential : AgentCredential} {a : Option AgentCredential}
    {backend : CredentialStore} (h : Rotates sys) (hi : sys.requests[i]? = some (r, credential))
    (hrows : ∀ id, (∃ row ∈ sys.backend.credentials, row.id = id) →
      ∃ row ∈ backend.credentials, row.id = id)
    (hholds : ∃ current, sys.credential = some current ∧ (backend.accepts current ∨ ∃ new,
      (∃ r', sys.waiting = some r' ∧ (r', some new) ∈ sys.responses ++ [(r, a)] ∧
        backend.accepts new) ∧ ∀ x ∈ sys.requests.eraseIdx i, x.2.id ≠ new.id)) :
    Rotates { sys with
      backend, requests := sys.requests.eraseIdx i, responses := sys.responses ++ [(r, a)] } := by
  obtain ⟨hlt, hget⟩ := List.getElem?_eq_some_iff.1 hi
  have hperm : ((sys.requests.eraseIdx i).map (·.1) ++ (sys.responses ++ [(r, a)]).map (·.1)).Perm
      sys.numbers := by
    have hreq := (List.getElem_cons_eraseIdx_perm hlt).map (·.1)
    rw [hget] at hreq
    rw [List.map_append, ← List.append_assoc]
    refine (List.perm_append_singleton _ _).trans ?_
    exact hreq.append_right _
  refine ⟨hholds, hperm.nodup_iff.2 h.numbers, fun n hn => h.sent n (hperm.mem_iff.1 hn), ?_, ?_,
    h.stream⟩
  · exact fun x hx => h.current x (List.mem_of_mem_eraseIdx hx)
  · exact fun x hx => hrows _ (h.rows x (List.mem_of_mem_eraseIdx hx))

theorem Rotates.process {i : Nat} {draw : AgentCredential} {outcome : RotationOutcome}
    (h : Rotates sys) (hg : sys.keepsAccess (.process i draw outcome)) :
    Rotates (sys.step (.process i draw outcome)) := by
  simp only [step]
  split
  next => exact h
  next r credential hi =>
    -- an answer that leaves the backend alone
    have hkept (a : Option AgentCredential) : ∃ current, sys.credential = some current ∧
        (sys.backend.accepts current ∨ ∃ new,
          (∃ r', sys.waiting = some r' ∧ (r', some new) ∈ sys.responses ++ [(r, a)] ∧
            sys.backend.accepts new) ∧ ∀ x ∈ sys.requests.eraseIdx i, x.2.id ≠ new.id) := by
      obtain ⟨current, hc, ha | ⟨new, ⟨r', hr', hmem, ha⟩, hne⟩⟩ := h.holds
      · exact ⟨current, hc, .inl ha⟩
      · refine ⟨current, hc, .inr ⟨new, ⟨r', hr', List.mem_append_left _ hmem, ha⟩, ?_⟩⟩
        exact fun x hx => hne x (List.mem_of_mem_eraseIdx hx)
    simp only [rotate]
    split
    next => exact h.answer hi (fun _ hid => hid) (hkept none)
    next backend hrotate =>
      split
      next =>
        refine h.answer hi (fun _ => exists_row_rotated hrotate) ?_
        have hmem := List.mem_of_getElem? hi
        simp only [keepsAccess, hi, hrotate, Option.isNone_some, Bool.or_false, Bool.or_eq_true,
          decide_eq_true_eq] at hg
        obtain ⟨current, hc, hholds⟩ := h.holds
        refine ⟨current, hc, ?_⟩
        rcases hg with hwait | hne
        · obtain ⟨row, -, hfresh, -⟩ := rotateCredential_eq_some hrotate
          refine .inr ⟨draw, ⟨r, hwait, ?_, accepts_rotated hrotate⟩, fun x hx heq => ?_⟩
          · exact List.mem_append_right _ (List.mem_singleton_self _)
          · obtain ⟨old, hold, hid⟩ := h.rows x (List.mem_of_mem_eraseIdx hx)
            exact hfresh old hold (hid.trans heq)
        · rcases hholds with ha | ⟨new, ⟨r', hr', hnew, ha⟩, hnone⟩
          · have hid : current.id ≠ credential.id := by simpa [hc] using hne
            exact .inl (accepts_rotated_of_ne hrotate hid ha)
          · have hid : new.id ≠ credential.id := Ne.symm (hnone _ hmem)
            refine .inr ⟨new, ⟨r', hr', List.mem_append_left _ hnew, ?_⟩, ?_⟩
            · exact accepts_rotated_of_ne hrotate hid ha
            · exact fun x hx => hnone x (List.mem_of_mem_eraseIdx hx)
      next => exact h.answer hi (fun _ hid => hid) (hkept (some draw))
      next => exact h.answer hi (fun _ hid => hid) (hkept none)

theorem Rotates.deliver {i : Nat} (h : Rotates sys) (hg : sys.keepsAccess (.deliver i)) :
    Rotates (sys.step (.deliver i)) := by
  simp only [step]
  split
  next => exact h
  next r a hi =>
    have hmem := List.mem_of_getElem? hi
    have hsub : (sys.requests.map (·.1) ++ (sys.responses.eraseIdx i).map (·.1)).Sublist
        sys.numbers := (List.Sublist.refl _).append ((List.eraseIdx_sublist _ _).map _)
    have hnumbers := h.numbers.sublist hsub
    have hsent : ∀ n ∈ sys.requests.map (·.1) ++ (sys.responses.eraseIdx i).map (·.1),
        n < sys.sent := fun n hn => h.sent n (hsub.subset hn)
    obtain ⟨current, hc, hholds⟩ := h.holds
    split
    next hwait =>
      refine ⟨?_, hnumbers, hsent, (fun _ _ hw => by cases hw), h.rows, fun _ => rfl⟩
      cases a with
      | some new =>
        refine ⟨new, rfl, .inl ?_⟩
        simpa [keepsAccess, hi, hwait] using hg
      | none =>
        refine ⟨current, hc, .inl ?_⟩
        rcases hholds with ha | ⟨new, ⟨r', hr', hnew, -⟩, -⟩
        · exact ha
        · -- the request has one answer
          rw [hwait] at hr'
          cases hr'
          have hone := List.inj_on_of_nodup_map (List.nodup_append.1 h.numbers).2.1 hmem hnew rfl
          cases hone
    next hwait =>
      refine ⟨⟨current, hc, hholds.imp_right ?_⟩, hnumbers, hsent, h.current, h.rows, h.stream⟩
      rintro ⟨new, ⟨r', hr', hnew, ha⟩, hnone⟩
      refine ⟨new, ⟨r', hr', mem_of_mem_eraseIdx_ne hi hnew ?_, ha⟩, hnone⟩
      rintro ⟨⟩
      exact hwait hr'

theorem Rotates.step (h : Rotates sys) (hg : sys.keepsAccess e) : Rotates (sys.step e) := by
  cases e with
  | connect =>
    simp only [RotationSys.step]
    split
    next => exact h
    next credential hc =>
      split
      next => exact h
      next hstream =>
        have hw := h.stream (by simpa using hstream)
        obtain ⟨credential', hc', ha⟩ := holdsAccepted_iff.1 (h.accepted hw)
        rw [hc] at hc'
        cases hc'
        rw [if_pos ha]
        exact ⟨h.holds, h.numbers, h.sent, h.current, h.rows, fun _ => hw⟩
  | disconnect => exact h.stop hg
  | send => exact h.send
  | process => exact h.process hg
  | deliver => exact h.deliver hg
  | giveUp => exact h.stop hg

/-- From an accepted credential the agent keeps access in every state of a run in which the backend
commits a rotation only for the request the agent waits for, and the agent gives up on none that was
committed. -/
theorem keepsAccess_of_guarded {backend : CredentialStore} {credential : AgentCredential}
    {es : List RotationEvent} (ha : backend.accepts credential)
    (hg : Guarded step (fun sys e => sys.keepsAccess e) (.start backend credential) es) :
    Always step KeepsAccess (.start backend credential) es := by
  refine hg.always (I := Rotates) (fun sys e h hok => h.step hok) (fun sys h => h.keeps) ?_
  refine ⟨⟨credential, rfl, .inl ha⟩, List.nodup_nil, ?_, ?_, ?_, fun _ => rfl⟩ <;>
    intro x hx <;> cases hx

/-- A backend with node 7 and its active credential 1. -/
def enrolledBackend : CredentialStore := ⟨fun secret => "h" ++ secret, [7], [⟨1, 7, "ha", false⟩]⟩

/-- Two rotations, the second after an attempt that was lost on its way to the backend. -/
theorem keepsAccess_twoRotations : Always step KeepsAccess (.start enrolledBackend ⟨1, "a"⟩)
    [.connect, .send, .process 0 ⟨2, "b"⟩ .committed, .deliver 0, .send, .giveUp, .send,
      .process 1 ⟨3, "c"⟩ .committed, .deliver 0, .disconnect true, .connect] :=
  keepsAccess_of_guarded (by decide) (by decide)

/-- The answer is lost after the commit: the agent's credential is revoked, and none is on its
way. -/
theorem not_keepsAccess_lost_answer : ¬ KeepsAccess (run step (.start enrolledBackend ⟨1, "a"⟩)
    [.connect, .send, .process 0 ⟨2, "b"⟩ .committed, .giveUp]) := by
  rintro ⟨credential, ⟨⟩, ha | ⟨new, r, hr, -⟩⟩
  · exact absurd ha (by decide)
  · cases hr

end LlmPort.NodeStream
