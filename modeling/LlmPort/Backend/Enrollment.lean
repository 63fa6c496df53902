import LlmPort.Backend.NodeControl.Credentials
import LlmPort.Transition.Run

/-!
# Concurrent enrollments

`enroll_node` as its database accesses, for requests that present one enrollment token. A
transaction reads what others have committed; its own writes are seen when it commits, except that
an insert waits for another open insert of the same agent id.
-/

namespace LlmPort.Backend

open NodeControl Transition

/-- The row of the token. -/
structure EnrollmentToken where
  expiresAt : Time
  usedAt : Option Time
  usedByNodeId : Option Uuid
  deriving DecidableEq

/-- `get_usable_enrollment_token` finds the row. -/
def EnrollmentToken.isUsable (token : EnrollmentToken) (now : Time) : Bool :=
  token.usedAt.isNone && now < token.expiresAt

inductive EnrollPhase where
  | started
  | validated
  /-- `get_node_by_agent_id` has answered. -/
  | nodeRead (found : Option Uuid)
  | resolved (nodeId : Uuid) (created : Bool)
  | credentialed (nodeId : Uuid) (created : Bool) (credential : InfraNodeCredential)
  /-- The transaction is committed. -/
  | enrolled (credential : InfraNodeCredential)
  | failed
  deriving DecidableEq

/-- The request has found the token usable, and was not rolled back. -/
def EnrollPhase.isAdmitted : EnrollPhase → Bool
  | started | failed => false
  | _ => true

def EnrollPhase.isEnrolled : EnrollPhase → Bool
  | enrolled _ => true
  | _ => false

structure EnrollRequest where
  agentId : String
  phase : EnrollPhase
  deriving DecidableEq

/-- The agent id whose node the open transaction has inserted. -/
def EnrollRequest.inserting (request : EnrollRequest) : Option String :=
  match request.phase with
  | .resolved _ true | .credentialed _ true _ => some request.agentId
  | _ => none

/-- What is committed, and the requests. -/
structure EnrollSys where
  token : EnrollmentToken
  nodes : List (String × Uuid)
  credentials : List InfraNodeCredential
  requests : List EnrollRequest

inductive EnrollEvent where
  | request (agentId : String)
  | readToken (i : Nat) (now : Time)
  | readNode (i : Nat)
  | writeNode (i : Nat) (newId : Uuid)
  | writeCredential (i : Nat) (id : Uuid) (secretHash : String)
  | commit (i : Nat) (now : Time)
  | rollback (i : Nat)

namespace EnrollSys

def start (token : EnrollmentToken) (nodes : List (String × Uuid))
    (credentials : List InfraNodeCredential) : EnrollSys := ⟨token, nodes, credentials, []⟩

def phaseOf (sys : EnrollSys) (i : Nat) : Option EnrollPhase := (sys.requests[i]?).map (·.phase)

def setPhase (sys : EnrollSys) (i : Nat) (phase : EnrollPhase) : EnrollSys :=
  { sys with requests := sys.requests.modify i ({ · with phase }) }

/-- The flush of a new node: rejected by a committed row of the agent id, and blocked by an open
insert of it. -/
def insertNode (sys : EnrollSys) (i : Nat) (agentId : String) (newId : Uuid) : EnrollSys :=
  if sys.requests.any (·.inserting = some agentId) then sys
  else if sys.nodes.any (·.1 = agentId) then sys.setPhase i .failed
  else sys.setPhase i (.resolved newId true)

def step (sys : EnrollSys) : EnrollEvent → EnrollSys
  | .request agentId => { sys with requests := sys.requests ++ [⟨agentId, .started⟩] }
  | .readToken i now => match sys.phaseOf i with
    | some .started => sys.setPhase i (if sys.token.isUsable now then .validated else .failed)
    | _ => sys
  | .readNode i => match sys.requests[i]? with
    | some ⟨agentId, .validated⟩ => sys.setPhase i (.nodeRead (sys.nodes.lookup agentId))
    | _ => sys
  | .writeNode i newId => match sys.requests[i]? with
    | some ⟨_, .nodeRead (some nodeId)⟩ => sys.setPhase i (.resolved nodeId false)
    | some ⟨agentId, .nodeRead none⟩ => sys.insertNode i agentId newId
    | _ => sys
  | .writeCredential i id secretHash => match sys.phaseOf i with
    | some (.resolved nodeId created) =>
      if sys.credentials.any (·.id = id) then sys.setPhase i .failed
      else sys.setPhase i (.credentialed nodeId created ⟨id, nodeId, secretHash, false⟩)
    | _ => sys
  | .commit i now => match sys.requests[i]? with
    | some ⟨agentId, .credentialed nodeId created credential⟩ =>
      { sys with
        token := { sys.token with usedAt := some now, usedByNodeId := some nodeId }
        nodes := if created then sys.nodes ++ [(agentId, nodeId)] else sys.nodes
        credentials := sys.credentials ++ [credential] }.setPhase i (.enrolled credential)
    | _ => sys
  | .rollback i => match sys.phaseOf i with
    | some phase => if phase.isEnrolled then sys else sys.setPhase i .failed
    | none => sys

/-- A request marks the token only if its row is still unmarked, as it was when the request read
it. -/
def marksUnused (sys : EnrollSys) : EnrollEvent → Bool
  | .commit i _ => match sys.phaseOf i with
    | some (.credentialed ..) => sys.token.usedAt.isNone
    | _ => true
  | _ => true

def isEnrolled (sys : EnrollSys) (i : Nat) : Bool := (sys.phaseOf i).any (·.isEnrolled)

def isAdmitted (sys : EnrollSys) (i : Nat) : Bool := (sys.phaseOf i).any (·.isAdmitted)

end EnrollSys

open EnrollSys

variable {sys : EnrollSys} {e : EnrollEvent} {i j : Nat} {phase old : EnrollPhase}

/-- At most one request has obtained a credential. -/
def SingleUse (sys : EnrollSys) : Prop :=
  ∀ i j, sys.isEnrolled i → sys.isEnrolled j → i = j

/-- How the mark of the token follows the requests: who is enrolled has marked it, and while a
request is admitted nobody else can have. -/
structure MarkFollows (sys : EnrollSys) : Prop where
  single : SingleUse sys
  used : ∀ i, sys.isEnrolled i → sys.token.usedAt.isSome
  marker : ∀ i, sys.isAdmitted i → sys.token.usedAt.isSome → ∃ j, sys.isEnrolled j

theorem phaseOf_setPhase :
    (sys.setPhase i phase).phaseOf j =
      if i = j then (sys.phaseOf j).map fun _ => phase else sys.phaseOf j := by
  unfold phaseOf setPhase
  rw [List.getElem?_modify]
  split <;> cases sys.requests[j]? <;> rfl

theorem isEnrolled_setPhase (h : sys.phaseOf i = some old) :
    (sys.setPhase i phase).isEnrolled j = if i = j then phase.isEnrolled else sys.isEnrolled j := by
  unfold isEnrolled
  rw [phaseOf_setPhase]
  split
  next hij => subst hij; rw [h]; rfl
  next => rfl

theorem isAdmitted_setPhase (h : sys.phaseOf i = some old) :
    (sys.setPhase i phase).isAdmitted j = if i = j then phase.isAdmitted else sys.isAdmitted j := by
  unfold isAdmitted
  rw [phaseOf_setPhase]
  split
  next hij => subst hij; rw [h]; rfl
  next => rfl

theorem isEnrolled_of_phaseOf (h : sys.phaseOf i = some phase) :
    sys.isEnrolled i = phase.isEnrolled := by
  unfold isEnrolled
  rw [h]
  rfl

theorem isAdmitted_of_phaseOf (h : sys.phaseOf i = some phase) :
    sys.isAdmitted i = phase.isAdmitted := by
  unfold isAdmitted
  rw [h]
  rfl

/-- The invariant is about the token, and about which requests are enrolled and admitted. -/
theorem MarkFollows.congr {sys' : EnrollSys} (h : MarkFollows sys)
    (ht : sys'.token.usedAt.isSome = sys.token.usedAt.isSome)
    (he : ∀ j, sys'.isEnrolled j = sys.isEnrolled j)
    (ha : ∀ j, sys'.isAdmitted j → sys.isAdmitted j ∨ sys.token.usedAt = none) :
    MarkFollows sys' where
  single i j hi hj := h.single i j (he i ▸ hi) (he j ▸ hj)
  used i hi := ht ▸ h.used i (he i ▸ hi)
  marker i hi hu := by
    rw [ht] at hu
    obtain hi | hn := ha i hi
    · obtain ⟨j, hj⟩ := h.marker i hi hu
      exact ⟨j, (he j).symm ▸ hj⟩
    · rw [hn] at hu
      cases hu

/-- A request moves on before it is enrolled; it is admitted only with the token unmarked. -/
theorem MarkFollows.setPhase (h : MarkFollows sys) (hi : sys.phaseOf i = some old)
    (hold : old.isEnrolled = false) (hnew : phase.isEnrolled = false)
    (ha : phase.isAdmitted → old.isAdmitted ∨ sys.token.usedAt = none) :
    MarkFollows (sys.setPhase i phase) := by
  refine h.congr rfl (fun j => ?_) (fun j hj => ?_)
  · rw [isEnrolled_setPhase hi]
    split
    next hij => subst hij; rw [isEnrolled_of_phaseOf hi, hold, hnew]
    next => rfl
  · rw [isAdmitted_setPhase hi] at hj
    split at hj
    next hij => subst hij; rw [isAdmitted_of_phaseOf hi]; exact ha hj
    next => exact .inl hj

theorem phaseOf_of_request {request : EnrollRequest} (h : sys.requests[i]? = some request) :
    sys.phaseOf i = some request.phase := by
  unfold phaseOf
  rw [h]
  rfl

theorem request_of_phaseOf (h : sys.phaseOf i = some phase) :
    ∃ agentId, sys.requests[i]? = some ⟨agentId, phase⟩ := by
  obtain ⟨⟨agentId, phase⟩, hr, rfl⟩ := Option.map_eq_some_iff.1 h
  exact ⟨agentId, hr⟩

/-- The state a credentialed request commits. -/
theorem commit_credentialed {agentId : String} {nodeId : Uuid} {created : Bool}
    {credential : InfraNodeCredential}
    (h : sys.requests[i]? = some ⟨agentId, .credentialed nodeId created credential⟩) (now : Time) :
    (∀ j, (sys.step (.commit i now)).isEnrolled j = if i = j then true else sys.isEnrolled j) ∧
      (sys.step (.commit i now)).token.usedAt = some now := by
  have hp := phaseOf_of_request h
  simp only [EnrollSys.step, h]
  exact ⟨fun j => isEnrolled_setPhase hp, rfl⟩

/-- A new request is neither enrolled nor admitted. -/
theorem phaseOf_request (sys : EnrollSys) (agentId : String) (j : Nat) :
    (sys.step (.request agentId)).phaseOf j = sys.phaseOf j ∨
      (sys.step (.request agentId)).phaseOf j = some .started ∧ sys.phaseOf j = none := by
  unfold phaseOf EnrollSys.step
  obtain hlt | rfl | hgt := Nat.lt_trichotomy j sys.requests.length
  · exact .inl (by rw [List.getElem?_append_left hlt])
  · refine .inr ⟨?_, ?_⟩
    · rw [List.getElem?_concat_length]
      rfl
    · rw [List.getElem?_eq_none (Nat.le_refl _)]
      rfl
  · refine .inl ?_
    rw [List.getElem?_eq_none (by simp; omega), List.getElem?_eq_none (by omega)]

theorem MarkFollows.request (h : MarkFollows sys) (agentId : String) :
    MarkFollows (sys.step (.request agentId)) := by
  refine h.congr rfl (fun j => ?_) (fun j hj => .inl ?_)
  · obtain hp | ⟨hp, hn⟩ := phaseOf_request sys agentId j
    · exact congrArg (Option.any _) hp
    · unfold isEnrolled
      rw [hp, hn]
      rfl
  · obtain hp | ⟨hp, hn⟩ := phaseOf_request sys agentId j
    · exact (congrArg (Option.any _) hp).symm.trans hj
    · unfold isAdmitted at hj
      rw [hp] at hj
      cases hj

theorem MarkFollows.insertNode {agentId : String} {newId : Uuid} (h : MarkFollows sys)
    (hi : sys.phaseOf i = some (.nodeRead none)) :
    MarkFollows (sys.insertNode i agentId newId) := by
  unfold EnrollSys.insertNode
  split
  · exact h
  split
  · exact h.setPhase hi rfl rfl (fun ha => by cases ha)
  · exact h.setPhase hi rfl rfl (fun _ => .inl rfl)

/-- A commit is one of a credentialed request, or nothing. -/
theorem credentialed_or_skip (sys : EnrollSys) (i : Nat) (now : Time) :
    (∃ agentId nodeId created credential,
      sys.requests[i]? = some ⟨agentId, .credentialed nodeId created credential⟩) ∨
      sys.step (.commit i now) = sys := by
  simp only [EnrollSys.step]
  split
  next agentId nodeId created credential hi => exact .inl ⟨agentId, nodeId, created, credential, hi⟩
  next => exact .inr rfl

/-- The first mark: nobody was enrolled before. -/
theorem MarkFollows.commit {agentId : String} {nodeId : Uuid} {created : Bool}
    {credential : InfraNodeCredential} {now : Time} (h : MarkFollows sys)
    (hi : sys.requests[i]? = some ⟨agentId, .credentialed nodeId created credential⟩)
    (hu : sys.token.usedAt = none) : MarkFollows (sys.step (.commit i now)) := by
  obtain ⟨he, ht⟩ := commit_credentialed hi now
  have hnone : ∀ j, sys.isEnrolled j = false := by
    intro j
    refine Bool.eq_false_iff.2 fun hj => ?_
    have := h.used j hj
    rw [hu] at this
    cases this
  have hme : ∀ j, (sys.step (.commit i now)).isEnrolled j → i = j := by
    intro j hj
    rw [he j, hnone j] at hj
    split at hj
    next hij => exact hij
    next => cases hj
  refine ⟨fun j k hj hk => (hme j hj).symm.trans (hme k hk), fun j _ => ?_, fun j _ _ => ⟨i, ?_⟩⟩
  · rw [ht]
    rfl
  · rw [he i, if_pos rfl]

theorem MarkFollows.step (h : MarkFollows sys) (hok : marksUnused sys e) :
    MarkFollows (sys.step e) := by
  cases e with
  | request agentId => exact h.request agentId
  | readToken i now =>
    simp only [EnrollSys.step]
    split
    next hi =>
      refine h.setPhase hi rfl ?_ fun ha => ?_
      · split <;> rfl
      · split at ha
        next hu =>
          unfold EnrollmentToken.isUsable at hu
          exact .inr (Option.isNone_iff_eq_none.1 (Bool.and_eq_true_iff.1 hu).1)
        next => cases ha
    next => exact h
  | readNode i =>
    simp only [EnrollSys.step]
    split
    next hi => exact h.setPhase (phaseOf_of_request hi) rfl rfl (fun _ => .inl rfl)
    next => exact h
  | writeNode i newId =>
    simp only [EnrollSys.step]
    split
    next hi => exact h.setPhase (phaseOf_of_request hi) rfl rfl (fun _ => .inl rfl)
    next hi => exact h.insertNode (phaseOf_of_request hi)
    next => exact h
  | writeCredential i id secretHash =>
    simp only [EnrollSys.step]
    split
    next hi =>
      split
      · exact h.setPhase hi rfl rfl (fun ha => by cases ha)
      · exact h.setPhase hi rfl rfl (fun _ => .inl rfl)
    next => exact h
  | commit i now =>
    obtain ⟨agentId, nodeId, created, credential, hi⟩ | hno := credentialed_or_skip sys i now
    · exact h.commit hi (by simpa [marksUnused, phaseOf_of_request hi] using hok)
    · exact hno.symm ▸ h
  | rollback i =>
    simp only [EnrollSys.step]
    split
    next old hi =>
      split
      next => exact h
      next he => exact h.setPhase hi (Bool.eq_false_iff.2 he) rfl (fun ha => by cases ha)
    next => exact h

/-- A second mark enrolls a second request: whoever set the first one is another request. -/
theorem marksUnused_of_singleUse (h : MarkFollows sys) (hs : SingleUse (sys.step e)) :
    marksUnused sys e := by
  cases e with
  | commit i now =>
    simp only [marksUnused]
    split
    next nodeId created credential hp =>
      apply Option.isNone_iff_eq_none.2
      by_contra hu
      obtain ⟨j, hj⟩ := h.marker i ((isAdmitted_of_phaseOf hp).trans rfl)
        (Option.isSome_iff_ne_none.2 hu)
      obtain ⟨agentId, hi⟩ := request_of_phaseOf hp
      obtain ⟨he, -⟩ := commit_credentialed hi now
      have hij : i ≠ j := by
        rintro rfl
        rw [isEnrolled_of_phaseOf hp] at hj
        cases hj
      refine hij (hs i j ?_ ?_)
      · rw [he i, if_pos rfl]
      · rw [he j, if_neg hij]
        exact hj
    next => rfl
  | _ => rfl

theorem MarkFollows.start (token : EnrollmentToken) (nodes : List (String × Uuid))
    (credentials : List InfraNodeCredential) : MarkFollows (.start token nodes credentials) where
  single i j hi := by cases hi
  used i hi := by cases hi
  marker i hi := by cases hi

/-- Of the requests that present a token one at most obtains a credential, at every moment of a run,
exactly if no request marks the token after another has. -/
theorem singleUse_iff (token : EnrollmentToken) (nodes : List (String × Uuid))
    (credentials : List InfraNodeCredential) (es : List EnrollEvent) :
    Always EnrollSys.step SingleUse (.start token nodes credentials) es ↔
      Guarded EnrollSys.step (fun sys e => marksUnused sys e) (.start token nodes credentials) es := by
  refine always_iff_guarded_of_invariant (I := MarkFollows) (fun _ h => h.single)
    (fun _ _ h hok => h.step hok) (fun _ _ h => marksUnused_of_singleUse h) ?_
  exact MarkFollows.start token nodes credentials

/-- Two requests read the token before either marks it: both are enrolled, each with a credential of
its own. -/
theorem not_singleUse_concurrent :
    ¬ Always EnrollSys.step SingleUse (.start ⟨60, none, none⟩ [] [])
      [.request "a", .request "b", .readToken 0 0, .readToken 1 0, .readNode 0, .readNode 1,
        .writeNode 0 1, .writeNode 1 2, .writeCredential 0 10 "x", .writeCredential 1 11 "y",
        .commit 0 1, .commit 1 1] := by
  intro h
  have := h _ List.prefix_rfl 0 1 rfl rfl
  cases this

end LlmPort.Backend
