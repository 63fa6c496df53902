import LlmPort.Backend.NodeControl.Model

/-!
# Node credentials

Authentication and rotation of `services/nodes/service.py` on the credential table. No credential
the service creates expires.
-/

namespace LlmPort.Backend.NodeControl

/-- The two parts of a credential's text `<id>.<secret>`. -/
structure AgentCredential where
  id : Uuid
  secret : String
  deriving DecidableEq

/-- A credential row; `revoked` when `revoked_at` is set. -/
structure InfraNodeCredential where
  id : Uuid
  nodeId : Uuid
  secretHash : String
  revoked : Bool
  deriving DecidableEq

/-- The credential table, the ids of the nodes, and `hash_with_pepper`. -/
structure CredentialStore where
  hash : String → String
  nodes : List Uuid
  credentials : List InfraNodeCredential

namespace CredentialStore

def getActiveCredential (s : CredentialStore) (id : Uuid) : Option InfraNodeCredential :=
  s.credentials.find? fun row => row.id = id ∧ row.revoked = false

def revokeCredential (s : CredentialStore) (credential : InfraNodeCredential) : CredentialStore :=
  { s with credentials := s.credentials.map fun row =>
      if row.id = credential.id then { row with revoked := true } else row }

/-- A flush that the primary key rejects gives `none`. -/
def createCredential (s : CredentialStore) (row : InfraNodeCredential) : Option CredentialStore :=
  if s.credentials.any (·.id = row.id) then none
  else some { s with credentials := s.credentials ++ [row] }

/-- The row of the credential, when `authenticate_agent` does not raise. -/
def authenticateAgent (s : CredentialStore) (credential : AgentCredential) :
    Option InfraNodeCredential :=
  (s.getActiveCredential credential.id).filter fun row =>
    row.secretHash = s.hash credential.secret ∧ row.nodeId ∈ s.nodes

/-- `rotate_credential` with the id and the secret it draws. -/
def rotateCredential (s : CredentialStore) (draw credential : AgentCredential) :
    Option CredentialStore :=
  (s.authenticateAgent credential).bind fun row =>
    (s.revokeCredential row).createCredential ⟨draw.id, row.nodeId, s.hash draw.secret, false⟩

def accepts (s : CredentialStore) (credential : AgentCredential) : Bool :=
  (s.authenticateAgent credential).isSome

end CredentialStore

variable {s s' : CredentialStore} {draw credential other : AgentCredential}

open CredentialStore

theorem accepts_iff : s.accepts credential ↔ ∃ row, s.getActiveCredential credential.id = some row ∧
    row.secretHash = s.hash credential.secret ∧ row.nodeId ∈ s.nodes := by
  simp [accepts, authenticateAgent, Option.any_eq_true]

/-- An accepted credential has a row. -/
theorem exists_row_of_accepts (h : s.accepts credential) :
    ∃ row ∈ s.credentials, row.id = credential.id := by
  obtain ⟨row, hrow, -⟩ := accepts_iff.1 h
  refine ⟨row, List.mem_of_find?_eq_some hrow, ?_⟩
  have hid := List.find?_some hrow
  simp only [decide_eq_true_eq] at hid
  exact hid.1

/-- What a rotation does: the row of the old credential is revoked, and the drawn one is active
under an id no row had. -/
theorem rotateCredential_eq_some (h : s.rotateCredential draw credential = some s') :
    ∃ row, s.authenticateAgent credential = some row ∧ (∀ row ∈ s.credentials, row.id ≠ draw.id) ∧
      s' = { s.revokeCredential row with
        credentials := (s.revokeCredential row).credentials ++
          [⟨draw.id, row.nodeId, s.hash draw.secret, false⟩] } := by
  obtain ⟨row, hrow, hcreate⟩ := Option.bind_eq_some_iff.1 h
  refine ⟨row, hrow, ?_⟩
  unfold createCredential at hcreate
  split at hcreate
  next => cases hcreate
  next hany =>
    refine ⟨fun old hold heq => hany (List.any_eq_true.2 ?_), (Option.some.inj hcreate).symm⟩
    refine ⟨_, List.mem_map_of_mem hold, ?_⟩
    split <;> simpa using heq

theorem accepts_rotated (h : s.rotateCredential draw credential = some s') : s'.accepts draw := by
  obtain ⟨row, hrow, hfresh, rfl⟩ := rotateCredential_eq_some h
  obtain ⟨-, hauth⟩ := Option.filter_eq_some_iff.1 hrow
  simp only [decide_eq_true_eq] at hauth
  refine accepts_iff.2 ⟨⟨draw.id, row.nodeId, s.hash draw.secret, false⟩, ?_, rfl, hauth.2⟩
  simp only [getActiveCredential, List.find?_append]
  have hnone : (s.revokeCredential row).credentials.find?
      (fun row => row.id = draw.id ∧ row.revoked = false) = none := by
    refine List.find?_eq_none.2 fun old hold => ?_
    obtain ⟨old', hold', rfl⟩ := List.mem_map.1 hold
    have hne := hfresh old' hold'
    split <;> simp [hne]
  rw [hnone]
  simp

/-- A rotation leaves the credentials under other ids alone. -/
theorem accepts_rotated_of_ne (h : s.rotateCredential draw credential = some s')
    (hne : other.id ≠ credential.id) (ha : s.accepts other) : s'.accepts other := by
  obtain ⟨row, hrow, -, rfl⟩ := rotateCredential_eq_some h
  have hid : row.id = credential.id := by
    have := List.find?_some (Option.filter_eq_some_iff.1 hrow).1
    simp only [decide_eq_true_eq] at this
    exact this.1
  obtain ⟨old, hold, hrest⟩ := accepts_iff.1 ha
  refine accepts_iff.2 ⟨old, ?_, hrest⟩
  have hkept : (s.revokeCredential row).credentials.find?
      (fun row => row.id = other.id ∧ row.revoked = false) = some old := by
    -- the predicate does not see the revocation, and the row it finds is not the revoked one
    let revoke (old : InfraNodeCredential) : InfraNodeCredential :=
      if old.id = row.id then { old with revoked := true } else old
    have hsame : ((fun row => decide (row.id = other.id ∧ row.revoked = false)) ∘ revoke) =
        fun row : InfraNodeCredential => decide (row.id = other.id ∧ row.revoked = false) := by
      funext old'
      simp only [Function.comp_apply, revoke]
      split
      next heq => simp [heq, hid, Ne.symm hne]
      next => rfl
    have hmap := List.find?_map (f := revoke) (l := s.credentials)
      (p := fun row => decide (row.id = other.id ∧ row.revoked = false))
    have hactive := List.find?_some hold
    simp only [decide_eq_true_eq] at hactive
    apply hmap.trans
    rw [hsame, show s.credentials.find? _ = some old from hold, Option.map_some]
    exact congrArg some (if_neg (by rw [hid, hactive.1]; exact hne))
  simp only [getActiveCredential, List.find?_append, hkept, Option.some_or]

theorem exists_row_rotated {id : Uuid} (h : s.rotateCredential draw credential = some s')
    (hid : ∃ row ∈ s.credentials, row.id = id) : ∃ row ∈ s'.credentials, row.id = id := by
  obtain ⟨row, -, -, rfl⟩ := rotateCredential_eq_some h
  obtain ⟨old, hold, hid⟩ := hid
  refine ⟨_, List.mem_append_left _ (List.mem_map_of_mem hold), ?_⟩
  split <;> exact hid

end LlmPort.Backend.NodeControl
