import Mathlib.Data.List.Basic

/-!
# Chat sessions

The rows of `chat_session`, and the two checks of who owns one: `verify_session_ownership` of
`gateway_dao.py`, which the session endpoints make, and `get_session` of `session_dao.py`, which a
chat request makes.
-/

namespace LlmPort.Gateway

/-- A `uuid.UUID`. -/
abbrev SessionUuid := BitVec 128

structure AuthContext where
  tenantId : String
  userId : String
  deriving DecidableEq

inductive SessionStatus where
  | active | archived | deleted
  deriving DecidableEq

inductive ExecutionMode where
  | localOnly | serverOnly | hybrid
  deriving DecidableEq

structure ChatSession where
  id : SessionUuid
  tenantId : String
  userId : String
  status : SessionStatus
  executionMode : ExecutionMode
  deriving DecidableEq

def ChatSession.ownedBy (session : ChatSession) (auth : AuthContext) : Bool :=
  session.tenantId = auth.tenantId && session.userId = auth.userId

def verifySessionOwnership (sessions : List ChatSession) (id : SessionUuid) (auth : AuthContext) :
    Bool :=
  sessions.any fun session => session.id = id && session.ownedBy auth

/-- `SessionDAO.get_session`: a session that is deleted is not found. -/
def getSession (sessions : List ChatSession) (id : SessionUuid) (auth : AuthContext) :
    Option ChatSession :=
  sessions.find? fun session =>
    session.id = id && session.ownedBy auth && session.status ≠ .deleted

variable {sessions : List ChatSession} {id : SessionUuid} {auth : AuthContext}

theorem verifySessionOwnership_iff : verifySessionOwnership sessions id auth ↔
    ∃ session ∈ sessions, session.id = id ∧ session.ownedBy auth := by
  simp [verifySessionOwnership]

theorem getSession_eq_some {session : ChatSession}
    (h : getSession sessions id auth = some session) :
    session ∈ sessions ∧ session.id = id ∧ session.ownedBy auth ∧ session.status ≠ .deleted := by
  have hp := List.find?_some h
  simp only [Bool.and_eq_true, decide_eq_true_eq] at hp
  exact ⟨List.mem_of_find?_eq_some h, hp.1.1, hp.1.2, hp.2⟩

/-- A session that a chat request finds is its caller's. -/
theorem verifySessionOwnership_of_getSession (h : (getSession sessions id auth).isSome) :
    verifySessionOwnership sessions id auth := by
  obtain ⟨session, hs⟩ := Option.isSome_iff_exists.1 h
  obtain ⟨hm, hid, ho, -⟩ := getSession_eq_some hs
  exact verifySessionOwnership_iff.2 ⟨session, hm, hid, ho⟩

end LlmPort.Gateway
