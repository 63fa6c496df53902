import Mathlib.Data.List.Perm.Basic
import LlmPort.Backend.ControlPlane
import LlmPort.Backend.NodeControl.UuidText

/-!
# Idempotency keys under concurrent requests

A request for a command looks its key up; later one flush retires the key of the terminal command
it found and inserts the new row, under the table's constraints. The steps of other requests and the
writers of statuses come in between. A status writer does not ask whether the command it writes to
is terminal or has lost its key, and a key that has to be retired needs 47 characters more than the
key itself; `Clear` keeps a run away from both.
-/

namespace LlmPort.Backend

open Transition NodeControl NodeControlService Store Llm

/-! ## Requests in two steps -/

/-- A request between its lookup and its flush. -/
structure PendingIssue where
  draw : Draw
  req : CommandRequest
  /-- The terminal command it found under the key. -/
  found : Option Uuid
  /-- It has met no other request for its key on its node. -/
  alone : Bool

namespace PendingIssue

def key (p : PendingIssue) : String := requestKey p.draw p.req

/-- The two requests are for one key of one node. -/
def Contends (p q : PendingIssue) : Prop := p.req.nodeId = q.req.nodeId ∧ p.key = q.key

instance (p q : PendingIssue) : Decidable (p.Contends q) := inferInstanceAs (Decidable (_ ∧ _))

/-- `p` meets the request `q`. -/
def meet (p q : PendingIssue) : PendingIssue :=
  if p.Contends q then { p with alone := false } else p

section
variable {p q : PendingIssue}

@[simp] theorem meet_req : (p.meet q).req = p.req := by
  unfold meet
  split <;> rfl

@[simp] theorem meet_key : (p.meet q).key = p.key := by
  unfold meet
  split <;> rfl

@[simp] theorem meet_found : (p.meet q).found = p.found := by
  unfold meet
  split <;> rfl

@[simp] theorem meet_alone : (p.meet q).alone = (p.alone && !decide (p.Contends q)) := by
  unfold meet
  split <;> simp [*]

end

/-- The update of the found command's key, on its row as it is by then. -/
def retire (p : PendingIssue) (s : Store) : Option Store :=
  match p.found with
  | none => some s
  | some id => (s.getCommand id).bind fun c =>
    s.flushCommand { c with idempotencyKey := retiredKey p.key c.id }

/-- The row the request inserts. -/
def row (svc : NodeControlService) (p : PendingIssue) : InfraNodeCommand :=
  svc.queuedCommand p.draw p.req p.key

/-- The flush of the request: the retired key's update comes before the insert, and both are
committed together. -/
def flush (svc : NodeControlService) (p : PendingIssue) (s : Store) : Option Store :=
  (p.retire s).bind fun s => (s.createCommand (p.row svc)).map (·.1)

end PendingIssue

/-- The command a request is answered with when its lookup finds one in flight. -/
def answer (draw : Draw) (req : CommandRequest) (s : Store) : Option InfraNodeCommand :=
  (s.getCommandByIdempotencyKey req.nodeId (requestKey draw req)).filter (!·.status.isTerminal)

/-- The database with the requests under way, the statuses that dispatch listings and the reaper
have read, and for each command the key it was issued under. -/
structure KeyTable where
  store : Store
  pending : List PendingIssue
  reads : List (Uuid × NodeCommandStatus)
  issuedUnder : Uuid → Option String

inductive KeyEvent where
  | lookup (draw : Draw) (req : CommandRequest)
  /-- The flush of the request at this place. -/
  | flush (n : Nat)
  /-- A dispatch listing or a reaper pass reads a row. -/
  | read (id : Uuid)
  /-- A dispatch listing writes a row it has read as queued. -/
  | writeDispatched (now : Time) (id : Uuid)
  /-- A reaper pass writes a row it has read as in flight. -/
  | writeTimedOut (now : Time) (id : Uuid)
  | call (e : ControlEvent) (h : e.addsNothing)

theorem flushCommand_eq_some_iff {s s' : Store} {command : InfraNodeCommand} :
    s.flushCommand command = some s' ↔
      fits 256 command.idempotencyKey ∧
        (∀ d ∈ s.commands, d.id ≠ command.id → ¬ conflicts command d) ∧
        s' = s.updateCommand command := by
  unfold flushCommand
  split
  next h =>
    simp only [List.any_eq_true, decide_eq_true_eq, not_exists, not_and] at h
    simp only [Option.some.injEq]
    exact ⟨fun e => ⟨h.1, h.2, e.symm⟩, fun ⟨_, _, e⟩ => e.symm⟩
  next h =>
    simp only [reduceCtorEq, false_iff]
    rintro ⟨h₁, h₂, -⟩
    refine h ⟨h₁, ?_⟩
    simpa only [List.any_eq_true, decide_eq_true_eq, not_exists, not_and] using h₂

theorem length_retiredKey (key : String) (id : Uuid) :
    (retiredKey key id).length = key.length + 47 := by
  have hword : "::retired::".length = 11 := rfl
  unfold retiredKey
  simp only [String.length_append, toString, hword, length_uuidStr]

/-- A key that leaves no room for the suffix is not issued a second time. -/
theorem PendingIssue.flush_eq_none {svc : NodeControlService} {p : PendingIssue} {s : Store}
    (hf : p.found.isSome) (hl : 209 < p.key.length) : p.flush svc s = none := by
  obtain ⟨id, hid⟩ := Option.isSome_iff_exists.1 hf
  have hretire : p.retire s = none := by
    unfold PendingIssue.retire
    rw [hid]
    refine Option.bind_eq_none_iff.2 fun c _ => ?_
    have hlen := length_retiredKey p.key c.id
    refine if_neg fun h => ?_
    have hle : (retiredKey p.key c.id).length ≤ 256 := of_decide_eq_true h.1
    omega
  rw [PendingIssue.flush, hretire, Option.bind_none]

namespace KeyTable

/-- Before the first command. -/
def start (s : Store) : KeyTable := ⟨{ s with commands := [] }, [], [], fun _ => none⟩

def await (st : KeyTable) (draw : Draw) (req : CommandRequest) (found : Option Uuid) : KeyTable :=
  let p : PendingIssue := ⟨draw, req, found, true⟩
  let alone := !st.pending.any (·.Contends p)
  { st with pending := st.pending.map (·.meet p) ++ [{ p with alone }] }

def lookup (st : KeyTable) (draw : Draw) (req : CommandRequest) : KeyTable :=
  match st.store.getNodeById req.nodeId with
  | none => st
  | some _ =>
    match st.store.getCommandByIdempotencyKey req.nodeId (requestKey draw req) with
    | none => st.await draw req none
    | some existing => if existing.status.isTerminal then st.await draw req existing.id else st

/-- A flush that raises is rolled back. -/
def flush (svc : NodeControlService) (st : KeyTable) (n : Nat) : KeyTable :=
  match st.pending[n]? with
  | none => st
  | some p =>
    let st := { st with pending := st.pending.eraseIdx n }
    match p.flush svc st.store with
    | none => st
    | some s =>
      { st with
        store := s
        issuedUnder := fun id => if id = p.draw.id then some p.key else st.issuedUnder id }

def read (st : KeyTable) (id : Uuid) : KeyTable :=
  { st with reads := st.reads ++ ((st.store.getCommand id).map fun c => (id, c.status)).toList }

/-- The row that a dispatch listing writes. -/
def readQueued (st : KeyTable) (id : Uuid) : Option InfraNodeCommand :=
  if (id, .queued) ∈ st.reads then st.store.getCommand id else none

/-- The row that a reaper pass writes. -/
def readInflight (st : KeyTable) (id : Uuid) : Option InfraNodeCommand :=
  if st.reads.any fun r => r.1 = id ∧ r.2.isInflight then st.store.getCommand id else none

def step (llm : LLMService) (st : KeyTable) : KeyEvent → KeyTable
  | .lookup draw req => st.lookup draw req
  | .flush n => st.flush llm.nodeControl n
  | .read id => st.read id
  | .writeDispatched now id =>
    match st.readQueued id with
    | none => st
    | some c =>
      let command := setCommandStatus now c .dispatched none none none
      let s := (st.store.updateCommand command).appendCommandEvent command.id "dispatched"
        "Command dispatched to stream session." none
      { st with store := s }
  | .writeTimedOut now id =>
    match st.readInflight id with
    | none => st
    | some c =>
      let command := llm.nodeControl.timedOutRow now c
      let s := (st.store.updateCommand command).appendCommandEvent command.id "timed_out"
        "Command reaped: node offline with no result in flight." none
      { st with store := llm.nodeControl.applyRuntimeSideEffect command false timedOutPayload s }
  | .call e _ => { st with store := controlStep llm st.store e }

/-- A lookup and its flush, with nothing in between, are one call of `issue_command`. -/
theorem lookup_flush {llm : LLMService} {st : KeyTable} {draw : Draw} {req : CommandRequest}
    (hk : st.store.Keyed) (hp : st.pending = []) :
    ((st.lookup draw req).flush llm.nodeControl 0).store =
      controlStep llm st.store (.issue draw req) := by
  have hflush {found : Option Uuid} : ((st.await draw req found).flush llm.nodeControl 0).store =
      ((PendingIssue.flush llm.nodeControl ⟨draw, req, found, true⟩ st.store).getD st.store) := by
    simp only [await, flush, hp, List.any_nil, List.map_nil, List.nil_append, Bool.not_false,
      List.getElem?_cons_zero]
    cases PendingIssue.flush llm.nodeControl ⟨draw, req, found, true⟩ st.store <;> rfl
  have hnone : st.flush llm.nodeControl 0 = st := by simp [flush, hp]
  simp only [lookup, controlStep, issueCommand]
  cases hn : st.store.getNodeById req.nodeId with
  | none => exact congrArg KeyTable.store hnone
  | some node =>
    cases hf : st.store.getCommandByIdempotencyKey req.nodeId (requestKey draw req) with
    | none =>
      refine hflush.trans ?_
      simp only [PendingIssue.flush, PendingIssue.retire, PendingIssue.row, PendingIssue.key,
        Option.bind_some]
      cases st.store.createCommand _ <;> rfl
    | some existing =>
      have hold := hk.getCommand (List.mem_of_find?_eq_some hf)
      simp only
      split
      next ht =>
        refine hflush.trans ?_
        simp only [PendingIssue.flush, PendingIssue.retire, PendingIssue.row, PendingIssue.key,
          hold, Option.bind_some]
        cases st.store.flushCommand _ with
        | none => rfl
        | some s =>
          simp only [Option.bind_some]
          cases s.createCommand _ <;> rfl
      next => exact congrArg KeyTable.store hnone

/-! ## What requests are promised -/

/-- A command the node was issued under the key. -/
def IssuedTo (st : KeyTable) (nodeId : Uuid) (key : String) (c : InfraNodeCommand) : Prop :=
  c ∈ st.store.commands ∧ c.nodeId = nodeId ∧ st.issuedUnder c.id = some key

/-- At most one of the commands a node was issued under a key is in a non-terminal state. -/
def OneLive (st : KeyTable) : Prop :=
  ∀ nodeId key c d, st.IssuedTo nodeId key c → st.IssuedTo nodeId key d →
    c.status.isTerminal = false → d.status.isTerminal = false → c = d

/-- The key has no non-terminal command. -/
def Idle (st : KeyTable) (nodeId : Uuid) (key : String) : Prop :=
  ∀ c, st.IssuedTo nodeId key c → c.status.isTerminal

/-- A request for an idle key is not answered with a command that is there already, and if it meets
no other request for its key its flush creates the command. -/
def Serves (svc : NodeControlService) (st : KeyTable) : KeyEvent → Prop
  | .lookup draw req => st.Idle req.nodeId (requestKey draw req) → answer draw req st.store = none
  | .flush n => ∀ p, st.pending[n]? = some p → p.alone → st.Idle p.req.nodeId p.key →
      fitsColumns (p.row svc) → st.store.getCommand p.draw.id = none →
        (st.flush svc n).store.getCommand p.draw.id = some (p.row svc)
  | _ => True

structure Sound (llm : LLMService) (st : KeyTable) (e : KeyEvent) : Prop where
  oneLive : (step llm st e).OneLive
  serves : st.Serves llm.nodeControl e

/-! ## When they get it -/

/-- The command has the key it was issued under, and no request is about to retire it. -/
def Unretired (st : KeyTable) (c : InfraNodeCommand) : Prop :=
  st.issuedUnder c.id = some c.idempotencyKey ∧ ∀ p ∈ st.pending, p.found ≠ some c.id

/-- The row to which an event writes a non-terminal status, whatever its status is by then. -/
def target (st : KeyTable) : KeyEvent → Option InfraNodeCommand
  | .call (.ack _ nodeId commandId _) _ | .call (.progress _ nodeId commandId _) _ =>
    ownCommand st.store nodeId commandId
  | .writeDispatched _ id => st.readQueued id
  | _ => none

/-- The request whose flush an event is. -/
def flushed (st : KeyTable) : KeyEvent → Option PendingIssue
  | .flush n => st.pending[n]?
  | _ => none

/-- The request may retire the command `c`: if it has met no other, the retired key fits its column
and no other row has it; and it is not the key of a request under way. -/
structure Retires (st : KeyTable) (p : PendingIssue) (c : InfraNodeCommand) : Prop where
  fits : p.alone → p.key.length ≤ 209
  free : p.alone → ∀ d ∈ st.store.commands, d.id ≠ c.id → d.nodeId = c.nodeId →
    d.idempotencyKey ≠ retiredKey p.key c.id
  apart : c.idempotencyKey ≠ retiredKey p.key c.id → ∀ q ∈ st.pending, q.alone →
    q.req.nodeId = c.nodeId → q.key ≠ retiredKey p.key c.id

structure Clear (st : KeyTable) (e : KeyEvent) : Prop where
  spares : ∀ c, st.target e = some c → c.status.isTerminal → st.Unretired c
  retires : ∀ p, st.flushed e = some p → ∀ c, p.found.bind st.store.getCommand = some c →
    st.Retires p c

instance (st : KeyTable) (p : PendingIssue) (c : InfraNodeCommand) : Decidable (st.Retires p c) :=
  decidable_of_iff ((p.alone → p.key.length ≤ 209) ∧
    (p.alone → ∀ d ∈ st.store.commands, d.id ≠ c.id → d.nodeId = c.nodeId →
      d.idempotencyKey ≠ retiredKey p.key c.id) ∧
    (c.idempotencyKey ≠ retiredKey p.key c.id → ∀ q ∈ st.pending, q.alone →
      q.req.nodeId = c.nodeId → q.key ≠ retiredKey p.key c.id))
    ⟨fun ⟨h₁, h₂, h₃⟩ => ⟨h₁, h₂, h₃⟩, fun h => ⟨h.fits, h.free, h.apart⟩⟩

instance (st : KeyTable) (c : InfraNodeCommand) : Decidable (st.Unretired c) :=
  inferInstanceAs (Decidable (_ ∧ _))

instance (st : KeyTable) (e : KeyEvent) : Decidable (st.Clear e) :=
  decidable_of_iff ((∀ c ∈ st.target e, c.status.isTerminal → st.Unretired c) ∧
    ∀ p ∈ st.flushed e, ∀ c ∈ p.found.bind st.store.getCommand, st.Retires p c)
    ⟨fun ⟨h₁, h₂⟩ => ⟨h₁, h₂⟩, fun h => ⟨h.spares, h.retires⟩⟩

/-- A non-terminal command has the key it was issued under, and the rows leave room for the requests
that have met no other. -/
structure Inv (st : KeyTable) : Prop where
  keyed : st.store.Keyed
  unique : ∀ c ∈ st.store.commands, ∀ d ∈ st.store.commands, c.nodeId = d.nodeId →
    c.idempotencyKey = d.idempotencyKey → c = d
  live : ∀ c ∈ st.store.commands, c.status.isTerminal = false →
    st.issuedUnder c.id = some c.idempotencyKey
  found : ∀ p ∈ st.pending, ∀ id, p.found = some id → ∃ c, st.store.getCommand id = some c ∧
    c.status.isTerminal ∧ c.nodeId = p.req.nodeId
  reserved : ∀ p ∈ st.pending, p.alone → ∀ c ∈ st.store.commands, c.nodeId = p.req.nodeId →
    c.idempotencyKey = p.key → p.found = some c.id
  apart : st.pending.Pairwise fun p q => p.Contends q → p.alone = false ∧ q.alone = false

variable {llm : LLMService} {svc : NodeControlService} {st : KeyTable} {s s' : Store}
  {p q : PendingIssue} {c command : InfraNodeCommand} {e : KeyEvent}

theorem getCommand_of_readQueued {id : Uuid} (h : st.readQueued id = some c) :
    st.store.getCommand c.id = some c := by
  unfold readQueued at h
  split at h
  next => rwa [getCommand_id h]
  next => cases h

theorem getCommand_of_readInflight {id : Uuid} (h : st.readInflight id = some c) :
    st.store.getCommand c.id = some c := by
  unfold readInflight at h
  split at h
  next => rwa [getCommand_id h]
  next => cases h

theorem inv_start (s : Store) : (start s).Inv where
  keyed := List.nodup_nil
  unique _ h := by cases h
  live _ h := by cases h
  found _ h := by cases h
  reserved _ h := by cases h
  apart := .nil

namespace Inv

theorem oneLive (h : st.Inv) : st.OneLive := by
  intro nodeId key c d hc hd hlc hld
  have hkey := (h.live c hc.1 hlc).symm.trans hc.2.2
  have hkey' := (h.live d hd.1 hld).symm.trans hd.2.2
  apply h.unique c hc.1 d hd.1 (hc.2.1.trans hd.2.1.symm)
  rw [Option.some.inj hkey, Option.some.inj hkey']

/-- What a status writer may do to a row. -/
structure Writes (st : KeyTable) (c c' : InfraNodeCommand) : Prop where
  id : c'.id = c.id
  key : c'.idempotencyKey = c.idempotencyKey
  live : c.status.isTerminal → c'.status.isTerminal ∨ st.Unretired c

theorem Writes.trans {a b c : InfraNodeCommand} (h₁ : Writes st a b) (h₂ : Writes st b c) :
    Writes st a c where
  id := h₂.id.trans h₁.id
  key := h₂.key.trans h₁.key
  live ht := by
    rcases h₁.live ht with hb | hu
    · rcases h₂.live hb with hc | hu
      · exact .inl hc
      · right
        unfold Unretired at hu
        rw [h₁.id, h₁.key] at hu
        exact hu
    · exact .inr hu

theorem rewrites (h : st.Inv) (hr : Rewrites (Writes st) st.store s') :
    Inv { st with store := s' } := by
  have hk : s'.Keyed := hr.keyed h.keyed
  have hback (c' : InfraNodeCommand) (hc' : c' ∈ s'.commands) :
      ∃ c ∈ st.store.commands, c'.nodeId = c.nodeId ∧ Writes st c c' := by
    have hspec : specOf c' ∈ st.store.specs := by
      rw [← hr.specs]
      exact List.mem_map_of_mem hc'
    obtain ⟨c, hc, hcc⟩ := List.mem_map.1 hspec
    obtain ⟨d, hd, hs, hw⟩ := hr.rows c.id c (h.keyed.getCommand hc)
    have hid : c'.id = c.id := specOf_id hcc.symm
    have hsame : d = c' := hk.eq_of_mem (getCommand_mem hd) hc' ((getCommand_id hd).trans hid.symm)
    exact ⟨c, hc, congrArg CommandSpec.nodeId hcc.symm, hsame ▸ hw⟩
  refine ⟨hk, ?_, ?_, ?_, ?_, h.apart⟩
  · intro c' hc' d' hd' hn hkey
    obtain ⟨c, hc, hcn, hcw⟩ := hback c' hc'
    obtain ⟨d, hd, hdn, hdw⟩ := hback d' hd'
    have hcd : c = d := by
      apply h.unique c hc d hd
      · rw [← hcn, hn, hdn]
      · rw [← hcw.key, hkey, hdw.key]
    exact hk.eq_of_mem hc' hd' (by rw [hcw.id, hcd, hdw.id])
  · intro c' hc' hl
    obtain ⟨c, hc, -, hw⟩ := hback c' hc'
    change st.issuedUnder c'.id = some c'.idempotencyKey
    rw [hw.id, hw.key]
    cases ht : c.status.isTerminal with
    | false => exact h.live c hc ht
    | true =>
      rcases hw.live ht with ht' | hu
      · rw [hl] at ht'
        cases ht'
      · exact hu.1
  · intro p hp id hid
    obtain ⟨c, hc, ht, hn⟩ := h.found p hp id hid
    obtain ⟨c', hc', hs, hw⟩ := hr.rows id c hc
    refine ⟨c', hc', ?_, (congrArg CommandSpec.nodeId hs).trans hn⟩
    rcases hw.live ht with ht' | hu
    · exact ht'
    · rw [← getCommand_id hc] at hid
      exact absurd hid (hu.2 p hp)
  · intro p hp ha c' hc' hn hkey
    obtain ⟨c, hc, hcn, hw⟩ := hback c' hc'
    rw [hw.id]
    exact h.reserved p hp ha c hc (hcn.symm.trans hn) (hw.key.symm.trans hkey)

/-- The row of an event that writes one row. -/
theorem update (h : st.Inv) (hc : st.store.getCommand c.id = some c) (hw : Writes st c command)
    (hs : specOf command = specOf c)
    (hs' : s'.commands = (st.store.updateCommand command).commands) :
    Inv { st with store := s' } := by
  refine h.rewrites (.trans_commands (.updateCommand ?_ h.keyed hc hw hs) hs')
  exact fun c => ⟨rfl, rfl, .inl⟩

theorem mem_updateCommand {d : InfraNodeCommand}
    (h : d ∈ (s.updateCommand command).commands) :
    d = command ∨ d ∈ s.commands ∧ d.id ≠ command.id := by
  obtain ⟨c, hc, hd⟩ := List.mem_map.1 h
  split at hd
  next => exact .inl hd.symm
  next hne => exact .inr (hd ▸ ⟨hc, hne⟩)

theorem setKey (h : st.Inv) {key : String} (hc : st.store.getCommand c.id = some c)
    (ht : c.status.isTerminal)
    (hfree : ∀ d ∈ st.store.commands, d.id ≠ c.id → d.nodeId = c.nodeId → d.idempotencyKey ≠ key)
    (hq : ∀ q ∈ st.pending, q.alone → q.req.nodeId = c.nodeId → q.key = key →
      q.found = some c.id) :
    Inv { st with store := st.store.updateCommand { c with idempotencyKey := key } } := by
  have hr : Rewrites (fun c c' => c'.status = c.status) st.store
      (st.store.updateCommand { c with idempotencyKey := key }) := by
    refine .updateCommand ?_ h.keyed hc ?_ ?_
    · exact fun _ => rfl
    · rfl
    · rfl
  refine ⟨hr.keyed h.keyed, ?_, ?_, ?_, ?_, h.apart⟩
  · intro a ha b hb hn hkey
    rcases mem_updateCommand ha with rfl | ⟨ha, hane⟩
    · rcases mem_updateCommand hb with rfl | ⟨hb, hbne⟩
      · rfl
      · exact absurd hkey.symm (hfree b hb hbne hn.symm)
    · rcases mem_updateCommand hb with rfl | ⟨hb, -⟩
      · exact absurd hkey (hfree a ha hane hn)
      · exact h.unique a ha b hb hn hkey
  · intro a ha hl
    rcases mem_updateCommand ha with rfl | ⟨ha, -⟩
    · rw [ht] at hl
      cases hl
    · exact h.live a ha hl
  · intro p hp id hid
    obtain ⟨a, ha, hta, hn⟩ := h.found p hp id hid
    obtain ⟨a', ha', hs, hst⟩ := hr.rows id a ha
    exact ⟨a', ha', by rw [hst]; exact hta, (congrArg CommandSpec.nodeId hs).trans hn⟩
  · intro p hp hal a ha hn hkey
    rcases mem_updateCommand ha with rfl | ⟨ha, -⟩
    · exact hq p hp hal hn.symm hkey.symm
    · exact h.reserved p hp hal a ha hn hkey

theorem eraseIdx (h : st.Inv) (n : Nat) : Inv { st with pending := st.pending.eraseIdx n } where
  keyed := h.keyed
  unique := h.unique
  live := h.live
  found p hp := h.found p (List.mem_of_mem_eraseIdx hp)
  reserved p hp := h.reserved p (List.mem_of_mem_eraseIdx hp)
  apart := h.apart.sublist (List.eraseIdx_sublist ..)

theorem insert (h : st.Inv)
    (hnew : ∀ d ∈ st.store.commands, d.id ≠ command.id ∧ ¬ conflicts command d)
    (hq : ∀ q ∈ st.pending, q.alone → q.req.nodeId = command.nodeId →
      q.key ≠ command.idempotencyKey) :
    Inv { st with
      store := st.store.withCommand command
      issuedUnder := fun id =>
        if id = command.id then some command.idempotencyKey else st.issuedUnder id } := by
  have hmem {a : InfraNodeCommand} (ha : a ∈ (st.store.withCommand command).commands) :
      a ∈ st.store.commands ∨ a = command := by
    rw [withCommand_commands, List.mem_append, List.mem_singleton] at ha
    exact ha
  have hfree {a : InfraNodeCommand} (ha : a ∈ st.store.commands) (hn : a.nodeId = command.nodeId) :
      a.idempotencyKey ≠ command.idempotencyKey := by
    intro hkey
    exact (hnew a ha).2 (decide_eq_true ⟨hn, hkey⟩)
  refine ⟨h.keyed.append (fun c hc => (hnew c hc).1) withCommand_commands, ?_, ?_, ?_, ?_,
    h.apart⟩
  · intro a ha b hb hn hkey
    rcases hmem ha with hold | rfl
    · rcases hmem hb with hold' | rfl
      · exact h.unique a hold b hold' hn hkey
      · exact absurd hkey (hfree hold hn)
    · rcases hmem hb with hold' | rfl
      · exact absurd hkey.symm (hfree hold' hn.symm)
      · rfl
  · intro a ha hl
    rcases hmem ha with ha | rfl
    · simp only [if_neg (hnew a ha).1]
      exact h.live a ha hl
    · exact if_pos rfl
  · intro p hp id hid
    obtain ⟨a, ha, hrest⟩ := h.found p hp id hid
    refine ⟨a, ?_, hrest⟩
    simp only [getCommand_append withCommand_commands, ha]
    rfl
  · intro p hp hal a ha hn hkey
    rcases hmem ha with ha | rfl
    · exact h.reserved p hp hal a ha hn hkey
    · exact absurd hkey.symm (hq p hp hal hn.symm)

theorem await (h : st.Inv) {draw : Draw} {req : CommandRequest} {found : Option Uuid}
    (hf : ∀ id, found = some id → ∃ c, st.store.getCommand id = some c ∧ c.status.isTerminal ∧
      c.nodeId = req.nodeId)
    (hr : ∀ c ∈ st.store.commands, c.nodeId = req.nodeId →
      c.idempotencyKey = requestKey draw req → found = some c.id) :
    (st.await draw req found).Inv := by
  refine ⟨h.keyed, h.unique, h.live, ?_, ?_, ?_⟩
  · intro p hp id hid
    rcases List.mem_append.1 hp with hp | hp
    · obtain ⟨q, hq, rfl⟩ := List.mem_map.1 hp
      rw [PendingIssue.meet_req]
      exact h.found q hq id (PendingIssue.meet_found.symm.trans hid)
    · rw [List.mem_singleton.1 hp] at hid ⊢
      exact hf id hid
  · intro p hp hal c hc hn hkey
    rcases List.mem_append.1 hp with hp | hp
    · obtain ⟨q, hq, rfl⟩ := List.mem_map.1 hp
      rw [PendingIssue.meet_alone, Bool.and_eq_true] at hal
      rw [PendingIssue.meet_req] at hn
      rw [PendingIssue.meet_key] at hkey
      rw [PendingIssue.meet_found]
      exact h.reserved q hq hal.1 c hc hn hkey
    · rw [List.mem_singleton.1 hp] at hn hkey ⊢
      exact hr c hc hn hkey
  · refine List.pairwise_append.2 ⟨?_, List.pairwise_singleton .., ?_⟩
    · refine List.pairwise_map.2 (h.apart.imp fun {p q} hpq hc => ?_)
      obtain ⟨hp, hq⟩ := hpq (by simpa [PendingIssue.Contends] using hc)
      simp [hp, hq]
    · intro p hp q hq hc
      obtain ⟨p₀, hp₀, rfl⟩ := List.mem_map.1 hp
      rw [List.mem_singleton.1 hq] at hc ⊢
      have hc₀ : p₀.Contends ⟨draw, req, found, true⟩ := by
        refine ⟨?_, PendingIssue.meet_key.symm.trans hc.2⟩
        rw [← PendingIssue.meet_req]
        exact hc.1
      refine ⟨by simp [hc₀], ?_⟩
      simp only [Bool.not_eq_false', List.any_eq_true, decide_eq_true_eq]
      exact ⟨p₀, hp₀, hc₀⟩

theorem apart_of_getElem (h : st.Inv) {n : Nat} (hp : st.pending[n]? = some p)
    (hq : q ∈ st.pending.eraseIdx n) (hc : p.Contends q) : p.alone = false ∧ q.alone = false := by
  obtain ⟨hn, rfl⟩ := List.getElem?_eq_some_iff.1 hp
  have hperm := List.getElem_cons_eraseIdx_perm hn
  have hall := (hperm.pairwise_iff fun hab hba => by
    have hsymm : _ ∧ _ := hba
    exact (hab ⟨hsymm.1.symm, hsymm.2.symm⟩).symm).2 h.apart
  exact (List.pairwise_cons.1 hall).1 q hq hc

theorem flush_some (h : st.Inv) {n : Nat} (hp : st.pending[n]? = some p)
    (hclear : ∀ c, p.found.bind st.store.getCommand = some c → st.Retires p c)
    (hs : p.flush svc st.store = some s') :
    Inv { st with
      store := s'
      pending := st.pending.eraseIdx n
      issuedUnder := fun id => if id = p.draw.id then some p.key else st.issuedUnder id } := by
  obtain ⟨s₁, hs₁, hcreate⟩ := Option.bind_eq_some_iff.1 hs
  obtain ⟨created, hcreated, rfl⟩ := Option.map_eq_some_iff.1 hcreate
  obtain ⟨rfl, hnew⟩ := createCommand_eq_some hcreated
  have hretired : Inv { st with store := s₁, pending := st.pending.eraseIdx n } := by
    unfold PendingIssue.retire at hs₁
    cases hf : p.found with
    | none =>
      rw [hf] at hs₁
      cases hs₁
      exact h.eraseIdx n
    | some id =>
      rw [hf] at hs₁
      obtain ⟨c, hc, hflush⟩ := Option.bind_eq_some_iff.1 hs₁
      obtain ⟨-, hfree, rfl⟩ := flushCommand_eq_some_iff.1 hflush
      have hid := getCommand_id hc
      subst hid
      obtain ⟨c', hc', ht, -⟩ := h.found p (List.mem_of_getElem? hp) _ hf
      rw [hc] at hc'
      cases hc'
      refine (h.eraseIdx n).setKey hc ht ?_ ?_
      · intro d hd hne hn hkey
        exact hfree d hd hne (decide_eq_true ⟨hn, hkey⟩)
      · intro q hq hal hn hkey
        have hq' := List.mem_of_mem_eraseIdx hq
        by_cases hsame : c.idempotencyKey = retiredKey p.key c.id
        · exact h.reserved q hq' hal c (getCommand_mem hc) hn.symm (hsame.trans hkey.symm)
        · have hr := hclear c (by rw [hf]; exact hc)
          exact absurd hkey (hr.apart hsame q hq' hal hn)
  refine hretired.insert hnew ?_
  intro q hq hal hn hkey
  have hc := (h.apart_of_getElem hp hq ⟨hn.symm, hkey.symm⟩).2
  rw [hal] at hc
  cases hc

theorem step (h : st.Inv) (hclear : st.Clear e) : (step llm st e).Inv := by
  cases e with
  | lookup draw req =>
    simp only [KeyTable.step, lookup]
    split
    next => exact h
    next =>
      split
      next hnone =>
        refine h.await (fun _ hid => by cases hid) ?_
        intro c hc hn hkey
        have := List.find?_eq_none.1 hnone c hc
        simp [hn, hkey] at this
      next existing hf =>
        split
        next ht =>
          have hmem := List.mem_of_find?_eq_some hf
          obtain ⟨hn, hkey⟩ : existing.nodeId = req.nodeId ∧
              existing.idempotencyKey = requestKey draw req := by
            simpa using List.find?_some hf
          refine h.await ?_ ?_
          · rintro _ ⟨⟩
            exact ⟨existing, h.keyed.getCommand hmem, ht, hn⟩
          · intro c hc hcn hck
            rw [h.unique c hc existing hmem (hcn.trans hn.symm) (hck.trans hkey.symm)]
        next => exact h
  | flush n =>
    simp only [KeyTable.step, KeyTable.flush]
    split
    next => exact h
    next p hp =>
      split
      next => exact h.eraseIdx n
      next s hs => exact h.flush_some hp (hclear.retires p hp) hs
  | read id => exact ⟨h.keyed, h.unique, h.live, h.found, h.reserved, h.apart⟩
  | writeDispatched now id =>
    simp only [KeyTable.step]
    split
    next => exact h
    next c hc =>
      have hw : Writes st c (setCommandStatus now c .dispatched none none none) :=
        ⟨rfl, rfl, fun ht => .inr (hclear.spares c hc ht)⟩
      exact h.update (getCommand_of_readQueued hc) hw rfl rfl
  | writeTimedOut now id =>
    simp only [KeyTable.step]
    split
    next => exact h
    next c hc =>
      have hw : Writes st c (llm.nodeControl.timedOutRow now c) := ⟨rfl, rfl, fun _ => .inl rfl⟩
      exact h.update (getCommand_of_readInflight hc) hw rfl applyRuntimeSideEffect_commands
  | call e he =>
    refine h.rewrites (controlStep_rewrites ?_ h.keyed he)
    refine ⟨fun c => ⟨rfl, rfl, .inl⟩, fun _ _ _ => .trans, ?_, ?_, ?_, ?_, ?_⟩
    · intro now c hq
      refine ⟨rfl, rfl, fun ht => ?_⟩
      rw [hq] at ht
      cases ht
    · intro now _ c _
      exact ⟨rfl, rfl, fun _ => .inl rfl⟩
    · rintro now nodeId commandId message rfl c hc
      exact ⟨rfl, rfl, fun ht => .inr (hclear.spares c hc ht)⟩
    · rintro now nodeId commandId message rfl c hc
      exact ⟨rfl, rfl, fun ht => .inr (hclear.spares c hc ht)⟩
    · rintro now nodeId commandId payload rfl c hc hf
      refine ⟨rfl, rfl, fun _ => .inl ?_⟩
      unfold resultRow
      cases payload.success <;> rfl

/-- The request that has met no other can retire the key and finds it free. -/
theorem retire_some (h : st.Inv) {n : Nat} (hclear : st.Clear (.flush n))
    (hp : st.pending[n]? = some p) (hal : p.alone) (hid : st.store.getCommand p.draw.id = none) :
    ∃ s₁, p.retire st.store = some s₁ ∧
      ∀ d ∈ s₁.commands, d.id ≠ p.draw.id ∧ ¬ conflicts (p.row svc) d := by
  have hmem := List.mem_of_getElem? hp
  have hnew {d : InfraNodeCommand} (hd : d ∈ st.store.commands) : d.id ≠ p.draw.id := by
    have := List.find?_eq_none.1 hid d hd
    simpa using this
  have hown {d : InfraNodeCommand} (hd : d ∈ st.store.commands) (hc : conflicts (p.row svc) d) :
      p.found = some d.id := by
    obtain ⟨hn, hkey⟩ := of_decide_eq_true hc
    exact h.reserved p hmem hal d hd hn hkey
  unfold PendingIssue.retire
  cases hf : p.found with
  | none =>
    refine ⟨st.store, rfl, fun d hd => ⟨hnew hd, fun hc => ?_⟩⟩
    rw [hown hd hc] at hf
    cases hf
  | some id =>
    obtain ⟨c, hc, -, -⟩ := h.found p hmem id hf
    have hcid := getCommand_id hc
    subst hcid
    have hr := hclear.retires p hp c (by rw [hf]; exact hc)
    have hlen := length_retiredKey p.key c.id
    refine ⟨st.store.updateCommand { c with idempotencyKey := retiredKey p.key c.id }, ?_, ?_⟩
    · simp only [hc, Option.bind_some]
      refine flushCommand_eq_some_iff.2 ⟨?_, ?_, rfl⟩
      · have hfit := hr.fits hal
        refine decide_eq_true ?_
        change (retiredKey p.key c.id).length ≤ 256
        omega
      · intro d hd hne hconf
        obtain ⟨hn, hkey⟩ := of_decide_eq_true hconf
        exact hr.free hal d hd hne hn hkey
    · intro d hd
      rcases mem_updateCommand hd with rfl | ⟨hd, hne⟩
      · have hcne := hnew (getCommand_mem hc)
        refine ⟨hcne, fun hconf => ?_⟩
        have hkey : retiredKey p.key c.id = p.key := (of_decide_eq_true hconf).2
        rw [hkey] at hlen
        omega
      · refine ⟨hnew hd, fun hconf => hne ?_⟩
        have hsame := hown hd hconf
        rw [hf] at hsame
        exact (Option.some.inj hsame).symm

theorem createCommand_of_fits (hf : fitsColumns command)
    (hnew : ∀ d ∈ s.commands, d.id ≠ command.id ∧ ¬ conflicts command d) :
    s.createCommand command = some (s.withCommand command, command) := by
  rw [createCommand, insertCommand_eq_some.2 ⟨hf, hnew, rfl⟩]
  rfl

theorem serves (h : st.Inv) (hclear : st.Clear e) : st.Serves svc e := by
  cases e with
  | lookup draw req =>
    intro hidle
    rw [answer, Option.filter_eq_none_iff]
    intro c hc hl
    have hmem := List.mem_of_find?_eq_some hc
    obtain ⟨hn, hkey⟩ : c.nodeId = req.nodeId ∧ c.idempotencyKey = requestKey draw req := by
      simpa using List.find?_some hc
    have hlive : c.status.isTerminal = false := by simpa using hl
    have ht := hidle c ⟨hmem, hn, (h.live c hmem hlive).trans (congrArg some hkey)⟩
    rw [hlive] at ht
    cases ht
  | flush n =>
    intro p hp hal _ hfits hid
    obtain ⟨s₁, hs₁, hnew⟩ := h.retire_some hclear hp hal hid
    have hflush : p.flush svc st.store = some (s₁.withCommand (p.row svc)) := by
      rw [PendingIssue.flush, hs₁, Option.bind_some, createCommand_of_fits hfits hnew]
      rfl
    have hnone : s₁.getCommand p.draw.id = none :=
      List.find?_eq_none.2 fun d hd => by simpa using (hnew d hd).1
    simp only [KeyTable.flush, hp, hflush]
    rw [getCommand_append withCommand_commands, hnone]
    exact if_pos rfl
  | _ => trivial

end Inv

/-- From an empty command table, every run that is clear serves its requests, with at most one live
command under a key in every state. -/
theorem sound_of_clear {es : List KeyEvent}
    (H : Guarded (step llm) Clear (start s) es) : Guarded (step llm) (Sound llm) (start s) es := by
  refine H.imp (fun _ _ h hclear => h.step hclear) ?_ (inv_start s)
  intro st e h hclear
  exact ⟨(h.step hclear).oneLive, h.serves hclear⟩

/-- A key for draining a node is issued, carried out, and issued again. -/
def drainedTwice : List KeyEvent :=
  let req : CommandRequest :=
    ⟨7, .drainNode, ⟨.missing, true, []⟩, none, none, none, some "drain"⟩
  [.lookup ⟨0, 1, 2⟩ req, .flush 0, .call (.listForDispatch (seconds 1) 7 50) trivial,
    .call (.ack (seconds 2) 7 1 none) trivial,
    .call (.result (seconds 3) 7 1 ⟨true, none, none, none⟩) trivial,
    .lookup ⟨seconds 4, 3, 4⟩ req, .flush 0]

theorem sound_drainedTwice :
    Guarded (step .plain) (Sound .plain) (start (.oneNode 7)) drainedTwice :=
  sound_of_clear (by decide)

/-- An acknowledgement that is late by then brings the first command back. -/
theorem not_sound_late_ack : ¬ Guarded (step .plain) (Sound .plain) (start (.oneNode 7))
    (drainedTwice ++ [.call (.ack (seconds 5) 7 1 none) trivial]) := by
  intro H
  have hlast := (guarded_append.1 H).2.1.oneLive
  have hrows : (step .plain (run (step .plain) (start (.oneNode 7)) drainedTwice)
      (.call (.ack (seconds 5) 7 1 none) trivial)).store.commands.map
        (fun c => (c.id, c.nodeId, c.status)) = [(1, 7, .acked), (3, 7, .queued)] := by decide
  generalize hst : step .plain (run (step .plain) (start (.oneNode 7)) drainedTwice)
    (.call (.ack (seconds 5) 7 1 none) trivial) = st at hlast hrows
  have hkey (id : Uuid) (h : id = 1 ∨ id = 3) : st.issuedUnder id = some "drain" := by
    rw [← hst]
    rcases h with rfl | rfl <;> rfl
  have hrow (id : Uuid) (status : NodeCommandStatus) (h : (id, 7, status) ∈ st.store.commands.map
      fun c => (c.id, c.nodeId, c.status)) (hid : id = 1 ∨ id = 3) :
      ∃ c, st.IssuedTo 7 "drain" c ∧ c.id = id ∧ c.status = status := by
    obtain ⟨c, hc, hcc⟩ := List.mem_map.1 h
    simp only [Prod.mk.injEq] at hcc
    obtain ⟨rfl, hn, rfl⟩ := hcc
    exact ⟨c, ⟨hc, hn, hkey _ hid⟩, rfl, rfl⟩
  obtain ⟨c, hc, hcid, hcs⟩ := hrow 1 .acked (by rw [hrows]; simp) (.inl rfl)
  obtain ⟨d, hd, hdid, hds⟩ := hrow 3 .queued (by rw [hrows]; simp) (.inr rfl)
  have hsame := hlast 7 "drain" c d hc hd (by rw [hcs]; rfl) (by rw [hds]; rfl)
  rw [← hsame, hcid] at hdid
  exact absurd hdid (by decide)

end KeyTable

end LlmPort.Backend
