import Mathlib.Data.List.Nodup
import Mathlib.Logic.Function.Basic
import LlmPort.Transition.Run
import LlmPort.Backend.NodeControl.Model

/-!
# The notification outbox

`services/notifications`: requests put notifications into a table, and a dispatcher in every backend
process polls it, posts what is due to the mailer and writes to the row how that went. The
dispatchers know nothing of each other, a process may end at any point, and a request or a
transaction may take effect although its caller gets an exception.
-/

namespace LlmPort.Backend.Notifications

open Transition NodeControl

inductive NotificationKind where
  | passwordReset | adminAlert
  | other (name : String)
  deriving DecidableEq

/-- The mailer has an endpoint for it. -/
def NotificationKind.known : NotificationKind → Bool
  | passwordReset | adminAlert => true
  | other _ => false

inductive OutboxStatus where
  | pending | sent | failed
  deriving DecidableEq

structure NotificationOutbox (π : Type*) where
  id : Uuid
  kind : NotificationKind
  payload : π
  status : OutboxStatus
  attemptCount : Nat
  nextAttemptAt : Time
  lastError : Option (List Char)
  createdAt : Time
  sentAt : Option Time
  deriving DecidableEq

/-- A message that the mailer accepts, with the row it is sent for. -/
structure Mail (π : Type*) where
  id : Uuid
  kind : NotificationKind
  payload : π
  deriving DecidableEq

/-- `_MAX_ATTEMPTS` -/
def maxAttempts : Nat := 5

/-- `timedelta(seconds=30 * (2 ** new_count))` -/
def backoff (newCount : Nat) : Time := seconds (30 * 2 ^ newCount)

namespace NotificationOutbox

variable {π : Type*}

def mail (row : NotificationOutbox π) : Mail π := ⟨row.id, row.kind, row.payload⟩

/-- The row as `NotificationService` adds it. -/
def new (id : Uuid) (kind : NotificationKind) (payload : π) (createdAt : Time) :
    NotificationOutbox π :=
  ⟨id, kind, payload, .pending, 0, createdAt, none, createdAt, none⟩

def markSent (row : NotificationOutbox π) (now : Time) : NotificationOutbox π :=
  { row with status := .sent, sentAt := some now }

/-- The update of the `except` branch; the count is that of the row as it was loaded. -/
def recordFailure (row : NotificationOutbox π) (now : Time) (loaded : Nat) (exc : List Char) :
    NotificationOutbox π :=
  let newCount := loaded + 1
  let giveUp := maxAttempts ≤ newCount
  { row with
    attemptCount := newCount
    status := if giveUp then .failed else .pending
    lastError := some (exc.take 2000)
    nextAttemptAt := if giveUp then now else now + backoff newCount }

def due (now : Time) (row : NotificationOutbox π) : Bool :=
  row.status = .pending ∧ row.nextAttemptAt ≤ now

/-- `ORDER BY created_at`; the database may put rows of one instant in any order. -/
def before (ties : Uuid → Nat) (x y : NotificationOutbox π) : Bool :=
  x.createdAt < y.createdAt ∨ x.createdAt = y.createdAt ∧ ties x.id ≤ ties y.id

/-- The query of `_poll_once`. -/
def select (now : Time) (ties : Uuid → Nat) (outbox : List (NotificationOutbox π)) :
    List (NotificationOutbox π) :=
  ((outbox.filter (due now)).mergeSort (before ties)).take 20

/-- `UPDATE … WHERE id = …` -/
def update (id : Uuid) (f : NotificationOutbox π → NotificationOutbox π)
    (outbox : List (NotificationOutbox π)) : List (NotificationOutbox π) :=
  outbox.map fun row => if row.id = id then f row else row

end NotificationOutbox

/-- What a request to the mailer or a transaction comes to. -/
inductive Outcome where
  | done
  /-- It takes effect, but its caller gets an exception. -/
  | lost (exc : List Char)
  | failed (exc : List Char)

namespace Outcome

def took : Outcome → Bool
  | done | lost _ => true
  | failed _ => false

def exc : Outcome → Option (List Char)
  | done => none
  | lost exc | failed exc => some exc

end Outcome

/-- Where a dispatcher is in `_poll_once`, with the rows as it loaded them. -/
inductive Phase (π : Type*) where
  /-- Before `_deliver` of the first of the rows; with none left it sleeps until the next poll. -/
  | delivering (rows : List (NotificationOutbox π))
  /-- The mailer has answered. -/
  | accepted (row : NotificationOutbox π) (rows : List (NotificationOutbox π))
  /-- In the `except` branch. -/
  | raised (row : NotificationOutbox π) (exc : List Char) (rows : List (NotificationOutbox π))

namespace Phase

variable {π : Type*}

/-- The rows in hand. -/
def held : Phase π → List (NotificationOutbox π)
  | delivering rows => rows
  | accepted row rows => row :: rows
  | raised row _ rows => row :: rows

/-- Behind a statement of `_deliver`. -/
def after (row : NotificationOutbox π) (rows : List (NotificationOutbox π)) (next : Phase π) :
    Outcome → Phase π
  | .done => next
  | .lost exc | .failed exc => raised row exc rows

end Phase

structure System (π : Type*) where
  now : Time
  outbox : List (NotificationOutbox π)
  /-- The dispatchers, by process. -/
  phase : Nat → Phase π
  /-- What the mailer has accepted. -/
  mailed : List (Mail π)
  /-- The requests to the mailer. -/
  attempts : List (Uuid × Time)
  /-- The warnings that a delivery failed. -/
  failures : List Uuid

inductive Event (π : Type*) where
  | tick (d : Nat)
  /-- `enqueue_password_reset` or `maybe_enqueue_admin_alert`, committed -/
  | enqueue (id : Uuid) (kind : NotificationKind) (hkind : kind.known) (payload : π)
      (createdAt : Time)
  | poll (w : Nat) (mailerEnabled : Bool) (ties : Uuid → Nat)
  /-- The request to the mailer. -/
  | send (w : Nat) (o : Outcome)
  /-- The transaction after it. -/
  | mark (w : Nat) (o : Outcome)
  /-- The transaction of the `except` branch. -/
  | record (w : Nat) (o : Outcome)
  /-- The process ends, and another one takes its place. -/
  | crash (w : Nat)

namespace System

variable {π : Type*}

def start (now : Time) : System π := ⟨now, [], fun _ => .delivering [], [], [], []⟩

/-- A dispatcher goes on. -/
def goto (st : System π) (w : Nat) (p : Phase π) : System π :=
  { st with phase := Function.update st.phase w p }

/-- The warning of the `except` branch, if there is an exception. -/
def warn (st : System π) (id : Uuid) (o : Outcome) : System π :=
  if o.exc.isSome then { st with failures := id :: st.failures } else st

/-- A transaction that updates the row of an id. -/
def commit (st : System π) (id : Uuid) (f : NotificationOutbox π → NotificationOutbox π)
    (o : Outcome) : System π :=
  if o.took then { st with outbox := NotificationOutbox.update id f st.outbox } else st

/-- A request to the mailer. -/
def post (st : System π) (row : NotificationOutbox π) (o : Outcome) : System π :=
  { st with
    attempts := (row.id, st.now) :: st.attempts
    mailed := if o.took then row.mail :: st.mailed else st.mailed }

def enqueue (st : System π) (row : NotificationOutbox π) : System π :=
  if st.outbox.any (·.id = row.id) then st else { st with outbox := st.outbox ++ [row] }

/-- `_poll_once`, up to the loop over the rows -/
def poll (st : System π) (w : Nat) (mailerEnabled : Bool) (ties : Uuid → Nat) : System π :=
  match st.phase w with
  | .delivering [] =>
    if mailerEnabled then st.goto w (.delivering (NotificationOutbox.select st.now ties st.outbox))
    else st
  | _ => st

/-- `_deliver`, up to the answer of the mailer -/
def send (st : System π) (w : Nat) (o : Outcome) : System π :=
  match st.phase w with
  | .delivering (row :: rows) =>
    if row.kind.known then
      ((st.post row o).warn row.id o).goto w (Phase.after row rows (.accepted row rows) o)
    else st.goto w (.delivering rows)
  | _ => st

def mark (st : System π) (w : Nat) (o : Outcome) : System π :=
  match st.phase w with
  | .accepted row rows =>
    ((st.commit row.id (·.markSent st.now) o).warn row.id o).goto w
      (Phase.after row rows (.delivering rows) o)
  | _ => st

/-- What the transaction of the `except` branch raises ends the poll. -/
def record (st : System π) (w : Nat) (o : Outcome) : System π :=
  match st.phase w with
  | .raised row exc rows =>
    (st.commit row.id (·.recordFailure st.now row.attemptCount exc) o).goto w
      (.delivering (if o.exc.isSome then [] else rows))
  | _ => st

def step (st : System π) : Event π → System π
  | .tick d => { st with now := st.now + d }
  | .enqueue id kind _ payload createdAt => st.enqueue (.new id kind payload createdAt)
  | .poll w mailerEnabled ties => st.poll w mailerEnabled ties
  | .send w o => st.send w o
  | .mark w o => st.mark w o
  | .record w o => st.record w o
  | .crash w => st.goto w (.delivering [])

/-! ## What a step can do -/

/-- The steps that do something, and those that do not. -/
inductive Move (st : System π) : Event π → System π → Prop
  | stay (e : Event π) : Move st e st
  | tick (d : Nat) : Move st (.tick d) { st with now := st.now + d }
  | enqueue {id : Uuid} {kind : NotificationKind} (hkind : kind.known) {payload : π}
      {createdAt : Time} (hfresh : ∀ row ∈ st.outbox, row.id ≠ id) :
      Move st (.enqueue id kind hkind payload createdAt)
        { st with outbox := st.outbox ++ [.new id kind payload createdAt] }
  | poll {w : Nat} {ties : Uuid → Nat} (hw : st.phase w = .delivering []) :
      Move st (.poll w true ties)
        (st.goto w (.delivering (NotificationOutbox.select st.now ties st.outbox)))
  | skip {w : Nat} {o : Outcome} {row : NotificationOutbox π} {rows : List (NotificationOutbox π)}
      (hw : st.phase w = .delivering (row :: rows)) (hkind : row.kind.known = false) :
      Move st (.send w o) (st.goto w (.delivering rows))
  | send {w : Nat} {o : Outcome} {row : NotificationOutbox π} {rows : List (NotificationOutbox π)}
      (hw : st.phase w = .delivering (row :: rows)) (hkind : row.kind.known) :
      Move st (.send w o)
        (((st.post row o).warn row.id o).goto w (Phase.after row rows (.accepted row rows) o))
  | mark {w : Nat} {o : Outcome} {row : NotificationOutbox π} {rows : List (NotificationOutbox π)}
      (hw : st.phase w = .accepted row rows) :
      Move st (.mark w o) (((st.commit row.id (·.markSent st.now) o).warn row.id o).goto w
        (Phase.after row rows (.delivering rows) o))
  | record {w : Nat} {o : Outcome} {row : NotificationOutbox π} {exc : List Char}
      {rows : List (NotificationOutbox π)} (hw : st.phase w = .raised row exc rows) :
      Move st (.record w o)
        ((st.commit row.id (·.recordFailure st.now row.attemptCount exc) o).goto w
          (.delivering (if o.exc.isSome then [] else rows)))
  | crash (w : Nat) : Move st (.crash w) (st.goto w (.delivering []))

theorem move_step (st : System π) (e : Event π) : Move st e (st.step e) := by
  cases e with
  | tick d => exact .tick d
  | enqueue id kind hkind payload createdAt =>
    simp only [step, enqueue]
    split
    next => exact .stay _
    next hfresh =>
      refine .enqueue hkind fun row hrow heq => hfresh ?_
      exact List.any_eq_true.2 ⟨row, hrow, decide_eq_true heq⟩
  | poll w mailerEnabled ties =>
    simp only [step, poll]
    split
    next hw =>
      cases mailerEnabled with
      | false => exact .stay _
      | true => exact .poll hw
    next => exact .stay _
  | send w o =>
    simp only [step, send]
    split
    next row rows hw =>
      split
      next hkind => exact .send hw hkind
      next hkind => exact .skip hw (Bool.not_eq_true _ ▸ hkind)
    next => exact .stay _
  | mark w o =>
    simp only [step, mark]
    split
    next hw => exact .mark hw
    next => exact .stay _
  | record w o =>
    simp only [step, record]
    split
    next hw => exact .record hw
    next => exact .stay _
  | crash w => exact .crash w

/-! ## What stays -/

section
variable {st st' : System π} {w v : Nat} {p : Phase π} {o : Outcome} {id : Uuid}
  {f : NotificationOutbox π → NotificationOutbox π} {row : NotificationOutbox π}

@[simp] theorem goto_now : (st.goto w p).now = st.now := rfl
@[simp] theorem goto_outbox : (st.goto w p).outbox = st.outbox := rfl
@[simp] theorem goto_mailed : (st.goto w p).mailed = st.mailed := rfl
@[simp] theorem goto_attempts : (st.goto w p).attempts = st.attempts := rfl
@[simp] theorem goto_failures : (st.goto w p).failures = st.failures := rfl
@[simp] theorem goto_phase : (st.goto w p).phase = Function.update st.phase w p := rfl

@[simp] theorem post_now : (st.post row o).now = st.now := rfl
@[simp] theorem post_outbox : (st.post row o).outbox = st.outbox := rfl
@[simp] theorem post_attempts :
    (st.post row o).attempts = (row.id, st.now) :: st.attempts := rfl
@[simp] theorem post_failures : (st.post row o).failures = st.failures := rfl
@[simp] theorem post_phase : (st.post row o).phase = st.phase := rfl
theorem post_mailed : (st.post row o).mailed =
    if o.took then row.mail :: st.mailed else st.mailed := rfl

@[simp] theorem warn_now : (st.warn id o).now = st.now := by cases o <;> rfl
@[simp] theorem warn_outbox : (st.warn id o).outbox = st.outbox := by cases o <;> rfl
@[simp] theorem warn_mailed : (st.warn id o).mailed = st.mailed := by cases o <;> rfl
@[simp] theorem warn_attempts : (st.warn id o).attempts = st.attempts := by cases o <;> rfl
@[simp] theorem warn_phase : (st.warn id o).phase = st.phase := by cases o <;> rfl
theorem warn_failures : (st.warn id o).failures =
    if o.exc.isSome then id :: st.failures else st.failures := by cases o <;> rfl

@[simp] theorem commit_now : (st.commit id f o).now = st.now := by cases o <;> rfl
@[simp] theorem commit_mailed : (st.commit id f o).mailed = st.mailed := by cases o <;> rfl
@[simp] theorem commit_attempts : (st.commit id f o).attempts = st.attempts := by cases o <;> rfl
@[simp] theorem commit_failures : (st.commit id f o).failures = st.failures := by cases o <;> rfl
@[simp] theorem commit_phase : (st.commit id f o).phase = st.phase := by cases o <;> rfl
theorem commit_outbox : (st.commit id f o).outbox =
    if o.took then NotificationOutbox.update id f st.outbox else st.outbox := by cases o <;> rfl

/-- No notification goes away or changes, and the logs only grow. -/
structure Grows (st st' : System π) : Prop where
  outbox : ∀ row ∈ st.outbox, ∃ row' ∈ st'.outbox,
    row'.mail = row.mail ∧ row'.createdAt = row.createdAt
  mailed : ∀ m ∈ st.mailed, m ∈ st'.mailed
  failures : ∀ id, st.failures.count id ≤ st'.failures.count id

theorem Grows.refl : Grows st st :=
  ⟨fun row hrow => ⟨row, hrow, rfl, rfl⟩, fun _ h => h, fun _ => Nat.le_refl _⟩

theorem Grows.trans {st'' : System π} (h : Grows st st') (h' : Grows st' st'') : Grows st st'' where
  outbox row hrow := by
    obtain ⟨row', hrow', hmail, hat⟩ := h.outbox row hrow
    obtain ⟨row'', hrow'', hmail', hat'⟩ := h'.outbox row' hrow'
    exact ⟨row'', hrow'', hmail'.trans hmail, hat'.trans hat⟩
  mailed m hm := h'.mailed m (h.mailed m hm)
  failures id := (h.failures id).trans (h'.failures id)

/-- An update that leaves the notification as it is. -/
structure Keeps (f : NotificationOutbox π → NotificationOutbox π) : Prop where
  mail : ∀ row, (f row).mail = row.mail
  createdAt : ∀ row, (f row).createdAt = row.createdAt

theorem keeps_markSent {now : Time} : Keeps (π := π) (·.markSent now) :=
  ⟨fun _ => rfl, fun _ => rfl⟩

theorem keeps_recordFailure {now : Time} {loaded : Nat} {exc : List Char} :
    Keeps (π := π) (·.recordFailure now loaded exc) := ⟨fun _ => rfl, fun _ => rfl⟩

theorem mem_commit (h : row ∈ (st.commit id f o).outbox) :
    ∃ x ∈ st.outbox, row = x ∨ x.id = id ∧ row = f x := by
  rw [commit_outbox] at h
  split at h
  next =>
    obtain ⟨x, hx, rfl⟩ := List.mem_map.1 h
    refine ⟨x, hx, ?_⟩
    split
    next hid => exact .inr ⟨hid, rfl⟩
    next => exact .inl rfl
  next => exact ⟨row, h, .inl rfl⟩

theorem grows_commit (hf : Keeps f) : Grows st (st.commit id f o) := by
  refine ⟨fun row hrow => ?_, fun m hm => by simpa using hm, fun id => by simp⟩
  rw [commit_outbox]
  split
  next =>
    refine ⟨_, List.mem_map_of_mem hrow, ?_, ?_⟩
    · split
      · exact hf.mail row
      · rfl
    · split
      · exact hf.createdAt row
      · rfl
  next => exact ⟨row, hrow, rfl, rfl⟩

theorem grows_warn : Grows st (st.warn id o) := by
  refine ⟨fun row hrow => ⟨row, by simpa using hrow, rfl, rfl⟩, fun m hm => by simpa using hm,
    fun i => ?_⟩
  rw [warn_failures]
  split
  · exact List.count_le_count_cons
  · exact Nat.le_refl _

theorem grows_post : Grows st (st.post row o) := by
  refine ⟨Grows.refl.outbox, fun m hm => ?_, Grows.refl.failures⟩
  simp only [post]
  split
  · exact List.mem_cons_of_mem _ hm
  · exact hm

theorem Grows.goto (h : Grows st st') : Grows st (st'.goto w p) := ⟨h.outbox, h.mailed, h.failures⟩

theorem grows_step {e : Event π} : Grows st (st.step e) := by
  have h := move_step st e
  generalize st.step e = st' at h
  cases h with
  | stay => exact .refl
  | tick d => exact ⟨Grows.refl.outbox, Grows.refl.mailed, Grows.refl.failures⟩
  | enqueue hkind hfresh =>
    refine ⟨fun row hrow => ⟨row, List.mem_append_left _ hrow, rfl, rfl⟩, Grows.refl.mailed,
      Grows.refl.failures⟩
  | poll hw => exact Grows.refl.goto
  | skip hw hkind => exact Grows.refl.goto
  | send hw hkind =>
    exact (grows_post.trans grows_warn).goto
  | mark hw => exact ((grows_commit keeps_markSent).trans grows_warn).goto
  | record hw => exact (grows_commit keeps_recordFailure).goto
  | crash => exact Grows.refl.goto

/-! ## The books -/

/-- The columns of a row against the logs. -/
structure Accounted (mailed : List (Mail π)) (failures : List Uuid) (row : NotificationOutbox π) :
    Prop where
  known : row.kind.known
  pending : row.status = .pending → row.attemptCount < maxAttempts
  sent : row.status = .sent → row.mail ∈ mailed
  failed : row.status = .failed → row.attemptCount = maxAttempts
  atMost : row.attemptCount ≤ maxAttempts
  counted : row.attemptCount ≤ failures.count row.id

/-- A row in the hand of a dispatcher, which may have changed since it was loaded. -/
structure Loaded (st : System π) (row : NotificationOutbox π) : Prop where
  pending : row.attemptCount < maxAttempts
  counted : row.attemptCount ≤ st.failures.count row.id
  stored : ∃ row' ∈ st.outbox, row'.mail = row.mail

/-- What a dispatcher has in hand and what it has done with it. -/
structure Holds (st : System π) (p : Phase π) : Prop where
  loaded : ∀ row ∈ p.held, st.Loaded row
  accepted : ∀ row rows, p = .accepted row rows → row.mail ∈ st.mailed
  raised : ∀ row exc rows, p = .raised row exc rows → row.attemptCount < st.failures.count row.id

structure Inv (st : System π) : Prop where
  nodup : (st.outbox.map (·.id)).Nodup
  rows : ∀ row ∈ st.outbox, Accounted st.mailed st.failures row
  phases : ∀ w, st.Holds (st.phase w)
  mailed : ∀ m ∈ st.mailed, ∃ row ∈ st.outbox, row.mail = m

theorem Accounted.mono (h : Accounted st.mailed st.failures row) (hg : Grows st st') :
    Accounted st'.mailed st'.failures row where
  known := h.known
  pending := h.pending
  sent hs := hg.mailed _ (h.sent hs)
  failed := h.failed
  atMost := h.atMost
  counted := h.counted.trans (hg.failures row.id)

theorem Loaded.mono (h : st.Loaded row) (hg : Grows st st') : st'.Loaded row where
  pending := h.pending
  counted := h.counted.trans (hg.failures row.id)
  stored := by
    obtain ⟨row', hrow', hmail⟩ := h.stored
    obtain ⟨row'', hrow'', hmail', -⟩ := hg.outbox row' hrow'
    exact ⟨row'', hrow'', hmail'.trans hmail⟩

theorem Holds.mono (h : st.Holds p) (hg : Grows st st') : st'.Holds p where
  loaded row hrow := (h.loaded row hrow).mono hg
  accepted row rows hp := hg.mailed _ (h.accepted row rows hp)
  raised row exc rows hp := (h.raised row exc rows hp).trans_le (hg.failures row.id)

theorem holds_delivering {rows : List (NotificationOutbox π)} (h : ∀ row ∈ rows, st.Loaded row) :
    st.Holds (.delivering rows) :=
  ⟨h, fun _ _ hp => (by cases hp), fun _ _ _ hp => (by cases hp)⟩

/-- The other dispatchers are where they were. -/
theorem holds_goto (h : ∀ w, st.Holds (st.phase w)) (hg : Grows st st')
    (hphase : st'.phase = st.phase) (hp : st'.Holds p) :
    ∀ v, (st'.goto w p).Holds ((st'.goto w p).phase v) := by
  intro v
  refine Holds.mono ?_ Grows.refl.goto
  rw [goto_phase, Function.update_apply]
  split
  next => exact hp
  next =>
    rw [hphase]
    exact (h v).mono hg

/-- Behind a statement that the exception of is logged. -/
theorem holds_after {rows : List (NotificationOutbox π)} {next : Phase π}
    (hrow : st.Loaded row) (hrows : ∀ x ∈ rows, st.Loaded x)
    (hnext : o.exc = none → st.Holds next) :
    (st.warn row.id o).Holds (Phase.after row rows next o) := by
  have hwarned (exc : List Char) (ho : o.exc = some exc) :
      (st.warn row.id o).Holds (.raised row exc rows) := by
    refine ⟨fun x hx => ?_, fun _ _ hp => (by cases hp), fun _ _ _ hp => ?_⟩
    · rcases List.mem_cons.1 hx with rfl | hx
      · exact hrow.mono grows_warn
      · exact (hrows x hx).mono grows_warn
    · cases hp
      rw [warn_failures, ho]
      have hcounted := hrow.counted
      simp
      omega
  cases o with
  | done => exact (hnext rfl).mono grows_warn
  | lost exc => exact hwarned exc rfl
  | failed exc => exact hwarned exc rfl

/-- A row of the table as a dispatcher loads it. -/
theorem Inv.loaded (h : st.Inv) (hrow : row ∈ st.outbox) (hp : row.status = .pending) :
    st.Loaded row :=
  ⟨(h.rows row hrow).pending hp, (h.rows row hrow).counted, row, hrow, rfl⟩

theorem mem_select {now : Time} {ties : Uuid → Nat} {outbox : List (NotificationOutbox π)}
    (h : row ∈ NotificationOutbox.select now ties outbox) : row ∈ outbox ∧ row.due now := by
  have hmem := List.mem_mergeSort.1 (List.mem_of_mem_take h)
  exact List.mem_filter.1 hmem

theorem map_id_commit (hf : Keeps f) :
    (st.commit id f o).outbox.map (·.id) = st.outbox.map (·.id) := by
  rw [commit_outbox]
  split
  next =>
    rw [NotificationOutbox.update, List.map_map]
    refine List.map_congr_left fun row _ => ?_
    rw [Function.comp_apply]
    split
    · exact congrArg Mail.id (hf.mail row)
    · rfl
  next => rfl

theorem exists_mail (hg : Grows st st') {m : Mail π} (h : ∃ row ∈ st.outbox, row.mail = m) :
    ∃ row ∈ st'.outbox, row.mail = m := by
  obtain ⟨row, hrow, rfl⟩ := h
  obtain ⟨row', hrow', hmail, -⟩ := hg.outbox row hrow
  exact ⟨row', hrow', hmail⟩

theorem inv_step {e : Event π} (h : st.Inv) : (st.step e).Inv := by
  have hmove := move_step st e
  have hg : Grows st (st.step e) := grows_step
  generalize st.step e = st' at hmove hg
  cases hmove with
  | stay => exact h
  | tick d => exact ⟨h.nodup, h.rows, fun w => (h.phases w).mono hg, h.mailed⟩
  | @enqueue id kind hkind payload createdAt hfresh =>
    refine ⟨?_, fun row hrow => ?_, fun w => (h.phases w).mono hg, fun m hm =>
      exists_mail hg (h.mailed m hm)⟩
    · rw [List.map_append]
      refine List.nodup_append.2 ⟨h.nodup, List.nodup_singleton _, fun a ha b hb hab => ?_⟩
      obtain ⟨row, hrow, rfl⟩ := List.mem_map.1 ha
      rw [List.map_singleton, List.mem_singleton] at hb
      exact hfresh row hrow (hab.trans hb)
    · rcases List.mem_append.1 hrow with hrow | hrow
      · exact h.rows row hrow
      · rw [List.mem_singleton] at hrow
        subst hrow
        exact ⟨hkind, fun _ => Nat.zero_lt_succ 4, fun hs => (by cases hs), fun hs => (by cases hs),
          Nat.zero_le _, Nat.zero_le _⟩
  | @poll w ties hw =>
    refine ⟨h.nodup, h.rows, holds_goto h.phases .refl rfl (holds_delivering fun row hrow => ?_),
      h.mailed⟩
    obtain ⟨hmem, hdue⟩ := mem_select hrow
    exact h.loaded hmem (of_decide_eq_true hdue).1
  | @skip w o row rows hw hkind =>
    refine ⟨h.nodup, h.rows, holds_goto h.phases .refl rfl (holds_delivering fun x hx => ?_),
      h.mailed⟩
    have hheld := (h.phases w).loaded
    rw [hw] at hheld
    exact hheld x (List.mem_cons_of_mem _ hx)
  | @send w o row rows hw hkind =>
    have hheld := (h.phases w).loaded
    rw [hw] at hheld
    have hpost (x : NotificationOutbox π) (hx : x ∈ row :: rows) : (st.post row o).Loaded x :=
      (hheld x hx).mono grows_post
    refine ⟨by simpa using h.nodup, fun x hx => ?_,
      holds_goto h.phases (grows_post.trans grows_warn) (by simp) (holds_after
        (hpost row List.mem_cons_self) (fun x hx => hpost x (List.mem_cons_of_mem _ hx)) fun ho =>
          ⟨hpost, fun x xs hp => ?_, fun _ _ _ hp => (by cases hp)⟩), fun m hm => ?_⟩
    · exact (h.rows x (by simpa using hx)).mono hg
    · cases hp
      cases o with
      | done => exact List.mem_cons_self
      | lost exc => cases ho
      | failed exc => cases ho
    · rw [goto_mailed, warn_mailed, post_mailed] at hm
      have hm : m = row.mail ∨ m ∈ st.mailed := by
        split at hm
        · exact List.mem_cons.1 hm
        · exact .inr hm
      rcases hm with rfl | hm
      · exact exists_mail hg (hheld row List.mem_cons_self).stored
      · exact exists_mail hg (h.mailed m hm)
  | @mark w o row rows hw =>
    have hheld := (h.phases w).loaded
    have haccepted := (h.phases w).accepted row rows hw
    rw [hw] at hheld
    have hcommit : Grows st (st.commit row.id (·.markSent st.now) o) := grows_commit keeps_markSent
    have hloaded (x : NotificationOutbox π) (hx : x ∈ row :: rows) :=
      (hheld x hx).mono hcommit
    refine ⟨?_, fun x hx => ?_, holds_goto h.phases (hcommit.trans grows_warn) (by simp)
      (holds_after (hloaded row List.mem_cons_self)
        (fun x hx => hloaded x (List.mem_cons_of_mem _ hx)) fun _ =>
          holds_delivering fun x hx => hloaded x (List.mem_cons_of_mem _ hx)), fun m hm =>
        exists_mail hg (h.mailed m (by simpa using hm))⟩
    · rw [goto_outbox, warn_outbox, map_id_commit keeps_markSent]
      exact h.nodup
    · rw [goto_outbox, warn_outbox] at hx
      obtain ⟨y, hy, rfl | ⟨hid, rfl⟩⟩ := mem_commit hx
      · exact (h.rows _ hy).mono hg
      · -- the row of the id is that of the message the mailer has accepted
        obtain ⟨row', hrow', hmail⟩ := (hheld row List.mem_cons_self).stored
        have hsame : y = row' := List.inj_on_of_nodup_map h.nodup hy hrow'
          (hid.trans (congrArg Mail.id hmail).symm)
        have hy := (h.rows y hy).mono hg
        refine ⟨hy.known, fun hs => (by cases hs), fun _ => hg.mailed _ ?_, fun hs => (by cases hs),
          hy.atMost, hy.counted⟩
        change y.mail ∈ st.mailed
        rw [hsame, hmail]
        exact haccepted
  | @record w o row exc rows hw =>
    have hheld := (h.phases w).loaded
    have hraised := (h.phases w).raised row exc rows hw
    rw [hw] at hheld
    have hcommit :
        Grows st (st.commit row.id (·.recordFailure st.now row.attemptCount exc) o) :=
      grows_commit keeps_recordFailure
    refine ⟨?_, fun x hx => ?_, holds_goto h.phases hcommit (by simp)
      (holds_delivering fun x hx => ?_), fun m hm =>
        exists_mail hg (h.mailed m (by simpa using hm))⟩
    · rw [goto_outbox, map_id_commit keeps_recordFailure]
      exact h.nodup
    · rw [goto_outbox] at hx
      obtain ⟨y, hy, rfl | ⟨hid, rfl⟩⟩ := mem_commit hx
      · exact (h.rows _ hy).mono hg
      · have hpending := (hheld row List.mem_cons_self).pending
        have hid : y.id = row.id := hid
        have hcounted : row.attemptCount + 1 ≤ ((st.commit row.id
            (·.recordFailure st.now row.attemptCount exc) o).goto w
            (.delivering (if o.exc.isSome then [] else rows))).failures.count y.id := by
          rw [hid]
          exact Nat.le_trans hraised (hg.failures row.id)
        refine ⟨(h.rows y hy).known, fun hs => ?_, fun hs => ?_, fun hs => ?_, hpending, hcounted⟩
        · simp only [NotificationOutbox.recordFailure] at hs ⊢
          split at hs
          · cases hs
          · omega
        · simp only [NotificationOutbox.recordFailure] at hs
          split at hs <;> cases hs
        · simp only [NotificationOutbox.recordFailure] at hs ⊢
          split at hs
          · omega
          · cases hs
    · split at hx
      · cases hx
      · exact (hheld x (List.mem_cons_of_mem _ hx)).mono hcommit
  | crash w =>
    exact ⟨h.nodup, h.rows,
      holds_goto h.phases .refl rfl (holds_delivering fun _ hx => (by cases hx)), h.mailed⟩

theorem inv_start {now : Time} : (start (π := π) now).Inv :=
  ⟨List.nodup_nil, fun _ h => (by cases h), fun _ => holds_delivering fun _ h => (by cases h),
    fun _ h => (by cases h)⟩

end

/-- What the outbox says of its notifications is so, and the mailer has nothing from elsewhere. -/
structure Truthful (st : System π) : Prop where
  sent : ∀ row ∈ st.outbox, row.status = .sent → row.mail ∈ st.mailed
  failed : ∀ row ∈ st.outbox, row.status = .failed → maxAttempts ≤ st.failures.count row.id
  pending : ∀ row ∈ st.outbox, row.status = .pending →
    row.attemptCount < maxAttempts ∧ row.attemptCount ≤ st.failures.count row.id
  mailed : ∀ m ∈ st.mailed, ∃ row ∈ st.outbox, row.mail = m
  once : (st.outbox.map (·.id)).Nodup

theorem Inv.truthful {st : System π} (h : st.Inv) : Truthful st where
  sent row hrow hs := (h.rows row hrow).sent hs
  failed row hrow hs := by
    rw [← (h.rows row hrow).failed hs]
    exact (h.rows row hrow).counted
  pending row hrow hs := ⟨(h.rows row hrow).pending hs, (h.rows row hrow).counted⟩
  mailed := h.mailed
  once := h.nodup

/-- In whatever way the dispatchers, the mailer and the database behave, and whoever crashes, the
outbox is truthful in every state, and no notification goes away or changes. -/
theorem truthful_along (now : Time) (es : List (Event π)) :
    Always step Truthful (start now) es ∧ Along step Grows (start now) es := by
  constructor
  · rintro pre ⟨post, rfl⟩
    exact (run_invariant (fun _ _ => inv_step) inv_start : (run step (start now) pre).Inv).truthful
  · exact along_of_step (fun _ => .refl) (fun _ _ _ => .trans) fun _ _ => grows_step

end System

end LlmPort.Backend.Notifications
