import LlmPort.Gateway.SessionContext

/-!
# Retries of a request

The message log after a request is injected into its session twice, with no reply in between.
-/

namespace LlmPort.Gateway

open Ranking

/-- What one run of the injection depends on besides the session and the request's messages. -/
structure InjectionRun where
  settings : ContextSettings
  orders : ReadOrders
  search : Option (MessageContent → List RagResult)
  now : Int
  newId : Nat → SessionUuid

namespace InjectionRun

/-- The session after the run; a run that raises does so before anything is stored. -/
def after (run : InjectionRun) (messages : List RequestMessage) (session : Option SessionState) :
    Option SessionState :=
  match injectSessionContext run.settings run.orders run.now run.newId session
      (injectRagContext run.search messages) with
  | none => session
  | some (_, session) => session

/-- The rows a run adds to the log. -/
def added (run : InjectionRun) (messages : List RequestMessage) (log : List LoggedMessage) :
    List LoggedMessage :=
  let payload := injectRagContext run.search messages
  if payload.any (·.content = .null) then []
  else storedRows run.now run.newId (dedup run.orders log payload)

end InjectionRun

/-- The log of a session, which is empty where there is none. -/
def logOf (session : Option SessionState) : List LoggedMessage :=
  (session.map (·.log)).getD []

/-- The second run stores nothing: it fails on a content `null`; or there is nothing to store but
the first message, which is a retry of the newest message that is there after the first run. -/
def StoresOnce (first second : InjectionRun) (messages : List RequestMessage)
    (log : List LoggedMessage) : Prop :=
  (∃ x ∈ messages, x.content = .null) ∨
    (∀ x ∈ injectRagContext second.search messages, x.isStored = false) ∨
    ∃ m rest, injectRagContext second.search messages = m :: rest ∧
      (∀ x ∈ rest, x.isStored = false) ∧
      ∃ last, second.orders.lastMessage.newest (log ++ first.added messages log) = some last ∧
        last.isRetriedBy m

section
variable {run first second : InjectionRun} {messages payload current : List RequestMessage}
  {log : List LoggedMessage} {m : RequestMessage}

theorem injectRagContext_eq (search : Option (MessageContent → List RagResult))
    (messages : List RequestMessage) : injectRagContext search messages = messages ∨
      ∃ text, injectRagContext search messages = ⟨some "system", .text text⟩ :: messages := by
  unfold injectRagContext
  split
  next =>
    split
    next => exact .inl rfl
    next =>
      split
      next => exact .inl rfl
      next => exact .inr ⟨_, rfl⟩
  next => exact .inl rfl

theorem any_null_injectRagContext (search : Option (MessageContent → List RagResult)) :
    (injectRagContext search messages).any (·.content = .null) =
      messages.any (·.content = .null) := by
  obtain h | ⟨text, h⟩ := injectRagContext_eq search messages
  · rw [h]
  · rw [h]
    simp

theorem exists_after (run : InjectionRun) (messages : List RequestMessage)
    (session : SessionState) : ∃ session', run.after messages (some session) = some session' ∧
      session'.log = session.log ++ run.added messages session.log := by
  unfold InjectionRun.after InjectionRun.added injectSessionContext
  dsimp only
  by_cases hnull : (injectRagContext run.search messages).any (·.content = .null)
  · have hno : session.assemble run.settings run.orders (dedup run.orders session.log
        (injectRagContext run.search messages)) = none := by
      rw [Option.eq_none_iff_forall_ne_some]
      intro out hout
      obtain ⟨x, hx, hxn⟩ := List.any_eq_true.1 hnull
      exact any_null_dedup_iff.1 (noNull_of_assemble hout) x hx (by simpa using hxn)
    rw [hno, if_pos hnull]
    exact ⟨session, rfl, (List.append_nil _).symm⟩
  · have hall : ∀ x ∈ injectRagContext run.search messages, x.content ≠ .null := by
      intro x hx hxn
      exact hnull (List.any_eq_true.2 ⟨x, hx, by simpa using hxn⟩)
    rw [assemble_of_noNull session run.settings run.orders (any_null_dedup_iff.2 hall),
      if_neg hnull]
    exact ⟨_, rfl, rfl⟩

theorem storedRows_eq_nil_iff {now : Int} {newId : Nat → SessionUuid} :
    storedRows now newId current = [] ↔ ∀ x ∈ current, x.isStored = false := by
  simp [storedRows, List.mapIdx_eq_nil_iff, List.filter_eq_nil_iff]

theorem added_eq_nil_iff : run.added messages log = [] ↔
    (∃ x ∈ messages, x.content = .null) ∨
      (∀ x ∈ injectRagContext run.search messages, x.isStored = false) ∨
      ∃ m rest, injectRagContext run.search messages = m :: rest ∧
        (∀ x ∈ rest, x.isStored = false) ∧
        ∃ last, run.orders.lastMessage.newest log = some last ∧ last.isRetriedBy m := by
  unfold InjectionRun.added
  dsimp only
  rw [any_null_injectRagContext]
  split
  next h =>
    refine iff_of_true rfl (.inl ?_)
    simpa using h
  next h =>
    rw [storedRows_eq_nil_iff, or_iff_right (by simpa using h)]
    unfold dedup
    split
    next hd =>
      obtain ⟨m, hm, hretry⟩ := (Option.any_eq_true _ _).1 hd
      obtain ⟨last, hlast, hretry⟩ := (Option.any_eq_true _ _).1 hretry
      obtain ⟨rest, hrest⟩ := List.head?_eq_some_iff.1 hm
      rw [hrest]
      constructor
      · exact fun h => .inr ⟨m, rest, rfl, h, last, hlast, hretry⟩
      · rintro (h | ⟨_, _, heq, h, -⟩)
        · exact fun x hx => h x (List.mem_cons_of_mem _ hx)
        · obtain ⟨-, rfl⟩ := List.cons.inj heq
          exact h
    next hd =>
      rw [iff_comm, or_iff_left_iff_imp]
      rintro ⟨m, rest, heq, -, last, hlast, hretry⟩
      exact (hd (by simp [dropsFirst, heq, hlast, hretry])).elim

/-- Two runs of the injection leave the log as one does exactly if the second one stores nothing. -/
theorem log_after_twice_iff {session : Option SessionState} :
    logOf (second.after messages (first.after messages session)) =
        logOf (first.after messages session) ↔
      ∀ state, session = some state → StoresOnce first second messages state.log := by
  cases session with
  | none => exact iff_of_true rfl fun _ h => by cases h
  | some state =>
    obtain ⟨once, honce, hlog⟩ := exists_after first messages state
    obtain ⟨twice, htwice, hlog'⟩ := exists_after second messages once
    simp only [honce, htwice, logOf, Option.map_some, Option.getD_some, Option.some.injEq,
      forall_eq']
    rw [hlog', List.append_right_eq_self, hlog]
    exact added_eq_nil_iff

theorem storedRows_singleton (now : Int) (newId : Nat → SessionUuid) {rest : List RequestMessage}
    (hm : m.isStored) (hnull : m.content ≠ .null) (hrest : ∀ x ∈ rest, x.isStored = false) :
    ∃ row, storedRows now newId (m :: rest) = [row] ∧ row.createdAt = now ∧ row.isRetriedBy m := by
  have hfilter : rest.filter (·.isStored) = [] := by
    simpa [List.filter_eq_nil_iff] using hrest
  refine ⟨_, by rw [storedRows, List.filter_cons_of_pos hm, hfilter]; rfl, rfl, ?_⟩
  have hrole : m.role = some (m.role.getD "") := by
    simp only [RequestMessage.isStored, Bool.or_eq_true, decide_eq_true_eq] at hm
    obtain h | h := hm <;> rw [h] <;> rfl
  have hcontent : m.content.flatten = some (m.content.flatten.getD "") := by
    cases h : m.content with
    | null => exact (hnull h).elim
    | text => rfl
    | parts => rfl
  simpa [LoggedMessage.isRetriedBy] using ⟨hrole, hcontent⟩

/-- A request with one message to store, the first one, and no context to retrieve: it is stored
once when the log is older than the first run. -/
theorem storesOnce_of_older {rest : List RequestMessage} (hfirst : first.search = none)
    (hsecond : second.search = none)
    (horder : second.orders.lastMessage = first.orders.lastMessage) (hm : m.isStored)
    (hrest : ∀ x ∈ rest, x.isStored = false) (hlog : ∀ x ∈ log, x.createdAt < first.now) :
    StoresOnce first second (m :: rest) log := by
  by_cases hnull : ∃ x ∈ m :: rest, x.content = .null
  · exact .inl hnull
  have hno : ((m :: rest).any (·.content = .null)) = false := by
    simpa [List.any_eq_false] using hnull
  have hpayload (run : InjectionRun) (h : run.search = none) :
      injectRagContext run.search (m :: rest) = m :: rest := by
    rw [h]
    rfl
  refine .inr (.inr ⟨m, rest, hpayload second hsecond, hrest, ?_⟩)
  rw [horder]
  unfold InjectionRun.added
  dsimp only
  rw [hpayload first hfirst, hno, if_neg Bool.false_ne_true]
  unfold dedup
  split
  next hd =>
    -- the first run is a retry already
    obtain ⟨_, hhead, hretry⟩ := (Option.any_eq_true _ _).1 hd
    cases hhead
    obtain ⟨last, hlast, hretry⟩ := (Option.any_eq_true _ _).1 hretry
    have hnil : storedRows first.now first.newId rest = [] := storedRows_eq_nil_iff.2 hrest
    exact ⟨last, by rwa [List.tail_cons, hnil, List.append_nil], hretry⟩
  next =>
    have hcontent : m.content ≠ .null := fun h => hnull ⟨m, List.mem_cons_self, h⟩
    obtain ⟨row, hrow, hnow, hretry⟩ := storedRows_singleton first.now first.newId hm
      hcontent hrest
    refine ⟨row, TimeOrder.newest_of_lt (by rw [hrow]; simp) fun b hb => ?_, hretry⟩
    rw [hrow, List.mem_append, List.mem_singleton] at hb
    obtain hb | hb := hb
    · exact .inr (hnow ▸ hlog b hb)
    · exact .inl hb

end

/-- A retried request with a system message before the user's: both are stored again. -/
theorem not_log_after_twice_system :
    ¬ ∀ (first second : InjectionRun) (messages : List RequestMessage)
        (session : Option SessionState),
      logOf (second.after messages (first.after messages session)) =
        logOf (first.after messages session) := by
  intro h
  let run (now : Int) : InjectionRun :=
    ⟨⟨20, 4096, none⟩, ⟨.stable _, .stable _, .stable _⟩, none, now, fun i => BitVec.ofNat 128 i⟩
  have hlog := congrArg List.length (h (run 0) (run 1)
    [⟨some "system", .text "Be brief."⟩, ⟨some "user", .text "Hello"⟩]
    (some ⟨none, [], [], [], [], [], [], []⟩))
  revert hlog
  decide

end LlmPort.Gateway
