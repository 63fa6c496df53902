import LlmPort.Backend.RoutingRules

/-!
# The commands of a runtime

A command's key begins with the text of its runtime's id, so the command that `issue_command` finds
under a key is one of the same runtime. Issuing a command leaves its runtime with a command in
flight; the listings and the agent's acknowledgements answer none.
-/

namespace LlmPort.Backend

open Transition NodeControl NodeControlService Store Llm LLMService

variable {llm : LLMService} {svc : NodeControlService} {g : GatewayDb} {s s' s₁ : Store}
  {seen : Uuid → Bool} {id id' nodeId commandId : Uuid} {r : LLMRuntime} {c : InfraNodeCommand}
  {draw : Draw} {req : CommandRequest} {now : Time}

theorem toList_key (id : Uuid) (rest : String) : (runtimeKey id rest).toList =
    "runtime:".toList ++ ((uuidStr id).toList ++ ':' :: rest.toList) := by
  have hcolon : ":".toList = [':'] := by decide
  change ("runtime:" ++ uuidStr id ++ ":" ++ rest).toList = _
  rw [String.toList_append, String.toList_append, String.toList_append, hcolon, List.append_assoc,
    List.append_assoc, List.singleton_append]

/-- A runtime's keys are no other runtime's. -/
theorem eq_of_key_eq {rest rest' : String}
    (h : runtimeKey id rest = runtimeKey id' rest') : id = id' := by
  have hlist := congrArg String.toList h
  rw [toList_key, toList_key] at hlist
  have htake (id : Uuid) (l : List Char) :
      ((uuidStr id).toList ++ ':' :: l).takeWhile (· ≠ ':') = (uuidStr id).toList := by
    have hall : ∀ c ∈ (uuidStr id).toList, decide (c ≠ ':') = true := fun c hc =>
      decide_eq_true fun e => not_mem_uuidStr (by decide) (by decide) id (e ▸ hc)
    rw [List.takeWhile_append_of_pos hall, List.takeWhile_cons_of_neg (by simp), List.append_nil]
  have htext : (uuidStr id).toList = (uuidStr id').toList := by
    rw [← htake id rest.toList, List.append_cancel_left hlist, htake]
  exact uuidStr_injective (String.toList_injective htext)

theorem key_ne_empty {rest : String} : runtimeKey id rest ≠ "" := by
  intro h
  have hlist := congrArg String.toList h
  rw [toList_key] at hlist
  have hne : "runtime:".toList ≠ [] := by decide
  exact hne (List.append_eq_nil_iff.1 hlist).1

theorem requestKey_eq {rest : String} (draw : Draw)
    (h : req.idempotencyKey = some (runtimeKey id rest)) :
    requestKey draw req = runtimeKey id rest := by
  unfold requestKey orText
  rw [h]
  exact if_neg key_ne_empty

theorem NamedBy.runtimeIdOf_eq (h : NamedBy c id) : runtimeIdOf c.payloadJson = some id := by
  unfold runtimeIdOf
  rw [h.1]

/-- A retired command still carries its runtime's id in its key. -/
theorem NamedBy.retire {key : String} {rest : String} (hkey : key = runtimeKey id rest)
    (h : c.payloadJson.runtimeId = .uuid id true) (id' : Uuid) :
    NamedBy { c with idempotencyKey := retiredKey key id' } id := by
  refine ⟨h, rest ++ "::retired::" ++ uuidStr id', String.toList_injective ?_⟩
  subst hkey
  unfold retiredKey
  rw [toList_key]
  change ("runtime:" ++ uuidStr id ++ ":" ++ rest ++ "::retired::" ++ uuidStr id').toList =
    "runtime:".toList ++ ((uuidStr id).toList ++
      ':' :: (rest ++ "::retired::" ++ uuidStr id').toList)
  have hcolon : ":".toList = [':'] := by decide
  simp only [String.toList_append, hcolon, List.append_assoc, List.cons_append, List.nil_append]

/-- Issuing a command touches the command table and its timeline only. -/
theorem issueCommand_frame (h : svc.issueCommand draw req s = .ok (s', c)) :
    SameRuntimes s s' := by
  obtain ⟨-, -, rfl⟩ | ⟨s₁, ⟨-, rfl⟩ | ⟨old, -, -, rfl⟩, -, rfl, -⟩ := issueCommand_cases h <;>
    exact ⟨rfl, rfl, rfl⟩

theorem not_quiet (hc : c ∈ s.commands) (hid : runtimeIdOf c.payloadJson = some id)
    (ht : c.status.isTerminal = false) : ¬ Quiet s id := by
  intro h
  rw [h c hc hid] at ht
  cases ht

/-- What issuing a command of a runtime does: every command is still one of a runtime that has it,
the runtime has a command in flight, and no command is answered. -/
theorem issueCommand_named {rest : String} {P : Uuid → Prop} (hk : s.Keyed)
    (hpayload : req.payload.runtimeId = .uuid id true)
    (hkey : req.idempotencyKey = some (runtimeKey id rest)) (hid : P id)
    (hs : ∀ c ∈ s.commands, ∃ id, NamedBy c id ∧ P id)
    (h : svc.issueCommand draw req s = .ok (s', c)) :
    (∀ c ∈ s'.commands, ∃ id, NamedBy c id ∧ P id) ∧ ¬ Quiet s' id ∧
      ∀ id', Quiet s' id' → Quiet s id' := by
  have hreq := requestKey_eq draw hkey
  obtain ⟨hfind, ht, rfl⟩ | ⟨s₁, hs₁, rfl, rfl, -⟩ := issueCommand_cases h
  · have hmem : c ∈ s'.commands := List.mem_of_find?_eq_some hfind
    obtain ⟨id', hn, -⟩ := hs c hmem
    have hc := List.find?_some hfind
    simp only [decide_eq_true_eq] at hc
    obtain ⟨rest', hrest⟩ := hn.2
    have hids : id' = id := eq_of_key_eq (hrest.symm.trans (hc.2.trans hreq))
    subst hids
    exact ⟨hs, not_quiet hmem hn.runtimeIdOf_eq ht, fun _ hq => hq⟩
  · have hnew : NamedBy (svc.queuedCommand draw req (requestKey draw req)) id :=
      ⟨hpayload, rest, hreq⟩
    have hcmd : (s₁.withCommand (svc.queuedCommand draw req (requestKey draw req))).commands =
        s₁.commands ++ [svc.queuedCommand draw req (requestKey draw req)] := rfl
    have hold : (∀ c ∈ s₁.commands, ∃ id, NamedBy c id ∧ P id) ∧
        ∀ id', Quiet s₁ id' → Quiet s id' := by
      obtain ⟨-, rfl⟩ | ⟨old, hfind, hterm, rfl⟩ := hs₁
      · exact ⟨hs, fun _ hq => hq⟩
      · have hmem : old ∈ s.commands := List.mem_of_find?_eq_some hfind
        obtain ⟨id', hn, hP⟩ := hs old hmem
        have hc := List.find?_some hfind
        simp only [decide_eq_true_eq] at hc
        obtain ⟨rest', hrest⟩ := hn.2
        constructor
        · intro c hc'
          obtain ⟨d, hd, rfl⟩ := List.mem_map.1 hc'
          split
          next =>
            exact ⟨id', NamedBy.retire (hc.2.symm.trans hrest) hn.1 old.id, hP⟩
          next => exact hs d hd
        · intro id'' hq d hd hdid
          by_cases he : d.id = old.id
          · rw [hk.eq_of_mem hd hmem he]
            exact hterm
          · exact hq d (List.mem_map.2 ⟨d, hd, if_neg he⟩) hdid
    refine ⟨?_, ?_, fun id' hq => hold.2 id' fun d hd => hq d (hcmd ▸ List.mem_append_left _ hd)⟩
    · rw [hcmd]
      intro c hc
      obtain hc | hc := List.mem_append.1 hc
      · exact hold.1 c hc
      · rw [List.mem_singleton.1 hc]
        exact ⟨id, hnew, hid⟩
    · exact not_quiet (hcmd ▸ List.mem_append_right _ (List.mem_singleton_self _))
        hnew.runtimeIdOf_eq rfl

/-- Rows that are rewritten under their keys are still named by their runtimes. -/
theorem rewrites_named {P : InfraNodeCommand → InfraNodeCommand → Prop} {Q : Uuid → Prop}
    (h : Rewrites P s s') (hk : s.Keyed)
    (hP : ∀ c c', P c c' → c'.idempotencyKey = c.idempotencyKey)
    (hs : ∀ c ∈ s.commands, ∃ id, NamedBy c id ∧ Q id) :
    ∀ c ∈ s'.commands, ∃ id, NamedBy c id ∧ Q id := by
  intro c' hc'
  have hspec : specOf c' ∈ s.specs := by
    rw [← h.specs]
    exact List.mem_map_of_mem hc'
  obtain ⟨c, hc, heq⟩ := List.mem_map.1 hspec
  obtain ⟨c'', hc'', hspec', hp⟩ := h.rows c.id c (hk.getCommand hc)
  have hsame : c'' = c' := by
    refine (h.keyed hk).eq_of_mem (getCommand_mem hc'') hc' ?_
    rw [getCommand_id hc'', specOf_id heq]
  subst hsame
  obtain ⟨id, ⟨hpayload, rest, hkey⟩, hQ⟩ := hs c hc
  have hpay : c''.payloadJson = c.payloadJson := congrArg CommandSpec.payloadJson hspec'
  exact ⟨id, ⟨by rw [hpay, hpayload], rest, (hP c c'' hp).trans hkey⟩, hQ⟩

/-- Rewriting that answers no command keeps the commands in flight. -/
theorem rewrites_quiet {P : InfraNodeCommand → InfraNodeCommand → Prop} (h : Rewrites P s s')
    (hk : s.Keyed)
    (hP : ∀ c ∈ s.commands, runtimeIdOf c.payloadJson = some id → ∀ c', P c c' →
      c.status.isTerminal = false → c'.status.isTerminal = false)
    (hq : Quiet s' id) : Quiet s id := by
  intro c hc hid
  obtain ⟨c', hc', hspec, hp⟩ := h.rows c.id c (hk.getCommand hc)
  have hpay : c'.payloadJson = c.payloadJson := congrArg CommandSpec.payloadJson hspec
  have ht := hq c' (getCommand_mem hc') (by rw [hpay, hid])
  by_contra hopen
  rw [hP c hc hid c' hp (by simpa using hopen)] at ht
  cases ht

/-- A write that keeps the key of a row and answers no command. -/
def KeepsOpen (c c' : InfraNodeCommand) : Prop :=
  c'.idempotencyKey = c.idempotencyKey ∧
    (c.status.isTerminal = false → c'.status.isTerminal = false)

theorem keepsOpen_refl (c : InfraNodeCommand) : KeepsOpen c c := ⟨rfl, id⟩

theorem keepsOpen_trans (a b c : InfraNodeCommand) (h₁ : KeepsOpen a b) (h₂ : KeepsOpen b c) :
    KeepsOpen a c :=
  ⟨h₂.1.trans h₁.1, fun h => h₂.2 (h₁.2 h)⟩

theorem keepsOpen_setCommandStatus {status : NodeCommandStatus} {e m : Option String}
    (h : status.isTerminal = false) (c : InfraNodeCommand) :
    KeepsOpen c (setCommandStatus now c status none e m) :=
  ⟨rfl, fun _ => h⟩

theorem Routing.of_open (h : Routing svc g seen s) (hw : Rewrites KeepsOpen s s')
    (hs : SameRuntimes s s') : Routing svc g seen s' := by
  refine h.of_commands hs (hw.keyed h.keyed) ?_ fun id => ?_
  · exact rewrites_named hw h.keyed (fun _ _ hk => hk.1) h.commands
  · exact rewrites_quiet hw h.keyed fun _ _ _ _ hk => hk.2

theorem listCommandsForDispatch_frame {limit : Nat} :
    SameRuntimes s (listCommandsForDispatch now nodeId limit s).1 := by
  refine forEachCommand_induct _ (motive := fun a : Store × List DispatchItem =>
    SameRuntimes s a.1) (.refl s) ?_
  intro a command ha _
  unfold dispatchOne
  split
  · exact ha.trans ⟨rfl, rfl, rfl⟩
  · exact ha

theorem listDispatchableCommands_frame {limit : Nat} :
    SameRuntimes s (svc.listDispatchableCommands now nodeId limit s).1 := by
  refine forEachCommand_induct _ (motive := fun a : Store × List DispatchItem =>
    SameRuntimes s a.1) listCommandsForDispatch_frame ?_
  intro a command ha _
  unfold redispatchOne
  split
  · exact ha.trans ⟨rfl, rfl, rfl⟩
  · exact ha

theorem Routing.listCommandsForDispatch (h : Routing svc g seen s) (now : Time) (nodeId : Uuid)
    (limit : Nat) : Routing svc g seen (listCommandsForDispatch now nodeId limit s).1 :=
  h.of_open (listCommandsForDispatch_rewrites keepsOpen_refl keepsOpen_trans nodeId limit h.keyed
    fun c _ => keepsOpen_setCommandStatus rfl c) listCommandsForDispatch_frame

theorem Routing.listDispatchableCommands (h : Routing svc g seen s) (now : Time) (nodeId : Uuid)
    (limit : Nat) : Routing svc g seen (svc.listDispatchableCommands now nodeId limit s).1 :=
  h.of_open (listDispatchableCommands_rewrites keepsOpen_refl keepsOpen_trans h.keyed
    fun c _ => keepsOpen_setCommandStatus rfl c) listDispatchableCommands_frame

theorem Routing.recordCommandAck (h : Routing svc g seen s) {message : Option String} :
    Routing svc g seen (recordCommandAck now nodeId commandId message s) := by
  refine h.of_open (recordCommandAck_rewrites keepsOpen_refl h.keyed
    fun c _ => keepsOpen_setCommandStatus rfl c) ?_
  unfold NodeControlService.recordCommandAck
  split <;> exact ⟨rfl, rfl, rfl⟩

theorem Routing.recordCommandProgress (h : Routing svc g seen s) {message : Option String} :
    Routing svc g seen (recordCommandProgress now nodeId commandId message s) := by
  refine h.of_open (recordCommandProgress_rewrites keepsOpen_refl h.keyed
    fun c _ => keepsOpen_setCommandStatus rfl c) ?_
  unfold NodeControlService.recordCommandProgress
  split <;> exact ⟨rfl, rfl, rfl⟩

/-- Issuing a command of a runtime and noting it on the row. -/
theorem Routing.issue {rest : String} {runtime : LLMRuntime} {status : RuntimeStatus}
    (h : Routing svc g seen s) (hr : s.getRuntime runtime.id = some r)
    (hp : runtime.providerId = r.providerId) (hurl : runtime.endpointUrl = r.endpointUrl)
    (hpayload : req.payload.runtimeId = .uuid runtime.id true)
    (hkey : req.idempotencyKey = some (runtimeKey runtime.id rest))
    (hi : svc.issueCommand draw req s = .ok (s₁, c))
    (hs : s' = setStatus runtime.id status
      (s₁.updateRuntime { runtime with lastCommandId := some c.id })) : Routing svc g seen s' := by
  have w := (((Writes.refl hr h.synced).congr (issueCommand_frame hi)).updateRuntime
    { runtime with lastCommandId := some c.id } rfl).setStatus status
  rw [← hs] at w
  obtain ⟨hnamed, hbusy, hq⟩ := issueCommand_named (P := fun id => (s.getRuntime id).isSome)
    h.keyed hpayload hkey (by rw [hr]; rfl) h.commands hi
  have hcmd : s'.commands = s₁.commands := by
    rw [hs]
    exact setStatus_commands
  have hquiet (id : Uuid) : Quiet s' id ↔ Quiet s₁ id := by
    unfold Quiet
    rw [hcmd]
  have hk₁ : s₁.Keyed :=
    (issueCommand_extends (P := fun _ _ => True) (fun _ => trivial) h.keyed hi
      fun _ _ _ => trivial).keyed h.keyed
  refine h.write w (h.toLinked.write w (keyed_of_commands hcmd hk₁) ?_ ?_ ?_)
    (fun id' _ hq' => hq id' ((hquiet id').1 hq')) (fun _ _ => rfl)
    fun hq' => (hbusy ((hquiet _).1 hq')).elim
  · rw [hcmd]
    intro c hc
    obtain ⟨id, hn, hsome⟩ := hnamed c hc
    exact ⟨id, hn, w.isSome hsome⟩
  · rw [hp]
    exact h.providers _ _ hr
  · rw [hurl]
    exact h.showsUrl hr

/-- Issuing the command of a lifecycle request. -/
theorem Routing.issueLifecycle {action : LifecycleAction} {runtime : LLMRuntime}
    {payload : CommandPayload} (h : Routing llm.nodeControl g seen s)
    (hr : s.getRuntime runtime.id = some r) (hp : runtime.providerId = r.providerId)
    (hurl : runtime.endpointUrl = r.endpointUrl)
    (hpayload : payload.runtimeId = .uuid runtime.id true)
    (hi : llm.issueLifecycle draw action runtime nodeId payload s = .ok s') :
    Routing llm.nodeControl g seen s' := by
  obtain ⟨s₁, command, hissue, hs⟩ := issueLifecycle_eq_ok hi
  exact h.issue hr hp hurl hpayload rfl hissue hs

end LlmPort.Backend
