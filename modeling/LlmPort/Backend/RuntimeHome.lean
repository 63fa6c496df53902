import LlmPort.Backend.ControlPlane
import LlmPort.Backend.Llm.Provisioning

/-!
# The nodes of a runtime

The control plane, with the requests that create and delete runtimes, beside the nodes that execute
its commands. A runtime is at home where its container is, or where a command that may create it is
still to be executed; the state a run must not reach has containers of one runtime on two nodes.
-/

namespace LlmPort.Backend

open Transition NodeControl NodeControlService Store Llm LLMService

/-- The commands whose execution can reach `deploy_workload`: starting and restarting fall back to
it when there is no container. -/
def mayDeploy : NodeCommandType → Bool
  | .deployWorkload | .startWorkload | .restartWorkload | .updateWorkload => true
  | _ => false

namespace NodeControl.Store.CommandSpec

/-- The runtime a command may create a container for. -/
def deploys (c : CommandSpec) : Option Uuid :=
  if mayDeploy c.commandType then runtimeIdOf c.payloadJson else none

end NodeControl.Store.CommandSpec

/-- The database, the workload containers, each as its node and its runtime, and the commands that
were executed: an agent's journal answers a repeated one without executing it. -/
structure Placed where
  store : Store
  containers : List (Uuid × Uuid)
  executed : List Uuid

inductive PlacedEvent where
  | control (e : ControlEvent)
  | create (draw : Draw) (runtimeId : Uuid) (req : CreateRequest)
      (compatible : Except ServiceError Unit) (scheduled : Except ServiceError Uuid)
  | delete (draw : Draw) (runtimeId : Uuid)
  /-- A node executes a command: it removes containers of the runtimes given, and may create the one
  the command is for. -/
  | execute (commandId : Uuid) (removed : List Uuid) (creates : Bool)

namespace Placed

/-- Nothing is deployed, and no command was issued. -/
def initial (s : Store) : Placed := ⟨s, [], []⟩

def execute (commandId : Uuid) (removed : List Uuid) (creates : Bool) (sys : Placed) : Placed :=
  match sys.store.getCommand commandId with
  | none => sys
  | some c =>
    if sys.executed.contains commandId then sys
    else
      let kept := sys.containers.filter fun x => ¬ (x.1 = c.nodeId ∧ removed.contains x.2)
      let created := if creates then (specOf c).deploys.toList else []
      { sys with
        executed := commandId :: sys.executed
        containers := kept ++ created.map (c.nodeId, ·) }

def step (llm : LLMService) (sys : Placed) : PlacedEvent → Placed
  | .control e => { sys with store := controlStep llm sys.store e }
  | .create draw runtimeId req compatible scheduled => { sys with
      store := committed sys.store
        (llm.createOnNode draw runtimeId req compatible scheduled sys.store) }
  | .delete draw runtimeId =>
    { sys with store := committed sys.store (llm.deleteRuntime draw runtimeId sys.store) }
  | .execute commandId removed creates => sys.execute commandId removed creates

/-- The nodes where a command that may create a container of the runtime is to be executed. -/
def awaited (sys : Placed) (runtimeId : Uuid) : List Uuid :=
  (sys.store.specs.filter fun c =>
    ¬ sys.executed.contains c.id ∧ c.deploys = some runtimeId).map (·.nodeId)

/-- The nodes that have a container of the runtime, or may come to have one. -/
def homes (sys : Placed) (runtimeId : Uuid) : List Uuid :=
  (sys.containers.filter (·.2 = runtimeId)).map (·.1) ++ sys.awaited runtimeId

/-- At most one node has a container of the runtime. -/
def OnOneNode (runtimeId : Uuid) (sys : Placed) : Prop :=
  ∀ n n', (n, runtimeId) ∈ sys.containers → (n', runtimeId) ∈ sys.containers → n = n'

/-- The node a request sends a command to that may create a container of the runtime. -/
def target (runtimeId : Uuid) (s : Store) : PlacedEvent → Option Uuid
  | .control (.issue _ req) =>
    if mayDeploy req.commandType ∧ runtimeIdOf req.payload = some runtimeId then some req.nodeId
    else none
  | .control (.lifecycle _ req) =>
    if mayDeploy req.action.commandType ∧ req.runtimeId = runtimeId then requestNode req s else none
  | .create _ id req _ scheduled =>
    if id = runtimeId then (selectNode req.targetNodeId scheduled s).toOption else none
  | _ => none

/-- The request, if it sends such a command, sends it to where the runtime is at home. -/
def staysHome (runtimeId : Uuid) (sys : Placed) (e : PlacedEvent) : Prop :=
  ∀ n ∈ target runtimeId sys.store e, ∀ n' ∈ sys.homes runtimeId, n' = n

-- the nodes to check are those of the lists, not all identifiers
instance {runtimeId : Uuid} {sys : Placed} {e : PlacedEvent} :
    Decidable (staysHome runtimeId sys e) :=
  have (n : Uuid) : Decidable (∀ n' ∈ sys.homes runtimeId, n' = n) := List.decidableBAll ..
  Option.decidableForallMem _

variable {llm : LLMService} {runtimeId n : Uuid} {s s' : Store} {sys : Placed} {e : PlacedEvent}

/-! ## The commands a request adds -/

theorem issueCommand_specs {svc : NodeControlService} {draw : Draw} {req : CommandRequest}
    {command : InfraNodeCommand} (hk : s.Keyed)
    (h : svc.issueCommand draw req s = .ok (s', command)) :
    s'.specs = s.specs ∨
      s'.specs = s.specs ++ [specOf (svc.queuedCommand draw req (requestKey draw req))] := by
  rcases issueCommand_cases h with ⟨_, _, rfl⟩ | ⟨s₁, ⟨_, rfl⟩ | ⟨old, ho, _, rfl⟩, rfl, rfl, _⟩
  · exact .inl rfl
  · exact .inr withCommand_specs
  · have hold := hk.getCommand (List.mem_of_find?_eq_some ho)
    have hrw : Rewrites (fun _ _ => True) s (s.updateCommand
        { old with idempotencyKey := retiredKey (requestKey draw req) old.id }) :=
      .updateCommand (fun _ => trivial) hk hold trivial rfl
    exact .inr (withCommand_specs.trans (by rw [hrw.specs]))

theorem createOnNode_eq_ok {draw : Draw} {req : CreateRequest}
    {compatible : Except ServiceError Unit}
    {scheduled : Except ServiceError Uuid}
    (h : llm.createOnNode draw runtimeId req compatible scheduled s = .ok s') :
    ∃ nodeId payload s₀ s₁ command, selectNode req.targetNodeId scheduled s = .ok nodeId ∧
      payload.runtimeId = .uuid runtimeId true ∧ s₀.commands = s.commands ∧
      llm.nodeControl.issueCommand draw
        (llm.deployRequest (createdRow runtimeId req nodeId) nodeId payload) s₀ = .ok (s₁, command) ∧
      s'.commands = s₁.commands := by
  unfold createOnNode at h
  split at h
  next => cases h
  next => cases h
  next provider model hprov hmodel =>
    split at h
    next => cases h
    next =>
      split at h
      next => cases h
      next =>
        split at h
        next => cases h
        next nodeId hn =>
          dsimp only at h
          split at h
          next => cases h
          next s₁ command hi =>
            cases h
            refine ⟨nodeId, _, _, s₁, command, hn, rfl, ?_, hi, setStatus_commands⟩
            exact upsertWorkloadAssignment_commands

theorem deleteRuntime_eq_ok {draw : Draw} (h : llm.deleteRuntime draw runtimeId s = .ok s') :
    s'.commands = s.commands ∨ ∃ runtime nodeId s₁ command,
      llm.nodeControl.issueCommand draw (llm.removeRequest runtime nodeId) s = .ok (s₁, command) ∧
      s'.commands = s₁.commands := by
  unfold deleteRuntime at h
  split at h
  next => cases h
  next runtime hr =>
    dsimp only at h
    split at h
    next nodeId hn =>
      split at h
      next => cases h
      next s₁ command hi =>
        cases h
        exact .inr ⟨runtime, nodeId, s₁, command, hi, syncCall_commands⟩
    next =>
      cases h
      exact .inl (syncCall_commands.trans teardownRuntime_commands)

theorem specs_congr (h : s'.commands = s.commands) : s'.specs = s.specs := by
  simp only [specs, h]

theorem keyed_congr (h : s'.specs = s.specs) (hk : s.Keyed) : s'.Keyed := by
  unfold Keyed
  rwa [h]

/-- What a request leaves of the command table: the commands it had, and at most one more. If that
one may create a container of a runtime, it is for the target of the request. -/
structure Adds (target : Uuid → Option Uuid) (s s' : Store) : Prop where
  keyed : s'.Keyed
  specs : s'.specs = s.specs ∨ ∃ c, s'.specs = s.specs ++ [c] ∧
    ∀ runtimeId, c.deploys = some runtimeId → target runtimeId = some c.nodeId

variable {target : Uuid → Option Uuid}

theorem Adds.same (hk : s.Keyed) (h : s'.specs = s.specs) : Adds target s s' :=
  ⟨keyed_congr h hk, .inl h⟩

theorem Adds.of_issueCommand {s₀ s₁ : Store} {draw : Draw} {req : CommandRequest}
    {command : InfraNodeCommand} (hk : s.Keyed) (h₀ : s₀.commands = s.commands)
    (h : llm.nodeControl.issueCommand draw req s₀ = .ok (s₁, command))
    (h₁ : s'.commands = s₁.commands)
    (hc : ∀ runtimeId, mayDeploy req.commandType → runtimeIdOf req.payload = some runtimeId →
      target runtimeId = some req.nodeId) : Adds target s s' where
  keyed := by
    have hk₀ := keyed_congr (specs_congr h₀) hk
    have hx : Extends (fun _ _ => True) s₀ s₁ :=
      issueCommand_extends (fun _ => trivial) hk₀ h fun _ _ _ => trivial
    exact keyed_congr (specs_congr h₁) (hx.keyed hk₀)
  specs := by
    rw [specs_congr h₁, ← specs_congr h₀]
    refine (issueCommand_specs (keyed_congr (specs_congr h₀) hk) h).imp_right fun hs => ?_
    refine ⟨_, hs, fun runtimeId hd => ?_⟩
    unfold CommandSpec.deploys at hd
    split at hd
    next hm => exact hc runtimeId hm hd
    next => cases hd

theorem adds_controlStep (llm : LLMService) (e : ControlEvent) (hk : s.Keyed) :
    Adds (Placed.target · s (.control e)) s (controlStep llm s e) := by
  cases e with
  | issue draw req =>
    simp only [controlStep, committed]
    cases hi : llm.nodeControl.issueCommand draw req s with
    | error => exact .same hk rfl
    | ok r =>
      refine .of_issueCommand hk rfl hi rfl fun runtimeId hm hr => ?_
      exact if_pos ⟨hm, hr⟩
  | lifecycle draw req =>
    simp only [controlStep, committed]
    cases hi : llm.handle draw req s with
    | error => exact .same hk rfl
    | ok s' =>
      rcases handle_cases hi with ⟨⟨h⟩⟩ | ⟨-, h⟩
      · have h₀ : h.s₀.commands = s.commands := by
          rcases h.s₀_eq with e | e <;> rw [e]
          rfl
        have h₁ : s'.commands = h.s₁.commands :=
          (congrArg Store.commands h.s'_eq).trans setStatus_commands
        refine .of_issueCommand hk h₀ h.issued h₁ fun runtimeId hm hr => ?_
        have hid : req.runtimeId = runtimeId := by
          simpa [lifecycleRequest, runtimeIdOf, h.payload_id, h.id_eq] using hr
        exact (if_pos ⟨hm, hid⟩).trans h.node_eq
      · exact .same hk (specs_congr h.commands)
  | _ => exact .same hk (controlStep_specs hk trivial)

theorem adds_createOnNode {draw : Draw} {req : CreateRequest}
    {compatible : Except ServiceError Unit}
    {scheduled : Except ServiceError Uuid} (hk : s.Keyed)
    (h : llm.createOnNode draw runtimeId req compatible scheduled s = .ok s') :
    Adds (Placed.target · s (.create draw runtimeId req compatible scheduled)) s s' := by
  obtain ⟨nodeId, payload, s₀, s₁, command, hn, hp, h₀, hi, h₁⟩ := createOnNode_eq_ok h
  refine .of_issueCommand hk h₀ hi h₁ fun id _ hr => ?_
  have hid : runtimeId = id := by
    simpa [deployRequest, provisioningRequest, runtimeIdOf, hp] using hr
  simp [Placed.target, hid, hn, deployRequest, provisioningRequest, Except.toOption]

theorem adds_deleteRuntime {draw : Draw} (hk : s.Keyed)
    (h : llm.deleteRuntime draw runtimeId s = .ok s') :
    Adds (Placed.target · s (.delete draw runtimeId)) s s' := by
  rcases deleteRuntime_eq_ok h with h | ⟨runtime, nodeId, s₁, command, hi, h₁⟩
  · exact .same hk (specs_congr h)
  · exact .of_issueCommand hk rfl hi h₁ fun _ hm _ => nomatch hm

/-! ## A runtime that stays at home -/

theorem mem_homes : n ∈ sys.homes runtimeId ↔ (n, runtimeId) ∈ sys.containers ∨
    ∃ c ∈ sys.store.specs, c.id ∉ sys.executed ∧ c.deploys = some runtimeId ∧ c.nodeId = n := by
  simp [homes, awaited, and_assoc]

/-- All homes of the runtime are one node. -/
structure OneHome (runtimeId : Uuid) (sys : Placed) : Prop where
  keyed : sys.store.Keyed
  same : ∀ n ∈ sys.homes runtimeId, ∀ n' ∈ sys.homes runtimeId, n = n'

theorem OneHome.onOneNode (h : OneHome runtimeId sys) :
    OnOneNode runtimeId sys := fun n n' hn hn' =>
  h.same n (mem_homes.2 (.inl hn)) n' (mem_homes.2 (.inl hn'))

theorem oneHome_initial (hs : s.commands = []) : OneHome runtimeId (initial s) where
  keyed := by simp [Keyed, specs, initial, hs]
  same n hn := by simp [homes, awaited, initial, specs, hs] at hn

theorem OneHome.of_subset {sys' : Placed} (h : OneHome runtimeId sys) (hk : sys'.store.Keyed)
    (hs : sys'.homes runtimeId ⊆ sys.homes runtimeId) : OneHome runtimeId sys' :=
  ⟨hk, fun n hn n' hn' => h.same n (hs hn) n' (hs hn')⟩

/-- A request that sends no command away from home keeps the runtime at one. -/
theorem OneHome.request (h : OneHome runtimeId sys)
    (ha : Adds (Placed.target · sys.store e) sys.store s') (hok : staysHome runtimeId sys e) :
    OneHome runtimeId { sys with store := s' } := by
  refine ⟨ha.keyed, ?_⟩
  rcases ha.specs with hs | ⟨c, hs, hc⟩
  · have hhomes : ({ sys with store := s' } : Placed).homes runtimeId = sys.homes runtimeId := by
      simp only [homes, awaited, hs]
    rw [hhomes]
    exact h.same
  · have hcases : ∀ n ∈ ({ sys with store := s' } : Placed).homes runtimeId,
        n ∈ sys.homes runtimeId ∨ n ∈ Placed.target runtimeId sys.store e := by
      intro n hn
      rcases mem_homes.1 hn with hn | ⟨d, hd, hx, hr, rfl⟩
      · exact .inl (mem_homes.2 (.inl hn))
      · rcases List.mem_append.1 (hs ▸ hd) with hd | hd
        · exact .inl (mem_homes.2 (.inr ⟨d, hd, hx, hr, rfl⟩))
        · rw [List.mem_singleton.1 hd] at hr ⊢
          exact .inr (hc runtimeId hr)
    intro n hn n' hn'
    rcases hcases n hn with hn | hn <;> rcases hcases n' hn' with hn' | hn'
    · exact h.same n hn n' hn'
    · exact hok n' hn' n hn
    · exact (hok n hn n' hn').symm
    · exact Option.some.inj (hn.symm.trans hn')

/-- Executing a command creates a container only where the command was awaited. -/
theorem homes_execute_subset {commandId : Uuid} {removed : List Uuid} {creates : Bool} :
    (sys.execute commandId removed creates).homes runtimeId ⊆ sys.homes runtimeId := by
  unfold execute
  split
  next => exact fun _ hn => hn
  next c hc =>
    split
    next => exact fun _ hn => hn
    next hx =>
      intro n hn
      rcases mem_homes.1 hn with hn | ⟨d, hd, hdx, hr⟩
      · rcases List.mem_append.1 hn with hn | hn
        · exact mem_homes.2 (.inl (List.mem_of_mem_filter hn))
        · obtain ⟨r, hr, heq⟩ := List.mem_map.1 hn
          cases heq
          have hd : (specOf c).deploys = some runtimeId := by
            split at hr
            · exact Option.mem_toList.1 hr
            · cases hr
          refine mem_homes.2 (.inr ⟨specOf c, List.mem_map_of_mem (getCommand_mem hc), ?_, hd, rfl⟩)
          have hid : (specOf c).id = commandId := getCommand_id hc
          simpa [hid] using hx
      · exact mem_homes.2 (.inr ⟨d, hd, fun h => hdx (List.mem_cons_of_mem _ h), hr⟩)

theorem OneHome.step (h : OneHome runtimeId sys) (hok : staysHome runtimeId sys e) :
    OneHome runtimeId (sys.step llm e) := by
  have hk := h.keyed
  cases e with
  | control e => exact h.request (adds_controlStep llm e hk) hok
  | create draw id req compatible scheduled =>
    refine h.request ?_ hok
    unfold committed
    split
    next s' hs => exact adds_createOnNode hk hs
    next => exact .same hk rfl
  | delete draw id =>
    refine h.request ?_ hok
    unfold committed
    split
    next s' hs => exact adds_deleteRuntime hk hs
    next => exact .same hk rfl
  | execute commandId removed creates =>
    refine h.of_subset ?_ homes_execute_subset
    have hs : (sys.execute commandId removed creates).store = sys.store := by
      unfold execute
      split
      · rfl
      · split <;> rfl
    exact (congrArg Keyed hs).mpr hk

/-- In a run in which the runtime's commands are only sent to where it is at home, however its nodes
execute them, at most one node has a container of the runtime. -/
theorem onOneNode_of_staysHome (llm : LLMService) (s : Store) (runtimeId : Uuid)
    (es : List PlacedEvent) (hs : s.commands = [])
    (H : Guarded (step llm) (staysHome runtimeId) (initial s) es) :
    Always (step llm) (OnOneNode runtimeId) (initial s) es :=
  H.always (fun _ _ h hok => OneHome.step h hok) (fun _ h => h.onOneNode) (oneHome_initial hs)

/-- Nodes 7 and 8, a provider and a model. -/
def twoNodes : Store :=
  { oneRuntime 7 9 with
    nodes := [⟨7, "10.0.0.7", .healthy, false, false, true, 0⟩,
      ⟨8, "10.0.0.8", .healthy, false, false, true, 0⟩]
    runtimes := [] }

/-- Runtime 9 is created on node 7, as command 1, which the node executes. -/
def createdOnSeven : List PlacedEvent :=
  [.create ⟨0, 1, 101⟩ 9
      ⟨"llama", 20, 30, "{}", ⟨"", "", "", "", "", "", "", "", "{}"⟩, true, none, "{}", "", ""⟩
      (.ok ()) (.ok 7),
    .execute 1 [9] true]

/-- An update of runtime 9 that may move it, as command 2, which the node executes. -/
def updatedTo (targetNodeId : Option Uuid) : List PlacedEvent :=
  [.control (.lifecycle ⟨seconds 1, 2, 102⟩
      (.update 9 ⟨none, none, none, none, targetNodeId, "{}"⟩ ⟨.ok 7, none⟩)),
    .execute 2 [9] true]

theorem onOneNode_updated_in_place :
    Always (step .plain) (OnOneNode 9) (initial twoNodes) (createdOnSeven ++ updatedTo none) :=
  onOneNode_of_staysHome .plain twoNodes 9 _ rfl (by decide)

/-- The runtime moves to node 8: no command removes its container from node 7. -/
theorem not_onOneNode_moved :
    ¬ Always (step .plain) (OnOneNode 9) (initial twoNodes) (createdOnSeven ++ updatedTo (some 8)) := by
  intro h
  have hmoved := h _ List.prefix_rfl 7 8 (by decide) (by decide)
  exact absurd hmoved (by decide)

end Placed

end LlmPort.Backend
