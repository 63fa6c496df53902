import LlmPort.Backend.GatewayMirror
import LlmPort.Backend.NodeControl.UuidText

/-!
# Rules for the routing invariant

`shown` is the instance of a runtime once the calls of a store are carried out. `Writes` says what
an operation leaves on one runtime and its instance and that it leaves the others alone; the rules
below build it along an operation, and `Routing.write` turns it into the invariant.
-/

namespace LlmPort.Backend

open Transition NodeControl NodeControlService Store Llm LLMService

/-- The instance of a runtime once the calls of the store are carried out. -/
def shown (g : GatewayDb) (s : Store) (id : Uuid) : Option ProviderInstance :=
  (deliver g s).instances.find? (·.id = id)

def withHealth (health : InstanceHealth) (x : ProviderInstance) : ProviderInstance :=
  { x with healthStatus := healthText health }

variable {svc : NodeControlService} {g g' g₁ : GatewayDb} {s s' s₁ : Store} {id id' : Uuid}
  {r r' : LLMRuntime} {x' : Option ProviderInstance} {up : Prop}

theorem shown_congr (h : s'.syncCalls = s.syncCalls) : shown g s' id = shown g s id := by
  unfold shown deliver
  rw [h]

theorem deliver_call {c : SyncCall} : deliver g (s.call c) = applySync (deliver g s) c :=
  List.foldl_append

theorem find?_setInstanceHealth {health : String} :
    (g.setInstanceHealth id' health).instances.find? (·.id = id) =
      (g.instances.find? (·.id = id)).map fun x =>
        if id = id' then { x with healthStatus := health } else x := by
  unfold GatewayDb.setInstanceHealth
  rw [List.find?_map]
  have hkey : ((fun x : ProviderInstance => decide (x.id = id)) ∘ fun x =>
      if x.id = id' then { x with healthStatus := health } else x) =
        fun x => decide (x.id = id) := by
    funext x
    rw [Function.comp_apply]
    split <;> rfl
  rw [hkey]
  cases hx : g.instances.find? (·.id = id) with
  | none => rfl
  | some x =>
    have hid : x.id = id := by simpa using List.find?_some hx
    rw [Option.map_some, Option.map_some, hid]

theorem find?_publishRuntime {name : String} {req : PublishRequest} :
    (g.publishRuntime id' name req).instances.find? (·.id = id) =
      if id = id' then some (GatewayDb.publishedInstance id' req)
      else g.instances.find? (·.id = id) := by
  unfold GatewayDb.publishRuntime
  rw [find?_upsert (fun _ hy => hy.symm)]
  split
  next hid =>
    have hid : id = id' := hid
    rw [if_pos hid]
    cases g.instances.find? (·.id = id) <;> rfl
  next hid =>
    have hid : ¬ id = id' := hid
    rw [if_neg hid]

theorem find?_unpublishRuntime {name : String} :
    (g.unpublishRuntime id' name).instances.find? (·.id = id) =
      if id = id' then none else g.instances.find? (·.id = id) := by
  unfold GatewayDb.unpublishRuntime
  rw [List.find?_filter]
  split
  next hid =>
    subst hid
    refine List.find?_eq_none.2 fun x _ => ?_
    by_cases hx : x.id = id <;> simp [hx]
  next hid =>
    congr 1
    funext x
    by_cases hx : x.id = id <;> simp [hx, hid]

/-- The second store has the runtimes, the providers and the calls of the first. -/
structure SameRuntimes (s s' : Store) : Prop where
  runtimes : s'.runtimes = s.runtimes
  providers : s'.providers = s.providers
  syncCalls : s'.syncCalls = s.syncCalls

theorem SameRuntimes.refl (s : Store) : SameRuntimes s s := ⟨rfl, rfl, rfl⟩

theorem SameRuntimes.trans (h₁ : SameRuntimes s s₁) (h₂ : SameRuntimes s₁ s') : SameRuntimes s s' :=
  ⟨h₂.runtimes.trans h₁.runtimes, h₂.providers.trans h₁.providers,
    h₂.syncCalls.trans h₁.syncCalls⟩

/-- What an operation leaves on a runtime and its instance; the others it leaves alone. -/
structure Writes (svc : NodeControlService) (g : GatewayDb) (id : Uuid) (s s' : Store)
    (r' : LLMRuntime) (x' : Option ProviderInstance) : Prop where
  runtime : ∀ id' ≠ id, s'.getRuntime id' = s.getRuntime id'
  instances : ∀ id' ≠ id, shown g s' id' = shown g s id'
  providers : s'.providers = s.providers
  row : s'.getRuntime id = some r'
  published : shown g s' id = x'
  synced : svc.gatewaySync = false → x' = none

namespace Writes

variable {x : Option ProviderInstance}

theorem refl (hr : s.getRuntime id = some r)
    (hs : svc.gatewaySync = false → ∀ id, shown g s id = none) :
    Writes svc g id s s r (shown g s id) :=
  ⟨fun _ _ => rfl, fun _ _ => rfl, rfl, hr, rfl, fun h => hs h id⟩

theorem congr (w : Writes svc g id s s₁ r x) (h : SameRuntimes s₁ s') :
    Writes svc g id s s' r x where
  runtime id' hne := (getRuntime_congr h.runtimes).trans (w.runtime id' hne)
  instances id' hne := (shown_congr h.syncCalls).trans (w.instances id' hne)
  providers := h.providers.trans w.providers
  row := (getRuntime_congr h.runtimes).trans w.row
  published := (shown_congr h.syncCalls).trans w.published
  synced := w.synced

theorem call {c : SyncCall} (w : Writes svc g id s s₁ r x) (hc : ∀ g, applySync g c = g) :
    Writes svc g id s (s₁.call c) r x := by
  have hshown : ∀ id', shown g (s₁.call c) id' = shown g s₁ id' := fun id' => by
    unfold shown
    rw [deliver_call, hc]
  exact ⟨w.runtime, fun id' hne => (hshown id').trans (w.instances id' hne), w.providers, w.row,
    (hshown id).trans w.published, w.synced⟩

theorem updateRuntime (w : Writes svc g id s s₁ r x) (r' : LLMRuntime) (hid : r'.id = id) :
    Writes svc g id s (s₁.updateRuntime r') r' x where
  runtime id' hne := by
    rw [getRuntime_updateRuntime_of_ne (by rwa [hid])]
    exact w.runtime id' hne
  instances := w.instances
  providers := w.providers
  row := by
    subst hid
    exact getRuntime_updateRuntime_self w.row
  published := w.published
  synced := w.synced

theorem setStatus (w : Writes svc g id s s₁ r x) (status : RuntimeStatus) :
    Writes svc g id s (setStatus id status s₁)
      { r with status, statusMessage := if status = .error then r.statusMessage else none } x := by
  unfold LLMService.setStatus
  rw [w.row]
  have hid : r.id = id := getRuntime_id w.row
  exact w.updateRuntime _ hid

/-- A call that only an environment with a gateway database makes. -/
theorem syncCall {c : SyncCall} (w : Writes svc g id s s₁ r x)
    (hother : ∀ id' ≠ id, (applySync (deliver g s₁) c).instances.find? (·.id = id') =
      (deliver g s₁).instances.find? (·.id = id'))
    (hself : (applySync (deliver g s₁) c).instances.find? (·.id = id) = x')
    (hnone : x = none → svc.gatewaySync = false → x' = none) :
    Writes svc g id s (svc.syncCall c s₁) r x' := by
  unfold NodeControlService.syncCall
  split
  next hsync =>
    refine ⟨w.runtime, fun id' hne => ?_, w.providers, w.row, ?_, fun h => by simp [h] at hsync⟩
    · rw [← w.instances id' hne]
      unfold shown
      rw [deliver_call]
      exact hother id' hne
    · unfold shown
      rw [deliver_call]
      exact hself
  next hsync =>
    have hsync : svc.gatewaySync = false := by simpa using hsync
    have hx := w.synced hsync
    have hx' := hnone hx hsync
    exact ⟨w.runtime, w.instances, w.providers, w.row, by rw [w.published, hx, hx'], fun _ => hx'⟩

theorem health (w : Writes svc g id s s₁ r x) (health : InstanceHealth) :
    Writes svc g id s (svc.syncCall (.setInstanceHealth id health) s₁) r
      (x.map (withHealth health)) := by
  refine w.syncCall (fun id' hne => ?_) ?_ fun hx _ => by rw [hx]; rfl
  · refine find?_setInstanceHealth.trans ?_
    simp only [if_neg hne, Option.map_id']
  · refine find?_setInstanceHealth.trans ?_
    simp only [if_true]
    rw [← w.published]
    rfl

theorem unpublish {name : String} (w : Writes svc g id s s₁ r x) :
    Writes svc g id s (svc.syncCall (.unpublishRuntime id name) s₁) r none := by
  refine w.syncCall (fun id' hne => ?_) ?_ fun _ _ => rfl
  · exact find?_unpublishRuntime.trans (if_neg hne)
  · exact find?_unpublishRuntime.trans (if_pos rfl)

/-- A runtime that has an endpoint is published with it. -/
theorem publish {url : EndpointUrl} (w : Writes svc g id s s₁ r x) (hid : r'.id = id)
    (hurl : r'.endpointUrl = some url) (hp : (s₁.getProvider r'.providerId).isSome) :
    ∃ x', Writes svc g id s (svc.publishRuntimeToGateway r' s₁) r x' ∧
      ShowsUrl x' (some url) ∧ Shows x' True := by
  obtain ⟨provider, hprov⟩ := Option.isSome_iff_exists.1 hp
  unfold publishRuntimeToGateway
  split
  next hsync =>
    rw [hurl, hprov]
    let req := nodePublishRequest url provider.type .healthy
      ((s₁.getModel r'.modelId).bind fun model => model.hfRepoId.filter (· ≠ "")) r'.assignedNodeId
      r'.executionTarget r'.desiredState
    refine ⟨some (GatewayDb.publishedInstance r'.id req),
      ⟨w.runtime, fun id' hne => ?_, w.providers, w.row, ?_, ?_⟩, ?_, ?_⟩
    · rw [← w.instances id' hne]
      unfold shown
      rw [deliver_call]
      exact find?_publishRuntime.trans (if_neg (by rwa [hid]))
    · unfold shown
      rw [deliver_call]
      exact find?_publishRuntime.trans (if_pos hid.symm)
    · intro h
      simp [h] at hsync
    · intro x hx
      cases hx
      rfl
    · intro x hx
      cases hx
      exact iff_of_true rfl trivial
  next hsync =>
    have hx := w.synced (by simpa using hsync)
    subst hx
    exact ⟨none, w, fun _ h => (Option.some_ne_none _ h.symm).elim,
      fun _ h => (Option.some_ne_none _ h.symm).elim⟩

end Writes

/-- The form of the idempotency keys of a runtime's commands. -/
def runtimeKey (id : Uuid) (rest : String) : String := s!"runtime:{uuidStr id}:{rest}"

/-- The command was issued for the runtime: its payload and its key name it. -/
def NamedBy (c : InfraNodeCommand) (id : Uuid) : Prop :=
  c.payloadJson.runtimeId = .uuid id true ∧ ∃ rest, c.idempotencyKey = runtimeKey id rest

/-- What holds of the two databases whatever the commands in flight: each command is for a runtime
that exists, and each instance shows the endpoint of its runtime. -/
structure Linked (svc : NodeControlService) (g : GatewayDb) (s : Store) : Prop where
  keyed : s.Keyed
  commands : ∀ c ∈ s.commands, ∃ id, NamedBy c id ∧ (s.getRuntime id).isSome
  providers : ∀ id r, s.getRuntime id = some r → (s.getProvider r.providerId).isSome
  synced : svc.gatewaySync = false → ∀ id, shown g s id = none
  linked : ∀ id, (shown g s id).isSome →
    ∃ r, s.getRuntime id = some r ∧ ShowsUrl (shown g s id) r.endpointUrl

/-- The routing invariant. -/
structure Routing (svc : NodeControlService) (g : GatewayDb) (seen : Uuid → Bool) (s : Store) :
    Prop extends Linked svc g s where
  health : ∀ id r, s.getRuntime id = some r → Quiet s id →
    Shows (shown g s id) (r.status = .running ∧ seen id = false)

variable {seen seen' : Uuid → Bool} {x : Option ProviderInstance}

theorem Linked.showsUrl (h : Linked svc g s) (hr : s.getRuntime id = some r) :
    ShowsUrl (shown g s id) r.endpointUrl := by
  intro y hy
  obtain ⟨r₁, hr₁, hurl⟩ := h.linked id (by rw [hy]; rfl)
  rw [hr] at hr₁
  cases hr₁
  exact hurl y hy

theorem Shows.congr {up' : Prop} (h : Shows x up) (hup : up ↔ up') : Shows x up' :=
  fun y hy => (h y hy).trans hup

/-- An instance that is set unhealthy shows no runtime up. -/
theorem shows_unhealthy (hup : ¬ up) : Shows (x.map (withHealth .unhealthy)) up := by
  intro y hy
  obtain ⟨z, -, rfl⟩ := Option.map_eq_some_iff.1 hy
  exact iff_of_false (by decide : ¬ "unhealthy" = "healthy") hup

theorem shows_healthy (hup : x.isSome → up) : Shows (x.map (withHealth .healthy)) up := by
  intro y hy
  obtain ⟨z, hz, rfl⟩ := Option.map_eq_some_iff.1 hy
  exact iff_of_true rfl (hup (by rw [hz]; rfl))

theorem ShowsUrl.withHealth {url : Option EndpointUrl} {health : InstanceHealth}
    (h : ShowsUrl x url) : ShowsUrl (x.map (withHealth health)) url := by
  intro y hy
  obtain ⟨z, hz, rfl⟩ := Option.map_eq_some_iff.1 hy
  exact h z hz

theorem shows_none : Shows none up := fun _ h => (Option.some_ne_none _ h.symm).elim

theorem showsUrl_none {url : Option EndpointUrl} : ShowsUrl none url :=
  fun _ h => (Option.some_ne_none _ h.symm).elim

theorem keyed_of_commands (h : s'.commands = s.commands) (hk : s.Keyed) : s'.Keyed := by
  unfold Keyed specs
  rw [h]
  exact hk

theorem Writes.isSome (w : Writes svc g id s s' r' x') (h : (s.getRuntime id').isSome) :
    (s'.getRuntime id').isSome := by
  by_cases hid : id' = id
  · rw [hid, w.row]
    rfl
  · rwa [w.runtime id' hid]

theorem Linked.write (h : Linked svc g s) (w : Writes svc g id s s' r' x') (hk : s'.Keyed)
    (hc : ∀ c ∈ s'.commands, ∃ id, NamedBy c id ∧ (s'.getRuntime id).isSome)
    (hp : (s.getProvider r'.providerId).isSome) (hurl : ShowsUrl x' r'.endpointUrl) :
    Linked svc g s' where
  keyed := hk
  commands := hc
  providers id' r hr := by
    have hprov : s'.getProvider r.providerId = s.getProvider r.providerId := by
      simp only [Store.getProvider, w.providers]
    rw [hprov]
    by_cases hid : id' = id
    · rw [hid, w.row] at hr
      cases hr
      exact hp
    · rw [w.runtime id' hid] at hr
      exact h.providers id' r hr
  synced hsync id' := by
    by_cases hid : id' = id
    · rw [hid, w.published, w.synced hsync]
    · rw [w.instances id' hid, h.synced hsync]
  linked id' hsome := by
    by_cases hid : id' = id
    · subst hid
      exact ⟨r', w.row, by rwa [w.published]⟩
    · rw [w.instances id' hid] at hsome ⊢
      rw [w.runtime id' hid]
      exact h.linked id' hsome

/-- The invariant after an operation on one runtime. -/
theorem Routing.write (h : Routing svc g seen s) (w : Writes svc g id s s' r' x')
    (h' : Linked svc g s') (hq : ∀ id' ≠ id, Quiet s' id' → Quiet s id')
    (hseen : ∀ id' ≠ id, seen' id' = seen id')
    (hh : Quiet s' id → Shows x' (r'.status = .running ∧ seen' id = false)) :
    Routing svc g seen' s' where
  toLinked := h'
  health id' r hr hquiet := by
    by_cases hid : id' = id
    · subst hid
      rw [w.row] at hr
      cases hr
      rw [w.published]
      exact hh hquiet
    · rw [w.runtime id' hid] at hr
      rw [w.instances id' hid, hseen id' hid]
      exact h.health id' r hr (hq id' hid hquiet)

theorem Linked.write_row (h : Linked svc g s) (w : Writes svc g id s s' r' x')
    (hc : s'.commands = s.commands) (hp : (s.getProvider r'.providerId).isSome)
    (hurl : ShowsUrl x' r'.endpointUrl) : Linked svc g s' := by
  refine h.write w ?_ ?_ hp hurl
  · exact keyed_of_commands hc h.keyed
  · rw [hc]
    intro c hm
    obtain ⟨id', hn, hs⟩ := h.commands c hm
    exact ⟨id', hn, w.isSome hs⟩

/-- The invariant after an operation on one runtime that leaves the commands. -/
theorem Routing.write_row (h : Routing svc g seen s) (w : Writes svc g id s s' r' x')
    (hc : s'.commands = s.commands) (hp : (s.getProvider r'.providerId).isSome)
    (hurl : ShowsUrl x' r'.endpointUrl) (hseen : ∀ id' ≠ id, seen' id' = seen id')
    (hh : Quiet s id → Shows x' (r'.status = .running ∧ seen' id = false)) :
    Routing svc g seen' s' := by
  have hq (id' : Uuid) : Quiet s' id' ↔ Quiet s id' := by
    unfold Quiet
    rw [hc]
  exact h.write w (h.toLinked.write_row w hc hp hurl) (fun id' _ => (hq id').1) hseen
    fun hquiet => hh ((hq id).1 hquiet)

/-- The invariant after an operation that leaves the endpoint of its runtime. -/
theorem Routing.write_kept (h : Routing svc g seen s) (hr : s.getRuntime id = some r)
    (w : Writes svc g id s s' r' x') (hc : s'.commands = s.commands)
    (hp : r'.providerId = r.providerId) (hurl : r'.endpointUrl = r.endpointUrl)
    (hx : ∀ url, ShowsUrl (shown g s id) url → ShowsUrl x' url)
    (hh : Quiet s id → Shows x' (r'.status = .running ∧ seen id = false)) :
    Routing svc g seen s' := by
  refine h.write_row w hc ?_ ?_ (fun _ _ => rfl) hh
  · rw [hp]
    exact h.providers _ _ hr
  · rw [hurl]
    exact hx _ (h.showsUrl hr)

/-- The invariant after an operation on the commands alone. -/
theorem Routing.of_commands (h : Routing svc g seen s) (hs : SameRuntimes s s') (hk : s'.Keyed)
    (hc : ∀ c ∈ s'.commands, ∃ id, NamedBy c id ∧ (s.getRuntime id).isSome)
    (hq : ∀ id, Quiet s' id → Quiet s id) : Routing svc g seen s' where
  keyed := hk
  commands c hm := by
    obtain ⟨id, hn, hsome⟩ := hc c hm
    exact ⟨id, hn, by rwa [getRuntime_congr hs.runtimes]⟩
  providers id r hrow := by
    rw [getRuntime_congr hs.runtimes] at hrow
    simp only [Store.getProvider, hs.providers]
    exact h.providers id r hrow
  synced hsync id := (shown_congr hs.syncCalls).trans (h.synced hsync id)
  linked id hsome := by
    rw [shown_congr hs.syncCalls] at hsome ⊢
    rw [getRuntime_congr hs.runtimes]
    exact h.linked id hsome
  health id r hrow hquiet := by
    rw [getRuntime_congr hs.runtimes] at hrow
    rw [shown_congr hs.syncCalls]
    exact h.health id r hrow (hq id hquiet)

/-- The state of knowledge about a runtime that does not exist matters to nobody. -/
theorem Routing.seen_of_absent (h : Routing svc g seen s) (hnew : s.getRuntime id = none)
    (hseen : ∀ id' ≠ id, seen' id' = seen id') : Routing svc g seen' s := by
  refine ⟨h.toLinked, fun id' r hr hq => ?_⟩
  have hne : id' ≠ id := by
    rintro rfl
    rw [hr] at hnew
    cases hnew
  rw [hseen id' hne]
  exact h.health id' r hr hq

/-- The invariant after an operation that touches neither commands nor runtimes. -/
theorem Routing.same (h : Routing svc g seen s) (hs : SameRuntimes s s')
    (hc : s'.commands = s.commands) : Routing svc g seen s' := by
  refine h.of_commands hs (keyed_of_commands hc h.keyed) (by rw [hc]; exact h.commands) ?_
  intro id hq
  unfold Quiet at hq
  rwa [hc] at hq

theorem promoteModelStatus_frame (r : LLMRuntime) : SameRuntimes s (promoteModelStatus r s) := by
  unfold promoteModelStatus
  split
  · exact .refl s
  · split <;> exact ⟨rfl, rfl, rfl⟩

theorem upsertWorkloadAssignment_frame (row : InfraNodeWorkloadAssignment) :
    SameRuntimes s (s.upsertWorkloadAssignment row) := by
  unfold upsertWorkloadAssignment
  split <;> exact ⟨rfl, rfl, rfl⟩

end LlmPort.Backend
