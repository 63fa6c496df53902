import LlmPort.Transition.Run
import LlmPort.Backend.Llm.GatewaySync

/-!
# Publication over runs

The backend's runtimes beside the gateway's routing tables. A runtime is published and unpublished
under the name it has at that time; a rename touches no routing table.
-/

namespace LlmPort.Backend

open Transition NodeControl Llm GatewayDb

/-- A runtime row, with whether it was last published or unpublished. -/
structure RuntimeEntry where
  name : String
  published : Bool

structure Publication where
  gateway : GatewayDb
  runtimes : Uuid → Option RuntimeEntry

inductive PublicationEvent where
  | create (id : Uuid) (name : String)
  | publish (id : Uuid) (req : PublishRequest)
  | rename (id : Uuid) (name : String)
  | unpublish (id : Uuid)
  /-- `delete_runtime`: the runtime is unpublished and its row deleted. -/
  | delete (id : Uuid)
  | setHealth (id : Uuid) (healthStatus : String)

namespace Publication

def setRuntime (pub : Publication) (id : Uuid) (entry : Option RuntimeEntry) : Publication :=
  { pub with runtimes := Function.update pub.runtimes id entry }

def step (pub : Publication) : PublicationEvent → Publication
  | .create id name =>
    -- a runtime's id is drawn fresh
    if pub.runtimes id = none ∧ pub.gateway.aliasesOf id = [] then
      pub.setRuntime id (some ⟨name, false⟩)
    else pub
  | .publish id req => match pub.runtimes id with
    | none => pub
    | some entry => { pub with gateway := pub.gateway.publishRuntime id entry.name req }.setRuntime id
        (some { entry with published := true })
  | .rename id name => match pub.runtimes id with
    | none => pub
    | some entry => pub.setRuntime id (some { entry with name })
  | .unpublish id => match pub.runtimes id with
    | none => pub
    | some entry => { pub with gateway := pub.gateway.unpublishRuntime id entry.name }.setRuntime id
        (some { entry with published := false })
  | .delete id => match pub.runtimes id with
    | none => pub
    | some entry => { pub with gateway := pub.gateway.unpublishRuntime id entry.name }.setRuntime id
        none
  | .setHealth id healthStatus =>
    { pub with gateway := pub.gateway.setInstanceHealth id healthStatus }

/-- A runtime is renamed only while it is not published, or to the name it has. -/
def keepsNames (pub : Publication) : PublicationEvent → Prop
  | .rename id name => ∀ entry, pub.runtimes id = some entry → entry.published → name = entry.name
  | _ => True

end Publication

open Publication

variable {pub : Publication} {e : PublicationEvent} {id : Uuid}

/-- A published runtime is a member of the alias of its name and of no other, an unpublished one of
none, and an alias is enabled exactly while it has an enabled membership. -/
structure Consistent (pub : Publication) : Prop where
  links : ∀ id entry, pub.runtimes id = some entry →
    pub.gateway.aliasesOf id = if entry.published then [entry.name] else []
  aliases : ∀ a ∈ pub.gateway.aliases, a.enabled ↔ pub.gateway.HasEnabled a.name

theorem Consistent.links_setRuntime {gateway : GatewayDb} {entry : Option RuntimeEntry}
    (h : Consistent pub) (hother : ∀ id' ≠ id, gateway.aliasesOf id' = pub.gateway.aliasesOf id')
    (hself : ∀ x, entry = some x → gateway.aliasesOf id = if x.published then [x.name] else []) :
    ∀ id' x, ({ pub with gateway }.setRuntime id entry).runtimes id' = some x →
      gateway.aliasesOf id' = if x.published then [x.name] else [] := by
  intro id' x hx
  by_cases hid : id' = id
  · subst hid
    simp only [setRuntime, Function.update_self] at hx
    exact hself x hx
  · simp only [setRuntime, Function.update_of_ne hid] at hx
    rw [hother id' hid]
    exact h.links id' x hx

/-- The enabled aliases after a publication. -/
theorem Consistent.aliases_publish {name : String} {req : PublishRequest} (h : Consistent pub) :
    ∀ a ∈ (pub.gateway.publishRuntime id name req).aliases,
      a.enabled ↔ (pub.gateway.publishRuntime id name req).HasEnabled a.name := by
  intro a ha
  rw [hasEnabled_publish]
  obtain ⟨ha, hne⟩ | ⟨y, hy, hk, rfl⟩ | ⟨rfl, -⟩ := mem_upsert.1 ha
  · rw [h.aliases a ha]
    exact (or_iff_left hne).symm
  · exact iff_of_true rfl (.inr hk)
  · exact iff_of_true rfl (.inr rfl)

/-- The runtime is a member of no alias but that of its name. -/
theorem Consistent.mem_aliasesOf {entry : RuntimeEntry} {name : String} (h : Consistent pub)
    (hentry : pub.runtimes id = some entry) (hm : name ∈ pub.gateway.aliasesOf id) :
    name = entry.name := by
  rw [h.links id entry hentry] at hm
  split at hm
  · exact List.mem_singleton.1 hm
  · cases hm

/-- Other aliases keep their memberships when a runtime is unpublished under its name. -/
theorem Consistent.hasEnabled_unpublish_of_ne {entry : RuntimeEntry} {name : String}
    (h : Consistent pub) (hentry : pub.runtimes id = some entry) (hne : name ≠ entry.name) :
    (pub.gateway.unpublishRuntime id entry.name).HasEnabled name ↔ pub.gateway.HasEnabled name := by
  rw [hasEnabled_unpublish]
  constructor
  · rintro ⟨m, hm, -, hn, he⟩
    exact ⟨m, hm, hn, he⟩
  · rintro ⟨m, hm, hn, he⟩
    refine ⟨m, hm, fun hid => hne ?_, hn, he⟩
    exact h.mem_aliasesOf hentry (GatewayDb.mem_aliasesOf.2 ⟨m, hm, hid, hn⟩)

/-- The enabled aliases after an unpublication. -/
theorem Consistent.aliases_unpublish {entry : RuntimeEntry} (h : Consistent pub)
    (hentry : pub.runtimes id = some entry) :
    ∀ a ∈ (pub.gateway.unpublishRuntime id entry.name).aliases,
      a.enabled ↔ (pub.gateway.unpublishRuntime id entry.name).HasEnabled a.name := by
  intro a ha
  by_cases hleft : (pub.gateway.unpublishRuntime id entry.name).HasEnabled entry.name
  · rw [aliases_unpublish_of_hasEnabled hleft] at ha
    by_cases hn : a.name = entry.name
    · rw [hn]
      refine iff_of_true ((h.aliases a ha).2 ?_) hleft
      obtain ⟨m, hm, -, hname, he⟩ := hasEnabled_unpublish.1 hleft
      exact ⟨m, hm, hn ▸ hname, he⟩
    · exact (h.aliases a ha).trans (h.hasEnabled_unpublish_of_ne hentry hn).symm
  · rw [aliases_unpublish_of_not_hasEnabled hleft] at ha
    obtain ⟨b, hb, rfl⟩ := List.mem_map.1 ha
    by_cases hn : b.name = entry.name
    · rw [if_pos hn]
      dsimp only
      rw [hn]
      exact iff_of_false Bool.false_ne_true hleft
    · rw [if_neg hn]
      exact (h.aliases b hb).trans (h.hasEnabled_unpublish_of_ne hentry hn).symm

theorem Consistent.unpublish {entry : RuntimeEntry} {left : Option RuntimeEntry}
    (h : Consistent pub)
    (hentry : pub.runtimes id = some entry) (hleft : ∀ x, left = some x → x.published = false) :
    Consistent ({ pub with gateway := pub.gateway.unpublishRuntime id entry.name }.setRuntime id
      left) where
  links := by
    refine h.links_setRuntime (fun id' hne => aliasesOf_unpublish_of_ne hne) fun x hx => ?_
    rw [aliasesOf_unpublish_self, hleft x hx]
    rfl
  aliases := h.aliases_unpublish hentry

theorem Consistent.publish {entry : RuntimeEntry} {req : PublishRequest} (h : Consistent pub)
    (hentry : pub.runtimes id = some entry) :
    Consistent ({ pub with gateway := pub.gateway.publishRuntime id entry.name req }.setRuntime id
      (some { entry with published := true })) where
  links := by
    refine h.links_setRuntime (fun id' hne => aliasesOf_publish_of_ne hne) fun x hx => ?_
    cases hx
    rw [aliasesOf_publish_self, h.links id entry hentry]
    cases entry.published <;> simp
  aliases := h.aliases_publish

theorem Consistent.step (h : Consistent pub) (hok : pub.keepsNames e) :
    Consistent (pub.step e) := by
  cases e with
  | create id name =>
    simp only [Publication.step]
    split
    next hfresh =>
      refine ⟨h.links_setRuntime (fun _ _ => rfl) fun x hx => ?_, h.aliases⟩
      cases hx
      exact hfresh.2
    next => exact h
  | publish id req =>
    simp only [Publication.step]
    split
    next => exact h
    next entry hentry => exact h.publish hentry
  | rename id name =>
    simp only [Publication.step]
    split
    next => exact h
    next entry hentry =>
      refine ⟨h.links_setRuntime (fun _ _ => rfl) fun x hx => ?_, h.aliases⟩
      cases hx
      rw [h.links id entry hentry]
      dsimp only
      split
      next hp => rw [hok entry hentry hp]
      next => rfl
  | unpublish id =>
    simp only [Publication.step]
    split
    next => exact h
    next entry hentry => exact h.unpublish hentry (fun x hx => by cases hx; rfl)
  | delete id =>
    simp only [Publication.step]
    split
    next => exact h
    next entry hentry => exact h.unpublish hentry (fun x hx => by cases hx)
  | setHealth id healthStatus => exact ⟨h.links, h.aliases⟩

/-- A rename of a published runtime leaves it a member of the alias of its old name. -/
theorem keepsNames_of_consistent (h : Consistent pub) (h' : Consistent (pub.step e)) :
    pub.keepsNames e := by
  cases e with
  | rename id name =>
    intro entry hentry hp
    have hold := h.links id entry hentry
    have hstep : pub.step (.rename id name) = pub.setRuntime id (some { entry with name }) := by
      simp only [Publication.step, hentry]
    rw [hstep] at h'
    have hnew := h'.links id { entry with name } (Function.update_self ..)
    have heq : pub.gateway.aliasesOf id = [name] := by simpa [setRuntime, hp] using hnew
    rw [heq, if_pos hp] at hold
    exact (List.cons.inj hold).1
  | _ => trivial

/-- The routing tables follow the runtimes all along a run exactly if they do at its start and no
published runtime is given another name. -/
theorem consistent_iff (pub : Publication) (es : List PublicationEvent) :
    Always Publication.step Consistent pub es ↔
      Consistent pub ∧ Guarded Publication.step keepsNames pub es := by
  constructor
  · intro H
    have h0 : Consistent pub := H [] List.nil_prefix
    refine ⟨h0, (always_iff_guarded (fun pub e h => ?_) h0).1 H⟩
    exact ⟨keepsNames_of_consistent h, h.step⟩
  · rintro ⟨h0, H⟩
    exact (always_iff_guarded (fun pub e h => ⟨keepsNames_of_consistent h, h.step⟩) h0).2 H

/-- No runtime, and empty routing tables. -/
def noRuntimes : Publication := ⟨⟨[], [], []⟩, fun _ => none⟩

def vllmRequest : PublishRequest where
  baseUrl := "http://10.0.0.7:8000".toList
  backendProviderType := "vllm"
  isRemote := false
  healthStatus := "healthy"
  weight := 1
  maxConcurrency := 10
  apiKeyEncrypted := none
  litellmProvider := none
  litellmModel := none
  extraParams := none
  nodeId := none
  nodeMetadata := none
  capacityHints := none

/-- A published runtime is renamed and published again: it stays a member of the alias of its old
name. -/
theorem not_consistent_rename :
    ¬ Always Publication.step Consistent noRuntimes
      [.create 1 "a", .publish 1 vllmRequest, .rename 1 "b", .publish 1 vllmRequest] := by
  intro h
  have hlinks := (h _ List.prefix_rfl).links 1 ⟨"b", true⟩ rfl
  exact absurd hlinks (by decide)

end LlmPort.Backend
