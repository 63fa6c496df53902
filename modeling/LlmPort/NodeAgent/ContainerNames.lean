import LlmPort.Transition.Run
import LlmPort.Backend.Llm.Lifecycle
import LlmPort.Backend.NodeControl.UuidText

/-!
# Container names

`RuntimeManager._container_name` beside the backend's `_node_container_name`, and what the removal
of a stale container does when two runtimes share a name.
-/

namespace LlmPort.NodeAgent

open Transition Backend.NodeControl Backend.Llm

variable (llm : LLMService)

/-- `_container_name`; `lower` and `isalnum` are the interpreter's, as on the backend. -/
def containerName (runtimeId : String) (runtimeName : Option String) : String :=
  let source := orText runtimeName runtimeId
  let dashed := source.toList.map fun c => if c = '_' ∨ c = '/' ∨ c = ' ' then '-' else c
  let slug := LLMService.strip '-' <| (llm.lower (String.ofList dashed)).toList.filter fun c =>
    llm.isAlnum c ∨ c = '-'
  let slug := if slug = [] then runtimeId.toList.filter (· ≠ '-') else slug
  "llm-port-" ++ String.ofList (slug.take 48)

/-- The container `deploy_workload` works on: the payload's name when it is not blank, stripped. -/
def deployContainerName (explicit : Option String) (runtimeId runtimeName : String) : String :=
  explicit.getD (containerName llm runtimeId (some (orText (some runtimeName) runtimeId)))

/-- The containers on the node, with the runtime each was created for. -/
abbrev Containers := List (String × Uuid)

/-- `deploy_workload`: a container of the name is removed before the new one is run, which may
fail. -/
def deployWorkload (name : String) (runtimeId : Uuid) (completes : Bool) (containers : Containers) :
    Containers :=
  let cleared := containers.filter (·.1 ≠ name)
  if completes then cleared ++ [(name, runtimeId)] else cleared

/-- A deploy command of the backend for a runtime. -/
structure Deployment where
  runtime : LLMRuntime
  completes : Bool

/-- The name the backend's payload gives is free of white space, so stripping leaves it. -/
def deploy (containers : Containers) (d : Deployment) : Containers :=
  deployWorkload
    (deployContainerName llm (some (llm.nodeContainerName d.runtime.name)) (uuidStr d.runtime.id)
      d.runtime.name) d.runtime.id d.completes containers

/-- The slug of a name, before it is cut. -/
def slug (name : String) : List Char :=
  LLMService.strip '-' <| (llm.lower (String.ofList (name.toList.map fun c =>
    if c = '_' ∨ c = '/' ∨ c = ' ' then '-' else c))).toList.filter fun c => llm.isAlnum c ∨ c = '-'

/-- The runtimes placed on a node do not get in each other's way. -/
structure NamesApart (runtimes : List LLMRuntime) : Prop where
  distinct : ∀ r ∈ runtimes, ∀ r' ∈ runtimes, r.id ≠ r'.id →
    containerName llm (uuidStr r.id) (some r.name) ≠ containerName llm (uuidStr r'.id) (some r'.name)
  /-- A deployment of one runtime leaves the containers of the others. -/
  spared : ∀ pre d, (∀ d' ∈ pre, d'.runtime ∈ runtimes) → d.runtime ∈ runtimes →
    ∀ c ∈ run (deploy llm) [] pre, c.2 ≠ d.runtime.id → c ∈ deploy llm (run (deploy llm) [] pre) d
  agrees : ∀ r ∈ runtimes,
    containerName llm (uuidStr r.id) (some r.name) = llm.nodeContainerName r.name

/-- Every name leaves a slug, and no two runtimes the same one within 48 characters. -/
structure SlugsApart (runtimes : List LLMRuntime) : Prop where
  nonempty : ∀ r ∈ runtimes, slug llm r.name ≠ []
  distinct : ∀ r ∈ runtimes, ∀ r' ∈ runtimes, r.id ≠ r'.id →
    (slug llm r.name).take 48 ≠ (slug llm r'.name).take 48

variable {llm} {id : Uuid} {name : String} {runtimes : List LLMRuntime}

theorem nodeContainerName_eq : llm.nodeContainerName name =
    if slug llm name = [] then "llm-port-runtime"
    else "llm-port-" ++ String.ofList ((slug llm name).take 48) := rfl

theorem orText_of_ne {text : String} (h : text ≠ "") (default : String) :
    orText (some text) default = text := if_neg h

theorem containerName_eq (h : name ≠ "") : containerName llm (uuidStr id) (some name) =
    "llm-port-" ++ String.ofList ((if slug llm name = [] then
      (uuidStr id).toList.filter (· ≠ '-') else slug llm name).take 48) := by
  unfold containerName
  rw [orText_of_ne h]
  rfl

/-- The agent's fallback for an empty slug is the runtime's id, the backend's is a constant. -/
theorem agrees_iff (h : name ≠ "") :
    containerName llm (uuidStr id) (some name) = llm.nodeContainerName name ↔
      slug llm name ≠ [] := by
  rw [containerName_eq h, nodeContainerName_eq]
  by_cases hs : slug llm name = []
  · rw [if_pos hs, if_pos hs]
    refine iff_of_false (fun heq => ?_) (not_not_intro hs)
    have hrest : String.ofList (((uuidStr id).toList.filter (· ≠ '-')).take 48) = "runtime" :=
      (String.append_right_inj "llm-port-").1 heq
    have hr : 'r' ∈ (String.ofList (((uuidStr id).toList.filter (· ≠ '-')).take 48)).toList := by
      rw [hrest]
      decide
    rw [String.toList_ofList] at hr
    have hmem : 'r' ∈ (uuidStr id).toList := (List.mem_filter.1 (List.mem_of_mem_take hr)).1
    exact not_mem_uuidStr (by decide) (by decide) id hmem
  · rw [if_neg hs, if_neg hs]
    exact iff_of_true rfl hs

theorem containerName_inj {id id' : Uuid} {name name' : String} (h : name ≠ "") (h' : name' ≠ "")
    (hs : slug llm name ≠ []) (hs' : slug llm name' ≠ []) :
    containerName llm (uuidStr id) (some name) = containerName llm (uuidStr id') (some name') ↔
      (slug llm name).take 48 = (slug llm name').take 48 := by
  rw [containerName_eq h, containerName_eq h', if_neg hs, if_neg hs']
  exact (String.append_right_inj _).trans String.ofList_inj

/-- Every container on the node bears the name of the runtime it was created for. -/
def OwnNames (llm : LLMService) (runtimes : List LLMRuntime) (containers : Containers) : Prop :=
  ∀ c ∈ containers, ∃ r ∈ runtimes, r.id = c.2 ∧ c.1 = llm.nodeContainerName r.name

theorem OwnNames.deploy {containers : Containers} {d : Deployment}
    (h : OwnNames llm runtimes containers) (hd : d.runtime ∈ runtimes) :
    OwnNames llm runtimes (deploy llm containers d) := by
  intro c hc
  unfold NodeAgent.deploy deployWorkload at hc
  dsimp only at hc
  split at hc
  · obtain hc | hc := List.mem_append.1 hc
    · exact h c (List.mem_filter.1 hc).1
    · rw [List.mem_singleton.1 hc]
      exact ⟨d.runtime, hd, rfl, rfl⟩
  · exact h c (List.mem_filter.1 hc).1

theorem ownNames_run {pre : List Deployment} {containers : Containers}
    (h : OwnNames llm runtimes containers) (hpre : ∀ d ∈ pre, d.runtime ∈ runtimes) :
    OwnNames llm runtimes (run (deploy llm) containers pre) := by
  induction pre generalizing containers with
  | nil => exact h
  | cons d pre ih =>
    exact ih (h.deploy (hpre d List.mem_cons_self)) fun d hd => hpre d (List.mem_cons_of_mem _ hd)

/-- A deployment removes no container but those of its own name. -/
theorem mem_deploy {containers : Containers} {d : Deployment} {c : String × Uuid}
    (hc : c ∈ containers) (hne : c.1 ≠ llm.nodeContainerName d.runtime.name) :
    c ∈ deploy llm containers d := by
  have hm : c ∈ containers.filter (·.1 ≠ llm.nodeContainerName d.runtime.name) :=
    List.mem_filter.2 ⟨hc, decide_eq_true hne⟩
  unfold NodeAgent.deploy deployWorkload
  dsimp only
  split
  · exact List.mem_append_left _ hm
  · exact hm

/-- The runtimes of a node keep to their own containers, and both sides name them alike, exactly if
their slugs are apart. -/
theorem namesApart_iff (llm : LLMService) (runtimes : List LLMRuntime)
    (hnames : ∀ r ∈ runtimes, r.name ≠ "") :
    NamesApart llm runtimes ↔ SlugsApart llm runtimes := by
  constructor
  · intro h
    have hslug : ∀ r ∈ runtimes, slug llm r.name ≠ [] := fun r hr =>
      (agrees_iff (hnames r hr)).1 (h.agrees r hr)
    refine ⟨hslug, fun r hr r' hr' hid heq => h.distinct r hr r' hr' hid ?_⟩
    exact (containerName_inj (hnames r hr) (hnames r' hr') (hslug r hr) (hslug r' hr')).2 heq
  · intro h
    have hagree : ∀ r ∈ runtimes,
        containerName llm (uuidStr r.id) (some r.name) = llm.nodeContainerName r.name := fun r hr =>
      (agrees_iff (hnames r hr)).2 (h.nonempty r hr)
    have hdistinct : ∀ r ∈ runtimes, ∀ r' ∈ runtimes, r.id ≠ r'.id →
        containerName llm (uuidStr r.id) (some r.name) ≠
          containerName llm (uuidStr r'.id) (some r'.name) := by
      intro r hr r' hr' hid heq
      apply h.distinct r hr r' hr' hid
      exact (containerName_inj (hnames r hr) (hnames r' hr') (h.nonempty r hr) (h.nonempty r' hr')).1 heq
    refine ⟨hdistinct, fun pre d hpre hd c hc hne => ?_, hagree⟩
    obtain ⟨r, hr, hid, hname⟩ :=
      ownNames_run (fun _ hc => by cases hc) hpre c hc
    apply mem_deploy hc
    rw [hname, ← hagree r hr, ← hagree d.runtime hd]
    exact hdistinct r hr d.runtime hd (hid ▸ hne)

/-- A runtime row with the given id and name. -/
def namedRuntime (id : Uuid) (name : String) : LLMRuntime where
  id
  name
  providerId := 20
  modelId := 30
  status := .stopped
  statusMessage := none
  endpointUrl := none
  openaiCompat := true
  genericConfig := "{}"
  providerConfig := ⟨"", "", "", "", "", "", "", "", "{}"⟩
  containerRef := none
  executionTarget := .node
  assignedNodeId := none
  desiredState := "running"
  lastCommandId := none

theorem slug_plain (name : String) : slug .plain name =
    LLMService.strip '-' (((name.toList.map fun c =>
      if c = '_' ∨ c = '/' ∨ c = ' ' then '-' else c).map Char.toLower).filter fun c =>
        c.isAlphanum ∨ c = '-') := by
  unfold slug LLMService.plain String.toLower
  rw [String.toList_map, String.toList_ofList]

theorem slugsApart_two : SlugsApart .plain [namedRuntime 1 "llama", namedRuntime 2 "qwen"] where
  nonempty r hr := by
    rw [slug_plain]
    revert r
    decide
  distinct r hr r' hr' hid := by
    rw [slug_plain, slug_plain]
    revert r r'
    decide

theorem namesApart_two : NamesApart .plain [namedRuntime 1 "llama", namedRuntime 2 "qwen"] :=
  (namesApart_iff .plain _ (by decide)).2 slugsApart_two

/-- Two names that differ in a separator have one container name. -/
theorem not_namesApart_separator :
    ¬ ∀ runtimes : List LLMRuntime, (runtimes.map (·.name)).Nodup → NamesApart .plain runtimes := by
  intro h
  have hd := (h [namedRuntime 1 "a b", namedRuntime 2 "a-b"] (by decide)).distinct
  refine hd _ List.mem_cons_self _ (List.mem_cons_of_mem _ List.mem_cons_self) (by decide) ?_
  have hslug : slug .plain "a b" = slug .plain "a-b" ∧ slug .plain "a b" ≠ [] := by
    rw [slug_plain, slug_plain]
    decide
  refine (containerName_inj (by decide) (by decide) hslug.2 (hslug.1 ▸ hslug.2)).2 ?_
  exact congrArg _ hslug.1

end LlmPort.NodeAgent
