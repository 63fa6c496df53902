import LlmPort.Skills.Resolve
import LlmPort.Transition.PartialMap

/-!
# When the resolved skills are the best ones

An override discards what the assignments before it gave, so that a score can depend on the order
they are loaded in; the cut to the wanted number comes before the skills without a match are left
out; and an override that does not exceed the priority makes a match look like none.
-/

namespace LlmPort.Skills

open Text Ranking Transition

/-! ## Triggers -/

/-- `for item in value` does not raise. -/
def Iterable : Json → Bool
  | .array _ | .string _ | .object _ => true
  | _ => false

/-- Nor does `item.lower()` of an item. -/
def Words : Json → Bool
  | .array items => items.all fun item => (asText item).isSome
  | value => Iterable value

/-- The entry of the trigger rules, if there is one, is as `ok` has it. -/
def SkillRow.Triggers (skill : SkillRow) (key : String) (ok : Json → Bool) : Bool :=
  match skill.triggerRules with
  | .object entries => (entries.lookup key).all ok
  | rules => !rules.truthy

/-- What the request asks of the triggers, they can be asked. -/
structure SkillRow.Readable (ctx : ResolveContext) (skill : SkillRow) : Prop where
  keywords : given ctx.userQuery ≠ none → skill.Triggers "keywords" Words
  fileTypes : ctx.fileTypes.getD [] ≠ [] → skill.Triggers "file_types" Iterable
  tags : ctx.tags.getD [] ≠ [] → skill.tags.truthy → Iterable skill.tags

section

variable {cfg : SkillsConfig} {ctx : ResolveContext} {skill : SkillRow}

theorem isSome_iterate (value : Json) : (iterate value).isSome = Iterable value := by
  cases value <;> rfl

theorem isSome_hasItem (item : String) (value : Json) :
    (hasItem item value).isSome = Iterable value := by
  cases value <;> rfl

theorem isSome_words (value : Json) :
    ((iterate value).bind fun items => items.mapM asText).isSome = Words value := by
  cases value with
  | null | bool | number => rfl
  | array items => exact isSome_mapM asText items
  | string text =>
    rw [iterate, Option.bind_some, isSome_mapM, List.all_map]
    exact List.all_eq_true.2 fun _ _ => rfl
  | object entries =>
    rw [iterate, Option.bind_some, isSome_mapM, List.all_map]
    exact List.all_eq_true.2 fun _ _ => rfl

/-- What is done with the items of a trigger list raises as it would with the entry itself. -/
theorem isSome_triggers {β : Type} (key : String) (f : List Json → Option β) (ok : Json → Bool)
    (hf : ∀ value, ((iterate value).bind f).isSome = ok value) (hnil : (f []).isSome = true) :
    ((skill.triggers key).bind f).isSome = skill.Triggers key ok := by
  have hempty : ok (.array []) = true := by rw [← hf]; exact hnil
  unfold SkillRow.triggers SkillRow.Triggers
  cases h : skill.triggerRules with
  | object entries =>
    cases entries with
    | nil => simpa [Json.truthy] using hnil
    | cons entry entries =>
      simp only [Json.truthy, List.isEmpty_cons, Bool.not_false, if_true]
      rw [hf]
      cases (entry :: entries).lookup key <;> simp [hempty]
  | null | bool | number | string | array =>
    split <;> simp_all

theorem isSome_keywordHits :
    (skill.keywordHits cfg ctx).isSome = true ↔
      (given ctx.userQuery ≠ none → skill.Triggers "keywords" Words) := by
  rw [← isSome_triggers "keywords" (·.mapM asText) Words isSome_words rfl, SkillRow.keywordHits]
  cases given ctx.userQuery with
  | none => simp
  | some query =>
    cases skill.triggers "keywords" with
    | none => simp
    | some items => cases h : items.mapM asText <;> simp [h]

theorem isSome_fileTypeHits :
    (skill.fileTypeHits ctx).isSome = true ↔
      (ctx.fileTypes.getD [] ≠ [] → skill.Triggers "file_types" Iterable) := by
  have hpure : ∀ value, ((iterate value).bind some).isSome = Iterable value := fun value => by
    rw [Option.bind_fun_some, isSome_iterate]
  rw [← isSome_triggers "file_types" some Iterable hpure rfl, SkillRow.fileTypeHits]
  cases ctx.fileTypes.getD [] with
  | nil => simp
  | cons fileType fileTypes => cases skill.triggers "file_types" <;> simp

theorem isSome_tagHits :
    (skill.tagHits ctx).isSome = true ↔
      (ctx.tags.getD [] ≠ [] → skill.tags.truthy → Iterable skill.tags) := by
  unfold SkillRow.tagHits
  cases ctx.tags.getD [] with
  | nil => simp
  | cons tag tags =>
    let find := fun t => if skill.tags.truthy then hasItem t skill.tags else some false
    have hall : ((tag :: tags).mapM find).isSome = true ↔
        (skill.tags.truthy → Iterable skill.tags) := by
      rw [isSome_mapM]
      cases htruthy : skill.tags.truthy with
      | false => simp [find, htruthy]
      | true =>
        simp only [find, htruthy, if_true, isSome_hasItem, List.all_cons, List.all_eq_true,
          Bool.and_eq_true, forall_const]
        exact ⟨fun h => h.1, fun h => ⟨h, fun _ _ => h⟩⟩
    have hcount : ((tag :: tags).mapM find >>= fun found => pure (found.count true)).isSome =
        ((tag :: tags).mapM find).isSome := by
      cases (tag :: tags).mapM find <;> rfl
    simp only [ne_eq, reduceCtorEq, not_false_eq_true, forall_const]
    rw [← hall, ← hcount]

/-- The triggers give points exactly if they can be read. -/
theorem isSome_triggerPoints :
    (skill.triggerPoints cfg ctx).isSome = true ↔ skill.Readable ctx := by
  have h : (skill.triggerPoints cfg ctx).isSome = true ↔ (skill.keywordHits cfg ctx).isSome = true ∧
      (skill.fileTypeHits ctx).isSome = true ∧ (skill.tagHits ctx).isSome = true := by
    unfold SkillRow.triggerPoints
    cases skill.keywordHits cfg ctx <;> cases skill.fileTypeHits ctx <;>
      cases skill.tagHits ctx <;> simp
  rw [h, isSome_keywordHits, isSome_fileTypeHits, isSome_tagHits]
  exact ⟨fun ⟨h₁, h₂, h₃⟩ => ⟨h₁, h₂, h₃⟩, fun h => ⟨h.keywords, h.fileTypes, h.tags⟩⟩

theorem foldl_assign (l : List SkillAssignmentRow) (s : Int) :
    l.foldl (SkillRow.assign ctx) s =
      ((l.filter fun a => a.enabled && ctx.matches a).map (·.priorityOverride)).foldl
        (bump 50) s := by
  rw [List.foldl_map, List.foldl_filter]
  rfl

end

/-! ## A call -/

/-- The value of the request that a target type is about. -/
def ResolveContext.target (ctx : ResolveContext) (targetType : String) : Option (Option String) :=
  [("assistant", ctx.assistantId), ("workspace", ctx.workspaceId),
    ("project", ctx.projectId)].lookup targetType

structure ResolveCall where
  cfg : SkillsConfig
  db : SkillsDb
  tenantId : String
  ctx : ResolveContext
  maxResults : Nat
  /-- The order that the assignments of a skill are loaded in. -/
  loaded : SkillRow → List SkillAssignmentRow
  loaded_perm : ∀ skill, (loaded skill).Perm (db.listAssignments skill.id)

namespace ResolveCall

variable (call : ResolveCall)

def candidates : List SkillRow := call.db.candidates call.tenantId

def resolveSkills : Option (List (SkillRow × SkillVersionRow × Int)) :=
  call.db.resolveSkills call.cfg call.loaded call.tenantId call.ctx call.maxResults

def score (skill : SkillRow) : Option Int :=
  skill.score call.cfg call.ctx (call.loaded skill)

def triggerPoints (skill : SkillRow) : Option Nat := skill.triggerPoints call.cfg call.ctx

/-- The enabled assignments that match. -/
def matching (skill : SkillRow) : List SkillAssignmentRow :=
  (call.db.listAssignments skill.id).filter fun a => a.enabled && call.ctx.matches a

/-- An assignment or a trigger matches, or the scope is all there needs to be. -/
def eligible (skill : SkillRow) : Bool :=
  !(call.matching skill).isEmpty || (call.triggerPoints skill).any (0 < ·) || skill.general

/-- The result is a top-k of the eligible skills by a score that is no matter of order. -/
structure Correct : Prop where
  best : ∃ results, call.resolveSkills = some results ∧
    TopK (fun skill => (call.score skill).getD 0) call.maxResults
      (call.candidates.filter call.eligible) (results.map (·.1))
  ordered : ∀ skill ∈ call.candidates, ∀ order : List SkillAssignmentRow,
    order.Perm (call.db.listAssignments skill.id) →
      skill.score call.cfg call.ctx order = call.score skill
  absent : ∀ skill ∈ call.candidates, ∀ a ∈ call.db.listAssignments skill.id, a.enabled →
    a.targetId = none → call.ctx.target a.targetType = some none → call.ctx.matches a = false

/-! ## The condition -/

def overrides (skill : SkillRow) : List (Option Int) :=
  (call.matching skill).map (·.priorityOverride)

/-- The score of a skill whose assignments agree. -/
def points (skill : SkillRow) : Int :=
  agreed 50 skill.priority (call.overrides skill) + ((call.triggerPoints skill).getD 0 : Nat)

def ranking : List SkillRow :=
  call.candidates.insertionSort fun a b => call.points b ≤ call.points a

/-- The skill is not left out of the result once it is among the first. -/
def kept (skill : SkillRow) : Bool :=
  (skill.priority < call.points skill || skill.general) &&
    (call.db.getCurrentVersionBody skill.id).isSome

structure Sound : Prop where
  readable : ∀ skill ∈ call.candidates, skill.Readable call.ctx
  agree : ∀ skill ∈ call.candidates, Agree (call.overrides skill)
  targeted : ∀ skill ∈ call.candidates, ∀ a ∈ call.db.listAssignments skill.id, a.enabled →
    ¬ (a.targetId = none ∧ call.ctx.target a.targetType = some none)
  /-- All places are taken by what is kept, or every eligible skill has a place and is kept. -/
  cut : (call.maxResults ≤ call.candidates.length ∧
      ∀ skill ∈ call.ranking.take call.maxResults, call.kept skill = true) ∨
    ((∀ skill ∈ call.ranking.take call.maxResults,
      call.eligible skill = true → call.kept skill = true) ∧
      ∀ skill ∈ call.ranking.drop call.maxResults, call.eligible skill = false)

variable {call}

theorem matches_of_absent {ctx : ResolveContext} {a : SkillAssignmentRow}
    (ha : a.targetId = none) (h : ctx.target a.targetType = some none) :
    ctx.matches a = true := by
  simp only [ResolveContext.target, List.lookup_cons, List.lookup_nil, beq_eq_decide] at h
  unfold ResolveContext.matches
  rw [ha]
  grind

theorem score_of_triggerPoints {skill : SkillRow} {p : Nat}
    (hp : skill.triggerPoints call.cfg call.ctx = some p) (order : List SkillAssignmentRow) :
    skill.score call.cfg call.ctx order =
      some (((order.filter fun a => a.enabled && call.ctx.matches a).map
        (·.priorityOverride)).foldl (bump 50) skill.priority + p) := by
  rw [SkillRow.score, hp, ← foldl_assign]
  rfl

/-- The score of an order depends on it through the overrides alone. -/
theorem score_perm_iff {skill : SkillRow} (hreadable : skill.Readable call.ctx) :
    (∀ order : List SkillAssignmentRow, order.Perm (call.db.listAssignments skill.id) →
      skill.score call.cfg call.ctx order = call.score skill) ↔
      Agree (call.overrides skill) := by
  obtain ⟨p, hp⟩ := Option.isSome_iff_exists.1 (isSome_triggerPoints.2 hreadable)
  have hscore := score_of_triggerPoints hp
  have hiff := @foldl_bump_perm_iff _ 50 skill.priority _ (by decide)
    SkillAssignmentRow.priorityOverride (call.matching skill)
  rw [overrides, ← hiff]
  constructor
  · intro H l' hl'
    let others := (call.db.listAssignments skill.id).filter fun a =>
      !(a.enabled && call.ctx.matches a)
    have horder : (l' ++ others).Perm (call.db.listAssignments skill.id) :=
      (hl'.append_right _).trans (List.filter_append_perm _ _)
    have hfilter : (l' ++ others).filter (fun a => a.enabled && call.ctx.matches a) = l' := by
      rw [List.filter_append, List.filter_eq_self.2 fun a ha =>
        (List.mem_filter.1 (hl'.subset ha)).2, List.filter_eq_nil_iff.2 fun a ha => ?_,
        List.append_nil]
      exact Bool.eq_false_iff.1 (Bool.not_eq_true' _ ▸ (List.mem_filter.1 ha).2)
    have h := (H _ horder).trans (H _ (.refl _)).symm
    rw [hscore, hscore, hfilter] at h
    exact add_right_cancel (Option.some.inj h)
  · intro H order horder
    rw [score, hscore, hscore, H _ (horder.filter _), H _ ((call.loaded_perm skill).filter _)]

theorem score_eq {skill : SkillRow} (hreadable : skill.Readable call.ctx)
    (hagree : Agree (call.overrides skill)) : call.score skill = some (call.points skill) := by
  obtain ⟨p, hp⟩ := Option.isSome_iff_exists.1 ((@isSome_triggerPoints call.cfg _ _).2 hreadable)
  rw [← (score_perm_iff hreadable).2 hagree _ (.refl _), score_of_triggerPoints hp, points,
    ← foldl_bump_agreed hagree, triggerPoints, hp]
  rfl

theorem eligible_of_kept {skill : SkillRow} (h : call.kept skill = true) :
    call.eligible skill = true := by
  unfold kept at h
  unfold eligible
  cases hmatching : call.matching skill with
  | cons => simp
  | nil =>
    have hpoints : call.points skill =
        skill.priority + ((call.triggerPoints skill).getD 0 : Nat) := by
      simp [points, overrides, hmatching, agreed]
    rw [hpoints] at h
    cases hp : call.triggerPoints skill with
    | none => simp_all
    | some p => simp_all

/-- What the loop over the first of the ranking makes of a skill. -/
theorem filterMap_eq_filter_kept (l : List SkillRow) :
    ((l.map fun skill => (skill, call.points skill)).filterMap fun (skill, score) =>
      if score ≤ skill.priority ∧ ¬ skill.general then none
      else (call.db.getCurrentVersionBody skill.id).map fun version =>
        (skill, version, score)).map (·.1) = l.filter call.kept := by
  rw [List.filterMap_map, List.map_filterMap, ← List.filterMap_eq_filter]
  congr 1
  funext skill
  simp only [Function.comp_apply, Option.guard, kept]
  rcases (call.db.getCurrentVersionBody skill.id).eq_none_or_eq_some with h | ⟨version, h⟩
  · simp [h]
  · rcases lt_or_ge skill.priority (call.points skill) with hp | hp
    · simp [h, hp, not_le.2 hp]
    · rcases Bool.eq_false_or_eq_true skill.general with hg | hg <;>
        simp [h, hp, hg, not_lt.2 hp]

/-- Without errors and with scores that are no matter of order, the first of the ranking that are
kept are returned. -/
theorem resolveSkills_eq (hreadable : ∀ skill ∈ call.candidates, skill.Readable call.ctx)
    (hagree : ∀ skill ∈ call.candidates, Agree (call.overrides skill)) :
    ∃ results, call.resolveSkills = some results ∧
      results.map (·.1) = (call.ranking.take call.maxResults).filter call.kept := by
  have hscored : (call.candidates.mapM fun skill => do return (skill, ← call.score skill)) =
      some (call.candidates.map fun skill => (skill, call.points skill)) := by
    refine mapM_eq_some_map fun skill hskill => ?_
    rw [score_eq (hreadable skill hskill) (hagree skill hskill)]
    rfl
  have hsort : call.ranking.map (fun skill => (skill, call.points skill)) =
      (call.candidates.map fun skill => (skill, call.points skill)).insertionSort
        (·.2 ≥ ·.2) :=
    List.map_insertionSort _ _ (fun skill => (skill, call.points skill)) _ fun _ _ _ _ => Iff.rfl
  have hresults : call.resolveSkills =
      some ((((call.candidates.map fun skill => (skill, call.points skill)).insertionSort
        (·.2 ≥ ·.2)).take call.maxResults).filterMap fun (skill, score) =>
          if score ≤ skill.priority ∧ ¬ skill.general then none
          else (call.db.getCurrentVersionBody skill.id).map fun version =>
            (skill, version, score)) := by
    exact congrArg (· >>= _) hscored
  refine ⟨_, hresults, ?_⟩
  rw [← hsort, ← List.map_take, filterMap_eq_filter_kept]

theorem sorted_ranking : call.ranking.Pairwise fun a b => call.points b ≤ call.points a := by
  have : Std.Total fun a b : SkillRow => call.points b ≤ call.points a :=
    ⟨fun a b => le_total (call.points b) (call.points a)⟩
  have : IsTrans SkillRow fun a b => call.points b ≤ call.points a :=
    ⟨fun _ _ _ hab hbc => hbc.trans hab⟩
  exact List.pairwise_insertionSort _ _

/-- With scores that are the points, a top-k is returned exactly if the cut loses nothing. -/
theorem best_iff (hreadable : ∀ skill ∈ call.candidates, skill.Readable call.ctx)
    (hagree : ∀ skill ∈ call.candidates, Agree (call.overrides skill)) :
    (∃ results, call.resolveSkills = some results ∧
      TopK (fun skill => (call.score skill).getD 0) call.maxResults
        (call.candidates.filter call.eligible) (results.map (·.1))) ↔
      (call.maxResults ≤ call.candidates.length ∧
        ∀ skill ∈ call.ranking.take call.maxResults, call.kept skill = true) ∨
      ((∀ skill ∈ call.ranking.take call.maxResults,
        call.eligible skill = true → call.kept skill = true) ∧
        ∀ skill ∈ call.ranking.drop call.maxResults, call.eligible skill = false) := by
  obtain ⟨results, hresults, hmap⟩ := resolveSkills_eq hreadable hagree
  have hscore : ∀ skill ∈ call.candidates.filter call.eligible,
      (call.score skill).getD 0 = call.points skill := fun skill hskill => by
    have hskill := (List.mem_filter.1 hskill).1
    rw [score_eq (hreadable skill hskill) (hagree skill hskill), Option.getD_some]
  have hperm : (call.ranking.filter call.eligible).Perm (call.candidates.filter call.eligible) :=
    (List.perm_insertionSort _ _).filter _
  have hlength : call.ranking.length = call.candidates.length := List.length_insertionSort _ _
  rw [hresults, ← hlength, ← topK_filter_take_iff sorted_ranking fun _ _ => eligible_of_kept,
    topK_perm hperm, ← hmap]
  constructor
  · rintro ⟨_, h, H⟩
    obtain rfl := Option.some.inj h
    exact H.congr hscore
  · intro H
    exact ⟨results, rfl, H.congr fun skill hskill => (hscore skill hskill).symm⟩

theorem Correct.readable (H : call.Correct) :
    ∀ skill ∈ call.candidates, skill.Readable call.ctx := by
  obtain ⟨results, hresults, -⟩ := H.best
  have hscored : (call.candidates.mapM fun skill => do return (skill, ← call.score skill)).isSome =
      true := by
    cases h : call.candidates.mapM fun skill => do return (skill, ← call.score skill) with
    | some => rfl
    | none =>
      have hnone : call.resolveSkills = none := congrArg (· >>= _) h
      rw [hnone] at hresults
      cases hresults
  rw [isSome_mapM, List.all_eq_true] at hscored
  intro skill hskill
  have h := hscored skill hskill
  rw [← @isSome_triggerPoints call.cfg]
  cases hp : skill.triggerPoints call.cfg call.ctx with
  | some => rfl
  | none =>
    have hscore : call.score skill = none := congrArg (· >>= _) hp
    rw [hscore] at h
    cases h

/-- A call returns the best of the eligible skills by scores that are no matter of order, and takes
no two absences for a match, exactly under the condition. -/
theorem correct_iff (call : ResolveCall) : call.Correct ↔ call.Sound := by
  constructor
  · intro H
    have hreadable := H.readable
    have hagree : ∀ skill ∈ call.candidates, Agree (call.overrides skill) :=
      fun skill hskill => (score_perm_iff (hreadable skill hskill)).1 (H.ordered skill hskill)
    refine ⟨hreadable, hagree, ?_, (best_iff hreadable hagree).1 H.best⟩
    rintro skill hskill a ha henabled ⟨hid, htarget⟩
    have h := H.absent skill hskill a ha henabled hid htarget
    rw [matches_of_absent hid htarget] at h
    cases h
  · intro H
    refine ⟨(best_iff H.readable H.agree).2 H.cut, fun skill hskill => ?_, ?_⟩
    · exact (score_perm_iff (H.readable skill hskill)).2 (H.agree skill hskill)
    · intro skill hskill a ha henabled hid htarget
      exact absurd ⟨hid, htarget⟩ (H.targeted skill hskill a ha henabled)

/-- A skill that nothing speaks for comes first, before one with a keyword of the query. -/
def crowdedOut : ResolveCall where
  cfg := {
    yaml := ⟨fun _ => none, fun _ => []⟩
    lower := fun text => text.map Char.toLower
    asBool := fun _ => none
    asInteger := fun _ => none
    ilike := fun pattern text => pattern = text
    maxPublished := 200
    maxVersions := 25
    maxAssignments := 500 }
  db :=
    let row := fun (id : Backend.NodeControl.Uuid) (name : String) (priority : Int)
        (triggerRules : Json) => {
      id := id, tenantId := "t", name := name, slug := name.toList, description := "",
      scope := "workspace", status := published, enabled := true, priority := priority,
      tags := .array [], allowedTools := .null, preferredTools := .null, forbiddenTools := .null,
      knowledgeSources := .null, triggerRules := triggerRules, currentVersion := 1,
      createdBy := none, createdAt := 0, updatedAt := 0 }
    { skills := [row 1 "idle" 90 .null,
        row 2 "asked" 50 (.object [("keywords", .array [.string "deploy"])])]
      versions := [⟨3, 1, 1, ['x'], none, none, none, 0⟩, ⟨4, 2, 1, ['y'], none, none, none, 0⟩]
      assignments := [] }
  tenantId := "t"
  ctx := ⟨none, none, none, some "deploy", none, none⟩
  maxResults := 1
  loaded := fun _ => []
  loaded_perm := fun _ => .refl _

/-- It takes the only place and is then left out, so that nothing is returned. -/
theorem not_correct_crowdedOut : ¬ crowdedOut.Correct := by
  intro H
  obtain ⟨results, hresults, hbest⟩ := H.best
  have hnone : crowdedOut.resolveSkills = some [] := by decide +kernel
  have hpool : (crowdedOut.candidates.filter crowdedOut.eligible).length = 1 := by decide +kernel
  obtain rfl := Option.some.inj (hresults.symm.trans hnone)
  have hlength := hbest.length
  rw [hpool] at hlength
  cases hlength

end ResolveCall

end LlmPort.Skills
