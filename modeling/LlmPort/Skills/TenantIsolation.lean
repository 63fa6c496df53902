import LlmPort.Skills.PublishedCap
import LlmPort.Transition.Noninterference

/-!
# The skills of one tenant

What a caller of one tenant sees and changes of the tables. `of` is the part of the tables that
belongs to a tenant and `others` is the rest; a request that stays apart does on all tables what it
does on the tenant's part, and leaves the rest.
-/

namespace LlmPort.Skills

open Text ModelSync Transition Backend.NodeControl

namespace SkillsDb

section
variable (db : SkillsDb) (tenantId : String)

/-- The skills of the tenant with their versions and assignments. -/
def of : SkillsDb where
  skills := db.skills.filter fun row => row.tenantId = tenantId
  versions := db.versions.filter fun row => db.owns tenantId row.skillId
  assignments := db.assignments.filter fun row => db.owns tenantId row.skillId

/-- All other skills, versions and assignments. -/
def others : SkillsDb where
  skills := db.skills.filter fun row => !decide (row.tenantId = tenantId)
  versions := db.versions.filter fun row => !db.owns tenantId row.skillId
  assignments := db.assignments.filter fun row => !db.owns tenantId row.skillId

/-- No row of another tenant has a drawn key. -/
def freeFor (draw : SkillsDraw) : Prop :=
  (∀ row ∈ db.skills, row.id = draw.skillId → row.tenantId = tenantId) ∧
    (∀ row ∈ db.versions, row.id = draw.versionId → db.owns tenantId row.skillId) ∧
    ∀ row ∈ db.assignments, row.id = draw.assignmentId → db.owns tenantId row.skillId

/-- The requests that ask for nothing of another tenant. -/
def staysApart (auth : AuthContext) : AdminRequest → Prop
  | .listSkills tenantId _ offset limit => 0 ≤ offset → 0 ≤ limit →
    (given tenantId).getD auth.tenantId = auth.tenantId
  | .deleteAssignment _ assignmentId => ∀ row ∈ db.assignments, row.id = assignmentId →
    db.owns auth.tenantId row.skillId
  | .createSkill draw _ | .updateSkillBody draw _ _ | .createAssignment draw _ _
  | .importSkill draw _ => db.freeFor auth.tenantId draw
  | _ => True

end

/-- The primary keys differ, and the foreign keys refer to skills. -/
structure WellFormed (db : SkillsDb) : Prop where
  skills : db.Keyed
  versions : (db.versions.map (·.id)).Nodup
  assignments : (db.assignments.map (·.id)).Nodup
  versionsOf : ∀ row ∈ db.versions, row.skillId ∈ db.skills.map (·.id)
  assignmentsOf : ∀ row ∈ db.assignments, row.skillId ∈ db.skills.map (·.id)

variable {cfg : SkillsConfig} {auth : AuthContext} {db db' : SkillsDb} {draw : SkillsDraw}
  {now : Time} {skillId : Uuid} {tenantId : String} {skill old new row : SkillRow}
  {updates : JsonObject} {α β : Type}

theorem owns_iff : db.owns tenantId skillId ↔
    ∃ row ∈ db.skills, row.id = skillId ∧ row.tenantId = tenantId := by
  simp only [owns, List.any_eq_true, decide_eq_true_eq]

theorem owns_of_getSkill (h : db.getSkill skillId tenantId = some skill) :
    db.owns tenantId skillId := by
  obtain ⟨hmem, hid, htenant⟩ := getSkill_eq_some h
  exact owns_iff.2 ⟨skill, hmem, hid, htenant⟩

/-! ## What is read of a tenant -/

theorem owns_of : (db.of tenantId).owns tenantId skillId = db.owns tenantId skillId := by
  refine any_filter_of_imp fun row _ h => ?_
  rw [decide_eq_true_eq] at h ⊢
  exact h.2

theorem getSkill_of : (db.of tenantId).getSkill skillId tenantId = db.getSkill skillId tenantId := by
  refine find?_filter_of_imp fun row _ h => ?_
  rw [decide_eq_true_eq] at h ⊢
  exact h.2

theorem publishedCount_of : (db.of tenantId).publishedCount tenantId =
    db.publishedCount tenantId := by
  refine countP_filter_of_imp fun row _ h => ?_
  rw [decide_eq_true_eq] at h ⊢
  exact h.1

theorem listSkills_of {f : SkillFilter} {offset limit : Int} :
    (db.of tenantId).listSkills cfg tenantId f offset limit =
      db.listSkills cfg tenantId f offset limit := by
  have hrows : ((db.of tenantId).skills.filter fun row =>
      row.tenantId = tenantId ∧ f.admits cfg row) =
        db.skills.filter fun row => row.tenantId = tenantId ∧ f.admits cfg row := by
    refine filter_filter_of_imp fun row _ h => ?_
    rw [decide_eq_true_eq] at h ⊢
    exact h.1
  rw [listSkills, listSkills, hrows]

theorem listVersions_of (h : db.owns tenantId skillId) :
    (db.of tenantId).listVersions skillId = db.listVersions skillId := by
  have hrows : ((db.of tenantId).versions.filter (·.skillId = skillId)) =
      db.versions.filter (·.skillId = skillId) := by
    refine filter_filter_of_imp fun row _ hrow => ?_
    rw [of_decide_eq_true hrow]
    exact h
  rw [listVersions, listVersions, hrows]

theorem listAssignments_of (h : db.owns tenantId skillId) :
    (db.of tenantId).listAssignments skillId = db.listAssignments skillId := by
  refine filter_filter_of_imp fun row _ hrow => ?_
  rw [of_decide_eq_true hrow]
  exact h

theorem getVersion_of {version : Int} (h : db.owns tenantId skillId) :
    (db.of tenantId).getVersion skillId version = db.getVersion skillId version := by
  refine find?_filter_of_imp fun row _ hrow => ?_
  rw [(of_decide_eq_true hrow).1]
  exact h

/-- All skills with the key of a tenant's skill are the tenant's. -/
theorem WellFormed.tenantId_eq (hwf : db.WellFormed) (h : db.owns tenantId skillId)
    (hmem : row ∈ db.skills) (hid : row.id = skillId) : row.tenantId = tenantId := by
  obtain ⟨skill, hskill, hid', htenant⟩ := owns_iff.1 h
  rw [List.inj_on_of_nodup_map hwf.skills hmem hskill (hid.trans hid'.symm), htenant]

theorem getCurrentVersionBody_of (hwf : db.WellFormed) (h : db.owns tenantId skillId) :
    (db.of tenantId).getCurrentVersionBody skillId = db.getCurrentVersionBody skillId := by
  have hskill : (db.of tenantId).skills.find? (·.id = skillId) =
      db.skills.find? (·.id = skillId) := by
    refine find?_filter_of_imp fun row hrow hid => ?_
    rw [decide_eq_true_eq] at hid ⊢
    exact hwf.tenantId_eq h hrow hid
  rw [getCurrentVersionBody, getCurrentVersionBody, hskill]
  congr 1
  funext row
  exact getVersion_of h

theorem skillToDetail_of (h : db.owns tenantId skill.id) :
    (db.of tenantId).skillToDetail skill = db.skillToDetail skill := by
  rw [skillToDetail, skillToDetail, listVersions_of h, listAssignments_of h]

/-! ## The tables stay well formed -/

theorem WellFormed.insertSkill (hwf : db.WellFormed) (h : db.insertSkill row = .ok db') :
    db'.WellFormed := by
  obtain ⟨-, hfresh, rfl⟩ := insertSkill_ok h
  refine ⟨nodup_map_snoc hwf.skills fun other hother => (hfresh other hother).1, hwf.versions,
    hwf.assignments, fun v hv => ?_, fun a ha => ?_⟩
  · rw [List.map_append]
    exact List.mem_append_left _ (hwf.versionsOf v hv)
  · rw [List.map_append]
    exact List.mem_append_left _ (hwf.assignmentsOf a ha)

theorem takesVersion_iff {row : SkillVersionRow} (h : db.takesVersion row) :
    ∀ other ∈ db.versions, other.id ≠ row.id ∧
      ¬ (other.skillId = row.skillId ∧ other.version = row.version) := by
  intro other hother
  have hany := (Bool.and_eq_true_iff.1 h).2
  rw [Bool.not_eq_true', List.any_eq_false] at hany
  have hother := hany other hother
  rw [decide_eq_true_eq, not_or] at hother
  exact hother

theorem WellFormed.insertVersion {row : SkillVersionRow} (hwf : db.WellFormed)
    (h : db.insertVersion row = .ok db') (hskill : row.skillId ∈ db.skills.map (·.id)) :
    db'.WellFormed := by
  obtain ⟨htakes, rfl⟩ := insertVersion_ok.1 h
  refine ⟨hwf.skills, nodup_map_snoc hwf.versions fun other hother =>
    (takesVersion_iff htakes other hother).1, hwf.assignments, fun v hv => ?_, hwf.assignmentsOf⟩
  obtain hv | hv := List.mem_append.1 hv
  · exact hwf.versionsOf v hv
  · rw [List.mem_singleton.1 hv]
    exact hskill

theorem map_id_flush (h : db.flushSkill now old new = .ok (db', row)) :
    db'.skills.map (·.id) = db.skills.map (·.id) ∧ db'.versions = db.versions ∧
      db'.assignments = db.assignments := by
  obtain ⟨-, rfl, -⟩ | ⟨-, -, rfl⟩ := flushSkill_ok h
  · exact ⟨rfl, rfl, rfl⟩
  · exact ⟨map_replaceRow, rfl, rfl⟩

theorem WellFormed.flushSkill (hwf : db.WellFormed)
    (h : db.flushSkill now old new = .ok (db', row)) : db'.WellFormed := by
  obtain ⟨hids, hversions, hassignments⟩ := map_id_flush h
  refine ⟨?_, ?_, ?_, ?_, ?_⟩
  · rw [Keyed, hids]
    exact hwf.skills
  · rw [hversions]
    exact hwf.versions
  · rw [hassignments]
    exact hwf.assignments
  · rw [hids, hversions]
    exact hwf.versionsOf
  · rw [hids, hassignments]
    exact hwf.assignmentsOf

theorem WellFormed.updateSkillMetadata {result : Option SkillRow} (hwf : db.WellFormed)
    (h : db.updateSkillMetadata cfg now skillId tenantId updates = .ok (db', result)) :
    db'.WellFormed := by
  obtain ⟨-, rfl, -⟩ | ⟨skill, new, row, -, -, hflush, -⟩ := updateSkillMetadata_ok h
  · exact hwf
  · exact hwf.flushSkill hflush

theorem updateSkillMetadata_of_setStatus {status : String} {result : Option SkillRow}
    (h : db.setStatus cfg now skillId tenantId status = .ok (db', result)) :
    db.updateSkillMetadata cfg now skillId tenantId [("status", .string status)] =
      .ok (db', result) := by
  unfold setStatus at h
  simp only at h
  split at h
  next => cases h
  next => exact h

/-- Fewer versions. -/
theorem WellFormed.filter_versions (hwf : db.WellFormed) (p : SkillVersionRow → Bool) :
    { db with versions := db.versions.filter p }.WellFormed :=
  ⟨hwf.skills, hwf.versions.sublist (List.filter_sublist.map _), hwf.assignments,
    fun row hrow => hwf.versionsOf row (List.mem_of_mem_filter hrow), hwf.assignmentsOf⟩

theorem mem_ids_of_getSkill (h : db.getSkill skillId tenantId = some skill) :
    skillId ∈ db.skills.map (·.id) := by
  obtain ⟨hmem, hid, -⟩ := getSkill_eq_some h
  exact List.mem_map.2 ⟨skill, hmem, hid⟩

theorem WellFormed.updateSkillBody {body : List Char} {yaml : Option (List Char)}
    {note : Option String} {createdBy : String} {version : Option SkillVersionRow}
    (hwf : db.WellFormed) (h : db.updateSkillBody cfg draw skillId tenantId body yaml note createdBy =
      .ok (db', version)) : db'.WellFormed := by
  unfold SkillsDb.updateSkillBody at h
  split at h
  next =>
    cases h
    exact hwf
  next skill hskill =>
    obtain ⟨db₁, hinsert, h⟩ := bind_eq_ok.1 h
    obtain ⟨⟨db₂, row⟩, hflush, h⟩ := bind_eq_ok.1 h
    cases h
    exact ((hwf.insertVersion hinsert (mem_ids_of_getSkill hskill)).flushSkill hflush).filter_versions _

theorem WellFormed.createSkill {name : Json} {body : List Char} {yaml : Option (List Char)}
    {createdBy : String} {metadata : JsonObject} (hwf : db.WellFormed)
    (h : db.createSkill cfg draw tenantId name body yaml createdBy metadata = .ok (db', row)) :
    db'.WellFormed := by
  unfold SkillsDb.createSkill at h
  split at h
  next => cases h
  next =>
    split at h
    next => cases h
    next =>
      split at h
      next => cases h
      next row' _ =>
        obtain ⟨db₁, hinsert, h⟩ := bind_eq_ok.1 h
        obtain ⟨db₂, hversion, h⟩ := bind_eq_ok.1 h
        cases h
        refine (hwf.insertSkill hinsert).insertVersion hversion ?_
        obtain ⟨-, -, rfl⟩ := insertSkill_ok hinsert
        simp

theorem WellFormed.deleteSkill (hwf : db.WellFormed) :
    (db.deleteSkill skillId tenantId).1.WellFormed := by
  unfold SkillsDb.deleteSkill
  split
  next => exact hwf
  next =>
    have hstays {id : Uuid} (hid : id ∈ db.skills.map (·.id)) (hne : id ≠ skillId) :
        id ∈ (db.skills.filter (·.id ≠ skillId)).map (·.id) := by
      obtain ⟨row, hrow, rfl⟩ := List.mem_map.1 hid
      exact List.mem_map_of_mem (List.mem_filter.2 ⟨hrow, decide_eq_true hne⟩)
    refine ⟨hwf.skills.sublist (List.filter_sublist.map _),
      hwf.versions.sublist (List.filter_sublist.map _),
      hwf.assignments.sublist (List.filter_sublist.map _), fun row hrow => ?_, fun row hrow => ?_⟩
    · obtain ⟨hrow, hne⟩ := List.mem_filter.1 hrow
      exact hstays (hwf.versionsOf row hrow) (of_decide_eq_true hne)
    · obtain ⟨hrow, hne⟩ := List.mem_filter.1 hrow
      exact hstays (hwf.assignmentsOf row hrow) (of_decide_eq_true hne)

theorem WellFormed.createAssignment {row : SkillAssignmentRow} (hwf : db.WellFormed)
    (h : db.createAssignment cfg row tenantId = .ok db')
    (hskill : row.skillId ∈ db.skills.map (·.id)) : db'.WellFormed := by
  obtain ⟨-, hfresh, rfl⟩ := createAssignment_ok h
  refine ⟨hwf.skills, hwf.versions, nodup_map_snoc hwf.assignments hfresh, hwf.versionsOf,
    fun a ha => ?_⟩
  obtain ha | ha := List.mem_append.1 ha
  · exact hwf.assignmentsOf a ha
  · rw [List.mem_singleton.1 ha]
    exact hskill

theorem WellFormed.deleteAssignment (hwf : db.WellFormed) (assignmentId : Uuid) :
    (db.deleteAssignment assignmentId).1.WellFormed :=
  ⟨hwf.skills, hwf.versions, hwf.assignments.sublist (List.filter_sublist.map _), hwf.versionsOf,
    fun row hrow => hwf.assignmentsOf row (List.mem_of_mem_filter hrow)⟩

theorem WellFormed.handle {r : AdminRequest} {response : AdminResponse} (hwf : db.WellFormed)
    (h : db.handle cfg auth r = .ok (db', response)) : db'.WellFormed := by
  cases r with
  | createSkill draw body | importSkill draw file =>
    simp only [SkillsDb.handle] at h
    split at h
    next =>
      obtain ⟨⟨db₁, skill⟩, hcreate, h⟩ := bind_eq_ok.1 h
      obtain ⟨detail, -, h⟩ := bind_eq_ok.1 h
      cases h
      exact hwf.createSkill hcreate
    next => cases h
  | updateSkillMetadata draw skillId updates =>
    simp only [SkillsDb.handle] at h
    split at h
    next => cases h
    next =>
      obtain ⟨⟨db₁, result⟩, hmetadata, h⟩ := bind_eq_ok.1 h
      obtain ⟨detail, -, h⟩ := bind_eq_ok.1 h
      cases h
      exact hwf.updateSkillMetadata hmetadata
  | updateSkillBody draw skillId body =>
    obtain ⟨⟨db₁, result⟩, hmetadata, h⟩ := bind_eq_ok.1 h
    obtain ⟨⟨db₂, version⟩, hbody, h⟩ := bind_eq_ok.1 h
    cases version <;> cases h
    exact (hwf.updateSkillMetadata hmetadata).updateSkillBody hbody
  | publishSkill draw skillId | archiveSkill draw skillId =>
    obtain ⟨⟨db₁, result⟩, hstatus, h⟩ := bind_eq_ok.1 h
    obtain ⟨detail, -, h⟩ := bind_eq_ok.1 h
    cases h
    exact hwf.updateSkillMetadata (updateSkillMetadata_of_setStatus hstatus)
  | deleteSkill skillId =>
    simp only [SkillsDb.handle] at h
    split at h
    next =>
      cases h
      exact hwf.deleteSkill
    next => cases h
  | createAssignment draw skillId body =>
    simp only [SkillsDb.handle] at h
    split at h
    next => cases h
    next skill hskill =>
      obtain ⟨db₁, hinsert, heq⟩ := map_eq_ok.1 h
      cases heq
      exact hwf.createAssignment hinsert (mem_ids_of_getSkill hskill)
  | deleteAssignment skillId assignmentId =>
    simp only [SkillsDb.handle] at h
    split at h
    next =>
      cases h
      exact hwf.deleteAssignment assignmentId
    next => cases h
  | listSkills tenantId filter offset limit =>
    obtain ⟨⟨items, total⟩, -, h⟩ := bind_eq_ok.1 h
    simp only at h
    split at h
    next =>
      cases h
      exact hwf
    next => cases h
  | getSkill skillId | listVersions skillId | getVersion skillId version
  | listAssignments skillId | exportSkill skillId =>
    have hdb : db' = db := withSkill_ok h
    subst hdb
    exact hwf

theorem WellFormed.request (hwf : db.WellFormed) (r : AdminRequest) :
    (db.request cfg auth r).WellFormed := by
  cases h : db.handle cfg auth r with
  | error e => rwa [request_of_error h]
  | ok out =>
    rw [request_of_ok h]
    exact hwf.handle h

/-! ## What is done on the part of a tenant -/

/-- Two outcomes, on all tables and on the tenant's part of them: the same error, or the same
answer, with the rest of the tables as it was. -/
inductive Local (db : SkillsDb) (tenantId : String) :
    Except ImportFailure (SkillsDb × α) → Except ImportFailure (SkillsDb × α) → Prop
  | error (e : ImportFailure) : Local db tenantId (.error e) (.error e)
  | ok {db' : SkillsDb} {a : α} (h : db'.others tenantId = db.others tenantId) :
    Local db tenantId (.ok (db', a)) (.ok (db'.of tenantId, a))

theorem Local.pure (a : α) : db.Local tenantId (.ok (db, a)) (.ok (db.of tenantId, a)) := .ok rfl

theorem Local.trans {x y : Except ImportFailure (SkillsDb × α)} (h : db'.Local tenantId x y)
    (hothers : db'.others tenantId = db.others tenantId) : db.Local tenantId x y := by
  cases h with
  | error e => exact .error e
  | ok h => exact .ok (h.trans hothers)

theorem Local.bind {x y : Except ImportFailure (SkillsDb × α)}
    {f : SkillsDb × α → Except ImportFailure (SkillsDb × β)} (h : db.Local tenantId x y)
    (hf : ∀ db' a, x = .ok (db', a) →
      db'.Local tenantId (f (db', a)) (f (db'.of tenantId, a))) :
    db.Local tenantId (x >>= f) (y >>= f) := by
  cases h with
  | error e => exact .error e
  | ok h => exact (hf _ _ rfl).trans h

/-- The same for a statement that gives nothing but the tables. -/
theorem Local.bindDb {x y : Except ImportFailure SkillsDb}
    {f : SkillsDb → Except ImportFailure (SkillsDb × β)}
    (h : db.Local tenantId (x.map (·, ())) (y.map (·, ())))
    (hf : ∀ db', x = .ok db' → db'.Local tenantId (f db') (f (db'.of tenantId))) :
    db.Local tenantId (x >>= f) (y >>= f) := by
  cases x with
  | error e =>
    cases y with
    | error e' =>
      cases h
      exact .error e
    | ok db₂ => cases h
  | ok db₁ =>
    cases y with
    | error e' => cases h
    | ok db₂ =>
      cases h with
      | ok h => exact (hf _ rfl).trans h

theorem Local.mapDb {x y : Except ImportFailure SkillsDb}
    (h : db.Local tenantId (x.map (·, ())) (y.map (·, ()))) (a : α) :
    db.Local tenantId (x.map (·, a)) (y.map (·, a)) := by
  have hbind := @Local.bindDb _ _ _ x y (fun db => .ok (db, a)) h fun _ _ => .pure a
  cases x <;> cases y <;> exact hbind

/-- An answer that is the same. -/
theorem Local.answer {x : Except ImportFailure α} {f : α → β} :
    db.Local tenantId (x.map fun a => (db, f a)) (x.map fun a => (db.of tenantId, f a)) := by
  cases x with
  | error e => exact .error e
  | ok a => exact .pure (f a)

/-- Where the children have the owners they had, only the skills of a part change. -/
theorem parts_with_skills {skills : List SkillRow} (hwf : db.WellFormed)
    (howns : ∀ id ∈ db.skills.map (·.id),
      { db with skills := skills }.owns tenantId id = db.owns tenantId id) :
    { db with skills := skills }.of tenantId =
        { db.of tenantId with skills := skills.filter fun row => row.tenantId = tenantId } ∧
      { db with skills := skills }.others tenantId =
        { db.others tenantId with
          skills := skills.filter fun row => !decide (row.tenantId = tenantId) } := by
  refine ⟨?_, ?_⟩
  · refine (SkillsDb.mk.injEq ..).mpr ⟨rfl, List.filter_congr fun row hrow => ?_,
      List.filter_congr fun row hrow => ?_⟩
    · exact howns _ (hwf.versionsOf row hrow)
    · exact howns _ (hwf.assignmentsOf row hrow)
  · refine (SkillsDb.mk.injEq ..).mpr ⟨rfl, List.filter_congr fun row hrow => ?_,
      List.filter_congr fun row hrow => ?_⟩
    · rw [howns _ (hwf.versionsOf row hrow)]
    · rw [howns _ (hwf.assignmentsOf row hrow)]

theorem local_insertSkill (hwf : db.WellFormed) (htenant : row.tenantId = tenantId)
    (hfree : ∀ other ∈ db.skills, other.id = row.id → other.tenantId = tenantId) :
    db.Local tenantId ((db.insertSkill row).map (·, ()))
      (((db.of tenantId).insertSkill row).map (·, ())) := by
  have hany : (db.of tenantId).skills.any (fun other => other.id = row.id ∨
      (other.tenantId = row.tenantId ∧ other.slug = row.slug)) =
        db.skills.any fun other => other.id = row.id ∨
          (other.tenantId = row.tenantId ∧ other.slug = row.slug) := by
    refine any_filter_of_imp fun other hother h => ?_
    rw [decide_eq_true_eq] at h ⊢
    obtain h | h := h
    · exact hfree other hother h
    · exact h.1.trans htenant
  unfold insertSkill
  rw [hany]
  split
  next =>
    split
    next => exact .error _
    next hfresh =>
      have hskills : (db.skills ++ [row]).filter (fun row => row.tenantId = tenantId) =
          (db.of tenantId).skills ++ [row] := by
        rw [List.filter_append, List.filter_singleton, decide_eq_true htenant]
        rfl
      have hrest : (db.skills ++ [row]).filter (fun row => !decide (row.tenantId = tenantId)) =
          (db.others tenantId).skills := by
        rw [List.filter_append, List.filter_singleton, decide_eq_true htenant]
        exact List.append_nil _
      have howns : ∀ id ∈ db.skills.map (·.id),
          { db with skills := db.skills ++ [row] }.owns tenantId id = db.owns tenantId id := by
        intro id hid
        obtain ⟨other, hother, rfl⟩ := List.mem_map.1 hid
        have hne : row.id ≠ other.id := by
          intro heq
          refine hfresh (List.any_eq_true.2 ⟨other, hother, ?_⟩)
          exact decide_eq_true (.inl heq.symm)
        rw [owns, owns, List.any_append]
        simp [hne]
      obtain ⟨hof, hothers⟩ := parts_with_skills hwf howns
      rw [hskills] at hof
      rw [hrest] at hothers
      simp only [Except.map]
      rw [← hof]
      exact .ok hothers
  next => exact .error _

theorem local_insertVersion {row : SkillVersionRow} (howns : db.owns tenantId row.skillId)
    (hfree : ∀ other ∈ db.versions, other.id = row.id → db.owns tenantId other.skillId) :
    db.Local tenantId ((db.insertVersion row).map (·, ()))
      (((db.of tenantId).insertVersion row).map (·, ())) := by
  have hany : (db.of tenantId).versions.any (fun other => other.id = row.id ∨
      (other.skillId = row.skillId ∧ other.version = row.version)) =
        db.versions.any fun other => other.id = row.id ∨
          (other.skillId = row.skillId ∧ other.version = row.version) := by
    refine any_filter_of_imp fun other hother h => ?_
    obtain h | h := of_decide_eq_true h
    · exact hfree other hother h
    · rw [h.1]
      exact howns
  unfold insertVersion
  rw [hany]
  split
  next =>
    split
    next => exact .error _
    next =>
      have hof : { db with versions := db.versions ++ [row] }.of tenantId =
          { db.of tenantId with versions := (db.of tenantId).versions ++ [row] } := by
        refine (SkillsDb.mk.injEq ..).mpr ⟨rfl, ?_, rfl⟩
        change (db.versions ++ [row]).filter (fun v => db.owns tenantId v.skillId) = _
        rw [List.filter_append, List.filter_singleton, howns]
        rfl
      simp only [Except.map]
      rw [← hof]
      refine .ok ((SkillsDb.mk.injEq ..).mpr ⟨rfl, ?_, rfl⟩)
      change (db.versions ++ [row]).filter (fun v => !db.owns tenantId v.skillId) = _
      rw [List.filter_append, List.filter_singleton, howns]
      exact List.append_nil _
  next => exact .error _

theorem owns_replaceRow {id : Uuid} (hkeyed : db.Keyed) (hold : old ∈ db.skills)
    (hid : row.id = old.id) (htenant : row.tenantId = old.tenantId) :
    { db with skills := replaceRow (·.id) row db.skills }.owns tenantId id =
      db.owns tenantId id := by
  refine any_replaceRow fun x hx hkey => ?_
  rw [List.inj_on_of_nodup_map hkeyed hx hold (hkey.trans hid), hid, htenant]

theorem local_flushSkill (hwf : db.WellFormed) (hold : db.getSkill skillId tenantId = some old)
    (hid : new.id = old.id) (htenant : new.tenantId = old.tenantId) :
    db.Local tenantId (db.flushSkill now old new) ((db.of tenantId).flushSkill now old new) := by
  obtain ⟨hmem, -, howner⟩ := getSkill_eq_some hold
  unfold flushSkill
  split
  next => exact .pure old
  next =>
    split
    next =>
      have hsame : ∀ x ∈ db.skills, x.id = new.id → x.tenantId = tenantId := fun x hx hkey => by
        rw [List.inj_on_of_nodup_map hwf.skills hx hmem (hkey.trans hid), howner]
      have hpart : (replaceRow (·.id) { new with updatedAt := now } db.skills).filter
          (fun row => row.tenantId = tenantId) =
            replaceRow (·.id) { new with updatedAt := now } (db.of tenantId).skills :=
        filter_replaceRow (decide_eq_true (htenant.trans howner)) fun x hx hkey =>
          decide_eq_true (hsame x hx hkey)
      have hrest : (replaceRow (·.id) { new with updatedAt := now } db.skills).filter
          (fun row => !decide (row.tenantId = tenantId)) = (db.others tenantId).skills := by
        refine filter_replaceRow_of_not ?_ fun x hx hkey => ?_
        · rw [htenant, howner]
          simp
        · rw [hsame x hx hkey]
          simp
      obtain ⟨hof, hothers⟩ := @parts_with_skills db tenantId
        (replaceRow (·.id) { new with updatedAt := now } db.skills) hwf
        fun id _ => owns_replaceRow hwf.skills hmem hid htenant
      rw [hpart] at hof
      rw [hrest] at hothers
      simp only
      exact hof ▸ .ok hothers
    next => exact .error _

theorem local_updateSkillMetadata (hwf : db.WellFormed) :
    db.Local tenantId (db.updateSkillMetadata cfg now skillId tenantId updates)
      ((db.of tenantId).updateSkillMetadata cfg now skillId tenantId updates) := by
  unfold updateSkillMetadata
  rw [getSkill_of]
  split
  next => exact .pure none
  next skill hskill =>
    split
    next => exact .error _
    next new hnew =>
      obtain ⟨hid, htenant, -⟩ := setColumns_eq_some hnew
      exact (local_flushSkill hwf hskill hid htenant).bind fun db' row _ => .pure (some row)

theorem local_setStatus {status : String} (hwf : db.WellFormed) :
    db.Local tenantId (db.setStatus cfg now skillId tenantId status)
      ((db.of tenantId).setStatus cfg now skillId tenantId status) := by
  have hcount : ((db.of tenantId).skills.countP fun row =>
      row.tenantId = tenantId ∧ row.status = published ∧ row.id ≠ skillId) =
        db.skills.countP fun row =>
          row.tenantId = tenantId ∧ row.status = published ∧ row.id ≠ skillId := by
    refine countP_filter_of_imp fun row _ h => ?_
    exact decide_eq_true (of_decide_eq_true h).1
  unfold setStatus
  rw [hcount]
  simp only
  split
  next => exact .error _
  next => exact local_updateSkillMetadata hwf

/-- Versions of a tenant's skill go. -/
theorem local_filter_versions {ids : List Uuid} {a : α} (hwf : db.WellFormed)
    (hids : ∀ id ∈ ids, ∃ v ∈ db.versions, v.id = id ∧ db.owns tenantId v.skillId) :
    db.Local tenantId (.ok ({ db with versions := db.versions.filter (·.id ∉ ids) }, a))
      (.ok ({ db.of tenantId with versions := (db.of tenantId).versions.filter (·.id ∉ ids) }, a)) := by
  have hof : { db with versions := db.versions.filter (·.id ∉ ids) }.of tenantId =
      { db.of tenantId with versions := (db.of tenantId).versions.filter (·.id ∉ ids) } :=
    (SkillsDb.mk.injEq ..).mpr ⟨rfl, List.filter_comm _ _ _, rfl⟩
  rw [← hof]
  refine .ok ((SkillsDb.mk.injEq ..).mpr ⟨rfl, ?_, rfl⟩)
  refine filter_filter_of_imp fun v hv hother => decide_eq_true fun hmem => ?_
  obtain ⟨v', hv', hid, howns⟩ := hids v.id hmem
  rw [List.inj_on_of_nodup_map hwf.versions hv' hv hid] at howns
  change (!db.owns tenantId v.skillId) = true at hother
  rw [howns] at hother
  cases hother

theorem mem_oldVersions {versions : List SkillVersionRow} {v : SkillVersionRow}
    (h : v ∈ oldVersions cfg versions) : v ∈ versions := by
  unfold oldVersions at h
  split at h
  · split at h
    · exact List.mem_of_getLast? (Option.mem_toList.1 h)
    · exact List.mem_of_mem_drop h
  · cases h

theorem local_updateSkillBody {body : List Char} {yaml : Option (List Char)}
    {note : Option String} {createdBy : String} (hwf : db.WellFormed)
    (hfree : ∀ other ∈ db.versions, other.id = draw.versionId → db.owns tenantId other.skillId) :
    db.Local tenantId (db.updateSkillBody cfg draw skillId tenantId body yaml note createdBy)
      ((db.of tenantId).updateSkillBody cfg draw skillId tenantId body yaml note createdBy) := by
  unfold updateSkillBody
  rw [getSkill_of]
  split
  next => exact .pure none
  next skill hskill =>
    have howns := owns_of_getSkill hskill
    rw [listVersions_of howns]
    refine Local.bindDb (local_insertVersion howns hfree) fun db₁ hinsert => ?_
    have hwf₁ := hwf.insertVersion hinsert (mem_ids_of_getSkill hskill)
    obtain ⟨-, rfl⟩ := insertVersion_ok.1 hinsert
    refine Local.bind (local_flushSkill hwf₁ hskill rfl rfl) fun db₂ row hflush => ?_
    refine local_filter_versions (hwf₁.flushSkill hflush) fun id hid => ?_
    obtain ⟨v, hv, rfl⟩ := List.mem_map.1 hid
    obtain ⟨hmem, hv⟩ := List.mem_filter.1 ((List.mem_insertionSort _).1 (mem_oldVersions hv))
    refine ⟨v, ?_, rfl, ?_⟩
    · rw [(map_id_flush hflush).2.1]
      exact List.mem_append_left _ hmem
    · rw [of_decide_eq_true hv]
      exact owns_of_getSkill (getSkill_flush hflush hwf.skills hskill rfl rfl)

theorem local_createSkill {name : Json} {body : List Char} {yaml : Option (List Char)}
    {createdBy : String} {metadata : JsonObject} (hwf : db.WellFormed)
    (hfree : db.freeFor tenantId draw) :
    db.Local tenantId (db.createSkill cfg draw tenantId name body yaml createdBy metadata)
      ((db.of tenantId).createSkill cfg draw tenantId name body yaml createdBy metadata) := by
  unfold createSkill
  rw [publishedCount_of]
  split
  next => exact .error _
  next =>
    split
    next => exact .error _
    next =>
      split
      next => exact .error _
      next row hrow =>
        obtain ⟨hid, htenant, -⟩ := setColumns_eq_some hrow
        have hfreeSkill : ∀ other ∈ db.skills, other.id = row.id → other.tenantId = tenantId :=
          fun other hother heq => hfree.1 other hother (heq.trans hid)
        refine Local.bindDb (local_insertSkill hwf htenant hfreeSkill) fun db₁ hinsert => ?_
        obtain ⟨-, -, rfl⟩ := insertSkill_ok hinsert
        refine Local.bindDb (local_insertVersion ?_ fun other hother heq => ?_) fun db₂ _ => ?_
        · exact owns_iff.2 ⟨row, List.mem_append_right _ List.mem_cons_self, rfl, htenant⟩
        · obtain ⟨skill, hskill, hskillId⟩ := owns_iff.1 (hfree.2.1 other hother heq)
          exact owns_iff.2 ⟨skill, List.mem_append_left _ hskill, hskillId⟩
        · exact .pure row

theorem createSkill_owns {name : Json} {body : List Char} {yaml : Option (List Char)}
    {createdBy : String} {metadata : JsonObject}
    (h : db.createSkill cfg draw tenantId name body yaml createdBy metadata = .ok (db', row)) :
    db'.owns tenantId row.id := by
  unfold createSkill at h
  split at h
  next => cases h
  next =>
    split at h
    next => cases h
    next =>
      split at h
      next => cases h
      next row' hrow =>
        obtain ⟨db₁, hinsert, h⟩ := bind_eq_ok.1 h
        obtain ⟨db₂, hversion, h⟩ := bind_eq_ok.1 h
        cases h
        obtain ⟨-, -, rfl⟩ := insertSkill_ok hinsert
        obtain ⟨-, rfl⟩ := insertVersion_ok.1 hversion
        obtain ⟨-, htenant, -⟩ := setColumns_eq_some hrow
        exact owns_iff.2 ⟨row, List.mem_append_right _ List.mem_cons_self, rfl, htenant⟩

theorem local_createAssignment {row : SkillAssignmentRow} (howns : db.owns tenantId row.skillId)
    (hfree : ∀ other ∈ db.assignments, other.id = row.id → db.owns tenantId other.skillId) :
    db.Local tenantId ((db.createAssignment cfg row tenantId).map (·, ()))
      (((db.of tenantId).createAssignment cfg row tenantId).map (·, ())) := by
  have hcount : ((db.of tenantId).assignments.countP fun a =>
      (db.of tenantId).owns tenantId a.skillId) =
        db.assignments.countP fun a => db.owns tenantId a.skillId := by
    simp only [owns_of]
    exact countP_filter_of_imp fun _ _ h => h
  have hany : (db.of tenantId).assignments.any (·.id = row.id) =
      db.assignments.any (·.id = row.id) :=
    any_filter_of_imp fun other hother h => hfree other hother (of_decide_eq_true h)
  unfold createAssignment
  rw [hcount, hany]
  split
  next => exact .error _
  next =>
    split
    next =>
      split
      next => exact .error _
      next =>
        have hof : { db with assignments := db.assignments ++ [row] }.of tenantId =
            { db.of tenantId with assignments := (db.of tenantId).assignments ++ [row] } := by
          refine (SkillsDb.mk.injEq ..).mpr ⟨rfl, rfl, ?_⟩
          change (db.assignments ++ [row]).filter (fun a => db.owns tenantId a.skillId) = _
          rw [List.filter_append, List.filter_singleton, howns]
          rfl
        simp only [Except.map]
        rw [← hof]
        refine .ok ((SkillsDb.mk.injEq ..).mpr ⟨rfl, rfl, ?_⟩)
        change (db.assignments ++ [row]).filter (fun a => !db.owns tenantId a.skillId) = _
        rw [List.filter_append, List.filter_singleton, howns]
        exact List.append_nil _
    next => exact .error _

/-- The owner of a child that stays. -/
theorem owns_of_ne {id : Uuid} (h : id ≠ skillId) :
    { db with skills := db.skills.filter (·.id ≠ skillId) }.owns tenantId id =
      db.owns tenantId id := by
  refine any_filter_of_imp fun row _ hrow => decide_eq_true ?_
  rw [(of_decide_eq_true hrow).1]
  exact h

theorem filter_owned {γ : Type} {rows : List γ} {key : γ → Uuid} :
    (rows.filter (key · ≠ skillId)).filter (fun row =>
        { db with skills := db.skills.filter (·.id ≠ skillId) }.owns tenantId (key row)) =
      (rows.filter fun row => db.owns tenantId (key row)).filter (key · ≠ skillId) := by
  rw [List.filter_comm (key · ≠ skillId)]
  refine List.filter_congr fun row hrow => ?_
  exact owns_of_ne (of_decide_eq_true (List.mem_filter.1 hrow).2)

theorem filter_not_owned {γ : Type} {rows : List γ} {key : γ → Uuid}
    (h : db.owns tenantId skillId) :
    (rows.filter (key · ≠ skillId)).filter (fun row =>
        !{ db with skills := db.skills.filter (·.id ≠ skillId) }.owns tenantId (key row)) =
      rows.filter fun row => !db.owns tenantId (key row) := by
  have hrest : (rows.filter (key · ≠ skillId)).filter (fun row =>
      !{ db with skills := db.skills.filter (·.id ≠ skillId) }.owns tenantId (key row)) =
        (rows.filter (key · ≠ skillId)).filter fun row => !db.owns tenantId (key row) := by
    refine List.filter_congr fun row hrow => ?_
    rw [owns_of_ne (of_decide_eq_true (List.mem_filter.1 hrow).2)]
  rw [hrest]
  refine filter_filter_of_imp fun row _ hother => decide_eq_true fun heq => ?_
  rw [heq, h] at hother
  cases hother

theorem deleteSkill_of (hwf : db.WellFormed) :
    (db.of tenantId).deleteSkill skillId tenantId =
        ((db.deleteSkill skillId tenantId).1.of tenantId, (db.deleteSkill skillId tenantId).2) ∧
      (db.deleteSkill skillId tenantId).1.others tenantId = db.others tenantId := by
  unfold deleteSkill
  rw [getSkill_of]
  split
  next => exact ⟨rfl, rfl⟩
  next skill hskill =>
    have howns := owns_of_getSkill hskill
    refine ⟨?_, ?_⟩
    · refine Prod.ext ((SkillsDb.mk.injEq ..).mpr ⟨List.filter_comm _ _ _, ?_, ?_⟩) rfl
      · exact filter_owned.symm
      · exact filter_owned.symm
    · refine (SkillsDb.mk.injEq ..).mpr ⟨?_, filter_not_owned howns, filter_not_owned howns⟩
      refine filter_filter_of_imp fun row hrow hother => decide_eq_true fun hid => ?_
      rw [hwf.tenantId_eq howns hrow hid] at hother
      simp at hother

theorem deleteAssignment_of {assignmentId : Uuid} (h : ∀ row ∈ db.assignments,
      row.id = assignmentId → db.owns tenantId row.skillId) :
    (db.of tenantId).deleteAssignment assignmentId = ((db.deleteAssignment assignmentId).1.of tenantId,
        (db.deleteAssignment assignmentId).2) ∧
      (db.deleteAssignment assignmentId).1.others tenantId = db.others tenantId := by
  refine ⟨Prod.ext ((SkillsDb.mk.injEq ..).mpr ⟨rfl, rfl, List.filter_comm _ _ _⟩) ?_, ?_⟩
  · exact any_filter_of_imp fun row hrow hid => h row hrow (of_decide_eq_true hid)
  · refine (SkillsDb.mk.injEq ..).mpr ⟨rfl, rfl, ?_⟩
    refine filter_filter_of_imp fun row hrow hother => decide_eq_true fun hid => ?_
    change (!db.owns tenantId row.skillId) = true at hother
    rw [h row hrow hid] at hother
    cases hother

/-! ## The endpoints -/

theorem local_withSkill {respond respond' : SkillRow → Except ImportFailure AdminResponse}
    (h : ∀ skill, db.getSkill skillId auth.tenantId = some skill → respond' skill = respond skill) :
    db.Local auth.tenantId (db.withSkill auth skillId respond)
      ((db.of auth.tenantId).withSkill auth skillId respond') := by
  unfold withSkill
  rw [getSkill_of]
  split
  next => exact .error _
  next skill hskill =>
    rw [h skill hskill]
    exact Local.answer (f := id)

theorem local_created {name : Json} {parsed : ParsedSkill} {metadata : JsonObject}
    (hwf : db.WellFormed) (hfree : db.freeFor auth.tenantId draw) :
    db.Local auth.tenantId (db.created cfg auth draw name parsed metadata)
      ((db.of auth.tenantId).created cfg auth draw name parsed metadata) := by
  refine Local.bind (local_createSkill hwf hfree) fun db' skill hcreate => ?_
  simp only
  rw [skillToDetail_of (createSkill_owns hcreate)]
  exact Local.answer (f := AdminResponse.detail)

theorem local_detailOrNotFound {result : Option SkillRow}
    (h : ∀ row, result = some row → db.owns tenantId row.id) :
    db.Local tenantId (do return (db, ← db.detailOrNotFound result))
      (do return (db.of tenantId, ← (db.of tenantId).detailOrNotFound result)) := by
  cases result with
  | none => exact .error _
  | some row =>
    simp only [detailOrNotFound]
    rw [skillToDetail_of (h row rfl)]
    exact Local.answer (f := id)

theorem updateSkillMetadata_owns {result : Option SkillRow} (hkeyed : db.Keyed)
    (h : db.updateSkillMetadata cfg now skillId tenantId updates = .ok (db', result)) :
    ∀ row, result = some row → db'.owns tenantId row.id := by
  obtain ⟨-, rfl, rfl⟩ | ⟨skill, new, row, hskill, hnew, hflush, rfl⟩ := updateSkillMetadata_ok h
  · intro row hrow
    cases hrow
  · intro row' hrow
    cases hrow
    obtain ⟨hid, htenant, -⟩ := setColumns_eq_some hnew
    obtain ⟨hmem, -, howner⟩ := getSkill_eq_some (getSkill_flush hflush hkeyed hskill hid htenant)
    exact owns_iff.2 ⟨row, hmem, rfl, howner⟩

theorem updateSkillMetadata_versions {result : Option SkillRow}
    (h : db.updateSkillMetadata cfg now skillId tenantId updates = .ok (db', result)) :
    db'.versions = db.versions := by
  rcases updateSkillMetadata_ok h with ⟨-, rfl, -⟩ | ⟨skill, new, row, -, -, hflush, -⟩
  · rfl
  · exact (map_id_flush hflush).2.1

theorem owns_updateSkillMetadata {result : Option SkillRow} {id : Uuid} (hkeyed : db.Keyed)
    (h : db.updateSkillMetadata cfg now skillId tenantId updates = .ok (db', result)) :
    db'.owns tenantId id = db.owns tenantId id := by
  rcases updateSkillMetadata_ok h with ⟨-, rfl, -⟩ | ⟨skill, new, row, hskill, hnew, hflush, -⟩
  · rfl
  · obtain ⟨hid, htenant, -⟩ := setColumns_eq_some hnew
    rcases flushSkill_ok hflush with ⟨-, rfl, -⟩ | ⟨-, rfl, rfl⟩
    · rfl
    · exact owns_replaceRow hkeyed (getSkill_eq_some hskill).1 hid htenant

theorem local_handle {r : AdminRequest} (hwf : db.WellFormed) (h : db.staysApart auth r) :
    db.Local auth.tenantId (db.handle cfg auth r) ((db.of auth.tenantId).handle cfg auth r) := by
  cases r with
  | listSkills tenantId filter offset limit =>
    simp only [handle]
    by_cases hpage : 0 ≤ offset ∧ 0 ≤ limit
    · rw [h hpage.1 hpage.2, listSkills_of]
      cases db.listSkills cfg auth.tenantId filter offset (min limit 100) with
      | error e => exact .error e
      | ok page =>
        simp only [bind, Except.bind]
        split
        next => exact .pure _
        next => exact .error _
    · have hnegative : offset < 0 ∨ min limit 100 < 0 := by omega
      unfold listSkills
      rw [if_pos hnegative, if_pos hnegative]
      exact .error _
  | createSkill draw body | importSkill draw file =>
    simp only [handle]
    split
    next => exact local_created hwf h
    next => exact .error _
  | getSkill skillId =>
    refine local_withSkill fun skill hskill => ?_
    rw [skillToDetail_of]
    rw [(getSkill_eq_some hskill).2.1]
    exact owns_of_getSkill hskill
  | updateSkillMetadata draw skillId updates =>
    simp only [handle]
    split
    next => exact .error _
    next =>
      refine Local.bind (local_updateSkillMetadata hwf) fun db' result hmetadata => ?_
      exact local_detailOrNotFound (updateSkillMetadata_owns hwf.skills hmetadata)
  | updateSkillBody draw skillId body =>
    refine Local.bind (local_updateSkillMetadata hwf) fun db₁ result hmetadata => ?_
    have hfree₁ : ∀ other ∈ db₁.versions, other.id = draw.versionId →
        db₁.owns auth.tenantId other.skillId := by
      intro other hother heq
      rw [updateSkillMetadata_versions hmetadata] at hother
      rw [owns_updateSkillMetadata hwf.skills hmetadata]
      exact h.2.1 other hother heq
    refine Local.bind (local_updateSkillBody (hwf.updateSkillMetadata hmetadata) hfree₁)
      fun db₂ version _ => ?_
    cases version with
    | none => exact .error _
    | some version => exact .pure _
  | publishSkill draw skillId | archiveSkill draw skillId =>
    refine Local.bind (local_setStatus hwf) fun db' result hstatus => ?_
    exact local_detailOrNotFound
      (updateSkillMetadata_owns hwf.skills (updateSkillMetadata_of_setStatus hstatus))
  | deleteSkill skillId =>
    obtain ⟨hof, hothers⟩ := @deleteSkill_of db skillId auth.tenantId hwf
    simp only [handle]
    rw [hof]
    simp only
    split
    next => exact .ok hothers
    next => exact .error _
  | listVersions skillId =>
    refine local_withSkill fun skill hskill => ?_
    rw [listVersions_of (owns_of_getSkill hskill)]
  | getVersion skillId version =>
    refine local_withSkill fun skill hskill => ?_
    rw [getVersion_of (owns_of_getSkill hskill)]
  | listAssignments skillId =>
    refine local_withSkill fun skill hskill => ?_
    rw [listAssignments_of (owns_of_getSkill hskill)]
  | createAssignment draw skillId body =>
    simp only [handle]
    rw [getSkill_of]
    split
    next => exact .error _
    next skill hskill =>
      exact (local_createAssignment (owns_of_getSkill hskill) h.2.2).mapDb _
  | deleteAssignment skillId assignmentId =>
    obtain ⟨hof, hothers⟩ := deleteAssignment_of h
    simp only [handle]
    rw [hof]
    simp only
    split
    next => exact .ok hothers
    next => exact .error _
  | exportSkill skillId =>
    refine local_withSkill fun skill hskill => ?_
    rw [getCurrentVersionBody_of hwf (owns_of_getSkill hskill)]

/-- A request that stays apart, on all tables and on the tenant's part. -/
theorem request_of {r : AdminRequest} (hwf : db.WellFormed) (h : db.staysApart auth r) :
    (db.request cfg auth r).of auth.tenantId =
        (db.of auth.tenantId).request cfg auth r ∧
      (db.request cfg auth r).others auth.tenantId = db.others auth.tenantId ∧
      db.response cfg auth r = (db.of auth.tenantId).response cfg auth r := by
  have hlocal := @local_handle cfg auth db r hwf h
  unfold request response
  generalize db.handle cfg auth r = x at hlocal ⊢
  generalize (db.of auth.tenantId).handle cfg auth r = y at hlocal ⊢
  cases hlocal with
  | error e => exact ⟨rfl, rfl, rfl⟩
  | ok hothers => exact ⟨rfl, hothers, rfl⟩

/-- For an observer of one tenant the requests of its callers that stay apart meet the unwinding
conditions. -/
theorem unwinding (cfg : SkillsConfig) (tenantId : String) :
    Unwinding (serve cfg) (reply cfg) (fun db => db.of tenantId) WellFormed
      fun db call => call.1.tenantId = tenantId ∧ db.staysApart call.1 call.2 where
  invariant _ call hwf _ := hwf.request call.2
  answer_eq s t call hs ht hsok htok hview := by
    obtain ⟨rfl, hsok⟩ := hsok
    rw [reply, reply, (request_of hs hsok).2.2, (request_of ht htok.2).2.2, hview]
  view_eq s t call hs ht hsok htok hview := by
    obtain ⟨rfl, hsok⟩ := hsok
    simp only [serve]
    rw [(request_of hs hsok).1, (request_of ht htok.2).1, hview]

theorem wellFormed_empty : WellFormed ⟨[], [], []⟩ :=
  ⟨List.nodup_nil, List.nodup_nil, List.nodup_nil, List.forall_mem_nil _, List.forall_mem_nil _⟩

theorem wellFormed_of_reachable (h : Reachable (· = ⟨[], [], []⟩) (serve cfg) db) :
    db.WellFormed := by
  refine h.invariant ?_ fun _ call hwf => hwf.request call.2
  rintro _ rfl
  exact wellFormed_empty

/-- The requests of a tenant's callers that stay apart leave everything of the other tenants as it
was, and are answered the same in any two states that are the same for the tenant. -/
theorem tenant_isolated (cfg : SkillsConfig) (tenantId : String) {s t : SkillsDb}
    (hs : Reachable (· = ⟨[], [], []⟩) (serve cfg) s)
    (ht : Reachable (· = ⟨[], [], []⟩) (serve cfg) t) (hview : s.of tenantId = t.of tenantId)
    {calls : List (AuthContext × AdminRequest)} (hcaller : ∀ call ∈ calls, call.1.tenantId = tenantId)
    (hsok : Guarded (serve cfg) (fun db call => db.staysApart call.1 call.2) s calls)
    (htok : Guarded (serve cfg) (fun db call => db.staysApart call.1 call.2) t calls) :
    (∀ pre, pre <+: calls → (run (serve cfg) s pre).others tenantId = s.others tenantId) ∧
      answers (serve cfg) (reply cfg) s calls = answers (serve cfg) (reply cfg) t calls := by
  have hwf := wellFormed_of_reachable hs
  have hsok := hsok.and_events hcaller
  refine ⟨?_, ((unwinding cfg tenantId).agree hwf (wellFormed_of_reachable ht) hview hsok
    (htok.and_events hcaller)).1⟩
  refine hsok.always (I := fun db => db.WellFormed ∧ db.others tenantId = s.others tenantId) ?_
    (fun _ h => h.2) ⟨hwf, rfl⟩
  rintro db call ⟨hdb, hothers⟩ ⟨rfl, hok⟩
  exact ⟨hdb.request call.2, (request_of hdb hok).2.1.trans hothers⟩

theorem nonempty_x : ['x'] ≠ [] := by decide

theorem nonempty_y : ['y'] ≠ [] := by decide

theorem nameFits_s : (some "s").elim 0 String.length ≤ 255 := by decide

theorem tenant_known : "tenant" ∈ targetTypes := by decide

theorem noPriority_inRange : ∀ n : Int, none = some n → 0 ≤ n ∧ n ≤ 100 := by simp

/-- A tenant "b" with a skill and an assignment of it. -/
def othersAssignment : List (AuthContext × AdminRequest) :=
  [(⟨"v", "b"⟩, .createSkill ⟨0, 1, 1, 1⟩ ⟨['x'], some "s", nonempty_x, nameFits_s⟩),
    (⟨"v", "b"⟩, .createAssignment ⟨1, 2, 2, 2⟩ 1 ⟨"tenant", none, true, none, tenant_known, noPriority_inRange⟩)]

/-- A tenant "a" that creates a skill and lists its skills. -/
def ownCalls : List (AuthContext × AdminRequest) :=
  [(⟨"u", "a"⟩, .createSkill ⟨2, 3, 3, 3⟩ ⟨['y'], some "s", nonempty_y, nameFits_s⟩),
    (⟨"u", "a"⟩, .listSkills none ⟨none, none, none, none⟩ 0 50)]

theorem tenant_isolated_ownCalls :
    (∀ pre, pre <+: ownCalls →
      (run (serve onePublished) (run (serve onePublished) ⟨[], [], []⟩ othersAssignment) pre).others
        "a" = (run (serve onePublished) ⟨[], [], []⟩ othersAssignment).others "a") ∧
      answers (serve onePublished) (reply onePublished)
          (run (serve onePublished) ⟨[], [], []⟩ othersAssignment) ownCalls =
        answers (serve onePublished) (reply onePublished) ⟨[], [], []⟩ ownCalls := by
  refine tenant_isolated onePublished "a" ⟨_, othersAssignment, rfl, rfl⟩ ⟨_, [], rfl, rfl⟩
    (by decide +kernel) (by decide +kernel) ⟨?_, fun _ _ => rfl, trivial⟩
    ⟨?_, fun _ _ => rfl, trivial⟩
  · exact ⟨by decide +kernel, by decide +kernel, by decide +kernel⟩
  · exact ⟨by decide +kernel, by decide +kernel, by decide +kernel⟩

/-- The tenant "a" deletes the assignment of the tenant "b". -/
theorem not_isolated_deleteAssignment :
    ∃ db, Reachable (· = ⟨[], [], []⟩) (serve onePublished) db ∧
      (serve onePublished db (⟨"u", "a"⟩, .deleteAssignment 9 2)).others "a" ≠ db.others "a" :=
  ⟨run (serve onePublished) ⟨[], [], []⟩ othersAssignment, ⟨_, othersAssignment, rfl, rfl⟩,
    by decide +kernel⟩

end SkillsDb

end LlmPort.Skills
