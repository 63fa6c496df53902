import LlmPort.Ranking.Retention
import LlmPort.Skills.TenantIsolation
import LlmPort.Transition.Upsert

/-!
# The versions of a skill

Each body that is written gets the number after the skill's current one, and the rows beyond the
last ones that are kept go. The log beside the tables is what was written, so that a row can be
compared with what it was created from.
-/

namespace LlmPort.Skills

open Text Ranking Transition Backend.NodeControl

/-- The calls that write skills and their versions. -/
inductive VersionCall where
  | createSkill (draw : SkillsDraw) (tenantId : String) (name : Json) (bodyMarkdown : List Char)
    (frontmatterYaml : Option (List Char)) (createdBy : String) (metadata : JsonObject)
  | updateSkillMetadata (now : Time) (skillId : Uuid) (tenantId : String) (updates : JsonObject)
  | updateSkillBody (draw : SkillsDraw) (skillId : Uuid) (tenantId : String)
    (bodyMarkdown : List Char) (frontmatterYaml : Option (List Char))
    (changeNote : Option String) (createdBy : String)

structure Versions where
  db : SkillsDb
  /-- Body and frontmatter of each version that was written. -/
  log : List (Uuid × List Char × Option (List Char))

namespace Versions

/-- A call that raises is rolled back. -/
def step (cfg : SkillsConfig) (s : Versions) : VersionCall → Versions
  | .createSkill draw tenantId name body yaml createdBy metadata =>
    match s.db.createSkill cfg draw tenantId name body yaml createdBy metadata with
    | .error _ => s
    | .ok (db, skill) => ⟨db, s.log ++ [(skill.id, body, yaml)]⟩
  | .updateSkillMetadata now skillId tenantId updates =>
    match s.db.updateSkillMetadata cfg now skillId tenantId updates with
    | .error _ => s
    | .ok (db, _) => { s with db }
  | .updateSkillBody draw skillId tenantId body yaml note createdBy =>
    match s.db.updateSkillBody cfg draw skillId tenantId body yaml note createdBy with
    | .error _ => s
    | .ok (db, none) => { s with db }
    | .ok (db, some version) => ⟨db, s.log ++ [(version.skillId, body, yaml)]⟩

def start : Versions := ⟨⟨[], [], []⟩, []⟩

/-- What was written for a skill, in order. -/
def written (s : Versions) (skillId : Uuid) : List (List Char × Option (List Char)) :=
  (s.log.filter (·.1 = skillId)).map (·.2)

/-- The rows of a skill are the last of its versions. -/
structure History (cfg : SkillsConfig) (s : Versions) (skill : SkillRow) : Prop where
  current : skill.currentVersion = (s.written skill.id).length
  numbers : (s.db.listVersions skill.id).map (·.version) =
    retained cfg.maxVersions (s.written skill.id).length
  content : ∀ v ∈ s.db.versions, v.skillId = skill.id →
    (s.written skill.id)[v.version - 1]? = some (v.bodyMarkdown, v.frontmatterYaml)

structure Consistent (cfg : SkillsConfig) (s : Versions) : Prop where
  wellFormed : s.db.WellFormed
  logOf : ∀ id, id ∈ s.log.map (·.1) ↔ id ∈ s.db.skills.map (·.id)
  history : ∀ skill ∈ s.db.skills, s.History cfg skill

variable {cfg : SkillsConfig} {s : Versions} {db db' : SkillsDb} {draw : SkillsDraw}
  {tenantId : String} {skillId : Uuid} {skill row old new : SkillRow} {v : SkillVersionRow}
  {body : List Char} {yaml : Option (List Char)} {createdBy : String}

theorem written_append_self :
    (⟨db, s.log ++ [(skillId, body, yaml)]⟩ : Versions).written skillId =
      s.written skillId ++ [(body, yaml)] := by
  simp [written]

theorem written_append_of_ne (h : skillId ≠ row.id) :
    (⟨db, s.log ++ [(skillId, body, yaml)]⟩ : Versions).written row.id = s.written row.id := by
  simp [written, h]

theorem written_eq_nil_iff : s.written skillId = [] ↔ skillId ∉ s.log.map (·.1) := by
  rw [written, List.map_eq_nil_iff, List.filter_eq_nil_iff, List.mem_map, not_exists]
  simp only [decide_eq_true_eq, not_and]

/-- A listing has the numbers of the rows in falling order. -/
theorem map_version_listVersions {l : List Nat} (hl : l.Pairwise (· ≥ ·))
    (h : ((db.versions.filter (·.skillId = skillId)).map (·.version)).Perm l) :
    (db.listVersions skillId).map (·.version) = l := by
  have : Std.Total fun a b : SkillVersionRow => a.version ≥ b.version :=
    ⟨fun a b => le_total b.version a.version⟩
  have : IsTrans SkillVersionRow fun a b => a.version ≥ b.version :=
    ⟨fun _ _ _ hab hbc => ge_trans hab hbc⟩
  have hperm : ((db.listVersions skillId).map (·.version)).Perm l :=
    ((List.perm_insertionSort _ _).map _).trans h
  refine hperm.eq_of_pairwise (fun a b _ _ hab hba => le_antisymm hba hab) ?_ hl
  exact List.pairwise_map.2 (List.pairwise_insertionSort _ _)

/-! ## Creation -/

theorem createSkill_ok {name : Json} {metadata : JsonObject}
    (h : db.createSkill cfg draw tenantId name body yaml createdBy metadata = .ok (db', row)) :
    row.currentVersion = 1 ∧ row.id ∉ db.skills.map (·.id) ∧
      ∃ v : SkillVersionRow, v.skillId = row.id ∧ v.version = 1 ∧ v.bodyMarkdown = body ∧
        v.frontmatterYaml = yaml ∧ db'.skills = db.skills ++ [row] ∧
        db'.versions = db.versions ++ [v] := by
  unfold SkillsDb.createSkill at h
  split at h
  next => cases h
  next =>
    split at h
    next => cases h
    next =>
      split at h
      next => cases h
      next row' hrow =>
        obtain ⟨db₁, hinsert, h⟩ := bind_eq_ok.1 h
        obtain ⟨db₂, hversion, h⟩ := bind_eq_ok.1 h
        cases h
        obtain ⟨-, hfresh, rfl⟩ := SkillsDb.insertSkill_ok hinsert
        obtain ⟨-, rfl⟩ := SkillsDb.insertVersion_ok.1 hversion
        obtain ⟨-, -, hcurrent, -⟩ := SkillsDb.setColumns_eq_some hrow
        refine ⟨hcurrent, fun hmem => ?_, _, rfl, rfl, rfl, rfl, rfl, rfl⟩
        obtain ⟨other, hother, hid⟩ := List.mem_map.1 hmem
        exact (hfresh other hother).1 hid

theorem History.of_eq {s' : Versions} (h : s.History cfg old) (hid : row.id = old.id)
    (hcurrent : row.currentVersion = old.currentVersion)
    (hwritten : s'.written old.id = s.written old.id)
    (hversions : s'.db.versions.filter (·.skillId = old.id) =
      s.db.versions.filter (·.skillId = old.id)) : s'.History cfg row := by
  refine ⟨?_, ?_, fun v hv hskill => ?_⟩
  · rw [hcurrent, hid, hwritten, h.current]
  · rw [hid, hwritten, ← h.numbers, SkillsDb.listVersions, hversions, SkillsDb.listVersions]
  · rw [hid] at hskill ⊢
    have hmem : v ∈ s.db.versions.filter (·.skillId = old.id) :=
      hversions ▸ List.mem_filter.2 ⟨hv, decide_eq_true hskill⟩
    rw [hwritten, h.content v (List.mem_filter.1 hmem).1 hskill]

/-- One version more, of which the rows keep as many as they may. -/
theorem History.push {s' : Versions} (hmax : 0 < cfg.maxVersions) (h : s.History cfg old)
    (hid : row.id = old.id) (hcurrent : row.currentVersion = old.currentVersion + 1)
    (hwritten : s'.written old.id =
      s.written old.id ++ [(v.bodyMarkdown, v.frontmatterYaml)])
    (hnumber : v.version = old.currentVersion + 1)
    (hversions : (s'.db.versions.filter (·.skillId = old.id)).Perm
      (v :: (s.db.listVersions old.id).take (cfg.maxVersions - 1))) : s'.History cfg row := by
  have hlength : (s'.written old.id).length = (s.written old.id).length + 1 := by
    rw [hwritten, List.length_append, List.length_singleton]
  refine ⟨?_, ?_, fun v' hv' hskill => ?_⟩
  · rw [hid, hlength, hcurrent, h.current]
  · rw [hid, hlength]
    refine map_version_listVersions sorted_retained ((hversions.map _).trans ?_)
    rw [List.map_cons, List.map_take, h.numbers, hnumber, h.current, retained_succ hmax]
  · rw [hid] at hskill ⊢
    rw [hwritten]
    have hmem : v' ∈ v :: (s.db.listVersions old.id).take (cfg.maxVersions - 1) :=
      hversions.mem_iff.1 (List.mem_filter.2 ⟨hv', decide_eq_true hskill⟩)
    rcases List.mem_cons.1 hmem with rfl | hmem
    · rw [hnumber, h.current, Nat.add_sub_cancel, List.getElem?_concat_length]
    · have hold := (List.mem_insertionSort _).1 (List.mem_of_mem_take hmem)
      have hcontent := h.content v' (List.mem_filter.1 hold).1 hskill
      rw [List.getElem?_append_left (List.getElem?_eq_some_iff.1 hcontent).1, hcontent]

/-- A skill without versions, as it is before its first one. -/
theorem History.none (hwritten : s.written row.id = [])
    (hversions : s.db.versions.filter (·.skillId = row.id) = []) :
    s.History cfg { row with currentVersion := 0 } := by
  refine ⟨?_, ?_, fun v hv hskill => ?_⟩
  · rw [hwritten]
    rfl
  · rw [hwritten, SkillsDb.listVersions, hversions, List.length_nil, retained_zero]
    rfl
  · exact absurd (decide_eq_true hskill) (List.filter_eq_nil_iff.1 hversions v hv)

theorem Consistent.createSkill {name : Json} {metadata : JsonObject} (hmax : 0 < cfg.maxVersions)
    (hs : s.Consistent cfg)
    (h : s.db.createSkill cfg draw tenantId name body yaml createdBy metadata = .ok (db', row)) :
    Consistent cfg ⟨db', s.log ++ [(row.id, body, yaml)]⟩ := by
  obtain ⟨hcurrent, hfresh, v, hv, hnumber, rfl, rfl, hskills, hversions⟩ := createSkill_ok h
  refine ⟨hs.wellFormed.createSkill h, fun id => ?_, fun skill hskill => ?_⟩
  · rw [hskills, List.map_append, List.map_append, List.mem_append, List.mem_append, hs.logOf]
    rfl
  · rw [hskills] at hskill
    rcases List.mem_append.1 hskill with hskill | hskill
    · have hne : row.id ≠ skill.id := fun heq => hfresh (heq ▸ List.mem_map_of_mem hskill)
      refine (hs.history skill hskill).of_eq rfl rfl (written_append_of_ne hne) ?_
      simp [hversions, hv, hne]
    · obtain rfl := List.mem_singleton.1 hskill
      have hwritten := written_eq_nil_iff.2 (mt (hs.logOf skill.id).1 hfresh)
      have hnone : s.db.versions.filter (·.skillId = skill.id) = [] :=
        List.filter_eq_nil_iff.2 fun other hother heq =>
          hfresh (of_decide_eq_true heq ▸ hs.wellFormed.versionsOf other hother)
      refine (History.none hwritten hnone).push hmax rfl hcurrent ?_ hnumber ?_
      · rw [written_append_self]
      · rw [SkillsDb.listVersions, hnone, hversions, List.filter_append, hnone]
        simp [hv]

/-! ## Metadata -/

/-- After a flush there are the changed row and the other skills. -/
theorem mem_skills_flush {now : Time} (h : db.flushSkill now old new = .ok (db', row))
    (hskill : skill ∈ db'.skills) :
    (row.id = new.id ∧ row.currentVersion = new.currentVersion) ∧
      (skill = row ∨ skill ∈ db.skills ∧ (skill.id = new.id → new = old)) := by
  rcases SkillsDb.flushSkill_ok h with ⟨rfl, rfl, rfl⟩ | ⟨-, rfl, rfl⟩
  · exact ⟨⟨rfl, rfl⟩, .inr ⟨hskill, fun _ => rfl⟩⟩
  · obtain ⟨other, hother, rfl⟩ := List.mem_map.1 hskill
    refine ⟨⟨rfl, rfl⟩, ?_⟩
    split
    next => exact .inl rfl
    next hne => exact .inr ⟨hother, fun heq => absurd heq hne⟩

theorem Consistent.updateSkillMetadata {now : Time} {updates : JsonObject}
    {result : Option SkillRow} (hs : s.Consistent cfg)
    (h : s.db.updateSkillMetadata cfg now skillId tenantId updates = .ok (db', result)) :
    Consistent cfg { s with db := db' } := by
  have hwf := hs.wellFormed.updateSkillMetadata h
  rcases SkillsDb.updateSkillMetadata_ok h with ⟨-, rfl, -⟩ | ⟨old, new, row, hold, hnew, hflush, -⟩
  · exact hs
  · obtain ⟨hids, hversions, -⟩ := SkillsDb.map_id_flush hflush
    refine ⟨hwf, fun id => hids ▸ hs.logOf id, fun skill hskill => ?_⟩
    obtain ⟨⟨hid, hcurrent⟩, rfl | ⟨hskill, -⟩⟩ := mem_skills_flush hflush hskill
    · obtain ⟨hid', -, hcurrent', -⟩ := SkillsDb.setColumns_eq_some hnew
      have hold := hs.history old (SkillsDb.getSkill_eq_some hold).1
      exact hold.of_eq (hid.trans hid') (hcurrent.trans hcurrent') rfl (hversions ▸ rfl)
    · exact (hs.history skill hskill).of_eq rfl rfl rfl (hversions ▸ rfl)

/-! ## New bodies -/

theorem oldVersions_eq_drop (hmax : 0 < cfg.maxVersions) (versions : List SkillVersionRow) :
    SkillsDb.oldVersions cfg versions = versions.drop (cfg.maxVersions - 1) := by
  unfold SkillsDb.oldVersions
  split
  next => rw [if_neg (Nat.ne_of_gt hmax)]
  next h => exact (List.drop_of_length_le (by omega)).symm

theorem updateSkillBody_ok {note : Option String} {version : Option SkillVersionRow}
    (h : db.updateSkillBody cfg draw skillId tenantId body yaml note createdBy =
      .ok (db', version)) :
    (db' = db ∧ version = none) ∨ ∃ (skill row : SkillRow) (v : SkillVersionRow) (db₂ : SkillsDb),
      db.getSkill skillId tenantId = some skill ∧ version = some v ∧ v.skillId = skillId ∧
      v.version = skill.currentVersion + 1 ∧ v.bodyMarkdown = body ∧ v.frontmatterYaml = yaml ∧
      (∀ other ∈ db.versions, other.id ≠ v.id) ∧
      { db with versions := db.versions ++ [v] }.flushSkill draw.now skill
        { skill with currentVersion := skill.currentVersion + 1 } = .ok (db₂, row) ∧
      db'.skills = db₂.skills ∧
      db'.versions = (db.versions ++ [v]).filter fun other =>
        other.id ∉ (SkillsDb.oldVersions cfg (db.listVersions skillId)).map (·.id) := by
  unfold SkillsDb.updateSkillBody at h
  split at h
  next =>
    cases h
    exact .inl ⟨rfl, rfl⟩
  next skill hskill =>
    obtain ⟨db₁, hinsert, h⟩ := bind_eq_ok.1 h
    obtain ⟨⟨db₂, row⟩, hflush, h⟩ := bind_eq_ok.1 h
    cases h
    obtain ⟨htakes, rfl⟩ := SkillsDb.insertVersion_ok.1 hinsert
    refine .inr ⟨skill, row, _, db₂, hskill, rfl, rfl, rfl, rfl, rfl, fun other hother => ?_,
      hflush, rfl, ?_⟩
    · exact (SkillsDb.takesVersion_iff htakes other hother).1
    · rw [(SkillsDb.map_id_flush hflush).2.1]

/-- The rows of the skill after the new one is in and the old ones are out. -/
theorem filter_oldVersions (hmax : 0 < cfg.maxVersions) (hids : (db.versions.map (·.id)).Nodup)
    (hfresh : ∀ other ∈ db.versions, other.id ≠ v.id) (hv : v.skillId = skillId) :
    (((db.versions ++ [v]).filter fun other =>
      other.id ∉ (SkillsDb.oldVersions cfg (db.listVersions skillId)).map (·.id)).filter
        (·.skillId = skillId)).Perm
      (v :: (db.listVersions skillId).take (cfg.maxVersions - 1)) := by
  have hperm : (db.listVersions skillId).Perm (db.versions.filter (·.skillId = skillId)) :=
    List.perm_insertionSort _ _
  have hlisted : ((db.listVersions skillId).map (·.id)).Nodup :=
    (hperm.map _).nodup_iff.2 (hids.sublist (List.filter_sublist.map _))
  have hkept : v.id ∉ (((db.listVersions skillId).drop (cfg.maxVersions - 1)).map (·.id)) := by
    intro hmem
    obtain ⟨other, hother, hid⟩ := List.mem_map.1 hmem
    have hother := hperm.mem_iff.1 (List.mem_of_mem_drop hother)
    exact hfresh other (List.mem_filter.1 hother).1 hid
  have hnew : [v].filter (·.skillId = skillId) = [v] :=
    List.filter_eq_self.2 fun other hother => by simp [List.mem_singleton.1 hother, hv]
  rw [oldVersions_eq_drop hmax, List.filter_comm, List.filter_append, hnew, List.filter_append,
    List.filter_singleton, decide_eq_true hkept, cond_true]
  have hrows := hperm.symm.filter fun other =>
    other.id ∉ ((db.listVersions skillId).drop (cfg.maxVersions - 1)).map (·.id)
  rw [filter_not_mem_drop hlisted] at hrows
  exact (hrows.append_right [v]).trans List.perm_append_comm

/-- The rows of the other skills stay. -/
theorem filter_oldVersions_of_ne {id : Uuid} (hids : (db.versions.map (·.id)).Nodup)
    (hv : v.skillId = skillId) (hid : skillId ≠ id) :
    ((db.versions ++ [v]).filter fun other =>
      other.id ∉ (SkillsDb.oldVersions cfg (db.listVersions skillId)).map (·.id)).filter
        (·.skillId = id) = db.versions.filter (·.skillId = id) := by
  have hnew : [v].filter (·.skillId = id) = [] :=
    List.filter_eq_nil_iff.2 fun other hother => by simp [List.mem_singleton.1 hother, hv, hid]
  rw [List.filter_comm, List.filter_append, hnew, List.append_nil]
  refine List.filter_eq_self.2 fun other hother => decide_eq_true fun hmem => ?_
  obtain ⟨hother, hskill⟩ := List.mem_filter.1 hother
  obtain ⟨old, hold, hsame⟩ := List.mem_map.1 hmem
  have hold := (List.mem_insertionSort _).1 (SkillsDb.mem_oldVersions hold)
  obtain ⟨hold, hskillId⟩ := List.mem_filter.1 hold
  have heq : old = other := List.inj_on_of_nodup_map hids hold hother hsame
  exact hid ((of_decide_eq_true hskillId).symm.trans (heq ▸ of_decide_eq_true hskill))

theorem Consistent.updateSkillBody {note : Option String} {version : SkillVersionRow}
    (hmax : 0 < cfg.maxVersions) (hs : s.Consistent cfg)
    (h : s.db.updateSkillBody cfg draw skillId tenantId body yaml note createdBy =
      .ok (db', some version)) :
    Consistent cfg ⟨db', s.log ++ [(version.skillId, body, yaml)]⟩ := by
  have hwf := hs.wellFormed.updateSkillBody h
  rcases updateSkillBody_ok h with ⟨-, hnone⟩ |
    ⟨old, row, v, db₂, hold, hversion, hv, hnumber, rfl, rfl, hfresh, hflush, hskills, hversions⟩
  · cases hnone
  obtain rfl := Option.some.inj hversion
  obtain ⟨hmem, rfl, -⟩ := SkillsDb.getSkill_eq_some hold
  have hids := (SkillsDb.map_id_flush hflush).1
  have hverids := hs.wellFormed.versions
  refine ⟨hwf, fun id => ?_, fun skill hskill => ?_⟩
  · rw [hskills, hids, List.map_append, List.mem_append, hs.logOf]
    refine or_iff_left_of_imp fun hid => ?_
    rw [List.mem_singleton.1 hid, hv]
    exact List.mem_map_of_mem hmem
  · rw [hskills] at hskill
    obtain ⟨⟨hid, hcurrent⟩, rfl | ⟨hskill, hne⟩⟩ := mem_skills_flush hflush hskill
    · refine (hs.history old hmem).push hmax hid hcurrent ?_ hnumber ?_
      · rw [hv, written_append_self]
      · rw [hversions]
        exact filter_oldVersions hmax hverids hfresh hv
    · have hne : old.id ≠ skill.id := fun heq => by
        have hcurrent := congrArg SkillRow.currentVersion (hne heq.symm)
        exact Nat.succ_ne_self _ hcurrent
      refine (hs.history skill hskill).of_eq rfl rfl ?_ ?_
      · rw [hv, written_append_of_ne hne]
      · rw [hversions]
        exact filter_oldVersions_of_ne hverids hv hne

/-! ## Runs -/

theorem Consistent.step (hmax : 0 < cfg.maxVersions) (hs : s.Consistent cfg)
    (call : VersionCall) : (s.step cfg call).Consistent cfg := by
  cases call with
  | createSkill draw tenantId name body yaml createdBy metadata =>
    rw [Versions.step]
    split
    next => exact hs
    next h => exact hs.createSkill hmax h
  | updateSkillMetadata now skillId tenantId updates =>
    rw [Versions.step]
    split
    next => exact hs
    next h => exact hs.updateSkillMetadata h
  | updateSkillBody draw skillId tenantId body yaml note createdBy =>
    rw [Versions.step]
    split
    next => exact hs
    next h =>
      rcases updateSkillBody_ok h with ⟨rfl, -⟩ | ⟨_, _, _, _, -, hsome, -⟩
      · exact hs
      · cases hsome
    next h => exact hs.updateSkillBody hmax h

theorem consistent_start : start.Consistent cfg :=
  ⟨SkillsDb.wellFormed_empty, fun _ => .rfl, fun _ h => absurd h List.not_mem_nil⟩

/-- The history of a skill with what follows from the numbers of its rows. -/
structure KeepsLatest (cfg : SkillsConfig) (s : Versions) (skill : SkillRow) : Prop
    extends s.History cfg skill where
  distinct : ((s.db.listVersions skill.id).map (·.version)).Nodup
  currentRow : (s.db.getCurrentVersionBody skill.id).isSome = true

/-- The row of the current version is there. -/
theorem Consistent.currentRow (hmax : 0 < cfg.maxVersions) (hs : s.Consistent cfg)
    (hskill : skill ∈ s.db.skills) : (s.db.getCurrentVersionBody skill.id).isSome = true := by
  have h := hs.history skill hskill
  have hpos : 0 < (s.written skill.id).length := by
    refine List.length_pos_iff.2 fun hnil => written_eq_nil_iff.1 hnil ?_
    exact (hs.logOf skill.id).2 (List.mem_map_of_mem hskill)
  have hnumber : skill.currentVersion ∈ (s.db.listVersions skill.id).map (·.version) := by
    rw [h.numbers, mem_retained, h.current]
    omega
  obtain ⟨v, hv, hversion⟩ := List.mem_map.1 hnumber
  obtain ⟨hv, hof⟩ := List.mem_filter.1 ((List.mem_insertionSort _).1 hv)
  have hfind : s.db.skills.find? (·.id = skill.id) = some skill :=
    (mem_iff_find? hs.wellFormed.skills).1 hskill
  rw [SkillsDb.getCurrentVersionBody, hfind, Option.bind_some, SkillsDb.getVersion,
    List.find?_isSome]
  exact ⟨v, hv, by simp [of_decide_eq_true hof, hversion]⟩

/-- After any calls, the rows of every skill are the last of the versions that were written for
it, the current one among them. -/
theorem keepsLatest (cfg : SkillsConfig) (hmax : 1 ≤ cfg.maxVersions) (calls : List VersionCall) :
    ∀ skill ∈ (run (step cfg) start calls).db.skills,
      (run (step cfg) start calls).KeepsLatest cfg skill := by
  have hs : (run (step cfg) start calls).Consistent cfg :=
    run_invariant (fun _ call hs => hs.step hmax call) consistent_start
  intro skill hskill
  have h := hs.history skill hskill
  refine ⟨h, ?_, hs.currentRow hmax hskill⟩
  rw [h.numbers]
  exact nodup_retained

/-- A skill with three bodies, of which two are kept. -/
def threeBodies : List VersionCall :=
  [.createSkill ⟨0, 1, 1, 1⟩ "t" (.string "a") ['x'] none "u" [],
    .updateSkillBody ⟨1, 2, 2, 2⟩ 1 "t" ['y'] none none "u",
    .updateSkillBody ⟨2, 3, 3, 3⟩ 1 "t" ['z'] none none "u"]

theorem keepsLatest_threeBodies :
    (run (step { SkillsDb.onePublished with maxVersions := 2 }) start threeBodies).db.versions.map
        (·.version) = [2, 3] ∧
      ∀ skill ∈ (run (step { SkillsDb.onePublished with maxVersions := 2 }) start
        threeBodies).db.skills,
        (run (step { SkillsDb.onePublished with maxVersions := 2 }) start threeBodies).KeepsLatest
          { SkillsDb.onePublished with maxVersions := 2 } skill :=
  ⟨by decide +kernel, keepsLatest _ (by decide) threeBodies⟩

end Versions

end LlmPort.Skills
