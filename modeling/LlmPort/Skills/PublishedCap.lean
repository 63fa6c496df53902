import LlmPort.Skills.Admin
import LlmPort.Transition.Participants

/-!
# The cap on published skills

Which requests keep the number of published skills of every tenant at most
`max_published_skills_per_tenant` and are not refused for it when they publish nothing.
-/

namespace LlmPort.Skills

open Text ModelSync Transition Backend.NodeControl

/-- The frontmatter of the document has the status "published". -/
def SkillsConfig.publishes (cfg : SkillsConfig) (content : List Char) : Bool :=
  (cfg.yaml.parseSkillDocument content).frontmatter.lookup "status" = some (.string published)

/-- What the endpoints take from the frontmatter of a document. -/
def SkillsConfig.metadata (cfg : SkillsConfig) (content : List Char) : JsonObject :=
  extractMetadataFromFrontmatter (cfg.yaml.parseSkillDocument content).frontmatter

namespace SkillsDb

section
variable (cfg : SkillsConfig) (db : SkillsDb)

def AtMostCap : Prop := ∀ tenantId, db.publishedCount tenantId ≤ cfg.maxPublished

/-- The request is to publish a skill there is or is to be. -/
def publishesSomething (auth : AuthContext) : AdminRequest → Bool
  | .createSkill _ body => cfg.publishes body.content
  | .importSkill _ file => cfg.publishes file.content
  | .updateSkillBody _ skillId body => db.owns auth.tenantId skillId && cfg.publishes body.content
  | .publishSkill _ skillId => db.owns auth.tenantId skillId
  | _ => false

/-- The request leaves every tenant at most at the cap, and is not refused because of the cap when
it publishes nothing. -/
def KeepsCap (auth : AuthContext) (r : AdminRequest) : Prop :=
  (db.request cfg auth r).AtMostCap cfg ∧
    (db.publishesSomething cfg auth r = false →
      db.response cfg auth r ≠ .error (publishedLimit cfg))

/-- The version fits its columns, and its key and its number are free. -/
def takesVersion (row : SkillVersionRow) : Bool :=
  (row.changeNote.elim 0 String.length ≤ 500 ∧ row.createdBy.elim 0 String.length ≤ 128) &&
    !db.versions.any fun other => other.id = row.id ∨
      (other.skillId = row.skillId ∧ other.version = row.version)

/-- The version that a new body makes. -/
def newVersion (auth : AuthContext) (draw : SkillsDraw) (skill : SkillRow)
    (body : UpdateSkillBodyRequest) : SkillVersionRow :=
  let parsed := cfg.yaml.parseSkillDocument body.content
  ⟨draw.versionId, skill.id, skill.currentVersion + 1, parsed.body,
    frontmatterOrNone parsed.rawFrontmatter, body.changeNote, some auth.userId, draw.now⟩

/-- The metadata of the document and the new version fit their columns. -/
def acceptsBody (auth : AuthContext) (draw : SkillsDraw) (skill : SkillRow)
    (body : UpdateSkillBodyRequest) : Bool :=
  (skill.setColumns cfg (cfg.metadata body.content)).any
      (fun new => { new with currentVersion := skill.currentVersion + 1 }.fits) &&
    db.takesVersion (newVersion cfg auth draw skill body)

/-- The requests for which the cap is checked as it should be. -/
def checksCap (auth : AuthContext) : AdminRequest → Prop
  | .createSkill _ body => (body.skillName (cfg.metadata body.content)).truthy →
    cfg.publishes body.content = false → db.publishedCount auth.tenantId < cfg.maxPublished
  | .importSkill _ file => markdownSuffix <:+ file.filename →
    cfg.publishes file.content = false → db.publishedCount auth.tenantId < cfg.maxPublished
  | .updateSkillBody draw skillId body => ∀ skill, db.getSkill skillId auth.tenantId = some skill →
    skill.status ≠ published → cfg.publishes body.content →
    db.acceptsBody cfg auth draw skill body →
    db.publishedCount auth.tenantId < cfg.maxPublished
  | .publishSkill _ skillId => db.getSkill skillId auth.tenantId = none →
    db.publishedCount auth.tenantId < cfg.maxPublished
  | _ => True

end

/-- The primary keys differ. -/
def Keyed (db : SkillsDb) : Prop := (db.skills.map (·.id)).Nodup

variable {cfg : SkillsConfig} {auth : AuthContext} {db db' : SkillsDb} {draw : SkillsDraw}
  {now : Time} {skillId : Uuid} {tenantId t : String} {skill old new row : SkillRow}
  {updates : JsonObject} {α : Type}

/-- The row is a published skill of the tenant. -/
def isPublished (tenantId : String) (row : SkillRow) : Bool :=
  row.tenantId = tenantId ∧ row.status = published

/-! ## What the statements do -/

theorem getSkill_eq_some (h : db.getSkill skillId tenantId = some skill) :
    skill ∈ db.skills ∧ skill.id = skillId ∧ skill.tenantId = tenantId := by
  have hp := List.find?_some h
  rw [decide_eq_true_eq] at hp
  exact ⟨List.mem_of_find?_eq_some h, hp.1, hp.2⟩

theorem insertSkill_ok (h : db.insertSkill row = .ok db') :
    row.fits ∧ (∀ other ∈ db.skills, other.id ≠ row.id ∧
      ¬ (other.tenantId = row.tenantId ∧ other.slug = row.slug)) ∧
      db' = { db with skills := db.skills ++ [row] } := by
  unfold insertSkill at h
  split at h
  next hfits =>
    split at h
    next => cases h
    next hany =>
      cases h
      refine ⟨hfits, fun other hmem => ?_, rfl⟩
      simp only [List.any_eq_true, decide_eq_true_eq, not_exists, not_and, not_or] at hany
      exact (hany other hmem).imp_right not_and.2
  next => cases h

theorem insertVersion_ok {row : SkillVersionRow} : db.insertVersion row = .ok db' ↔
    db.takesVersion row ∧ db' = { db with versions := db.versions ++ [row] } := by
  unfold insertVersion takesVersion
  split
  next hfits =>
    split
    next hany =>
      rw [hany]
      exact iff_of_false (fun h => by cases h) fun h => by simp at h
    next hany =>
      rw [Bool.eq_false_iff.2 hany, decide_eq_true hfits]
      exact ⟨fun h => ⟨rfl, (Except.ok.inj h).symm⟩, fun h => by rw [h.2]⟩
  next hfits =>
    rw [decide_eq_false hfits]
    exact iff_of_false (fun h => by cases h) fun h => by simp at h

/-- A flush writes nothing, or the changed row with its new date. -/
theorem flushSkill_ok (h : db.flushSkill now old new = .ok (db', row)) :
    (new = old ∧ db' = db ∧ row = old) ∨
      (new.fits ∧ row = { new with updatedAt := now } ∧
        db' = { db with skills := replaceRow (·.id) row db.skills }) := by
  unfold flushSkill at h
  split at h
  next heq =>
    cases h
    exact .inl ⟨heq, rfl, rfl⟩
  next =>
    split at h
    next hfits =>
      cases h
      exact .inr ⟨hfits, rfl, rfl⟩
    next => cases h

/-- The columns that no metadata sets. -/
theorem setColumns_eq_some (h : old.setColumns cfg updates = some new) :
    new.id = old.id ∧ new.tenantId = old.tenantId ∧ new.currentVersion = old.currentVersion ∧
      SkillRow.column asText updates "status" old.status = some new.status := by
  simp only [SkillRow.setColumns, Option.bind_eq_bind, Option.bind_eq_some_iff, Option.pure_def,
    Option.some.injEq] at h
  obtain ⟨_, -, _, -, _, -, status, hstatus, _, -, _, -, rfl⟩ := h
  exact ⟨rfl, rfl, rfl, hstatus⟩

theorem updateSkillMetadata_ok {result : Option SkillRow}
    (h : db.updateSkillMetadata cfg now skillId tenantId updates = .ok (db', result)) :
    (db.getSkill skillId tenantId = none ∧ db' = db ∧ result = none) ∨
      ∃ skill new row, db.getSkill skillId tenantId = some skill ∧
        skill.setColumns cfg updates = some new ∧
        db.flushSkill now skill new = .ok (db', row) ∧ result = some row := by
  unfold updateSkillMetadata at h
  split at h
  next hnone =>
    cases h
    exact .inl ⟨hnone, rfl, rfl⟩
  next skill hskill =>
    split at h
    next => cases h
    next new hnew =>
      cases hflush : db.flushSkill now skill new with
      | error e =>
        rw [hflush] at h
        cases h
      | ok out =>
        rw [hflush] at h
        cases h
        exact .inr ⟨skill, new, out.2, hskill, hnew, hflush, rfl⟩

theorem keyed_flush (h : db.flushSkill now old new = .ok (db', row)) (hkeyed : db.Keyed) :
    db'.Keyed := by
  obtain ⟨-, rfl, -⟩ | ⟨-, -, rfl⟩ := flushSkill_ok h
  · exact hkeyed
  · rw [Keyed, map_replaceRow]
    exact hkeyed

/-- What a flush of a row changes in the counts. -/
theorem publishedCount_flush (h : db.flushSkill now old new = .ok (db', row)) (hkeyed : db.Keyed)
    (hold : old ∈ db.skills) (hid : new.id = old.id) :
    db'.publishedCount t + (isPublished t old).toNat =
      db.publishedCount t + (isPublished t new).toNat := by
  obtain ⟨rfl, rfl, rfl⟩ | ⟨-, rfl, rfl⟩ := flushSkill_ok h
  · rfl
  · exact countP_replaceRow hkeyed hold hid.symm

/-! ## Who is counted after a request -/

theorem publishedCount_eq (tenantId : String) :
    db.publishedCount tenantId = db.skills.countP (isPublished tenantId) := rfl

theorem isPublished_of_status_eq (htenant : new.tenantId = old.tenantId)
    (hstatus : new.status = old.status) : isPublished t new = isPublished t old := by
  rw [isPublished, isPublished, htenant, hstatus]

/-- A metadata update writes the status that the updates have, if any. -/
theorem updateSkillMetadata_count {result : Option SkillRow}
    (h : db.updateSkillMetadata cfg now skillId tenantId updates = .ok (db', result))
    (hkeyed : db.Keyed) :
    db'.Keyed ∧ ((db.getSkill skillId tenantId = none ∧ db' = db) ∨
      ∃ skill new, db.getSkill skillId tenantId = some skill ∧ new.tenantId = skill.tenantId ∧
        SkillRow.column asText updates "status" skill.status = some new.status ∧
        ∀ t, db'.publishedCount t + (isPublished t skill).toNat =
          db.publishedCount t + (isPublished t new).toNat) := by
  obtain ⟨hnone, rfl, -⟩ | ⟨skill, new, row, hskill, hnew, hflush, -⟩ := updateSkillMetadata_ok h
  · exact ⟨hkeyed, .inl ⟨hnone, rfl⟩⟩
  · obtain ⟨hid, htenant, -, hstatus⟩ := setColumns_eq_some hnew
    exact ⟨keyed_flush hflush hkeyed, .inr ⟨skill, new, hskill, htenant, hstatus, fun t =>
      publishedCount_flush hflush hkeyed (getSkill_eq_some hskill).1 hid⟩⟩

/-- Without a status among the updates the counts stay. -/
theorem updateSkillMetadata_count_of_none {result : Option SkillRow}
    (h : db.updateSkillMetadata cfg now skillId tenantId updates = .ok (db', result))
    (hkeyed : db.Keyed) (hnone : updates.lookup "status" = none) :
    db'.publishedCount t = db.publishedCount t := by
  obtain ⟨-, ⟨-, rfl⟩ | ⟨skill, new, -, htenant, hstatus, hcount⟩⟩ :=
    updateSkillMetadata_count h hkeyed
  · rfl
  · rw [SkillRow.column, hnone, Option.some.injEq] at hstatus
    have hcount := hcount t
    rw [isPublished_of_status_eq htenant hstatus.symm] at hcount
    omega

/-- A new body leaves the counts. -/
theorem updateSkillBody_count {body : List Char} {yaml : Option (List Char)}
    {note : Option String} {createdBy : String} {version : Option SkillVersionRow}
    (h : db.updateSkillBody cfg draw skillId tenantId body yaml note createdBy =
      .ok (db', version)) (hkeyed : db.Keyed) :
    db'.Keyed ∧ db'.publishedCount t = db.publishedCount t := by
  unfold updateSkillBody at h
  split at h
  next =>
    cases h
    exact ⟨hkeyed, rfl⟩
  next skill hskill =>
    obtain ⟨db₁, hinsert, h⟩ := bind_eq_ok.1 h
    obtain ⟨⟨db₂, row⟩, hflush, h⟩ := bind_eq_ok.1 h
    cases h
    obtain ⟨-, rfl⟩ := insertVersion_ok.1 hinsert
    have hkeyed₂ : db₂.Keyed := keyed_flush hflush hkeyed
    have hcount := publishedCount_flush (t := t) hflush hkeyed (getSkill_eq_some hskill).1 rfl
    exact ⟨hkeyed₂, Nat.add_right_cancel hcount⟩

theorem lookup_withoutName {metadata : JsonObject} :
    (withoutName metadata).lookup "status" = metadata.lookup "status" := by
  induction metadata with
  | nil => rfl
  | cons entry metadata ih =>
    obtain ⟨key, value⟩ := entry
    rw [withoutName] at ih ⊢
    rw [List.filter_cons, List.lookup_cons]
    split
    next => rw [List.lookup_cons, ih]
    next hname =>
      have hkey : key = "name" := by simpa using hname
      rw [ih, hkey]
      rfl

/-- A status that was not published is so exactly if the updates say so. -/
theorem status_eq_published {current status : String}
    (h : SkillRow.column asText updates "status" current = some status) (hne : current ≠ published) :
    status = published ↔ updates.lookup "status" = some (.string published) := by
  unfold SkillRow.column at h
  split at h
  next hnone =>
    cases h
    rw [hnone]
    exact iff_of_false hne (by simp)
  next value hvalue =>
    rw [hvalue, Option.some.injEq]
    cases value <;> cases h
    simp

/-- Below the cap a skill is created, and it is counted when its document says so. -/
theorem created_count {name : Json} {content : List Char} {response : AdminResponse}
    (h : db.created cfg auth draw name (cfg.yaml.parseSkillDocument content)
      (cfg.metadata content) = .ok (db', response)) (hkeyed : db.Keyed) :
    db.publishedCount auth.tenantId < cfg.maxPublished ∧ db'.Keyed ∧
      db'.publishedCount t = db.publishedCount t +
        (decide (auth.tenantId = t) && cfg.publishes content).toNat := by
  obtain ⟨⟨db₁, skill⟩, hcreate, h⟩ := bind_eq_ok.1 h
  obtain ⟨detail, -, h⟩ := bind_eq_ok.1 h
  cases h
  unfold createSkill at hcreate
  split at hcreate
  next => cases hcreate
  next hbelow =>
    split at hcreate
    next => cases hcreate
    next name htext =>
      split at hcreate
      next => cases hcreate
      next row hrow =>
        obtain ⟨db₂, hinsert, hcreate⟩ := bind_eq_ok.1 hcreate
        obtain ⟨db₃, hversion, hcreate⟩ := bind_eq_ok.1 hcreate
        cases hcreate
        obtain ⟨-, hfresh, rfl⟩ := insertSkill_ok hinsert
        obtain ⟨-, rfl⟩ := insertVersion_ok.1 hversion
        obtain ⟨-, htenant, -, hstatus⟩ := setColumns_eq_some hrow
        refine ⟨Nat.lt_of_not_le hbelow, ?_, ?_⟩
        · exact nodup_map_snoc hkeyed fun other hother => (hfresh other hother).1
        · have hpublished : isPublished t skill =
              (decide (auth.tenantId = t) && cfg.publishes content) := by
            have hdraft : "draft" ≠ published := by decide
            have hdocument : skill.status = published ↔ cfg.publishes content := by
              rw [status_eq_published hstatus hdraft, lookup_withoutName, SkillsConfig.metadata,
                lookup_extractMetadata (by decide), SkillsConfig.publishes, decide_eq_true_eq]
            rw [isPublished, htenant, Bool.decide_and, Bool.eq_iff_iff, Bool.and_eq_true,
              Bool.and_eq_true, decide_eq_true_eq, decide_eq_true_eq, hdocument, decide_eq_true_eq]
            rfl
          rw [← hpublished]
          exact countP_snoc

/-! ## Who is refused -/

/-- The computation answers with no error of its own: it can only raise. -/
def OnlyRaises (x : Except ImportFailure α) : Prop :=
  ∀ code detail, x ≠ .error (.http code detail)

theorem onlyRaises_ok (a : α) : OnlyRaises (.ok a) := fun _ _ h => by cases h

theorem onlyRaises_raised (exception : String) :
    OnlyRaises (.error (.raised exception) : Except ImportFailure α) := fun _ _ h => by cases h

theorem OnlyRaises.bind {β : Type} {x : Except ImportFailure α} {f : α → Except ImportFailure β}
    (hx : OnlyRaises x) (hf : ∀ a, OnlyRaises (f a)) : OnlyRaises (x >>= f) := by
  intro code detail h
  cases x with
  | error e =>
    cases h
    exact hx code detail rfl
  | ok a => exact hf a code detail h

theorem OnlyRaises.map {β : Type} {x : Except ImportFailure α} {f : α → β} (hx : OnlyRaises x) :
    OnlyRaises (x.map f) := by
  intro code detail h
  cases x with
  | error e =>
    cases h
    exact hx code detail rfl
  | ok a => cases h

theorem insertSkill_onlyRaises : OnlyRaises (db.insertSkill row) := by
  unfold insertSkill
  split
  · split
    · exact onlyRaises_raised _
    · exact onlyRaises_ok _
  · exact onlyRaises_raised _

theorem insertVersion_onlyRaises {row : SkillVersionRow} : OnlyRaises (db.insertVersion row) := by
  unfold insertVersion
  split
  · split
    · exact onlyRaises_raised _
    · exact onlyRaises_ok _
  · exact onlyRaises_raised _

theorem flushSkill_onlyRaises : OnlyRaises (db.flushSkill now old new) := by
  unfold flushSkill
  split
  · exact onlyRaises_ok _
  · split
    · exact onlyRaises_ok _
    · exact onlyRaises_raised _

theorem skillToDetail_onlyRaises : OnlyRaises (db.skillToDetail skill) := by
  unfold skillToDetail
  simp only
  split
  · exact onlyRaises_ok _
  · exact onlyRaises_raised _

theorem listSkills_onlyRaises {f : SkillFilter} {offset limit : Int} :
    OnlyRaises (db.listSkills cfg tenantId f offset limit) := by
  unfold listSkills
  simp only
  split
  · exact onlyRaises_raised _
  · exact onlyRaises_ok _

theorem updateSkillMetadata_onlyRaises :
    OnlyRaises (db.updateSkillMetadata cfg now skillId tenantId updates) := by
  unfold updateSkillMetadata
  split
  · exact onlyRaises_ok _
  · split
    · exact onlyRaises_raised _
    · exact flushSkill_onlyRaises.map

theorem updateSkillBody_onlyRaises {body : List Char} {yaml : Option (List Char)}
    {note : Option String} {createdBy : String} : OnlyRaises
      (db.updateSkillBody cfg draw skillId tenantId body yaml note createdBy) := by
  unfold updateSkillBody
  split
  · exact onlyRaises_ok _
  · exact insertVersion_onlyRaises.bind fun _ => flushSkill_onlyRaises.bind fun _ => onlyRaises_ok _

/-- Only the cap answers with an error where a skill is created. -/
theorem created_eq_publishedLimit {name : Json} {parsed : ParsedSkill} {metadata : JsonObject} :
    db.created cfg auth draw name parsed metadata = .error (publishedLimit cfg) ↔
      cfg.maxPublished ≤ db.publishedCount auth.tenantId := by
  unfold created createSkill
  split
  next hcap => exact iff_of_true rfl hcap
  next hbelow =>
    refine iff_of_false ?_ hbelow
    refine OnlyRaises.bind ?_ (fun _ => skillToDetail_onlyRaises.bind fun _ => onlyRaises_ok _) 409 _
    split
    · exact onlyRaises_raised _
    · split
      · exact onlyRaises_raised _
      · exact insertSkill_onlyRaises.bind fun _ => insertVersion_onlyRaises.bind fun _ =>
          onlyRaises_ok _

/-- Another error than that of the cap. -/
theorem skillNotFound_ne : skillNotFound ≠ publishedLimit cfg := by
  simp [skillNotFound, publishedLimit]

theorem assignmentsLimit_ne (n : Nat) : ImportFailure.http 409
      ("Tenant has reached the maximum of " ++ toString n ++ " assignments.") ≠
    publishedLimit cfg := by
  intro h
  rw [publishedLimit] at h
  have htext := congrArg (fun text : String => text.toList.reverse.take 3)
    (ImportFailure.http.inj h).2
  simp only [String.toList_append, List.reverse_append] at htext
  revert htext
  simp

theorem detailOrNotFound_ne (skill : Option SkillRow) :
    db.detailOrNotFound skill ≠ .error (publishedLimit cfg) := by
  unfold detailOrNotFound
  split
  · exact fun h => skillNotFound_ne (Except.error.inj h)
  · exact skillToDetail_onlyRaises.map 409 _

theorem bind_ne_limit {β : Type} {x : Except ImportFailure α} {f : α → Except ImportFailure β}
    (hx : x ≠ .error (publishedLimit cfg)) (hf : ∀ a, f a ≠ .error (publishedLimit cfg)) :
    x >>= f ≠ .error (publishedLimit cfg) := by
  cases x with
  | error e => exact fun h => hx (congrArg _ (Except.error.inj h))
  | ok a => exact hf a

theorem withSkill_ne {respond : SkillRow → Except ImportFailure AdminResponse}
    (h : ∀ skill, respond skill ≠ .error (publishedLimit cfg)) :
    db.withSkill auth skillId respond ≠ .error (publishedLimit cfg) := by
  unfold withSkill
  split
  · exact fun h => skillNotFound_ne (Except.error.inj h)
  · next skill _ =>
    cases hrespond : respond skill with
    | error e => exact fun heq => h skill (hrespond.trans (congrArg _ (Except.error.inj heq)))
    | ok a => exact fun heq => by cases heq

/-- Which requests are refused because of the cap. -/
def refuses (cfg : SkillsConfig) (auth : AuthContext) (db : SkillsDb) : AdminRequest → Prop
  | .createSkill _ body => (body.skillName (cfg.metadata body.content)).truthy ∧
    cfg.maxPublished ≤ db.publishedCount auth.tenantId
  | .importSkill _ file => markdownSuffix <:+ file.filename ∧
    cfg.maxPublished ≤ db.publishedCount auth.tenantId
  | .publishSkill _ skillId => cfg.maxPublished ≤ db.skills.countP fun row =>
    row.tenantId = auth.tenantId ∧ row.status = published ∧ row.id ≠ skillId
  | _ => False

theorem handle_eq_publishedLimit (r : AdminRequest) :
    db.handle cfg auth r = .error (publishedLimit cfg) ↔ db.refuses cfg auth r := by
  cases r with
  | createSkill draw body =>
    simp only [handle, refuses]
    split
    next hname =>
      refine created_eq_publishedLimit.trans ?_
      exact ⟨fun h => ⟨hname, h⟩, And.right⟩
    next hname =>
      refine iff_of_false ?_ fun h => hname h.1
      simp [publishedLimit]
  | importSkill draw file =>
    simp only [handle, refuses]
    split
    next hname =>
      refine created_eq_publishedLimit.trans ?_
      exact ⟨fun h => ⟨hname, h⟩, And.right⟩
    next hname =>
      refine iff_of_false ?_ fun h => hname h.1
      simp [publishedLimit]
  | publishSkill draw skillId =>
    simp only [handle, refuses, setStatus, true_and]
    split
    next hcap => exact iff_of_true rfl hcap
    next hcap =>
      refine iff_of_false (bind_ne_limit (updateSkillMetadata_onlyRaises 409 _) fun out => ?_) hcap
      exact bind_ne_limit (detailOrNotFound_ne _) fun _ h => by cases h
  | archiveSkill draw skillId =>
    refine iff_of_false ?_ id
    have hdraft : ¬ "archived" = published := by decide
    simp only [handle, setStatus, hdraft, false_and, if_false]
    refine bind_ne_limit (updateSkillMetadata_onlyRaises 409 _) fun out => ?_
    exact bind_ne_limit (detailOrNotFound_ne _) fun _ h => by cases h
  | listSkills tenantId filter offset limit =>
    refine iff_of_false ?_ id
    refine OnlyRaises.bind listSkills_onlyRaises (fun out => ?_) 409 _
    simp only
    split
    · exact onlyRaises_ok _
    · exact onlyRaises_raised _
  | getSkill skillId =>
    exact iff_of_false (withSkill_ne fun skill => skillToDetail_onlyRaises.map 409 _) id
  | updateSkillMetadata draw skillId updates =>
    refine iff_of_false ?_ id
    simp only [handle]
    split
    · simp [publishedLimit]
    · refine bind_ne_limit (updateSkillMetadata_onlyRaises 409 _) fun out => ?_
      exact bind_ne_limit (detailOrNotFound_ne _) fun _ h => by cases h
  | updateSkillBody draw skillId body =>
    refine iff_of_false ?_ id
    refine bind_ne_limit (updateSkillMetadata_onlyRaises 409 _) fun out => ?_
    refine bind_ne_limit (updateSkillBody_onlyRaises 409 _) fun out => ?_
    simp only
    split
    · exact fun h => skillNotFound_ne (Except.error.inj h)
    · exact fun h => by cases h
  | deleteSkill skillId =>
    refine iff_of_false ?_ id
    simp only [handle]
    split
    · exact fun h => by cases h
    · exact fun h => skillNotFound_ne (Except.error.inj h)
  | listVersions skillId | listAssignments skillId =>
    exact iff_of_false (withSkill_ne fun skill h => by cases h) id
  | getVersion skillId version =>
    refine iff_of_false (withSkill_ne fun skill => ?_) id
    split
    · simp [publishedLimit]
    · exact fun h => by cases h
  | createAssignment draw skillId body =>
    refine iff_of_false ?_ id
    simp only [handle]
    split
    · exact fun h => skillNotFound_ne (Except.error.inj h)
    · unfold createAssignment
      split
      · exact fun h => assignmentsLimit_ne _ (Except.error.inj h)
      · refine OnlyRaises.map ?_ 409 _
        split
        · split
          · exact onlyRaises_raised _
          · exact onlyRaises_ok _
        · exact onlyRaises_raised _
  | deleteAssignment skillId assignmentId =>
    refine iff_of_false ?_ id
    simp only [handle]
    split
    · exact fun h => by cases h
    · simp [publishedLimit]
  | exportSkill skillId => exact iff_of_false (withSkill_ne fun skill h => by cases h) id

theorem response_eq_error {e : ImportFailure} {r : AdminRequest} :
    db.response cfg auth r = .error e ↔ db.handle cfg auth r = .error e := by
  unfold response
  cases db.handle cfg auth r with
  | error e' => simp [Except.map]
  | ok out => simp [Except.map]

/-! ## When a new body is taken -/

theorem getSkill_flush (h : db.flushSkill now old new = .ok (db', row)) (hkeyed : db.Keyed)
    (hold : db.getSkill skillId tenantId = some old) (hid : new.id = old.id)
    (htenant : new.tenantId = old.tenantId) : db'.getSkill skillId tenantId = some row := by
  obtain ⟨-, rfl, rfl⟩ | ⟨-, rfl, rfl⟩ := flushSkill_ok h
  · exact hold
  · obtain ⟨hmem, hskill, htenant'⟩ := getSkill_eq_some hold
    have hsame : ∀ x ∈ db.skills, x.id = new.id → x = old := fun x hx hkey =>
      List.inj_on_of_nodup_map hkeyed hx hmem (hkey.trans hid)
    unfold getSkill at hold ⊢
    simp only
    rw [find?_replaceRow, hold, Option.map_some, if_pos hid.symm]
    intro x hx hkey
    rw [hsame x hx hkey, hid, htenant]

theorem flushSkill_of_fits (h : new.fits) : ∃ out, db.flushSkill now old new = .ok out := by
  unfold flushSkill
  split
  · exact ⟨_, rfl⟩
  · exact ⟨_, rfl⟩

/-- A new body is taken exactly if there is the skill and it accepts the body. -/
theorem handle_updateSkillBody_ok {body : UpdateSkillBodyRequest} (hkeyed : db.Keyed) :
    (∃ out, db.handle cfg auth (.updateSkillBody draw skillId body) = .ok out) ↔
      ∃ skill, db.getSkill skillId auth.tenantId = some skill ∧
        db.acceptsBody cfg auth draw skill body := by
  constructor
  · rintro ⟨out, h⟩
    obtain ⟨⟨db₁, result⟩, hmetadata, h⟩ := bind_eq_ok.1 h
    obtain ⟨⟨db₂, version⟩, hbody, h⟩ := bind_eq_ok.1 h
    unfold updateSkillBody at hbody
    obtain ⟨hnone, rfl, -⟩ | ⟨skill, new, row, hskill, hnew, hflush, -⟩ :=
      updateSkillMetadata_ok hmetadata
    · rw [hnone] at hbody
      cases hbody
      cases h
    · obtain ⟨hid, htenant, hversion, -⟩ := setColumns_eq_some hnew
      rw [getSkill_flush hflush hkeyed hskill hid htenant] at hbody
      obtain ⟨db₃, hinsert, hbody⟩ := bind_eq_ok.1 hbody
      obtain ⟨out₂, hflush₂, -⟩ := bind_eq_ok.1 hbody
      obtain ⟨htakes, rfl⟩ := insertVersion_ok.1 hinsert
      refine ⟨skill, hskill, Bool.and_eq_true_iff.2 ⟨?_, ?_⟩⟩
      · rw [SkillsConfig.metadata, hnew, Option.any_some]
        obtain ⟨heq, -⟩ | ⟨hfits, -⟩ := flushSkill_ok hflush₂
        · have hnext := congrArg SkillRow.currentVersion heq
          exact absurd hnext (Nat.succ_ne_self _)
        · obtain ⟨rfl, rfl, rfl⟩ | ⟨-, rfl, rfl⟩ := flushSkill_ok hflush
          · exact hfits
          · rw [← hversion]
            exact hfits
      · rw [newVersion, (getSkill_eq_some hskill).2.1]
        obtain ⟨rfl, rfl, rfl⟩ | ⟨-, rfl, rfl⟩ := flushSkill_ok hflush
        · exact htakes
        · rw [← hversion]
          exact htakes
  · rintro ⟨skill, hskill, haccepts⟩
    obtain ⟨hcolumns, htakes⟩ := Bool.and_eq_true_iff.1 haccepts
    obtain ⟨new, hnew, hfits⟩ := (Option.any_eq_true ..).1 hcolumns
    obtain ⟨hid, htenant, hversion, -⟩ := setColumns_eq_some hnew
    have hnewFits : new.fits := by
      simp only [SkillRow.fits, decide_eq_true_eq] at hfits ⊢
      rw [← hversion] at hfits
      omega
    obtain ⟨⟨db₁, row⟩, hflush⟩ := @flushSkill_of_fits db draw.now skill new hnewFits
    have hskill₁ := getSkill_flush hflush hkeyed hskill hid htenant
    have hmetadata : db.updateSkillMetadata cfg draw.now skillId auth.tenantId
        (cfg.metadata body.content) = .ok (db₁, some row) := by
      unfold updateSkillMetadata
      rw [hskill]
      simp only [hnew, hflush]
      rfl
    let version := newVersion cfg auth draw skill body
    have hrow : row.currentVersion = skill.currentVersion ∧
        { row with currentVersion := skill.currentVersion + 1 }.fits ∧
        db₁.takesVersion version := by
      obtain ⟨rfl, rfl, rfl⟩ | ⟨-, rfl, rfl⟩ := flushSkill_ok hflush
      · exact ⟨rfl, hfits, htakes⟩
      · exact ⟨hversion, hfits, htakes⟩
    obtain ⟨hnext, hnextFits, htakes₁⟩ := hrow
    obtain ⟨out, hout⟩ := @flushSkill_of_fits { db₁ with versions := db₁.versions ++ [version] }
      draw.now row { row with currentVersion := row.currentVersion + 1 } (hnext ▸ hnextFits)
    have hbody : ∃ db₂, db₁.updateSkillBody cfg draw skillId auth.tenantId
        (cfg.yaml.parseSkillDocument body.content).body
        (frontmatterOrNone (cfg.yaml.parseSkillDocument body.content).rawFrontmatter)
        body.changeNote auth.userId = .ok (db₂, some version) := by
      unfold updateSkillBody
      rw [hskill₁]
      simp only [hnext, ← (getSkill_eq_some hskill).2.1]
      refine ⟨_, bind_eq_ok.2 ⟨_, insertVersion_ok.2 ⟨htakes₁, rfl⟩, bind_eq_ok.2 ⟨out, ?_, rfl⟩⟩⟩
      rw [hnext] at hout
      exact hout
    obtain ⟨db₂, hbody⟩ := hbody
    exact ⟨_, bind_eq_ok.2 ⟨_, hmetadata, bind_eq_ok.2 ⟨_, hbody, rfl⟩⟩⟩

/-! ## The requests one by one -/

theorem AtMostCap.of_le (h : db.AtMostCap cfg) (hle : ∀ t, db'.publishedCount t ≤ db.publishedCount t) :
    db'.AtMostCap cfg := fun t => (hle t).trans (h t)

/-- One more published skill of a tenant below the cap. -/
theorem AtMostCap.of_le_add {b : Bool} (h : db.AtMostCap cfg)
    (hbelow : b → db.publishedCount tenantId < cfg.maxPublished)
    (hle : ∀ t, db'.publishedCount t ≤ db.publishedCount t + (decide (tenantId = t) && b).toNat) :
    db'.AtMostCap cfg := by
  intro t
  refine (hle t).trans ?_
  by_cases ht : tenantId = t
  · subst ht
    cases b with
    | true => simpa using hbelow rfl
    | false => simpa using h tenantId
  · rw [decide_eq_false ht]
    exact h t

theorem request_of_ok {r : AdminRequest} {response : AdminResponse}
    (h : db.handle cfg auth r = .ok (db', response)) : db.request cfg auth r = db' := by
  rw [request, h]

theorem request_of_error {r : AdminRequest} {e : ImportFailure}
    (h : db.handle cfg auth r = .error e) : db.request cfg auth r = db := by
  rw [request, h]

/-- Setting a status keeps every tenant at most at the cap. -/
theorem AtMostCap.setStatus {status : String} {result : Option SkillRow} (hcap : db.AtMostCap cfg)
    (hkeyed : db.Keyed) (h : db.setStatus cfg now skillId tenantId status = .ok (db', result)) :
    db'.Keyed ∧ db'.AtMostCap cfg := by
  unfold SkillsDb.setStatus at h
  simp only at h
  split at h
  next => cases h
  next hbelow =>
    obtain ⟨hkeyed', ⟨-, rfl⟩ | ⟨skill, new, hskill, htenant, hstatus, hcount⟩⟩ :=
      updateSkillMetadata_count h hkeyed
    · exact ⟨hkeyed', hcap⟩
    · refine ⟨hkeyed', fun t => ?_⟩
      have hstatus : status = new.status := Option.some.inj hstatus
      obtain ⟨hmem, hid, howner⟩ := getSkill_eq_some hskill
      have hcount := hcount t
      cases hnew : isPublished t new with
      | false =>
        rw [hnew] at hcount
        have hle := hcap t
        simp only [Bool.toNat_false] at hcount
        omega
      | true =>
        rw [hnew] at hcount
        rw [isPublished, htenant, howner, ← hstatus, decide_eq_true_eq] at hnew
        obtain ⟨rfl, rfl⟩ := hnew
        have hothers := countP_other (p := isPublished tenantId) hkeyed hmem
        have hsame : db.skills.countP (fun row => isPublished tenantId row &&
            decide (row.id ≠ skill.id)) = db.skills.countP fun row =>
              row.tenantId = tenantId ∧ row.status = published ∧ row.id ≠ skillId := by
          rw [hid]
          simp [isPublished, Bool.and_assoc]
        have hfree : ¬ cfg.maxPublished ≤ db.skills.countP fun row =>
            row.tenantId = tenantId ∧ row.status = published ∧ row.id ≠ skillId :=
          fun h => hbelow ⟨rfl, h⟩
        rw [hsame, ← publishedCount_eq] at hothers
        simp only [Bool.toNat_true] at hcount
        omega

theorem isUpdate_status (value : Json) : isUpdate ("status", value) = false := by
  cases value with
  | array items => exact Bool.and_false _
  | _ => rfl

theorem lookup_updates (updates : MetadataUpdates) : updates.1.lookup "status" = none := by
  rw [List.lookup_eq_none_iff]
  intro entry hentry
  have hupdate := updates.2 entry hentry
  obtain ⟨field, value⟩ := entry
  refine bne_iff_ne.2 fun hfield => ?_
  change "status" = field at hfield
  rw [← hfield, isUpdate_status] at hupdate
  cases hupdate

theorem withSkill_ok {respond : SkillRow → Except ImportFailure AdminResponse}
    {response : AdminResponse} (h : db.withSkill auth skillId respond = .ok (db', response)) :
    db' = db := by
  unfold withSkill at h
  split at h
  next => cases h
  next skill _ =>
    cases hrespond : respond skill with
    | error e =>
      rw [hrespond] at h
      cases h
    | ok a =>
      rw [hrespond] at h
      cases h
      rfl

theorem map_eq_ok {β : Type} {x : Except ImportFailure α} {f : α → β} {b : β} :
    x.map f = .ok b ↔ ∃ a, x = .ok a ∧ f a = b := by
  cases x with
  | error e => exact ⟨fun h => (by cases h), fun ⟨_, h, _⟩ => by cases h⟩
  | ok a => simp [Except.map]

theorem createAssignment_ok {row : SkillAssignmentRow}
    (h : db.createAssignment cfg row tenantId = .ok db') :
    (db.assignments.countP fun a => db.owns tenantId a.skillId) < cfg.maxAssignments ∧
      (∀ other ∈ db.assignments, other.id ≠ row.id) ∧
      db' = { db with assignments := db.assignments ++ [row] } := by
  unfold createAssignment at h
  split at h
  next => cases h
  next hbelow =>
    split at h
    next =>
      split at h
      next => cases h
      next hany =>
        cases h
        refine ⟨Nat.lt_of_not_le hbelow, fun other hmem => ?_, rfl⟩
        simp only [List.any_eq_true, decide_eq_true_eq, not_exists, not_and] at hany
        exact hany other hmem
    next => cases h

/-- What a new body that is taken changes in the counts. -/
theorem handle_updateSkillBody_count {body : UpdateSkillBodyRequest} {response : AdminResponse}
    (hkeyed : db.Keyed)
    (h : db.handle cfg auth (.updateSkillBody draw skillId body) = .ok (db', response)) :
    db'.Keyed ∧ ∃ skill new, db.getSkill skillId auth.tenantId = some skill ∧
      db.acceptsBody cfg auth draw skill body ∧ new.tenantId = auth.tenantId ∧
      (skill.status ≠ published → (new.status = published ↔ cfg.publishes body.content)) ∧
      ∀ t, db'.publishedCount t + (isPublished t skill).toNat =
        db.publishedCount t + (isPublished t new).toNat := by
  obtain ⟨skill, hskill, haccepts⟩ := (handle_updateSkillBody_ok hkeyed).1 ⟨_, h⟩
  obtain ⟨⟨db₁, result⟩, hmetadata, h⟩ := bind_eq_ok.1 h
  obtain ⟨⟨db₂, version⟩, hbody, h⟩ := bind_eq_ok.1 h
  obtain ⟨hkeyed₁, hupdate⟩ := updateSkillMetadata_count hmetadata hkeyed
  have hdb : db' = db₂ := by
    cases version <;> cases h
    rfl
  subst hdb
  refine ⟨(updateSkillBody_count (t := auth.tenantId) hbody hkeyed₁).1, ?_⟩
  obtain ⟨hnone, -⟩ | ⟨skill', new, hskill', htenant, hstatus, hcount⟩ := hupdate
  · rw [hskill] at hnone
    cases hnone
  · rw [hskill] at hskill'
    cases hskill'
    refine ⟨skill, new, hskill, haccepts, htenant.trans (getSkill_eq_some hskill).2.2,
      fun hdraft => ?_, fun t => ?_⟩
    · rw [status_eq_published hstatus hdraft, lookup_extractMetadata (by decide),
        SkillsConfig.publishes, decide_eq_true_eq]
    · rw [(updateSkillBody_count hbody hkeyed₁).2]
      exact hcount t

/-- A new body keeps every tenant at most at the cap exactly if it publishes below the cap only. -/
theorem AtMostCap.updateSkillBody {body : UpdateSkillBodyRequest} {response : AdminResponse}
    (hcap : db.AtMostCap cfg) (hkeyed : db.Keyed)
    (h : db.handle cfg auth (.updateSkillBody draw skillId body) = .ok (db', response)) :
    db'.Keyed ∧
      (db'.AtMostCap cfg ↔ db.checksCap cfg auth (.updateSkillBody draw skillId body)) := by
  obtain ⟨hkeyed', skill, new, hskill, haccepts, htenant, hstatus, hcount⟩ :=
    handle_updateSkillBody_count hkeyed h
  have howner := (getSkill_eq_some hskill).2.2
  refine ⟨hkeyed', fun hcap' skill' hskill' hdraft hpublishes _ => ?_, fun hchecks t => ?_⟩
  · rw [hskill] at hskill'
    cases hskill'
    have hle := hcap' auth.tenantId
    have hcount := hcount auth.tenantId
    have hold : isPublished auth.tenantId skill = false := decide_eq_false fun h => hdraft h.2
    have hnew : isPublished auth.tenantId new :=
      decide_eq_true ⟨htenant, (hstatus hdraft).2 hpublishes⟩
    rw [hold, hnew] at hcount
    simp only [Bool.toNat_false, Bool.toNat_true] at hcount
    omega
  · have hle := hcap t
    have hcount := hcount t
    have hone := Bool.toNat_le (isPublished t new)
    cases hold : isPublished t skill with
    | true =>
      rw [hold] at hcount
      simp only [Bool.toNat_true] at hcount
      omega
    | false =>
      rw [hold] at hcount
      cases hnew : isPublished t new with
      | false =>
        rw [hnew] at hcount
        omega
      | true =>
        rw [isPublished, htenant, decide_eq_true_eq] at hnew
        obtain ⟨rfl, hpublished⟩ := hnew
        have hdraft : skill.status ≠ published := by
          intro heq
          rw [isPublished, decide_eq_false_iff_not] at hold
          exact hold ⟨howner, heq⟩
        have hbelow := hchecks skill hskill hdraft ((hstatus hdraft).1 hpublished) haccepts
        simp only [Bool.toNat_false] at hcount
        omega

/-- What a request that is answered leaves of the invariant. -/
theorem AtMostCap.handle {r : AdminRequest} {response : AdminResponse} (hcap : db.AtMostCap cfg)
    (hkeyed : db.Keyed) (h : db.handle cfg auth r = .ok (db', response)) :
    db'.Keyed ∧ (db.checksCap cfg auth r → db'.AtMostCap cfg) := by
  have hcreated {draw : SkillsDraw} {name : Json} {content : List Char}
      (h : db.created cfg auth draw name (cfg.yaml.parseSkillDocument content)
        (cfg.metadata content) = .ok (db', response)) : db'.Keyed ∧ db'.AtMostCap cfg :=
    ⟨(created_count (t := auth.tenantId) h hkeyed).2.1,
      hcap.of_le_add (fun _ => (created_count (t := auth.tenantId) h hkeyed).1) fun t =>
        (created_count h hkeyed).2.2.le⟩
  cases r with
  | createSkill draw body =>
    simp only [SkillsDb.handle] at h
    split at h
    next => exact ⟨(hcreated h).1, fun _ => (hcreated h).2⟩
    next => cases h
  | importSkill draw file =>
    simp only [SkillsDb.handle] at h
    split at h
    next => exact ⟨(hcreated h).1, fun _ => (hcreated h).2⟩
    next => cases h
  | updateSkillMetadata draw skillId updates =>
    simp only [SkillsDb.handle] at h
    split at h
    next => cases h
    next =>
      obtain ⟨⟨db₁, result⟩, hmetadata, h⟩ := bind_eq_ok.1 h
      obtain ⟨detail, -, h⟩ := bind_eq_ok.1 h
      cases h
      exact ⟨(updateSkillMetadata_count hmetadata hkeyed).1, fun _ => hcap.of_le fun t =>
        (updateSkillMetadata_count_of_none hmetadata hkeyed (lookup_updates updates)).le⟩
  | updateSkillBody draw skillId body => exact (hcap.updateSkillBody hkeyed h).imp_right Iff.mpr
  | publishSkill draw skillId | archiveSkill draw skillId =>
    obtain ⟨⟨db₁, result⟩, hstatus, h⟩ := bind_eq_ok.1 h
    obtain ⟨detail, -, h⟩ := bind_eq_ok.1 h
    cases h
    exact (hcap.setStatus hkeyed hstatus).imp_right fun h _ => h
  | deleteSkill skillId =>
    cases hskill : db.getSkill skillId auth.tenantId with
    | none =>
      simp only [SkillsDb.handle, deleteSkill, hskill] at h
      cases h
    | some skill =>
      simp only [SkillsDb.handle, deleteSkill, hskill] at h
      cases h
      refine ⟨hkeyed.sublist (List.filter_sublist.map _), fun _ => hcap.of_le fun t => ?_⟩
      exact List.filter_sublist.countP_le
  | createAssignment draw skillId body =>
    simp only [SkillsDb.handle] at h
    split at h
    next => cases h
    next =>
      obtain ⟨db₁, hinsert, heq⟩ := map_eq_ok.1 h
      cases heq
      obtain ⟨-, -, rfl⟩ := createAssignment_ok hinsert
      exact ⟨hkeyed, fun _ => hcap⟩
  | deleteAssignment skillId assignmentId =>
    simp only [SkillsDb.handle] at h
    split at h
    next =>
      cases h
      exact ⟨hkeyed, fun _ => hcap⟩
    next => cases h
  | listSkills tenantId filter offset limit =>
    obtain ⟨⟨items, total⟩, -, h⟩ := bind_eq_ok.1 h
    simp only at h
    split at h
    next =>
      cases h
      exact ⟨hkeyed, fun _ => hcap⟩
    next => cases h
  | getSkill skillId | listVersions skillId | getVersion skillId version
  | listAssignments skillId | exportSkill skillId =>
    have hdb : db' = db := withSkill_ok h
    subst hdb
    exact ⟨hkeyed, fun _ => hcap⟩

/-! ## Runs of requests -/

/-- A missing skill is not among the published ones. -/
theorem others_of_getSkill_eq_none (h : db.getSkill skillId tenantId = none) :
    (db.skills.countP fun row =>
      row.tenantId = tenantId ∧ row.status = published ∧ row.id ≠ skillId) =
        db.publishedCount tenantId := by
  rw [publishedCount]
  refine List.countP_congr fun row hrow => ?_
  have hrow := List.find?_eq_none.1 h row hrow
  simp only [decide_eq_true_eq] at hrow ⊢
  exact ⟨fun h => ⟨h.1, h.2.1⟩, fun h => ⟨h.1, h.2, fun hid => hrow ⟨hid, h.1⟩⟩⟩

theorem owns_eq_false_iff : db.owns tenantId skillId = false ↔
    db.getSkill skillId tenantId = none := by
  rw [owns, List.any_eq_false, getSkill, List.find?_eq_none]

/-- Outside of new bodies the cap is checked as it should be exactly if nothing that publishes
nothing is refused. -/
theorem not_refuses_iff {r : AdminRequest}
    (hr : ∀ draw skillId body, r ≠ .updateSkillBody draw skillId body) :
    (db.publishesSomething cfg auth r = false → ¬ db.refuses cfg auth r) ↔
      db.checksCap cfg auth r := by
  cases r with
  | createSkill draw body | importSkill draw file =>
    simp only [publishesSomething, refuses, checksCap, not_and, not_le]
    exact ⟨fun h hname hdraft => h hdraft hname, fun h hdraft hname => h hname hdraft⟩
  | publishSkill draw skillId =>
    simp only [publishesSomething, refuses, checksCap, owns_eq_false_iff, not_le]
    refine forall_congr' fun hnone => ?_
    rw [others_of_getSkill_eq_none hnone]
  | updateSkillBody draw skillId body => exact absurd rfl (hr draw skillId body)
  | _ => exact iff_of_true (fun _ h => h) trivial

/-- A request keeps the cap exactly if the cap is checked for it as it should be. -/
theorem keepsCap_iff {r : AdminRequest} (hcap : db.AtMostCap cfg) (hkeyed : db.Keyed) :
    db.KeepsCap cfg auth r ↔ db.checksCap cfg auth r := by
  rw [KeepsCap, ne_eq, response_eq_error, handle_eq_publishedLimit]
  by_cases hr : ∃ draw skillId body, r = .updateSkillBody draw skillId body
  · obtain ⟨draw, skillId, body, rfl⟩ := hr
    refine (and_iff_left fun _ h => h).trans ?_
    cases hhandle : db.handle cfg auth (.updateSkillBody draw skillId body) with
    | error e =>
      rw [request_of_error hhandle]
      refine iff_of_true hcap fun skill hskill _ _ haccepts => ?_
      obtain ⟨out, hout⟩ := (handle_updateSkillBody_ok hkeyed).2 ⟨skill, hskill, haccepts⟩
      rw [hhandle] at hout
      cases hout
    | ok out =>
      rw [request_of_ok hhandle]
      exact (hcap.updateSkillBody hkeyed hhandle).2
  · rw [not_refuses_iff fun draw skillId body heq => hr ⟨draw, skillId, body, heq⟩]
    refine and_iff_right_of_imp fun hchecks => ?_
    cases hhandle : db.handle cfg auth r with
    | error e => rwa [request_of_error hhandle]
    | ok out =>
      rw [request_of_ok hhandle]
      exact (hcap.handle hkeyed hhandle).2 hchecks

theorem Keyed.request {r : AdminRequest} (hcap : db.AtMostCap cfg) (hkeyed : db.Keyed) :
    (db.request cfg auth r).Keyed := by
  cases hhandle : db.handle cfg auth r with
  | error e => rwa [request_of_error hhandle]
  | ok out =>
    rw [request_of_ok hhandle]
    exact (hcap.handle hkeyed hhandle).1

/-- From the empty tables on, the requests of any callers keep the cap exactly if it is checked for
each of them as it should be. -/
theorem guarded_keepsCap_iff (cfg : SkillsConfig) (requests : List (AuthContext × AdminRequest)) :
    Guarded (serve cfg) (fun db r => db.KeepsCap cfg r.1 r.2) ⟨[], [], []⟩ requests ↔
      Guarded (serve cfg) (fun db r => db.checksCap cfg r.1 r.2) ⟨[], [], []⟩ requests := by
  refine @guarded_congr_of_guard _ _ _ _ _ _ (fun db : SkillsDb => db.Keyed ∧ db.AtMostCap cfg) _ ?_ ?_ ?_
  · rintro db ⟨auth, r⟩ ⟨hkeyed, hcap⟩ hchecks
    exact ⟨hkeyed.request hcap, ((keepsCap_iff hcap hkeyed).2 hchecks).1⟩
  · rintro db ⟨auth, r⟩ ⟨hkeyed, hcap⟩
    exact keepsCap_iff hcap hkeyed
  · exact ⟨List.nodup_nil, fun _ => Nat.zero_le _⟩

/-- One published skill is the most a tenant may have. -/
def onePublished : SkillsConfig where
  yaml := {
    safeLoad := fun text => if text = "status: published".toList then
      some (.object [("status", .string published)]) else none
    dump := fun _ => "status: published".toList }
  lower := fun text => text.map Char.toLower
  asBool := fun value => match value with
    | .bool b => some b
    | _ => none
  asInteger := fun value => match value with
    | .number text => text.toInt?
    | _ => none
  ilike := fun pattern text => pattern = s!"%{text}%"
  maxPublished := 1
  maxVersions := 25
  maxAssignments := 500

def publishedContent : List Char := "---\nstatus: published\n---\nx".toList

/-- A draft, a published skill, and a new body for the draft. -/
def bodyPublishes : List (AuthContext × AdminRequest) :=
  let auth : AuthContext := ⟨"u", "t"⟩
  [(auth, .createSkill ⟨0, 1, 1, 1⟩ ⟨['x'], some "a", by decide, by decide⟩),
    (auth, .createSkill ⟨1, 2, 2, 2⟩ ⟨publishedContent, some "b", by decide, by decide⟩),
    (auth, .updateSkillBody ⟨2, 3, 3, 3⟩ 1 ⟨publishedContent, none, by decide, by decide⟩)]

/-- The new body publishes a second skill. -/
theorem not_guarded_keepsCap_bodyPublishes :
    ¬ Guarded (serve onePublished) (fun db r => db.KeepsCap onePublished r.1 r.2) ⟨[], [], []⟩
      bodyPublishes := by
  rintro ⟨-, -, ⟨hcap, -⟩, -⟩
  have hle := hcap "t"
  revert hle
  decide +kernel

end SkillsDb

end LlmPort.Skills
