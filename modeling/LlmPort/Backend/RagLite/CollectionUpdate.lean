import LlmPort.Backend.RagLite.Collections

/-!
# What an update of a collection changes

A body that has `parent_id` sets the description also where it has none, and no update looks for
a cycle. A body without `parent_id` is refused. Whether the requests of a run change what their
bodies have, and the collections stay a forest, depends on nothing else.
-/

namespace LlmPort.Backend.RagLite

open NodeControl Text Transition

/-! ## What a body asks for -/

/-- A field of a body says what its column is; a field that is absent leaves the column alone. -/
def FieldSet {α : Type} (key : String) (means : Json → α → Prop) (body : Json) (old new : α) :
    Prop :=
  match Json.get? key body with
  | none => new = old
  | some value => means value new

def MeansName (value : Json) (name : String) : Prop := value = .string name

def MeansText (value : Json) (text : Option String) : Prop := value = text.elim .null .string

section
variable (parseUuid : String → Option Uuid)

def MeansUuid (value : Json) (id : Option Uuid) : Prop := readUuid parseUuid value = some id

/-- The columns are what the body says. -/
structure FieldsSet (body : Json) (old new : CollectionRow) : Prop where
  name : FieldSet "name" MeansName body old.name new.name
  description : FieldSet "description" MeansText body old.description new.description
  parentId : FieldSet "parent_id" (MeansUuid parseUuid) body old.parentId new.parentId

/-- A body whose fields are of their types, and whose parent exists. -/
structure WellTyped (t : CollectionTable) (body : Json) : Prop where
  object : ∃ entries, body = .object entries
  name : (readName body).isSome
  description : (readText "description" body).isSome
  parentId : ∀ value, Json.get? "parent_id" body = some value →
    ∃ p, readUuid parseUuid value = some p ∧ ∀ q ∈ p, q ∈ t.ids

/-- An update changes the fields of its body and nothing else; a body that is not well typed
changes nothing. -/
structure Local (t : CollectionTable) (id : Uuid) (body : Json) (t' : CollectionTable) : Prop where
  ids : t'.ids = t.ids
  others : ∀ other, other ≠ id → t'.get other = t.get other
  fields : ∀ old new, t.get id = some old → t'.get id = some new → WellTyped parseUuid t body →
    FieldsSet parseUuid body old new
  refused : ¬ WellTyped parseUuid t body → t' = t

/-- A request is as it should be where it is served. -/
def Sound (t : CollectionTable) (request : CollectionRequest) : Prop :=
  (∀ id body, request = .patch id body → Local parseUuid t id body (t.serve parseUuid request)) ∧
    Acyclic (t.serve parseUuid request).parentOf

/-- A body with `parent_id` names what it changes: its name is not `null`, it has the description
unless there is none, and the parent is not the collection, nor below it. A body without `parent_id`
says what is there already. -/
structure ClearPatch (t : CollectionTable) (old : CollectionRow) (body : Json) : Prop where
  name : Json.get? "name" body ≠ some .null
  withParent : (Json.get? "parent_id" body).isSome → Json.get? "description" body = none →
    old.description = none
  withoutParent : Json.get? "parent_id" body = none →
    FieldSet "name" MeansName body old.name old.name ∧
      FieldSet "description" MeansText body old.description old.description
  parent : ∀ p, (Json.get? "parent_id" body).bind (readUuid parseUuid) = some (some p) →
    ¬ Below t.parentOf p old.id

/-- Any update of a collection there is, with a well-typed body, is clear. -/
def Clear (t : CollectionTable) (request : CollectionRequest) : Prop :=
  ∀ id body old, request = .patch id body → t.get id = some old → WellTyped parseUuid t body →
    ClearPatch parseUuid t old body

end

/-! ## Fields -/

variable {parseUuid : String → Option Uuid} {t t' : CollectionTable} {id drawn : Uuid}
  {body : Json} {old row : CollectionRow}

theorem fieldSet_name {name : Option String} (h : readName body = some name) (oldName : String) :
    FieldSet "name" MeansName body oldName (name.getD oldName) ↔
      Json.get? "name" body ≠ some .null := by
  obtain ⟨hread, -⟩ := Option.filter_eq_some_iff.1 h
  rw [readText] at hread
  rw [FieldSet]
  split at hread
  next hnone =>
    cases hread
    rw [hnone]
    exact iff_of_true rfl (Option.some_ne_none _).symm
  next hnull =>
    cases hread
    rw [hnull]
    exact iff_of_false (fun heq => by cases heq) fun hne => hne rfl
  next text htext =>
    cases hread
    rw [htext]
    exact iff_of_true rfl fun heq => by cases heq
  next => cases hread

theorem fieldSet_description {description : Option String}
    (h : readText "description" body = some description) (oldText : Option String) :
    FieldSet "description" MeansText body oldText description ↔
      (Json.get? "description" body = none → oldText = none) := by
  rw [readText] at h
  rw [FieldSet]
  split at h
  next hnone =>
    cases h
    rw [hnone]
    exact ⟨fun heq _ => heq.symm, fun hold => (hold rfl).symm⟩
  next hnull =>
    cases h
    rw [hnull]
    exact iff_of_true rfl fun heq => by cases heq
  next text htext =>
    cases h
    rw [htext]
    exact iff_of_true rfl fun heq => by cases heq
  next => cases h

/-! ## Updates -/

theorem readUpdate_eq_some {body' : RagLiteCollectionUpdate} :
    readUpdate parseUuid body = some body' ↔
      readName body = some body'.name ∧ readText "description" body = some body'.description ∧
        ∃ value, Json.get? "parent_id" body = some value ∧
          readUuid parseUuid value = some body'.parentId := by
  constructor
  · intro h
    obtain ⟨name, hname, h⟩ := Option.bind_eq_some_iff.1 h
    obtain ⟨description, hdescription, h⟩ := Option.bind_eq_some_iff.1 h
    obtain ⟨parentId, hparent, h⟩ := Option.bind_eq_some_iff.1 h
    cases h
    exact ⟨hname, hdescription, Option.bind_eq_some_iff.1 hparent⟩
  · rintro ⟨hname, hdescription, hparent⟩
    refine Option.bind_eq_some_iff.2 ⟨_, hname, Option.bind_eq_some_iff.2 ⟨_, hdescription, ?_⟩⟩
    exact Option.bind_eq_some_iff.2 ⟨_, Option.bind_eq_some_iff.2 hparent, rfl⟩

/-- What an update puts into its row. -/
def updated (body : RagLiteCollectionUpdate) (row : CollectionRow) : CollectionRow :=
  row.update body.name (some body.description) (some body.parentId)

theorem serve_of_error {request : CollectionRequest} {e : CollectionError}
    (h : t.handle parseUuid request = .error e) : t.serve parseUuid request = t := by
  rw [CollectionTable.serve, h]
  rfl

theorem serve_of_ok {request : CollectionRequest} (h : t.handle parseUuid request = .ok t') :
    t.serve parseUuid request = t' := by
  rw [CollectionTable.serve, h]
  rfl

theorem serve_patch_of_get_eq_none (h : t.get id = none) :
    t.serve parseUuid (.patch id body) = t := by
  cases hread : readUpdate parseUuid body with
  | none =>
    apply serve_of_error
    rw [CollectionTable.handle, CollectionTable.updateCollection, hread]
  | some body' =>
    apply serve_of_error
    rw [CollectionTable.handle, CollectionTable.updateCollection, hread]
    dsimp only
    rw [h]

/-- A row is updated when the parent of the body exists. -/
theorem serve_patch {body' : RagLiteCollectionUpdate} (hget : t.get id = some old)
    (hread : readUpdate parseUuid body = some body') :
    t.serve parseUuid (.patch id body) = t ∧ (∃ p ∈ body'.parentId, p ∉ t.ids) ∨
      (∀ p ∈ body'.parentId, p ∈ t.ids) ∧
        (t.serve parseUuid (.patch id body)).rows =
          t.rows.map fun row => if row.id = id then updated body' row else row := by
  have hids := CollectionTable.ids_replace (fun row => (rfl : (updated body' row).id = row.id))
    t.rows id
  have hhandle : t.handle parseUuid (.patch id body) = CollectionTable.commit
      (t.rows.map fun row => if row.id = id then updated body' row else row) := by
    rw [CollectionTable.handle, CollectionTable.updateCollection, hread]
    dsimp only
    rw [hget]
    rfl
  by_cases hparent : ∀ p ∈ body'.parentId, p ∈ t.ids
  · refine .inr ⟨hparent, ?_⟩
    have hadmitted : Admitted
        (t.rows.map fun row => if row.id = id then updated body' row else row) := by
      refine ⟨?_, fun row hrow p hp => ?_⟩
      · rw [hids]
        exact t.admitted.keyed
      · rw [hids]
        obtain ⟨row', hrow', rfl⟩ := List.mem_map.1 hrow
        split at hp
        · exact hparent p hp
        · exact t.admitted.parents row' hrow' p hp
    rw [serve_of_ok (hhandle.trans (CollectionTable.commit_of_admitted hadmitted))]
  · push Not at hparent
    refine .inl ⟨?_, hparent⟩
    obtain ⟨p, hp, hmissing⟩ := hparent
    cases hcommit : CollectionTable.commit
        (t.rows.map fun row => if row.id = id then updated body' row else row) with
    | error e => exact serve_of_error (hhandle.trans hcommit)
    | ok t' =>
      have hrow : updated body' old ∈ t'.rows := by
        rw [CollectionTable.rows_of_commit hcommit]
        refine List.mem_map.2 ⟨old, List.mem_of_find?_eq_some hget, ?_⟩
        exact if_pos (by simpa using List.find?_some hget)
      have hmem := t'.admitted.parents _ hrow p hp
      rw [CollectionTable.rows_of_commit hcommit, hids] at hmem
      exact absurd hmem hmissing

theorem wellTyped_of_readUpdate {body' : RagLiteCollectionUpdate}
    (hread : readUpdate parseUuid body = some body') (hparent : ∀ p ∈ body'.parentId, p ∈ t.ids) :
    WellTyped parseUuid t body := by
  obtain ⟨hname, hdescription, value, hvalue, hid⟩ := readUpdate_eq_some.1 hread
  refine ⟨?_, by rw [hname]; rfl, by rw [hdescription]; rfl, fun value' hvalue' => ?_⟩
  · cases body with
    | object entries => exact ⟨entries, rfl⟩
    | _ => cases hvalue
  · cases hvalue.symm.trans hvalue'
    exact ⟨_, hid, hparent⟩

/-- What is not well typed is refused. -/
theorem serve_of_not_wellTyped (h : ¬ WellTyped parseUuid t body) :
    t.serve parseUuid (.patch id body) = t := by
  cases hget : t.get id with
  | none => exact serve_patch_of_get_eq_none hget
  | some old =>
    cases hread : readUpdate parseUuid body with
    | none =>
      apply serve_of_error
      rw [CollectionTable.handle, CollectionTable.updateCollection, hread]
    | some body' =>
      rcases serve_patch hget hread with ⟨hserve, -⟩ | ⟨hparent, -⟩
      · exact hserve
      · exact absurd (wellTyped_of_readUpdate hread hparent) h

theorem local_self (hfields : ∀ old, t.get id = some old → WellTyped parseUuid t body →
    FieldsSet parseUuid body old old) : Local parseUuid t id body t where
  ids := rfl
  others _ _ := rfl
  fields old new hold hnew htyped := by
    cases hold.symm.trans hnew
    exact hfields old hold htyped
  refused _ := rfl

theorem get_of_rows {body' : RagLiteCollectionUpdate}
    (hrows : t'.rows = t.rows.map fun row => if row.id = id then updated body' row else row)
    (other : Uuid) :
    t'.get other = (t.get other).map fun row => if row.id = id then updated body' row else row := by
  rw [CollectionTable.get, hrows]
  exact CollectionTable.find_replace (fun row => (rfl : (updated body' row).id = row.id)) _ _ _

theorem id_of_get (h : t.get id = some old) : old.id = id := by simpa using List.find?_some h

theorem local_of_rows {body' : RagLiteCollectionUpdate} (hget : t.get id = some old)
    (htyped : WellTyped parseUuid t body)
    (hrows : t'.rows = t.rows.map fun row => if row.id = id then updated body' row else row) :
    Local parseUuid t id body t' ↔ FieldsSet parseUuid body old (updated body' old) := by
  have hnew : t'.get id = some (updated body' old) := by
    rw [get_of_rows hrows, hget, Option.map_some, if_pos (id_of_get hget)]
  refine ⟨fun h => h.fields old _ hget hnew htyped, fun h => ⟨?_, fun other hne => ?_, ?_, ?_⟩⟩
  · rw [CollectionTable.ids, hrows]
    exact CollectionTable.ids_replace (fun row => (rfl : (updated body' row).id = row.id)) _ _
  · rw [get_of_rows hrows]
    cases hother : t.get other with
    | none => rfl
    | some row =>
      have hid : row.id ≠ id := by
        rw [id_of_get hother]
        exact hne
      rw [Option.map_some, if_neg hid]
  · intro old' new hold hnew' _
    cases hget.symm.trans hold
    cases hnew.symm.trans hnew'
    exact h
  · exact fun hno => absurd htyped hno

/-- In the forest an update moves its collection. -/
theorem parentOf_of_rows {body' : RagLiteCollectionUpdate} (hget : t.get id = some old)
    (hrows : t'.rows = t.rows.map fun row => if row.id = id then updated body' row else row) :
    t'.parentOf = Function.update t.parentOf id body'.parentId := by
  funext other
  rw [CollectionTable.parentOf, get_of_rows hrows]
  rcases eq_or_ne other id with rfl | hne
  · rw [hget, Option.map_some, if_pos (id_of_get hget), Function.update_self]
    rfl
  · rw [Function.update_of_ne hne, CollectionTable.parentOf]
    cases hother : t.get other with
    | none => rfl
    | some row =>
      have hid : row.id ≠ id := by
        rw [id_of_get hother]
        exact hne
      rw [Option.map_some, if_neg hid]

/-! ## One request -/

theorem acyclic_create (h : Acyclic t.parentOf) :
    Acyclic (t.serve parseUuid (.create drawn body)).parentOf := by
  cases hhandle : t.handle parseUuid (.create drawn body) with
  | error e =>
    rw [serve_of_error hhandle]
    exact h
  | ok t' =>
    rw [serve_of_ok hhandle]
    rw [CollectionTable.handle, CollectionTable.createCollection] at hhandle
    split at hhandle
    next => cases hhandle
    next body' hread =>
      split at hhandle
      next => cases hhandle
      next hparent =>
        have hrows := CollectionTable.rows_of_commit hhandle
        have hfresh : drawn ∉ t.ids := by
          have hkeyed := t'.admitted.keyed
          rw [hrows, List.map_append, List.nodup_append'] at hkeyed
          exact fun hmem => hkeyed.2.2 hmem List.mem_cons_self
        have hmoved : t'.parentOf = Function.update t.parentOf drawn body'.parentId := by
          funext other
          rw [CollectionTable.parentOf, CollectionTable.get, hrows, List.find?_append]
          rcases eq_or_ne other drawn with rfl | hne
          · have hnone : t.get other = none := by
              refine List.find?_eq_none.2 fun row hrow hid => hfresh ?_
              rw [← of_decide_eq_true hid]
              exact List.mem_map_of_mem hrow
            rw [CollectionTable.get] at hnone
            rw [hnone, Function.update_self]
            simp
          · rw [Function.update_of_ne hne]
            simp [CollectionTable.parentOf, CollectionTable.get, hne.symm]
        rw [hmoved]
        refine (acyclic_update_iff h).2 fun p hp hbelow => ?_
        have hmem : p ∈ t.ids := by
          by_contra hmissing
          exact hparent ((Option.any_eq_true _ _).2 ⟨p, hp, decide_eq_true hmissing⟩)
        have hleaf : ∀ x, t.parentOf x ≠ some drawn := fun x hx =>
          hfresh (CollectionTable.mem_of_parentOf hx)
        exact hfresh (eq_of_below hleaf hbelow ▸ hmem)

theorem acyclic_delete (h : Acyclic t.parentOf) :
    Acyclic (t.serve parseUuid (.delete id)).parentOf := by
  cases hget : t.get id with
  | none =>
    have hhandle : t.handle parseUuid (.delete id) = .error .notFound := by
      rw [CollectionTable.handle, CollectionTable.deleteCollection, hget]
    rw [serve_of_error hhandle]
    exact h
  | some old =>
    have hhandle : t.handle parseUuid (.delete id) = .ok (t.remove id) := by
      rw [CollectionTable.handle, CollectionTable.deleteCollection, hget]
    rw [serve_of_ok hhandle]
    refine h.mono fun a b hparent => ?_
    obtain ⟨row, hrow, hb⟩ := Option.bind_eq_some_iff.1 hparent
    have hid : row.id = a := id_of_get hrow
    have hmem : row ∈ t.rows := List.mem_of_mem_filter (List.mem_of_find?_eq_some hrow)
    rw [CollectionTable.parentOf, ← hid, CollectionTable.get_of_mem hmem]
    exact hb

/-- A body without `parent_id` is refused, so it must say what is there. -/
theorem clearPatch_iff_of_none (hparent : Json.get? "parent_id" body = none) :
    FieldsSet parseUuid body old old ↔ ClearPatch parseUuid t old body := by
  refine ⟨fun h => ⟨fun hnull => ?_, fun hsome => ?_, fun _ => ⟨h.name, h.description⟩,
    fun p hp => ?_⟩, fun h => ⟨(h.withoutParent hparent).1, (h.withoutParent hparent).2, ?_⟩⟩
  · have hname := h.name
    rw [FieldSet, hnull] at hname
    cases hname
  · rw [hparent] at hsome
    cases hsome
  · rw [hparent] at hp
    cases hp
  · rw [FieldSet, hparent]

theorem clearPatch_iff_of_some {body' : RagLiteCollectionUpdate} (h : Acyclic t.parentOf)
    (hget : t.get id = some old) (hread : readUpdate parseUuid body = some body') :
    FieldsSet parseUuid body old (updated body' old) ∧
        Acyclic (Function.update t.parentOf id body'.parentId) ↔
      ClearPatch parseUuid t old body := by
  obtain ⟨hname, hdescription, value, hvalue, huuid⟩ := readUpdate_eq_some.1 hread
  have hbind : (Json.get? "parent_id" body).bind (readUuid parseUuid) = some body'.parentId := by
    rw [hvalue]
    exact huuid
  rw [acyclic_update_iff h, ← id_of_get hget]
  constructor
  · rintro ⟨hfields, hfree⟩
    refine ⟨(fieldSet_name hname old.name).1 hfields.name, fun _ =>
      (fieldSet_description hdescription old.description).1 hfields.description, fun hnone => ?_,
      fun p hp => hfree p (Option.some.inj (hbind.symm.trans hp))⟩
    rw [hvalue] at hnone
    cases hnone
  · intro hclear
    refine ⟨⟨(fieldSet_name hname old.name).2 hclear.name,
      (fieldSet_description hdescription old.description).2 (hclear.withParent ?_), ?_⟩,
      fun p hp => hclear.parent p (hbind.trans (congrArg some hp))⟩
    · rw [hvalue]
      rfl
    · rw [FieldSet, hvalue]
      exact huuid

theorem local_and_acyclic_iff (h : Acyclic t.parentOf) (hget : t.get id = some old)
    (htyped : WellTyped parseUuid t body) :
    Local parseUuid t id body (t.serve parseUuid (.patch id body)) ∧
        Acyclic (t.serve parseUuid (.patch id body)).parentOf ↔
      ClearPatch parseUuid t old body := by
  cases hparent : Json.get? "parent_id" body with
  | none =>
    have hread : readUpdate parseUuid body = none := by
      refine Option.eq_none_iff_forall_not_mem.2 fun body' hread => ?_
      obtain ⟨-, -, value, hvalue, -⟩ := readUpdate_eq_some.1 hread
      rw [hparent] at hvalue
      cases hvalue
    have hserve : t.serve parseUuid (.patch id body) = t := by
      apply serve_of_error
      rw [CollectionTable.handle, CollectionTable.updateCollection, hread]
    rw [hserve, ← clearPatch_iff_of_none hparent]
    refine ⟨fun hsound => hsound.1.fields old old hget hget htyped, fun hfields =>
      ⟨local_self fun old' hold _ => ?_, h⟩⟩
    cases hget.symm.trans hold
    exact hfields
  | some value =>
    obtain ⟨name, hname⟩ := Option.isSome_iff_exists.1 htyped.name
    obtain ⟨description, hdescription⟩ := Option.isSome_iff_exists.1 htyped.description
    obtain ⟨p, huuid, hexists⟩ := htyped.parentId value hparent
    have hread : readUpdate parseUuid body = some ⟨name, description, p⟩ :=
      readUpdate_eq_some.2 ⟨hname, hdescription, value, hparent, huuid⟩
    rcases serve_patch hget hread with ⟨-, q, hq, hmissing⟩ | ⟨-, hrows⟩
    · exact absurd (hexists q hq) hmissing
    · rw [local_of_rows hget htyped hrows, parentOf_of_rows hget hrows]
      exact clearPatch_iff_of_some h hget hread

theorem sound_patch_iff (h : Acyclic t.parentOf) :
    Sound parseUuid t (.patch id body) ↔ Clear parseUuid t (.patch id body) := by
  have hsound : Sound parseUuid t (.patch id body) ↔
      Local parseUuid t id body (t.serve parseUuid (.patch id body)) ∧
        Acyclic (t.serve parseUuid (.patch id body)).parentOf :=
    and_congr_left fun _ => ⟨fun hlocal => hlocal id body rfl, fun hlocal id' body' heq => by
      cases heq
      exact hlocal⟩
  have hclear : Clear parseUuid t (.patch id body) ↔
      ∀ old, t.get id = some old → WellTyped parseUuid t body →
        ClearPatch parseUuid t old body :=
    ⟨fun hclear old => hclear id body old rfl, fun hclear id' body' old heq => by
      cases heq
      exact hclear old⟩
  rw [hsound, hclear]
  by_cases htyped : WellTyped parseUuid t body
  · cases hget : t.get id with
    | none =>
      rw [serve_patch_of_get_eq_none hget]
      refine iff_of_true ⟨local_self fun old hold => ?_, h⟩ fun old hold => by cases hold
      rw [hget] at hold
      cases hold
    | some old =>
      have hone : (∀ old', some old = some old' → WellTyped parseUuid t body →
          ClearPatch parseUuid t old' body) ↔ ClearPatch parseUuid t old body :=
        ⟨fun hclear => hclear old rfl htyped, fun hclear old' heq _ => by
          cases heq
          exact hclear⟩
      rw [hone]
      exact local_and_acyclic_iff h hget htyped
  · rw [serve_of_not_wellTyped htyped]
    exact iff_of_true ⟨local_self fun _ _ hyes => absurd hyes htyped, h⟩
      fun _ _ hyes => absurd hyes htyped

theorem sound_iff (h : Acyclic t.parentOf) (request : CollectionRequest) :
    Sound parseUuid t request ↔ Clear parseUuid t request := by
  cases request with
  | create drawn body =>
    refine iff_of_true ⟨fun id body' heq => ?_, acyclic_create h⟩ fun id body' old heq => ?_
    all_goals cases heq
  | patch id body => exact sound_patch_iff h
  | delete id =>
    refine iff_of_true ⟨fun id body' heq => ?_, acyclic_delete h⟩ fun id body' old heq => ?_
    all_goals cases heq

/-! ## Runs -/

theorem acyclic_empty : Acyclic CollectionTable.empty.parentOf := acyclic_none

/-- In a run from no collections every update changes what its body has, and the collections stay a
forest, exactly if all its updates are clear. -/
theorem guarded_sound_iff (parseUuid : String → Option Uuid) (requests : List CollectionRequest) :
    Guarded (CollectionTable.serve · parseUuid) (Sound parseUuid) .empty requests ↔
      Guarded (CollectionTable.serve · parseUuid) (Clear parseUuid) .empty requests :=
  guarded_congr_of_guard (fun _ request hacyclic hclear =>
    ((sound_iff hacyclic request).2 hclear).2) (fun _ request hacyclic =>
    sound_iff hacyclic request) acyclic_empty

/-! ### Collections that are moved -/

def readHex (text : String) : Option Uuid := if text = "01" then some 1 else none

def team : CollectionRow := ⟨⟨1, none⟩, "Team", none⟩

def notes : CollectionRow := ⟨⟨2, none⟩, "Notes", some "of meetings"⟩

theorem admitted_team : Admitted [team] where
  keyed := List.nodup_singleton _
  parents row hrow p hp := by
    rw [List.mem_singleton.1 hrow] at hp
    cases hp

theorem admitted_notes : Admitted [team, notes] where
  keyed := by simp [team, notes]
  parents row hrow p hp := by
    rcases List.mem_pair.1 hrow with rfl | rfl
    · cases hp
    · cases hp

def moveToTeam : Json := .object [("parent_id", .string "01")]

theorem readUpdate_moveToTeam : readUpdate readHex moveToTeam = some ⟨none, none, some 1⟩ := rfl

/-- A collection at the top is created under an id that is new. -/
theorem serve_create {name : String} {description : Option String}
    (hread : readCreate parseUuid body = some ⟨name, description, none⟩)
    (h : Admitted (t.rows ++ [⟨⟨drawn, none⟩, name, description⟩])) :
    t.serve parseUuid (.create drawn body) = ⟨t.rows ++ [⟨⟨drawn, none⟩, name, description⟩], h⟩ := by
  apply serve_of_ok
  rw [CollectionTable.handle, CollectionTable.createCollection, hread]
  exact CollectionTable.commit_of_admitted h

theorem serve_team : CollectionTable.empty.serve readHex
    (.create 1 (.object [("name", .string "Team")])) = ⟨[team], admitted_team⟩ := by
  have hread : readCreate readHex (.object [("name", .string "Team")]) =
      some ⟨"Team", none, none⟩ := rfl
  exact @serve_create readHex .empty 1 _ _ _ hread admitted_team

theorem serve_notes : CollectionTable.serve ⟨[team], admitted_team⟩ readHex
    (.create 2 (.object [("name", .string "Notes"), ("description", .string "of meetings")])) =
      ⟨[team, notes], admitted_notes⟩ := by
  have hread : readCreate readHex (.object
      [("name", .string "Notes"), ("description", .string "of meetings")]) =
        some ⟨"Notes", some "of meetings", none⟩ := rfl
  exact @serve_create readHex ⟨[team], admitted_team⟩ 2 _ _ _ hread admitted_notes

theorem mem_ids_of_moveToTeam (h : 1 ∈ t.ids) : ∀ p ∈ (some 1 : Option Uuid), p ∈ t.ids := by
  intro p hp
  cases hp
  exact h

/-- The second collection is moved into the first. -/
def movedCollection : List CollectionRequest :=
  [.create 1 (.object [("name", .string "Team")]),
    .create 2 (.object [("name", .string "Notes"), ("description", .string "of meetings")]),
    .patch 2 moveToTeam]

/-- A collection is moved into itself. -/
def loopedCollection : List CollectionRequest :=
  [.create 1 (.object [("name", .string "Team")]), .patch 1 moveToTeam]

/-- The one move takes the description away, the other one closes a cycle. -/
theorem not_sound_moved :
    ¬ Guarded (CollectionTable.serve · readHex) (Sound readHex) .empty movedCollection ∧
      ¬ Guarded (CollectionTable.serve · readHex) (Sound readHex) .empty loopedCollection := by
  refine ⟨fun h => ?_, fun h => ?_⟩
  · obtain ⟨-, -, ⟨hlocal, -⟩, -⟩ := h
    dsimp only at hlocal
    rw [serve_team, serve_notes] at hlocal
    have hids := @mem_ids_of_moveToTeam ⟨[team, notes], admitted_notes⟩ List.mem_cons_self
    have hget : CollectionTable.get ⟨[team, notes], admitted_notes⟩ 2 = some notes :=
      @CollectionTable.get_of_mem ⟨[team, notes], admitted_notes⟩ notes
        (List.mem_cons_of_mem _ List.mem_cons_self)
    rcases serve_patch hget readUpdate_moveToTeam with ⟨-, p, hp, hmissing⟩ | ⟨-, hrows⟩
    · exact hmissing (hids p hp)
    · have hfields := (local_of_rows hget
        (wellTyped_of_readUpdate readUpdate_moveToTeam hids) hrows).1 (hlocal 2 _ rfl)
      cases hfields.description
  · obtain ⟨-, ⟨-, hacyclic⟩, -⟩ := h
    dsimp only at hacyclic
    rw [serve_team] at hacyclic
    have hids := @mem_ids_of_moveToTeam ⟨[team], admitted_team⟩ List.mem_cons_self
    have hget : CollectionTable.get ⟨[team], admitted_team⟩ 1 = some team :=
      @CollectionTable.get_of_mem ⟨[team], admitted_team⟩ team List.mem_cons_self
    rcases serve_patch hget readUpdate_moveToTeam with ⟨-, p, hp, hmissing⟩ | ⟨-, hrows⟩
    · exact hmissing (hids p hp)
    · rw [parentOf_of_rows hget hrows] at hacyclic
      exact hacyclic 1 (.single (Function.update_self _ _ _))

end LlmPort.Backend.RagLite
