import Mathlib.Data.Finset.Card
import Mathlib.Data.List.Nodup
import LlmPort.Backend.RagLite.Tables
import LlmPort.Text.Json
import LlmPort.Transition.Forest
import LlmPort.Transition.Run

/-!
# Collections

The requests of `web/api/admin/rag_lite/views.py` that create, update and delete a collection:
their bodies as `schema.py` reads them, `RagLiteCollectionDAO`, and the table with its constraints.
-/

namespace LlmPort.Backend.RagLite

open NodeControl Text Transition

/-! ## The table -/

/-- A collection with the columns a request can set. -/
structure CollectionRow extends RagLiteCollection where
  name : String
  description : Option String

/-- What the database admits: ids are unique, and parents exist. -/
structure Admitted (rows : List CollectionRow) : Prop where
  keyed : (rows.map (·.id)).Nodup
  parents : ∀ row ∈ rows, ∀ p ∈ row.parentId, p ∈ rows.map (·.id)

structure CollectionTable where
  rows : List CollectionRow
  admitted : Admitted rows

namespace CollectionTable

variable (t : CollectionTable)

def empty : CollectionTable := ⟨[], .nil, nofun⟩

/-- `RagLiteCollectionDAO.get` -/
def get (id : Uuid) : Option CollectionRow := t.rows.find? (·.id = id)

def ids : List Uuid := t.rows.map (·.id)

def parentOf (id : Uuid) : Option Uuid := (t.get id).bind (·.parentId)

/-- The collections as the other tables refer to them. -/
def asTables : RagTables where
  collections := t.rows.map (·.toRagLiteCollection)
  documents _ := none
  chunks := []
  jobs _ := none

end CollectionTable

/-! ## Bodies -/

structure RagLiteCollectionCreate where
  name : String
  description : Option String
  parentId : Option Uuid

structure RagLiteCollectionUpdate where
  name : Option String
  description : Option String
  parentId : Option Uuid

/-- Between 1 and 256 characters -/
def isCollectionName (name : String) : Bool := 1 ≤ name.length ∧ name.length ≤ 256

/-- `str | None`, with `None` as the default -/
def readText (key : String) (body : Json) : Option (Option String) :=
  match Json.get? key body with
  | none => some none
  | some .null => some none
  | some (.string text) => some (some text)
  | some _ => none

/-- The name of a body, when it has one that may be used. -/
def readName (body : Json) : Option (Option String) :=
  (readText "name" body).filter fun name => name.all isCollectionName

section
variable (parseUuid : String → Option Uuid)

/-- `uuid.UUID | None` -/
def readUuid : Json → Option (Option Uuid)
  | .null => some none
  | .string text => (parseUuid text).map some
  | _ => none

def readCreate (body : Json) : Option RagLiteCollectionCreate := do
  let name ← (← readName body)
  let description ← readText "description" body
  let parentId ← ((Json.get? "parent_id" body).map (readUuid parseUuid)).getD (some none)
  return ⟨name, description, parentId⟩

/-- The default `...` makes `parent_id` a field that a body has to have. -/
def readUpdate (body : Json) : Option RagLiteCollectionUpdate := do
  let name ← readName body
  let description ← readText "description" body
  let parentId ← (Json.get? "parent_id" body).bind (readUuid parseUuid)
  return ⟨name, description, parentId⟩

end

/-! ## Requests -/

/-- Why a request is refused. -/
inductive CollectionError where
  /-- 422 -/
  | invalid
  /-- 404, `Collection not found` -/
  | notFound
  /-- A violated constraint; the transaction is undone. -/
  | integrity
  deriving DecidableEq

/-- `RagLiteCollectionDAO.update` on a row; `none` is a column that is left alone. -/
def CollectionRow.update (row : CollectionRow) (name : Option String)
    (description : Option (Option String)) (parentId : Option (Option Uuid)) : CollectionRow :=
  { row with
    name := name.getD row.name
    description := description.getD row.description
    parentId := parentId.getD row.parentId }

/-- A request; the id of a new collection is drawn when its body has been read. -/
inductive CollectionRequest where
  | create (drawn : Uuid) (body : Json)
  | patch (id : Uuid) (body : Json)
  | delete (id : Uuid)

/-! ### What deletion takes along -/

namespace RagTables

variable {t : RagTables} {id : Uuid} {ids : List Uuid}

/-- The children of the collections in a list are in it. -/
def Closed (t : RagTables) (ids : List Uuid) : Prop :=
  ∀ c ∈ t.collections, ∀ p ∈ c.parentId, p ∈ ids → c.id ∈ ids

theorem withChildren_of_closed (h : t.Closed ids) : t.withChildren ids = ids := by
  have hnone : (t.collections.filter fun c =>
      c.parentId.any (· ∈ ids) && c.id ∉ ids) = [] := by
    refine List.filter_eq_nil_iff.2 fun c hc hnew => ?_
    obtain ⟨hparent, hid⟩ := Bool.and_eq_true_iff.1 hnew
    obtain ⟨p, hp, hmem⟩ := (Option.any_eq_true _ _).1 hparent
    exact of_decide_eq_true hid (h c hc p hp (of_decide_eq_true hmem))
  rw [withChildren, hnone, List.map_nil, List.append_nil]

theorem exists_new_of_not_closed (h : ¬ t.Closed ids) :
    ∃ x ∈ t.withChildren ids, x ∉ ids := by
  rw [Closed] at h
  push Not at h
  obtain ⟨c, hc, p, hp, hmem, hid⟩ := h
  have hnew : (c.parentId.any (· ∈ ids) && c.id ∉ ids) = true :=
    Bool.and_eq_true_iff.2 ⟨(Option.any_eq_true _ _).2 ⟨p, hp, decide_eq_true hmem⟩,
      decide_eq_true hid⟩
  exact ⟨c.id, List.mem_append_right _ (List.mem_map_of_mem (List.mem_filter.2 ⟨hc, hnew⟩)), hid⟩

theorem withChildren_subset (hids : ∀ x ∈ ids, x = id ∨ x ∈ t.collections.map (·.id)) :
    ∀ x ∈ t.withChildren ids, x = id ∨ x ∈ t.collections.map (·.id) := by
  intro x hx
  rcases List.mem_append.1 hx with hx | hx
  · exact hids x hx
  · obtain ⟨c, hc, rfl⟩ := List.mem_map.1 hx
    exact .inr (List.mem_map_of_mem (List.mem_of_mem_filter hc))

/-- Until nothing is missing, each round finds another collection. -/
theorem closed_or_lt_card (t : RagTables) (id : Uuid) (n : ℕ) :
    t.Closed (t.withChildren^[n] [id]) ∨ n < (t.withChildren^[n] [id]).toFinset.card := by
  induction n with
  | zero => exact .inr Nat.zero_lt_one
  | succ n ih =>
    rw [Function.iterate_succ_apply']
    by_cases hclosed : t.Closed (t.withChildren^[n] [id])
    · rw [withChildren_of_closed hclosed]
      exact .inl hclosed
    · obtain ⟨x, hx, hnew⟩ := exists_new_of_not_closed hclosed
      have hssub : (t.withChildren^[n] [id]).toFinset ⊂
          (t.withChildren (t.withChildren^[n] [id])).toFinset := by
        refine (Finset.ssubset_iff_of_subset fun y hy => ?_).2
          ⟨x, List.mem_toFinset.2 hx, fun hmem => hnew (List.mem_toFinset.1 hmem)⟩
        exact List.mem_toFinset.2 (List.mem_append_left _ (List.mem_toFinset.1 hy))
      exact .inr (Nat.lt_of_le_of_lt (ih.resolve_left hclosed) (Finset.card_lt_card hssub))

/-- Below a collection, everything is in its subtree. -/
theorem closed_subtree (t : RagTables) (id : Uuid) : t.Closed (t.subtree id) := by
  rcases closed_or_lt_card t id t.collections.length with hclosed | hcard
  · exact hclosed
  · have hsub : ∀ n, ∀ x ∈ t.withChildren^[n] [id], x = id ∨ x ∈ t.collections.map (·.id) := by
      intro n
      induction n with
      | zero => exact fun x hx => .inl (List.mem_singleton.1 hx)
      | succ n ih =>
        rw [Function.iterate_succ_apply']
        exact withChildren_subset ih
    have hall : (t.subtree id).toFinset = insert id (t.collections.map (·.id)).toFinset := by
      refine Finset.eq_of_subset_of_card_le (fun x hx => ?_) ?_
      · rw [Finset.mem_insert, List.mem_toFinset]
        exact hsub _ x (List.mem_toFinset.1 hx)
      · have hlength := List.toFinset_card_le (t.collections.map (·.id))
        rw [List.length_map] at hlength
        exact (Finset.card_insert_le _ _).trans ((Nat.succ_le_succ hlength).trans hcard)
    intro c hc p _ _
    rw [← List.mem_toFinset, hall, Finset.mem_insert, List.mem_toFinset]
    exact .inr (List.mem_map_of_mem hc)

end RagTables

namespace CollectionTable

variable (t : CollectionTable)

def subtree (id : Uuid) : List Uuid := t.asTables.subtree id

theorem admitted_delete (id : Uuid) :
    Admitted (t.rows.filter fun row => row.id ∉ t.subtree id) where
  keyed := (List.filter_sublist.map _).nodup t.admitted.keyed
  parents row hrow p hp := by
    obtain ⟨hrow, hkept⟩ := List.mem_filter.1 hrow
    obtain ⟨parent, hparent, rfl⟩ := List.mem_map.1 (t.admitted.parents row hrow p hp)
    have hkept : row.id ∉ t.subtree id := of_decide_eq_true hkept
    have hcol : row.toRagLiteCollection ∈ t.asTables.collections := List.mem_map_of_mem hrow
    refine List.mem_map_of_mem (List.mem_filter.2 ⟨hparent, decide_eq_true fun hmem => ?_⟩)
    exact hkept (t.asTables.closed_subtree id _ hcol _ hp hmem)

/-- The rows that are left; the children of a collection go with it, by `ON DELETE CASCADE`. -/
def remove (id : Uuid) : CollectionTable :=
  ⟨t.rows.filter fun row => row.id ∉ t.subtree id, t.admitted_delete id⟩

/-- The rows when a transaction ends, unless they violate a constraint. -/
def commit (rows : List CollectionRow) : Except CollectionError CollectionTable :=
  if hkeyed : (rows.map (·.id)).Nodup then
    if hparents : ∀ row ∈ rows, ∀ p ∈ row.parentId, p ∈ rows.map (·.id) then
      .ok ⟨rows, hkeyed, hparents⟩
    else .error .integrity
  else .error .integrity

section
variable (parseUuid : String → Option Uuid)

def createCollection (drawn : Uuid) (body : Json) : Except CollectionError CollectionTable :=
  match readCreate parseUuid body with
  | none => .error .invalid
  | some body =>
    -- the parent is a collection from before
    if body.parentId.any (· ∉ t.ids) then .error .integrity
    else commit (t.rows ++ [⟨⟨drawn, body.parentId⟩, body.name, body.description⟩])

/-- The view hands every field of the body on, also one the body does not have. -/
def updateCollection (id : Uuid) (body : Json) : Except CollectionError CollectionTable :=
  match readUpdate parseUuid body with
  | none => .error .invalid
  | some body =>
    match t.get id with
    | none => .error .notFound
    | some _ => commit <| t.rows.map fun row =>
      if row.id = id then row.update body.name (some body.description) (some body.parentId)
      else row

def deleteCollection (id : Uuid) : Except CollectionError CollectionTable :=
  match t.get id with
  | none => .error .notFound
  | some _ => .ok (t.remove id)

def handle : CollectionRequest → Except CollectionError CollectionTable
  | .create drawn body => t.createCollection parseUuid drawn body
  | .patch id body => t.updateCollection parseUuid id body
  | .delete id => t.deleteCollection id

/-- A request that is refused leaves the table alone. -/
def serve (request : CollectionRequest) : CollectionTable :=
  (t.handle parseUuid request).toOption.getD t

end

/-! ### Rows -/

section
variable {t} {rows : List CollectionRow} {id other : Uuid} {f : CollectionRow → CollectionRow}

theorem mem_ids {row : CollectionRow} (h : t.get id = some row) : id ∈ t.ids := by
  have hid : row.id = id := by simpa using List.find?_some h
  rw [← hid]
  exact List.mem_map_of_mem (List.mem_of_find?_eq_some h)

theorem get_of_mem {row : CollectionRow} (h : row ∈ t.rows) : t.get row.id = some row := by
  have hkeyed := t.admitted.keyed
  rw [get]
  generalize t.rows = rows at h hkeyed
  induction rows with
  | nil => cases h
  | cons first rows ih =>
    rw [List.map_cons, List.nodup_cons] at hkeyed
    rcases List.mem_cons.1 h with rfl | hmem
    · exact List.find?_cons_of_pos (decide_eq_true rfl)
    · have hne : first.id ≠ row.id := fun heq => hkeyed.1 (heq ▸ List.mem_map_of_mem hmem)
      rw [List.find?_cons_of_neg (by simpa using hne)]
      exact ih hmem hkeyed.2

theorem mem_of_parentOf {p : Uuid} (h : t.parentOf id = some p) : p ∈ t.ids := by
  obtain ⟨row, hrow, hp⟩ := Option.bind_eq_some_iff.1 h
  exact t.admitted.parents row (List.mem_of_find?_eq_some hrow) p hp

theorem commit_of_admitted (h : Admitted rows) : commit rows = .ok ⟨rows, h⟩ :=
  (dif_pos h.keyed).trans (dif_pos h.parents)

theorem rows_of_commit {t' : CollectionTable} (h : commit rows = .ok t') : t'.rows = rows := by
  rw [commit] at h
  split at h
  next =>
    split at h
    next => cases h; rfl
    next => cases h
  next => cases h

theorem ids_replace (hf : ∀ row, (f row).id = row.id) (rows : List CollectionRow) (id : Uuid) :
    (rows.map fun row => if row.id = id then f row else row).map (·.id) = rows.map (·.id) := by
  rw [List.map_map]
  refine List.map_congr_left fun row _ => ?_
  change (if row.id = id then f row else row).id = row.id
  split
  · exact hf row
  · rfl

theorem find_replace (hf : ∀ row, (f row).id = row.id) (rows : List CollectionRow)
    (id other : Uuid) :
    (rows.map fun row => if row.id = id then f row else row).find? (·.id = other) =
      (rows.find? (·.id = other)).map fun row => if row.id = id then f row else row := by
  rw [List.find?_map]
  congr 2
  funext row
  change decide ((if row.id = id then f row else row).id = other) = decide (row.id = other)
  split
  · rw [hf]
  · rfl

end

/-- Collections are deleted as the documents' tables have it. -/
theorem execute_deleteCollection (id : Uuid) :
    (t.asTables.execute (.deleteCollection id)).map (·.collections) =
      some (t.remove id).asTables.collections := by
  change some ((t.rows.map (·.toRagLiteCollection)).filter fun c => c.id ∉ t.subtree id) = _
  rw [List.filter_map]
  rfl

end CollectionTable

end LlmPort.Backend.RagLite
