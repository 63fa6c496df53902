import LlmPort.Backend.NodeControl.UuidText
import LlmPort.Backend.RagLite.Tables
import LlmPort.Files.Path
import LlmPort.Transition.Run

/-!
# Stored files and documents

What uploads, deletions and moves do to the file store and to the documents, each of which may
fail at any point: `services/rag_lite/service.py` and `file_store.py`. The files stand for the
documents exactly as long as no request fails between a file and its row, and no collection that
goes takes documents with it.
-/

namespace LlmPort.Backend.RagLite

open NodeControl Files Transition

/-- `LocalFileStore._resolve`: the path of a key below the root; `none` is a `ValueError`. -/
def resolveKey (key : RagText) : Option (List Name) :=
  if isAbsolute key ∨ dotdot ∈ pathParts key then none else some (pathParts key)

/-- The database and the paths of the files below the root. -/
structure RagFiles where
  db : RagTables
  files : List (List Name)

structure Upload where
  documentId : Uuid
  jobId : Uuid
  collectionId : Option Uuid
  filename : RagText

namespace Upload

variable (u : Upload)

/-- `file.filename or "upload"` -/
def name : RagText := if u.filename = [] then "upload".toList else u.filename

/-- `f"{col_key}/{doc_id}/{filename}"` -/
def fileKey : RagText :=
  (u.collectionId.elim "default".toList fun id => (uuidStr id).toList) ++
    '/' :: ((uuidStr u.documentId).toList ++ '/' :: u.name)

/-- The rows of `submit_file`. -/
def statements : List Statement :=
  [.insertDocument u.documentId
      { collectionId := u.collectionId, filename := u.name, contentText := none, chunkCount := 0
        status := .pending, fileStoreKey := some u.fileKey },
    .insertJob u.jobId { documentId := u.documentId, status := .queued, errorMessage := none }]

end Upload

/-- Where an upload fails by itself. -/
inductive UploadFault where
  /-- Writing the file raises, when the file is there or not yet. -/
  | write (created : Bool)
  /-- A statement, the enqueue or the commit fails. -/
  | transaction

inductive DeleteFault where
  | remove
  | transaction
  deriving DecidableEq

inductive FileEvent where
  | upload (u : Upload) (fault : Option UploadFault)
  | deleteDocument (id : Uuid) (fault : Option DeleteFault)
  | moveDocument (id : Uuid) (collectionId : Option Uuid) (fails : Bool)
  | createCollection (row : RagLiteCollection) (fails : Bool)
  | deleteCollection (id : Uuid) (fails : Bool)

namespace RagFiles

variable (s : RagFiles)

def putBytes (path : List Name) : RagFiles :=
  { s with files := if path ∈ s.files then s.files else s.files ++ [path] }

def deleteFile (path : List Name) : RagFiles := { s with files := s.files.filter (· ≠ path) }

/-- The end of a request's transaction. -/
def transaction (statements : List Statement) (fails : Bool) : RagFiles :=
  if fails then s else { s with db := (s.db.commit statements).getD s.db }

/-- `submit_file` and the end of its request. -/
def upload (u : Upload) (fault : Option UploadFault) : RagFiles :=
  match resolveKey u.fileKey with
  | none => s
  | some path => match fault with
    | some (.write false) => s
    | some (.write true) => s.putBytes path
    | some .transaction => s.putBytes path
    | none => (s.putBytes path).transaction u.statements false

/-- `delete_document` and the end of its request. -/
def deleteDocument (id : Uuid) (fault : Option DeleteFault) : RagFiles :=
  match s.db.documents id with
  | none => s
  | some doc => match doc.fileStoreKey.filter (· ≠ []) with
    | none => s.transaction [.deleteDocument id] (fault = some .transaction)
    | some key => match resolveKey key with
      | none => s
      | some path =>
        if path ∈ s.files then
          if fault = some .remove then s
          else (s.deleteFile path).transaction [.deleteDocument id]
            (fault = some .transaction)
        else s.transaction [.deleteDocument id] (fault = some .transaction)

def step (s : RagFiles) : FileEvent → RagFiles
  | .upload u fault => s.upload u fault
  | .deleteDocument id fault => s.deleteDocument id fault
  | .moveDocument id collectionId fails =>
    if (s.db.documents id).isSome then s.transaction [.moveDocument id collectionId] fails else s
  | .createCollection row fails => s.transaction [.insertCollection row] fails
  | .deleteCollection id fails =>
    if s.db.hasCollection id then s.transaction [.deleteCollection id] fails else s

/-- The files of the store are those of the documents. -/
def Matches (s : RagFiles) : Prop :=
  ∀ path, path ∈ s.files ↔ ∃ id doc key, s.db.documents id = some doc ∧
    doc.fileStoreKey = some key ∧ resolveKey key = some path

/-- No request fails between a file and its row, and no collection takes a document along. -/
def KeepsFiles (s : RagFiles) : FileEvent → Prop
  | .upload u fault => ∀ path, resolveKey u.fileKey = some path → path ∈ s.files ∨
    fault = some (.write false) ∨ fault = none ∧ (s.db.commit u.statements).isSome
  | .deleteDocument id fault => ∀ doc, s.db.documents id = some doc →
    doc.fileStoreKey.filter (· ≠ []) ≠ none → fault ≠ some .transaction
  | .moveDocument _ _ _ | .createCollection _ _ => True
  | .deleteCollection id fails => s.db.hasCollection id → fails = false → ∀ d doc,
    s.db.documents d = some doc → doc.collectionId.any (· ∈ s.db.subtree id) →
      doc.fileStoreKey = none

end RagFiles

/-! ## Keys -/

section
variable {u : Upload} {s : RagFiles} {e : FileEvent} {path : List Name} {key : RagText}
  {id id' : Uuid} {doc : RagLiteDocument}

theorem pathParts_append {part rest : RagText} (h : ProperName part) :
    pathParts (part ++ '/' :: rest) = part :: pathParts rest := by
  have hno : ∀ c, c ∈ part → (c == '/') = false := by
    intro c hc
    exact beq_eq_false_iff_ne.2 fun heq => h.no_slash (heq ▸ hc)
  rw [pathParts, List.splitOn, List.splitOnP_append_cons_of_forall_mem hno '/' (by decide),
    List.filter_cons_of_pos (by simpa using ⟨h.ne_nil, h.ne_dot⟩)]
  rfl

theorem properName_uuidStr (id : Uuid) : ProperName (uuidStr id).toList := by
  have hdash : '-' ∈ (uuidStr id).toList := by
    rw [toList_uuidStr]
    simp
  refine ⟨List.ne_nil_of_mem hdash, ?_, ?_, not_mem_uuidStr (by decide) (by decide) id⟩
  · intro heq
    rw [heq] at hdash
    exact absurd hdash (by decide)
  · intro heq
    rw [heq] at hdash
    exact absurd hdash (by decide)

theorem pathParts_fileKey : ∃ col, pathParts u.fileKey =
    col :: (uuidStr u.documentId).toList :: pathParts u.name := by
  have hcol : ProperName (u.collectionId.elim "default".toList fun id => (uuidStr id).toList) := by
    cases u.collectionId with
    | none => exact ⟨by decide, by decide, by decide, by decide⟩
    | some id => exact properName_uuidStr id
  exact ⟨_, by rw [Upload.fileKey, pathParts_append hcol, pathParts_append (properName_uuidStr _)]⟩

/-- Where a document's file lies. -/
def OwnPath (id : Uuid) (path : List Name) : Prop := path[1]? = some (uuidStr id).toList

theorem OwnPath.unique (h : OwnPath id path) (h' : OwnPath id' path) : id = id' := by
  have heq : (uuidStr id).toList = (uuidStr id').toList := Option.some.inj (h.symm.trans h')
  exact uuidStr_injective (String.toList_inj.1 heq)

theorem ownPath_fileKey (h : resolveKey u.fileKey = some path) : OwnPath u.documentId path := by
  obtain ⟨col, hparts⟩ := pathParts_fileKey (u := u)
  obtain ⟨-, heq⟩ := Option.ite_none_left_eq_some.1 h
  cases heq
  rw [OwnPath, hparts]
  rfl

theorem ne_nil_of_resolveKey (h : resolveKey key = some path) (hown : OwnPath id path) :
    key ≠ [] := by
  rintro rfl
  obtain ⟨-, heq⟩ := Option.ite_none_left_eq_some.1 h
  cases heq
  cases hown

/-- Every file key is of a path of its own. -/
def RagFiles.OwnKeys (s : RagFiles) : Prop :=
  ∀ id doc key, s.db.documents id = some doc → doc.fileStoreKey = some key →
    ∃ path, resolveKey key = some path ∧ OwnPath id path

/-! ## Transactions -/

variable {t t' : RagTables}

theorem commit_upload (h : t.commit u.statements = some t') : ∃ row : RagLiteDocument,
    row.fileStoreKey = some u.fileKey ∧
      t'.documents = Function.update t.documents u.documentId (some row) := by
  obtain ⟨t₁, hdoc, hrest⟩ := Option.bind_eq_some_iff.1 h
  obtain ⟨t₂, hjob, hend⟩ := Option.bind_eq_some_iff.1 hrest
  cases hend
  obtain ⟨-, heq⟩ := Option.ite_none_right_eq_some.1 hdoc
  cases heq
  obtain ⟨-, heq⟩ := Option.ite_none_right_eq_some.1 hjob
  cases heq
  exact ⟨_, rfl, rfl⟩

/-- The keys of the documents of one state are among those of another. -/
def KeysIn (t t' : RagTables) : Prop :=
  ∀ id doc, t'.documents id = some doc → ∃ old, t.documents id = some old ∧
    old.fileStoreKey = doc.fileStoreKey

theorem KeysIn.refl : KeysIn t t := fun _ doc h => ⟨doc, h, rfl⟩

theorem KeysIn.ownKeys {files files' : List (List Name)} (h : KeysIn t t')
    (hown : RagFiles.OwnKeys ⟨t, files⟩) : RagFiles.OwnKeys ⟨t', files'⟩ := by
  intro id doc key hdoc hkey
  obtain ⟨old, hold, heq⟩ := h id doc hdoc
  exact hown id old key hold (heq.trans hkey)

theorem keysIn_removeDocuments {gone : Uuid → Bool} : KeysIn t (t.removeDocuments gone) := by
  intro id doc hdoc
  obtain ⟨-, hdoc⟩ := Option.ite_none_left_eq_some.1 hdoc
  exact ⟨doc, hdoc, rfl⟩

/-- A request that changes no document's key. -/
theorem keys_of_same {files : List (List Name)} (h : KeysIn t t') (h' : KeysIn t' t)
    (hmatch : RagFiles.Matches ⟨t, files⟩) : RagFiles.Matches ⟨t', files⟩ := by
  intro path
  rw [hmatch path]
  constructor
  · rintro ⟨id, doc, key, hdoc, hkey, hpath⟩
    obtain ⟨new, hnew, heq⟩ := h' id doc hdoc
    exact ⟨id, new, key, hnew, heq.trans hkey, hpath⟩
  · rintro ⟨id, doc, key, hdoc, hkey, hpath⟩
    obtain ⟨old, hold, heq⟩ := h id doc hdoc
    exact ⟨id, old, key, hold, heq.trans hkey, hpath⟩

theorem keysIn_move {collectionId : Option Uuid}
    (h : t.execute (.moveDocument id collectionId) = some t') : KeysIn t t' ∧ KeysIn t' t := by
  obtain ⟨-, h⟩ := Option.ite_none_right_eq_some.1 h
  obtain ⟨doc, hdoc, rfl⟩ := Option.map_eq_some_iff.1 h
  constructor
  · intro d new hnew
    by_cases hd : d = id
    · subst hd
      simp only [RagTables.setDocument, Function.update_self, Option.some.injEq] at hnew
      exact ⟨doc, hdoc, by rw [← hnew]⟩
    · simp only [RagTables.setDocument, Function.update_of_ne hd] at hnew
      exact ⟨new, hnew, rfl⟩
  · intro d old hold
    by_cases hd : d = id
    · subst hd
      rw [hdoc] at hold
      cases hold
      exact ⟨{ doc with collectionId }, Function.update_self _ _ _, rfl⟩
    · exact ⟨old, (Function.update_of_ne hd _ _).trans hold, rfl⟩

namespace RagFiles

theorem mem_putBytes {path' : List Name} :
    path' ∈ (s.putBytes path).files ↔ path' ∈ s.files ∨ path' = path := by
  rw [putBytes]
  dsimp only
  split
  next h =>
    constructor
    · exact .inl
    · rintro (hmem | rfl)
      · exact hmem
      · exact h
  next => rw [List.mem_append, List.mem_singleton]

theorem transaction_delete {fails : Bool} : s.transaction [.deleteDocument id] fails =
    if fails then s else { s with db := s.db.removeDocuments (· = id) } := by
  rw [transaction, RagTables.commit_singleton]
  rfl

/-- The files match, and every file has its own path. -/
structure Consistent (s : RagFiles) : Prop where
  files : s.Matches
  own : s.OwnKeys

/-! ## Uploads -/

theorem upload_cases (fault : Option UploadFault) :
    s.upload u fault = s ∧ (resolveKey u.fileKey = none ∨ fault = some (.write false)) ∨
    ∃ path, resolveKey u.fileKey = some path ∧ fault ≠ some (.write false) ∧
      ((∃ t', fault = none ∧ s.db.commit u.statements = some t' ∧
          s.upload u fault = { s.putBytes path with db := t' }) ∨
        ¬ (fault = none ∧ (s.db.commit u.statements).isSome) ∧
          s.upload u fault = s.putBytes path) := by
  unfold upload
  split
  next h => exact .inl ⟨rfl, .inl h⟩
  next path h =>
    split
    next => exact .inl ⟨rfl, .inr rfl⟩
    next => exact .inr ⟨path, h, by simp, .inr ⟨by simp, rfl⟩⟩
    next => exact .inr ⟨path, h, by simp, .inr ⟨by simp, rfl⟩⟩
    next =>
      refine .inr ⟨path, h, by simp, ?_⟩
      cases hcommit : s.db.commit u.statements with
      | none =>
        refine .inr ⟨by simp, ?_⟩
        rw [transaction, if_neg (by simp)]
        change { s.putBytes path with db := (s.db.commit u.statements).getD s.db } = _
        rw [hcommit]
        rfl
      | some t' =>
        refine .inl ⟨t', rfl, rfl, ?_⟩
        rw [transaction, if_neg (by simp)]
        change { s.putBytes path with db := (s.db.commit u.statements).getD s.db } = _
        rw [hcommit]
        rfl

theorem Consistent.upload (H : s.Consistent) {fault : Option UploadFault}
    (hok : s.KeepsFiles (.upload u fault)) : (s.upload u fault).Consistent := by
  obtain ⟨heq, -⟩ | ⟨path, hpath, hfault, ⟨t', -, hcommit, heq⟩ | ⟨hno, heq⟩⟩ :=
    upload_cases (s := s) (u := u) fault
  · rw [heq]
    exact H
  · rw [heq]
    obtain ⟨row, hkey, hdocs⟩ := commit_upload hcommit
    have hfresh : s.db.documents u.documentId = none := by
      obtain ⟨t₁, hdoc, -⟩ := Option.bind_eq_some_iff.1 hcommit
      obtain ⟨hcond, -⟩ := Option.ite_none_right_eq_some.1 hdoc
      exact Option.isNone_iff_eq_none.1 (Bool.and_eq_true_iff.1 hcond).1
    constructor
    · intro path'
      change path' ∈ (s.putBytes path).files ↔ ∃ id doc key, t'.documents id = some doc ∧ _
      rw [mem_putBytes, H.files path', hdocs]
      constructor
      · rintro (⟨id, doc, key, hdoc, hrest⟩ | rfl)
        · have hne : id ≠ u.documentId := by
            rintro rfl
            rw [hfresh] at hdoc
            cases hdoc
          exact ⟨id, doc, key, (Function.update_of_ne hne _ _).trans hdoc, hrest⟩
        · exact ⟨u.documentId, row, _, Function.update_self _ _ _, hkey, hpath⟩
      · rintro ⟨id, doc, key, hdoc, hdocKey, hres⟩
        by_cases hid : id = u.documentId
        · subst hid
          rw [Function.update_self] at hdoc
          cases hdoc
          rw [hkey] at hdocKey
          cases hdocKey
          rw [hpath] at hres
          exact .inr (Option.some.inj hres).symm
        · rw [Function.update_of_ne hid] at hdoc
          exact .inl ⟨id, doc, key, hdoc, hdocKey, hres⟩
    · intro id doc key hdoc hdocKey
      change t'.documents id = some doc at hdoc
      rw [hdocs] at hdoc
      by_cases hid : id = u.documentId
      · subst hid
        rw [Function.update_self] at hdoc
        cases hdoc
        rw [hkey] at hdocKey
        cases hdocKey
        exact ⟨path, hpath, ownPath_fileKey hpath⟩
      · rw [Function.update_of_ne hid] at hdoc
        exact H.own id doc key hdoc hdocKey
  · rw [heq]
    have hmem : path ∈ s.files := by
      obtain h | h | h := hok path hpath
      · exact h
      · exact (hfault h).elim
      · exact (hno h).elim
    have hsame : s.putBytes path = s := by
      rw [putBytes, if_pos hmem]
    rw [hsame]
    exact H

/-- A file without its row is there too many. -/
theorem keepsFiles_of_upload (H : s.Consistent) {fault : Option UploadFault}
    (h : (s.upload u fault).Matches) : s.KeepsFiles (.upload u fault) := by
  intro path hpath
  obtain ⟨-, hnone | hfault⟩ | ⟨path', hpath', -, ⟨t', hfault, hcommit, -⟩ | ⟨-, heq⟩⟩ :=
    upload_cases (s := s) (u := u) fault
  · rw [hpath] at hnone
    cases hnone
  · exact .inr (.inl hfault)
  · exact .inr (.inr ⟨hfault, by rw [hcommit]; rfl⟩)
  · rw [hpath] at hpath'
    cases hpath'
    rw [heq] at h
    exact .inl ((H.files path).2 ((h path).1 (mem_putBytes.2 (.inr rfl))))

/-! ## Deletions -/

theorem deleteDocument_cases (H : s.Consistent) (id : Uuid) (fault : Option DeleteFault) :
    s.deleteDocument id fault = s ∧
        (s.db.documents id = none ∨ fault ≠ some .transaction) ∨
    (∃ doc, s.db.documents id = some doc ∧ doc.fileStoreKey.filter (· ≠ []) = none ∧
      s.deleteDocument id fault =
        s.transaction [.deleteDocument id] (fault = some .transaction)) ∨
    ∃ doc key path, s.db.documents id = some doc ∧ doc.fileStoreKey = some key ∧ key ≠ [] ∧
      resolveKey key = some path ∧ OwnPath id path ∧ s.deleteDocument id fault =
        (s.deleteFile path).transaction [.deleteDocument id] (fault = some .transaction) := by
  unfold deleteDocument
  split
  next h => exact .inl ⟨rfl, .inl h⟩
  next doc hdoc =>
    split
    next hkey => exact .inr (.inl ⟨doc, hdoc, hkey, rfl⟩)
    next key hkey =>
      obtain ⟨hkey, hne⟩ := Option.filter_eq_some_iff.1 hkey
      obtain ⟨path, hpath, hown⟩ := H.own id doc key hdoc hkey
      have hmem : path ∈ s.files := (H.files path).2 ⟨id, doc, key, hdoc, hkey, hpath⟩
      rw [hpath]
      dsimp only
      rw [if_pos hmem]
      split
      next hremove =>
        refine .inl ⟨rfl, .inr ?_⟩
        rw [hremove]
        decide
      next =>
        exact .inr (.inr ⟨doc, key, path, hdoc, hkey, of_decide_eq_true hne, hpath, hown, rfl⟩)

/-- A document goes without a file. -/
theorem Consistent.removeDocuments (H : s.Consistent) (gone : Uuid → Bool)
    (hgone : ∀ id doc, s.db.documents id = some doc → gone id → doc.fileStoreKey.filter (· ≠ []) =
      none) : ({ s with db := s.db.removeDocuments gone } : RagFiles).Consistent := by
  refine ⟨fun path => ?_, keysIn_removeDocuments.ownKeys H.own⟩
  rw [H.files path]
  constructor
  · rintro ⟨id, doc, key, hdoc, hkey, hpath⟩
    obtain ⟨path', hpath', hown⟩ := H.own id doc key hdoc hkey
    have hne := ne_nil_of_resolveKey hpath' hown
    have hstays : ¬ gone id := by
      intro hg
      have hnone := hgone id doc hdoc hg
      rw [hkey, Option.filter_some, if_pos (decide_eq_true hne)] at hnone
      cases hnone
    exact ⟨id, doc, key, (if_neg hstays).trans hdoc, hkey, hpath⟩
  · rintro ⟨id, doc, key, hdoc, hkey, hpath⟩
    obtain ⟨-, hdoc⟩ := Option.ite_none_left_eq_some.1 hdoc
    exact ⟨id, doc, key, hdoc, hkey, hpath⟩

/-- A document goes with its file. -/
theorem Consistent.deleted (H : s.Consistent) (hdoc : s.db.documents id = some doc)
    (hkey : doc.fileStoreKey = some key) (hpath : resolveKey key = some path)
    (hown : OwnPath id path) :
    ({ s.deleteFile path with db := s.db.removeDocuments (· = id) } : RagFiles).Consistent := by
  refine ⟨fun path' => ?_, keysIn_removeDocuments.ownKeys H.own⟩
  change path' ∈ s.files.filter (· ≠ path) ↔ _
  rw [List.mem_filter, H.files path']
  constructor
  · rintro ⟨⟨id', doc', key', hdoc', hkey', hpath'⟩, hne⟩
    have hid : id' ≠ id := by
      rintro rfl
      rw [hdoc] at hdoc'
      cases hdoc'
      rw [hkey] at hkey'
      cases hkey'
      rw [hpath] at hpath'
      exact of_decide_eq_true hne (Option.some.inj hpath').symm
    exact ⟨id', doc', key', (if_neg (by simpa using hid)).trans hdoc', hkey', hpath'⟩
  · rintro ⟨id', doc', key', hdoc', hkey', hpath'⟩
    obtain ⟨hid, hold⟩ := Option.ite_none_left_eq_some.1 hdoc'
    refine ⟨⟨id', doc', key', hold, hkey', hpath'⟩, decide_eq_true ?_⟩
    rintro rfl
    obtain ⟨own, hown', hpath''⟩ := H.own id' doc' key' hold hkey'
    rw [hpath'] at hown'
    cases hown'
    exact hid (by simpa using hpath''.unique hown)

theorem Consistent.deleteDocument (H : s.Consistent) {fault : Option DeleteFault}
    (hok : s.KeepsFiles (.deleteDocument id fault)) : (s.deleteDocument id fault).Consistent := by
  obtain ⟨heq, -⟩ | ⟨doc, hdoc, hkey, heq⟩ | ⟨doc, key, path, hdoc, hkey, hne, hpath, hown, heq⟩ :=
    deleteDocument_cases H id fault
  · rw [heq]
    exact H
  · rw [heq, transaction_delete]
    split
    next => exact H
    next =>
      apply H.removeDocuments (· = id)
      intro id' doc' hdoc' hid
      have hid : id' = id := by simpa using hid
      rw [hid, hdoc] at hdoc'
      cases hdoc'
      exact hkey
  · rw [heq, transaction_delete]
    split
    next hfault =>
      have hsome : doc.fileStoreKey.filter (· ≠ []) ≠ none := by
        rw [hkey, Option.filter_some, if_pos (decide_eq_true hne)]
        exact Option.some_ne_none key
      exact (hok doc hdoc hsome (of_decide_eq_true hfault)).elim
    next => exact H.deleted hdoc hkey hpath hown

/-- A file that goes before its row fails to. -/
theorem keepsFiles_of_deleteDocument (H : s.Consistent) {fault : Option DeleteFault}
    (h : (s.deleteDocument id fault).Matches) : s.KeepsFiles (.deleteDocument id fault) := by
  intro doc hdoc hsome hfault
  obtain ⟨-, hnone | hno⟩ | ⟨doc', hdoc', hkey, -⟩ |
      ⟨doc', key, path, hdoc', hkey, -, hpath, hown, heq⟩ :=
    deleteDocument_cases H id fault
  · rw [hdoc] at hnone
    cases hnone
  · exact hno hfault
  · rw [hdoc] at hdoc'
    cases hdoc'
    exact hsome hkey
  · rw [heq, transaction_delete, if_pos (decide_eq_true hfault)] at h
    have hmem := (h path).2 ⟨id, doc', key, hdoc', hkey, hpath⟩
    exact of_decide_eq_true (List.mem_filter.1 hmem).2 rfl

theorem Consistent.deleteCollection (H : s.Consistent) {fails : Bool}
    (hok : s.KeepsFiles (.deleteCollection id fails)) :
    (s.step (.deleteCollection id fails)).Consistent := by
  rw [step]
  split
  next hcol =>
    rw [transaction, RagTables.commit_singleton]
    split
    next => exact H
    next hfails =>
      have hgone := hok hcol (by simpa using hfails)
      have hrest := H.removeDocuments (fun d => (s.db.documents d).any fun doc =>
          doc.collectionId.any (· ∈ s.db.subtree id)) ?_
      · exact ⟨hrest.files, hrest.own⟩
      · intro d doc hdoc hd
        rw [hdoc] at hd
        rw [hgone d doc hdoc hd]
        rfl
  next => exact H

/-- A document that goes with its collection leaves its file behind. -/
theorem keepsFiles_of_deleteCollection (H : s.Consistent) {fails : Bool}
    (h : (s.step (.deleteCollection id fails)).Matches) :
    s.KeepsFiles (.deleteCollection id fails) := by
  intro hcol hfails d doc hdoc hd
  rw [step, if_pos hcol, transaction, hfails, if_neg (by simp), RagTables.commit_singleton] at h
  cases hkey : doc.fileStoreKey with
  | none => rfl
  | some key =>
    obtain ⟨path, hpath, hown⟩ := H.own d doc key hdoc hkey
    have hmem : path ∈ s.files := (H.files path).2 ⟨d, doc, key, hdoc, hkey, hpath⟩
    obtain ⟨d', doc', key', hdoc', hkey', hpath'⟩ := (h path).1 hmem
    obtain ⟨hstays, hdoc'⟩ := Option.ite_none_left_eq_some.1 hdoc'
    obtain ⟨own, hown', hpath''⟩ := H.own d' doc' key' hdoc' hkey'
    rw [hpath'] at hown'
    cases hown'
    obtain rfl := hpath''.unique hown
    refine (hstays ?_).elim
    change (s.db.documents d').any _ = true
    rw [hdoc]
    exact hd

/-! ## Runs -/

theorem Consistent.step (H : s.Consistent) (hok : s.KeepsFiles e) : (s.step e).Consistent := by
  cases e with
  | upload u fault => exact H.upload hok
  | deleteDocument id fault => exact H.deleteDocument hok
  | moveDocument id collectionId fails =>
    rw [RagFiles.step, transaction, RagTables.commit_singleton]
    split
    next =>
      split
      next => exact H
      next =>
        cases hmove : s.db.execute (.moveDocument id collectionId) with
        | none => exact H
        | some t' =>
          obtain ⟨hin, hin'⟩ := keysIn_move hmove
          exact ⟨keys_of_same hin hin' H.files, hin.ownKeys H.own⟩
    next => exact H
  | createCollection row fails =>
    rw [RagFiles.step, transaction, RagTables.commit_singleton]
    split
    next => exact H
    next =>
      cases hinsert : s.db.execute (.insertCollection row) with
      | none => exact H
      | some t' =>
        obtain ⟨-, heq⟩ := Option.ite_none_right_eq_some.1 hinsert
        cases heq
        exact ⟨H.files, H.own⟩
  | deleteCollection id fails => exact H.deleteCollection hok

theorem keepsFiles_of_matches (H : s.Consistent) (h : (s.step e).Matches) : s.KeepsFiles e := by
  cases e with
  | upload u fault => exact keepsFiles_of_upload H h
  | deleteDocument id fault => exact keepsFiles_of_deleteDocument H h
  | moveDocument => trivial
  | createCollection => trivial
  | deleteCollection id fails => exact keepsFiles_of_deleteCollection H h

/-- Collections without documents and files. -/
def start (collections : List RagLiteCollection) : RagFiles :=
  ⟨⟨collections, fun _ => none, [], fun _ => none⟩, []⟩

theorem consistent_start (collections : List RagLiteCollection) :
    (start collections).Consistent where
  files path := by simp [start]
  own id doc key h := by cases h

/-- The files are those of the documents all along exactly where no request fails between a file
and its row, and no collection goes with a document in it. -/
theorem files_match_iff (collections : List RagLiteCollection) (es : List FileEvent) :
    Always RagFiles.step Matches (start collections) es ↔
      Guarded RagFiles.step KeepsFiles (start collections) es :=
  always_iff_guarded_of_invariant (fun _ H => H.files) (fun _ _ H => H.step)
    (fun _ _ H => keepsFiles_of_matches H) (consistent_start collections)

/-- A report, uploaded to the collection 1. -/
def report : Upload := ⟨5, 6, some 1, "report.txt".toList⟩

/-- The file of a document that went with its collection is still there. -/
theorem not_files_match_deletedCollection : ¬ Always RagFiles.step Matches (start [⟨1, none⟩])
    [.upload report none, .deleteCollection 1 false] := by
  intro h
  have hcommits : ((start [⟨1, none⟩]).db.commit report.statements).isSome := rfl
  have huploaded : ((start [⟨1, none⟩]).step (.upload report none)).Consistent :=
    (consistent_start _).step fun _ _ => .inr (.inr ⟨rfl, hcommits⟩)
  have hkept : (RagFiles.step _ _).KeepsFiles (.deleteCollection 1 false) :=
    keepsFiles_of_deleteCollection huploaded (h _ (List.prefix_refl _))
  have hnone := hkept rfl rfl 5 _ rfl rfl
  cases hnone

end RagFiles

end

end LlmPort.Backend.RagLite
