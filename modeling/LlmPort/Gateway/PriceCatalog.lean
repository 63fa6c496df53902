import Mathlib.Data.List.MinMax
import Mathlib.Data.Rat.Defs
import Mathlib.Logic.Function.Basic
import LlmPort.Transition.Run
import LlmPort.Transition.Watermark

/-!
# The price catalog and its cache

The backend's administrators change the table `price_catalog`, each in a transaction of its own that
stamps its rows when it writes them and is seen when it commits. The gateway has the active rows in
memory and reads them again when the newest stamp of the table is newer than what it has read.
-/

namespace LlmPort.Gateway

open Transition

abbrev PriceId := BitVec 128

/-- `str.lower` and `str.strip` -/
structure TextCase where
  lower : String → String
  strip : String → String
  lower_lower : ∀ s, lower (lower s) = lower s

/-- A row; stamps are microseconds. -/
structure PriceCatalogRow where
  id : PriceId
  provider : String
  model : String
  inputPricePer1k : Rat
  outputPricePer1k : Rat
  currency : String
  effectiveFrom : Int
  active : Bool
  updatedAt : Int
  deriving DecidableEq

/-- A cached active price row. -/
structure PriceCatalogEntry where
  id : PriceId
  provider : String
  model : String
  inputPricePer1k : Rat
  outputPricePer1k : Rat
  currency : String
  deriving DecidableEq

def PriceCatalogRow.entry (row : PriceCatalogRow) : PriceCatalogEntry :=
  ⟨row.id, row.provider, row.model, row.inputPricePer1k, row.outputPricePer1k, row.currency⟩

def activeRows (rows : List PriceCatalogRow) : List PriceCatalogRow := rows.filter (·.active)

/-- What the table admits: a primary key, and one active row for a provider and model
(`ix_price_catalog_active`). -/
def Admitted (rows : List PriceCatalogRow) : Prop :=
  (rows.map (·.id)).Nodup ∧ ((activeRows rows).map fun row => (row.provider, row.model)).Nodup

instance (rows : List PriceCatalogRow) : Decidable (Admitted rows) :=
  inferInstanceAs (Decidable (_ ∧ _))

/-- The table; its names are in lower case, as they are seeded and as `create` writes them. -/
structure PriceCatalog (text : TextCase) where
  rows : List PriceCatalogRow
  admitted : Admitted rows
  lowercase : ∀ row ∈ rows, text.lower row.provider = row.provider ∧
    text.lower row.model = row.model

/-! ## The administrators -/

inductive PriceChange where
  | create (provider model : String) (inputPricePer1k outputPricePer1k : Rat) (currency : String)
  | update (entryId : PriceId) (inputPricePer1k outputPricePer1k : Rat) (currency : Option String)
  | deactivate (entryId : PriceId)

/-- A transaction, with the time it read for its stamps and the id it drew. -/
structure PriceTransaction where
  change : PriceChange
  now : Int
  newId : PriceId

namespace PriceTransaction

variable (text : TextCase) (tx : PriceTransaction)

/-- The update of one row that the two changes share. -/
def deactivated (row : PriceCatalogRow) : PriceCatalogRow :=
  { row with active := false, updatedAt := tx.now }

/-- The table as the transaction leaves it. A row keeps its names and its currency, so that it does
not matter when they were read. -/
def rowsAfter (rows : List PriceCatalogRow) : List PriceCatalogRow :=
  match tx.change with
  | .create provider model inputPrice outputPrice currency =>
    rows ++ [⟨tx.newId, text.lower (text.strip provider), text.lower (text.strip model), inputPrice,
      outputPrice, currency, tx.now, true, tx.now⟩]
  | .update entryId inputPrice outputPrice currency =>
    match rows.find? (·.id = entryId) with
    | none => rows
    | some old =>
      rows.map (fun row => if row.id = entryId then tx.deactivated row else row) ++
        [⟨tx.newId, old.provider, old.model, inputPrice, outputPrice,
          (currency.filter (· ≠ "")).getD old.currency, tx.now, true, tx.now⟩]
  | .deactivate entryId =>
    rows.map fun row => if row.id = entryId ∧ row.active then tx.deactivated row else row

/-- Whether the change gets as far as writing: an update first looks for the active row. -/
def begins (rows : List PriceCatalogRow) : Bool :=
  match tx.change with
  | .update entryId _ _ _ => rows.any fun row => row.id = entryId && row.active
  | _ => true

end PriceTransaction

theorem lowercase_rowsAfter {text : TextCase} (tx : PriceTransaction) {rows : List PriceCatalogRow}
    (h : ∀ row ∈ rows, text.lower row.provider = row.provider ∧ text.lower row.model = row.model) :
    ∀ row ∈ tx.rowsAfter text rows, text.lower row.provider = row.provider ∧
      text.lower row.model = row.model := by
  unfold PriceTransaction.rowsAfter
  split
  next =>
    intro row hrow
    rcases List.mem_append.1 hrow with hrow | hrow
    · exact h row hrow
    · rw [List.mem_singleton.1 hrow]
      exact ⟨text.lower_lower _, text.lower_lower _⟩
  next entryId _ _ _ _ =>
    split
    next => exact h
    next old hold =>
      intro row hrow
      rcases List.mem_append.1 hrow with hrow | hrow
      · obtain ⟨r, hr, rfl⟩ := List.mem_map.1 hrow
        split
        next => exact h r hr
        next => exact h r hr
      · rw [List.mem_singleton.1 hrow]
        exact h old (List.mem_of_find?_eq_some hold)
  next entryId _ =>
    intro row hrow
    obtain ⟨r, hr, rfl⟩ := List.mem_map.1 hrow
    split
    next => exact h r hr
    next => exact h r hr

/-- `commit`: the transaction is undone where the table does not admit what it wrote. -/
def PriceCatalog.apply {text : TextCase} (catalog : PriceCatalog text) (tx : PriceTransaction) :
    PriceCatalog text :=
  if h : Admitted (tx.rowsAfter text catalog.rows) then
    ⟨tx.rowsAfter text catalog.rows, h, lowercase_rowsAfter tx catalog.lowercase⟩
  else catalog

/-! ## The gateway -/

structure PricingService where
  /-- `_cache`, a dict. -/
  cache : String × String → Option PriceCatalogEntry
  lastUpdatedAt : Option Int

namespace PricingService

variable (text : TextCase)

def key (row : PriceCatalogRow) : String × String := (text.lower row.provider, text.lower row.model)

/-- `load_cache`, of the active rows in the order in which they come -/
def loadCache (rows : List PriceCatalogRow) : PricingService where
  cache := rows.foldl (fun newCache row => Function.update newCache (key text row) (some row.entry))
    fun _ => none
  lastUpdatedAt := newest (·.updatedAt) rows

/-- `check_invalidation`. Where a change is seen between its two queries, the second one tells. -/
def checkInvalidation (service : PricingService) (catalog : List PriceCatalogRow)
    (rows : List PriceCatalogRow) : PricingService :=
  if Behind service.lastUpdatedAt (newest (·.updatedAt) catalog) then loadCache text rows
  else service

def resolve (service : PricingService) (provider model : String) : Option PriceCatalogEntry :=
  service.cache (text.lower provider, text.lower model)

end PricingService

local instance stampOrder : Preorder Int := Int.instLinearOrder.toPreorder

/-- The latest-effective active row of a provider and model. -/
def latestEffective (text : TextCase) (rows : List PriceCatalogRow) (provider model : String) :
    Option PriceCatalogEntry :=
  (((activeRows rows).filter fun row =>
    PricingService.key text row = (text.lower provider, text.lower model)).argmax
      (·.effectiveFrom)).map (·.entry)

/-! ## The table and the cache -/

/-- The system, with what the table was when the gateway last checked it, and whether that is all
that has happened to it since. -/
structure PriceSys (text : TextCase) where
  committed : PriceCatalog text
  pending : List PriceTransaction
  service : PricingService
  seen : PriceCatalog text
  checked : Bool

inductive PriceEvent where
  | begin (tx : PriceTransaction)
  | commit (k : Nat)
  | rollback (k : Nat)
  /-- The gateway checks, and gets the active rows in this order. -/
  | check (rows : List PriceCatalogRow)

namespace PriceSys

variable {text : TextCase}

/-- The gateway starts with the table as it is. -/
def start (catalog : PriceCatalog text) : PriceSys text where
  committed := catalog
  pending := []
  service := .loadCache text (activeRows catalog.rows)
  seen := catalog
  checked := true

def step (s : PriceSys text) : PriceEvent → PriceSys text
  | .begin tx =>
    if tx.begins s.committed.rows then { s with pending := s.pending ++ [tx] } else s
  | .commit k =>
    match s.pending[k]? with
    | none => s
    | some tx =>
      { s with committed := s.committed.apply tx, pending := s.pending.eraseIdx k, checked := false }
  | .rollback k => { s with pending := s.pending.eraseIdx k }
  | .check rows =>
    if rows.Perm (activeRows s.committed.rows) then
      { s with
        service := s.service.checkInvalidation text s.committed.rows rows
        seen := s.committed
        checked := true }
    else s

/-- A lookup gives what it would give on the table. -/
def Coherent (s : PriceSys text) : Prop :=
  ∀ provider model, s.service.resolve text provider model =
    latestEffective text s.committed.rows provider model

/-- A check that is in time: what lookups give has not changed since the last one, or some row is
stamped later than all that were active then. -/
def InTime (s : PriceSys text) : PriceEvent → Prop
  | .check rows => rows.Perm (activeRows s.committed.rows) →
    (∀ provider model, latestEffective text s.committed.rows provider model =
      latestEffective text s.seen.rows provider model) ∨
    ∃ row ∈ s.committed.rows, ∀ r ∈ activeRows s.seen.rows, r.updatedAt < row.updatedAt
  | _ => True

end PriceSys

end LlmPort.Gateway
