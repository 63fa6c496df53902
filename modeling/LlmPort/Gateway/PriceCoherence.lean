import Mathlib.Data.List.Nodup
import LlmPort.Gateway.PriceCatalog

/-!
# When the price cache is coherent

Lookups after a check give what the table says exactly in the runs whose checks are all in time. A
transaction that commits after one with a later stamp has been read is not seen.
-/

namespace LlmPort.Gateway

open Transition

variable {text : TextCase} {rows : List PriceCatalogRow} {row : PriceCatalogRow}

theorem mem_activeRows : row ∈ activeRows rows ↔ row ∈ rows ∧ row.active = true := List.mem_filter

/-! ## What a dict of rows says -/

namespace PricingService

theorem cache_loadCache_concat (rows : List PriceCatalogRow) (row : PriceCatalogRow) :
    (loadCache text (rows ++ [row])).cache =
      Function.update (loadCache text rows).cache (key text row) (some row.entry) := by
  simp only [loadCache, List.foldl_append, List.foldl_cons, List.foldl_nil]

theorem cache_of_not_mem {k : String × String} (h : ∀ row ∈ rows, key text row ≠ k) :
    (loadCache text rows).cache k = none := by
  induction rows using List.reverseRecOn with
  | nil => rfl
  | append_singleton rows row ih =>
    have hne : k ≠ key text row := (h row (by simp)).symm
    rw [cache_loadCache_concat, Function.update_of_ne hne]
    exact ih fun r hr => h r (List.mem_append_left _ hr)

theorem cache_of_mem (hkeys : (rows.map (key text)).Nodup) (hrow : row ∈ rows) :
    (loadCache text rows).cache (key text row) = some row.entry := by
  induction rows using List.reverseRecOn with
  | nil => cases hrow
  | append_singleton rows last ih =>
    rw [List.map_append, List.nodup_append] at hkeys
    rw [cache_loadCache_concat]
    rcases List.mem_append.1 hrow with hrow | hrow
    · have hne : key text row ≠ key text last :=
        hkeys.2.2 _ (List.mem_map_of_mem hrow) _ (by simp)
      rw [Function.update_of_ne hne]
      exact ih hkeys.1 hrow
    · rw [List.mem_singleton.1 hrow, Function.update_self]

end PricingService

namespace PriceCatalog

open PricingService

variable {catalog : PriceCatalog text}

theorem key_eq (hrow : row ∈ catalog.rows) : key text row = (row.provider, row.model) := by
  rw [key, (catalog.lowercase row hrow).1, (catalog.lowercase row hrow).2]

theorem nodup_keys (catalog : PriceCatalog text) :
    ((activeRows catalog.rows).map (key text)).Nodup := by
  have hkeys : (activeRows catalog.rows).map (key text) =
      (activeRows catalog.rows).map fun row => (row.provider, row.model) :=
    List.map_congr_left fun row hrow => key_eq (mem_activeRows.1 hrow).1
  rw [hkeys]
  exact catalog.admitted.2

/-- The active row of a provider and model is the latest-effective one, being the only one. -/
theorem latestEffective_of_mem {provider model : String} (hrow : row ∈ activeRows catalog.rows)
    (hkey : key text row = (text.lower provider, text.lower model)) :
    latestEffective text catalog.rows provider model = some row.entry := by
  have honly : ∀ r ∈ (activeRows catalog.rows).filter fun row =>
      key text row = (text.lower provider, text.lower model), r = row := by
    intro r hr
    obtain ⟨hr, hk⟩ := List.mem_filter.1 hr
    exact List.inj_on_of_nodup_map catalog.nodup_keys hr hrow
      ((of_decide_eq_true hk).trans hkey.symm)
  have hmem : row ∈ (activeRows catalog.rows).filter fun row =>
      key text row = (text.lower provider, text.lower model) :=
    List.mem_filter.2 ⟨hrow, decide_eq_true hkey⟩
  rw [latestEffective]
  cases hmax : ((activeRows catalog.rows).filter fun row =>
      key text row = (text.lower provider, text.lower model)).argmax (·.effectiveFrom) with
  | none =>
    rw [List.argmax_eq_none] at hmax
    rw [hmax] at hmem
    cases hmem
  | some r => rw [honly r (List.argmax_mem hmax), Option.map_some]

theorem latestEffective_of_not_mem {provider model : String}
    (h : ∀ row ∈ activeRows catalog.rows, key text row ≠ (text.lower provider, text.lower model)) :
    latestEffective text catalog.rows provider model = none := by
  have hnil : ((activeRows catalog.rows).filter fun row =>
      key text row = (text.lower provider, text.lower model)) = [] :=
    List.filter_eq_nil_iff.2 fun row hrow => by simpa using h row hrow
  rw [latestEffective, hnil]
  rfl

/-- A dict of the active rows, in any order, gives what the table says. -/
theorem resolve_loadCache (hperm : rows.Perm (activeRows catalog.rows)) (provider model : String) :
    (loadCache text rows).resolve text provider model =
      latestEffective text catalog.rows provider model := by
  rw [resolve]
  by_cases h : ∃ row ∈ activeRows catalog.rows,
      key text row = (text.lower provider, text.lower model)
  · obtain ⟨row, hrow, hkey⟩ := h
    have hkeys : (rows.map (key text)).Nodup := (hperm.map _).nodup_iff.2 catalog.nodup_keys
    rw [latestEffective_of_mem hrow hkey, ← hkey, cache_of_mem hkeys (hperm.mem_iff.2 hrow)]
  · push Not at h
    rw [latestEffective_of_not_mem h, cache_of_not_mem fun row hrow => h row (hperm.mem_iff.1 hrow)]

end PriceCatalog

/-! ## What a transaction does to the active rows -/

namespace PriceTransaction

variable {tx : PriceTransaction}

theorem map_id_deactivated (p : PriceCatalogRow → Prop) [DecidablePred p] :
    (rows.map fun row => if p row then tx.deactivated row else row).map (·.id) =
      rows.map (·.id) := by
  rw [List.map_map]
  refine List.map_congr_left fun row _ => ?_
  rw [Function.comp_apply]
  split
  next => rfl
  next => rfl

/-- Rows are never deleted. -/
theorem ids_rowsAfter (text : TextCase) (tx : PriceTransaction) (rows : List PriceCatalogRow) :
    tx.rowsAfter text rows = rows ∨ (tx.rowsAfter text rows).map (·.id) = rows.map (·.id) ∨
      (tx.rowsAfter text rows).map (·.id) = rows.map (·.id) ++ [tx.newId] := by
  unfold rowsAfter
  split
  next => exact .inr (.inr (List.map_append ..))
  next =>
    split
    next => exact .inl rfl
    next => exact .inr (.inr (by rw [List.map_append, map_id_deactivated]; rfl))
  next => exact .inr (.inl (map_id_deactivated _))

/-- A row that is active afterwards was there as it is, or is new. -/
theorem active_rowsAfter (hrow : row ∈ tx.rowsAfter text rows) (hactive : row.active = true) :
    row ∈ rows ∨ row.id = tx.newId ∧
      (tx.rowsAfter text rows).map (·.id) = rows.map (·.id) ++ [tx.newId] := by
  have hkept {p : PriceCatalogRow → Prop} [DecidablePred p]
      (hrow : row ∈ rows.map fun row => if p row then tx.deactivated row else row) :
      row ∈ rows := by
    obtain ⟨r, hr, heq⟩ := List.mem_map.1 hrow
    split at heq
    next =>
      rw [← heq] at hactive
      cases hactive
    next => rwa [← heq]
  unfold rowsAfter at hrow ⊢
  split at hrow
  next =>
    rcases List.mem_append.1 hrow with hrow | hrow
    · exact .inl hrow
    · rw [List.mem_singleton.1 hrow]
      exact .inr ⟨rfl, List.map_append ..⟩
  next =>
    split at hrow
    next => exact .inl hrow
    next =>
      rcases List.mem_append.1 hrow with hrow | hrow
      · exact .inl (hkept hrow)
      · rw [List.mem_singleton.1 hrow]
        exact .inr ⟨rfl, by rw [List.map_append, map_id_deactivated]; rfl⟩
  next => exact .inl (hkept hrow)

end PriceTransaction

/-- A later table: each row is still there, and one that is active is as it was, or new. -/
structure PriceCatalog.Evolves (seen catalog : PriceCatalog text) : Prop where
  ids : ∀ row ∈ seen.rows, row.id ∈ catalog.rows.map (·.id)
  active : ∀ row ∈ activeRows catalog.rows,
    row ∈ seen.rows ∨ row.id ∉ seen.rows.map (·.id)

namespace PriceCatalog

variable {seen catalog : PriceCatalog text} {tx : PriceTransaction}

theorem Evolves.refl (catalog : PriceCatalog text) : catalog.Evolves catalog where
  ids _ hrow := List.mem_map_of_mem hrow
  active _ hrow := .inl (mem_activeRows.1 hrow).1

theorem Evolves.apply (h : seen.Evolves catalog) (tx : PriceTransaction) :
    seen.Evolves (catalog.apply tx) := by
  rw [PriceCatalog.apply]
  split
  next hadmitted =>
    refine ⟨fun row hrow => ?_, fun row hrow => ?_⟩
    · have hid := h.ids row hrow
      rcases tx.ids_rowsAfter text catalog.rows with heq | heq | heq
      · dsimp only
        rwa [heq]
      · dsimp only
        rwa [heq]
      · dsimp only
        rw [heq]
        exact List.mem_append_left _ hid
    · obtain ⟨hrow, hactive⟩ := mem_activeRows.1 hrow
      rcases PriceTransaction.active_rowsAfter hrow hactive with hold | ⟨hid, hids⟩
      · exact h.active row (mem_activeRows.2 ⟨hold, hactive⟩)
      · refine .inr fun hmem => ?_
        obtain ⟨r, hr, hrid⟩ := List.mem_map.1 hmem
        have hnodup := hadmitted.1
        rw [hids, List.nodup_append] at hnodup
        exact hnodup.2.2 _ (h.ids r hr) _ (List.mem_singleton.2 rfl) (hrid.trans hid)
  next => exact h

theorem exists_of_latestEffective {provider model : String} {entry : PriceCatalogEntry}
    (h : latestEffective text catalog.rows provider model = some entry) :
    ∃ row ∈ activeRows catalog.rows, row.entry = entry := by
  obtain ⟨row, hmax, hentry⟩ := Option.map_eq_some_iff.1 h
  exact ⟨row, (List.mem_filter.1 (List.argmax_mem hmax)).1, hentry⟩

/-- Where lookups have not changed, the same rows are active. -/
theorem Evolves.activeRows_iff (h : seen.Evolves catalog)
    (hsame : ∀ provider model, latestEffective text catalog.rows provider model =
      latestEffective text seen.rows provider model) :
    row ∈ activeRows catalog.rows ↔ row ∈ activeRows seen.rows := by
  constructor
  · intro hrow
    have hlookup : latestEffective text seen.rows row.provider row.model = some row.entry :=
      (hsame _ _).symm.trans (latestEffective_of_mem hrow rfl)
    obtain ⟨r, hr, hentry⟩ := exists_of_latestEffective hlookup
    have hid : r.id = row.id := congrArg PriceCatalogEntry.id hentry
    rcases h.active row hrow with hold | hnew
    · exact mem_activeRows.2 ⟨hold, (mem_activeRows.1 hrow).2⟩
    · exact absurd (List.mem_map.2 ⟨r, (mem_activeRows.1 hr).1, hid⟩) hnew
  · intro hrow
    have hlookup : latestEffective text catalog.rows row.provider row.model = some row.entry :=
      (hsame _ _).trans (latestEffective_of_mem hrow rfl)
    obtain ⟨r, hr, hentry⟩ := exists_of_latestEffective hlookup
    have hid : r.id = row.id := congrArg PriceCatalogEntry.id hentry
    have hseen := (mem_activeRows.1 hrow).1
    rcases h.active r hr with hold | hnew
    · rwa [← List.inj_on_of_nodup_map seen.admitted.1 hold hseen hid]
    · exact absurd (List.mem_map.2 ⟨row, hseen, hid.symm⟩) hnew

end PriceCatalog

/-! ## Runs -/

namespace PriceSys

open PricingService

/-- The gateway has what the table said when it last checked. -/
structure Inv (s : PriceSys text) : Prop where
  cache : ∀ provider model, s.service.resolve text provider model =
    latestEffective text s.seen.rows provider model
  mark : ∀ t, (∀ m ∈ s.service.lastUpdatedAt, m < t) ↔
    ∀ row ∈ activeRows s.seen.rows, row.updatedAt < t
  evolves : s.seen.Evolves s.committed
  checked : s.checked = true → s.committed = s.seen

theorem inv_start (catalog : PriceCatalog text) : (start catalog).Inv where
  cache := PriceCatalog.resolve_loadCache (.refl _)
  mark _ := newest_lt_iff
  evolves := .refl catalog
  checked _ := rfl

theorem inv_step (s : PriceSys text) (e : PriceEvent) (h : s.Inv) (hok : s.InTime e) :
    (s.step e).Inv := by
  cases e with
  | begin tx =>
    rw [step]
    split
    next => exact ⟨h.cache, h.mark, h.evolves, h.checked⟩
    next => exact h
  | commit k =>
    rw [step]
    cases s.pending[k]? with
    | none => exact h
    | some tx => exact ⟨h.cache, h.mark, h.evolves.apply tx, nofun⟩
  | rollback k => exact ⟨h.cache, h.mark, h.evolves, h.checked⟩
  | check rows =>
    rw [step]
    split
    next hperm =>
      rw [checkInvalidation]
      split
      next =>
        refine ⟨PriceCatalog.resolve_loadCache hperm, fun t => ?_, .refl _, fun _ => rfl⟩
        exact newest_lt_iff.trans (forall_congr' fun row => imp_congr_left hperm.mem_iff)
      next hbehind =>
        have hsame := (hok hperm).resolve_right fun hnewer => hbehind ((behind_iff h.mark).2 hnewer)
        refine ⟨fun provider model => ?_, fun t => ?_, .refl _, fun _ => rfl⟩
        · exact (h.cache provider model).trans (hsame provider model).symm
        · refine (h.mark t).trans (forall_congr' fun row => imp_congr_left ?_)
          exact (h.evolves.activeRows_iff hsame).symm
    next => exact h

/-- Lookups after a check are coherent. -/
def CoherentWhenChecked (s : PriceSys text) : Prop := s.checked = true → s.Coherent

theorem Inv.coherent {s : PriceSys text} (h : s.Inv) : s.CoherentWhenChecked := by
  intro hchecked provider model
  rw [h.checked hchecked]
  exact h.cache provider model

/-- A check that is too late leaves the cache as it is. -/
theorem inTime_of_coherent (s : PriceSys text) (e : PriceEvent) (h : s.Inv)
    (hafter : (s.step e).CoherentWhenChecked) : s.InTime e := by
  cases e with
  | begin tx => trivial
  | commit k => trivial
  | rollback k => trivial
  | check rows =>
    intro hperm
    have hlookup := hafter
    rw [step, if_pos hperm, checkInvalidation] at hlookup
    split at hlookup
    next hbehind => exact .inr ((behind_iff h.mark).1 hbehind)
    next =>
      refine .inl fun provider model => ?_
      exact (hlookup rfl provider model).symm.trans (h.cache provider model)

/-- In every run of changes and checks, each lookup that follows a check gives what the table says,
exactly if each check is in time. -/
theorem always_coherent_iff (catalog : PriceCatalog text) (events : List PriceEvent) :
    Always step CoherentWhenChecked (start catalog) events ↔
      Guarded step InTime (start catalog) events :=
  always_iff_guarded_of_invariant (fun _ h => h.coherent) inv_step inTime_of_coherent
    (inv_start catalog)

/-! ## A commit that comes late -/

/-- Of names in lower case. -/
def plainText : TextCase := ⟨id, id, fun _ => rfl⟩

def noPrices : PriceCatalog plainText := ⟨[], by decide, by simp⟩

/-- Two administrators create prices; the second one commits, is read, and then the first commits. -/
def lateCommit : List PriceEvent :=
  let first : PriceCatalogRow := ⟨1, "openai", "gpt-4.1", 2, 8, "USD", 100, true, 100⟩
  let second : PriceCatalogRow := ⟨2, "openai", "o4-mini", 1, 4, "USD", 200, true, 200⟩
  [.begin ⟨.create "openai" "gpt-4.1" 2 8 "USD", 100, 1⟩,
    .begin ⟨.create "openai" "o4-mini" 1 4 "USD", 200, 2⟩, .commit 1, .check [second], .commit 0,
    .check [second, first]]

/-- The gateway does not see the first. -/
theorem not_always_coherent_lateCommit :
    ¬ Always step CoherentWhenChecked (start noPrices) lateCommit := by
  intro H
  have hlookup := H lateCommit List.prefix_rfl rfl "openai" "gpt-4.1"
  have hcached : ((run step (start noPrices) lateCommit).service.resolve plainText "openai"
      "gpt-4.1").isSome = false := by decide +kernel
  have hstored : (latestEffective plainText (run step (start noPrices) lateCommit).committed.rows
      "openai" "gpt-4.1").isSome = true := by decide +kernel
  rw [hlookup, hstored] at hcached
  cases hcached

end PriceSys

end LlmPort.Gateway
