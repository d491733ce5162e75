/-
# How events come into a catalog

A catalog starts without events.  It is changed by inserting an event, by loading files, by loading
its source, and by loading on demand, and each of these can fail.  All of them put events into the
table in one way only, so that what an insertion keeps holds of the table of every catalog.

* `Catalog.Made` are the catalogs that can be made, by any sequence of these operations;
* `Catalog.Made.events_induction`: what an empty table satisfies and every insertion keeps;
* `Catalog.Made.entriesKeyed` and `Catalog.Made.nodup_keys`: every event stands under its own key,
  and no key stands there twice.
-/
import HardwareCounters.Proofs.Catalog.Loading

namespace HardwareCounters

namespace EventTable

/-! ## 1. Tables -/

/-- The keys of the events of a table. -/
def keys (table : EventTable) : List Text := table.map Prod.fst

/-- Each event stands under its own key. -/
def Keyed (table : EventTable) : Prop :=
  ∀ key event, table.find? key = some event → event.key = key

/-- In each entry stands the key of its event. -/
def EntriesKeyed (table : EventTable) : Prop := ∀ entry ∈ table, entry.1 = entry.2.key

theorem EntriesKeyed.insert {table : EventTable} (h : table.EntriesKeyed) (event : CatalogEvent) :
    (table.insert event).EntriesKeyed := by
  intro entry hentry
  rcases List.mem_cons.mp hentry with rfl | hkept
  · rfl
  · exact h entry (List.mem_filter.mp hkept).1

theorem EntriesKeyed.keyed {table : EventTable} (h : table.EntriesKeyed) : table.Keyed := by
  intro key event hfind
  exact (h (key, event) (Association.mem_of_get? hfind)).symm

theorem nodup_keys_insert {table : EventTable} (h : table.keys.Nodup) (event : CatalogEvent) :
    (table.insert event).keys.Nodup := Association.keys_nodup_put h event.key event

/-- What inserting an event keeps, inserting records keeps. -/
theorem insertRecords_induction {P : EventTable → Prop}
    (hinsert : ∀ {table}, P table → ∀ event, P (table.insert event)) {table reached : EventTable}
    {records : List Record} (hreached : table.insertRecords records = .ok reached) (h : P table) :
    P reached := by
  induction records generalizing table with
  | nil =>
    rw [insertRecords] at hreached
    cases hreached
    exact h
  | cons record records ih =>
    rw [insertRecords] at hreached
    split at hreached
    · cases hreached
    · exact ih hreached h
    · rename_i event _
      exact ih hreached (hinsert h event)

end EventTable

namespace Catalog

/-! ## 2. Loads -/

/-- The events of a catalog after some operation are those that it had, or those of records. -/
def KeepsOrReads (catalog after : Catalog) : Prop :=
  after.events = catalog.events ∨
    ∃ records, EventTable.insertRecords [] records = .ok after.events

theorem keepsOrReads_loadFiles (catalog : Catalog) (files : FileTree) (paths : List Text) :
    catalog.KeepsOrReads (catalog.loadFiles files paths).2 := by
  rw [loadFiles]
  split
  · exact Or.inl rfl
  · rename_i events hevents
    exact Or.inr ⟨_, EventTable.insertFiles_eq hevents⟩

theorem keepsOrReads_loadSource (catalog : Catalog) (files : FileTree) :
    catalog.KeepsOrReads (catalog.loadSource files).2 := by
  rw [loadSource]
  split
  · exact Or.inl rfl
  · split
    · exact Or.inl rfl
    · exact keepsOrReads_loadFiles catalog files _

theorem events_load (catalog : Catalog) (files : FileTree) :
    (catalog.load files).2.events = (catalog.loadSource files).2.events := by
  rw [load]
  split <;> rename_i heq <;> rw [heq]

theorem keepsOrReads_load (catalog : Catalog) (files : FileTree) :
    catalog.KeepsOrReads (catalog.load files).2 := by
  rw [KeepsOrReads, events_load]
  exact keepsOrReads_loadSource catalog files

/-- Loading on demand loads the catalog or leaves it as it is. -/
theorem ensureLoaded_eq_or (catalog : Catalog) (files : FileTree) :
    (catalog.ensureLoaded files).2 = (catalog.load files).2 ∨
      (catalog.ensureLoaded files).2 = catalog := by
  rw [ensureLoaded]
  split
  · left
    split <;> rename_i heq <;> rw [heq]
  · exact Or.inr rfl

theorem keepsOrReads_ensureLoaded (catalog : Catalog) (files : FileTree) :
    catalog.KeepsOrReads (catalog.ensureLoaded files).2 := by
  rcases catalog.ensureLoaded_eq_or files with h | h
  · rw [h]
    exact keepsOrReads_load catalog files
  · rw [h]
    exact Or.inl rfl

/-! ## 3. Catalogs -/

/-- The catalogs that can be made: a catalog starts without events, with or without a source, and
events come into it by insertions and loads alone. -/
inductive Made : Catalog → Prop
  | empty : Made {}
  | ofSource (source : CatalogSource) : Made (.ofSource source)
  | insert {catalog : Catalog} (made : Made catalog) (event : CatalogEvent) :
      Made (catalog.insert event)
  | loadFiles {catalog : Catalog} (made : Made catalog) (files : FileTree) (paths : List Text) :
      Made (catalog.loadFiles files paths).2
  | load {catalog : Catalog} (made : Made catalog) (files : FileTree) : Made (catalog.load files).2
  | ensureLoaded {catalog : Catalog} (made : Made catalog) (files : FileTree) :
      Made (catalog.ensureLoaded files).2

/-- **Invariants of catalogs.**  What a table without events satisfies and every insertion keeps
holds of every catalog that can be made, also after loads that failed. -/
theorem Made.events_induction {P : EventTable → Prop} (hnil : P [])
    (hinsert : ∀ {table}, P table → ∀ event, P (table.insert event)) {catalog : Catalog}
    (h : catalog.Made) : P catalog.events := by
  have hkeeps : ∀ {catalog after : Catalog}, P catalog.events → catalog.KeepsOrReads after →
      P after.events := by
    rintro catalog after hcatalog (heq | ⟨records, hrecords⟩)
    · rwa [heq]
    · exact EventTable.insertRecords_induction hinsert hrecords hnil
  induction h with
  | empty => exact hnil
  | ofSource source => exact hnil
  | insert _ event ih => exact hinsert ih event
  | loadFiles _ files paths ih => exact hkeeps ih (keepsOrReads_loadFiles _ files paths)
  | load _ files ih => exact hkeeps ih (keepsOrReads_load _ files)
  | ensureLoaded _ files ih => exact hkeeps ih (keepsOrReads_ensureLoaded _ files)

variable {catalog : Catalog}

/-- **Events stand under their keys** in every catalog that can be made. -/
theorem Made.entriesKeyed (h : catalog.Made) : catalog.events.EntriesKeyed :=
  h.events_induction (fun _ hentry => nomatch hentry) EventTable.EntriesKeyed.insert

theorem Made.keyed (h : catalog.Made) : catalog.events.Keyed := h.entriesKeyed.keyed

/-- No key stands twice in a catalog that can be made. -/
theorem Made.nodup_keys (h : catalog.Made) : catalog.events.keys.Nodup :=
  h.events_induction (P := fun table => table.keys.Nodup) List.nodup_nil
    EventTable.nodup_keys_insert

end Catalog

end HardwareCounters
