/-
# Listings of a catalog

Events are listed by name, and keys with their descriptors by key.  The events of a catalog come in
no particular order, and sorting by name alone would show that order wherever two names agree.  No
two names do: events stand under their keys, no key stands twice, and the key is made of the name
alone.

* `Catalog.Made.nodup_names`: the names of the events in a catalog that can be made;
* `EventTable.listed_filterEvents` and `EventTable.listed_walk`: what the two listings of such a
  table are, and `EventTable.filterEvents_eq_of_perm` and `EventTable.walk_eq_of_perm` that they do
  not depend on its order;
* `Catalog.Made.listings` says all this of catalogs.
-/
import HardwareCounters.Proofs.Catalog.Made
import HardwareCounters.Proofs.Text.Order

namespace HardwareCounters

namespace EventTable

variable {table other : EventTable}

/-! ## 1. Names and keys -/

/-- The events of a table. -/
def stored (table : EventTable) : List CatalogEvent := table.map Prod.snd

/-- The entry of an event in the listing of the keys. -/
def walkEntry (event : CatalogEvent) : Text × Text :=
  (event.key, pmuEvent event.pmu event.encoded)

theorem EntriesKeyed.map_key (h : table.EntriesKeyed) :
    table.stored.map CatalogEvent.key = table.keys := by
  rw [stored, keys, List.map_map]
  exact List.map_congr_left fun entry hentry => (h entry hentry).symm

theorem EntriesKeyed.map_walkEntry (h : table.EntriesKeyed) :
    table.stored.map walkEntry = table.map fun entry => (entry.1, entry.2.descriptor) := by
  rw [stored, List.map_map]
  refine List.map_congr_left fun entry hentry => ?_
  rw [h entry hentry]
  rfl

/-- Events with different keys have different names. -/
theorem EntriesKeyed.nodup_names (h : table.EntriesKeyed) (hkeys : table.keys.Nodup) :
    (table.stored.map CatalogEvent.name).Nodup := by
  rw [← h.map_key, List.Nodup, List.pairwise_map] at hkeys
  refine List.pairwise_map.mpr (hkeys.imp fun hne hname => hne ?_)
  rw [CatalogEvent.key, hname, CatalogEvent.key]

/-! ## 2. The listings -/

theorem pairLe_iff {a b : Text × Text} :
    pairLe a b = true ↔ a.1.Before b.1 ∨ a.1 = b.1 ∧ Text.le a.2 b.2 = true := by
  rw [pairLe, Text.Before]
  split
  · rename_i heq
    simp [heq]
  · rename_i hne
    simp [hne]

/-- The order of pairs looks at their first texts first. -/
theorem ordersBy_pairLe : Text.OrdersBy Prod.fst pairLe where
  trans a b c hab hbc := by
    rw [pairLe_iff] at *
    rcases hab with hab | ⟨hab, hle⟩
    · left
      rcases hbc with hbc | ⟨hbc, -⟩
      · exact hab.trans hbc
      · rwa [← hbc]
    · rw [hab]
      exact hbc.imp_right fun ⟨hbc, hle'⟩ => ⟨hbc, Text.le_trans hle hle'⟩
  total a b := by
    rw [Bool.or_eq_true, pairLe_iff, pairLe_iff]
    rcases Text.before_trichotomy a.1 b.1 with h | h | h
    · exact Or.inl (Or.inl h)
    · exact (Text.le_total a.2 b.2).imp (fun hle => Or.inr ⟨h, hle⟩) fun hle => Or.inr ⟨h.symm, hle⟩
    · exact Or.inr (Or.inl h)
  key_le {a b} h := by
    rcases pairLe_iff.mp h with h | ⟨h, -⟩
    · exact h.1
    · rw [h]
      exact Text.le_refl b.1

/-- The events that satisfy `p`, each once and in the order of their names. -/
theorem listed_filterEvents (hnames : (table.stored.map CatalogEvent.name).Nodup)
    (p : CatalogEvent → Bool) :
    Text.Listed CatalogEvent.name (table.stored.filter p) (table.filterEvents p) :=
  (Text.ordersBy_key CatalogEvent.name).listed
    (hnames.sublist ((List.filter_sublist).map CatalogEvent.name))

/-- Every key with the descriptor of its event, in the order of the keys. -/
theorem listed_walk (hentries : table.EntriesKeyed) (hkeys : table.keys.Nodup) :
    Text.Listed Prod.fst (table.stored.map walkEntry) table.walk := by
  rw [hentries.map_walkEntry]
  refine ordersBy_pairLe.listed ?_
  rw [List.map_map]
  exact hkeys

theorem filterEvents_eq_of_perm (hnames : (table.stored.map CatalogEvent.name).Nodup)
    (hperm : other.Perm table) (p : CatalogEvent → Bool) :
    other.filterEvents p = table.filterEvents p := by
  have hstored : other.stored.Perm table.stored := hperm.map Prod.snd
  have hnames' := (hstored.map CatalogEvent.name).nodup_iff.mpr hnames
  exact (listed_filterEvents hnames p).unique (listed_filterEvents hnames' p) (hstored.filter p)

theorem walk_eq_of_perm (hentries : table.EntriesKeyed) (hkeys : table.keys.Nodup)
    (hperm : other.Perm table) : other.walk = table.walk := by
  have hentries' : other.EntriesKeyed := fun entry hentry =>
    hentries entry (hperm.mem_iff.mp hentry)
  have hkeys' : other.keys.Nodup := (hperm.map Prod.fst).nodup_iff.mpr hkeys
  exact (listed_walk hentries hkeys).unique (listed_walk hentries' hkeys')
    ((hperm.map Prod.snd).map walkEntry)

end EventTable

namespace Catalog

variable {catalog : Catalog}

/-! ## 3. Catalogs -/

/-- The events of a catalog, in the order of its table. -/
def stored (catalog : Catalog) : List CatalogEvent := EventTable.stored catalog.events

/-- No two events in a catalog that can be made have the same name. -/
theorem Made.nodup_names (h : catalog.Made) : (catalog.stored.map CatalogEvent.name).Nodup :=
  h.entriesKeyed.nodup_names h.nodup_keys

/-- **What a catalog lists.**  In every catalog that can be made, whatever was inserted into it and
loaded and whichever loads failed, each event stands under the lower case of its own name, and no two
have the same name.  So the events that satisfy `p` are listed once each and strictly by name, the
keys with their descriptors once each and strictly by key, and the lists would be the same with the
events in any other order. -/
theorem Made.listings (h : catalog.Made) :
    ((∀ entry ∈ catalog.events, entry.1 = Text.lowercase entry.2.name) ∧
      (catalog.stored.map CatalogEvent.name).Nodup) ∧
    (∀ p, Text.Listed CatalogEvent.name (catalog.stored.filter p) (catalog.filterEvents p)) ∧
    (Text.Listed Prod.fst
        (catalog.stored.map fun event =>
          (Text.lowercase event.name, pmuEvent event.pmu event.encoded)) catalog.walk ∧
      catalog.walk.length = catalog.size) ∧
    ∀ table : EventTable, table.Perm catalog.events →
      (∀ p, table.filterEvents p = catalog.filterEvents p) ∧ table.walk = catalog.walk := by
  have hwalk := EventTable.listed_walk h.entriesKeyed h.nodup_keys
  have hsize : catalog.walk.length = catalog.size := by
    rw [walk, hwalk.perm.length_eq, List.length_map, EventTable.stored, List.length_map, size]
  refine ⟨⟨h.entriesKeyed, h.nodup_names⟩, EventTable.listed_filterEvents h.nodup_names,
    ⟨hwalk, hsize⟩, fun table hperm => ⟨fun p => ?_, ?_⟩⟩
  · exact EventTable.filterEvents_eq_of_perm h.nodup_names hperm p
  · exact EventTable.walk_eq_of_perm h.entriesKeyed h.nodup_keys hperm

end Catalog

namespace Example

/-- A catalog in which an event has replaced another one, whose name differs in case. -/
def recasedCatalog : Catalog :=
  ((({} : Catalog).insert { name := "LLC.MISS".toList, pmu := "cpu".toList }).insert
    { name := "inst.any".toList, encoded := "event=0xc0".toList, pmu := "cpu".toList }).insert
    { name := "llc.Miss".toList, encoded := "event=0x2e".toList, pmu := "cbox".toList }

/-- The same catalog after a load that failed, since there are no files. -/
def failedCatalog : Catalog := (recasedCatalog.load {}).2

end Example

open Example in
theorem Catalog.Made.listings_failedCatalog :
    failedCatalog.Made ∧ failedCatalog.loadFailed = true ∧
    failedCatalog.walk = [("inst.any".toList, "cpu/event=0xc0/".toList),
      ("llc.miss".toList, "cbox/event=0x2e/".toList)] := by
  have hmade : failedCatalog.Made := (((Catalog.Made.empty.insert _).insert _).insert _).load _
  obtain ⟨-, -, ⟨hwalk, -⟩, -⟩ := Catalog.Made.listings hmade
  refine ⟨hmade, rfl, Text.Listed.unique ⟨.refl _, ?_⟩ hwalk ?_⟩
  · decide +kernel
  · decide +kernel

end HardwareCounters
