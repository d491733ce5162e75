/-
# A load replaces a catalog or leaves it as it was

Loading goes through files and, for each file, through records, and can fail in three ways on the
way: a file cannot be read, it holds no list of records, or a record with a name has a malformed
number.  What the catalog held before makes no difference to what is found afterwards, and a load
that fails shows only in its error.

* `Record.Sound` and `SoundFile` say which records and files can be loaded; `FileFault` says what is
  wrong with a file that cannot be.
* `insertFiles_outcome`: the loop over files goes through if all are sound, and else stops at the
  first that is not.
* `Catalog.Replaced` says what a catalog holds after a load, and
  `Catalog.loadFiles_replaces_or_keeps` puts these together.
-/
import HardwareCounters.Proofs.Catalog.Made
import Mathlib.Data.Finset.Card

namespace HardwareCounters

/-! ## 1. What can be loaded -/

namespace Record

/-- The fields of a record that hold a code, as the first of several alternatives. -/
def codeFields : List String := ["EventCode", "ExtSel"]

/-- The codes of a record with a name can be read, where they are there.  Nothing is asked of a
record without a name. -/
def Sound (record : Record) : Prop :=
  record.field? "EventName" ≠ none → ∀ field ∈ codeFields, ∀ t, record.field? field = some t →
    ∃ value, Numeral.readWord (Text.upTo ',' t) = .ok value

end Record

/-- The file can be read, holds records, and all of them are sound. -/
def SoundFile (files : FileTree) (path : Text) : Prop :=
  ∃ text records, files.read path = .ok text ∧ Record.readAll? text = some records ∧
    ∀ record ∈ records, record.Sound

/-- What is wrong with a file that cannot be loaded.  Of several malformed records the first one
counts. -/
inductive FileFault (files : FileTree) (path : Text) : LoadFault → Prop
  | unreadable {e : IoError} (h : files.read path = .error e) : FileFault files path (.unreadable e)
  | notRecords {text : Text} (hread : files.read path = .ok text)
      (h : Record.readAll? text = none) : FileFault files path .notRecords
  | badRecord {text : Text} (hread : files.read path = .ok text) {before after : List Record}
      {record : Record} (hrecords : Record.readAll? text = some (before ++ record :: after))
      (hbefore : ∀ other ∈ before, other.Sound) {e : NumberError}
      (h : CatalogEvent.ofRecord? record = .error e) : FileFault files path (.badRecord e)

namespace CatalogEvent

variable {record : Record}

theorem exists_code_iff {field : String} :
    (∃ value, code record field = .ok value) ↔
      ∀ t, record.field? field = some t →
        ∃ value, Numeral.readWord (Text.upTo ',' t) = .ok value := by
  rw [code]
  cases record.field? field with
  | none => simp
  | some t => simp

theorem exists_eventCode_iff :
    (∃ value, eventCode record = .ok value) ↔
      ∀ field ∈ Record.codeFields, ∃ value, code record field = .ok value := by
  rw [eventCode, Record.codeFields, List.forall_mem_cons, List.forall_mem_singleton]
  cases code record "EventCode" with
  | error e => simp [bind, Except.bind]
  | ok event =>
    cases code record "ExtSel" with
    | error e => simp [bind, Except.bind]
    | ok selector => simp [bind, Except.bind, pure, Except.pure]

/-- **Sound records are those that can be read.** -/
theorem exists_ofRecord?_iff : (∃ event?, ofRecord? record = .ok event?) ↔ record.Sound := by
  rw [ofRecord?, Record.Sound]
  cases record.field? "EventName" with
  | none => simp
  | some name =>
    have hmap : (∃ event? : Option CatalogEvent,
        (eventCode record).map (fun code =>
          some { name
                 encoded := encoding record code
                 summary := summaryOf record
                 description := (record.field? "PublicDescription").getD []
                 pmu := pmuOf record : CatalogEvent }) = .ok event?) ↔
        ∃ value, eventCode record = .ok value := by
      cases eventCode record <;> simp [Except.map]
    rw [hmap, exists_eventCode_iff]
    simp only [exists_code_iff, ne_eq, reduceCtorEq, not_false_eq_true, forall_const]

end CatalogEvent

/-- A file with a fault is not sound. -/
theorem FileFault.not_soundFile {files : FileTree} {path : Text} {fault : LoadFault}
    (h : FileFault files path fault) : ¬ SoundFile files path := by
  rintro ⟨text, records, hread, hrecords, hall⟩
  cases h with
  | unreadable h =>
    rw [hread] at h
    cases h
  | notRecords hread' h =>
    rw [hread] at hread'
    cases hread'
    rw [hrecords] at h
    cases h
  | @badRecord _ hread' _ _ record hrecords' _ _ h =>
    rw [hread] at hread'
    cases hread'
    rw [hrecords] at hrecords'
    cases hrecords'
    obtain ⟨event?, hok⟩ := CatalogEvent.exists_ofRecord?_iff.mpr (hall record (by simp))
    rw [h] at hok
    cases hok

/-! ## 2. What the loops can do -/

namespace EventTable

/-- **The inner loop.**  The records go through if all are sound, and else up to the first that is
not. -/
theorem insertRecords_outcome (table : EventTable) (records : List Record) :
    (∃ reached, table.insertRecords records = .ok reached ∧ ∀ record ∈ records, record.Sound) ∨
    ∃ before record after e, records = before ++ record :: after ∧
      (∀ other ∈ before, other.Sound) ∧ CatalogEvent.ofRecord? record = .error e ∧
      table.insertRecords records = .error e := by
  induction records generalizing table with
  | nil => exact Or.inl ⟨table, rfl, fun _ h => nomatch h⟩
  | cons record records ih =>
    cases hrecord : CatalogEvent.ofRecord? record with
    | error e =>
      exact Or.inr ⟨[], record, records, e, rfl, fun _ h => (nomatch h), hrecord, by
        rw [insertRecords, hrecord]⟩
    | ok event? =>
      have hsound := CatalogEvent.exists_ofRecord?_iff.mp ⟨event?, hrecord⟩
      -- Whether or not the record has a name, the others go on from some table.
      obtain ⟨next, heq⟩ : ∃ next : EventTable,
          table.insertRecords (record :: records) = next.insertRecords records := by
        cases event? with
        | none => exact ⟨table, by rw [insertRecords, hrecord]⟩
        | some event => exact ⟨table.insert event, by rw [insertRecords, hrecord]⟩
      rw [heq]
      rcases ih next with ⟨reached, hreached, hall⟩ | ⟨before, bad, after, e, rfl, hall, hbad, he⟩
      · exact Or.inl ⟨reached, hreached, List.forall_mem_cons.mpr ⟨hsound, hall⟩⟩
      · exact Or.inr ⟨record :: before, bad, after, e, rfl,
          List.forall_mem_cons.mpr ⟨hsound, hall⟩, hbad, he⟩

theorem readRecords_eq_ok_iff {files : FileTree} {path : Text} {records : List Record} :
    readRecords files path = .ok records ↔
      ∃ text, files.read path = .ok text ∧ Record.readAll? text = some records := by
  rw [readRecords]
  cases files.read path with
  | error e => simp
  | ok text => cases hread : Record.readAll? text <;> simp [hread]

/-- **One file.**  If it is sound the others go on from some table, and else it is named. -/
theorem insertFiles_cons_outcome (files : FileTree) (table : EventTable) (path : Text)
    (paths : List Text) :
    (SoundFile files path ∧ ∃ next : EventTable,
      table.insertFiles files (path :: paths) = next.insertFiles files paths) ∨
    ∃ fault, FileFault files path fault ∧
      table.insertFiles files (path :: paths) = .error (.catalogLoad path fault) := by
  cases hread : files.read path with
  | error e =>
    refine Or.inr ⟨_, .unreadable hread, ?_⟩
    rw [insertFiles, readRecords, hread]
  | ok text =>
    cases hrecords : Record.readAll? text with
    | none =>
      refine Or.inr ⟨_, .notRecords hread hrecords, ?_⟩
      rw [insertFiles, readRecords, hread]
      simp only [hrecords]
    | some records =>
      have hfile : readRecords files path = .ok records :=
        readRecords_eq_ok_iff.mpr ⟨text, hread, hrecords⟩
      rcases table.insertRecords_outcome records with
        ⟨next, hnext, hall⟩ | ⟨before, record, after, e, rfl, hall, hbad, he⟩
      · refine Or.inl ⟨⟨text, records, hread, hrecords, hall⟩, next, ?_⟩
        rw [insertFiles, hfile]
        simp only [hnext]
      · refine Or.inr ⟨_, .badRecord hread hrecords hall hbad, ?_⟩
        rw [insertFiles, hfile]
        simp only [he]

/-- **The outer loop.**  The files go through if all are sound, and else up to the first that is
not, which the error names. -/
theorem insertFiles_outcome (files : FileTree) (table : EventTable) (paths : List Text) :
    (∃ reached, table.insertFiles files paths = .ok reached ∧
      ∀ path ∈ paths, SoundFile files path) ∨
    ∃ before path after fault, paths = before ++ path :: after ∧
      (∀ earlier ∈ before, SoundFile files earlier) ∧ FileFault files path fault ∧
      table.insertFiles files paths = .error (.catalogLoad path fault) := by
  induction paths generalizing table with
  | nil => exact Or.inl ⟨table, rfl, fun _ h => nomatch h⟩
  | cons path paths ih =>
    rcases table.insertFiles_cons_outcome files path paths with
      ⟨hsound, next, heq⟩ | ⟨fault, hfault, he⟩
    · rw [heq]
      rcases ih next with
        ⟨reached, hreached, hall⟩ | ⟨before, other, after, fault, rfl, hall, hfault, he⟩
      · exact Or.inl ⟨reached, hreached, List.forall_mem_cons.mpr ⟨hsound, hall⟩⟩
      · exact Or.inr ⟨path :: before, other, after, fault, rfl,
          List.forall_mem_cons.mpr ⟨hsound, hall⟩, hfault, he⟩
    · exact Or.inr ⟨[], path, paths, fault, rfl, fun _ h => (nomatch h), hfault, he⟩

/-! ## 3. The keys of a table -/

theorem mem_keys_insert {table : EventTable} {event : CatalogEvent} {key : Text} :
    key ∈ (table.insert event).keys ↔ key = event.key ∨ key ∈ table.keys := by
  rw [keys, insert, Association.put, List.map_cons, List.mem_cons, keys]
  by_cases h : key = event.key
  · simp [h]
  · simp only [h, false_or, List.mem_map, List.mem_filter]
    constructor
    · rintro ⟨entry, ⟨hentry, -⟩, rfl⟩
      exact ⟨entry, hentry, rfl⟩
    · rintro ⟨entry, hentry, rfl⟩
      exact ⟨entry, ⟨hentry, by simpa using h⟩, rfl⟩

/-- The keys of a table with the events of records are those that it had and those of the
records. -/
theorem mem_keys_insertRecords {table reached : EventTable} {records : List Record}
    (h : table.insertRecords records = .ok reached) {key : Text} :
    key ∈ reached.keys ↔ key ∈ table.keys ∨ key ∈ records.filterMap Record.key? := by
  induction records generalizing table with
  | nil =>
    rw [insertRecords] at h
    cases h
    simp
  | cons record records ih =>
    rw [insertRecords] at h
    split at h
    · cases h
    · rename_i hnone
      rw [ih h, List.filterMap_cons_none (CatalogEvent.key?_eq_of_ofRecord? hnone)]
    · rename_i event hevent
      rw [ih h, mem_keys_insert, List.filterMap_cons_some (CatalogEvent.key?_eq_of_ofRecord? hevent),
        List.mem_cons]
      exact or_assoc.trans or_left_comm

/-- A table made of records has one event for each key. -/
theorem length_insertRecords {reached : EventTable} {records : List Record}
    (h : EventTable.insertRecords [] records = .ok reached) :
    reached.length = (records.filterMap Record.key?).toFinset.card := by
  have hnodup : reached.keys.Nodup :=
    insertRecords_induction (P := fun table => table.keys.Nodup) nodup_keys_insert h List.nodup_nil
  have hset : reached.keys.toFinset = (records.filterMap Record.key?).toFinset := by
    ext key
    rw [List.mem_toFinset, List.mem_toFinset, mem_keys_insertRecords h]
    simp [keys]
  rw [← hset, List.toFinset_card_of_nodup hnodup, keys, List.length_map]

end EventTable

/-! ## 4. Catalogs -/

namespace Catalog

/-- What a catalog holds after a load: under every name the event of the last record of that name,
and nothing else. -/
structure Replaced (catalog loaded : Catalog) (records : List Record) (n : Nat) : Prop where
  /-- The last record of a name can be read, and its event is found. -/
  found : ∀ name before record after, records = before ++ record :: after →
    record.key? = some (Text.lowercase name) →
    (∀ other ∈ after, other.key? ≠ some (Text.lowercase name)) →
    ∃ event, CatalogEvent.ofRecord? record = .ok (some event) ∧ loaded.find? name = some event
  /-- Under a name without records nothing is found. -/
  missing : ∀ name, (∀ record ∈ records, record.key? ≠ some (Text.lowercase name)) →
    loaded.find? name = none
  /-- The number of events is that of the names, without regard to case. -/
  count : n = (records.filterMap Record.key?).toFinset.card
  size_eq : loaded.size = n
  /-- Nothing but the events is replaced. -/
  rest : loaded.source? = catalog.source? ∧ loaded.loadFailed = catalog.loadFailed

theorem replaced_of_insertFiles (catalog : Catalog) {files : FileTree} {paths : List Text}
    {events : EventTable} (h : EventTable.insertFiles files [] paths = .ok events) :
    Replaced catalog { catalog with events } (EventTable.recordsOf files paths) events.length := by
  have hinsert := EventTable.insertFiles_eq h
  refine ⟨?_, ?_, EventTable.length_insertRecords hinsert, rfl, rfl, rfl⟩
  · rintro name before record after hrecords hkey hlast
    rw [hrecords] at hinsert
    exact EventTable.find?_insertRecords hinsert hkey hlast
  · intro name hother
    exact EventTable.find?_insertRecords_of_ne hinsert hother

/-- **A load replaces a catalog or leaves it as it was.**  It succeeds if and only if every file can
be read, holds records, and the codes of those with a name can be read.  If it succeeds, the last
record of each name is found under that name in any case, whatever the catalog held before, and the
names are counted.  If it fails, the error names the first file that cannot be loaded and says what
is wrong with it, and the catalog is what it was. -/
theorem loadFiles_replaces_or_keeps (catalog : Catalog) (files : FileTree) (paths : List Text) :
    ((∃ n, (catalog.loadFiles files paths).1 = .ok n) ↔ ∀ path ∈ paths, SoundFile files path) ∧
    (∀ n loaded, catalog.loadFiles files paths = (.ok n, loaded) →
      Replaced catalog loaded (EventTable.recordsOf files paths) n) ∧
    ∀ e after, catalog.loadFiles files paths = (.error e, after) → after = catalog ∧
      ∃ before path rest fault, paths = before ++ path :: rest ∧
        (∀ earlier ∈ before, SoundFile files earlier) ∧ ¬ SoundFile files path ∧
        FileFault files path fault ∧ e = .catalogLoad path fault := by
  rcases EventTable.insertFiles_outcome files [] paths with
    ⟨events, hinsert, hsound⟩ | ⟨before, path, rest, fault, rfl, hbefore, hfault, hinsert⟩
  · have hload : catalog.loadFiles files paths = (.ok events.length, { catalog with events }) := by
      rw [loadFiles, hinsert]
    rw [hload]
    refine ⟨⟨fun _ => hsound, fun _ => ⟨_, rfl⟩⟩, ?_, ?_⟩
    · rintro n loaded h
      cases h
      exact replaced_of_insertFiles catalog hinsert
    · rintro e after h
      cases h
  · have hload : catalog.loadFiles files (before ++ path :: rest) =
        (.error (.catalogLoad path fault), catalog) := by
      rw [loadFiles, hinsert]
    have hbad := hfault.not_soundFile
    rw [hload]
    refine ⟨⟨?_, fun hall => absurd (hall path (by simp)) hbad⟩, ?_, ?_⟩
    · rintro ⟨n, h⟩
      cases h
    · rintro n loaded h
      cases h
    · rintro e after h
      cases h
      exact ⟨rfl, before, path, rest, fault, rfl, hbefore, hbad, hfault, rfl⟩

end Catalog

namespace Example

/-- Two catalog files.  In the first a name stands twice, and a record without a name has a code
that is no number; in the second a record with a name has one. -/
def twoFiles : FileTree :=
  (({} : FileTree).write "/core.json".toList (.text
    ("[\x7b\"EventName\":\"a.b\"\x7d,\x7b\"EventCode\":\"?\"\x7d," ++
      "\x7b\"EventName\":\" A.B\",\"EventCode\":\"2,?\"\x7d]").toList)).write
    "/uncore.json".toList (.text "[\x7b\"EventName\":\"c\",\"ExtSel\":\"?\"\x7d]".toList)

/-- A catalog with an event of another name. -/
def otherCatalog : Catalog := ({} : Catalog).insert { name := "d".toList }

end Example

set_option maxRecDepth 8000 in
open Example in
theorem Catalog.loadFiles_replaces_or_keeps_twoFiles :
    (∃ loaded, otherCatalog.loadFiles twoFiles ["/core.json".toList] = (.ok 1, loaded) ∧
      otherCatalog.Replaced loaded (EventTable.recordsOf twoFiles ["/core.json".toList]) 1) ∧
    otherCatalog.loadFiles twoFiles ["/core.json".toList, "/uncore.json".toList] =
      (.error (.catalogLoad "/uncore.json".toList (.badRecord .invalidDigit)), otherCatalog) ∧
    ¬ ∀ path ∈ ["/core.json".toList, "/uncore.json".toList], SoundFile twoFiles path := by
  have hload : otherCatalog.loadFiles twoFiles ["/core.json".toList] =
      (.ok 1, (otherCatalog.loadFiles twoFiles ["/core.json".toList]).2) := rfl
  have hfail : otherCatalog.loadFiles twoFiles ["/core.json".toList, "/uncore.json".toList] =
      (.error (.catalogLoad "/uncore.json".toList (.badRecord .invalidDigit)), otherCatalog) := rfl
  refine ⟨⟨_, hload, (loadFiles_replaces_or_keeps otherCatalog twoFiles _).2.1 _ _ hload⟩, hfail, ?_⟩
  intro hall
  obtain ⟨n, hok⟩ := (loadFiles_replaces_or_keeps otherCatalog twoFiles _).1.mpr hall
  rw [hfail] at hok
  cases hok

end HardwareCounters
