/-
# What is found in a loaded catalog

Loading puts the records of all files into an empty table, one after another.  Of several records
whose names differ at most in case, the last one stays.

* `insertFiles_eq`: the files are one list of records;
* `find?_insertRecords`: what is found after records have been inserted;
* `Catalog.find?_loadFiles`: what is found after files have been loaded.
-/
import HardwareCounters.Catalog.Basic

namespace HardwareCounters

/-- The key of the event of a record, if it has a name. -/
def Record.key? (record : Record) : Option Text :=
  (record.field? "EventName").map Text.lowercase

/-! ## 1. Events of records -/

namespace CatalogEvent

theorem key?_eq_of_ofRecord? {record : Record} {event? : Option CatalogEvent}
    (h : ofRecord? record = .ok event?) : record.key? = event?.map key := by
  rw [ofRecord?] at h
  rw [Record.key?]
  split at h
  · rename_i hname
    cases h
    rw [hname]
    rfl
  · rename_i name hname
    cases hcode : eventCode record with
    | error e => simp [hcode, Except.map] at h
    | ok code =>
      simp only [hcode, Except.map, Except.ok.injEq] at h
      subst h
      rw [hname]
      rfl

end CatalogEvent

namespace EventTable

/-! ## 2. Records -/

theorem insertRecords_append (table : EventTable) (records more : List Record) :
    table.insertRecords (records ++ more) =
      (table.insertRecords records).bind fun reached => reached.insertRecords more := by
  induction records generalizing table with
  | nil => rfl
  | cons record records ih =>
    rw [List.cons_append, insertRecords, insertRecords]
    rcases CatalogEvent.ofRecord? record with e | _ | event
    · rfl
    · exact ih table
    · exact ih (table.insert event)

/-- Records of other names change nothing about an event. -/
theorem find?_insertRecords_of_ne {table reached : EventTable} {records : List Record} {key : Text}
    (h : table.insertRecords records = .ok reached)
    (hother : ∀ record ∈ records, record.key? ≠ some key) :
    reached.find? key = table.find? key := by
  induction records generalizing table with
  | nil =>
    rw [insertRecords] at h
    cases h
    rfl
  | cons record records ih =>
    have hrest := fun other hmem => hother other (List.mem_cons_of_mem record hmem)
    rw [insertRecords] at h
    split at h
    · cases h
    · exact ih h hrest
    · rename_i event hevent
      have hkey : key ≠ event.key := by
        rintro rfl
        exact hother record List.mem_cons_self (CatalogEvent.key?_eq_of_ofRecord? hevent)
      rw [ih h hrest, find?_insert, if_neg hkey]

/-- **The last record stays.**  It is a valid one, and its event is found. -/
theorem find?_insertRecords {table reached : EventTable} {before after : List Record}
    {record : Record} {key : Text}
    (h : table.insertRecords (before ++ record :: after) = .ok reached)
    (hkey : record.key? = some key) (hlast : ∀ other ∈ after, other.key? ≠ some key) :
    ∃ event, CatalogEvent.ofRecord? record = .ok (some event) ∧ reached.find? key = some event := by
  rw [insertRecords_append] at h
  cases hbefore : table.insertRecords before with
  | error e => simp [hbefore, Except.bind] at h
  | ok middle =>
    simp only [hbefore, Except.bind, insertRecords] at h
    split at h
    · cases h
    · rename_i hnone
      rw [CatalogEvent.key?_eq_of_ofRecord? hnone] at hkey
      cases hkey
    · rename_i event hevent
      have heq : event.key = key := by
        rw [CatalogEvent.key?_eq_of_ofRecord? hevent] at hkey
        exact Option.some.inj hkey
      refine ⟨event, hevent, ?_⟩
      rw [find?_insertRecords_of_ne h hlast, find?_insert, if_pos heq.symm]

/-! ## 3. Files -/

/-- The records of files, in order.  A file that cannot be read has none. -/
def recordsOf (files : FileTree) (paths : List Text) : List Record :=
  paths.flatMap fun path => (readRecords files path).toOption.getD []

/-- **Files are lists of records.**  The events of files that were inserted are those of their
records. -/
theorem insertFiles_eq {files : FileTree} {paths : List Text} {table reached : EventTable}
    (h : table.insertFiles files paths = .ok reached) :
    table.insertRecords (recordsOf files paths) = .ok reached := by
  induction paths generalizing table with
  | nil =>
    cases h
    rfl
  | cons path paths ih =>
    rw [insertFiles] at h
    split at h
    · cases h
    · rename_i records hrecords
      split at h
      · cases h
      · rename_i middle hmiddle
        have hsplit : recordsOf files (path :: paths) = records ++ recordsOf files paths := by
          rw [recordsOf, List.flatMap_cons, hrecords]
          rfl
        rw [hsplit, insertRecords_append, hmiddle]
        exact ih h

end EventTable

theorem Catalog.insertRecords_loadFiles {catalog loaded : Catalog} {files : FileTree}
    {paths : List Text} {n : Nat} (h : catalog.loadFiles files paths = (.ok n, loaded)) :
    EventTable.insertRecords [] (EventTable.recordsOf files paths) = .ok loaded.events := by
  rw [loadFiles] at h
  split at h
  · cases h
  · rename_i events hevents
    cases h
    exact EventTable.insertFiles_eq hevents

/-- **The last record of a name is found.**  It is found under every name that differs at most in
case. -/
theorem Catalog.find?_loadFiles {catalog loaded : Catalog} {files : FileTree} {paths : List Text}
    {n : Nat} (h : catalog.loadFiles files paths = (.ok n, loaded)) {before after : List Record}
    {record : Record} (hrecords : EventTable.recordsOf files paths = before ++ record :: after)
    {name : Text} (hkey : record.key? = some (Text.lowercase name))
    (hlast : ∀ other ∈ after, other.key? ≠ record.key?) :
    ∃ event, CatalogEvent.ofRecord? record = .ok (some event) ∧ loaded.find? name = some event := by
  have hinsert := insertRecords_loadFiles h
  rw [hrecords] at hinsert
  rw [hkey] at hlast
  exact EventTable.find?_insertRecords hinsert hkey hlast

end HardwareCounters
