/-
# Catalogs

A catalog holds named events and, possibly, where they are to be loaded from.  Events are looked up
without regard to case, and a later event replaces an earlier one of the same name.

* `find?_insert`: what is found after an event has been inserted;
* `load` replaces the events of a catalog, or leaves them as they are if any file or record is
  malformed; `ensureLoaded` loads an empty catalog unless the last load failed.
-/
import HardwareCounters.Association
import HardwareCounters.Catalog.Event
import HardwareCounters.Catalog.Source
import HardwareCounters.Pattern.Reader
import HardwareCounters.Pattern.Scan

namespace HardwareCounters

/-! ## 1. Events by name -/

/-- Events under the keys by which they are looked up. -/
abbrev EventTable := List (Text × CatalogEvent)

namespace EventTable

def insert (table : EventTable) (event : CatalogEvent) : EventTable :=
  Association.put table event.key event

def find? (table : EventTable) (key : Text) : Option CatalogEvent :=
  Association.get? table key

theorem find?_insert (table : EventTable) (event : CatalogEvent) (key : Text) :
    (table.insert event).find? key = if key = event.key then some event else table.find? key :=
  Association.get?_put table event.key key event

/-- The table with the events of the records, in order.  Records without a name are skipped. -/
def insertRecords (table : EventTable) : List Record → Except NumberError EventTable
  | [] => .ok table
  | record :: records =>
    match CatalogEvent.ofRecord? record with
    | .error e => .error e
    | .ok none => insertRecords table records
    | .ok (some event) => insertRecords (table.insert event) records

def readRecords (files : FileTree) (path : Text) : Except LoadFault (List Record) :=
  match files.read path with
  | .error e => .error (.unreadable e)
  | .ok text =>
    match Record.readAll? text with
    | none => .error .notRecords
    | some records => .ok records

/-- The table with the events of the files, in order. -/
def insertFiles (files : FileTree) (table : EventTable) : List Text → Except Error EventTable
  | [] => .ok table
  | path :: paths =>
    match readRecords files path with
    | .error fault => .error (.catalogLoad path fault)
    | .ok records =>
      match table.insertRecords records with
      | .error e => .error (.catalogLoad path (.badRecord e))
      | .ok table => insertFiles files table paths

/-- The events of a table that satisfy `p`, by name. -/
def filterEvents (table : EventTable) (p : CatalogEvent → Bool) : List CatalogEvent :=
  ((table.map Prod.snd).filter p).mergeSort fun a b => Text.le a.name b.name

/-- The order of pairs of texts. -/
def pairLe (a b : Text × Text) : Bool := if a.1 = b.1 then Text.le a.2 b.2 else Text.le a.1 b.1

/-- The keys of a table with the descriptors of the events, by key. -/
def walk (table : EventTable) : List (Text × Text) :=
  (table.map fun entry => (entry.1, entry.2.descriptor)).mergeSort pairLe

end EventTable

/-! ## 2. Catalogs -/

structure Catalog where
  source? : Option CatalogSource := none
  /-- The last load failed. -/
  loadFailed : Bool := false
  events : EventTable := []

namespace Catalog

/-- An empty catalog that is loaded from a source when it is needed. -/
def ofSource (source : CatalogSource) : Catalog := { source? := some source }

def insert (catalog : Catalog) (event : CatalogEvent) : Catalog :=
  { catalog with events := EventTable.insert catalog.events event }

def find? (catalog : Catalog) (name : Text) : Option CatalogEvent :=
  EventTable.find? catalog.events (Text.lowercase name)

def size (catalog : Catalog) : Nat := catalog.events.length

/-! ## 3. Loading -/

/-- Replaces the events by those of the files.  The number of events is the result. -/
def loadFiles (catalog : Catalog) (files : FileTree) (paths : List Text) :
    Except Error Nat × Catalog :=
  match EventTable.insertFiles files [] paths with
  | .error e => (.error e, catalog)
  | .ok events => (.ok events.length, { catalog with events })

/-- Replaces the events by those of the files of the source. -/
def loadSource (catalog : Catalog) (files : FileTree) : Except Error Nat × Catalog :=
  match catalog.source? with
  | none => (.error (.catalogNotFound .noSource), catalog)
  | some source =>
    match source.locate files with
    | .error e => (.error e, catalog)
    | .ok (core, uncore) => catalog.loadFiles files [core, uncore]

/-- Loads the catalog from its source and remembers whether that failed. -/
def load (catalog : Catalog) (files : FileTree) : Except Error Nat × Catalog :=
  match catalog.loadSource files with
  | (.ok n, loaded) => (.ok n, { loaded with loadFailed := false })
  | (.error e, loaded) => (.error e, { loaded with loadFailed := true })

/-- Loads the catalog if it is empty, unless the last load failed. -/
def ensureLoaded (catalog : Catalog) (files : FileTree) : Except Error Unit × Catalog :=
  if catalog.events.isEmpty ∧ catalog.loadFailed = false then
    match catalog.load files with
    | (.ok _, loaded) => (.ok (), loaded)
    | (.error e, loaded) => (.error e, loaded)
  else (.ok (), catalog)

/-! ## 4. Searching -/

/-- The events that satisfy `p`, by name. -/
def filterEvents (catalog : Catalog) (p : CatalogEvent → Bool) : List CatalogEvent :=
  EventTable.filterEvents catalog.events p

/-- The events in whose names a pattern occurs. -/
def findByName (catalog : Catalog) (pattern : Text) : Except Error (List CatalogEvent) :=
  match Pattern.parse? pattern with
  | none => .error .pattern
  | some p =>
    let scan := Scan.ofPattern p
    .ok (catalog.filterEvents fun event => scan.finds event.name)

/-- The keys of all events with their descriptors, by key. -/
def walk (catalog : Catalog) : List (Text × Text) := EventTable.walk catalog.events

def names (catalog : Catalog) : List Text :=
  (catalog.events.map fun entry => entry.2.name).mergeSort Text.le

def keys (catalog : Catalog) : List Text := (catalog.events.map Prod.fst).mergeSort Text.le

end Catalog

end HardwareCounters
