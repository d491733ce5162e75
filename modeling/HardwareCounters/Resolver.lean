/-
# Resolving event names

A name is looked for in the catalog, read as a descriptor, read as an alias or a list of terms of
the cores' PMU, and looked for among the generic events; the first of these that gives an attribute
decides.

* `Resolver.resolve` gives the attribute, and the resolver with the catalog that was loaded on the
  way;
* `Resolver.isUncore` tells whether the event is counted once for all processors.
-/
import HardwareCounters.Catalog.Basic
import HardwareCounters.Descriptor
import HardwareCounters.GenericEvent

namespace HardwareCounters

structure Resolver where
  sysfs : Sysfs
  catalog : Catalog

namespace Resolver

/-! ## 1. Candidates -/

/-- The events of the counters with a fixed purpose, by key.  They are encoded like this whatever
the catalog says. -/
def fixedEncodings : List (Text × Text) :=
  [("inst_retired.any".toList, "event=0xc0".toList),
    ("cpu_clk_unhalted.thread".toList, "event=0x3c".toList),
    ("cpu_clk_unhalted.thread_any".toList, "event=0x3c,any=1".toList)]

def encodingOf (event : CatalogEvent) : Text :=
  (fixedEncodings.lookup event.key).getD event.encoded

/-- The descriptor of the event of that name in the catalog. -/
def catalogDescriptor? (catalog : Catalog) (name : Text) : Option Text :=
  (catalog.find? name).map fun event => pmuEvent event.pmu (encodingOf event)

/-- The descriptors that a name may stand for, in the order in which they are tried. -/
def descriptors (catalog : Catalog) (name : Text) : List Text :=
  (catalogDescriptor? catalog name).toList ++ [name, pmuEvent CatalogEvent.coreMark name]

/-- The first attribute among those of some descriptors. -/
def firstResolved? (s : Sysfs) (descriptors : List Text) : Option Attribute :=
  descriptors.findSome? fun descriptor => (Descriptor.resolve s descriptor).toOption

/-- The attribute of a name without blanks at its ends. -/
def lookUp (s : Sysfs) (catalog : Catalog) (name : Text) : Except Error Attribute :=
  match firstResolved? s (descriptors catalog name) with
  | some attr => .ok attr
  | none =>
    match GenericEvent.find? name with
    | some attr => .ok attr
    | none => .error (.eventNotFound name)

/-! ## 2. Resolving -/

/-- The resolver after its catalog has been loaded, if it had to be.  That the load failed is not an
error. -/
def loaded (resolver : Resolver) : Resolver :=
  { resolver with catalog := (resolver.catalog.ensureLoaded resolver.sysfs.files).2 }

def resolve (resolver : Resolver) (name : Text) : Except Error Attribute × Resolver :=
  let resolver := resolver.loaded
  (lookUp resolver.sysfs resolver.catalog (Text.trim name), resolver)

/-- The event is counted once for all processors.  An event of the catalog is judged by its PMU, any
other name by itself. -/
def isUncore (resolver : Resolver) (name : Text) : Except Error Bool :=
  let name := Text.trim name
  resolver.sysfs.isUncore name ((resolver.catalog.find? name).map CatalogEvent.pmu)

end Resolver

end HardwareCounters
