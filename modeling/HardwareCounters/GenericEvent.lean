/-
# Generic events

Some events have the same name on every processor.  The kernel gives them fixed codes under three
types of its own: hardware events, software events and cache events.

* `GenericEvent.find?` gives the attribute of a name;
* `GenericEvent.names` are all names, in order.
-/
import HardwareCounters.Attribute

namespace HardwareCounters

namespace GenericEvent

/-! ## 1. Codes -/

def hardwareType : BitVec 32 := 0

def softwareType : BitVec 32 := 1

def cacheType : BitVec 32 := 3

inductive Cache where
  | l1Data
  | l1Instruction
  | lastLevel
  | dataTlb
  | instructionTlb
  | branchPredictor
  deriving DecidableEq

inductive Access where
  | read
  | write
  | prefetch
  deriving DecidableEq

def Cache.number : Cache → Nat
  | .l1Data => 0
  | .l1Instruction => 1
  | .lastLevel => 2
  | .dataTlb => 3
  | .instructionTlb => 4
  | .branchPredictor => 5

def Access.number : Access → Nat
  | .read => 0
  | .write => 1
  | .prefetch => 2

/-- The code of all accesses of one kind to a cache, or of those that miss: the cache in the lowest
byte, the access in the second and the result in the third. -/
def cacheCode (cache : Cache) (access : Access) (misses : Bool) : Nat :=
  cache.number + 0x100 * access.number + 0x10000 * misses.toNat

/-! ## 2. Names -/

def hardware : List (String × Nat) :=
  [("cpu-cycles", 0), ("cycles", 0), ("instructions", 1), ("cache-references", 2),
    ("cache-misses", 3), ("branch-instructions", 4), ("branches", 4), ("branch-misses", 5),
    ("bus-cycles", 6), ("stalled-cycles-frontend", 7), ("stalled-cycles-backend", 8),
    ("ref-cycles", 9)]

def software : List (String × Nat) :=
  [("cpu-clock", 0), ("task-clock", 1), ("page-faults", 2), ("faults", 2),
    ("context-switches", 3), ("cs", 3), ("cpu-migrations", 4), ("migrations", 4),
    ("minor-faults", 5), ("major-faults", 6), ("alignment-faults", 7), ("emulation-faults", 8)]

/-- The names and codes of the cache events. -/
def cache : List (String × Nat) :=
  [("L1-dcache-loads", cacheCode .l1Data .read false),
    ("L1-dcache-load-misses", cacheCode .l1Data .read true),
    ("L1-dcache-stores", cacheCode .l1Data .write false),
    ("L1-dcache-store-misses", cacheCode .l1Data .write true),
    ("L1-dcache-prefetches", cacheCode .l1Data .prefetch false),
    ("L1-dcache-prefetch-misses", cacheCode .l1Data .prefetch true),
    ("L1-icache-loads", cacheCode .l1Instruction .read false),
    ("L1-icache-load-misses", cacheCode .l1Instruction .read true),
    ("L1-icache-prefetches", cacheCode .l1Instruction .prefetch false),
    ("L1-icache-prefetch-misses", cacheCode .l1Instruction .prefetch true),
    ("LLC-loads", cacheCode .lastLevel .read false),
    ("LLC-load-misses", cacheCode .lastLevel .read true),
    ("LLC-stores", cacheCode .lastLevel .write false),
    ("LLC-store-misses", cacheCode .lastLevel .write true),
    ("LLC-prefetches", cacheCode .lastLevel .prefetch false),
    ("LLC-prefetch-misses", cacheCode .lastLevel .prefetch true),
    ("dTLB-loads", cacheCode .dataTlb .read false),
    ("dTLB-load-misses", cacheCode .dataTlb .read true),
    ("dTLB-stores", cacheCode .dataTlb .write false),
    ("dTLB-store-misses", cacheCode .dataTlb .write true),
    ("dTLB-prefetches", cacheCode .dataTlb .prefetch false),
    ("dTLB-prefetch-misses", cacheCode .dataTlb .prefetch true),
    ("iTLB-loads", cacheCode .instructionTlb .read false),
    ("iTLB-load-misses", cacheCode .instructionTlb .read true),
    ("branch-loads", cacheCode .branchPredictor .read false),
    ("branch-load-misses", cacheCode .branchPredictor .read true)]

/-- The attributes of one kind of events.  All generic events of a kind share the type, and the code
is their configuration. -/
def withType (pmuType : BitVec 32) (events : List (String × Nat)) : List (Text × Attribute) :=
  events.map fun (name, code) => (name.toList, { pmuType, config := BitVec.ofNat 64 code })

/-- Every generic event with its attribute. -/
def all : List (Text × Attribute) :=
  withType hardwareType hardware ++ withType softwareType software ++ withType cacheType cache

/-- The attribute of the generic event of that name.  Names are compared as they are written. -/
def find? (name : Text) : Option Attribute := all.lookup name

def names : List Text := (all.map Prod.fst).mergeSort Text.le

end GenericEvent

end HardwareCounters
