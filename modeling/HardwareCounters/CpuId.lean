/-
# Processors

A catalog is made for a processor, which is named by its vendor, family, model and stepping.  The
kernel's description of the processors gives these as lines `<key> : <value>`.

* `CpuId.ofCpuinfo` reads them, stopping as soon as all four are known;
* `CpuId.candidates` are the names under which a catalog may lie.
-/
import HardwareCounters.FileTree

namespace HardwareCounters

/-- A processor. -/
structure CpuId where
  vendor : Text
  family : Nat
  model : Nat
  stepping : Nat
  deriving DecidableEq, Repr

namespace CpuId

/-! ## 1. Names -/

/-- The name of the processor without its stepping.  Catalogs are named by it: the family in
decimal, the model in hexadecimal digits. -/
def modelId (cpu : CpuId) : Text :=
  cpu.vendor ++ '-' :: Numeral.decimal cpu.family ++ '-' :: Numeral.hexUpper cpu.model

def fullId (cpu : CpuId) : Text := cpu.modelId ++ '-' :: Numeral.hexUpper cpu.stepping

/-- The names under which a catalog may lie, the more exact one first. -/
def candidates (cpu : CpuId) : List Text := [cpu.fullId, cpu.modelId]

/-! ## 2. Lines of the description -/

inductive Key where
  | vendor
  | family
  | model
  | stepping
  deriving DecidableEq, Repr

def keys : List (Text × Key) :=
  [("vendor_id".toList, .vendor), ("cpu family".toList, .family), ("model".toList, .model),
    ("stepping".toList, .stepping)]

/-- The first word after a colon that blanks may precede. -/
def valueAfter? (t : Text) : Option Text :=
  match Text.trimStart t with
  | ':' :: rest =>
    match (Text.trimStart rest).takeWhile fun c => !Text.isBlank c with
    | [] => none
    | word => some word
  | _ => none

/-- The key and the value of a line. -/
def readLine? (line : Text) : Option (Key × Text) :=
  keys.findSome? fun (name, key) =>
    ((Text.dropFront? name line).bind valueAfter?).map fun value => (key, value)

/-! ## 3. Descriptions -/

structure Partial where
  vendor? : Option Text := none
  family? : Option Nat := none
  model? : Option Nat := none
  stepping? : Option Nat := none

def Partial.complete? (known : Partial) : Option CpuId :=
  match known.vendor?, known.family?, known.model?, known.stepping? with
  | some vendor, some family, some model, some stepping =>
    some { vendor, family, model, stepping }
  | _, _, _, _ => none

def readNumber (t : Text) : Except Error Nat :=
  match Numeral.readUnsigned 10 Numeral.limit32 t with
  | .ok n => .ok n
  | .error e => .error (.number e)

/-- What is known after one more value.  A repeated key replaces the value. -/
def Partial.add (known : Partial) (key : Key) (value : Text) : Except Error Partial :=
  match key with
  | .vendor => .ok { known with vendor? := some value }
  | .family => (readNumber value).map fun n => { known with family? := some n }
  | .model => (readNumber value).map fun n => { known with model? := some n }
  | .stepping => (readNumber value).map fun n => { known with stepping? := some n }

/-- What is known after one more line. -/
def Partial.addLine (known : Partial) (line : Text) : Except Error Partial :=
  match readLine? line with
  | none => .ok known
  | some (key, value) => known.add key value

/-- Reads lines until the processor is known.  A block that leaves something open is continued by
the next one. -/
def ofLines (known : Partial) : List Text → Except Error CpuId
  | [] => .error (.catalogNotFound .unknownProcessor)
  | line :: rest =>
    match known.addLine line with
    | .error e => .error e
    | .ok next =>
      match next.complete? with
      | some cpu => .ok cpu
      | none => ofLines next rest

def ofCpuinfo (t : Text) : Except Error CpuId := ofLines {} (Text.lines t)

def cpuinfoPath : Text := "/proc/cpuinfo".toList

def ofMachine (files : FileTree) : Except Error CpuId :=
  match files.read cpuinfoPath with
  | .error e => .error (.io e)
  | .ok t => ofCpuinfo t

end CpuId

end HardwareCounters
