/-
# Readings and how counters are attached

A reading is the value of a counter with the time for which it was enabled and the time for which it
was on the hardware.  If the hardware was shared the value is extrapolated.

* `scaled_of_running_eq_enabled`: without sharing the value stands as it is.
-/
import HardwareCounters.Attribute

namespace HardwareCounters

/-- One reading of a counter, with the times for which it was enabled and on the hardware. -/
structure Count where
  value : Word := 0
  enabled : Word := 0
  running : Word := 0
  deriving DecidableEq, Repr

namespace Count

/-- The value extrapolated to the whole time for which the counter was enabled.  The product is
taken in machine words and may overflow; a counter that was never on the hardware shows its value as
it is. -/
def scaled (count : Count) : Word :=
  if count.enabled = count.running ∨ count.running = 0 then count.value
  else count.value * count.enabled / count.running

theorem scaled_of_running_eq_enabled {count : Count} (h : count.enabled = count.running) :
    count.scaled = count.value := by
  simp [scaled, h]

/-! ## 1. Bytes -/

def wordBytes (word : Word) : List UInt8 :=
  (List.range 8).map fun i => UInt8.ofNat (word >>> (8 * i)).toNat

/-- The word whose bytes these are, the lowest first. -/
def ofWordBytes (bytes : List UInt8) : Word :=
  BitVec.ofNat 64 (bytes.foldr (fun byte n => byte.toNat + 256 * n) 0)

def byteSize : Nat := 24

def toBytes (count : Count) : List UInt8 :=
  wordBytes count.value ++ wordBytes count.enabled ++ wordBytes count.running

/-- The reading whose bytes these are.  A reading that is not of three words is none. -/
def ofBytes? (bytes : List UInt8) : Option Count :=
  if bytes.length = byteSize then
    some {
      value := ofWordBytes (bytes.take 8)
      enabled := ofWordBytes ((bytes.drop 8).take 8)
      running := ofWordBytes (bytes.drop 16) }
  else none

end Count

structure OpenOptions where
  /-- The process that is measured, unless everything is. -/
  pid : Int
  /-- Everything that runs on a processor is counted. -/
  measureAll : Bool
  deriving DecidableEq, Repr

/-- The process that a counter is attached to.  Everything is process -1. -/
def OpenOptions.targetPid (options : OpenOptions) : Int :=
  if options.measureAll then -1 else options.pid

end HardwareCounters
