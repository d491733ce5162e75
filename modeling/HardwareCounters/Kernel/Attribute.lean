/-
# The kernel's attribute of a counter

A counter is opened with a structure of words.  Its flags share one word with the two bits that say
how precise the counter has to be.  All parts of the structure that are not named here are 0.
-/
import HardwareCounters.Counter.Basic

namespace HardwareCounters

/-- The attribute that the kernel opens a counter with, with its words that are ever set. -/
structure KernelAttribute where
  pmuType : BitVec 32 := 0
  /-- The size of the structure in bytes. -/
  size : BitVec 32 := 0
  config : Word := 0
  /-- The sampling period, or the frequency if the flag `freqFlag` is set. -/
  sample : Word := 0
  sampleType : Word := 0
  readFormat : Word := 0
  flags : Word := 0
  config1 : Word := 0
  config2 : Word := 0
  deriving DecidableEq, Repr

namespace KernelAttribute

/-! ## 1. Flags -/

def disabledFlag : Word := 1 <<< 0

def inheritFlag : Word := 1 <<< 1

def excludeUserFlag : Word := 1 <<< 4

def excludeKernelFlag : Word := 1 <<< 5

def excludeHypervisorFlag : Word := 1 <<< 6

/-- The sampling value is a frequency, not a period. -/
def freqFlag : Word := 1 <<< 10

/-- A counter that starts disabled is enabled when the process starts another program. -/
def enableOnExecFlag : Word := 1 <<< 12

def excludeGuestFlag : Word := 1 <<< 20

/-- The lower of the two bits for the precision, which lie among the flags. -/
def preciseShift : Nat := 15

/-- The attribute with the bits of `mask` set or cleared.  The other bits of the word, those of the
precision among them, stay. -/
def setFlag (attr : KernelAttribute) (mask : Word) (on : Bool) : KernelAttribute :=
  { attr with flags := if on then attr.flags ||| mask else attr.flags &&& ~~~mask }

/-- Some bit of `mask` is set.  For a mask of several bits that need not be all of them. -/
def hasFlag (attr : KernelAttribute) (mask : Word) : Bool := attr.flags &&& mask != 0

/-- The attribute with another precision.  Of the level only the two lowest bits count; higher ones
would run into the flags above. -/
def setPrecise (attr : KernelAttribute) (precise : BitVec 8) : KernelAttribute :=
  { attr with
    flags := (attr.flags &&& ~~~(3#64 <<< preciseShift)) |||
      ((precise.setWidth 64 &&& 3) <<< preciseShift) }

def precise (attr : KernelAttribute) : BitVec 8 := ((attr.flags >>> preciseShift) &&& 3).setWidth 8

/-! ## 2. The attribute of an event -/

/-- The size by which the kernel tells the versions of the structure apart. -/
def structureSize : BitVec 32 := 128

/-- A reading holds, behind the value, the time for which the counter was enabled; with
`runningTimeFormat` also that on the hardware. -/
def enabledTimeFormat : Word := 1 <<< 0

def runningTimeFormat : Word := 1 <<< 1

/-- The attribute with the sampling of an event.  A period and a frequency share one word, and the
flag says which one it holds. -/
def setSampling (attr : KernelAttribute) : Sampling → KernelAttribute
  | .period n => { attr with sample := n }
  | .frequency n => setFlag { attr with sample := n } freqFlag true

/-- The attribute for an event.  Unless everything is measured the counter waits for the next
program that the process starts, and is inherited. -/
def ofEvent (event : Attribute) (options : OpenOptions) : KernelAttribute :=
  let words : KernelAttribute := {
    pmuType := event.pmuType
    size := structureSize
    config := event.config
    config1 := event.config1
    config2 := event.config2
    readFormat := enabledTimeFormat ||| runningTimeFormat }
  let attr := ((((words.setSampling event.sampling).setFlag excludeUserFlag event.excludeUser
    ).setFlag excludeKernelFlag event.excludeKernel
    ).setFlag excludeHypervisorFlag event.excludeHypervisor
    ).setFlag excludeGuestFlag event.excludeGuest
  let attr := attr.setPrecise event.precise
  if options.measureAll then attr
  else ((attr.setFlag disabledFlag true).setFlag enableOnExecFlag true).setFlag inheritFlag true

end KernelAttribute

end HardwareCounters
