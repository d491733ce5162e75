/-
# Counters of the kernel

The backend whose counters are those of a kernel.  Measuring everything needs the rights of the
superuser, or a machine that allows it to all.

* `capability` says when the options are refused.
-/
import HardwareCounters.Counter.Backend
import HardwareCounters.FileTree
import HardwareCounters.Kernel.Interface

namespace HardwareCounters

/-! ## 1. Rights -/

def paranoidPath : Text := "/proc/sys/kernel/perf_event_paranoid".toList

/-- The level of caution of a machine. -/
def paranoidLevel (files : FileTree) : Except Error Int :=
  match files.read paranoidPath with
  | .error e => .error (.io e)
  | .ok t =>
    match Numeral.readSigned 0x80000000 (Text.trim t) with
    | .error e => .error (.number e)
    | .ok level => .ok level

def superuser : Nat := 0

/-- Measuring everything is refused to a user other than the superuser on a machine whose level of
caution is above 0.  A level that cannot be read does not count. -/
def capability (files : FileTree) (user : Nat) (options : OpenOptions) : Except Error Unit :=
  if options.measureAll ∧ user ≠ superuser then
    match paranoidLevel files with
    | .ok level => if 0 < level then .error .notCapable else .ok ()
    | .error _ => .ok ()
  else .ok ()

/-! ## 2. Counters -/

structure KernelCounter where
  descriptor : Nat
  deriving DecidableEq, Repr

namespace Kernel

variable {κ : Type}

def closeOnExec : Nat := 8

/-- The number of processors that a set of processors has room for. -/
def cpuSetSize : Nat := 1024

/-- The result of a system call, where a failure is an error. -/
def result {α : Type} : Except Errno α → Except Error α
  | .ok a => .ok a
  | .error e => .error (.system e)

def openEvent (k : Kernel κ) (attr : Attribute) (options : OpenOptions) (cpu : Nat)
    (leader? : Option KernelCounter) (w : κ) : Except Error KernelCounter × κ :=
  let request : CounterRequest := {
    attr := .ofEvent attr options
    pid := options.targetPid
    cpu
    group? := leader?.map KernelCounter.descriptor
    flags := closeOnExec }
  match k.openCounter request w with
  | (.ok descriptor, w) => (.ok ⟨descriptor⟩, w)
  | (.error e, w) => (.error (.system e), w)

/-- Zeroes a counter and lets it count.  A failure to zero it leaves it stopped. -/
def startCounter (k : Kernel κ) (counter : KernelCounter) (w : κ) : Except Error Unit × κ :=
  match k.command .reset counter.descriptor w with
  | (.error e, w) => (.error (.system e), w)
  | (.ok (), w) =>
    let (outcome, w) := k.command .enable counter.descriptor w
    (result outcome, w)

def readCount (k : Kernel κ) (counter : KernelCounter) (w : κ) : Except Error Count × κ :=
  match k.read counter.descriptor Count.byteSize w with
  | (.error e, w) => (.error (.system e), w)
  | (.ok bytes, w) =>
    match Count.ofBytes? bytes with
    | some count => (.ok count, w)
    | none => (.error (.io (.shortRead bytes.length)), w)

def stopCounter (k : Kernel κ) (counter : KernelCounter) (w : κ) : Except Error Count × κ :=
  match k.command .disable counter.descriptor w with
  | (.error e, w) => (.error (.system e), w)
  | (.ok (), w) => readCount k counter w

/-- Moves the calling thread, if the processors fit into a set of them. -/
def tryMoveThread (k : Kernel κ) (cpus : List Nat) (w : κ) : κ :=
  if cpus.all (· < cpuSetSize) then (k.moveThread cpus w).2 else w

/-- The backend of a kernel on a machine with that file tree. -/
def backend (k : Kernel κ) (files : FileTree) : Backend κ KernelCounter where
  check options := fun w => (capability files (k.user w) options, w)
  openCounter := k.openEvent
  start := k.startCounter
  stopAndRead := k.stopCounter
  close counter := fun w => (.ok (), k.close counter.descriptor w)
  threadCpus? := fun w => ((k.threadCpus w).1.toOption, (k.threadCpus w).2)
  moveThread := k.tryMoveThread

end Kernel

end HardwareCounters
