/-
# System calls

The calls by which counters are opened and worked, as operations on the state of a kernel.

* `Kernel.recorded` keeps a log of the calls that reach a kernel.
-/
import HardwareCounters.Error
import HardwareCounters.Kernel.Attribute

namespace HardwareCounters

inductive CounterCommand where
  | reset
  | enable
  | disable
  deriving DecidableEq, Repr

structure CounterRequest where
  attr : KernelAttribute
  pid : Int
  cpu : Nat
  /-- The descriptor of the group's leader. -/
  group? : Option Nat
  flags : Nat
  deriving DecidableEq, Repr

/-- A kernel with states in `κ`. -/
structure Kernel (κ : Type) where
  /-- The user on whose behalf calls are made. -/
  user : κ → Nat
  threadCpus : κ → Except Errno (List Nat) × κ
  moveThread : List Nat → κ → Except Errno Unit × κ
  /-- Opens a counter and gives its descriptor. -/
  openCounter : CounterRequest → κ → Except Errno Nat × κ
  command : CounterCommand → Nat → κ → Except Errno Unit × κ
  /-- Reads at most so many bytes. -/
  read : Nat → Nat → κ → Except Errno (List UInt8) × κ
  close : Nat → κ → κ
  sleep : Nat → κ → κ

/-- A call that reached a kernel. -/
inductive KernelCall where
  | threadCpus
  | moveThread (cpus : List Nat)
  | openCounter (request : CounterRequest) (descriptor? : Option Nat)
  | command (command : CounterCommand) (descriptor : Nat)
  | read (descriptor size : Nat)
  | close (descriptor : Nat)
  | sleep (seconds : Nat)
  deriving DecidableEq, Repr

namespace Kernel

variable {κ : Type}

/-- Adds a call to the log behind a state. -/
def record {α : Type} (call : KernelCall) (log : List KernelCall) (outcome : α × κ) :
    α × κ × List KernelCall :=
  (outcome.1, outcome.2, log ++ [call])

/-- The same kernel with a log of its calls. -/
def recorded (k : Kernel κ) : Kernel (κ × List KernelCall) where
  user := fun (w, _) => k.user w
  threadCpus := fun (w, log) => record .threadCpus log (k.threadCpus w)
  moveThread cpus := fun (w, log) => record (.moveThread cpus) log (k.moveThread cpus w)
  openCounter request := fun (w, log) =>
    let outcome := k.openCounter request w
    record (.openCounter request outcome.1.toOption) log outcome
  command what descriptor := fun (w, log) =>
    record (.command what descriptor) log (k.command what descriptor w)
  read descriptor size := fun (w, log) =>
    record (.read descriptor size) log (k.read descriptor size w)
  close descriptor := fun (w, log) => (k.close descriptor w, log ++ [.close descriptor])
  sleep seconds := fun (w, log) => (k.sleep seconds w, log ++ [.sleep seconds])

end Kernel

end HardwareCounters
