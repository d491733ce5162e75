/-
# Kernels that follow a script

A script tells a kernel which system calls are to fail and what its counters read, by rules that are
matched like those of a scripted backend.
-/
import HardwareCounters.Counter.Script
import HardwareCounters.CpuList
import HardwareCounters.Kernel.Interface

namespace HardwareCounters

/-! ## 1. Scripts -/

/-- What a counter reads. -/
inductive ScriptedRead where
  | fault (errno : Errno)
  | count (count : Count)
  /-- So many bytes that are 0. -/
  | zeros (bytes : Nat)
  deriving DecidableEq, Repr

/-- What happens to counters that a rule selects. -/
structure KernelRule where
  selector : Script.Selector := {}
  opens : List (Option Errno) := []
  resets : List (Option Errno) := []
  enables : List (Option Errno) := []
  disables : List (Option Errno) := []
  reads : List (Option ScriptedRead) := []

structure KernelScript where
  user : Nat := 0
  /-- The processors on which the thread may run. -/
  affinity : List Nat := [0]
  threadCpus? : Option Errno := none
  moveThread : List (Option Errno) := []
  rules : List KernelRule := []

structure ScriptedEvent where
  rule : KernelRule
  config : Word
  cpu : Nat
  resets : Nat := 0
  enables : Nat := 0
  disables : Nat := 0
  reads : Nat := 0

/-- The state of a kernel that follows a script. -/
structure KernelState where
  moves : Nat := 0
  /-- The number of opens for each rule. -/
  opens : List Nat := []
  /-- The counters by their descriptors. -/
  events : List ScriptedEvent := []

namespace KernelScript

/-! ## 2. The kernel of a script -/

def answer : Option Errno → Except Errno Unit
  | none => .ok ()
  | some e => .error e

def openCounter (script : KernelScript) (request : CounterRequest) (state : KernelState) :
    Except Errno Nat × KernelState :=
  let config := request.attr.config
  let index := script.rules.findIdx fun rule => rule.selector.selects config request.cpu
  let rule := (script.rules[index]?).getD {}
  let fault? := Script.entry rule.opens ((state.opens[index]?).getD 0)
  let state := { state with opens := BackendScript.countOpen state.opens index }
  match fault? with
  | some e => (.error e, state)
  | none =>
    (.ok state.events.length,
      { state with events := state.events ++ [{ rule, config, cpu := request.cpu }] })

/-- The answer to a command, and the counter after it. -/
def obey (event : ScriptedEvent) : CounterCommand → Option Errno × ScriptedEvent
  | .reset =>
    (Script.entry event.rule.resets event.resets, { event with resets := event.resets + 1 })
  | .enable =>
    (Script.entry event.rule.enables event.enables, { event with enables := event.enables + 1 })
  | .disable =>
    (Script.entry event.rule.disables event.disables, { event with disables := event.disables + 1 })

def command (what : CounterCommand) (descriptor : Nat) (state : KernelState) :
    Except Errno Unit × KernelState :=
  match state.events[descriptor]? with
  | none => (.ok (), state)
  | some event =>
    let (fault?, event) := obey event what
    (answer fault?, { state with events := state.events.set descriptor event })

def readBytes (event : ScriptedEvent) (size : Nat) : Except Errno (List UInt8) :=
  match Script.entry event.rule.reads event.reads with
  | none => .ok ((Script.plainCount event.config event.cpu).toBytes.take size)
  | some (.count count) => .ok (count.toBytes.take size)
  | some (.zeros bytes) => .ok (List.replicate (min bytes size) 0)
  | some (.fault e) => .error e

def read (descriptor size : Nat) (state : KernelState) : Except Errno (List UInt8) × KernelState :=
  match state.events[descriptor]? with
  | none => (.ok [], state)
  | some event =>
    (readBytes event size,
      { state with events := state.events.set descriptor { event with reads := event.reads + 1 } })

def threadCpus (script : KernelScript) : Except Errno (List Nat) :=
  match script.threadCpus? with
  | none => .ok (CpuList.collect script.affinity)
  | some e => .error e

/-- The kernel that follows a script. -/
def kernel (script : KernelScript) : Kernel KernelState where
  user := fun _ => script.user
  threadCpus := fun state => (script.threadCpus, state)
  moveThread _ := fun state =>
    (answer (Script.entry script.moveThread state.moves), { state with moves := state.moves + 1 })
  openCounter := script.openCounter
  command := command
  read := read
  close _ := fun state => state
  sleep _ := fun state => state

end KernelScript

end HardwareCounters
