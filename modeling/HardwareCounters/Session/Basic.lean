/-
# Sessions

A session owns the events of one measurement and a counter for each event on each processor.

* `SessionEvent.slots` has a place for each processor; it is empty until the event is opened;
* `Session.handles` are the handles of all counters, by event and then by processor.
-/
import HardwareCounters.Counter.Backend
import HardwareCounters.Text.Quoted

namespace HardwareCounters

structure CpuCounter (η : Type) where
  handle : η
  /-- The last reading. -/
  count : Count := {}
  /-- The last reading with time in it, scaled. -/
  scaled : Word := 0

/-- The counter after a reading.  A reading for which the counter was not enabled leaves the scaled
value as it was. -/
def CpuCounter.record {η : Type} (counter : CpuCounter η) (count : Count) : CpuCounter η :=
  { counter with count, scaled := if count.enabled = 0 then counter.scaled else count.scaled }

abbrev Slot (η : Type) := Option (CpuCounter η)

structure SessionEvent (η : Type) where
  /-- The name as written in the expression. -/
  name : Text
  attr : Attribute
  /-- The event leads a group of counters. -/
  leader : Bool
  /-- The event is the last of a group. -/
  endsGroup : Bool
  uncore : Bool
  slots : List (Slot η) := []
  /-- The sum of the scaled values when the counters were last stopped. -/
  totalSum : Word := 0

namespace SessionEvent

variable {η : Type}

/-- The counter on a processor. -/
def counter? (event : SessionEvent η) (cpu : Nat) : Option (CpuCounter η) :=
  (event.slots[cpu]?).join

def handle? (event : SessionEvent η) (cpu : Nat) : Option η :=
  (event.counter? cpu).map CpuCounter.handle

/-- The handles of all counters, by processor. -/
def handles (event : SessionEvent η) : List η :=
  event.slots.filterMap fun slot => slot.map CpuCounter.handle

def setCounter (event : SessionEvent η) (cpu : Nat) (counter : CpuCounter η) : SessionEvent η :=
  { event with slots := event.slots.set cpu (some counter) }

/-- The scaled value on a processor: 0 without a counter, as for one that has not been read. -/
def scaledOn (event : SessionEvent η) (cpu : Nat) : Word :=
  ((event.counter? cpu).map CpuCounter.scaled).getD 0

end SessionEvent

/-- The events and counters of one measurement. -/
structure Session (η : Type) where
  /-- The number of processors on which counters are opened. -/
  cpuCount : Nat
  events : List (SessionEvent η) := []
  state : SessionState := .closed

namespace Session

variable {η : Type}

/-- The handles of all counters, by event and then by processor. -/
def handles (session : Session η) : List η := session.events.flatMap SessionEvent.handles

/-- The refusal of an operation in the state of the session. -/
def refusal? (session : Session η) (operation : SessionOperation) : Option Error :=
  if session.state ∈ operation.allowedIn then none
  else some (.invalidState operation session.state)

/-- The refusal of an operation that needs events. -/
def refusalOrEmpty? (session : Session η) (operation : SessionOperation) : Option Error :=
  (session.refusal? operation).or (if session.events.isEmpty then some .emptyEventList else none)

/-- A session on one line, with its number of processors, its state and the names of its events. -/
def description (session : Session η) : String :=
  "Session \x7b num_cpus: " ++ shown (Numeral.decimal session.cpuCount) ++ ", state: " ++
    session.state.name ++ ", events: [" ++
    shown (Text.joinWith ", ".toList (session.events.map fun event => Text.quoted event.name)) ++
    "] \x7d"

end Session

end HardwareCounters
