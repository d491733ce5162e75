/-
# What a session has measured

The values of the events at the last stop, and the number of instructions per cycle that follows
from two of them.
-/
import HardwareCounters.Session.Basic
import HardwareCounters.Text.Lowercase

namespace HardwareCounters

variable {η : Type}

structure EventSnapshot where
  name : Text
  sum : Word
  /-- The scaled value on each processor, 0 without a counter. -/
  perCpu : List Word
  deriving DecidableEq, Repr

namespace Session

def collect (session : Session η) : List EventSnapshot :=
  session.events.map fun event =>
    ⟨event.name, event.totalSum, (List.range session.cpuCount).map event.scaledOn⟩

/-- The event that counts retired instructions. -/
def retiredName : Text := "inst_retired.any".toList

/-- The event that counts core clocks, once for each of the two threads of a core. -/
def clocksName : Text := "cpu_clk_unhalted.thread_any".toList

/-- The first event of that name, without regard to the case of ASCII letters. -/
def findEvent? (session : Session η) (name : Text) : Option (SessionEvent η) :=
  session.events.find? fun event => Text.sameIgnoringAsciiCase event.name name

def wordToFloat (word : Word) : Float := (UInt64.ofBitVec word).toFloat

/-- Instructions per cycle, where the clocks of two threads were counted: 0 without clocks. -/
def ratio (retired clocks : Word) : Float :=
  let cycles := wordToFloat clocks / 2
  if cycles > 0 then wordToFloat retired / cycles else 0

/-- Instructions per cycle on each processor, if both events are in the session. -/
def ipc? (session : Session η) : Option (List Float) := do
  let retired ← session.findEvent? retiredName
  let clocks ← session.findEvent? clocksName
  return (List.range session.cpuCount).map fun cpu =>
    ratio (retired.scaledOn cpu) (clocks.scaledOn cpu)

end Session

end HardwareCounters
