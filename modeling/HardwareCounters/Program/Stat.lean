/-
# Counting for a while

The program that counts the events of an expression on all processors for some seconds and prints
their sums, and the instructions per cycle of each processor where they are known.

* `Stat.run` gives the report and the state of the kernel after all counters have been released.
-/
import HardwareCounters.Kernel.Backend
import HardwareCounters.Program.Report
import HardwareCounters.Session.Expression
import HardwareCounters.Session.Open
import HardwareCounters.Session.Report
import HardwareCounters.Session.Run
import HardwareCounters.Text.FixedPoint

namespace HardwareCounters

namespace Stat

variable {κ : Type}

/-! ## 1. Arguments and output -/

def defaultExpression : Text := "\x7bcpu-cycles;instructions\x7d".toList

/-- The number of seconds, which is 1 unless another one is given. -/
def readSeconds : Option Text → Except Error Nat
  | none => .ok 1
  | some t =>
    match Numeral.readUnsigned 10 Numeral.limit64 t with
    | .ok n => .ok n
    | .error e => .error (.number e)

def sumLine (snapshot : EventSnapshot) : Text :=
  Text.alignRight 20 (Numeral.decimal snapshot.sum.toNat) ++ ' ' :: snapshot.name

def ipcLine (value : Float) (cpu : Nat) : Text :=
  "CPU".toList ++ Text.alignLeft 3 (Numeral.decimal cpu) ++ " IPC ".toList ++
    FixedPoint.render 2 value

def lines {η : Type} (session : Session η) : List Text :=
  session.collect.map sumLine ++
    match session.ipc? with
    | none => []
    | some values => values.zipIdx.map fun (value, cpu) => ipcLine value cpu

/-! ## 2. Counting -/

def longestSleep : Nat := 0x7FFFFFFFFFFFFFFF

/-- The calls that let some seconds pass: as many of the longest ones as fit, and one for what
remains. -/
def sleeps (seconds : Nat) : List Nat :=
  List.replicate (seconds / longestSleep) longestSleep ++
    if seconds % longestSleep = 0 then [] else [seconds % longestSleep]

/-- Lets time pass.  For no seconds at all there is no call. -/
def pause (k : Kernel κ) (seconds : Nat) (w : κ) : κ :=
  (sleeps seconds).foldl (fun w seconds => k.sleep seconds w) w

/-- Counts the events of a session that has been parsed.  The session after the last operation is
part of the result. -/
def count (k : Kernel κ) (b : Backend κ KernelCounter) (seconds : Nat)
    (session : Session KernelCounter) (w : κ) : Report × Session KernelCounter × κ :=
  match session.openCounters b true (-1) w with
  | (.error e, session, w) => (.failed e, session, w)
  | (.ok (), session, w) =>
    match session.start b w with
    | (.error e, session, w) => (.failed e, session, w)
    | (.ok (), session, w) =>
      match session.stop b (pause k seconds w) with
      | (.error e, session, w) => (.failed e, session, w)
      | (.ok (), session, w) => ({ printed := lines session }, session, w)

/-- The catalog of a machine.  Without one, events other than those of a catalog are still found. -/
def catalogOf (files : FileTree) (searchPath? : Option Text) : Catalog :=
  match CatalogSource.ofSearchPath files searchPath? with
  | .ok source => .ofSource source
  | .error _ => {}

/-- Counts the events of the expression in the first argument for the seconds in the second.  All
counters are released at the end, whatever happens. -/
def run (k : Kernel κ) (s : Sysfs) (arguments : List Text) (searchPath? : Option Text) (w : κ) :
    Report × κ :=
  match readSeconds arguments[1]? with
  | .error e => (.failed e, w)
  | .ok seconds =>
    match s.cpuCount 1 with
    | .error e => (.failed e, w)
    | .ok cpuCount =>
      let resolver : Resolver := ⟨s, catalogOf s.files searchPath?⟩
      let session : Session KernelCounter := { cpuCount }
      match session.parse (arguments[0]?.getD defaultExpression) resolver with
      | (.error e, _, _) => (.failed e, w)
      | (.ok (), session, _) =>
        let b := k.backend s.files
        let (report, session, w) := count k b seconds session w
        let (closed, _, w) := session.close b w
        ({ report with result := Session.firstFailure report.result closed }, w)

end Stat

end HardwareCounters
