/-
# Backends that follow a script

A script tells a backend which calls are to fail and what its counters read.  Its rules are matched
against the configuration word and the processor of a counter; the first rule that matches an open
also governs the counter that it makes.

* `Script.entry`: a list of answers that is too short is continued by its last answer;
* `BackendScript.backend` is the backend of a script.
-/
import HardwareCounters.Counter.Backend

namespace HardwareCounters

namespace Script

/-- The answer to the call with number `i`: the last answer is also that of all later calls.  An
answer that is missing means that nothing special happens. -/
def entry {α : Type} (answers : List (Option α)) (i : Nat) : Option α :=
  (answers[i]?.or answers.getLast?).join

structure Selector where
  config? : Option Word := none
  cpu? : Option Nat := none

/-- The rule applies to a counter with that configuration word on that processor. -/
def Selector.selects (selector : Selector) (config : Word) (cpu : Nat) : Bool :=
  selector.config?.all (· == config) && selector.cpu?.all (· == cpu)

/-- What a counter reads without a scripted answer: a number made from the lowest byte of its
configuration word and its processor. -/
def plainCount (config : Word) (cpu : Nat) : Count :=
  { value := BitVec.ofNat 64 ((config &&& 0xff).toNat * 100 + cpu), enabled := 1, running := 1 }

end Script

/-! ## 1. Scripts -/

/-- What happens to counters that a rule selects. -/
structure BackendRule where
  selector : Script.Selector := {}
  opens : List (Option Error) := []
  starts : List (Option Error) := []
  reads : List (Option (Except Error Count)) := []
  close? : Option Error := none

structure BackendScript where
  denyAll? : Option Error := none
  denyOwn? : Option Error := none
  rules : List BackendRule := []

structure ScriptedCounter where
  rule : BackendRule
  config : Word
  cpu : Nat
  starts : Nat := 0
  reads : Nat := 0

/-- The state of a backend that follows a script. -/
structure ScriptState where
  /-- The number of opens for each rule. -/
  opens : List Nat := []
  /-- The counters by their numbers. -/
  counters : List ScriptedCounter := []

namespace BackendScript

/-! ## 2. The backend of a script -/

def answer : Option Error → Except Error Unit
  | none => .ok ()
  | some e => .error e

def opensOf (state : ScriptState) (index : Nat) : Nat := (state.opens[index]?).getD 0

/-- The numbers of opens after one more for a rule. -/
def countOpen (opens : List Nat) (index : Nat) : List Nat :=
  (opens ++ List.replicate (index + 1 - opens.length) 0).modify index (· + 1)

def openCounter (script : BackendScript) (config : Word) (cpu : Nat) (state : ScriptState) :
    Except Error Nat × ScriptState :=
  let index := script.rules.findIdx fun rule => rule.selector.selects config cpu
  let rule := (script.rules[index]?).getD {}
  let fault? := Script.entry rule.opens (opensOf state index)
  let state := { state with opens := countOpen state.opens index }
  match fault? with
  | some e => (.error e, state)
  | none =>
    (.ok state.counters.length,
      { state with counters := state.counters ++ [{ rule, config, cpu }] })

def start (id : Nat) (state : ScriptState) : Except Error Unit × ScriptState :=
  match state.counters[id]? with
  | none => (.ok (), state)
  | some counter =>
    (answer (Script.entry counter.rule.starts counter.starts),
      { state with
        counters := state.counters.set id { counter with starts := counter.starts + 1 } })

def stopAndRead (id : Nat) (state : ScriptState) : Except Error Count × ScriptState :=
  match state.counters[id]? with
  | none => (.ok {}, state)
  | some counter =>
    ((Script.entry counter.rule.reads counter.reads).getD
        (.ok (Script.plainCount counter.config counter.cpu)),
      { state with counters := state.counters.set id { counter with reads := counter.reads + 1 } })

def close (id : Nat) (state : ScriptState) : Except Error Unit × ScriptState :=
  (answer ((state.counters[id]?).bind fun counter => counter.rule.close?), state)

/-- The backend that follows a script.  It knows nothing of threads. -/
def backend (script : BackendScript) : Backend ScriptState Nat where
  check options := fun state =>
    (answer (if options.measureAll then script.denyAll? else script.denyOwn?), state)
  openCounter attr _ cpu _ := script.openCounter attr.config cpu
  start := start
  stopAndRead := stopAndRead
  close := close
  threadCpus? := fun state => (none, state)
  moveThread _ := fun state => state

end BackendScript

end HardwareCounters
