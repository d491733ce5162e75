/-
# Counter backends

A backend opens counters and works them.  It is given by its operations on a state of its own; each
of them returns the new state whether it succeeds or fails.  A counter is known by a handle, and all
that changes about it is part of the state.

* `Backend.recorded` keeps a log of the calls that reach a backend, with their results.
-/
import HardwareCounters.Counter.Basic
import HardwareCounters.Error

namespace HardwareCounters

/-- Something that can open counters, with states in `σ` and handles in `η`. -/
structure Backend (σ η : Type) where
  /-- Refuses options before any counter is opened. -/
  check : OpenOptions → σ → Except Error Unit × σ
  /-- Opens a counter on a processor, possibly in the group of another counter. -/
  openCounter : Attribute → OpenOptions → Nat → Option η → σ → Except Error η × σ
  /-- Zeroes a counter and lets it count. -/
  start : η → σ → Except Error Unit × σ
  /-- Stops a counter and reads it. -/
  stopAndRead : η → σ → Except Error Count × σ
  /-- Releases a counter. -/
  close : η → σ → Except Error Unit × σ
  /-- The processors on which the calling thread may run, if they are known. -/
  threadCpus? : σ → Option (List Nat) × σ
  /-- Moves the calling thread to processors, if that is possible. -/
  moveThread : List Nat → σ → σ

/-- A call that reached a backend, and its result. -/
inductive BackendCall (η : Type) where
  | check (options : OpenOptions) (result : Except Error Unit)
  | openCounter (attr : Attribute) (options : OpenOptions) (cpu : Nat) (leader? : Option η)
      (result : Except Error η)
  | start (handle : η) (result : Except Error Unit)
  | stopAndRead (handle : η) (result : Except Error Count)
  | close (handle : η) (result : Except Error Unit)

namespace Backend

variable {σ η : Type}

/-- Adds a call to the log behind a state. -/
def record {α : Type} (call : Except Error α → BackendCall η) (log : List (BackendCall η))
    (outcome : Except Error α × σ) : Except Error α × σ × List (BackendCall η) :=
  (outcome.1, outcome.2, log ++ [call outcome.1])

/-- The same backend with a log of the calls that concern counters. -/
def recorded (b : Backend σ η) : Backend (σ × List (BackendCall η)) η where
  check options := fun (w, log) => record (.check options) log (b.check options w)
  openCounter attr options cpu leader? := fun (w, log) =>
    record (.openCounter attr options cpu leader?) log (b.openCounter attr options cpu leader? w)
  start handle := fun (w, log) => record (.start handle) log (b.start handle w)
  stopAndRead handle := fun (w, log) => record (.stopAndRead handle) log (b.stopAndRead handle w)
  close handle := fun (w, log) => record (.close handle) log (b.close handle w)
  threadCpus? := fun (w, log) => ((b.threadCpus? w).1, (b.threadCpus? w).2, log)
  moveThread cpus := fun (w, log) => (b.moveThread cpus w, log)

end Backend

end HardwareCounters
