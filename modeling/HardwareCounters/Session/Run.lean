/-
# Starting, stopping and closing a session

Starting and stopping go through the counters by event and then by processor and end at the first
failure.  Closing goes through all of them whatever happens, and reports the first failure.
-/
import HardwareCounters.Session.Basic

namespace HardwareCounters

variable {σ η : Type}

namespace Session

/-! ## 1. Starting -/

def startAll (b : Backend σ η) : List η → σ → Except Error Unit × σ
  | [], w => (.ok (), w)
  | handle :: handles, w =>
    match b.start handle w with
    | (.error e, w) => (.error e, w)
    | (.ok (), w) => startAll b handles w

def start (b : Backend σ η) (session : Session η) (w : σ) : Except Error Unit × Session η × σ :=
  match session.refusalOrEmpty? .start with
  | some e => (.error e, session, w)
  | none =>
    match startAll b session.handles w with
    | (.error e, w) => (.error e, session, w)
    | (.ok (), w) => (.ok (), { session with state := .running }, w)

/-! ## 2. Stopping -/

/-- Reads the counters of an event up to the first empty slot.  The sum of their scaled values and
`sum` is the result. -/
def readSlots (b : Backend σ η) : List (Slot η) → Word → σ → Except Error Word × List (Slot η) × σ
  | [], sum, w => (.ok sum, [], w)
  | none :: slots, sum, w => (.ok sum, none :: slots, w)
  | some counter :: slots, sum, w =>
    match b.stopAndRead counter.handle w with
    | (.error e, w) => (.error e, some counter :: slots, w)
    | (.ok count, w) =>
      let counter := counter.record count
      match readSlots b slots (sum + counter.scaled) w with
      | (result, slots, w) => (result, some counter :: slots, w)

def readEvents (b : Backend σ η) :
    List (SessionEvent η) → σ → Except Error Unit × List (SessionEvent η) × σ
  | [], w => (.ok (), [], w)
  | event :: events, w =>
    match readSlots b event.slots 0 w with
    | (.error e, slots, w) => (.error e, { event with slots } :: events, w)
    | (.ok totalSum, slots, w) =>
      match readEvents b events w with
      | (result, events, w) => (result, { event with slots, totalSum } :: events, w)

/-- Stops and reads every counter, and adds up the scaled values of each event. -/
def stop (b : Backend σ η) (session : Session η) (w : σ) : Except Error Unit × Session η × σ :=
  match session.refusalOrEmpty? .stop with
  | some e => (.error e, session, w)
  | none =>
    match readEvents b session.events w with
    | (.error e, events, w) => (.error e, { session with events }, w)
    | (.ok (), events, w) => (.ok (), { session with events, state := .stopped }, w)

/-! ## 3. Closing -/

/-- The first failure of two operations. -/
def firstFailure : Except Error Unit → Except Error Unit → Except Error Unit
  | .error e, _ => .error e
  | .ok (), second => second

/-- Closes counters in order.  The first failure is the result. -/
def closeAll (b : Backend σ η) : List η → σ → Except Error Unit × σ
  | [], w => (.ok (), w)
  | handle :: handles, w =>
    let (first, w) := b.close handle w
    let (others, w) := closeAll b handles w
    (firstFailure first others, w)

/-- Releases every counter.  They are not stopped before. -/
def close (b : Backend σ η) (session : Session η) (w : σ) : Except Error Unit × Session η × σ :=
  let (result, w) := closeAll b session.handles w
  (result,
    { session with
      events := session.events.map fun event => { event with slots := [] }
      state := .closed }, w)

end Session

end HardwareCounters
