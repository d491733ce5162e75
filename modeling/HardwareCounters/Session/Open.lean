/-
# Opening a session

Opening goes through the events in order and, for each event, through the processors.  The counter
of an event joins the group of the last leader whose group has not ended, on the same processor.
The first counter that cannot be opened ends the operation; the counters before it stay open.

* `target_lt`: the processors of an event that is not counted once for all lie below the number of
  processors.
-/
import HardwareCounters.Session.Basic

namespace HardwareCounters

variable {σ η : Type}

/-! ## 1. One event -/

/-- The processors on which an event is opened, in order.  An event that is counted once for all
processors is opened on processor 0 first. -/
def targetCpus (cpuCount : Nat) (uncore : Bool) : List Nat :=
  if uncore then 0 :: List.range' 1 (cpuCount - 1) else List.range cpuCount

theorem target_lt {cpuCount cpu : Nat} (h : cpu ∈ targetCpus cpuCount false) : cpu < cpuCount := by
  simpa [targetCpus] using h

/-- Opens an event on processors in order, each time from the processor itself. -/
def SessionEvent.openOn (b : Backend σ η) (options : OpenOptions)
    (leader? : Option (SessionEvent η)) :
    List Nat → SessionEvent η → σ → Except Error Unit × SessionEvent η × σ
  | [], event, w => (.ok (), event, w)
  | cpu :: cpus, event, w =>
    let leaderHandle? := leader?.bind fun leader => leader.handle? cpu
    match b.openCounter event.attr options cpu leaderHandle? (b.moveThread [cpu] w) with
    | (.error e, w) => (.error (.openFailed event.name cpu e.message), event, w)
    | (.ok handle, w) =>
      if cpu < event.slots.length then
        SessionEvent.openOn b options leader? cpus (event.setCounter cpu { handle }) w
      else (.error (.noSlot cpu), event, w)

def SessionEvent.prepare (event : SessionEvent η) (cpuCount : Nat) : SessionEvent η :=
  { event with slots := List.replicate cpuCount none, totalSum := 0 }

/-! ## 2. All events -/

/-- The leader of the group to which the event after `event` belongs. -/
def nextLeader? (leader? : Option (SessionEvent η)) (event : SessionEvent η) :
    Option (SessionEvent η) :=
  if event.endsGroup then none
  else if event.leader then some event
  else leader?

def Session.openEvents (b : Backend σ η) (options : OpenOptions) (cpuCount : Nat) :
    Option (SessionEvent η) → List (SessionEvent η) → σ →
      Except Error Unit × List (SessionEvent η) × σ
  | _, [], w => (.ok (), [], w)
  | leader?, event :: events, w =>
    let cpus := targetCpus cpuCount event.uncore
    match (event.prepare cpuCount).openOn b options leader? cpus w with
    | (.error e, reached, w) => (.error e, reached :: events, w)
    | (.ok (), opened, w) =>
      match Session.openEvents b options cpuCount (nextLeader? leader? opened) events w with
      | (result, others, w) => (result, opened :: others, w)

/-- Opens one counter for each event and processor.  The backend may refuse the options, which
leaves the session as it was.  The thread is back on its processors afterwards, also after a
failure. -/
def Session.openCounters (b : Backend σ η) (measureAll : Bool) (pid : Int) (session : Session η)
    (w : σ) : Except Error Unit × Session η × σ :=
  match session.refusalOrEmpty? .open with
  | some e => (.error e, session, w)
  | none =>
    let options : OpenOptions := { pid, measureAll }
    match b.check options w with
    | (.error e, w) => (.error e, session, w)
    | (.ok (), w) =>
      let (home?, w) := b.threadCpus? w
      let (result, events, w) :=
        Session.openEvents b options session.cpuCount none session.events w
      let w := match home? with
        | none => w
        | some cpus => b.moveThread cpus w
      (result, { session with events, state := .opened }, w)

end HardwareCounters
