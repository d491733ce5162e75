/-
# Only parsing replaces the events

Opening an event gives it slots and a sum of zero, reading it changes slots and the sum, and closing
it takes the slots away; its name, its attribute and its place in a group stay as they were parsed.
So a session has the events of the last expression that it parsed, whatever has been opened, read or
closed since and whatever failed.  This also holds of a session without processors.

* `Session.plan` are the events without what was measured; `plan_perform` and `plan_performAll` say
  that commands other than parsing keep them.
-/
import HardwareCounters.Proofs.Session.Command

namespace HardwareCounters

variable {σ η : Type}

/-! ## 1. Events as they were parsed -/

/-- The event without its counters. -/
def SessionEvent.asParsed (event : SessionEvent η) : SessionEvent η :=
  { event with slots := [], totalSum := 0 }

/-- The events of a session without their counters. -/
def Session.plan (session : Session η) : List (SessionEvent η) :=
  session.events.map SessionEvent.asParsed

/-- The operation that a command asks for, if it is one that depends on the state. -/
def SessionCommand.operation? : SessionCommand → Option SessionOperation
  | .parse _ _ => some .parse
  | .open _ _ => some .open
  | .start => some .start
  | .stop => some .stop
  | .close => none

theorem Session.events_eq_nil_iff_plan {session : Session η} :
    session.events = [] ↔ session.plan = [] :=
  List.map_eq_nil_iff.symm

/-! ## 2. The loops -/

theorem SessionEvent.asParsed_openOn (b : Backend σ η) (options : OpenOptions)
    (leader? : Option (SessionEvent η)) (cpus : List Nat) (event : SessionEvent η) (w : σ) :
    (event.openOn b options leader? cpus w).2.1.asParsed = event.asParsed := by
  induction cpus generalizing event w with
  | nil => rfl
  | cons cpu cpus ih =>
    rw [SessionEvent.openOn]
    split
    · rfl
    · split
      · rw [ih]
        rfl
      · rfl

theorem Session.map_asParsed_openEvents (b : Backend σ η) (options : OpenOptions) (n : Nat)
    (leader? : Option (SessionEvent η)) (events : List (SessionEvent η)) (w : σ) :
    (Session.openEvents b options n leader? events w).2.1.map SessionEvent.asParsed =
      events.map SessionEvent.asParsed := by
  induction events generalizing leader? w with
  | nil => rfl
  | cons event events ih =>
    have hevent := (event.prepare n).asParsed_openOn b options leader?
      (targetCpus n event.uncore) w
    rw [Session.openEvents]
    split
    · rename_i heq
      rw [heq] at hevent
      rw [List.map_cons, List.map_cons, hevent]
      rfl
    · rename_i heq
      rw [heq] at hevent
      rw [List.map_cons, List.map_cons, hevent, ih]
      rfl

theorem Session.map_asParsed_readEvents (b : Backend σ η) (events : List (SessionEvent η)) (w : σ) :
    (Session.readEvents b events w).2.1.map SessionEvent.asParsed =
      events.map SessionEvent.asParsed := by
  induction events generalizing w with
  | nil => rfl
  | cons event events ih =>
    rw [Session.readEvents]
    split
    · rfl
    · exact congrArg (event.asParsed :: ·) (ih _)

/-! ## 3. Commands -/

/-- **The step.**  A command that parses nothing keeps the events as they were parsed. -/
theorem Session.plan_perform (b : Backend σ η) (session : Session η) {command : SessionCommand}
    (h : command.operation? ≠ some .parse) (w : σ) :
    (session.perform b command w).2.1.plan = session.plan := by
  cases command with
  | parse expression resolver => exact absurd rfl h
  | «open» measureAll pid =>
    rw [Session.perform, Session.openCounters]
    split
    · rfl
    · dsimp only
      split
      · rfl
      · exact Session.map_asParsed_openEvents b _ _ none session.events _
  | start =>
    rw [Session.perform, Session.start]
    split
    · rfl
    · split
      · rfl
      · rfl
  | stop =>
    have hread := Session.map_asParsed_readEvents b session.events w
    rw [Session.perform, Session.stop]
    split
    · rfl
    · split
      · rename_i heq
        rwa [heq] at hread
      · rename_i heq
        rwa [heq] at hread
  | close =>
    rw [Session.perform, Session.close, Session.plan, Session.plan]
    simp only [List.map_map]
    rfl

/-- **The run.**  Commands that parse nothing keep the events as they were parsed. -/
theorem Session.plan_performAll (b : Backend σ η) (session : Session η)
    {commands : List SessionCommand}
    (h : ∀ command ∈ commands, command.operation? ≠ some .parse) (w : σ) :
    (Session.performAll b commands session w).1.plan = session.plan := by
  induction commands generalizing session w with
  | nil => rfl
  | cons command commands ih =>
    obtain ⟨hfirst, hrest⟩ := List.forall_mem_cons.mp h
    exact (ih _ hrest _).trans (session.plan_perform b hfirst w)

end HardwareCounters
