/-
# What the loops of a session leave in the log of a backend

Every statement about the handles of a session is a statement about the calls that reached its
backend.  The log of `Backend.recorded` has them in order; this file says which handles a log has
seen opened and closed, and what the loops that start, read and close counters add to it.

* `openedHandles` and `closedHandles` are the handles that a log has seen opened and closed;
* `Starting`, `Reading` and `Closing` say what each loop can do; `startAll_recorded`,
  `readEvents_recorded` and `closeAll_recorded` prove that every run is one of these.
-/
import HardwareCounters.Session.Run

namespace HardwareCounters

variable {σ η : Type}

/-! ## 1. Opened and closed handles -/

/-- The handle that a call obtained. -/
def BackendCall.opened? : BackendCall η → Option η
  | .openCounter _ _ _ _ (.ok handle) => some handle
  | _ => none

/-- The handle that a call released, whether or not that failed. -/
def BackendCall.closed? : BackendCall η → Option η
  | .close handle _ => some handle
  | _ => none

/-- The handles that a log has seen opened, in order. -/
def openedHandles (calls : List (BackendCall η)) : List η := calls.filterMap BackendCall.opened?

/-- The handles that a log has seen closed, in order. -/
def closedHandles (calls : List (BackendCall η)) : List η := calls.filterMap BackendCall.closed?

@[simp] theorem openedHandles_append (calls more : List (BackendCall η)) :
    openedHandles (calls ++ more) = openedHandles calls ++ openedHandles more :=
  List.filterMap_append

@[simp] theorem closedHandles_append (calls more : List (BackendCall η)) :
    closedHandles (calls ++ more) = closedHandles calls ++ closedHandles more :=
  List.filterMap_append

/-! ## 2. The calls of a recorded backend -/

namespace Backend

variable (b : Backend σ η) (w : σ) (log : List (BackendCall η))

@[simp] theorem recorded_check (options : OpenOptions) :
    b.recorded.check options (w, log) =
      ((b.check options w).1, (b.check options w).2,
        log ++ [.check options (b.check options w).1]) := rfl

@[simp] theorem recorded_openCounter (attr : Attribute) (options : OpenOptions) (cpu : Nat)
    (leader? : Option η) :
    b.recorded.openCounter attr options cpu leader? (w, log) =
      ((b.openCounter attr options cpu leader? w).1, (b.openCounter attr options cpu leader? w).2,
        log ++ [.openCounter attr options cpu leader?
          (b.openCounter attr options cpu leader? w).1]) := rfl

@[simp] theorem recorded_start (handle : η) :
    b.recorded.start handle (w, log) =
      ((b.start handle w).1, (b.start handle w).2, log ++ [.start handle (b.start handle w).1]) :=
  rfl

@[simp] theorem recorded_stopAndRead (handle : η) :
    b.recorded.stopAndRead handle (w, log) =
      ((b.stopAndRead handle w).1, (b.stopAndRead handle w).2,
        log ++ [.stopAndRead handle (b.stopAndRead handle w).1]) := rfl

@[simp] theorem recorded_close (handle : η) :
    b.recorded.close handle (w, log) =
      ((b.close handle w).1, (b.close handle w).2, log ++ [.close handle (b.close handle w).1]) :=
  rfl

@[simp] theorem recorded_threadCpus? :
    b.recorded.threadCpus? (w, log) = ((b.threadCpus? w).1, (b.threadCpus? w).2, log) := rfl

@[simp] theorem recorded_moveThread (cpus : List Nat) :
    b.recorded.moveThread cpus (w, log) = (b.moveThread cpus w, log) := rfl

end Backend

/-! ## 3. Starting, reading and closing

As for opening, each loop has a relation that says everything the loop can do. -/

/-- What starting counters can do: each is started in order, up to the first that fails. -/
inductive Starting : List η → List (BackendCall η) → Except Error Unit → Prop
  | done : Starting [] [] (.ok ())
  | failed (handle : η) (handles : List η) (e : Error) :
      Starting (handle :: handles) [.start handle (.error e)] (.error e)
  | started {handles : List η} {calls : List (BackendCall η)} {result : Except Error Unit}
      (handle : η) (rest : Starting handles calls result) :
      Starting (handle :: handles) (.start handle (.ok ()) :: calls) result

/-- What reading the slots of an event can do: each counter is read in order, up to the first empty
slot or the first counter that fails.  A counter that has been read has recorded it. -/
inductive SlotReading :
    List (Slot η) → Word → List (BackendCall η) → Except Error Word → List (Slot η) → Prop
  | done (sum : Word) : SlotReading [] sum [] (.ok sum) []
  | gap (slots : List (Slot η)) (sum : Word) :
      SlotReading (none :: slots) sum [] (.ok sum) (none :: slots)
  | failed (counter : CpuCounter η) (slots : List (Slot η)) (sum : Word) (e : Error) :
      SlotReading (some counter :: slots) sum [.stopAndRead counter.handle (.error e)] (.error e)
        (some counter :: slots)
  | read {slots reached : List (Slot η)} {sum : Word} {calls : List (BackendCall η)}
      {result : Except Error Word} (counter : CpuCounter η) (count : Count)
      (rest : SlotReading slots (sum + (counter.record count).scaled) calls result reached) :
      SlotReading (some counter :: slots) sum (.stopAndRead counter.handle (.ok count) :: calls)
        result (some (counter.record count) :: reached)

/-- What reading events can do.  The sum of an event is replaced only when all its slots have been
gone through. -/
inductive Reading :
    List (SessionEvent η) → List (BackendCall η) → Except Error Unit → List (SessionEvent η) → Prop
  | done : Reading [] [] (.ok ()) []
  | failed {event : SessionEvent η} {calls : List (BackendCall η)} {slots : List (Slot η)}
      {e : Error} (events : List (SessionEvent η))
      (h : SlotReading event.slots 0 calls (.error e) slots) :
      Reading (event :: events) calls (.error e) ({ event with slots } :: events)
  | read {event : SessionEvent η} {events reached : List (SessionEvent η)}
      {calls more : List (BackendCall η)} {slots : List (Slot η)} {totalSum : Word}
      {result : Except Error Unit} (h : SlotReading event.slots 0 calls (.ok totalSum) slots)
      (rest : Reading events more result reached) :
      Reading (event :: events) (calls ++ more) result ({ event with slots, totalSum } :: reached)

/-- What closing counters does: each is closed in order, and the first failure is the result. -/
inductive Closing : List η → List (BackendCall η) → Except Error Unit → Prop
  | done : Closing [] [] (.ok ())
  | closed {handles : List η} {calls : List (BackendCall η)} {result : Except Error Unit}
      (handle : η) (outcome : Except Error Unit) (rest : Closing handles calls result) :
      Closing (handle :: handles) (.close handle outcome :: calls)
        (Session.firstFailure outcome result)

theorem startAll_recorded (b : Backend σ η) (handles : List η) (w : σ)
    (log : List (BackendCall η)) :
    ∃ calls result w', Session.startAll b.recorded handles (w, log) = (result, w', log ++ calls) ∧
      Starting handles calls result := by
  induction handles generalizing w log with
  | nil => exact ⟨[], .ok (), w, by simp [Session.startAll], .done⟩
  | cons handle handles ih =>
    rcases hcall : b.start handle w with ⟨e | _, w₁⟩
    · exact ⟨_, .error e, w₁, by simp [Session.startAll, hcall], .failed handle handles e⟩
    · obtain ⟨calls, result, w', heq, hrest⟩ := ih w₁ (log ++ [.start handle (.ok ())])
      exact ⟨_, result, w', by simp [Session.startAll, hcall, heq], .started handle hrest⟩

theorem readSlots_recorded (b : Backend σ η) (slots : List (Slot η)) (sum : Word) (w : σ)
    (log : List (BackendCall η)) :
    ∃ calls result reached w',
      Session.readSlots b.recorded slots sum (w, log) = (result, reached, w', log ++ calls) ∧
      SlotReading slots sum calls result reached := by
  induction slots generalizing sum w log with
  | nil => exact ⟨[], .ok sum, [], w, by simp [Session.readSlots], .done sum⟩
  | cons slot slots ih =>
    cases slot with
    | none => exact ⟨[], .ok sum, _, w, by simp [Session.readSlots], .gap slots sum⟩
    | some counter =>
      rcases hcall : b.stopAndRead counter.handle w with ⟨e | count, w₁⟩
      · exact ⟨_, .error e, _, w₁, by simp [Session.readSlots, hcall],
          .failed counter slots sum e⟩
      · obtain ⟨calls, result, reached, w', heq, hrest⟩ :=
          ih (sum + (counter.record count).scaled) w₁
            (log ++ [.stopAndRead counter.handle (.ok count)])
        exact ⟨_, result, _, w', by simp [Session.readSlots, hcall, heq],
          .read counter count hrest⟩

theorem readEvents_recorded (b : Backend σ η) (events : List (SessionEvent η)) (w : σ)
    (log : List (BackendCall η)) :
    ∃ calls result reached w',
      Session.readEvents b.recorded events (w, log) = (result, reached, w', log ++ calls) ∧
      Reading events calls result reached := by
  induction events generalizing w log with
  | nil => exact ⟨[], .ok (), [], w, by simp [Session.readEvents], .done⟩
  | cons event events ih =>
    obtain ⟨calls, result, slots, w₁, hslots, hread⟩ := readSlots_recorded b event.slots 0 w log
    cases result with
    | error e =>
      exact ⟨calls, .error e, _, w₁, by simp only [Session.readEvents, hslots],
        .failed events hread⟩
    | ok totalSum =>
      obtain ⟨more, result, reached, w', heq, hrest⟩ := ih w₁ (log ++ calls)
      exact ⟨calls ++ more, result, _, w', by
        simp only [Session.readEvents, hslots, heq, List.append_assoc], .read hread hrest⟩

theorem closeAll_recorded (b : Backend σ η) (handles : List η) (w : σ)
    (log : List (BackendCall η)) :
    ∃ calls result w', Session.closeAll b.recorded handles (w, log) = (result, w', log ++ calls) ∧
      Closing handles calls result := by
  induction handles generalizing w log with
  | nil => exact ⟨[], .ok (), w, by simp [Session.closeAll], .done⟩
  | cons handle handles ih =>
    rcases hcall : b.close handle w with ⟨outcome, w₁⟩
    obtain ⟨calls, result, w', heq, hrest⟩ := ih w₁ (log ++ [.close handle outcome])
    exact ⟨_, _, w', by simp [Session.closeAll, hcall, heq], .closed handle outcome hrest⟩

/-! ## 4. What the loops do to the handles -/

theorem Starting.openedHandles_eq {handles : List η} {calls : List (BackendCall η)}
    {result : Except Error Unit} (h : Starting handles calls result) :
    openedHandles calls = [] ∧ closedHandles calls = [] := by
  induction h with
  | done => exact ⟨rfl, rfl⟩
  | failed => exact ⟨rfl, rfl⟩
  | started _ _ ih => exact ih

theorem SlotReading.openedHandles_eq {slots reached : List (Slot η)} {sum : Word}
    {calls : List (BackendCall η)} {result : Except Error Word}
    (h : SlotReading slots sum calls result reached) :
    openedHandles calls = [] ∧ closedHandles calls = [] := by
  induction h with
  | done => exact ⟨rfl, rfl⟩
  | gap => exact ⟨rfl, rfl⟩
  | failed => exact ⟨rfl, rfl⟩
  | read _ _ _ ih => exact ih

/-- Reading replaces no handle. -/
theorem SlotReading.handles_eq {slots reached : List (Slot η)} {sum : Word}
    {calls : List (BackendCall η)} {result : Except Error Word}
    (h : SlotReading slots sum calls result reached) :
    reached.map (Option.map CpuCounter.handle) = slots.map (Option.map CpuCounter.handle) := by
  induction h with
  | done => rfl
  | gap => rfl
  | failed => rfl
  | read _ _ _ ih =>
    rw [List.map_cons, List.map_cons, ih]
    rfl

theorem Reading.openedHandles_eq {events reached : List (SessionEvent η)}
    {calls : List (BackendCall η)} {result : Except Error Unit}
    (h : Reading events calls result reached) :
    openedHandles calls = [] ∧ closedHandles calls = [] := by
  induction h with
  | done => exact ⟨rfl, rfl⟩
  | failed _ h => exact h.openedHandles_eq
  | read h _ ih =>
    rw [openedHandles_append, closedHandles_append, h.openedHandles_eq.1, h.openedHandles_eq.2]
    exact ih

theorem SessionEvent.handles_eq_filterMap_map (event : SessionEvent η) :
    event.handles = (event.slots.map (Option.map CpuCounter.handle)).filterMap id := by
  rw [List.filterMap_map]
  rfl

theorem Reading.flatMap_handles {events reached : List (SessionEvent η)}
    {calls : List (BackendCall η)} {result : Except Error Unit}
    (h : Reading events calls result reached) :
    reached.flatMap SessionEvent.handles = events.flatMap SessionEvent.handles := by
  induction h with
  | done => rfl
  | failed events h =>
    rw [List.flatMap_cons, List.flatMap_cons, SessionEvent.handles_eq_filterMap_map, h.handles_eq,
      ← SessionEvent.handles_eq_filterMap_map]
  | read h _ ih =>
    rw [List.flatMap_cons, List.flatMap_cons, SessionEvent.handles_eq_filterMap_map, h.handles_eq,
      ← SessionEvent.handles_eq_filterMap_map, ih]

/-- Closing releases every handle once, in order. -/
theorem Closing.openedHandles_eq {handles : List η} {calls : List (BackendCall η)}
    {result : Except Error Unit} (h : Closing handles calls result) :
    openedHandles calls = [] ∧ closedHandles calls = handles := by
  induction h with
  | done => exact ⟨rfl, rfl⟩
  | closed handle _ _ ih => exact ⟨ih.1, congrArg (handle :: ·) ih.2⟩

end HardwareCounters
