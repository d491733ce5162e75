/-
# What a start or a stop that fails leaves behind

Starting and stopping go through the counters by event and then by processor and end at the first
failure.  A start that fails has started the counters before that one and changed nothing in the
session.  A stop that fails has recorded the readings of the counters before that one, and has
replaced the sums of the events before that of the counter: sums are replaced an event at a time,
counters one by one.

* `countersBefore`: the counters before a place, in order;
* `Starting.exists_failed` and `Reading.interrupted`: what each loop has done when it fails;
* `failing_start_and_stop` says both for every backend and every sequence of commands.
-/
import HardwareCounters.Proofs.Session.Occupancy
import HardwareCounters.Proofs.Session.Readings
import HardwareCounters.Proofs.Session.Refusal

namespace HardwareCounters

variable {σ η : Type}

/-! ## 1. Places of counters -/

/-- The counter of the event number `i` on a processor. -/
def counterAt? (events : List (SessionEvent η)) (i cpu : Nat) : Option (CpuCounter η) :=
  (events[i]?).bind fun event => event.counter? cpu

/-- The counters before that of the event number `i` on processor `c`, by event and then by
processor. -/
def countersBefore : List (SessionEvent η) → Nat → Nat → List (CpuCounter η)
  | [], _, _ => []
  | event :: _, 0, c => (event.slots.take c).filterMap id
  | event :: events, i + 1, c => event.counters ++ countersBefore events i c

/-- Reading events fails at the counter of the event number `i` on processor `c`, after these
calls. -/
structure Interrupted (events reached : List (SessionEvent η)) (calls : List (BackendCall η))
    (e : Error) (i c : Nat) : Prop where
  /-- The counters before that one were read, each by one call, and have recorded what was read. -/
  recorded : ∃ counter counts, counterAt? events i c = some counter ∧
    counts.length = (countersBefore events i c).length ∧
    calls = readCalls ((countersBefore events i c).map CpuCounter.handle) counts ++
      [.stopAndRead counter.handle (.error e)] ∧
    countersBefore reached i c = List.zipWith CpuCounter.record (countersBefore events i c) counts
  /-- That counter and those after it are as they were. -/
  counter_eq : ∀ j cpu, i < j ∨ i = j ∧ c ≤ cpu →
    counterAt? reached j cpu = counterAt? events j cpu
  /-- The sums of the events before are those of their counters. -/
  sum_eq : ∀ j < i, ∀ event, reached[j]? = some event →
    event.totalSum = BitVec.ofNat 64 (wordTotal event.scaledValues)
  /-- The sums of that event and of those after it are as they were. -/
  sum_kept : ∀ j, i ≤ j →
    (reached[j]?).map SessionEvent.totalSum = (events[j]?).map SessionEvent.totalSum
  /-- No counter has come or gone. -/
  occupancy_eq : reached.map SessionEvent.occupancy = events.map SessionEvent.occupancy
  /-- What was parsed is as it was. -/
  asParsed_eq : reached.map SessionEvent.asParsed = events.map SessionEvent.asParsed

/-! ## 2. What a start has done when it fails -/

/-- A start that fails has started the counters before the one at which it fails. -/
theorem Starting.exists_failed {handles : List η} {calls : List (BackendCall η)}
    {result : Except Error Unit} (h : Starting handles calls result) {e : Error}
    (he : result = .error e) :
    ∃ (k : Nat) (handle : η), handles[k]? = some handle ∧
      calls = (handles.take k).map (fun other => .start other (.ok ())) ++
        [.start handle (.error e)] := by
  induction h with
  | done => cases he
  | failed handle handles e' =>
    cases he
    exact ⟨0, handle, rfl, rfl⟩
  | started first _ ih =>
    obtain ⟨k, handle, hhandle, rfl⟩ := ih he
    exact ⟨k + 1, handle, hhandle, rfl⟩

/-! ## 3. What a stop has done when it fails -/

/-- **One event.**  Reading that fails has recorded the readings of the counters before the one at
which it fails. -/
theorem SlotReading.exists_failed {slots reached : List (Slot η)} {sum : Word}
    {calls : List (BackendCall η)} {result : Except Error Word}
    (h : SlotReading slots sum calls result reached) {e : Error} (he : result = .error e) :
    ∃ (c : Nat) (counter : CpuCounter η) (counts : List Count),
      slots[c]? = some (some counter) ∧
      counts.length = ((slots.take c).filterMap id).length ∧
      calls = readCalls (((slots.take c).filterMap id).map CpuCounter.handle) counts ++
        [.stopAndRead counter.handle (.error e)] ∧
      (reached.take c).filterMap id =
        List.zipWith CpuCounter.record ((slots.take c).filterMap id) counts ∧
      reached.drop c = slots.drop c := by
  induction h with
  | done => cases he
  | gap => cases he
  | failed counter slots sum e' =>
    cases he
    exact ⟨0, counter, [], rfl, rfl, rfl, rfl, rfl⟩
  | read first count _ ih =>
    obtain ⟨c, counter, counts, hcounter, hlen, rfl, hrecord, hdrop⟩ := ih he
    refine ⟨c + 1, counter, count :: counts, hcounter, congrArg Nat.succ hlen, rfl, ?_, hdrop⟩
    exact congrArg (first.record count :: ·) hrecord

/-- The first event is the one at which reading fails. -/
theorem interrupted_zero {event : SessionEvent η} {slots : List (Slot η)}
    {calls : List (BackendCall η)} {e : Error} (events : List (SessionEvent η))
    (h : SlotReading event.slots 0 calls (.error e) slots) :
    ∃ c, Interrupted (event :: events) ({ event with slots } :: events) calls e 0 c := by
  obtain ⟨c, counter, counts, hcounter, hlen, hcalls, hrecord, hdrop⟩ := h.exists_failed rfl
  have hsame : ∀ cpu, c ≤ cpu → slots[cpu]? = event.slots[cpu]? := by
    intro cpu hcpu
    obtain ⟨k, rfl⟩ := Nat.exists_eq_add_of_le hcpu
    rw [← List.getElem?_drop, ← List.getElem?_drop, hdrop]
  refine ⟨c, ⟨counter, counts, ?_, hlen, hcalls, hrecord⟩, ?_, ?_, ?_, ?_, rfl⟩
  · change (event.slots[c]?).join = some counter
    rw [hcounter]
    rfl
  · rintro (_ | j) cpu hplace
    · have hcpu : c ≤ cpu := by omega
      change (slots[cpu]?).join = (event.slots[cpu]?).join
      rw [hsame cpu hcpu]
    · rfl
  · intro j hj
    cases hj
  · rintro (_ | j) _
    · rfl
    · rfl
  · rw [List.map_cons, List.map_cons]
    exact congrArg (· :: _) h.map_isSome

/-- If reading fails in a later event, the first one has been read and its sum replaced. -/
theorem Interrupted.succ {event : SessionEvent η} {events reached : List (SessionEvent η)}
    {calls more : List (BackendCall η)} {slots : List (Slot η)} {totalSum : Word} {e : Error}
    {i c : Nat} (hgap : Gapless event.occupancy)
    (hslots : SlotReading event.slots 0 calls (.ok totalSum) slots)
    (h : Interrupted events reached more e i c) :
    Interrupted (event :: events) ({ event with slots, totalSum } :: reached) (calls ++ more) e
      (i + 1) c := by
  obtain ⟨⟨first, hlen, hcalls, hrecord⟩, htotal⟩ := hslots.complete hgap rfl
  obtain ⟨counter, counts, hcounter, hlen', hmore, hrecord'⟩ := h.recorded
  have hhandles : (event.slots.filterMap fun slot => slot.map CpuCounter.handle) =
      event.counters.map CpuCounter.handle := event.handles_eq_map_counters
  have hfirst : first.length = event.counters.length := by
    rw [hlen, hhandles, List.length_map]
  constructor
  · refine ⟨counter, first ++ counts, hcounter, ?_, ?_, ?_⟩
    · rw [countersBefore, List.length_append, List.length_append, hfirst, hlen']
    · rw [hcalls, hmore, hhandles, countersBefore, List.map_append, readCalls, readCalls, readCalls,
        List.zipWith_append (by rw [List.length_map, hfirst]), List.append_assoc]
    · rw [countersBefore, countersBefore, List.zipWith_append hfirst.symm, ← hrecord']
      exact congrArg (· ++ _) hrecord
  · rintro (_ | j) cpu hplace
    · omega
    · exact h.counter_eq j cpu (by omega)
  · rintro (_ | j) hj other hother
    · cases hother
      exact htotal.trans (BitVec.zero_add _)
    · exact h.sum_eq j (by omega) other hother
  · rintro (_ | j) hj
    · omega
    · exact h.sum_kept j (by omega)
  · rw [List.map_cons, List.map_cons, h.occupancy_eq]
    exact congrArg (· :: _) hslots.map_isSome
  · rw [List.map_cons, List.map_cons, h.asParsed_eq]
    rfl

/-- **All events.**  Where nothing stands behind a gap, reading that fails is interrupted at a
counter. -/
theorem Reading.interrupted {events reached : List (SessionEvent η)}
    {calls : List (BackendCall η)} {result : Except Error Unit}
    (h : Reading events calls result reached) (hgap : ∀ event ∈ events, Gapless event.occupancy)
    {e : Error} (he : result = .error e) : ∃ i c, Interrupted events reached calls e i c := by
  induction h with
  | done => cases he
  | failed events h =>
    cases he
    exact ⟨0, interrupted_zero events h⟩
  | read hslots _ ih =>
    obtain ⟨hfirst, hothers⟩ := List.forall_mem_cons.mp hgap
    obtain ⟨i, c, hinterrupted⟩ := ih hothers he
    exact ⟨i + 1, c, hinterrupted.succ hfirst hslots⟩

/-! ## 4. Every history -/

theorem gapless_of_history (b : Backend σ η) (n : Nat) (w : σ) (commands : List SessionCommand)
    {session : Session η} {log : List (BackendCall η)}
    (h : Session.history b n w commands = (session, log)) :
    ∀ event ∈ session.events, Gapless event.occupancy := by
  intro event hevent
  cases n with
  | zero =>
    -- Without processors there are no slots.
    have hfits := fits_of_history b 0 w commands
    rw [h] at hfits
    have hslots : event.slots = [] :=
      List.length_eq_zero_iff.mp (Nat.le_zero.mp (hfits.length_le event hevent))
    rw [SessionEvent.occupancy, hslots]
    trivial
  | succ n =>
    have hoccupied := occupied_of_history b (Nat.succ_pos n) w commands h
    exact hoccupied.filled.gapless _ (List.mem_map_of_mem hevent)

/-- **What a failure leaves behind.**  After every history on every backend, a start that is allowed
fails exactly if a call fails, with the error of that call; then each counter before that one was
started once, none after it was, and the session is as it was.  A stop of a running session fails
exactly if a call fails, with the error of that call; then the session is still running, and reading
was `Interrupted` at that counter: those before it show their new readings, the events before it
their new sums, and everything else is as it was. -/
theorem failing_start_and_stop (b : Backend σ η) (n : Nat) (w : σ)
    (commands : List SessionCommand) {session : Session η} {log : List (BackendCall η)}
    (h : Session.history b n w commands = (session, log)) :
    (∀ w₁ result after w₂ log', session.state ∈ SessionOperation.start.allowedIn →
      session.start b.recorded (w₁, log) = (result, after, w₂, log') →
      ∃ calls, log' = log ++ calls ∧ ∀ e,
        (result = .error e ↔ ∃ call ∈ calls, call.failure? = some e) ∧
        (result = .error e → after = session ∧
          ∃ (k : Nat) (handle : η), session.handles[k]? = some handle ∧
            calls = (session.handles.take k).map (fun other => .start other (.ok ())) ++
              [.start handle (.error e)])) ∧
    ∀ w₁ result after w₂ log', session.state = .running →
      session.stop b.recorded (w₁, log) = (result, after, w₂, log') →
      ∃ calls, log' = log ++ calls ∧ ∀ e,
        (result = .error e ↔ ∃ call ∈ calls, call.failure? = some e) ∧
        (result = .error e → after = { session with events := after.events } ∧
          ∃ i c, Interrupted session.events after.events calls e i c) := by
  have hstocked := stocked_of_history b n w commands
  rw [h] at hstocked
  constructor
  · intro w₁ result after w₂ log' hallowed hstart
    obtain ⟨calls, hlog, hstarting, hafter⟩ := hstocked.starting hallowed b hstart
    refine ⟨calls, hlog, ?_⟩
    intro e
    exact ⟨hstarting.result_eq_error_iff, fun he => ⟨hafter e he, hstarting.exists_failed he⟩⟩
  · intro w₁ result after w₂ log' hrunning hstop
    have hallowed : session.state ∈ SessionOperation.stop.allowedIn := by
      rw [hrunning]
      decide
    obtain ⟨calls, hlog, hreading, hafter⟩ := hstocked.reading hallowed b hstop
    have hgap := gapless_of_history b n w commands h
    refine ⟨calls, hlog, ?_⟩
    intro e
    exact ⟨hreading.result_eq_error_iff, fun he => ⟨hafter e he, hreading.interrupted hgap he⟩⟩

namespace Example

/-- A backend on which the second event cannot be started on processor 1 at first, and can never be
read there. -/
def failsHalfway : BackendScript :=
  { rules :=
      [{ selector := { config? := some 2, cpu? := some 1 }
         starts := [some .notCapable, none]
         reads := [some (.error .emptyEventList)] },
        { reads := [some (.ok ⟨10, 4, 2⟩)] }] }

def openingTwo : List SessionCommand :=
  [.parse "r1;r2".toList ⟨⟨[], {}⟩, {}⟩, .open false 7]

def afterStarts (starts : Nat) : Session Nat × ScriptState × List (BackendCall Nat) :=
  Session.performAll failsHalfway.backend.recorded
    (openingTwo ++ List.replicate starts .start) { cpuCount := 2 } ({}, [])

def startHalfway : Except Error Unit × Session Nat × ScriptState × List (BackendCall Nat) :=
  (afterStarts 0).1.start failsHalfway.backend.recorded (afterStarts 0).2

/-- What a stop gives after two starts. -/
def stopHalfway : Except Error Unit × Session Nat × ScriptState × List (BackendCall Nat) :=
  (afterStarts 2).1.stop failsHalfway.backend.recorded (afterStarts 2).2

end Example

open Example in
theorem failing_start_and_stop_halfway :
    (startHalfway.1 = .error .notCapable ∧ startHalfway.2.1 = (afterStarts 0).1) ∧
    (stopHalfway.1 = .error .emptyEventList ∧ stopHalfway.2.1.state = .running ∧
      stopHalfway.2.1.events.map SessionEvent.totalSum = [40, 0]) ∧
    ∃ calls i c, stopHalfway.2.2.2 = (afterStarts 2).2.2 ++ calls ∧
      Interrupted (afterStarts 2).1.events stopHalfway.2.1.events calls .emptyEventList i c := by
  have hopened : Session.history failsHalfway.backend 2 {} (openingTwo ++ List.replicate 0 .start) =
      ((afterStarts 0).1, (afterStarts 0).2.2) := rfl
  have hrunning : Session.history failsHalfway.backend 2 {}
      (openingTwo ++ List.replicate 2 .start) = ((afterStarts 2).1, (afterStarts 2).2.2) := rfl
  obtain ⟨hstart, -⟩ := failing_start_and_stop failsHalfway.backend 2 {} _ hopened
  obtain ⟨-, hstop⟩ := failing_start_and_stop failsHalfway.backend 2 {} _ hrunning
  obtain ⟨_, -, hstarted⟩ := hstart (afterStarts 0).2.1 _ _ _ _ (by decide) rfl
  obtain ⟨calls, hcalls, hstopped⟩ := hstop (afterStarts 2).2.1 _ _ _ _ rfl rfl
  obtain ⟨-, i, c, hinterrupted⟩ := (hstopped .emptyEventList).2 rfl
  exact ⟨⟨rfl, ((hstarted .notCapable).2 rfl).1⟩, ⟨rfl, rfl, rfl⟩, calls, i, c, hcalls, hinterrupted⟩

end HardwareCounters
