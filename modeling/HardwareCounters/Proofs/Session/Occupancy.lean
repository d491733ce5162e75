/-
# No counter stands behind an empty slot

Stopping goes through the slots of an event up to the first that is empty, so a counter behind an
empty slot would go on counting and be missing from the sum.  There never is one: events are opened
in order and each from processor 0 on, and what has been opened is only ever closed as a whole.

* `FilledInOrder` says which slots may hold counters; `Occupied` makes an invariant of it,
  `Occupied.performed` is its step and `occupied_of_history` its run.
* `Reading.complete`: where nothing stands behind a gap, reading that succeeds reads everything, and
  the sums are those of all counters.
* `stop_reads_every_counter` says both for every backend and every sequence of commands.
-/
import HardwareCounters.Proofs.Session.Ledger
import HardwareCounters.Proofs.Session.Slots
import HardwareCounters.Session.Report

namespace HardwareCounters

variable {σ η : Type}

/-! ## 1. Which slots hold counters -/

/-- For each slot of the event, whether it holds a counter. -/
def SessionEvent.occupancy (event : SessionEvent η) : List Bool := event.slots.map Option.isSome

/-- Of `n` slots the first `c` hold counters. -/
def firstOccupied (n c : Nat) : List Bool := List.replicate c true ++ List.replicate (n - c) false

/-- The events are filled in order: some have a counter on each of `n` processors, the next one may
have counters on the first of them, and those after it have no slots. -/
inductive FilledInOrder (n : Nat) : List (List Bool) → Prop
  | idle {others : List (List Bool)} (h : ∀ marks ∈ others, marks = []) : FilledInOrder n others
  | begun {others : List (List Bool)} {c : Nat} (hc : c ≤ n) (h : ∀ marks ∈ others, marks = []) :
      FilledInOrder n (firstOccupied n c :: others)
  | full {others : List (List Bool)} (rest : FilledInOrder n others) :
      FilledInOrder n (firstOccupied n n :: others)

/-- Nothing stands behind a gap. -/
def Gapless : List Bool → Prop
  | [] => True
  | false :: marks => ∀ mark ∈ marks, mark = false
  | true :: marks => Gapless marks

theorem SessionEvent.isSome_counter?_iff (event : SessionEvent η) (cpu : Nat) :
    (event.counter? cpu).isSome = true ↔ event.occupancy[cpu]? = some true := by
  rw [SessionEvent.counter?, SessionEvent.occupancy, List.getElem?_map]
  cases event.slots[cpu]? with
  | none => simp
  | some slot => simp

theorem SessionEvent.occupancy_holding (event : SessionEvent η) (n : Nat) (handles : List η) :
    (event.holding n handles).occupancy = firstOccupied n handles.length := by
  rw [SessionEvent.occupancy, SessionEvent.holding, freshSlots, List.map_append, List.map_map,
    List.map_replicate, firstOccupied]
  exact congrArg (· ++ _) List.map_const'

theorem getElem?_firstOccupied (n c cpu : Nat) :
    (firstOccupied n c)[cpu]? = some true ↔ cpu < c := by
  rw [firstOccupied, List.getElem?_append]
  simp only [List.length_replicate, List.getElem?_replicate]
  split <;> simp_all

theorem gapless_firstOccupied (n c : Nat) : Gapless (firstOccupied n c) := by
  induction c generalizing n with
  | zero =>
    cases n with
    | zero => trivial
    | succ n => exact fun _ h => List.eq_of_mem_replicate h
  | succ c ih =>
    have hrest : n - (c + 1) = n - 1 - c := by omega
    rw [firstOccupied, hrest]
    exact ih (n - 1)

namespace FilledInOrder

variable {n : Nat} {occupied : List (List Bool)}

theorem gapless (h : FilledInOrder n occupied) : ∀ marks ∈ occupied, Gapless marks := by
  induction h with
  | idle h =>
    intro marks hmarks
    rw [h marks hmarks]
    trivial
  | begun hc h =>
    refine List.forall_mem_cons.mpr ⟨gapless_firstOccupied _ _, fun marks hmarks => ?_⟩
    rw [h marks hmarks]
    trivial
  | full _ ih => exact List.forall_mem_cons.mpr ⟨gapless_firstOccupied _ _, ih⟩

/-- **Where filling stopped.**  There is an event such that everything before it is occupied, and
nothing after it, and it is itself occupied up to some processor. -/
theorem exists_place (h : FilledInOrder n occupied) :
    ∃ i c : Nat, c ≤ n ∧ ∀ j marks, occupied[j]? = some marks →
      ∀ cpu : Nat, marks[cpu]? = some true ↔ j < i ∧ cpu < n ∨ j = i ∧ cpu < c := by
  induction h with
  | idle h =>
    refine ⟨0, 0, Nat.zero_le n, fun j marks hmarks cpu => ?_⟩
    rw [h marks (List.mem_of_getElem? hmarks)]
    simp
  | @begun others c hc h =>
    refine ⟨0, c, hc, fun j marks hmarks cpu => ?_⟩
    cases j with
    | zero =>
      obtain rfl := Option.some.inj hmarks
      simp [getElem?_firstOccupied]
    | succ j =>
      rw [h marks (List.mem_of_getElem? hmarks)]
      simp
  | @full others rest ih =>
    obtain ⟨i, c, hc, hplace⟩ := ih
    refine ⟨i + 1, c, hc, fun j marks hmarks cpu => ?_⟩
    cases j with
    | zero =>
      obtain rfl := Option.some.inj hmarks
      simp [getElem?_firstOccupied]
    | succ j => simpa using hplace j marks hmarks cpu

end FilledInOrder

/-! ## 2. What every command keeps -/

/-- Opening events that have no slots fills them in order, also if it fails. -/
theorem Opening.filledInOrder {options : OpenOptions} {n : Nat} {leader? : Option (SessionEvent η)}
    {events opened : List (SessionEvent η)} {calls : List (BackendCall η)}
    {result : Except Error Unit} (h : Opening options n leader? events calls result opened)
    (hnone : ∀ event ∈ events, event.slots = []) :
    FilledInOrder n (opened.map SessionEvent.occupancy) := by
  induction h with
  | done => exact .idle fun _ h => nomatch h
  | failed leader? event events handles e hlt =>
    rw [List.map_cons, SessionEvent.occupancy_holding]
    refine .begun (Nat.le_of_lt hlt) fun marks hmarks => ?_
    obtain ⟨other, hother, rfl⟩ := List.mem_map.mp hmarks
    rw [SessionEvent.occupancy, hnone other (List.mem_cons_of_mem _ hother), List.map_nil]
  | @opened leader? event events opened handles calls result hlen rest ih =>
    rw [List.map_cons, SessionEvent.occupancy_holding, hlen]
    exact .full (ih fun other hother => hnone other (List.mem_cons_of_mem _ hother))

theorem SlotReading.map_isSome {slots reached : List (Slot η)} {sum : Word}
    {calls : List (BackendCall η)} {result : Except Error Word}
    (h : SlotReading slots sum calls result reached) :
    reached.map Option.isSome = slots.map Option.isSome := by
  have hhandles := congrArg (List.map Option.isSome) h.handles_eq
  simpa only [List.map_map, Function.comp_def, Option.isSome_map] using hhandles

/-- Reading fills and empties no slot. -/
theorem Reading.map_occupancy {events reached : List (SessionEvent η)}
    {calls : List (BackendCall η)} {result : Except Error Unit}
    (h : Reading events calls result reached) :
    reached.map SessionEvent.occupancy = events.map SessionEvent.occupancy := by
  induction h with
  | done => rfl
  | failed events h =>
    rw [List.map_cons, List.map_cons, SessionEvent.occupancy, h.map_isSome,
      ← SessionEvent.occupancy]
  | read h _ ih =>
    rw [List.map_cons, List.map_cons, ih, SessionEvent.occupancy, h.map_isSome,
      ← SessionEvent.occupancy]

/-- The events of the session are filled in order, and have no slots where they may be replaced or
opened. -/
structure Occupied (session : Session η) : Prop where
  filled : FilledInOrder session.cpuCount (session.events.map SessionEvent.occupancy)
  idle : session.state = .closed ∨ session.state = .parsed →
    ∀ event ∈ session.events, event.slots = []

/-- Events without slots are filled in order. -/
theorem filledInOrder_of_slots_eq_nil (n : Nat) {events : List (SessionEvent η)}
    (h : ∀ event ∈ events, event.slots = []) :
    FilledInOrder n (events.map SessionEvent.occupancy) := by
  refine .idle fun marks hmarks => ?_
  obtain ⟨event, hevent, rfl⟩ := List.mem_map.mp hmarks
  rw [SessionEvent.occupancy, h event hevent, List.map_nil]

/-- **The step.**  Whatever a command can do, failures included, leaves the events filled in
order. -/
theorem Occupied.performed {command : SessionCommand} {session after : Session η}
    {calls : List (BackendCall η)} {result : Except Error Unit} (h : Occupied session)
    (hstep : Performed command session calls result after) : Occupied after := by
  cases hstep with
  | refused => exact h
  | parsed _ _ _ _ hslots => exact ⟨filledInOrder_of_slots_eq_nil _ hslots, fun _ => hslots⟩
  | denied => exact h
  | opened _ _ hopen hopening =>
    have hstate := state_of_refusalOrEmpty? hopen
    have hnone := h.idle (by simpa [SessionOperation.allowedIn, or_comm] using hstate)
    exact ⟨hopening.filledInOrder hnone, by simp⟩
  | startFailed => exact h
  | started => exact ⟨h.filled, by simp⟩
  | stopFailed hstop hread =>
    have hstate := state_of_refusalOrEmpty? hstop
    simp only [SessionOperation.allowedIn, List.mem_singleton] at hstate
    refine ⟨?_, by simp [hstate]⟩
    rw [hread.map_occupancy]
    exact h.filled
  | stopped _ hread =>
    refine ⟨?_, by simp⟩
    rw [hread.map_occupancy]
    exact h.filled
  | closed =>
    have hnone : ∀ event ∈ session.events.map fun event : SessionEvent η =>
        ({ event with slots := [] } : SessionEvent η), event.slots = [] := by
      intro event hevent
      obtain ⟨old, _, rfl⟩ := List.mem_map.mp hevent
      rfl
    exact ⟨filledInOrder_of_slots_eq_nil _ hnone, fun _ => hnone⟩

/-- **The run.**  After every history on every backend the events are filled in order. -/
theorem occupied_of_history (b : Backend σ η) {n : Nat} (hn : 1 ≤ n) (w : σ)
    (commands : List SessionCommand) {session : Session η} {log : List (BackendCall η)}
    (h : Session.history b n w commands = (session, log)) : Occupied session :=
  history_induction (P := fun session _ => Occupied session) hn
    ⟨.idle (fun _ h => nomatch h), fun _ _ h => nomatch h⟩
    (fun _ hstep hsession => hsession.performed hstep) b w commands h

/-! ## 3. Reading everything -/

/-- The calls that read these counters, and what they read. -/
def readCalls (handles : List η) (counts : List Count) : List (BackendCall η) :=
  List.zipWith (fun handle count => .stopAndRead handle (.ok count)) handles counts

/-- The scaled values of all counters of the event, by processor. -/
def SessionEvent.scaledValues (event : SessionEvent η) : List Word :=
  event.slots.filterMap fun slot => slot.map CpuCounter.scaled

/-- The sum of words as a number. -/
def wordTotal (words : List Word) : Nat := words.foldr (fun word sum => word.toNat + sum) 0

/-- An empty slot that has only empty slots behind it. -/
theorem filterMap_eq_nil_of_gap {β : Type} {slots : List (Slot η)} (f : CpuCounter η → β)
    (h : Gapless ((none :: slots).map Option.isSome)) :
    (none :: slots).filterMap (fun slot : Slot η => slot.map f) = [] := by
  rw [List.filterMap_eq_nil_iff]
  refine List.forall_mem_cons.mpr ⟨rfl, fun slot hslot => ?_⟩
  have hnone : slot.isSome = false := h _ (List.mem_map_of_mem hslot)
  rw [Option.isSome_eq_false_iff, Option.isNone_iff_eq_none] at hnone
  rw [hnone, Option.map_none]

/-- **One event.**  Where nothing stands behind a gap, reading that succeeds reads every counter,
records what it reads, and adds up all scaled values. -/
theorem SlotReading.complete {slots reached : List (Slot η)} {sum : Word}
    {calls : List (BackendCall η)} {result : Except Error Word}
    (h : SlotReading slots sum calls result reached) (hgap : Gapless (slots.map Option.isSome))
    {total : Word} (hok : result = .ok total) :
    (∃ counts, counts.length = (slots.filterMap fun slot => slot.map CpuCounter.handle).length ∧
      calls = readCalls (slots.filterMap fun slot => slot.map CpuCounter.handle) counts ∧
      reached.filterMap id = List.zipWith CpuCounter.record (slots.filterMap id) counts) ∧
    total = sum +
      BitVec.ofNat 64 (wordTotal (reached.filterMap fun slot => slot.map CpuCounter.scaled)) := by
  induction h with
  | done sum =>
    cases hok
    exact ⟨⟨[], rfl, rfl, rfl⟩, (BitVec.add_zero total).symm⟩
  | gap slots sum =>
    cases hok
    -- Reading ends here, and what is behind the gap is empty too.
    have hnone : (none :: slots).filterMap id = ([] : List (CpuCounter η)) := by
      simpa using filterMap_eq_nil_of_gap id hgap
    rw [filterMap_eq_nil_of_gap CpuCounter.handle hgap,
      filterMap_eq_nil_of_gap CpuCounter.scaled hgap, hnone]
    exact ⟨⟨[], rfl, rfl, rfl⟩, (BitVec.add_zero total).symm⟩
  | failed => cases hok
  | @read slots reached sum calls result counter count rest ih =>
    obtain ⟨⟨counts, hlen, hcalls, hrecord⟩, htotal⟩ := ih hgap hok
    refine ⟨⟨count :: counts, congrArg Nat.succ hlen, ?_, ?_⟩, ?_⟩
    · rw [hcalls]
      rfl
    · exact congrArg (counter.record count :: ·) hrecord
    · have hsum : wordTotal ((some (counter.record count) :: reached).filterMap
            fun slot => slot.map CpuCounter.scaled) =
          (counter.record count).scaled.toNat +
            wordTotal (reached.filterMap fun slot => slot.map CpuCounter.scaled) := rfl
      rw [htotal, hsum, BitVec.ofNat_add, BitVec.ofNat_toNat, BitVec.setWidth_eq, BitVec.add_assoc]

/-- **All events.**  Where nothing stands behind a gap, reading that succeeds reads every counter
once, by event and then by processor, and the sum of each event is that of all its counters. -/
theorem Reading.complete {events reached : List (SessionEvent η)} {calls : List (BackendCall η)}
    {result : Except Error Unit} (h : Reading events calls result reached)
    (hgap : ∀ event ∈ events, Gapless event.occupancy) (hok : result = .ok ()) :
    (∃ counts, counts.length = (events.flatMap SessionEvent.handles).length ∧
      calls = readCalls (events.flatMap SessionEvent.handles) counts) ∧
    ∀ event ∈ reached, event.totalSum = BitVec.ofNat 64 (wordTotal event.scaledValues) := by
  induction h with
  | done => exact ⟨⟨[], rfl, rfl⟩, fun _ h => nomatch h⟩
  | failed => cases hok
  | @read event events reached calls more slots totalSum result hslots rest ih =>
    obtain ⟨hfirst, hothers⟩ := List.forall_mem_cons.mp hgap
    obtain ⟨⟨counts, hlen, hcalls, -⟩, htotal⟩ := hslots.complete hfirst rfl
    obtain ⟨⟨others, hlen', hmore⟩, hsums⟩ := ih hothers hok
    refine ⟨⟨counts ++ others, ?_, ?_⟩, List.forall_mem_cons.mpr ⟨?_, hsums⟩⟩
    · rw [List.length_append, List.flatMap_cons, List.length_append, hlen, hlen']
      rfl
    · rw [hcalls, hmore, readCalls, readCalls, readCalls, List.flatMap_cons,
        ← List.zipWith_append hlen.symm]
      rfl
    · exact htotal.trans (BitVec.zero_add _)

/-! ## 4. What is reported -/

theorem wordTotal_eq_zero {words : List Word} (h : ∀ word ∈ words, word = 0) :
    wordTotal words = 0 := by
  induction words with
  | nil => rfl
  | cons word words ih =>
    obtain ⟨hfirst, hrest⟩ := List.forall_mem_cons.mp h
    rw [wordTotal, List.foldr_cons, hfirst, ← wordTotal, ih hrest]
    rfl

/-- The value of a slot, 0 without a counter. -/
def Slot.scaledAt (slots : List (Slot η)) (cpu : Nat) : Word :=
  ((slots[cpu]?).join.map CpuCounter.scaled).getD 0

/-- Going through the processors misses no slot and adds nothing for those without a counter. -/
theorem wordTotal_scaledAt {slots : List (Slot η)} {n : Nat} (h : slots.length ≤ n) :
    wordTotal ((List.range n).map (Slot.scaledAt slots)) =
      wordTotal (slots.filterMap fun slot => slot.map CpuCounter.scaled) := by
  induction slots generalizing n with
  | nil =>
    refine wordTotal_eq_zero fun word hword => ?_
    obtain ⟨cpu, _, rfl⟩ := List.mem_map.mp hword
    rfl
  | cons slot slots ih =>
    obtain ⟨m, rfl⟩ : ∃ m, n = m + 1 := ⟨n - 1, by simp at h; omega⟩
    have hrest : wordTotal ((List.range m).map (Slot.scaledAt slots)) =
        wordTotal (slots.filterMap fun slot => slot.map CpuCounter.scaled) :=
      ih (Nat.le_of_succ_le_succ h)
    have hstep : (List.range (m + 1)).map (Slot.scaledAt (slot :: slots)) =
        (slot.map CpuCounter.scaled).getD 0 :: (List.range m).map (Slot.scaledAt slots) := by
      rw [List.range_succ_eq_map, List.map_cons, List.map_map]
      rfl
    rw [hstep]
    cases slot with
    | none =>
      have hzero : wordTotal ((0 : Word) :: (List.range m).map (Slot.scaledAt slots)) =
          wordTotal ((List.range m).map (Slot.scaledAt slots)) := Nat.zero_add _
      exact hzero.trans hrest
    | some counter => exact congrArg (counter.scaled.toNat + ·) hrest

/-- What a stop that succeeds has done to a session and its log. -/
structure StoppedAll (session after : Session η) (log log' : List (BackendCall η)) : Prop where
  /-- Every counter was read by one call, by event and then by processor. -/
  reads : ∃ counts, counts.length = session.handles.length ∧
    log' = log ++ readCalls session.handles counts
  /-- No counter was lost. -/
  handles_eq : after.handles = session.handles
  /-- The sum of an event is that of the scaled values of all its counters. -/
  sums : ∀ event ∈ after.events, event.totalSum = BitVec.ofNat 64 (wordTotal event.scaledValues)
  /-- The sum that is reported is that of the values that are reported for the processors. -/
  reports : ∀ (i : Nat) (event : SessionEvent η), after.events[i]? = some event →
    ∃ snapshot : EventSnapshot, after.collect[i]? = some snapshot ∧ snapshot.name = event.name ∧
      snapshot.sum = event.totalSum ∧ snapshot.sum = BitVec.ofNat 64 (wordTotal snapshot.perCpu)

/-- Reading that succeeds, in a session whose events are filled in order. -/
theorem Occupied.stoppedAll {session after : Session η} (h : Occupied session)
    {calls log : List (BackendCall η)} (hstep : Performed .stop session calls (.ok ()) after)
    {n : Nat} (hfits : after.Fits n) : StoppedAll session after log (log ++ calls) := by
  cases hstep with
  | stopped hstop hread =>
    rename_i events
    have hgap : ∀ event ∈ session.events, Gapless event.occupancy :=
      fun event hevent => h.filled.gapless _ (List.mem_map_of_mem hevent)
    obtain ⟨⟨counts, hlen, hcalls⟩, hsums⟩ := hread.complete hgap rfl
    refine ⟨⟨counts, hlen, by rw [hcalls]; rfl⟩, hread.flatMap_handles, hsums, ?_⟩
    intro i event hevent
    have hmem : event ∈ events := List.mem_of_getElem? hevent
    have hper : wordTotal ((List.range session.cpuCount).map event.scaledOn) =
        wordTotal event.scaledValues :=
      wordTotal_scaledAt (hfits.cpuCount_eq ▸ hfits.length_le event hmem)
    refine ⟨⟨event.name, event.totalSum, (List.range session.cpuCount).map event.scaledOn⟩,
      ?_, rfl, rfl, ?_⟩
    · rw [Session.collect, List.getElem?_map, hevent]
      rfl
    · rw [hper]
      exact hsums event hmem

/-- **Stopping skips no counter.**  On every backend and after every history, all events before some
event hold counters on all processors, that event holds them on the first processors, and those
after it hold none; nothing is held before a session is opened.  So a stop that succeeds has read
every counter, in order, and the sums that are then reported are those of all counters. -/
theorem stop_reads_every_counter (b : Backend σ η) {n : Nat} (hn : 1 ≤ n) (w : σ)
    (commands : List SessionCommand) {session : Session η} {log : List (BackendCall η)}
    (h : Session.history b n w commands = (session, log)) :
    (∃ i c : Nat, c ≤ n ∧ ∀ j event, session.events[j]? = some event →
      ∀ cpu, (event.counter? cpu).isSome = true ↔ j < i ∧ cpu < n ∨ j = i ∧ cpu < c) ∧
    (session.state = .closed ∨ session.state = .parsed →
      ∀ event ∈ session.events, ∀ cpu, event.counter? cpu = none) ∧
    ∀ w₁ after w₂ log', session.state = .running →
      session.stop b.recorded (w₁, log) = (.ok (), after, w₂, log') →
      StoppedAll session after log log' := by
  have hoccupied := occupied_of_history b hn w commands h
  have hfits : session.Fits n := by
    have := fits_of_history b n w commands
    rwa [h] at this
  refine ⟨?_, ?_, ?_⟩
  · obtain ⟨i, c, hc, hplace⟩ := hoccupied.filled.exists_place
    rw [hfits.cpuCount_eq] at hc hplace
    refine ⟨i, c, hc, fun j event hevent cpu => ?_⟩
    rw [event.isSome_counter?_iff]
    exact hplace j event.occupancy (by rw [List.getElem?_map, hevent, Option.map_some]) cpu
  · intro hstate event hevent cpu
    rw [SessionEvent.counter?, hoccupied.idle hstate event hevent]
    rfl
  · intro w₁ after w₂ log' _ hstop
    obtain ⟨calls, result, after', w', heq, hstep⟩ :=
      perform_recorded b (hfits.cpuCount_eq ▸ hn) .stop w₁ log
    have hafter := hfits.perform b.recorded .stop (w₁, log)
    rw [heq] at hafter
    rw [Session.perform, hstop, Prod.mk.injEq, Prod.mk.injEq, Prod.mk.injEq] at heq
    obtain ⟨rfl, rfl, -, rfl⟩ := heq
    exact hoccupied.stoppedAll hstep hafter

namespace Example

/-- Two events of which the second gets a counter on one processor only, and are started. -/
def startingHalf : List SessionCommand :=
  [.parse "r1;r2".toList ⟨⟨[], {}⟩, {}⟩, .open false 7, .start]

/-- The session and the state of its backend after that. -/
def halfStarted : Session Nat × ScriptState × List (BackendCall Nat) :=
  Session.performAll failsOnce.backend.recorded startingHalf { cpuCount := 2 } ({}, [])

/-- What stopping it then gives. -/
def halfStopped : Except Error Unit × Session Nat × ScriptState × List (BackendCall Nat) :=
  halfStarted.1.stop failsOnce.backend.recorded halfStarted.2

end Example

open Example in
theorem stop_reads_halfStarted :
    (1 ≤ 2 ∧ Session.history failsOnce.backend 2 {} startingHalf =
      (halfStarted.1, halfStarted.2.2)) ∧
    (halfStarted.1.state = .running ∧ halfStarted.1.handles = [0, 1, 2] ∧
      halfStopped.1 = .ok ()) ∧
    StoppedAll halfStarted.1 halfStopped.2.1 halfStarted.2.2 halfStopped.2.2.2 := by
  have hhistory : Session.history failsOnce.backend 2 {} startingHalf =
      (halfStarted.1, halfStarted.2.2) := rfl
  have hstop : halfStarted.1.stop failsOnce.backend.recorded (halfStarted.2.1, halfStarted.2.2) =
      (.ok (), halfStopped.2.1, halfStopped.2.2.1, halfStopped.2.2.2) := rfl
  exact ⟨⟨by decide, hhistory⟩, ⟨rfl, rfl, rfl⟩,
    (stop_reads_every_counter failsOnce.backend (by decide) {} startingHalf hhistory).2.2
      halfStarted.2.1 halfStopped.2.1 halfStopped.2.2.1 halfStopped.2.2.2 rfl hstop⟩

end HardwareCounters
