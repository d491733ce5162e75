/-
# Opening on more processors than there are

An event gets a slot for each processor of its session, while the processors on which it is opened
come from a rule of their own, which starts with processor 0 for an event that is counted once.  The
two agree as soon as there is a processor.  A session may also be made for none: then an event that
is counted on each processor is opened nowhere, but one that is counted once is opened on
processor 0 all the same, and the counter that the backend has opened is lost.

* `targetCpus_lt_iff`: when the rule stays below the number of processors;
* `OpensWithin` says which counters an opening keeps, and `LosesCounter` how one is lost;
* `open_within_slots` proves it of every session, and `slotless_open_loses_counter` is a session
  without processors that loses a counter.
-/
import HardwareCounters.Proofs.Session.Closing
import HardwareCounters.Proofs.Session.UncorePmu

namespace HardwareCounters

variable {σ η : Type}

/-! ## 1. Processors and slots -/

/-- **An event is opened on processors that there are**, unless there are none and it is counted
once. -/
theorem targetCpus_lt_iff (n : Nat) (uncore : Bool) :
    (∀ cpu ∈ targetCpus n uncore, cpu < n) ↔ 1 ≤ n ∨ uncore = false := by
  constructor
  · intro h
    cases uncore with
    | false => exact Or.inr rfl
    | true => exact Or.inl (Nat.zero_lt_of_lt (h 0 List.mem_cons_self))
  · rintro (hn | rfl) cpu hcpu
    · rw [targetCpus_eq_range hn] at hcpu
      exact List.mem_range.mp hcpu
    · exact target_lt hcpu

theorem Opening.result_ne_noSlot {options : OpenOptions} {n : Nat}
    {leader? : Option (SessionEvent η)} {events opened : List (SessionEvent η)}
    {calls : List (BackendCall η)} {result : Except Error Unit}
    (h : Opening options n leader? events calls result opened) (cpu : Nat) :
    result ≠ .error (.noSlot cpu) := by
  induction h with
  | done =>
    intro h
    cases h
  | failed =>
    intro h
    cases h
  | opened _ _ ih => exact ih

theorem Session.refusalOrEmpty?_ne_noSlot (session : Session η) (operation : SessionOperation)
    (cpu : Nat) : session.refusalOrEmpty? operation ≠ some (.noSlot cpu) := by
  intro h
  rw [refusalOrEmpty?, Option.or_eq_some_iff, refusal?] at h
  rcases h with h | ⟨-, h⟩
  · split at h <;> cases h
  · split at h <;> cases h

/-! ## 2. What becomes of the counters -/

/-- An opening that asks for one counter, on processor 0 for the first event that is counted once,
gets it and has no slot for it. -/
def LosesCounter (options : OpenOptions) (events : List (SessionEvent η))
    (calls : List (BackendCall η)) (result : Except Error Unit) : Prop :=
  ∃ before event later handle, events = before ++ event :: later ∧
    (∀ other ∈ before, other.uncore = false) ∧ event.uncore = true ∧
    calls = [.check options (.ok ()), .openCounter event.attr options 0 none (.ok handle)] ∧
    result = .error (.noSlot 0)

theorem LosesCounter.openedHandles_ne_nil {options : OpenOptions} {events : List (SessionEvent η)}
    {calls : List (BackendCall η)} {result : Except Error Unit}
    (h : LosesCounter options events calls result) : openedHandles calls ≠ [] := by
  obtain ⟨_, _, _, handle, -, -, -, rfl, -⟩ := h
  exact List.cons_ne_nil handle []

/-- An opening without processors gets no counter, or loses the only one that it gets. -/
theorem SlotlessOpening.none_or_loses {options : OpenOptions} {events : List (SessionEvent η)}
    {calls : List (BackendCall η)} {result : Except Error Unit}
    (h : SlotlessOpening options events calls result) :
    openedHandles calls = [] ∧ (∀ cpu, result ≠ .error (.noSlot cpu)) ∨
      LosesCounter options events (.check options (.ok ()) :: calls) result := by
  cases h with
  | done => exact Or.inl ⟨rfl, fun _ h => by cases h⟩
  | reached before later hbefore h outcome =>
    cases outcome with
    | error e => exact Or.inl ⟨rfl, fun _ h => by cases h⟩
    | ok handle => exact Or.inr ⟨before, _, later, handle, rfl, hbefore, h, rfl, rfl⟩

/-- What opening a session on `n` processors does with the counters that it gets. -/
structure OpensWithin (n : Nat) (options : OpenOptions) (session : Session η)
    (calls : List (BackendCall η)) (result : Except Error Unit) (after : Session η) : Prop where
  /-- With a processor the session holds all of them. -/
  kept : 1 ≤ n → after.handles = session.handles ++ openedHandles calls
  /-- Without processors it holds none, and has lost the one that it has got, if any. -/
  lost : n = 0 → after.handles = [] ∧
    (openedHandles calls = [] ∨ LosesCounter options session.events calls result)
  /-- A counter without a slot is one that is lost. -/
  noSlot_iff : (∃ cpu, result = .error (.noSlot cpu)) ↔ n = 0 ∧ openedHandles calls ≠ []

namespace Session

variable (b : Backend σ η) (measureAll : Bool) (pid : Int) {session : Session η} {n : Nat} {w : σ}

/-- Where nothing is obtained and nothing is changed, nothing is lost. -/
theorem opensWithin_of_unchanged {options : OpenOptions} {calls : List (BackendCall η)}
    {result : Except Error Unit} (hfits : session.Fits n) (hcalls : openedHandles calls = [])
    (hresult : ∀ cpu, result ≠ .error (.noSlot cpu)) :
    OpensWithin n options session calls result session where
  kept _ := by rw [hcalls, List.append_nil]
  lost := by
    rintro rfl
    exact ⟨hfits.handles_eq_nil, Or.inl hcalls⟩
  noSlot_iff := by simp [hcalls, hresult]

/-- **With a processor nothing is lost.** -/
theorem opensWithin_of_cpus (hcpus : session.cpuCount = n) (hn : 1 ≤ n)
    (hopen : session.refusalOrEmpty? .open = none) (hheld : session.handles = [])
    (hcheck : (b.check { pid, measureAll } w).1 = .ok ()) (log : List (BackendCall η)) :
    ∃ calls result after w',
      session.openCounters b.recorded measureAll pid (w, log) = (result, after, w', log ++ calls) ∧
      OpensWithin n { pid, measureAll } session calls result after := by
  obtain ⟨calls, result, opened, w', heq, hopening⟩ :=
    openCounters_recorded b measureAll pid (hcpus ▸ hn) hopen hcheck log
  have hpositive : n ≠ 0 := by omega
  refine ⟨_, result, _, w', heq, fun _ => ?_, fun hzero => absurd hzero hpositive, ?_⟩
  · rw [hheld, List.nil_append]
    exact hopening.flatMap_handles (List.flatMap_eq_nil_iff.mp hheld)
  · simp [hopening.result_ne_noSlot, hpositive]

/-- **Without processors** the first event that is counted once decides. -/
theorem opensWithin_slotless (hfits : session.Fits 0)
    (hopen : session.refusalOrEmpty? .open = none)
    (hcheck : (b.check { pid, measureAll } w).1 = .ok ()) (log : List (BackendCall η)) :
    ∃ calls result after w',
      session.openCounters b.recorded measureAll pid (w, log) = (result, after, w', log ++ calls) ∧
      OpensWithin 0 { pid, measureAll } session calls result after := by
  obtain ⟨calls, result, after, w', heq, hopening⟩ :=
    openCounters_recorded_slotless b measureAll pid hfits.cpuCount_eq hopen hcheck log
  have hafter := hfits.openCounters b.recorded measureAll pid (w, log)
  rw [heq] at hafter
  refine ⟨_, result, after, w', heq, fun hn => absurd hn (by decide), fun _ => ?_, ?_⟩
  · exact ⟨hafter.handles_eq_nil, hopening.none_or_loses.imp_left And.left⟩
  · rcases hopening.none_or_loses with ⟨hnone, hresult⟩ | hloses
    · have hcalls : openedHandles (.check { pid, measureAll } (.ok ()) :: calls) = [] := hnone
      simp [hcalls, hresult]
    · obtain ⟨-, -, -, -, -, -, -, -, hresult⟩ := id hloses
      exact ⟨fun _ => ⟨rfl, hloses.openedHandles_ne_nil⟩, fun _ => ⟨0, hresult⟩⟩

end Session

/-- **Opening stays within the slots if there is a processor.**  An event is opened on processors
that its session has if and only if there is one or the event is counted on each.  Open any session
that some commands have led to, on any backend.  With a processor, the session then holds all that
it has got, and no counter is opened without a slot.  Without processors it holds nothing: it has
got nothing, or has lost the one counter that it has got, that of the first event that is counted
once.  A backend that refuses the options is asked for no counter. -/
theorem open_within_slots (b : Backend σ η) {n : Nat} (w : σ) (commands : List SessionCommand)
    {session : Session η} {log : List (BackendCall η)}
    (h : Session.history b n w commands = (session, log)) (measureAll : Bool) (pid : Int) (w₁ : σ) :
    (∀ uncore, (∀ cpu ∈ targetCpus n uncore, cpu < n) ↔ 1 ≤ n ∨ uncore = false) ∧
    ((b.check { pid, measureAll } w₁).1 = .ok () → ∃ calls result after w₂,
      session.openCounters b.recorded measureAll pid (w₁, log) = (result, after, w₂, log ++ calls) ∧
      OpensWithin n { pid, measureAll } session calls result after) ∧
    ∀ e, (b.check { pid, measureAll } w₁).1 = .error e → ∃ calls result w₂,
      session.openCounters b.recorded measureAll pid (w₁, log) =
        (result, session, w₂, log ++ calls) ∧ openedHandles calls = [] := by
  have hfits : session.Fits n := by
    have := fits_of_history b n w commands
    rwa [h] at this
  refine ⟨targetCpus_lt_iff n, ?_⟩
  cases hopen : session.refusalOrEmpty? .open with
  | some e =>
    have hrefused : session.openCounters b.recorded measureAll pid (w₁, log) =
        (.error e, session, w₁, log ++ []) := by
      simp [Session.openCounters, hopen]
    refine ⟨fun _ => ⟨[], .error e, session, w₁, hrefused, ?_⟩,
      fun _ _ => ⟨[], .error e, w₁, hrefused, rfl⟩⟩
    refine Session.opensWithin_of_unchanged hfits rfl ?_
    rintro cpu heq
    cases heq
    exact session.refusalOrEmpty?_ne_noSlot .open cpu hopen
  | none =>
    constructor
    · intro hcheck
      rcases Nat.eq_zero_or_pos n with rfl | hn
      · exact Session.opensWithin_slotless b measureAll pid hfits hopen hcheck log
      · have hheld : session.handles = [] := (accounted_of_history b hn w commands h).handles_eq_nil
          (Or.inr rfl) (state_of_refusalOrEmpty? hopen)
        exact Session.opensWithin_of_cpus b measureAll pid hfits.cpuCount_eq hn hopen hheld hcheck log
    · intro e hcheck
      exact ⟨[.check { pid, measureAll } (.error e)], .error e,
        (b.check { pid, measureAll } w₁).2, by simp [Session.openCounters, hopen, hcheck], rfl⟩

namespace Example

/-- A raw event and an event that is counted once. -/
def rawAndOnce : List SessionCommand := [.parse "r1;c".toList uncoreResolver]

/-- The session on `n` processors that has parsed them. -/
def rawAndOnceOn (n : Nat) : Session Nat × List (BackendCall Nat) :=
  Session.history ({} : BackendScript).backend n {} rawAndOnce

/-- What opening it gives on a backend that always succeeds. -/
def rawAndOnceOpened (n : Nat) :
    Except Error Unit × Session Nat × ScriptState × List (BackendCall Nat) :=
  (rawAndOnceOn n).1.openCounters ({} : BackendScript).backend.recorded false 7 ({}, [])

end Example

open Example in
theorem open_within_slots_rawAndOnce :
    ((rawAndOnceOn 2).1.events.map SessionEvent.uncore = [false, true] ∧
      (rawAndOnceOpened 2).2.1.handles = [0, 1, 2, 3]) ∧
    ∃ calls result after w,
      (rawAndOnceOn 2).1.openCounters ({} : BackendScript).backend.recorded false 7
        ({}, (rawAndOnceOn 2).2) = (result, after, w, (rawAndOnceOn 2).2 ++ calls) ∧
      OpensWithin 2 { pid := 7, measureAll := false } (rawAndOnceOn 2).1 calls result after :=
  ⟨by decide +kernel, (open_within_slots ({} : BackendScript).backend {} rawAndOnce
    (rfl : _ = rawAndOnceOn 2) false 7 {}).2.1 rfl⟩

open Example in
/-- On no processors the event that is counted once is opened on processor 0, where it has no slot:
the backend has given a handle, and the session does not hold it. -/
theorem slotless_open_loses_counter :
    (∃ event ∈ (rawAndOnceOn 0).1.events, ∃ cpu ∈ targetCpus 0 event.uncore, ¬ cpu < 0) ∧
    (rawAndOnceOpened 0).1 = .error (.noSlot 0) ∧
    openedHandles (rawAndOnceOpened 0).2.2.2 = [0] ∧ (rawAndOnceOpened 0).2.1.handles = [] := by
  decide +kernel

end HardwareCounters
