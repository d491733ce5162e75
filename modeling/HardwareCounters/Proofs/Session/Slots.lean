/-
# An event has at most one slot for each processor

Opening an event gives it one slot for each processor, reading it fills or empties none, and closing
it takes all slots away.  No command makes a slot beyond the number of processors, whatever the
backend does, and this also holds of a session without processors.

* `Session.Fits` is that bound; `Session.Fits.perform` is its step and `fits_of_history` its run.
-/
import HardwareCounters.Proofs.Session.Command

namespace HardwareCounters

variable {σ η : Type}

/-! ## 1. The loops -/

/-- Opening an event on processors makes no slots. -/
theorem SessionEvent.length_slots_openOn (b : Backend σ η) (options : OpenOptions)
    (leader? : Option (SessionEvent η)) (cpus : List Nat) (event : SessionEvent η) (w : σ) :
    (event.openOn b options leader? cpus w).2.1.slots.length = event.slots.length := by
  induction cpus generalizing event w with
  | nil => rfl
  | cons cpu cpus ih =>
    rw [SessionEvent.openOn]
    split
    · rfl
    · split
      · rw [ih]
        simp [SessionEvent.setCounter]
      · rfl

/-- An event that has been reached has one slot for each processor, and the others are as they
were. -/
theorem Session.length_slots_openEvents (b : Backend σ η) (options : OpenOptions) {n : Nat}
    (leader? : Option (SessionEvent η)) {events : List (SessionEvent η)} (w : σ)
    (h : ∀ event ∈ events, event.slots.length ≤ n) :
    ∀ event ∈ (Session.openEvents b options n leader? events w).2.1, event.slots.length ≤ n := by
  induction events generalizing leader? w with
  | nil => exact h
  | cons event events ih =>
    have hrest : ∀ other ∈ events, other.slots.length ≤ n :=
      fun other hother => h other (List.mem_cons_of_mem _ hother)
    have hevent := (event.prepare n).length_slots_openOn b options leader?
      (targetCpus n event.uncore) w
    rw [SessionEvent.prepare, List.length_replicate, ← SessionEvent.prepare] at hevent
    rw [Session.openEvents]
    split
    · rename_i heq
      rw [heq] at hevent
      exact List.forall_mem_cons.mpr ⟨Nat.le_of_eq hevent, hrest⟩
    · rename_i heq
      rw [heq] at hevent
      exact List.forall_mem_cons.mpr ⟨Nat.le_of_eq hevent, ih _ _ hrest⟩

theorem Session.length_readSlots (b : Backend σ η) (slots : List (Slot η)) (sum : Word) (w : σ) :
    (Session.readSlots b slots sum w).2.1.length = slots.length := by
  induction slots generalizing sum w with
  | nil => rfl
  | cons slot slots ih =>
    cases slot with
    | none => rfl
    | some counter =>
      rw [Session.readSlots]
      split
      · rfl
      · exact congrArg Nat.succ (ih _ _)

theorem Session.length_slots_readEvents (b : Backend σ η) {n : Nat}
    {events : List (SessionEvent η)} (w : σ) (h : ∀ event ∈ events, event.slots.length ≤ n) :
    ∀ event ∈ (Session.readEvents b events w).2.1, event.slots.length ≤ n := by
  induction events generalizing w with
  | nil => exact h
  | cons event events ih =>
    obtain ⟨hfirst, hrest⟩ := List.forall_mem_cons.mp h
    have hevent := Session.length_readSlots b event.slots 0 w
    rw [Session.readEvents]
    split
    · rename_i heq
      rw [heq] at hevent
      exact List.forall_mem_cons.mpr ⟨Nat.le_trans (Nat.le_of_eq hevent) hfirst, hrest⟩
    · rename_i heq
      rw [heq] at hevent
      exact List.forall_mem_cons.mpr ⟨Nat.le_trans (Nat.le_of_eq hevent) hfirst, ih _ hrest⟩

/-! ## 2. Commands and histories -/

/-- The session is on `n` processors, and every event has at most one slot for each. -/
structure Session.Fits (session : Session η) (n : Nat) : Prop where
  cpuCount_eq : session.cpuCount = n
  length_le : ∀ event ∈ session.events, event.slots.length ≤ n

namespace Session.Fits

variable {session : Session η} {n : Nat}

theorem openCounters (h : session.Fits n) (b : Backend σ η) (measureAll : Bool) (pid : Int)
    (w : σ) : (session.openCounters b measureAll pid w).2.1.Fits n := by
  rw [Session.openCounters]
  split
  · exact h
  · dsimp only
    split
    · exact h
    · refine ⟨h.cpuCount_eq, ?_⟩
      rw [h.cpuCount_eq]
      exact Session.length_slots_openEvents b _ none _ h.length_le

theorem parse (h : session.Fits n) (expression : Text) (resolver : Resolver) :
    (session.parse expression resolver).2.1.Fits n := by
  generalize hresult : session.parse expression resolver = outcome
  have hparsed := parse_performed session expression resolver
  rw [hresult] at hparsed
  obtain ⟨result, after, resolver'⟩ := outcome
  cases hparsed with
  | refused => exact h
  | parsed _ _ _ _ hslots =>
    refine ⟨h.cpuCount_eq, fun event hevent => ?_⟩
    rw [hslots event hevent]
    exact Nat.zero_le n

/-- **The step.**  No command makes a slot beyond the number of processors. -/
theorem perform (h : session.Fits n) (b : Backend σ η) (command : SessionCommand) (w : σ) :
    (session.perform b command w).2.1.Fits n := by
  cases command with
  | parse expression resolver => exact h.parse expression resolver
  | «open» measureAll pid => exact h.openCounters b measureAll pid w
  | start =>
    rw [Session.perform, Session.start]
    split
    · exact h
    · split
      · exact h
      · exact ⟨h.cpuCount_eq, h.length_le⟩
  | stop =>
    have hread := Session.length_slots_readEvents b w h.length_le
    rw [Session.perform, Session.stop]
    split
    · exact h
    · split
      · rename_i heq
        rw [heq] at hread
        exact ⟨h.cpuCount_eq, hread⟩
      · rename_i heq
        rw [heq] at hread
        exact ⟨h.cpuCount_eq, hread⟩
  | close =>
    refine ⟨h.cpuCount_eq, fun event hevent => ?_⟩
    obtain ⟨old, _, rfl⟩ := List.mem_map.mp hevent
    exact Nat.zero_le n

theorem performAll (h : session.Fits n) (b : Backend σ η) (commands : List SessionCommand)
    (w : σ) : (Session.performAll b commands session w).1.Fits n := by
  induction commands generalizing session w with
  | nil => exact h
  | cons command commands ih => exact ih (h.perform b command w) _

end Session.Fits

/-- **The run.**  After every history each event has at most one slot for each processor. -/
theorem fits_of_history (b : Backend σ η) (n : Nat) (w : σ) (commands : List SessionCommand) :
    (Session.history b n w commands).1.Fits n := by
  have hnew : ({ cpuCount := n } : Session η).Fits n := ⟨rfl, fun _ h => nomatch h⟩
  exact hnew.performAll b.recorded commands (w, [])

end HardwareCounters
