/-
# What the operations of a backend keep, a session keeps

A session changes the state of its backend only through the operations of the backend.  What each of
these keeps is therefore kept by every loop of a session, by every command and by every history.

* `Backend.Preserves` says it of the operations, one by one;
* `Backend.Preserves.history` says it of a whole history and its log.
-/
import HardwareCounters.Proofs.Session.Command

namespace HardwareCounters

variable {σ η : Type}

/-- Every operation of the backend keeps a property of its state. -/
structure Backend.Preserves (b : Backend σ η) (Q : σ → Prop) : Prop where
  check : ∀ options w, Q w → Q (b.check options w).2
  openCounter : ∀ attr options cpu leader? w, Q w → Q (b.openCounter attr options cpu leader? w).2
  start : ∀ handle w, Q w → Q (b.start handle w).2
  stopAndRead : ∀ handle w, Q w → Q (b.stopAndRead handle w).2
  close : ∀ handle w, Q w → Q (b.close handle w).2
  threadCpus? : ∀ w, Q w → Q (b.threadCpus? w).2
  moveThread : ∀ cpus w, Q w → Q (b.moveThread cpus w)

namespace Backend.Preserves

variable {b : Backend σ η} {Q : σ → Prop}

/-! ## 1. The loops -/

theorem openOn (h : b.Preserves Q) (options : OpenOptions) (leader? : Option (SessionEvent η))
    (cpus : List Nat) (event : SessionEvent η) {w : σ} (hw : Q w) :
    Q (event.openOn b options leader? cpus w).2.2 := by
  induction cpus generalizing event w with
  | nil => exact hw
  | cons cpu cpus ih =>
    have hcall := h.openCounter event.attr options cpu
      (leader?.bind fun leader => leader.handle? cpu) _ (h.moveThread [cpu] w hw)
    rw [SessionEvent.openOn]
    split
    · rename_i heq
      rwa [heq] at hcall
    · rename_i heq
      rw [heq] at hcall
      split
      · exact ih _ hcall
      · exact hcall

theorem openEvents (h : b.Preserves Q) (options : OpenOptions) (n : Nat)
    (leader? : Option (SessionEvent η)) (events : List (SessionEvent η)) {w : σ} (hw : Q w) :
    Q (Session.openEvents b options n leader? events w).2.2 := by
  induction events generalizing leader? w with
  | nil => exact hw
  | cons event events ih =>
    have hevent := h.openOn options leader? (targetCpus n event.uncore) (event.prepare n) hw
    rw [Session.openEvents]
    split
    · rename_i heq
      rwa [heq] at hevent
    · rename_i heq
      rw [heq] at hevent
      exact ih _ hevent

theorem startAll (h : b.Preserves Q) (handles : List η) {w : σ} (hw : Q w) :
    Q (Session.startAll b handles w).2 := by
  induction handles generalizing w with
  | nil => exact hw
  | cons handle handles ih =>
    have hcall := h.start handle w hw
    rw [Session.startAll]
    split
    · rename_i heq
      rwa [heq] at hcall
    · rename_i heq
      rw [heq] at hcall
      exact ih hcall

theorem readSlots (h : b.Preserves Q) (slots : List (Slot η)) (sum : Word) {w : σ} (hw : Q w) :
    Q (Session.readSlots b slots sum w).2.2 := by
  induction slots generalizing sum w with
  | nil => exact hw
  | cons slot slots ih =>
    cases slot with
    | none => exact hw
    | some counter =>
      have hcall := h.stopAndRead counter.handle w hw
      rw [Session.readSlots]
      split
      · rename_i heq
        rwa [heq] at hcall
      · rename_i heq
        rw [heq] at hcall
        exact ih _ hcall

theorem readEvents (h : b.Preserves Q) (events : List (SessionEvent η)) {w : σ} (hw : Q w) :
    Q (Session.readEvents b events w).2.2 := by
  induction events generalizing w with
  | nil => exact hw
  | cons event events ih =>
    have hevent := h.readSlots event.slots 0 hw
    rw [Session.readEvents]
    split
    · rename_i heq
      rwa [heq] at hevent
    · rename_i heq
      rw [heq] at hevent
      exact ih hevent

theorem closeAll (h : b.Preserves Q) (handles : List η) {w : σ} (hw : Q w) :
    Q (Session.closeAll b handles w).2 := by
  induction handles generalizing w with
  | nil => exact hw
  | cons handle handles ih => exact ih (h.close handle w hw)

/-! ## 2. Commands and histories -/

theorem openCounters (h : b.Preserves Q) (measureAll : Bool) (pid : Int) (session : Session η)
    {w : σ} (hw : Q w) : Q (session.openCounters b measureAll pid w).2.2 := by
  rw [Session.openCounters]
  split
  · exact hw
  · have hcheck := h.check { pid, measureAll } w hw
    dsimp only
    split
    · rename_i heq
      rwa [heq] at hcheck
    · rename_i heq
      rw [heq] at hcheck
      have hevents := h.openEvents { pid, measureAll } session.cpuCount none session.events
        (h.threadCpus? _ hcheck)
      split
      · exact hevents
      · exact h.moveThread _ _ hevents

theorem perform (h : b.Preserves Q) (session : Session η) (command : SessionCommand) {w : σ}
    (hw : Q w) : Q (session.perform b command w).2.2 := by
  cases command with
  | parse expression resolver => exact hw
  | «open» measureAll pid => exact h.openCounters measureAll pid session hw
  | start =>
    have hall := h.startAll session.handles hw
    rw [Session.perform, Session.start]
    split
    · exact hw
    · split
      · rename_i heq
        rwa [heq] at hall
      · rename_i heq
        rwa [heq] at hall
  | stop =>
    have hall := h.readEvents session.events hw
    rw [Session.perform, Session.stop]
    split
    · exact hw
    · split
      · rename_i heq
        rwa [heq] at hall
      · rename_i heq
        rwa [heq] at hall
  | close => exact h.closeAll session.handles hw

theorem performAll (h : b.Preserves Q) (commands : List SessionCommand) (session : Session η)
    {w : σ} (hw : Q w) : Q (Session.performAll b commands session w).2 := by
  induction commands generalizing session w with
  | nil => exact hw
  | cons command commands ih => exact ih _ (h.perform session command hw)

/-- **What a recorded backend keeps.**  A property of its state and of the calls so far that every
call keeps holds at the end of every history. -/
theorem history {P : σ → List (BackendCall η) → Prop}
    (h : b.recorded.Preserves fun w => P w.1 w.2) {w : σ} (hw : P w []) (n : Nat)
    (commands : List SessionCommand) : ∃ w', P w' (Session.history b n w commands).2 :=
  ⟨_, h.performAll commands { cpuCount := n } (w := (w, [])) hw⟩

end Backend.Preserves

end HardwareCounters
