/-
# A refused command changes nothing

Each command puts its checks, its calls and its changes in an order of its own: opening asks the
backend before it changes the state, and parsing resolves every name before it replaces an event.
So a command that is refused, at whatever point, leaves the session as it was, and of the backend it
has asked no more than whether it would accept the options.

A session that has left the closed state has events.  Starting and stopping check for them all the
same; that check never fails.

* `Refused` are the ways in which a command is refused; `Refused.perform_eq` says what each leaves.
* `Session.Stocked` says that a session that is not closed has events; `Session.Stocked.perform` is
  its step and `stocked_of_history` its run.
* `refused_changes_nothing` puts these together.
-/
import HardwareCounters.Proofs.Session.Events

namespace HardwareCounters

variable {σ η : Type}

/-! ## 1. How a command is refused -/

/-- The ways in which a backend in state `w` and a session refuse a command. -/
inductive Refused (b : Backend σ η) (w : σ) (session : Session η) : SessionCommand → Error → Prop
  /-- Parsing fails: in a wrong state, at a name, or for want of names. -/
  | parse {expression : Text} {resolver : Resolver} {e : Error}
      (h : (session.parse expression resolver).1 = .error e) :
      Refused b w session (.parse expression resolver) e
  /-- The operation is not allowed in the state of the session. -/
  | state {command : SessionCommand} {operation : SessionOperation}
      (hoperation : command.operation? = some operation)
      (h : session.state ∉ operation.allowedIn) :
      Refused b w session command (.invalidState operation session.state)
  /-- There is nothing to open. -/
  | empty (measureAll : Bool) (pid : Int)
      (hstate : session.state ∈ SessionOperation.open.allowedIn) (h : session.events = []) :
      Refused b w session (.open measureAll pid) .emptyEventList
  /-- The backend refuses the options. -/
  | denied (measureAll : Bool) (pid : Int) (hopen : session.refusalOrEmpty? .open = none)
      {e : Error} (h : (b.check { pid, measureAll } w).1 = .error e) :
      Refused b w session (.open measureAll pid) e

namespace Session

variable {session : Session η}

theorem refusal?_of_not_mem {operation : SessionOperation}
    (h : session.state ∉ operation.allowedIn) :
    session.refusal? operation = some (.invalidState operation session.state) := if_neg h

theorem refusalOrEmpty?_of_refusal? {operation : SessionOperation} {e : Error}
    (h : session.refusal? operation = some e) : session.refusalOrEmpty? operation = some e := by
  rw [refusalOrEmpty?, h]
  rfl

/-- Events are only missed where the state would allow the operation. -/
theorem refusalOrEmpty?_of_events_ne_nil (h : session.events ≠ []) (operation : SessionOperation) :
    session.refusalOrEmpty? operation = session.refusal? operation := by
  rw [refusalOrEmpty?, if_neg (by simpa using h), Option.or_none]

/-- Parsing that fails leaves the session as it was. -/
theorem parse_of_result_error {expression : Text} {resolver : Resolver} {e : Error}
    (h : (session.parse expression resolver).1 = .error e) :
    (session.parse expression resolver).2.1 = session := by
  have hparsed := parse_performed session expression resolver
  rw [h] at hparsed
  generalize (session.parse expression resolver).2.1 = after at hparsed
  cases hparsed
  rfl

/-- An operation that is refused, or that lacks events, makes no call. -/
theorem perform_of_refusalOrEmpty? (b : Backend σ η) {command : SessionCommand}
    {operation : SessionOperation} (hoperation : command.operation? = some operation)
    (hparse : operation ≠ .parse) {e : Error} (h : session.refusalOrEmpty? operation = some e)
    (w : σ) : session.perform b command w = (.error e, session, w) := by
  cases command with
  | parse => exact absurd (Option.some.inj hoperation).symm hparse
  | «open» =>
    cases hoperation
    rw [perform, openCounters, h]
  | start =>
    cases hoperation
    rw [perform, start, h]
  | stop =>
    cases hoperation
    rw [perform, stop, h]
  | close => cases hoperation

end Session

/-- **What a refusal leaves.**  The session is as it was, and the calls are at most a question
about options. -/
theorem Refused.perform_eq {b : Backend σ η} {w : σ} {session : Session η}
    {command : SessionCommand} {e : Error} (h : Refused b w session command e)
    (log : List (BackendCall η)) :
    ∃ w' calls,
      session.perform b.recorded command (w, log) = (.error e, session, w', log ++ calls) ∧
      ∀ call ∈ calls, ∃ options outcome, call = .check options outcome := by
  cases h with
  | parse h =>
    refine ⟨w, [], ?_, fun _ hcall => nomatch hcall⟩
    rw [Session.perform, List.append_nil]
    simp only [h, Session.parse_of_result_error h]
  | state hoperation h =>
    have hrefusal := Session.refusal?_of_not_mem h
    refine ⟨w, [], ?_, fun _ hcall => nomatch hcall⟩
    rw [List.append_nil]
    cases command with
    | parse expression resolver =>
      cases hoperation
      rw [Session.perform, Session.parse, hrefusal]
    | «open» | start | stop =>
      refine Session.perform_of_refusalOrEmpty? b.recorded hoperation ?_
        (Session.refusalOrEmpty?_of_refusal? hrefusal) _
      cases hoperation
      decide
    | close => cases hoperation
  | empty measureAll pid hstate h =>
    have hempty : session.refusalOrEmpty? .open = some .emptyEventList := by
      rw [Session.refusalOrEmpty?, refusal?_eq_none_iff.mpr hstate, h]
      rfl
    refine ⟨w, [], ?_, fun _ hcall => nomatch hcall⟩
    rw [List.append_nil]
    exact Session.perform_of_refusalOrEmpty? b.recorded rfl (by decide) hempty _
  | denied measureAll pid hopen h =>
    refine ⟨(b.check { pid, measureAll } w).2, [.check { pid, measureAll } (.error e)], ?_, ?_⟩
    · simp [Session.perform, Session.openCounters, hopen, h]
    · intro call hcall
      exact ⟨_, _, List.mem_singleton.mp hcall⟩

/-! ## 2. A session that is not closed has events -/

/-- The session has events, unless it is closed. -/
def Session.Stocked (session : Session η) : Prop := session.state ≠ .closed → session.events ≠ []

namespace Session.Stocked

variable {session : Session η}

theorem parse (h : session.Stocked) (expression : Text) (resolver : Resolver) :
    (session.parse expression resolver).2.1.Stocked := by
  generalize hresult : session.parse expression resolver = outcome
  have hparsed := parse_performed session expression resolver
  rw [hresult] at hparsed
  obtain ⟨result, after, resolver'⟩ := outcome
  cases hparsed with
  | refused => exact h
  | parsed _ _ _ hne => exact fun _ => hne

/-- A session without events stays as it was, or is closed. -/
theorem perform_of_events_eq_nil (b : Backend σ η) {command : SessionCommand}
    (hparse : command.operation? ≠ some .parse) (hnil : session.events = []) (w : σ) :
    (session.perform b command w).2.1 = session ∨
      (session.perform b command w).2.1.state = .closed := by
  cases hoperation : command.operation? with
  | none =>
    cases command with
    | close => exact Or.inr rfl
    | parse | «open» | start | stop => cases hoperation
  | some operation =>
    left
    rw [hoperation] at hparse
    have hrefusal : ∃ e, session.refusalOrEmpty? operation = some e := by
      rw [Session.refusalOrEmpty?, hnil]
      cases session.refusal? operation with
      | none => exact ⟨_, rfl⟩
      | some e => exact ⟨e, rfl⟩
    obtain ⟨e, he⟩ := hrefusal
    rw [perform_of_refusalOrEmpty? b hoperation (fun heq => hparse (congrArg some heq)) he]

/-- **The step.**  No command takes the events of a session and leaves it unclosed. -/
theorem perform (h : session.Stocked) (b : Backend σ η) (command : SessionCommand) (w : σ) :
    (session.perform b command w).2.1.Stocked := by
  by_cases hparse : command.operation? = some .parse
  · cases command with
    | parse expression resolver => exact h.parse expression resolver
    | «open» | start | stop | close => cases hparse
  · intro hstate
    have hplan := session.plan_perform b hparse w
    rw [Ne, events_eq_nil_iff_plan, hplan, ← events_eq_nil_iff_plan]
    intro hnil
    rcases perform_of_events_eq_nil b hparse hnil w with heq | hclosed
    · rw [heq] at hstate
      exact h hstate hnil
    · exact hstate hclosed

theorem performAll (h : session.Stocked) (b : Backend σ η) (commands : List SessionCommand)
    (w : σ) : (Session.performAll b commands session w).1.Stocked := by
  induction commands generalizing session w with
  | nil => exact h
  | cons command commands ih => exact ih (h.perform b command w) _

end Session.Stocked

/-- **The run.**  After every history a session that is not closed has events. -/
theorem stocked_of_history (b : Backend σ η) (n : Nat) (w : σ) (commands : List SessionCommand) :
    (Session.history b n w commands).1.Stocked := by
  have hnew : ({ cpuCount := n } : Session η).Stocked := fun h => absurd rfl h
  exact hnew.performAll b.recorded commands (w, [])

/-! ## 3. Where the errors of starting and stopping come from -/

/-- The error with which a call failed. -/
def BackendCall.failure? : BackendCall η → Option Error
  | .check _ (.error e) => some e
  | .openCounter _ _ _ _ (.error e) => some e
  | .start _ (.error e) => some e
  | .stopAndRead _ (.error e) => some e
  | .close _ (.error e) => some e
  | _ => none

theorem Starting.exists_failure {handles : List η} {calls : List (BackendCall η)}
    {result : Except Error Unit} (h : Starting handles calls result) {e : Error}
    (he : result = .error e) : ∃ call ∈ calls, call.failure? = some e := by
  induction h with
  | done => cases he
  | failed handle handles e =>
    cases he
    exact ⟨_, List.mem_singleton_self _, rfl⟩
  | started handle _ ih =>
    obtain ⟨call, hcall, hfailure⟩ := ih he
    exact ⟨call, List.mem_cons_of_mem _ hcall, hfailure⟩

theorem SlotReading.exists_failure {slots reached : List (Slot η)} {sum : Word}
    {calls : List (BackendCall η)} {result : Except Error Word}
    (h : SlotReading slots sum calls result reached) {e : Error} (he : result = .error e) :
    ∃ call ∈ calls, call.failure? = some e := by
  induction h with
  | done => cases he
  | gap => cases he
  | failed counter slots sum e =>
    cases he
    exact ⟨_, List.mem_singleton_self _, rfl⟩
  | read counter count _ ih =>
    obtain ⟨call, hcall, hfailure⟩ := ih he
    exact ⟨call, List.mem_cons_of_mem _ hcall, hfailure⟩

theorem Reading.exists_failure {events reached : List (SessionEvent η)}
    {calls : List (BackendCall η)} {result : Except Error Unit}
    (h : Reading events calls result reached) {e : Error} (he : result = .error e) :
    ∃ call ∈ calls, call.failure? = some e := by
  induction h with
  | done => cases he
  | failed _ h =>
    cases he
    exact h.exists_failure rfl
  | read _ _ ih =>
    obtain ⟨call, hcall, hfailure⟩ := ih he
    exact ⟨call, List.mem_append_right _ hcall, hfailure⟩

/-- Starting fails exactly if a call fails, with the error of that call. -/
theorem Starting.result_eq_error_iff {handles : List η} {calls : List (BackendCall η)}
    {result : Except Error Unit} (h : Starting handles calls result) {e : Error} :
    result = .error e ↔ ∃ call ∈ calls, call.failure? = some e := by
  constructor
  · exact h.exists_failure
  · rintro ⟨call, hcall, hfailure⟩
    induction h with
    | done => cases hcall
    | failed handle handles e' =>
      rw [List.mem_singleton.mp hcall] at hfailure
      cases hfailure
      rfl
    | started handle _ ih =>
      rcases List.mem_cons.mp hcall with rfl | hcall
      · cases hfailure
      · exact ih hcall

theorem SlotReading.result_eq_error_iff {slots reached : List (Slot η)} {sum : Word}
    {calls : List (BackendCall η)} {result : Except Error Word}
    (h : SlotReading slots sum calls result reached) {e : Error} :
    result = .error e ↔ ∃ call ∈ calls, call.failure? = some e := by
  constructor
  · exact h.exists_failure
  · rintro ⟨call, hcall, hfailure⟩
    induction h with
    | done => cases hcall
    | gap => cases hcall
    | failed counter slots sum e' =>
      rw [List.mem_singleton.mp hcall] at hfailure
      cases hfailure
      rfl
    | read counter count _ ih =>
      rcases List.mem_cons.mp hcall with rfl | hcall
      · cases hfailure
      · exact ih hcall

/-- Reading fails exactly if a call fails, with the error of that call. -/
theorem Reading.result_eq_error_iff {events reached : List (SessionEvent η)}
    {calls : List (BackendCall η)} {result : Except Error Unit}
    (h : Reading events calls result reached) {e : Error} :
    result = .error e ↔ ∃ call ∈ calls, call.failure? = some e := by
  constructor
  · exact h.exists_failure
  · rintro ⟨call, hcall, hfailure⟩
    induction h with
    | done => cases hcall
    | failed events h =>
      have herror := h.result_eq_error_iff.mpr ⟨call, hcall, hfailure⟩
      cases herror
      rfl
    | read h _ ih =>
      rcases List.mem_append.mp hcall with hcall | hcall
      · have herror := h.result_eq_error_iff.mpr ⟨call, hcall, hfailure⟩
        cases herror
      · exact ih hcall

/-- Where it is allowed, an operation is not refused for want of events, unless it is allowed in the
closed state. -/
theorem Session.Stocked.refusalOrEmpty?_eq_none {session : Session η} (h : session.Stocked)
    {operation : SessionOperation} (hallowed : session.state ∈ operation.allowedIn)
    (hclosed : .closed ∉ operation.allowedIn) : session.refusalOrEmpty? operation = none := by
  have hopen : session.state ≠ .closed := fun heq => hclosed (heq ▸ hallowed)
  rw [refusalOrEmpty?_of_events_ne_nil (h hopen), refusal?_eq_none_iff]
  exact hallowed

/-- A start that is allowed starts the counters, and changes nothing in the session if that
fails. -/
theorem Session.Stocked.starting {session after : Session η} (h : session.Stocked)
    (hallowed : session.state ∈ SessionOperation.start.allowedIn) (b : Backend σ η) {w w' : σ}
    {log log' : List (BackendCall η)} {result : Except Error Unit}
    (hstart : session.start b.recorded (w, log) = (result, after, w', log')) :
    ∃ calls, log' = log ++ calls ∧ Starting session.handles calls result ∧
      ∀ e, result = .error e → after = session := by
  obtain ⟨calls, outcome, w₁, heq, hstarting⟩ := startAll_recorded b session.handles w log
  rw [Session.start, h.refusalOrEmpty?_eq_none hallowed (by decide)] at hstart
  simp only [heq] at hstart
  cases outcome with
  | error e =>
    cases hstart
    exact ⟨calls, rfl, hstarting, fun _ _ => rfl⟩
  | ok =>
    cases hstart
    refine ⟨calls, rfl, hstarting, ?_⟩
    intro e herror
    cases herror

/-- A stop that is allowed reads the counters, and changes nothing but the events of the session if
that fails. -/
theorem Session.Stocked.reading {session after : Session η} (h : session.Stocked)
    (hallowed : session.state ∈ SessionOperation.stop.allowedIn) (b : Backend σ η) {w w' : σ}
    {log log' : List (BackendCall η)} {result : Except Error Unit}
    (hstop : session.stop b.recorded (w, log) = (result, after, w', log')) :
    ∃ calls, log' = log ++ calls ∧ Reading session.events calls result after.events ∧
      ∀ e, result = .error e → after = { session with events := after.events } := by
  obtain ⟨calls, outcome, reached, w₁, heq, hreading⟩ := readEvents_recorded b session.events w log
  rw [Session.stop, h.refusalOrEmpty?_eq_none hallowed (by decide)] at hstop
  simp only [heq] at hstop
  cases outcome with
  | error e =>
    cases hstop
    exact ⟨calls, rfl, hreading, fun _ _ => rfl⟩
  | ok =>
    cases hstop
    refine ⟨calls, rfl, hreading, ?_⟩
    intro e herror
    cases herror

/-- Starting and stopping fail in a wrong state, or by a call that fails. -/
theorem Session.Stocked.exists_failure_of_perform {session : Session η} (hstocked : session.Stocked)
    (b : Backend σ η) {command : SessionCommand} {operation : SessionOperation}
    (hoperation : command.operation? = some operation)
    (hkind : operation = .start ∨ operation = .stop) {w w' : σ} {log log' : List (BackendCall η)}
    {after : Session η} {e : Error}
    (h : session.perform b.recorded command (w, log) = (.error e, after, w', log')) :
    e = .invalidState operation session.state ∨
      ∃ calls, log' = log ++ calls ∧ ∃ call ∈ calls, call.failure? = some e := by
  by_cases hstate : session.state ∈ operation.allowedIn
  · right
    cases command with
    | parse | «open» =>
      cases hoperation
      rcases hkind with hkind | hkind <;> cases hkind
    | start =>
      cases hoperation
      obtain ⟨calls, hlog, hstarting, -⟩ := hstocked.starting hstate b h
      exact ⟨calls, hlog, hstarting.exists_failure rfl⟩
    | stop =>
      cases hoperation
      obtain ⟨calls, hlog, hreading, -⟩ := hstocked.reading hstate b h
      exact ⟨calls, hlog, hreading.exists_failure rfl⟩
    | close => cases hoperation
  · left
    have hparse : operation ≠ .parse := by
      rcases hkind with rfl | rfl <;> decide
    have hrefusal := refusalOrEmpty?_of_refusal? (refusal?_of_not_mem hstate)
    rw [perform_of_refusalOrEmpty? b.recorded hoperation hparse hrefusal] at h
    cases h
    rfl

/-! ## 4. Every history -/

/-- **A refused command changes nothing.**  After every history on every backend, a command that is
refused leaves the session as it was, with its counts, sums and state, and makes no call but the
question whether the backend accepts the options.  A session that is not closed has events, so that
starting or stopping never fails for want of events: the backend would have to report that error
itself. -/
theorem refused_changes_nothing (b : Backend σ η) (n : Nat) (w : σ)
    (commands : List SessionCommand) {session : Session η} {log : List (BackendCall η)}
    (h : Session.history b n w commands = (session, log)) :
    (∀ command w₁ e, Refused b w₁ session command e →
      ∃ w₂ calls,
        session.perform b.recorded command (w₁, log) = (.error e, session, w₂, log ++ calls) ∧
        ∀ call ∈ calls, ∃ options outcome, call = .check options outcome) ∧
    (session.state ≠ .closed → session.events ≠ []) ∧
    ∀ command operation w₁ after w₂ log',
      command.operation? = some operation → operation = .start ∨ operation = .stop →
      session.perform b.recorded command (w₁, log) = (.error .emptyEventList, after, w₂, log') →
      ∃ calls, log' = log ++ calls ∧ ∃ call ∈ calls, call.failure? = some .emptyEventList := by
  have hstocked := stocked_of_history b n w commands
  rw [h] at hstocked
  refine ⟨fun command w₁ e hrefused => hrefused.perform_eq log, hstocked, ?_⟩
  intro command operation w₁ after w₂ log' hoperation hkind hperform
  rcases hstocked.exists_failure_of_perform b hoperation hkind hperform with herror | hcalls
  · cases herror
  · exact hcalls

namespace Example

/-- A backend that does not count for everybody. -/
def deniesAll : BackendScript := { denyAll? := some .notCapable }

/-- A session that has been parsed for that backend, and its log. -/
def beforeDenial : Session Nat × List (BackendCall Nat) :=
  Session.history deniesAll.backend 1 {} [.parse "r1".toList ⟨⟨[], {}⟩, {}⟩]

end Example

open Example in
theorem refused_changes_nothing_denied :
    (beforeDenial.1.state = .parsed ∧
      Refused deniesAll.backend {} beforeDenial.1 (.open true 7) .notCapable) ∧
    (∃ w₂ calls,
      beforeDenial.1.perform deniesAll.backend.recorded (.open true 7) ({}, beforeDenial.2) =
        (.error .notCapable, beforeDenial.1, w₂, beforeDenial.2 ++ calls) ∧
      ∀ call ∈ calls, ∃ options outcome, call = .check options outcome) ∧
    beforeDenial.1.events ≠ [] := by
  have hdenied : Refused deniesAll.backend {} beforeDenial.1 (.open true 7) .notCapable :=
    .denied true 7 rfl rfl
  obtain ⟨hrefused, hevents, -⟩ := refused_changes_nothing deniesAll.backend 1 {}
    [.parse "r1".toList ⟨⟨[], {}⟩, {}⟩] (Prod.eta beforeDenial).symm
  exact ⟨⟨rfl, hdenied⟩, hrefused _ _ _ hdenied, hevents (by decide)⟩

end HardwareCounters
