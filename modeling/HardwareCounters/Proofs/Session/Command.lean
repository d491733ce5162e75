/-
# Sessions under any sequence of commands

The five operations of a session are commands, and a history is what a list of commands makes of a
new session on some backend.  `Performed` says everything that one command can do: the calls that
reach the backend, the result, and the session afterwards, also for every way in which the command
can fail.  An invariant of sessions is then nine short cases, and `history_induction` carries it
over all histories.

* `perform_recorded` proves that every command on every backend is `Performed`;
* `history_induction`: what a new session satisfies and every command keeps holds ever after.
-/
import HardwareCounters.Proofs.Session.Opening
import HardwareCounters.Session.Expression

namespace HardwareCounters

variable {σ η : Type}

/-! ## 1. Commands and histories -/

/-- An operation on a session with its arguments. -/
inductive SessionCommand where
  | parse (expression : Text) (resolver : Resolver)
  | open (measureAll : Bool) (pid : Int)
  | start
  | stop
  | close

namespace Session

/-- Performs a command on a backend. -/
def perform (b : Backend σ η) (session : Session η) :
    SessionCommand → σ → Except Error Unit × Session η × σ
  | .parse expression resolver, w =>
    match session.parse expression resolver with
    | (result, session, _) => (result, session, w)
  | .open measureAll pid, w => session.openCounters b measureAll pid w
  | .start, w => session.start b w
  | .stop, w => session.stop b w
  | .close, w => session.close b w

/-- Performs commands in order, whether they succeed or fail. -/
def performAll (b : Backend σ η) : List SessionCommand → Session η → σ → Session η × σ
  | [], session, w => (session, w)
  | command :: commands, session, w =>
    match session.perform b command w with
    | (_, session, w) => performAll b commands session w

/-- The session on `n` processors after commands, and the calls that reached the backend. -/
def history (b : Backend σ η) (n : Nat) (w : σ) (commands : List SessionCommand) :
    Session η × List (BackendCall η) :=
  match performAll b.recorded commands { cpuCount := n } (w, []) with
  | (session, _, log) => (session, log)

end Session

/-! ## 2. What a command can do -/

/-- What a command can do to a session: the calls that it makes, its result and the session
afterwards. -/
inductive Performed :
    SessionCommand → Session η → List (BackendCall η) → Except Error Unit → Session η → Prop
  /-- The command is refused before any call is made. -/
  | refused (command : SessionCommand) (session : Session η) (e : Error) :
      Performed command session [] (.error e) session
  /-- An expression without counters takes the place of the events. -/
  | parsed (expression : Text) (resolver : Resolver) {session : Session η}
      (hstate : session.state ∈ SessionOperation.parse.allowedIn) {events : List (SessionEvent η)}
      (hne : events ≠ []) (hslots : ∀ event ∈ events, event.slots = []) :
      Performed (.parse expression resolver) session [] (.ok ())
        { session with events, state := .parsed }
  /-- The backend refuses the options. -/
  | denied (measureAll : Bool) (pid : Int) {session : Session η}
      (hopen : session.refusalOrEmpty? .open = none) (e : Error) :
      Performed (.open measureAll pid) session [.check { pid, measureAll } (.error e)] (.error e)
        session
  | opened (measureAll : Bool) (pid : Int) {session : Session η}
      (hopen : session.refusalOrEmpty? .open = none) {calls : List (BackendCall η)}
      {result : Except Error Unit} {events : List (SessionEvent η)}
      (h : Opening { pid, measureAll } session.cpuCount none session.events calls result events) :
      Performed (.open measureAll pid) session (.check { pid, measureAll } (.ok ()) :: calls) result
        { session with events, state := .opened }
  | startFailed {session : Session η} (hstart : session.refusalOrEmpty? .start = none)
      {calls : List (BackendCall η)} {e : Error}
      (h : Starting session.handles calls (.error e)) :
      Performed .start session calls (.error e) session
  | started {session : Session η} (hstart : session.refusalOrEmpty? .start = none)
      {calls : List (BackendCall η)} (h : Starting session.handles calls (.ok ())) :
      Performed .start session calls (.ok ()) { session with state := .running }
  | stopFailed {session : Session η} (hstop : session.refusalOrEmpty? .stop = none)
      {calls : List (BackendCall η)} {e : Error} {events : List (SessionEvent η)}
      (h : Reading session.events calls (.error e) events) :
      Performed .stop session calls (.error e) { session with events }
  | stopped {session : Session η} (hstop : session.refusalOrEmpty? .stop = none)
      {calls : List (BackendCall η)} {events : List (SessionEvent η)}
      (h : Reading session.events calls (.ok ()) events) :
      Performed .stop session calls (.ok ()) { session with events, state := .stopped }
  | closed {session : Session η} {calls : List (BackendCall η)} {result : Except Error Unit}
      (h : Closing session.handles calls result) :
      Performed .close session calls result
        { session with
          events := session.events.map fun event => { event with slots := [] }
          state := .closed }

/-- Resolving names makes events without counters. -/
theorem slots_of_mem_resolveTokens {resolver : Resolver} {tokens : List EventToken}
    {events : List (SessionEvent η)} (h : (resolver.resolveTokens tokens).1 = .ok events) :
    ∀ event ∈ events, event.slots = [] := by
  induction tokens generalizing resolver events with
  | nil =>
    simp only [Resolver.resolveTokens, Except.ok.injEq] at h
    simp [← h]
  | cons token tokens ih =>
    rw [Resolver.resolveTokens] at h
    split at h
    · cases h
    · split at h
      · cases h
      · split at h
        · cases h
        · rename_i others _ hothers
          rw [Except.ok.injEq] at h
          subst h
          intro event hevent
          rcases List.mem_cons.mp hevent with rfl | hevent
          · rfl
          · exact ih (by rw [hothers]) event hevent

theorem refusal?_eq_none_iff {session : Session η} {operation : SessionOperation} :
    session.refusal? operation = none ↔ session.state ∈ operation.allowedIn := by
  rw [Session.refusal?]
  split
  · simp_all
  · simp_all

theorem parse_performed (session : Session η) (expression : Text) (resolver : Resolver) :
    Performed (.parse expression resolver) session [] (session.parse expression resolver).1
      (session.parse expression resolver).2.1 := by
  rw [Session.parse]
  split
  · exact .refused _ session _
  · rename_i hallowed
    split
    · exact .refused _ session _
    · exact .refused _ session _
    · rename_i events _ hne hevents
      exact .parsed expression resolver (refusal?_eq_none_iff.mp hallowed)
        hne (slots_of_mem_resolveTokens (by rw [hevents]))

/-- **Every command is performed.**  Whatever the backend does, the calls, the result and the
session afterwards are as `Performed` says. -/
theorem perform_recorded (b : Backend σ η) {session : Session η} (hn : 1 ≤ session.cpuCount)
    (command : SessionCommand) (w : σ) (log : List (BackendCall η)) :
    ∃ calls result after w',
      session.perform b.recorded command (w, log) = (result, after, w', log ++ calls) ∧
      Performed command session calls result after := by
  cases command with
  | parse expression resolver =>
    exact ⟨[], _, _, w, by simp [Session.perform], parse_performed session expression resolver⟩
  | «open» measureAll pid =>
    cases hopen : session.refusalOrEmpty? .open with
    | some e =>
      exact ⟨[], .error e, session, w, by simp [Session.perform, Session.openCounters, hopen],
        .refused _ session e⟩
    | none =>
      rcases hcheck : b.check { pid, measureAll } w with ⟨e | _, w₁⟩
      · refine ⟨_, .error e, session, w₁, ?_, .denied measureAll pid hopen e⟩
        simp [Session.perform, Session.openCounters, hopen, hcheck]
      · obtain ⟨calls, result, opened, w', heq, h⟩ :=
          openCounters_recorded b measureAll pid hn hopen (congrArg Prod.fst hcheck) log
        exact ⟨_, result, _, w', heq, .opened measureAll pid hopen h⟩
  | start =>
    cases hstart : session.refusalOrEmpty? .start with
    | some e =>
      exact ⟨[], .error e, session, w, by simp [Session.perform, Session.start, hstart],
        .refused _ session e⟩
    | none =>
      obtain ⟨calls, result, w', heq, h⟩ := startAll_recorded b session.handles w log
      rcases result with e | _
      · exact ⟨calls, .error e, session, w', by simp [Session.perform, Session.start, hstart, heq],
          .startFailed hstart h⟩
      · exact ⟨calls, .ok (), _, w', by simp [Session.perform, Session.start, hstart, heq],
          .started hstart h⟩
  | stop =>
    cases hstop : session.refusalOrEmpty? .stop with
    | some e =>
      exact ⟨[], .error e, session, w, by simp [Session.perform, Session.stop, hstop],
        .refused _ session e⟩
    | none =>
      obtain ⟨calls, result, reached, w', heq, h⟩ := readEvents_recorded b session.events w log
      rcases result with e | _
      · exact ⟨calls, .error e, _, w', by simp [Session.perform, Session.stop, hstop, heq],
          .stopFailed hstop h⟩
      · exact ⟨calls, .ok (), _, w', by simp [Session.perform, Session.stop, hstop, heq],
          .stopped hstop h⟩
  | close =>
    obtain ⟨calls, result, w', heq, h⟩ := closeAll_recorded b session.handles w log
    exact ⟨calls, result, _, w', by simp [Session.perform, Session.close, heq], .closed h⟩

/-! ## 3. Histories -/

theorem Performed.cpuCount_eq {command : SessionCommand} {session after : Session η}
    {calls : List (BackendCall η)} {result : Except Error Unit}
    (h : Performed command session calls result after) : after.cpuCount = session.cpuCount := by
  cases h <;> rfl

/-- What every command keeps, a list of commands keeps. -/
theorem performAll_induction {P : Session η → List (BackendCall η) → Prop}
    (hstep : ∀ {command session calls result after log}, 1 ≤ session.cpuCount →
      Performed command session calls result after → P session log → P after (log ++ calls))
    (b : Backend σ η) (commands : List SessionCommand) (session : Session η)
    (hn : 1 ≤ session.cpuCount) (w : σ) {log : List (BackendCall η)} (h : P session log) :
    ∃ after w' more, Session.performAll b.recorded commands session (w, log) = (after, w', more) ∧
      P after more := by
  induction commands generalizing session w log with
  | nil => exact ⟨session, w, log, rfl, h⟩
  | cons command commands ih =>
    obtain ⟨calls, result, next, w₁, heq, hperformed⟩ := perform_recorded b hn command w log
    obtain ⟨after, w', more, hrest, hafter⟩ :=
      ih next (hperformed.cpuCount_eq ▸ hn) w₁ (hstep hn hperformed h)
    exact ⟨after, w', more, by simp only [Session.performAll, heq, hrest], hafter⟩

/-- **Invariants of sessions.**  What holds of a new session and its empty log, and is kept by
whatever a command can do, holds after every history. -/
theorem history_induction {P : Session η → List (BackendCall η) → Prop} {n : Nat} (hn : 1 ≤ n)
    (hnew : P { cpuCount := n } [])
    (hstep : ∀ {command session calls result after log}, 1 ≤ session.cpuCount →
      Performed command session calls result after → P session log → P after (log ++ calls))
    (b : Backend σ η) (w : σ) (commands : List SessionCommand) {session : Session η}
    {log : List (BackendCall η)} (h : Session.history b n w commands = (session, log)) :
    P session log := by
  obtain ⟨after, w', more, heq, hafter⟩ :=
    performAll_induction hstep b commands { cpuCount := n } hn w hnew
  rw [Session.history, heq, Prod.mk.injEq] at h
  obtain ⟨rfl, rfl⟩ := h
  exact hafter

end HardwareCounters
