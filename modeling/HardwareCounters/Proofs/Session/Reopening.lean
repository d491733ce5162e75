/-
# Sessions leave no residue

A session may be opened again after it has been closed, whatever has been done with it in between and
whatever failed.  Opening it then is opening it for the first time: the same calls are made, with
leaders that were opened by calls of the same opening, and the same slots are filled.  Only the
handles differ, and the sums of events that are not reached, which nothing sets to zero.

* `Session.Ready`: a session that can be opened and holds no counters, which is so after an
  expression has been parsed and after the session has been closed;
* `Session.Ready.matches_of_answeredAlike`: the openings of two such sessions with the same events;
* `reopened_without_residue` compares opening a closed session with opening it after parsing.
-/
import HardwareCounters.Proofs.Session.OpenPattern
import HardwareCounters.Proofs.Session.Parsing
import HardwareCounters.Proofs.Session.Readings

namespace HardwareCounters

variable {σ η : Type}

/-! ## 1. Openings -/

/-- What opening a session gives, with the calls that it made. -/
structure OpenOutcome (η : Type) where
  result : Except Error Unit
  session : Session η
  calls : List (BackendCall η)

/-- Opens a session and records the calls of that. -/
def Session.openOutcome (b : Backend σ η) (measureAll : Bool) (pid : Int) (session : Session η)
    (w : σ) : OpenOutcome η :=
  match session.openCounters b.recorded measureAll pid (w, []) with
  | (result, session, _, calls) => ⟨result, session, calls⟩

namespace OpenOutcome

/-- Two openings are one and the same apart from their handles. -/
structure Matches (again first : OpenOutcome η) : Prop where
  result_eq : again.result = first.result
  state_eq : again.session.state = first.session.state
  plan_eq : again.session.plan = first.session.plan
  pattern : ∃ pattern : OpenPattern, pattern.Describes first.calls first.session.events ∧
    pattern.Describes again.calls again.session.events

/-- What is in a log has left no trace in an opening. -/
structure Clean (outcome : OpenOutcome η) (log : List (BackendCall η)) : Prop where
  opened : outcome.session.state = .opened
  /-- The events that were reached start from zero. -/
  totalSum_eq : ∀ event ∈ outcome.session.events, event.slots ≠ [] → event.totalSum = 0
  /-- Every leader that is passed on was opened by an earlier call of the opening. -/
  leader_given : ∀ k call leader, outcome.calls[k]? = some call → call.leader? = some leader →
    ∃ j < k, givenBy outcome.calls j = some leader
  /-- No leader was opened before, if handles can be told apart. -/
  leader_new : (openedHandles (log ++ outcome.calls)).Nodup → ∀ call ∈ outcome.calls,
    ∀ leader, call.leader? = some leader → leader ∉ openedHandles log

end OpenOutcome

/-! ## 2. Sessions without counters -/

namespace Session

/-- The session can be opened and holds no counters. -/
structure Ready (session : Session η) : Prop where
  cpus : 1 ≤ session.cpuCount
  allowed : session.refusalOrEmpty? .open = none
  slots : ∀ event ∈ session.events, event.slots = []

/-- Opening keeps the events as they were parsed. -/
theorem plan_openOutcome (b : Backend σ η) (measureAll : Bool) (pid : Int) (session : Session η)
    (w : σ) : (session.openOutcome b measureAll pid w).session.plan = session.plan := by
  have hcommand : (SessionCommand.open measureAll pid).operation? ≠ some .parse := nofun
  exact session.plan_perform b.recorded hcommand (w, [])

namespace Ready

variable {session other : Session η} {measureAll : Bool} {pid : Int} {b : Backend σ η} {w w' : σ}

theorem events_ne_nil (h : session.Ready) : session.events ≠ [] := by
  intro hnil
  have hempty := (Option.or_eq_none_iff.mp h.allowed).2
  rw [hnil] at hempty
  cases hempty

theorem exists_opening (h : session.Ready)
    (hcheck : (b.check { pid, measureAll } w).1 = .ok ()) :
    ∃ calls result opened, session.openOutcome b measureAll pid w =
        ⟨result, { session with events := opened, state := .opened },
          .check { pid, measureAll } (.ok ()) :: calls⟩ ∧
      Opening { pid, measureAll } session.cpuCount none session.events calls result opened := by
  obtain ⟨calls, result, opened, w', heq, hopening⟩ :=
    openCounters_recorded b measureAll pid h.cpus h.allowed hcheck []
  refine ⟨calls, result, opened, ?_, hopening⟩
  rw [openOutcome, heq]
  rfl

/-- **Openings of the same events match**, if their calls are answered alike. -/
theorem matches_of_answeredAlike (h : session.Ready) (hother : other.Ready)
    (hcpus : other.cpuCount = session.cpuCount) (hplan : other.plan = session.plan)
    (hcheck : (b.check { pid, measureAll } w).1 = .ok ())
    (hcheck' : (b.check { pid, measureAll } w').1 = .ok ())
    (halike : AnsweredAlike (session.openOutcome b measureAll pid w).calls
      (other.openOutcome b measureAll pid w').calls) :
    (other.openOutcome b measureAll pid w').Matches (session.openOutcome b measureAll pid w) := by
  obtain ⟨calls, result, opened, heq, hopening⟩ := h.exists_opening hcheck
  obtain ⟨calls', result', opened', heq', hopening'⟩ := hother.exists_opening hcheck'
  have hplans : (other.openOutcome b measureAll pid w').session.plan =
      (session.openOutcome b measureAll pid w).session.plan := by
    rw [plan_openOutcome, plan_openOutcome, hplan]
  rw [hcpus] at hopening'
  rw [heq, heq'] at halike hplans ⊢
  have hlength : session.events.length = other.events.length := by
    have := congrArg List.length hplan
    simpa [plan] using this.symm
  have hanswers : answer? calls = answer? calls' :=
    hopening.answers_eq hopening' h.cpus hlength fun k call call' hk hk' =>
      halike (k + 1) call call' hk hk'
  have hdescribes := hopening.describes h.cpus h.slots
  have hdescribes' := hopening'.describes h.cpus hother.slots
  have hevents : other.events.map SessionEvent.asParsed =
    session.events.map SessionEvent.asParsed := hplan
  rw [hevents, ← hanswers] at hdescribes'
  exact {
    result_eq := hopening'.result_eq hopening h.cpus hevents hanswers.symm
    state_eq := rfl
    plan_eq := hplans
    pattern := ⟨_, hdescribes, hdescribes'⟩ }

/-- **Openings are clean**, whatever has been called before. -/
theorem clean (h : session.Ready) (hcheck : (b.check { pid, measureAll } w).1 = .ok ())
    (log : List (BackendCall η)) : (session.openOutcome b measureAll pid w).Clean log := by
  obtain ⟨calls, result, opened, heq, hopening⟩ := h.exists_opening hcheck
  have hdescribes := hopening.describes h.cpus h.slots
  have hgiven : ∀ k call leader,
      (BackendCall.check { pid, measureAll } (.ok ()) :: calls)[k]? = some call →
        call.leader? = some leader →
          ∃ j < k, givenBy (.check { pid, measureAll } (.ok ()) :: calls) j = some leader :=
    fun k call leader hk hleader => hdescribes.exists_earlier hk hleader
  rw [heq]
  refine ⟨rfl, hopening.totalSum_eq_zero h.cpus h.slots, hgiven, ?_⟩
  intro hdistinct call hcall leader hleader hold
  obtain ⟨k, hk, rfl⟩ := List.getElem_of_mem hcall
  obtain ⟨j, -, hj⟩ := hgiven k _ leader (List.getElem?_eq_getElem hk) hleader
  rw [openedHandles_append, List.nodup_append] at hdistinct
  exact hdistinct.2.2 leader hold leader (mem_openedHandles_of_givenBy hj) rfl

end Ready

/-! ## 3. Parsed and closed sessions -/

theorem ready_of_parse {session parsed : Session η} {expression : Text}
    {resolver after : Resolver} (h : session.parse expression resolver = (.ok (), parsed, after))
    (hn : 1 ≤ session.cpuCount) : parsed.Ready := by
  obtain ⟨-, events, hne, hevents, rfl⟩ := exists_events_of_parse h
  refine ⟨hn, ?_, slots_of_mem_resolveTokens hevents⟩
  rw [refusalOrEmpty?_of_events_ne_nil hne]
  rfl

/-- Closing leaves a session that can be opened, unless it has no events. -/
theorem ready_of_close (b : Backend σ η) {session : Session η} (hn : 1 ≤ session.cpuCount)
    (hne : session.events ≠ []) (w : σ) : (session.close b w).2.1.Ready := by
  refine ⟨hn, ?_, ?_⟩
  · have hclosed : (session.close b w).2.1.events ≠ [] := by simpa [close] using hne
    rw [refusalOrEmpty?_of_events_ne_nil hclosed]
    rfl
  · intro event hevent
    obtain ⟨before, -, rfl⟩ := List.mem_map.mp hevent
    rfl

theorem cpuCount_performAll (b : Backend σ η) (commands : List SessionCommand)
    {session : Session η} (hn : 1 ≤ session.cpuCount) (w : σ) (log : List (BackendCall η)) :
    (performAll b.recorded commands session (w, log)).1.cpuCount = session.cpuCount := by
  obtain ⟨after, w', more, heq, hcpus⟩ := performAll_induction
    (P := fun after _ => after.cpuCount = session.cpuCount)
    (fun _ hperformed hcpus => hperformed.cpuCount_eq.trans hcpus) b commands session hn w rfl
  rw [heq]
  exact hcpus

end Session

/-- **Sessions leave no residue.**  Take a session on at least one processor that has parsed an
expression, and any commands but parsing, whether they succeed or fail.  They leave the events as
they were parsed.  When the session is closed after them, and opened with options that the backend
accepts, then this opening is clean: events that are reached start from zero, and leaders are passed
on that were opened by earlier calls of this very opening, none from before.  And if its calls are
answered like those of an opening directly after parsing, as far as both go, then the two make the
same calls and end with the same result, in the same state and with the same slots, all with the
handles of the one in place of those of the other. -/
theorem reopened_without_residue (b : Backend σ η) {session parsed : Session η} {expression : Text}
    {resolver after : Resolver}
    (hparse : session.parse expression resolver = (.ok (), parsed, after))
    (hn : 1 ≤ session.cpuCount) {commands : List SessionCommand}
    (hcommands : ∀ command ∈ commands, command.operation? ≠ some .parse) (w : σ)
    (log : List (BackendCall η)) :
    (Session.performAll b.recorded commands parsed (w, log)).1.plan = parsed.plan ∧
    ∀ closed w₁ log₁,
      Session.performAll b.recorded (commands ++ [.close]) parsed (w, log) = (closed, w₁, log₁) →
      ∀ measureAll pid, (b.check { pid, measureAll } w₁).1 = .ok () →
        (closed.openOutcome b measureAll pid w₁).Clean log₁ ∧
        ∀ w₀, (b.check { pid, measureAll } w₀).1 = .ok () →
          AnsweredAlike (parsed.openOutcome b measureAll pid w₀).calls
            (closed.openOutcome b measureAll pid w₁).calls →
          (closed.openOutcome b measureAll pid w₁).Matches
            (parsed.openOutcome b measureAll pid w₀) := by
  have hready := Session.ready_of_parse hparse hn
  have hplan := parsed.plan_performAll b.recorded hcommands (w, log)
  have hcpus := Session.cpuCount_performAll b commands hready.cpus w log
  refine ⟨hplan, ?_⟩
  intro closed w₁ log₁ hclosed measureAll pid hcheck
  rw [performAll_append] at hclosed
  generalize Session.performAll b.recorded commands parsed (w, log) = outcome
    at hplan hcpus hclosed
  obtain ⟨later, w', log'⟩ := outcome
  obtain rfl : (later.close b.recorded (w', log')).2.1 = closed := congrArg Prod.fst hclosed
  have hne : later.events ≠ [] := by
    rw [ne_eq, Session.events_eq_nil_iff_plan, hplan, ← Session.events_eq_nil_iff_plan]
    exact hready.events_ne_nil
  have hclosedPlan : (later.close b.recorded (w', log')).2.1.plan = later.plan := by
    have hcommand : SessionCommand.close.operation? ≠ some .parse := nofun
    exact later.plan_perform b.recorded hcommand (w', log')
  have hclosedReady := Session.ready_of_close b.recorded (hcpus ▸ hready.cpus) hne (w', log')
  refine ⟨hclosedReady.clean hcheck log₁, fun w₀ hcheck₀ halike => ?_⟩
  exact hready.matches_of_answeredAlike hclosedReady hcpus (hclosedPlan.trans hplan) hcheck₀ hcheck
    halike

namespace Example

/-- A backend on which the second event cannot be opened on processor 1. -/
def opensHalfway : BackendScript :=
  { rules := [{ selector := { config? := some 2, cpu? := some 1 }, opens := [some .notCapable] }] }

/-- A group of two events and an event on its own. -/
def groupText : Text := "\x7br1;r2\x7d;r3".toList

/-- A session on two processors that has parsed this. -/
def groupParsed : Session Nat :=
  (({ cpuCount := 2 } : Session Nat).parse groupText bareResolver).2.1

/-- It is opened, started and stopped, as far as that is possible. -/
def measuringGroup : List SessionCommand := [.open false 7, .start, .stop, .stop]

/-- The session after that and after closing it, with its backend. -/
def groupClosed : Session Nat × ScriptState × List (BackendCall Nat) :=
  Session.performAll opensHalfway.backend.recorded (measuringGroup ++ [.close]) groupParsed ({}, [])

/-- What opening the session gives directly after parsing. -/
def groupOpened : OpenOutcome Nat := groupParsed.openOutcome opensHalfway.backend false 7 {}

/-- What opening it gives when it has been closed. -/
def groupReopened : OpenOutcome Nat :=
  groupClosed.1.openOutcome opensHalfway.backend false 7 groupClosed.2.1

end Example

open Example in
theorem reopened_without_residue_halfway :
    (groupReopened.session.handles = [3, 4, 5] ∧ groupOpened.session.handles = [0, 1, 2]) ∧
    (Session.performAll opensHalfway.backend.recorded measuringGroup groupParsed
      ({}, [])).1.plan = groupParsed.plan ∧ groupReopened.Clean groupClosed.2.2 ∧
    groupReopened.Matches groupOpened := by
  have hcommands : ∀ command ∈ measuringGroup, command.operation? ≠ some .parse := by decide
  have hparse : ({ cpuCount := 2 } : Session Nat).parse groupText bareResolver =
      (.ok (), groupParsed, bareResolver.loaded) := rfl
  obtain ⟨hplan, hclosed⟩ := reopened_without_residue opensHalfway.backend hparse (by decide) hcommands
    {} []
  have hreopened := hclosed groupClosed.1 groupClosed.2.1 groupClosed.2.2 rfl false 7 rfl
  have halike : AnsweredAlike groupOpened.calls groupReopened.calls := answeredAlike_of_map_eq rfl
  exact ⟨⟨rfl, rfl⟩, hplan, hreopened.1, hreopened.2 {} rfl halike⟩

end HardwareCounters
