/-
# Every handle is held once or was released once

A session owns the handles that its backend gave it.  Opening an expression replaces all slots and
parsing replaces all events, so a handle could be lost there; closing drains all slots, so a handle
could be released again by a second close.  Neither happens, because a session that may be parsed or
opened holds no handle.

* `Accounted` is that invariant with the balance of handles; `Accounted.performed` is its step and
  `accounted_of_history` its run.  `history_induction_of_nodup` is for invariants that rest on it.
* `Backend.numbered` makes each handle an object of its own, as an owned value is, so that one can
  say of each handle where it ends up.
* `handles_accounted` says that for every backend and every sequence of commands.
-/
import HardwareCounters.Proofs.Session.Preserved
import Mathlib.Data.List.Nodup

namespace HardwareCounters

variable {σ η : Type}

/-! ## 1. The balance of a session -/

/-- The handles that were opened are those that the session holds and those that were closed. -/
structure Accounted (session : Session η) (log : List (BackendCall η)) : Prop where
  balance : (openedHandles log).Perm (session.handles ++ closedHandles log)
  /-- Nothing is held where events or slots may be replaced. -/
  idle : session.state = .closed ∨ session.state = .parsed → session.handles = []

/-- Opening closes nothing. -/
theorem Opening.closedHandles_eq_nil {options : OpenOptions} {n : Nat}
    {leader? : Option (SessionEvent η)} {events opened : List (SessionEvent η)}
    {calls : List (BackendCall η)} {result : Except Error Unit}
    (h : Opening options n leader? events calls result opened) : closedHandles calls = [] := by
  have hcalls : ∀ (event : SessionEvent η) (leader? : Option (SessionEvent η)) (handles : List η),
      closedHandles (openCalls event options leader? 0 handles) = [] := by
    intro event leader? handles
    rw [closedHandles, List.filterMap_eq_nil_iff]
    intro call hcall
    obtain ⟨⟨handle, cpu⟩, _, rfl⟩ := List.mem_map.mp hcall
    rfl
  induction h with
  | done => rfl
  | failed leader? event events handles e =>
    rw [closedHandles_append, hcalls, List.nil_append]
    rfl
  | opened _ _ ih => rw [closedHandles_append, hcalls, ih, List.nil_append]

/-- An operation that is not refused is in a state that allows it. -/
theorem state_of_refusalOrEmpty? {session : Session η} {operation : SessionOperation}
    (h : session.refusalOrEmpty? operation = none) : session.state ∈ operation.allowedIn := by
  rw [Session.refusalOrEmpty?, Option.or_eq_none_iff] at h
  exact refusal?_eq_none_iff.mp h.1

/-- A session that may be parsed or opened holds nothing. -/
theorem Accounted.handles_eq_nil {session : Session η} {log : List (BackendCall η)}
    (h : Accounted session log) {operation : SessionOperation}
    (hoperation : operation = .parse ∨ operation = .open)
    (hstate : session.state ∈ operation.allowedIn) : session.handles = [] := by
  refine h.idle ?_
  rcases hoperation with rfl | rfl
  · simpa [SessionOperation.allowedIn] using hstate
  · simpa [SessionOperation.allowedIn, or_comm] using hstate

/-- Events without slots hold nothing. -/
theorem flatMap_handles_eq_nil {events : List (SessionEvent η)}
    (h : ∀ event ∈ events, event.slots = []) : events.flatMap SessionEvent.handles = [] := by
  rw [List.flatMap_eq_nil_iff]
  intro event hevent
  rw [SessionEvent.handles, h event hevent]
  rfl

/-- The closed session with the same events and no slots. -/
def Session.emptied (session : Session η) : Session η :=
  { session with
    events := session.events.map fun event => { event with slots := [] }
    state := .closed }

theorem Session.handles_emptied (session : Session η) : session.emptied.handles = [] := by
  refine flatMap_handles_eq_nil fun event hevent => ?_
  obtain ⟨old, -, rfl⟩ := List.mem_map.mp hevent
  rfl

/-- Calls that neither open nor close a handle keep the account of a session that holds the same
handles as before, and is idle only if it was. -/
theorem Accounted.frame {session after : Session η} {log calls : List (BackendCall η)}
    (h : Accounted session log) (hnone : openedHandles calls = [] ∧ closedHandles calls = [])
    (hhandles : after.handles = session.handles)
    (hstate : after.state = .closed ∨ after.state = .parsed → after.handles = []) :
    Accounted after (log ++ calls) := by
  refine ⟨?_, hstate⟩
  rw [openedHandles_append, closedHandles_append, hnone.1, hnone.2, List.append_nil,
    List.append_nil, hhandles]
  exact h.balance

/-- **The step.**  Whatever a command can do, failures included, keeps the account. -/
theorem Accounted.performed {command : SessionCommand} {session after : Session η}
    {calls log : List (BackendCall η)} {result : Except Error Unit} (h : Accounted session log)
    (hstep : Performed command session calls result after) : Accounted after (log ++ calls) := by
  cases hstep with
  | refused => exact h.frame ⟨rfl, rfl⟩ rfl h.idle
  | parsed _ _ hstate _ hslots =>
    have hheld := h.handles_eq_nil (Or.inl rfl) hstate
    have hnew := flatMap_handles_eq_nil hslots
    exact h.frame ⟨rfl, rfl⟩ (hnew.trans hheld.symm) fun _ => hnew
  | denied => exact h.frame ⟨rfl, rfl⟩ rfl h.idle
  | opened measureAll pid hopen hopening =>
    rename_i calls events
    have hheld := h.handles_eq_nil (Or.inr rfl) (state_of_refusalOrEmpty? hopen)
    have hopened : openedHandles (.check { pid, measureAll } (.ok ()) :: calls) =
        openedHandles calls := rfl
    have hclosed : closedHandles (.check { pid, measureAll } (.ok ()) :: calls) = [] :=
      hopening.closedHandles_eq_nil
    have hobtained : events.flatMap SessionEvent.handles = openedHandles calls :=
      hopening.flatMap_handles (List.flatMap_eq_nil_iff.mp hheld)
    have hbalance := h.balance
    rw [hheld, List.nil_append] at hbalance
    refine ⟨?_, ?_⟩
    · rw [openedHandles_append, closedHandles_append, hopened, hclosed, List.append_nil,
        Session.handles, hobtained]
      exact (hbalance.append_right _).trans List.perm_append_comm
    · rintro (hstate | hstate) <;> cases hstate
  | startFailed _ hstart => exact h.frame hstart.openedHandles_eq rfl h.idle
  | started _ hstart =>
    refine h.frame hstart.openedHandles_eq rfl ?_
    rintro (hstate | hstate) <;> cases hstate
  | stopFailed hstop hread =>
    refine h.frame hread.openedHandles_eq hread.flatMap_handles ?_
    have hstate := state_of_refusalOrEmpty? hstop
    simp only [SessionOperation.allowedIn, List.mem_singleton] at hstate
    simp [hstate]
  | stopped _ hread =>
    refine h.frame hread.openedHandles_eq hread.flatMap_handles ?_
    rintro (hstate | hstate) <;> cases hstate
  | closed hclosing =>
    rw [← Session.emptied]
    refine ⟨?_, fun _ => session.handles_emptied⟩
    rw [openedHandles_append, closedHandles_append, hclosing.openedHandles_eq.1,
      hclosing.openedHandles_eq.2, List.append_nil, Session.handles_emptied, List.nil_append]
    exact h.balance.trans List.perm_append_comm

/-- **The run.**  Every history on every backend is accounted for. -/
theorem accounted_of_history (b : Backend σ η) {n : Nat} (hn : 1 ≤ n) (w : σ)
    (commands : List SessionCommand) {session : Session η} {log : List (BackendCall η)}
    (h : Session.history b n w commands = (session, log)) : Accounted session log :=
  history_induction hn ⟨List.Perm.nil, fun _ => rfl⟩ (fun _ hstep hlog => hlog.performed hstep)
    b w commands h

/-- **Invariants of sessions whose handles can be told apart.**  As `history_induction`, where each
step may use the account and that no handle was given twice. -/
theorem history_induction_of_nodup {P : Session η → List (BackendCall η) → Prop} {n : Nat}
    (hn : 1 ≤ n) (hnew : P { cpuCount := n } [])
    (hstep : ∀ {command session calls result after log}, Accounted session log →
      (openedHandles log).Nodup → Performed command session calls result after →
      P session log → P after (log ++ calls))
    (b : Backend σ η) (w : σ) (commands : List SessionCommand) {session : Session η}
    {log : List (BackendCall η)} (h : Session.history b n w commands = (session, log))
    (hdistinct : (openedHandles log).Nodup) : P session log := by
  have hboth : Accounted session log ∧ ((openedHandles log).Nodup → P session log) := by
    refine history_induction
      (P := fun session log => Accounted session log ∧ ((openedHandles log).Nodup → P session log))
      hn ⟨⟨List.Perm.nil, fun _ => rfl⟩, fun _ => hnew⟩ ?_ b w commands h
    rintro command session calls result after log _ hperformed ⟨haccounted, hlog⟩
    refine ⟨haccounted.performed hperformed, fun hdistinct => ?_⟩
    rw [openedHandles_append] at hdistinct
    have hbefore := hdistinct.of_append_left
    exact hstep haccounted hbefore hperformed (hlog hbefore)
  exact hboth.2 hdistinct

/-! ## 2. Where a handle ends up -/

/-- The handle is in one slot of one event, and was never passed to close. -/
def HeldOnce (session : Session η) (log : List (BackendCall η)) (handle : η) : Prop :=
  (∃! place : Nat × Nat, handleAt? session.events place.1 place.2 = some handle) ∧
    handle ∉ closedHandles log

/-- The handle is in no slot, and was passed to close by one call. -/
def ReleasedOnce (session : Session η) (log : List (BackendCall η)) (handle : η) : Prop :=
  (∀ i cpu, handleAt? session.events i cpu ≠ some handle) ∧
    ∃! k : Nat, (closedHandles log)[k]? = some handle

theorem SessionEvent.mem_handles_iff {event : SessionEvent η} {handle : η} :
    handle ∈ event.handles ↔ ∃ cpu, event.handle? cpu = some handle := by
  rw [SessionEvent.handles, List.mem_filterMap]
  constructor
  · rintro ⟨slot, hslot, hhandle⟩
    obtain ⟨cpu, hslot⟩ := List.mem_iff_getElem?.mp hslot
    exact ⟨cpu, by simp [SessionEvent.handle?, SessionEvent.counter?, hslot, hhandle]⟩
  · rintro ⟨cpu, hcpu⟩
    cases hslot : event.slots[cpu]? with
    | none => simp [SessionEvent.handle?, SessionEvent.counter?, hslot] at hcpu
    | some slot =>
      exact ⟨slot, List.mem_of_getElem? hslot, by
        simpa [SessionEvent.handle?, SessionEvent.counter?, hslot] using hcpu⟩

theorem Session.mem_handles_iff {session : Session η} {handle : η} :
    handle ∈ session.handles ↔ ∃ i cpu, handleAt? session.events i cpu = some handle := by
  simp only [Session.handles, List.mem_flatMap, SessionEvent.mem_handles_iff]
  constructor
  · rintro ⟨event, hevent, cpu, hcpu⟩
    obtain ⟨i, hevent⟩ := List.mem_iff_getElem?.mp hevent
    exact ⟨i, cpu, by rw [handleAt?, hevent]; exact hcpu⟩
  · rintro ⟨i, cpu, hplace⟩
    obtain ⟨event, hevent, hcpu⟩ := Option.bind_eq_some_iff.mp hplace
    exact ⟨event, List.mem_of_getElem? hevent, cpu, hcpu⟩

/-- An event whose handles are distinct has each of them on one processor. -/
theorem SessionEvent.handle?_inj {event : SessionEvent η} (h : event.handles.Nodup)
    {cpu other : Nat} {handle : η} (hcpu : event.handle? cpu = some handle)
    (hother : event.handle? other = some handle) : cpu = other := by
  rw [SessionEvent.handles, List.Nodup, List.pairwise_filterMap, List.pairwise_iff_getElem] at h
  have hslot : ∀ {cpu}, event.handle? cpu = some handle →
      ∃ hlt : cpu < event.slots.length, event.slots[cpu].map CpuCounter.handle = some handle := by
    intro cpu hcpu
    rw [SessionEvent.handle?, SessionEvent.counter?] at hcpu
    rcases Nat.lt_or_ge cpu event.slots.length with hlt | hge
    · rw [List.getElem?_eq_getElem hlt] at hcpu
      exact ⟨hlt, hcpu⟩
    · rw [List.getElem?_eq_none hge] at hcpu
      cases hcpu
  obtain ⟨hlt, hcpu⟩ := hslot hcpu
  obtain ⟨hlt', hother⟩ := hslot hother
  rcases Nat.lt_trichotomy cpu other with hless | heq | hless
  · exact absurd rfl (h cpu other hlt hlt' hless handle hcpu handle hother)
  · exact heq
  · exact absurd rfl (h other cpu hlt' hlt hless handle hother handle hcpu)

/-- Events whose handles are distinct have each of them in one place. -/
theorem handleAt?_inj {events : List (SessionEvent η)}
    (h : (events.flatMap SessionEvent.handles).Nodup) {i j cpu other : Nat} {handle : η}
    (hi : handleAt? events i cpu = some handle) (hj : handleAt? events j other = some handle) :
    (i, cpu) = (j, other) := by
  obtain ⟨event, hevent, hcpu⟩ := Option.bind_eq_some_iff.mp hi
  obtain ⟨event', hevent', hother⟩ := Option.bind_eq_some_iff.mp hj
  rw [List.nodup_flatMap, List.pairwise_iff_getElem] at h
  obtain ⟨hlt, hget⟩ := List.getElem?_eq_some_iff.mp hevent
  obtain ⟨hlt', hget'⟩ := List.getElem?_eq_some_iff.mp hevent'
  have hmem : handle ∈ events[i].handles := by
    rw [hget]
    exact SessionEvent.mem_handles_iff.mpr ⟨cpu, hcpu⟩
  have hmem' : handle ∈ events[j].handles := by
    rw [hget']
    exact SessionEvent.mem_handles_iff.mpr ⟨other, hother⟩
  rcases Nat.lt_trichotomy i j with hless | rfl | hless
  · exact absurd hmem' (h.2 i j hlt hlt' hless hmem)
  · rw [hevent, Option.some.injEq] at hevent'
    subst hevent'
    rw [SessionEvent.handle?_inj (h.1 event (List.mem_of_getElem? hevent)) hcpu hother]
  · exact absurd hmem (h.2 j i hlt' hlt hless hmem')

/-- **Where the handles are.**  If the handles that were opened can be told apart, each of them is
held once or was released once. -/
theorem Accounted.held_or_released {session : Session η} {log : List (BackendCall η)}
    (h : Accounted session log) (hdistinct : (openedHandles log).Nodup) {handle : η}
    (hopened : handle ∈ openedHandles log) :
    HeldOnce session log handle ∨ ReleasedOnce session log handle := by
  have hnodup := h.balance.nodup_iff.mp hdistinct
  obtain ⟨hheld, hclosed, hapart⟩ := List.nodup_append'.mp hnodup
  rcases List.mem_append.mp (h.balance.mem_iff.mp hopened) with hmem | hmem
  · left
    obtain ⟨i, cpu, hplace⟩ := Session.mem_handles_iff.mp hmem
    refine ⟨⟨(i, cpu), hplace, ?_⟩, hapart hmem⟩
    rintro ⟨j, other⟩ hother
    exact handleAt?_inj hheld hother hplace
  · right
    refine ⟨?_, ?_⟩
    · intro i cpu hplace
      exact hapart (Session.mem_handles_iff.mpr ⟨i, cpu, hplace⟩) hmem
    · obtain ⟨k, hk⟩ := List.mem_iff_getElem?.mp hmem
      refine ⟨k, hk, ?_⟩
      intro other hother
      obtain ⟨hlt, _⟩ := List.getElem?_eq_some_iff.mp hother
      exact (List.getElem?_inj hlt hclosed).mp (hother.trans hk.symm)

/-! ## 3. Handles that are objects of their own -/

/-- The same backend with handles that are objects of their own: each is numbered when it is
opened. -/
def Backend.numbered (b : Backend σ η) : Backend (σ × Nat) (Nat × η) where
  check options := fun (w, count) => ((b.check options w).1, (b.check options w).2, count)
  openCounter attr options cpu leader? := fun (w, count) =>
    match b.openCounter attr options cpu (leader?.map Prod.snd) w with
    | (.ok handle, w) => (.ok (count, handle), w, count + 1)
    | (.error e, w) => (.error e, w, count)
  start handle := fun (w, count) => ((b.start handle.2 w).1, (b.start handle.2 w).2, count)
  stopAndRead handle := fun (w, count) =>
    ((b.stopAndRead handle.2 w).1, (b.stopAndRead handle.2 w).2, count)
  close handle := fun (w, count) => ((b.close handle.2 w).1, (b.close handle.2 w).2, count)
  threadCpus? := fun (w, count) => ((b.threadCpus? w).1, (b.threadCpus? w).2, count)
  moveThread cpus := fun (w, count) => (b.moveThread cpus w, count)

/-- The handles that were opened have the numbers from 0 on. -/
def Numbered (w : (σ × Nat) × List (BackendCall (Nat × η))) : Prop :=
  (openedHandles w.2).map Prod.fst = List.range w.1.2

theorem Numbered.append {w w' : σ} {count : Nat} {log : List (BackendCall (Nat × η))}
    {call : BackendCall (Nat × η)} (h : Numbered ((w, count), log)) (hcall : call.opened? = none) :
    Numbered ((w', count), log ++ [call]) := by
  have hnone : openedHandles [call] = [] := List.filterMap_cons_none hcall
  rw [Numbered, openedHandles_append, hnone, List.append_nil]
  exact h

theorem Numbered.append_opened {w w' : σ} {count : Nat} {log : List (BackendCall (Nat × η))}
    {call : BackendCall (Nat × η)} {handle : η} (h : Numbered ((w, count), log))
    (hcall : call.opened? = some (count, handle)) : Numbered ((w', count + 1), log ++ [call]) := by
  have hone : openedHandles [call] = [(count, handle)] := List.filterMap_cons_some hcall
  rw [Numbered] at h
  rw [Numbered, openedHandles_append, List.map_append, h, hone, List.range_succ]
  rfl

theorem numbered_preserves (b : Backend σ η) : b.numbered.recorded.Preserves Numbered where
  check _ _ h := h.append rfl
  openCounter attr options cpu leader? := by
    rintro ⟨⟨w, count⟩, log⟩ h
    rw [Backend.recorded_openCounter]
    simp only [Backend.numbered]
    split
    · exact h.append_opened rfl
    · exact h.append rfl
  start _ _ h := h.append rfl
  stopAndRead _ _ h := h.append rfl
  close _ _ h := h.append rfl
  threadCpus? _ h := h
  moveThread _ _ h := h

/-- A backend that numbers its handles never gives one twice. -/
theorem nodup_openedHandles_numbered (b : Backend σ η) (n : Nat) (w : σ)
    (commands : List SessionCommand) :
    (openedHandles (Session.history b.numbered n (w, 0) commands).2).Nodup := by
  obtain ⟨w', h⟩ := Backend.Preserves.history (P := fun w log => Numbered (w, log))
    (numbered_preserves b) (w := (w, 0)) rfl n commands
  exact List.Nodup.of_map Prod.fst (h ▸ List.nodup_range)

/-- **No handle is leaked, and none is released twice.**  On every backend the handles that were
opened are, one for one, those held and those closed, and nothing is held where events or slots may
be replaced.  If each handle is an object of its own, each that was opened is in one slot of one
event and was never closed, or is in no slot and was closed once. -/
theorem handles_accounted (b : Backend σ η) {n : Nat} (hn : 1 ≤ n) (w : σ)
    (commands : List SessionCommand) :
    (∀ session log, Session.history b n w commands = (session, log) →
      (openedHandles log).Perm (session.handles ++ closedHandles log) ∧
      (session.state = .closed ∨ session.state = .parsed → session.handles = []) ∧
      ((openedHandles log).Nodup → ∀ handle ∈ openedHandles log,
        HeldOnce session log handle ∨ ReleasedOnce session log handle)) ∧
    ∀ session log, Session.history b.numbered n (w, 0) commands = (session, log) →
      ∀ handle ∈ openedHandles log,
        HeldOnce session log handle ∨ ReleasedOnce session log handle := by
  constructor
  · intro session log h
    have haccounted := accounted_of_history b hn w commands h
    exact ⟨haccounted.balance, haccounted.idle,
      fun hdistinct _ hopened => haccounted.held_or_released hdistinct hopened⟩
  · intro session log h handle hopened
    have hdistinct := nodup_openedHandles_numbered b n w commands
    rw [h] at hdistinct
    exact (accounted_of_history b.numbered hn (w, 0) commands h).held_or_released hdistinct hopened

namespace Example

/-- An event is measured and closed, and a group is opened afterwards, which fails halfway. -/
def reopening : List SessionCommand :=
  [.parse "r1".toList ⟨⟨[], {}⟩, {}⟩, .open false 7, .start, .stop, .close, .close,
    .parse "\x7br1;r2\x7d".toList ⟨⟨[], {}⟩, {}⟩, .open false 7]

/-- The session after that, and its log. -/
def reopened : Session Nat × List (BackendCall Nat) :=
  Session.history failsOnce.backend 2 {} reopening

end Example

open Example in
theorem handles_accounted_reopened :
    (1 ≤ 2 ∧ openedHandles reopened.2 = [0, 1, 2] ∧ reopened.1.handles = [2]) ∧
      (openedHandles reopened.2).Perm (reopened.1.handles ++ closedHandles reopened.2) ∧
      (HeldOnce reopened.1 reopened.2 2 ∨ ReleasedOnce reopened.1 reopened.2 2) := by
  have hopened : openedHandles reopened.2 = [0, 1, 2] := rfl
  obtain ⟨hbalance, -, heach⟩ :=
    (handles_accounted failsOnce.backend (n := 2) (by decide) {} reopening).1 _ _ rfl
  have hdistinct : (openedHandles reopened.2).Nodup := by
    rw [hopened]
    decide
  have hmem : 2 ∈ openedHandles reopened.2 := by
    rw [hopened]
    decide
  exact ⟨⟨by decide, hopened, rfl⟩, hbalance, heach hdistinct 2 hmem⟩

end HardwareCounters
