/-
# Closing releases every counter

Closing takes the slots of every event away, so a counter that it passed over would stay open with
nobody left who could release it.  It passes over none: each counter that is held is closed by one
call, by event and then by processor, also after calls that failed, and whatever earlier failures
have left behind.  Of the failures the first is reported, and closing again finds nothing to do.

* `heldPlaces` are the places of counters in that order; `map_handleAt?_heldPlaces` ties them to the
  handles of a session.
* `Closing.result_eq_ok_iff` and `Closing.result_eq_error_iff` say what is reported;
* `Session.Released` is what closing does to a session, and `Session.released_close` the proof.
* `close_releases_all` adds that of handles which are objects of their own each is closed once.
-/
import HardwareCounters.Proofs.Session.Discipline
import HardwareCounters.Proofs.Session.Parsing
import HardwareCounters.Proofs.Session.Slots

namespace HardwareCounters

variable {σ η : Type}

/-! ## 1. The places of counters -/

/-- The processors on which the event has a counter, in order. -/
def SessionEvent.heldCpus (event : SessionEvent η) : List Nat :=
  (List.range event.slots.length).filter fun cpu => (event.handle? cpu).isSome

/-- The places of the counters of events, by event and then by processor. -/
def heldPlaces (events : List (SessionEvent η)) : List (Nat × Nat) :=
  events.zipIdx.flatMap fun (event, i) => event.heldCpus.map fun cpu => (i, cpu)

/-- The first place is that of an earlier event, or of the same event on a lower processor. -/
def PlaceLt : Nat × Nat → Nat × Nat → Prop := Prod.Lex (· < ·) (· < ·)

theorem SessionEvent.mem_heldCpus_iff {event : SessionEvent η} {cpu : Nat} :
    cpu ∈ event.heldCpus ↔ (event.handle? cpu).isSome := by
  rw [heldCpus, List.mem_filter, List.mem_range, and_iff_right_iff_imp]
  intro h
  by_contra hge
  simp [handle?, counter?, List.getElem?_eq_none (Nat.le_of_not_lt hge)] at h

theorem mem_heldPlaces_iff {events : List (SessionEvent η)} {place : Nat × Nat} :
    place ∈ heldPlaces events ↔ (handleAt? events place.1 place.2).isSome := by
  obtain ⟨i, cpu⟩ := place
  have hmem : (i, cpu) ∈ heldPlaces events ↔
      ∃ event, events[i]? = some event ∧ cpu ∈ event.heldCpus := by
    simp [heldPlaces, List.mem_zipIdx_iff_getElem?]
  rw [hmem, handleAt?]
  cases events[i]? with
  | none => simp
  | some event => simp [event.mem_heldCpus_iff]

/-- The places are in order, and none stands twice. -/
theorem pairwise_heldPlaces (events : List (SessionEvent η)) :
    (heldPlaces events).Pairwise PlaceLt := by
  have hindex : events.zipIdx.Pairwise fun first second => first.2 < second.2 := by
    rw [← List.pairwise_map (f := Prod.snd), List.zipIdx_map_snd]
    exact List.pairwise_lt_range'
  rw [heldPlaces, List.pairwise_flatMap]
  constructor
  · rintro ⟨event, i⟩ -
    rw [List.pairwise_map]
    exact (List.pairwise_lt_range.filter _).imp fun hlt => .right i hlt
  · refine hindex.imp fun {first second} hlt place hplace other hother => ?_
    obtain ⟨cpu, -, rfl⟩ := List.mem_map.mp hplace
    obtain ⟨cpu', -, rfl⟩ := List.mem_map.mp hother
    exact .left cpu cpu' hlt

/-- Going through the processors finds the handles in the order of the slots. -/
theorem SessionEvent.map_handle?_heldCpus (event : SessionEvent η) :
    event.heldCpus.map event.handle? = event.handles.map some := by
  have hslots : (List.range event.slots.length).map event.handle? =
      event.slots.map fun slot => slot.map CpuCounter.handle := by
    refine List.ext_getElem (by simp) fun cpu hcpu _ => ?_
    rw [List.length_map, List.length_range] at hcpu
    simp [handle?, counter?, List.getElem?_eq_getElem hcpu]
  calc event.heldCpus.map event.handle?
      = ((List.range event.slots.length).map event.handle?).filter Option.isSome := by
        rw [List.filter_map]
        rfl
    _ = (event.slots.map fun slot => slot.map CpuCounter.handle).filter Option.isSome := by
        rw [hslots]
    _ = event.handles.map some := List.map_filterMap_some_eq_filter_map_isSome.symm

/-- The handles of a session are those in its places, in the same order. -/
theorem map_handleAt?_heldPlaces (events : List (SessionEvent η)) :
    (heldPlaces events).map (fun place => handleAt? events place.1 place.2) =
      (events.flatMap SessionEvent.handles).map some := by
  have hevent : ∀ entry ∈ events.zipIdx,
      (entry.1.heldCpus.map fun cpu => (entry.2, cpu)).map
        (fun place => handleAt? events place.1 place.2) = entry.1.handles.map some := by
    rintro ⟨event, i⟩ hentry
    rw [List.mem_zipIdx_iff_getElem?] at hentry
    rw [List.map_map, ← event.map_handle?_heldCpus]
    refine List.map_congr_left fun cpu _ => ?_
    simp [handleAt?, hentry]
  calc (heldPlaces events).map (fun place => handleAt? events place.1 place.2)
      = events.zipIdx.flatMap fun entry => entry.1.handles.map some := by
        rw [heldPlaces, List.map_flatMap]
        exact List.flatMap_congr hevent
    _ = (events.zipIdx.map Prod.fst).flatMap fun event => event.handles.map some := by
        rw [List.flatMap_map]
    _ = (events.flatMap SessionEvent.handles).map some := by
        rw [List.zipIdx_map_fst, List.map_flatMap]

/-! ## 2. The calls and the result -/

/-- Why a call that was to close a counter failed. -/
def BackendCall.closeFailure? : BackendCall η → Option Error
  | .close _ (.error e) => some e
  | _ => none

namespace Closing

variable {handles : List η} {calls : List (BackendCall η)} {result : Except Error Unit}

theorem forall₂ (h : Closing handles calls result) :
    List.Forall₂ (fun handle call => ∃ outcome, call = .close handle outcome) handles calls := by
  induction h with
  | done => exact .nil
  | closed handle outcome _ ih => exact .cons ⟨outcome, rfl⟩ ih

/-- The result is the failure of the first call that failed, if one did. -/
theorem result_eq (h : Closing handles calls result) :
    result = (calls.findSome? BackendCall.closeFailure?).elim (.ok ()) .error := by
  induction h with
  | done => rfl
  | closed handle outcome _ ih =>
    cases outcome with
    | ok => exact ih
    | error e => rfl

theorem result_eq_ok_iff (h : Closing handles calls result) :
    result = .ok () ↔ ∀ call ∈ calls, call.closeFailure? = none := by
  rw [← List.findSome?_eq_none_iff, h.result_eq]
  cases calls.findSome? BackendCall.closeFailure? <;> simp

theorem result_eq_error_iff (h : Closing handles calls result) (e : Error) :
    result = .error e ↔ ∃ before call later, calls = before ++ call :: later ∧
      call.closeFailure? = some e ∧ ∀ other ∈ before, other.closeFailure? = none := by
  rw [← List.findSome?_eq_some_iff, h.result_eq]
  cases calls.findSome? BackendCall.closeFailure? <;> simp

end Closing

/-! ## 3. Closing a session -/

namespace Session

/-- What closing does to a session: the calls that it makes, its result and the session
afterwards. -/
structure Released (session : Session η) (calls : List (BackendCall η))
    (result : Except Error Unit) (after : Session η) : Prop where
  /-- There is one call for each counter that is held, by event and then by processor, and no
  other. -/
  in_order : ∃ places : List (Nat × Nat), places.Pairwise PlaceLt ∧
    (∀ place, place ∈ places ↔ (handleAt? session.events place.1 place.2).isSome) ∧
    List.Forall₂ (fun place call => ∃ handle outcome,
      handleAt? session.events place.1 place.2 = some handle ∧ call = .close handle outcome)
      places calls
  ok_iff : result = .ok () ↔ ∀ call ∈ calls, call.closeFailure? = none
  /-- Of the failures the first is reported. -/
  error_iff : ∀ e, result = .error e ↔ ∃ before call later, calls = before ++ call :: later ∧
    call.closeFailure? = some e ∧ ∀ other ∈ before, other.closeFailure? = none
  /-- Nothing but the slots and the state has changed. -/
  after_eq : after = session.emptied

theorem close_recorded (b : Backend σ η) (session : Session η) (w : σ)
    (log : List (BackendCall η)) :
    ∃ calls result w',
      session.close b.recorded (w, log) = (result, session.emptied, w', log ++ calls) ∧
      Closing session.handles calls result := by
  obtain ⟨calls, result, w', heq, hclosing⟩ := closeAll_recorded b session.handles w log
  exact ⟨calls, result, w', by rw [close, heq, emptied], hclosing⟩

theorem released_of_closing {session : Session η} {calls : List (BackendCall η)}
    {result : Except Error Unit} (h : Closing session.handles calls result) :
    session.Released calls result session.emptied where
  in_order := by
    refine ⟨heldPlaces session.events, pairwise_heldPlaces _, fun _ => mem_heldPlaces_iff, ?_⟩
    have hcalls : List.Forall₂ (fun handle? call => ∃ handle outcome,
        handle? = some handle ∧ call = .close handle outcome)
        (session.handles.map some) calls := by
      rw [List.forall₂_map_left_iff]
      exact h.forall₂.imp fun handle call ⟨outcome, hcall⟩ => ⟨handle, outcome, rfl, hcall⟩
    rwa [handles, ← map_handleAt?_heldPlaces, List.forall₂_map_left_iff] at hcalls
  ok_iff := h.result_eq_ok_iff
  error_iff := h.result_eq_error_iff
  after_eq := rfl

/-- **Closing releases what is held**, whatever the session and its backend have gone through, and
closing again changes nothing more. -/
theorem released_close (b : Backend σ η) (session : Session η) (w : σ)
    (log : List (BackendCall η)) :
    ∃ calls result after w',
      session.close b.recorded (w, log) = (result, after, w', log ++ calls) ∧
      session.Released calls result after ∧
      after.close b.recorded (w', log ++ calls) = (.ok (), after, w', log ++ calls) := by
  obtain ⟨calls, result, w', heq, hclosing⟩ := session.close_recorded b w log
  refine ⟨calls, result, _, w', heq, released_of_closing hclosing, ?_⟩
  have hagain : session.emptied.emptied = session.emptied := by
    simp [emptied]
  rw [close, handles_emptied, ← emptied, hagain]
  rfl

/-- A session on no processors holds nothing. -/
theorem Fits.handles_eq_nil {session : Session η} (h : session.Fits 0) : session.handles = [] :=
  flatMap_handles_eq_nil fun event hevent =>
    List.length_eq_zero_iff.mp (Nat.le_zero.mp (h.length_le event hevent))

/-- A handle that is held when the session is closed was not closed before, and is closed by one
call. -/
theorem releasedOnce_of_closing {session : Session η} {log calls : List (BackendCall η)}
    {result : Except Error Unit} (haccounted : Accounted session log)
    (hdistinct : (openedHandles log).Nodup) (h : Closing session.handles calls result) {handle : η}
    (hheld : handle ∈ session.handles) :
    handle ∉ closedHandles log ∧ ReleasedOnce session.emptied (log ++ calls) handle := by
  have hapart := (List.nodup_append'.mp (haccounted.balance.nodup_iff.mp hdistinct)).2.2
  have hopened : openedHandles (log ++ calls) = openedHandles log := by
    rw [openedHandles_append, h.openedHandles_eq.1, List.append_nil]
  have hclosed : handle ∈ closedHandles (log ++ calls) := by
    rw [closedHandles_append, h.openedHandles_eq.2]
    exact List.mem_append_right _ hheld
  have hmem : handle ∈ openedHandles (log ++ calls) := by
    rw [hopened, haccounted.balance.mem_iff]
    exact List.mem_append_left _ hheld
  have hafter : Accounted session.emptied (log ++ calls) := haccounted.performed (.closed h)
  refine ⟨fun hbefore => hapart hheld hbefore, ?_⟩
  exact (hafter.held_or_released (hopened ▸ hdistinct) hmem).resolve_left
    fun hlater => hlater.2 hclosed

end Session

/-- **Closing releases all counters.**  In every session, also after an opening, a start or a stop
that failed, and on every backend, whichever calls fail: closing makes one call for each counter
that is held, by event and then by processor, and no other call; it takes all slots away and changes
nothing else about the events; it succeeds if all calls do, and otherwise reports the first failure;
and closing again makes no call and succeeds.  If handles are numbered as they are opened, then each
handle that is held was not closed before and has been closed once when closing is over. -/
theorem close_releases_all (b : Backend σ η) :
    (∀ (session : Session η) (w : σ) (log : List (BackendCall η)), ∃ calls result after w',
      session.close b.recorded (w, log) = (result, after, w', log ++ calls) ∧
      session.Released calls result after ∧
      after.close b.recorded (w', log ++ calls) = (.ok (), after, w', log ++ calls)) ∧
    ∀ (n : Nat) (w : σ) (commands : List SessionCommand) (session : Session (Nat × η))
      (log : List (BackendCall (Nat × η))),
      Session.history b.numbered n (w, 0) commands = (session, log) →
      ∀ w₁ result after w₂ log',
        session.close b.numbered.recorded (w₁, log) = (result, after, w₂, log') →
        ∀ handle ∈ session.handles,
          handle ∉ closedHandles log ∧ ReleasedOnce after log' handle := by
  refine ⟨fun session w log => session.released_close b w log, ?_⟩
  intro n w commands session log hhistory w₁ result after w₂ log' hclose handle hheld
  obtain ⟨calls, result', w', heq, hclosing⟩ := session.close_recorded b.numbered w₁ log
  rw [heq, Prod.mk.injEq, Prod.mk.injEq, Prod.mk.injEq] at hclose
  obtain ⟨-, rfl, -, rfl⟩ := hclose
  rcases Nat.eq_zero_or_pos n with rfl | hn
  · have hfits := fits_of_history b.numbered 0 (w, 0) commands
    rw [hhistory] at hfits
    rw [hfits.handles_eq_nil] at hheld
    cases hheld
  · have hdistinct := nodup_openedHandles_numbered b n w commands
    rw [hhistory] at hdistinct
    have haccounted := accounted_of_history b.numbered hn (w, 0) commands hhistory
    exact Session.releasedOnce_of_closing haccounted hdistinct hclosing hheld

namespace Example

/-- A backend on which the second event cannot be opened on processor 1, and on which no counter can
be closed on processor 1 and none of the second event. -/
def closesBadly : BackendScript :=
  { rules := [
      { selector := { config? := some 2, cpu? := some 1 }, opens := [some .notCapable] },
      { selector := { config? := some 2 }, close? := some (.system .ebusy) },
      { selector := { cpu? := some 1 }, close? := some (.system .einval) }] }

/-- Two events are opened, which fails, and started. -/
def openingBadly : List SessionCommand :=
  [.parse "r1;r2".toList bareResolver, .open false 7, .start]

/-- The session after that, with its backend. -/
def openedBadly : Session (Nat × Nat) × (ScriptState × Nat) × List (BackendCall (Nat × Nat)) :=
  Session.performAll closesBadly.backend.numbered.recorded openingBadly { cpuCount := 2 }
    (({}, 0), [])

/-- What closing it gives. -/
def closedBadly : Except Error Unit × Session (Nat × Nat) × (ScriptState × Nat) ×
    List (BackendCall (Nat × Nat)) :=
  openedBadly.1.close closesBadly.backend.numbered.recorded openedBadly.2

end Example

open Example in
theorem close_releases_all_openedBadly :
    (openedBadly.1.handles.map Prod.fst = [0, 1, 2] ∧ closedBadly.1 = .error (.system .einval)) ∧
    (∃ calls result after w',
      openedBadly.1.close closesBadly.backend.numbered.recorded openedBadly.2 =
        (result, after, w', openedBadly.2.2 ++ calls) ∧
      openedBadly.1.Released calls result after) ∧
    ∀ handle ∈ openedBadly.1.handles, ReleasedOnce closedBadly.2.1 closedBadly.2.2.2 handle := by
  have hhistory : Session.history closesBadly.backend.numbered 2 ({}, 0) openingBadly =
      (openedBadly.1, openedBadly.2.2) := rfl
  have hclose : openedBadly.1.close closesBadly.backend.numbered.recorded openedBadly.2 =
      (closedBadly.1, closedBadly.2.1, closedBadly.2.2.1, closedBadly.2.2.2) := rfl
  obtain ⟨calls, result, after, w', heq, hreleased, -⟩ :=
    (close_releases_all closesBadly.backend.numbered).1 openedBadly.1 openedBadly.2.1
      openedBadly.2.2
  have honce := (close_releases_all closesBadly.backend).2 2 {} openingBadly _ _ hhistory _ _ _ _ _
    hclose
  exact ⟨⟨rfl, rfl⟩, ⟨calls, result, after, w', heq, hreleased⟩,
    fun handle hheld => (honce handle hheld).2⟩

end HardwareCounters
