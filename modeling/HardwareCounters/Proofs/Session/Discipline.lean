/-
# The calls on one handle

A backend may rely on the order of the calls on each handle: nothing is asked of a handle that has
been closed, and a handle is read only after it has been started.  Starting and stopping can fail
halfway and be tried again, so this rests on the state of the session: it is running only if the
last start of every handle that it holds succeeded.

* `Session.MayCall` says what a session may ask of its backend; `Performed.mayCall`: no command asks
  for more.
* `Disciplined` is the order of the calls with that invariant; `Disciplined.performed` is its step
  and `disciplined_of_history` its run.
* `calls_disciplined` says it for every backend, with handles that are objects of their own.
-/
import HardwareCounters.Proofs.Session.Renaming

namespace HardwareCounters

variable {σ η : Type}

/-! ## 1. What a command works on -/

/-- The handle on which a call works. -/
def BackendCall.subject? : BackendCall η → Option η
  | .start handle _ => some handle
  | .stopAndRead handle _ => some handle
  | .close handle _ => some handle
  | _ => none

section Calls

variable {calls : List (BackendCall η)} {call : BackendCall η}

theorem Opening.exists_openCounter {options : OpenOptions} {n : Nat}
    {leader? : Option (SessionEvent η)} {events opened : List (SessionEvent η)}
    {result : Except Error Unit} (h : Opening options n leader? events calls result opened)
    (hcall : call ∈ calls) :
    ∃ attr options cpu leader? outcome, call = .openCounter attr options cpu leader? outcome := by
  have hcalls : ∀ {event : SessionEvent η} {leader? : Option (SessionEvent η)} {handles : List η},
      call ∈ openCalls event options leader? 0 handles →
        ∃ attr options cpu leader? outcome,
          call = .openCounter attr options cpu leader? outcome := by
    intro event leader? handles hmem
    obtain ⟨⟨handle, cpu⟩, _, rfl⟩ := List.mem_map.mp hmem
    exact ⟨_, _, _, _, _, rfl⟩
  induction h with
  | done => cases hcall
  | failed =>
    rcases List.mem_append.mp hcall with hcall | hcall
    · exact hcalls hcall
    · exact ⟨_, _, _, _, _, List.mem_singleton.mp hcall⟩
  | opened _ _ ih =>
    rcases List.mem_append.mp hcall with hcall | hcall
    · exact hcalls hcall
    · exact ih hcall

theorem Starting.exists_start {handles : List η} {result : Except Error Unit}
    (h : Starting handles calls result) (hcall : call ∈ calls) :
    ∃ handle ∈ handles, ∃ outcome, call = .start handle outcome := by
  induction h with
  | done => cases hcall
  | failed handle handles e => exact ⟨handle, List.mem_cons_self, _, List.mem_singleton.mp hcall⟩
  | started handle _ ih =>
    rcases List.mem_cons.mp hcall with rfl | hcall
    · exact ⟨handle, List.mem_cons_self, _, rfl⟩
    · obtain ⟨other, hother, outcome, rfl⟩ := ih hcall
      exact ⟨other, List.mem_cons_of_mem _ hother, outcome, rfl⟩

theorem SlotReading.exists_read {slots reached : List (Slot η)} {sum : Word}
    {result : Except Error Word} (h : SlotReading slots sum calls result reached)
    (hcall : call ∈ calls) :
    ∃ handle ∈ slots.filterMap fun slot => slot.map CpuCounter.handle,
      ∃ outcome, call = .stopAndRead handle outcome := by
  induction h with
  | done => cases hcall
  | gap => cases hcall
  | failed counter slots sum e =>
    exact ⟨counter.handle, List.mem_cons_self, _, List.mem_singleton.mp hcall⟩
  | read counter count _ ih =>
    rcases List.mem_cons.mp hcall with rfl | hcall
    · exact ⟨counter.handle, List.mem_cons_self, _, rfl⟩
    · obtain ⟨other, hother, outcome, rfl⟩ := ih hcall
      exact ⟨other, List.mem_cons_of_mem _ hother, outcome, rfl⟩

theorem Reading.exists_read {events reached : List (SessionEvent η)} {result : Except Error Unit}
    (h : Reading events calls result reached) (hcall : call ∈ calls) :
    ∃ handle ∈ events.flatMap SessionEvent.handles,
      ∃ outcome, call = .stopAndRead handle outcome := by
  induction h with
  | done => cases hcall
  | failed events h =>
    obtain ⟨handle, hhandle, outcome, rfl⟩ := h.exists_read hcall
    exact ⟨handle, List.mem_append_left _ hhandle, outcome, rfl⟩
  | read h _ ih =>
    rcases List.mem_append.mp hcall with hcall | hcall
    · obtain ⟨handle, hhandle, outcome, rfl⟩ := h.exists_read hcall
      exact ⟨handle, List.mem_append_left _ hhandle, outcome, rfl⟩
    · obtain ⟨handle, hhandle, outcome, rfl⟩ := ih hcall
      exact ⟨handle, List.mem_append_right _ hhandle, outcome, rfl⟩

theorem Closing.exists_close {handles : List η} {result : Except Error Unit}
    (h : Closing handles calls result) (hcall : call ∈ calls) :
    ∃ handle ∈ handles, ∃ outcome, call = .close handle outcome := by
  induction h with
  | done => cases hcall
  | closed handle outcome _ ih =>
    rcases List.mem_cons.mp hcall with rfl | hcall
    · exact ⟨handle, List.mem_cons_self, _, rfl⟩
    · obtain ⟨other, hother, outcome, rfl⟩ := ih hcall
      exact ⟨other, List.mem_cons_of_mem _ hother, outcome, rfl⟩

/-- What a session may ask of its backend: whatever opens, and on the handles that it holds starts
and closes, and reads while it is running. -/
inductive Session.MayCall (session : Session η) : BackendCall η → Prop
  | check (options : OpenOptions) (outcome : Except Error Unit) :
      session.MayCall (.check options outcome)
  | openCounter (attr : Attribute) (options : OpenOptions) (cpu : Nat) (leader? : Option η)
      (outcome : Except Error η) : session.MayCall (.openCounter attr options cpu leader? outcome)
  | start {handle : η} (held : handle ∈ session.handles) (outcome : Except Error Unit) :
      session.MayCall (.start handle outcome)
  | stopAndRead {handle : η} (running : session.state = .running)
      (held : handle ∈ session.handles) (outcome : Except Error Count) :
      session.MayCall (.stopAndRead handle outcome)
  | close {handle : η} (held : handle ∈ session.handles) (outcome : Except Error Unit) :
      session.MayCall (.close handle outcome)

variable {command : SessionCommand} {session after : Session η} {result : Except Error Unit}

/-- **A command works on what is held**, and reads it only in a running session. -/
theorem Performed.mayCall (h : Performed command session calls result after)
    (hcall : call ∈ calls) : session.MayCall call := by
  have hstarted : ∀ {result}, Starting session.handles calls result → session.MayCall call := by
    intro result hstart
    obtain ⟨handle, hhandle, outcome, rfl⟩ := hstart.exists_start hcall
    exact .start hhandle outcome
  have hstopped : ∀ {result events}, session.refusalOrEmpty? .stop = none →
      Reading session.events calls result events → session.MayCall call := by
    intro result events hstop hread
    obtain ⟨handle, hhandle, outcome, rfl⟩ := hread.exists_read hcall
    exact .stopAndRead (List.mem_singleton.mp (state_of_refusalOrEmpty? hstop)) hhandle outcome
  cases h with
  | refused => cases hcall
  | parsed => cases hcall
  | denied =>
    rw [List.mem_singleton.mp hcall]
    exact .check _ _
  | opened _ _ _ hopening =>
    rcases List.mem_cons.mp hcall with rfl | hcall
    · exact .check _ _
    · obtain ⟨attr, options, cpu, leader?, outcome, rfl⟩ := hopening.exists_openCounter hcall
      exact .openCounter attr options cpu leader? outcome
  | startFailed _ hstart => exact hstarted hstart
  | started _ hstart => exact hstarted hstart
  | stopFailed hstop hread => exact hstopped hstop hread
  | stopped hstop hread => exact hstopped hstop hread
  | closed hclosing =>
    obtain ⟨handle, hhandle, outcome, rfl⟩ := hclosing.exists_close hcall
    exact .close hhandle outcome

theorem Session.MayCall.subject_mem (h : session.MayCall call) {handle : η}
    (hsubject : call.subject? = some handle) : handle ∈ session.handles := by
  cases h with
  | check => cases hsubject
  | openCounter => cases hsubject
  | start held => exact Option.some.inj hsubject ▸ held
  | stopAndRead _ held => exact Option.some.inj hsubject ▸ held
  | close held => exact Option.some.inj hsubject ▸ held

end Calls

/-! ## 2. The order of the calls -/

/-- A later call works on no handle that the earlier one closed. -/
def SparesClosed (earlier later : BackendCall η) : Prop :=
  ∀ handle, earlier.closed? = some handle → later.subject? ≠ some handle

/-- The last start of the handle succeeded. -/
def LastStarted (log : List (BackendCall η)) (handle : η) : Prop :=
  ∃ k : Nat, log[k]? = some (.start handle (.ok ())) ∧
    ∀ (j : Nat) (outcome : Except Error Unit), k < j → log[j]? ≠ some (.start handle outcome)

/-- The calls on each handle are in order. -/
structure Disciplined (session : Session η) (log : List (BackendCall η)) : Prop where
  /-- No call works on a handle that was closed before. -/
  closedLast : log.Pairwise SparesClosed
  /-- A handle that is read was started before, with success. -/
  startedFirst : ∀ (k : Nat) (handle : η) (outcome : Except Error Count),
    log[k]? = some (.stopAndRead handle outcome) →
      ∃ j < k, log[j]? = some (.start handle (.ok ()))
  /-- In a running session the last start of every handle succeeded. -/
  started : session.state = .running → ∀ handle ∈ session.handles, LastStarted log handle

theorem LastStarted.append {log calls : List (BackendCall η)} {handle : η}
    (h : LastStarted log handle) (hnone : ∀ outcome, .start handle outcome ∉ calls) :
    LastStarted (log ++ calls) handle := by
  obtain ⟨k, hk, hlast⟩ := h
  have hlt : k < log.length := (List.getElem?_eq_some_iff.mp hk).1
  refine ⟨k, by rwa [List.getElem?_append_left hlt], fun j outcome hj hstart => ?_⟩
  rcases Nat.lt_or_ge j log.length with hlt | hge
  · rw [List.getElem?_append_left hlt] at hstart
    exact hlast j outcome hj hstart
  · rw [List.getElem?_append_right hge] at hstart
    exact hnone outcome (List.mem_of_getElem? hstart)

theorem LastStarted.append_left {calls : List (BackendCall η)} {handle : η}
    (h : LastStarted calls handle) (log : List (BackendCall η)) :
    LastStarted (log ++ calls) handle := by
  obtain ⟨k, hk, hlast⟩ := h
  refine ⟨log.length + k, ?_, fun j outcome hj hstart => ?_⟩
  · rwa [List.getElem?_append_right (Nat.le_add_right _ _), Nat.add_sub_cancel_left]
  · rw [List.getElem?_append_right (by omega)] at hstart
    exact hlast (j - log.length) outcome (by omega) hstart

/-- Starting that succeeds has started every handle. -/
theorem Starting.lastStarted {handles : List η} {calls : List (BackendCall η)}
    {result : Except Error Unit} (h : Starting handles calls result) (hok : result = .ok ())
    {handle : η} (hhandle : handle ∈ handles) : LastStarted calls handle := by
  induction h with
  | done => cases hhandle
  | failed => cases hok
  | @started handles calls result first rest ih =>
    -- A backend may give one handle twice, so that a later start of it is the last.
    by_cases hlater : handle ∈ handles
    · exact (ih hok hlater).append_left [.start first (.ok ())]
    · obtain rfl : handle = first := (List.mem_cons.mp hhandle).resolve_right hlater
      have hfirst : LastStarted [.start handle (.ok ())] handle := by
        refine ⟨0, rfl, fun j outcome hj hstart => ?_⟩
        have hlt : j < 1 := (List.getElem?_eq_some_iff.mp hstart).1
        omega
      refine hfirst.append fun outcome hstart => ?_
      obtain ⟨other, hother, _, hcall⟩ := rest.exists_start hstart
      cases hcall
      exact hlater hother

/-! ## 3. What every command keeps -/

/-- Calls that close nothing may stand in any order. -/
theorem pairwise_sparesClosed_of_closedHandles_eq_nil {calls : List (BackendCall η)}
    (h : closedHandles calls = []) : calls.Pairwise SparesClosed := by
  refine List.pairwise_of_forall_mem_list fun earlier hearlier later _ handle hclosed => ?_
  rw [List.filterMap_eq_nil_iff.mp h earlier hearlier] at hclosed
  cases hclosed

/-- Closing distinct handles closes each of them once. -/
theorem Closing.pairwise_sparesClosed {handles : List η} {calls : List (BackendCall η)}
    {result : Except Error Unit} (h : Closing handles calls result) (hdistinct : handles.Nodup) :
    calls.Pairwise SparesClosed := by
  rw [← h.openedHandles_eq.2, closedHandles, List.Nodup, List.pairwise_filterMap] at hdistinct
  refine hdistinct.imp_of_mem fun {earlier later} _ hlater hne handle hclosed hsubject => ?_
  obtain ⟨other, _, outcome, rfl⟩ := h.exists_close hlater
  exact hne handle hclosed handle hsubject rfl

theorem Performed.pairwise_sparesClosed {command : SessionCommand} {session after : Session η}
    {calls : List (BackendCall η)} {result : Except Error Unit}
    (h : Performed command session calls result after) (hdistinct : session.handles.Nodup) :
    calls.Pairwise SparesClosed := by
  cases h with
  | refused => exact .nil
  | parsed => exact .nil
  | denied => exact List.pairwise_singleton _ _
  | opened _ _ _ hopening =>
    exact pairwise_sparesClosed_of_closedHandles_eq_nil hopening.closedHandles_eq_nil
  | startFailed _ hstart =>
    exact pairwise_sparesClosed_of_closedHandles_eq_nil hstart.openedHandles_eq.2
  | started _ hstart =>
    exact pairwise_sparesClosed_of_closedHandles_eq_nil hstart.openedHandles_eq.2
  | stopFailed _ hread =>
    exact pairwise_sparesClosed_of_closedHandles_eq_nil hread.openedHandles_eq.2
  | stopped _ hread =>
    exact pairwise_sparesClosed_of_closedHandles_eq_nil hread.openedHandles_eq.2
  | closed hclosing => exact hclosing.pairwise_sparesClosed hdistinct

/-- A command that leaves the session running has started every handle, or found them started. -/
theorem Performed.lastStarted {command : SessionCommand} {session after : Session η}
    {calls log : List (BackendCall η)} {result : Except Error Unit}
    (h : Performed command session calls result after)
    (hlog : session.state = .running → ∀ handle ∈ session.handles, LastStarted log handle)
    (hstate : after.state = .running) :
    ∀ handle ∈ after.handles, LastStarted (log ++ calls) handle := by
  cases h with
  | refused => simpa using hlog hstate
  | parsed => cases hstate
  | denied =>
    exact fun handle hhandle => (hlog hstate handle hhandle).append fun _ hstart => by
      cases List.mem_singleton.mp hstart
  | opened => cases hstate
  | startFailed hstart =>
    have hallowed := state_of_refusalOrEmpty? hstart
    simp [hstate, SessionOperation.allowedIn] at hallowed
  | started _ hstart =>
    exact fun handle hhandle => (hstart.lastStarted rfl hhandle).append_left log
  | stopFailed _ hread =>
    intro handle hhandle
    have hheld : handle ∈ session.handles := by
      rw [Session.handles, ← hread.flatMap_handles]
      exact hhandle
    refine (hlog hstate handle hheld).append fun outcome hstart => ?_
    obtain ⟨_, _, _, hcall⟩ := hread.exists_read hstart
    cases hcall
  | stopped => cases hstate
  | closed => cases hstate

/-- **The step.**  Whatever a command can do keeps the calls in order, if the handles that were
opened can be told apart. -/
theorem Disciplined.performed {command : SessionCommand} {session after : Session η}
    {calls log : List (BackendCall η)} {result : Except Error Unit} (h : Disciplined session log)
    (haccounted : Accounted session log) (hdistinct : (openedHandles log).Nodup)
    (hstep : Performed command session calls result after) : Disciplined after (log ++ calls) := by
  have hnodup := haccounted.balance.nodup_iff.mp hdistinct
  obtain ⟨hheld, _, hapart⟩ := List.nodup_append'.mp hnodup
  refine ⟨?_, ?_, hstep.lastStarted h.started⟩
  · refine List.pairwise_append.mpr
      ⟨h.closedLast, hstep.pairwise_sparesClosed hheld, fun earlier hearlier later hlater => ?_⟩
    intro handle hclosed hsubject
    exact hapart ((hstep.mayCall hlater).subject_mem hsubject)
      (List.mem_filterMap.mpr ⟨earlier, hearlier, hclosed⟩)
  · intro k handle outcome hread
    rcases Nat.lt_or_ge k log.length with hlt | hge
    · rw [List.getElem?_append_left hlt] at hread
      obtain ⟨j, hj, hstart⟩ := h.startedFirst k handle outcome hread
      exact ⟨j, hj, by rwa [List.getElem?_append_left (Nat.lt_trans hj hlt)]⟩
    · rw [List.getElem?_append_right hge] at hread
      have hcall := List.mem_of_getElem? hread
      obtain ⟨hrunning, hmem⟩ : session.state = .running ∧ handle ∈ session.handles := by
        cases hstep.mayCall hcall with
        | stopAndRead running held => exact ⟨running, held⟩
      obtain ⟨j, hstart, _⟩ := h.started hrunning handle hmem
      have hlt : j < log.length := (List.getElem?_eq_some_iff.mp hstart).1
      exact ⟨j, Nat.lt_of_lt_of_le hlt hge, by rwa [List.getElem?_append_left hlt]⟩

/-- **The run.**  After every history in which the handles that were opened can be told apart, the
calls are in order. -/
theorem disciplined_of_history (b : Backend σ η) {n : Nat} (hn : 1 ≤ n) (w : σ)
    (commands : List SessionCommand) {session : Session η} {log : List (BackendCall η)}
    (h : Session.history b n w commands = (session, log)) (hdistinct : (openedHandles log).Nodup) :
    Disciplined session log := by
  refine history_induction_of_nodup hn ⟨.nil, ?_, ?_⟩
    (fun haccounted hdistinct hstep hlog => hlog.performed haccounted hdistinct hstep) b w commands
    h hdistinct
  · intro k handle outcome hread
    cases hread
  · intro hstate
    cases hstate

/-- **The calls on each handle are in order.**  On every backend, whatever fails, number the handles
as they are opened: this changes nothing else and gives no handle twice.  Then no call works on a
handle after it was closed, a handle is read only after a start of it that succeeded, and in a
running session the last start of every handle that it holds succeeded. -/
theorem calls_disciplined (b : Backend σ η) {n : Nat} (hn : 1 ≤ n) (w : σ)
    (commands : List SessionCommand) {session : Session (Nat × η)}
    {log : List (BackendCall (Nat × η))}
    (h : Session.history b.numbered n (w, 0) commands = (session, log)) :
    Session.history b n w commands =
      (session.mapHandle Prod.snd, log.map (BackendCall.mapHandle Prod.snd)) ∧
    (openedHandles log).Nodup ∧ Disciplined session log := by
  have hdistinct := nodup_openedHandles_numbered b n w commands
  rw [h] at hdistinct
  refine ⟨?_, hdistinct, disciplined_of_history b.numbered hn (w, 0) commands h hdistinct⟩
  rw [history_numbered, h]

namespace Example

/-- A backend on which the first start of each counter on processor 1 fails. -/
def startsLate : BackendScript :=
  { rules := [{ selector := { cpu? := some 1 }, starts := [some .notCapable, none] }] }

/-- A start that fails is tried again, before and after the session has been closed. -/
def retrying : List SessionCommand :=
  [.parse "r1".toList ⟨⟨[], {}⟩, {}⟩, .open false 7, .start, .start, .stop, .close,
    .open false 7, .start, .start]

/-- The session after that, with numbered handles, and its log. -/
def retried : Session (Nat × Nat) × List (BackendCall (Nat × Nat)) :=
  Session.history startsLate.backend.numbered 2 ({}, 0) retrying

end Example

open Example in
theorem calls_disciplined_retried :
    (1 ≤ 2 ∧ retried.1.state = .running ∧ retried.1.handles.map Prod.fst = [2, 3]) ∧
    Session.history startsLate.backend 2 {} retrying =
      (retried.1.mapHandle Prod.snd, retried.2.map (BackendCall.mapHandle Prod.snd)) ∧
    (openedHandles retried.2).Nodup ∧ Disciplined retried.1 retried.2 :=
  ⟨⟨by decide, rfl, rfl⟩,
    calls_disciplined startsLate.backend (n := 2) (by decide) {} retrying rfl⟩

end HardwareCounters
