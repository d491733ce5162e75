/-
# A counter shows its last readings

A counter keeps its last reading, and apart from it the scaled value of the last reading for which
it was enabled.  Both are written in a loop that may fail halfway, over any number of starts and
stops, so what a counter shows is a statement about its whole history.

* `CpuCounter.replay` is the counter that readings make of another one; `SlotReading.exists_replay`
  and `Reading.exists_replay`: reading replays what was read and touches nothing else.
* `Remembering` says that every counter is what its readings since it was opened make of a new one;
  `Remembering.performed` is its step and `remembering_of_history` its run.
* `counters_show_readings` says what this means for the two values, for every backend.
-/
import HardwareCounters.Proofs.Session.Discipline
import HardwareCounters.Proofs.Session.Slots

namespace HardwareCounters

variable {σ η : Type}

/-! ## 1. Counters and their readings -/

/-- The counters of the event, by processor. -/
def SessionEvent.counters (event : SessionEvent η) : List (CpuCounter η) :=
  event.slots.filterMap id

/-- The counters of the session, by event and then by processor. -/
def Session.counters (session : Session η) : List (CpuCounter η) :=
  session.events.flatMap SessionEvent.counters

/-- What a call has read from the handle. -/
def BackendCall.readingOf? [DecidableEq η] (handle : η) : BackendCall η → Option Count
  | .stopAndRead other (.ok count) => if other = handle then some count else none
  | _ => none

/-- What has been read from the handle, in order. -/
def readings [DecidableEq η] (handle : η) (calls : List (BackendCall η)) : List Count :=
  calls.filterMap (BackendCall.readingOf? handle)

/-- The counter after readings. -/
def CpuCounter.replay (counter : CpuCounter η) (counts : List Count) : CpuCounter η :=
  counts.foldl CpuCounter.record counter

theorem SessionEvent.handles_eq_map_counters (event : SessionEvent η) :
    event.handles = event.counters.map CpuCounter.handle := by
  rw [handles, counters, List.map_filterMap]
  rfl

theorem flatMap_handles_eq_map (events : List (SessionEvent η)) :
    events.flatMap SessionEvent.handles =
      (events.flatMap SessionEvent.counters).map CpuCounter.handle := by
  rw [List.map_flatMap]
  exact congrArg (List.flatMap · events) (funext SessionEvent.handles_eq_map_counters)

theorem handle_mem_flatMap {events : List (SessionEvent η)} {counter : CpuCounter η}
    (h : counter ∈ events.flatMap SessionEvent.counters) :
    counter.handle ∈ events.flatMap SessionEvent.handles := by
  rw [flatMap_handles_eq_map]
  exact List.mem_map_of_mem h

@[simp] theorem handle_replay (counter : CpuCounter η) (counts : List Count) :
    (counter.replay counts).handle = counter.handle := by
  induction counts generalizing counter with
  | nil => rfl
  | cons count counts ih => exact ih (counter.record count)

theorem replay_append (counter : CpuCounter η) (counts more : List Count) :
    counter.replay (counts ++ more) = (counter.replay counts).replay more :=
  List.foldl_append

/-- The last reading is shown. -/
theorem count_replay (counter : CpuCounter η) (counts : List Count) :
    (counter.replay counts).count = counts.getLast?.getD counter.count := by
  induction counts generalizing counter with
  | nil => rfl
  | cons count counts ih =>
    have hstep : (counter.replay (count :: counts)).count =
      ((counter.record count).replay counts).count := rfl
    rw [hstep, ih, List.getLast?_cons]
    rfl

/-- The last reading with time in it is shown scaled. -/
theorem scaled_replay (counter : CpuCounter η) (counts : List Count) :
    (counter.replay counts).scaled =
      ((counts.filter fun count => count.enabled ≠ 0).getLast?.map Count.scaled).getD
        counter.scaled := by
  induction counts generalizing counter with
  | nil => rfl
  | cons count counts ih =>
    have hstep : (counter.replay (count :: counts)).scaled =
      ((counter.record count).replay counts).scaled := rfl
    have hrecord : (counter.record count).scaled =
      if count.enabled = 0 then counter.scaled else count.scaled := rfl
    rw [hstep, ih, hrecord]
    by_cases htime : count.enabled = 0
    · simp [htime]
    · rw [if_neg htime, List.filter_cons_of_pos (by simpa using htime), List.getLast?_cons]
      cases (counts.filter fun count => count.enabled ≠ 0).getLast? with
      | none => rfl
      | some last => rfl

section Readings

variable [DecidableEq η] {handle : η} {calls : List (BackendCall η)}

@[simp] theorem readings_append (handle : η) (calls more : List (BackendCall η)) :
    readings handle (calls ++ more) = readings handle calls ++ readings handle more :=
  List.filterMap_append

theorem readings_cons_self (handle : η) (count : Count) (calls : List (BackendCall η)) :
    readings handle (.stopAndRead handle (.ok count) :: calls) =
      count :: readings handle calls :=
  List.filterMap_cons_some (if_pos rfl)

/-- Calls that do not read the handle give no readings of it. -/
theorem readings_eq_nil_of_not_mem (h : ∀ count, .stopAndRead handle (.ok count) ∉ calls) :
    readings handle calls = [] := by
  rw [readings, List.filterMap_eq_nil_iff]
  intro call hcall
  match call, hcall with
  | .stopAndRead other (.ok count), hcall =>
    rw [BackendCall.readingOf?, if_neg]
    rintro rfl
    exact h count hcall
  | .stopAndRead _ (.error _), _ => rfl
  | .check _ _, _ => rfl
  | .openCounter _ _ _ _ _, _ => rfl
  | .start _ _, _ => rfl
  | .close _ _, _ => rfl

/-! ## 2. What reading does to the counters -/

theorem SlotReading.readings_eq_nil {slots reached : List (Slot η)} {sum : Word}
    {result : Except Error Word} (h : SlotReading slots sum calls result reached)
    (hnone : handle ∉ slots.filterMap fun slot => slot.map CpuCounter.handle) :
    readings handle calls = [] := by
  refine readings_eq_nil_of_not_mem fun count hread => ?_
  obtain ⟨other, hother, _, hcall⟩ := h.exists_read hread
  cases hcall
  exact hnone hother

theorem Reading.readings_eq_nil {events reached : List (SessionEvent η)}
    {result : Except Error Unit} (h : Reading events calls result reached)
    (hnone : handle ∉ events.flatMap SessionEvent.handles) : readings handle calls = [] := by
  refine readings_eq_nil_of_not_mem fun count hread => ?_
  obtain ⟨other, hother, _, hcall⟩ := h.exists_read hread
  cases hcall
  exact hnone hother

/-- **One event.**  Reading replays for each counter what was read from its handle. -/
theorem SlotReading.exists_replay {slots reached : List (Slot η)} {sum : Word}
    {result : Except Error Word} (h : SlotReading slots sum calls result reached)
    (hdistinct : (slots.filterMap fun slot => slot.map CpuCounter.handle).Nodup)
    {counter : CpuCounter η} (hcounter : counter ∈ reached.filterMap id) :
    ∃ old ∈ slots.filterMap id, counter = old.replay (readings old.handle calls) := by
  induction h with
  | done => cases hcounter
  | gap => exact ⟨counter, hcounter, rfl⟩
  | failed first slots sum e =>
    refine ⟨counter, hcounter, ?_⟩
    rw [readings_eq_nil_of_not_mem fun count hread => by simp at hread]
    rfl
  | @read slots reached sum calls result first count rest ih =>
    obtain ⟨hfirst, hrest⟩ := List.nodup_cons.mp hdistinct
    rcases List.mem_cons.mp hcounter with rfl | hcounter
    · refine ⟨first, List.mem_cons_self, ?_⟩
      rw [readings_cons_self, rest.readings_eq_nil hfirst]
      rfl
    · obtain ⟨old, hold, heq⟩ := ih hrest hcounter
      refine ⟨old, List.mem_cons_of_mem _ hold, ?_⟩
      have hne : first.handle ≠ old.handle := by
        intro hsame
        obtain ⟨slot, hslot, hsome⟩ := List.mem_filterMap.mp hold
        rw [hsame] at hfirst
        exact hfirst (List.mem_filterMap.mpr ⟨slot, hslot, congrArg (Option.map _) hsome⟩)
      have hskip : readings old.handle (.stopAndRead first.handle (.ok count) :: calls) =
          readings old.handle calls := List.filterMap_cons_none (if_neg hne)
      rw [hskip]
      exact heq

/-- **All events.**  Reading replays for each counter what was read from its handle, also if it
fails at a later counter. -/
theorem Reading.exists_replay {events reached : List (SessionEvent η)}
    {result : Except Error Unit} (h : Reading events calls result reached)
    (hdistinct : (events.flatMap SessionEvent.handles).Nodup) {counter : CpuCounter η}
    (hcounter : counter ∈ reached.flatMap SessionEvent.counters) :
    ∃ old ∈ events.flatMap SessionEvent.counters,
      counter = old.replay (readings old.handle calls) := by
  induction h with
  | done => cases hcounter
  | @failed event calls slots e events h =>
    rw [List.flatMap_cons, List.nodup_append'] at hdistinct
    obtain ⟨hfirst, _, hapart⟩ := hdistinct
    rcases List.mem_append.mp hcounter with hcounter | hcounter
    · obtain ⟨old, hold, heq⟩ := h.exists_replay hfirst hcounter
      exact ⟨old, List.mem_append_left _ hold, heq⟩
    · refine ⟨counter, List.mem_append_right _ hcounter, ?_⟩
      rw [h.readings_eq_nil fun hfirst => hapart hfirst (handle_mem_flatMap hcounter)]
      rfl
  | @read event events reached calls more slots totalSum result h rest ih =>
    rw [List.flatMap_cons, List.nodup_append'] at hdistinct
    obtain ⟨hfirst, hrest, hapart⟩ := hdistinct
    rcases List.mem_append.mp hcounter with hcounter | hcounter
    · obtain ⟨old, hold, heq⟩ := h.exists_replay hfirst hcounter
      refine ⟨old, List.mem_append_left _ hold, ?_⟩
      have hhandle : old.handle ∈ event.handles := by
        rw [SessionEvent.handles_eq_map_counters]
        exact List.mem_map_of_mem hold
      rw [readings_append, rest.readings_eq_nil fun hlater => hapart hhandle hlater,
        List.append_nil]
      exact heq
    · obtain ⟨old, hold, heq⟩ := ih hrest hcounter
      refine ⟨old, List.mem_append_right _ hold, ?_⟩
      rw [readings_append, h.readings_eq_nil fun hfirst => hapart hfirst (handle_mem_flatMap hold),
        List.nil_append]
      exact heq

end Readings

/-! ## 3. Since a handle was opened -/

/-- The log ends with these calls after one that opened the handle. -/
def SinceOpened (handle : η) (log since : List (BackendCall η)) : Prop :=
  ∃ before call, call.opened? = some handle ∧ log = before ++ call :: since

theorem SinceOpened.append {handle : η} {log since : List (BackendCall η)}
    (h : SinceOpened handle log since) (calls : List (BackendCall η)) :
    SinceOpened handle (log ++ calls) (since ++ calls) := by
  obtain ⟨before, call, hcall, rfl⟩ := h
  exact ⟨before, call, hcall, by rw [List.append_assoc, List.cons_append]⟩

theorem SinceOpened.append_left {handle : η} {calls since : List (BackendCall η)}
    (h : SinceOpened handle calls since) (log : List (BackendCall η)) :
    SinceOpened handle (log ++ calls) since := by
  obtain ⟨before, call, hcall, rfl⟩ := h
  exact ⟨log ++ before, call, hcall, by rw [List.append_assoc]⟩

/-- A handle that a log has seen opened was opened by a call of the log. -/
theorem exists_sinceOpened {handle : η} {calls : List (BackendCall η)}
    (h : handle ∈ openedHandles calls) : ∃ since, SinceOpened handle calls since := by
  obtain ⟨call, hmem, hcall⟩ := List.mem_filterMap.mp h
  obtain ⟨before, since, heq⟩ := List.append_of_mem hmem
  exact ⟨since, before, call, hcall, heq⟩

/-- If the handles that were opened can be told apart, each was opened by one call. -/
theorem SinceOpened.eq {handle : η} {log since since' : List (BackendCall η)}
    (hdistinct : (openedHandles log).Nodup) (h : SinceOpened handle log since)
    (h' : SinceOpened handle log since') : since = since' := by
  obtain ⟨before, call, hcall, rfl⟩ := h
  obtain ⟨before', call', hcall', heq⟩ := h'
  -- The handle occurs in neither list of calls that come before.
  have hnot : ∀ {before call since}, call.opened? = some handle →
      (openedHandles (before ++ call :: since)).Nodup → handle ∉ openedHandles before := by
    intro before call since hcall hdistinct hmem
    have hcons : openedHandles (call :: since) = handle :: openedHandles since :=
      List.filterMap_cons_some hcall
    rw [openedHandles_append, hcons, List.nodup_append'] at hdistinct
    exact hdistinct.2.2 hmem List.mem_cons_self
  have hbefore := hnot hcall hdistinct
  have hbefore' := hnot hcall' (heq ▸ hdistinct)
  have hmem : ∀ {calls : List (BackendCall η)} {call : BackendCall η},
      call.opened? = some handle → call ∈ calls → handle ∈ openedHandles calls :=
    fun hcall hmem => List.mem_filterMap.mpr ⟨_, hmem, hcall⟩
  rcases List.append_eq_append_iff.mp heq with ⟨more, rfl, hrest⟩ | ⟨more, rfl, hrest⟩
  · cases more with
    | nil => exact (List.cons.inj hrest).2
    | cons first more =>
      obtain ⟨rfl, -⟩ := List.cons.inj hrest
      exact absurd (hmem hcall (List.mem_append_right _ List.mem_cons_self)) hbefore'
  · cases more with
    | nil => exact (List.cons.inj hrest).2.symm
    | cons first more =>
      obtain ⟨rfl, -⟩ := List.cons.inj hrest
      exact absurd (hmem hcall' (List.mem_append_right _ List.mem_cons_self)) hbefore

/-- Opening makes new counters, under handles that its calls obtained. -/
theorem Opening.exists_handle {options : OpenOptions} {n : Nat} {leader? : Option (SessionEvent η)}
    {events opened : List (SessionEvent η)} {calls : List (BackendCall η)}
    {result : Except Error Unit} (h : Opening options n leader? events calls result opened)
    (hnone : ∀ event ∈ events, event.handles = []) {counter : CpuCounter η}
    (hcounter : counter ∈ opened.flatMap SessionEvent.counters) :
    counter = { handle := counter.handle } ∧ counter.handle ∈ openedHandles calls := by
  refine ⟨?_, h.flatMap_handles hnone ▸ handle_mem_flatMap hcounter⟩
  have hnew : ∀ {event : SessionEvent η} {n : Nat} {handles : List η},
      counter ∈ (event.holding n handles).counters → counter = { handle := counter.handle } := by
    intro event n handles hcounter
    obtain ⟨slot, hslot, hsome⟩ := List.mem_filterMap.mp hcounter
    rcases List.mem_append.mp hslot with hslot | hslot
    · obtain ⟨handle, _, rfl⟩ := List.mem_map.mp hslot
      cases hsome
      rfl
    · rw [List.eq_of_mem_replicate hslot] at hsome
      cases hsome
  induction h with
  | done => cases hcounter
  | failed leader? event events handles e =>
    rcases List.mem_append.mp hcounter with hcounter | hcounter
    · exact hnew hcounter
    · have hheld := handle_mem_flatMap hcounter
      rw [List.flatMap_eq_nil_iff.mpr fun other hother =>
        hnone other (List.mem_cons_of_mem _ hother)] at hheld
      cases hheld
  | opened _ _ ih =>
    rcases List.mem_append.mp hcounter with hcounter | hcounter
    · exact hnew hcounter
    · exact ih (fun other hother => hnone other (List.mem_cons_of_mem _ hother)) hcounter

/-! ## 4. What every command keeps -/

section Remembering

variable [DecidableEq η] {command : SessionCommand} {session after : Session η}
  {calls log : List (BackendCall η)} {result : Except Error Unit}

/-- Every counter is what its readings since it was opened make of a new one. -/
def Remembering (session : Session η) (log : List (BackendCall η)) : Prop :=
  ∀ counter ∈ session.counters, ∃ since, SinceOpened counter.handle log since ∧
    counter = CpuCounter.replay { handle := counter.handle } (readings counter.handle since)

/-- Calls that leave the counters what their readings make of them. -/
theorem Remembering.replayed (h : Remembering session log)
    (hreplay : ∀ counter ∈ after.counters, ∃ old ∈ session.counters,
      counter = old.replay (readings old.handle calls)) : Remembering after (log ++ calls) := by
  intro counter hcounter
  obtain ⟨old, hold, rfl⟩ := hreplay counter hcounter
  obtain ⟨since, hsince, heq⟩ := h old hold
  refine ⟨since ++ calls, ?_, ?_⟩
  · rw [handle_replay]
    exact hsince.append calls
  · rw [handle_replay, readings_append, replay_append, ← heq]

/-- Calls that read nothing, and leave the counters as they are. -/
theorem Remembering.frame (h : Remembering session log)
    (hnone : ∀ handle count, .stopAndRead handle (.ok count) ∉ calls)
    (hcounters : after.counters = session.counters) : Remembering after (log ++ calls) := by
  refine h.replayed fun counter hcounter => ⟨counter, hcounters ▸ hcounter, ?_⟩
  rw [readings_eq_nil_of_not_mem fun count => hnone counter.handle count]
  rfl

/-- A session without slots has nothing to remember. -/
theorem remembering_of_slots_eq_nil (h : ∀ event ∈ session.events, event.slots = []) :
    Remembering session log := by
  intro counter hcounter
  obtain ⟨event, hevent, hmem⟩ := List.mem_flatMap.mp hcounter
  rw [SessionEvent.counters, h event hevent] at hmem
  cases hmem

/-- **The step.**  Whatever a command can do, the counters remember their readings, if those that
the session held can be told apart. -/
theorem Remembering.performed (h : Remembering session log) (haccounted : Accounted session log)
    (hheld : session.handles.Nodup) (hstep : Performed command session calls result after) :
    Remembering after (log ++ calls) := by
  cases hstep with
  | refused => exact h.frame (fun _ _ hread => nomatch hread) rfl
  | parsed _ _ _ _ hslots => exact remembering_of_slots_eq_nil hslots
  | denied => exact h.frame (fun _ _ hread => by simp at hread) rfl
  | opened measureAll pid hopen hopening =>
    intro counter hcounter
    have hnone := haccounted.handles_eq_nil (Or.inr rfl) (state_of_refusalOrEmpty? hopen)
    obtain ⟨hnew, hmem⟩ := hopening.exists_handle (List.flatMap_eq_nil_iff.mp hnone) hcounter
    obtain ⟨since, hsince⟩ := exists_sinceOpened hmem
    refine ⟨since, (hsince.append_left [.check { pid, measureAll } (.ok ())]).append_left log, ?_⟩
    rw [readings_eq_nil_of_not_mem fun count hread => ?_]
    · exact hnew
    · obtain ⟨before, call, _, heq⟩ := hsince
      have hcall := heq ▸ List.mem_append_right before (List.mem_cons_of_mem call hread)
      obtain ⟨_, _, _, _, _, hcall⟩ := hopening.exists_openCounter hcall
      cases hcall
  | startFailed _ hstart =>
    refine h.frame (fun _ _ hread => ?_) rfl
    obtain ⟨_, _, _, hcall⟩ := hstart.exists_start hread
    cases hcall
  | started _ hstart =>
    refine h.frame (fun _ _ hread => ?_) rfl
    obtain ⟨_, _, _, hcall⟩ := hstart.exists_start hread
    cases hcall
  | stopFailed _ hread => exact h.replayed fun _ hcounter => hread.exists_replay hheld hcounter
  | stopped _ hread => exact h.replayed fun _ hcounter => hread.exists_replay hheld hcounter
  | closed =>
    refine remembering_of_slots_eq_nil fun event hevent => ?_
    obtain ⟨old, _, rfl⟩ := List.mem_map.mp hevent
    rfl

/-- **The run.**  After every history in which the handles that were opened can be told apart, the
counters remember their readings. -/
theorem remembering_of_history (b : Backend σ η) (n : Nat) (w : σ) (commands : List SessionCommand)
    (h : Session.history b n w commands = (session, log)) (hdistinct : (openedHandles log).Nodup) :
    Remembering session log := by
  rcases Nat.eq_zero_or_pos n with rfl | hn
  · -- Without processors there are no slots, although a call may have opened a handle.
    have hfits := fits_of_history b 0 w commands
    rw [h] at hfits
    exact remembering_of_slots_eq_nil fun event hevent =>
      List.eq_nil_of_length_eq_zero (Nat.le_zero.mp (hfits.length_le event hevent))
  · refine history_induction_of_nodup hn (fun _ hcounter => nomatch hcounter) ?_ b w commands h
      hdistinct
    intro command session calls result after log haccounted hdistinct hstep hlog
    have hheld := (haccounted.balance.nodup_iff.mp hdistinct).of_append_left
    exact hlog.performed haccounted hheld hstep

end Remembering

/-! ## 5. What a counter shows -/

/-- The counter shows the last of the readings, and scaled the last one with time in it. -/
structure CpuCounter.Shows (counter : CpuCounter η) (counts : List Count) : Prop where
  count_eq : counter.count = counts.getLast?.getD {}
  scaled_eq : counter.scaled =
    ((counts.filter fun count => count.enabled ≠ 0).getLast?.map Count.scaled).getD 0

theorem Remembering.shows [DecidableEq η] {session : Session η} {log : List (BackendCall η)}
    (h : Remembering session log) {counter : CpuCounter η} (hcounter : counter ∈ session.counters) :
    ∃ since, SinceOpened counter.handle log since ∧
      counter.Shows (readings counter.handle since) := by
  obtain ⟨since, hsince, heq⟩ := h counter hcounter
  refine ⟨since, hsince, ?_, ?_⟩
  · rw [congrArg CpuCounter.count heq, count_replay]
  · rw [congrArg CpuCounter.scaled heq, scaled_replay]

theorem performAll_append (b : Backend σ η) (commands more : List SessionCommand)
    (session : Session η) (w : σ) :
    Session.performAll b (commands ++ more) session w =
      Session.performAll b more (Session.performAll b commands session w).1
        (Session.performAll b commands session w).2 := by
  induction commands generalizing session w with
  | nil => rfl
  | cons command commands ih => exact ih _ _

/-- Recording only adds to the log. -/
theorem recorded_preserves_log (b : Backend σ η) (log : List (BackendCall η)) :
    b.recorded.Preserves fun w => log <+: w.2 where
  check _ _ h := h.trans (List.prefix_append _ _)
  openCounter _ _ _ _ _ h := h.trans (List.prefix_append _ _)
  start _ _ h := h.trans (List.prefix_append _ _)
  stopAndRead _ _ h := h.trans (List.prefix_append _ _)
  close _ _ h := h.trans (List.prefix_append _ _)
  threadCpus? _ h := h
  moveThread _ _ h := h

/-- More commands only add to the log. -/
theorem log_prefix_history_append (b : Backend σ η) (n : Nat) (w : σ)
    (commands more : List SessionCommand) :
    (Session.history b n w commands).2 <+: (Session.history b n w (commands ++ more)).2 := by
  have hmore := (recorded_preserves_log b (Session.history b n w commands).2).performAll more
    (Session.performAll b.recorded commands { cpuCount := n } (w, [])).1
    (w := (Session.performAll b.recorded commands { cpuCount := n } (w, [])).2) List.prefix_rfl
  rw [← performAll_append] at hmore
  exact hmore

/-- Readings without time in them change no scaled value. -/
theorem CpuCounter.Shows.scaled_eq_of_append {counter later : CpuCounter η}
    {counts more : List Count} (h : counter.Shows counts) (hlater : later.Shows (counts ++ more))
    (hmore : ∀ count ∈ more, count.enabled = 0) : later.scaled = counter.scaled := by
  have hnone : (more.filter fun count => count.enabled ≠ 0) = [] := by
    rw [List.filter_eq_nil_iff]
    intro count hcount
    simpa using hmore count hcount
  rw [h.scaled_eq, hlater.scaled_eq, List.filter_append, hnone, List.append_nil]

/-- **A counter shows its last readings.**  On every backend, whatever fails, number the handles as
they are opened: this changes nothing else and gives no handle twice.  Then the count of every
counter that is held is the last reading of its handle since that was opened, and its scaled value
is that of the last such reading with time in it.  So its scaled value stays as it is for as long as
all readings of its handle are without time, whatever else happens. -/
theorem counters_show_readings [DecidableEq η] (b : Backend σ η) (n : Nat) (w : σ)
    (commands : List SessionCommand) {session : Session (Nat × η)}
    {log : List (BackendCall (Nat × η))}
    (h : Session.history b.numbered n (w, 0) commands = (session, log)) :
    Session.history b n w commands =
      (session.mapHandle Prod.snd, log.map (BackendCall.mapHandle Prod.snd)) ∧
    (openedHandles log).Nodup ∧
    (∀ counter ∈ session.counters, ∃ since, SinceOpened counter.handle log since ∧
      counter.Shows (readings counter.handle since)) ∧
    ∀ more later log', Session.history b.numbered n (w, 0) (commands ++ more) = (later, log') →
      ∃ calls, log' = log ++ calls ∧
        ∀ counter ∈ session.counters, ∀ counter' ∈ later.counters,
          counter'.handle = counter.handle →
          (∀ count ∈ readings counter.handle calls, count.enabled = 0) →
          counter'.scaled = counter.scaled := by
  have hdistinct := nodup_openedHandles_numbered b n w commands
  rw [h] at hdistinct
  have hremembering := remembering_of_history b.numbered n (w, 0) commands h hdistinct
  refine ⟨by rw [history_numbered, h], hdistinct, fun _ hcounter => hremembering.shows hcounter, ?_⟩
  intro more later log' hlater
  have hdistinct' := nodup_openedHandles_numbered b n w (commands ++ more)
  have hprefix := log_prefix_history_append b.numbered n (w, 0) commands more
  rw [hlater] at hdistinct' hprefix
  rw [h] at hprefix
  obtain ⟨calls, rfl⟩ := hprefix
  have hremembering' :=
    remembering_of_history b.numbered n (w, 0) (commands ++ more) hlater hdistinct'
  refine ⟨calls, rfl, fun counter hcounter counter' hcounter' hhandle htime => ?_⟩
  obtain ⟨since, hsince, hshows⟩ := hremembering.shows hcounter
  obtain ⟨since', hsince', hshows'⟩ := hremembering'.shows hcounter'
  rw [hhandle] at hsince' hshows'
  obtain rfl := SinceOpened.eq hdistinct' hsince' (hsince.append calls)
  rw [readings_append] at hshows'
  exact hshows.scaled_eq_of_append hshows' htime

namespace Example

/-- A backend whose counters are read with time, then without, and then cannot be read. -/
def readsTwice : BackendScript :=
  { rules := [{ reads :=
      [some (.ok ⟨10, 4, 2⟩), some (.ok ⟨3, 0, 0⟩), some (.error .notCapable)] }] }

/-- An event is measured once. -/
def measuring : List SessionCommand :=
  [.parse "r1".toList ⟨⟨[], {}⟩, {}⟩, .open false 7, .start, .stop]

/-- It is measured twice more. -/
def measuringOn : List SessionCommand := [.start, .stop, .start, .stop]

/-- The session after that, with numbered handles, and its log. -/
def measured (commands : List SessionCommand) :
    Session (Nat × Nat) × List (BackendCall (Nat × Nat)) :=
  Session.history readsTwice.backend.numbered 1 ({}, 0) commands

end Example

open Example in
theorem counters_show_readings_measured :
    ((measured (measuring ++ measuringOn)).1.counters.map CpuCounter.count = [⟨3, 0, 0⟩] ∧
      (measured (measuring ++ measuringOn)).1.counters.map CpuCounter.scaled = [20]) ∧
    (∀ counter ∈ (measured measuring).1.counters,
      ∃ since, SinceOpened counter.handle (measured measuring).2 since ∧
        counter.Shows (readings counter.handle since)) ∧
    ∃ calls, (measured (measuring ++ measuringOn)).2 = (measured measuring).2 ++ calls ∧
      ∀ counter ∈ (measured measuring).1.counters,
        ∀ counter' ∈ (measured (measuring ++ measuringOn)).1.counters,
          counter'.handle = counter.handle →
          (∀ count ∈ readings counter.handle calls, count.enabled = 0) →
          counter'.scaled = counter.scaled := by
  obtain ⟨-, -, hshows, hon⟩ :=
    counters_show_readings readsTwice.backend 1 {} measuring (Prod.eta (measured measuring)).symm
  exact ⟨⟨rfl, rfl⟩, hshows, hon measuringOn _ _ rfl⟩

end HardwareCounters
