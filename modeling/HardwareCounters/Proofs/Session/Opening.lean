/-
# The order in which counters are opened

Opening is a loop over events with a loop over processors inside, and one variable, the event that
leads the open group, is threaded through both.  This file says once what such a loop can do and
derives the rest from that.

* `Opening` is the relation between what a loop starts with, the calls that it makes, its result and
  the events that it leaves; `openEvents_recorded` proves that every run of the loop is in it.
* `SlotlessOpening` is that relation for a session without processors.
* `LeadsAt` says which event leads when an event is reached, by the marks of the events alone, and
  `leaderIndex?_eq_some_iff` ties the threaded variable to it.
* `Opening.call_at` gives the call with number `k`: it concerns event `k / n` on processor `k % n`.
* `openCounters_in_order` puts these together for a whole session.
-/
import HardwareCounters.Proofs.Session.CallLog
import HardwareCounters.Counter.Script
import HardwareCounters.Session.Open
import Mathlib.Tactic.ByContra

namespace HardwareCounters

variable {σ η : Type}

/-! ## 1. Events with their first counters -/

/-- The slots of an event with counters on the first of `n` processors, all just opened. -/
def freshSlots (n : Nat) (handles : List η) : List (Slot η) :=
  handles.map (fun handle => some { handle := handle }) ++ List.replicate (n - handles.length) none

namespace SessionEvent

/-- The event with counters on the first of `n` processors, all just opened. -/
def holding (event : SessionEvent η) (n : Nat) (handles : List η) : SessionEvent η :=
  { event with slots := freshSlots n handles, totalSum := 0 }

/-- What decides how an event takes part in groups. -/
def marks (event : SessionEvent η) : Bool × Bool := (event.leader, event.endsGroup)

@[simp] theorem handles_holding (event : SessionEvent η) (n : Nat) (handles : List η) :
    (event.holding n handles).handles = handles := by
  have hopened : (handles.map fun handle => some { handle := handle }).filterMap
      (fun slot : Slot η => slot.map CpuCounter.handle) = handles := by
    rw [List.filterMap_map]
    exact List.filterMap_some
  have hfree : (List.replicate (n - handles.length) none).filterMap
      (fun slot : Slot η => slot.map CpuCounter.handle) = [] := by
    simp
  rw [SessionEvent.handles, holding, freshSlots, List.filterMap_append, hopened, hfree,
    List.append_nil]

@[simp] theorem handle?_holding (event : SessionEvent η) (n : Nat) (handles : List η) (cpu : Nat) :
    (event.holding n handles).handle? cpu = handles[cpu]? := by
  simp only [handle?, counter?, holding, freshSlots]
  by_cases h : cpu < handles.length
  · simp [List.getElem?_append_left, h]
  · have hnone : handles[cpu]? = none := by simpa using h
    rw [List.getElem?_append_right (by simpa using h), hnone, List.getElem?_replicate]
    split <;> rfl

/-- The slot after the last counter is the next one to be filled. -/
theorem setCounter_holding (event : SessionEvent η) {n : Nat} {handles : List η}
    (h : handles.length < n) (handle : η) :
    (event.holding n handles).setCounter handles.length { handle := handle } =
      event.holding n (handles ++ [handle]) := by
  obtain ⟨m, rfl⟩ : ∃ m, n = handles.length + (m + 1) := ⟨n - handles.length - 1, by omega⟩
  have hrest : handles.length + (m + 1) - handles.length = m + 1 := by omega
  have hless : handles.length + (m + 1) - (handles.length + 1) = m := by omega
  simp [setCounter, holding, freshSlots, hrest, hless, List.replicate_succ]

theorem length_slots_holding (event : SessionEvent η) {n : Nat} {handles : List η}
    (h : handles.length ≤ n) : (event.holding n handles).slots.length = n := by
  simp [holding, freshSlots, h]

theorem prepare_eq_holding (event : SessionEvent η) (n : Nat) :
    event.prepare n = event.holding n [] := by
  simp [prepare, holding, freshSlots]

end SessionEvent

/-- With at least one processor every event is opened on all of them in order. -/
theorem targetCpus_eq_range {n : Nat} (h : 1 ≤ n) (uncore : Bool) :
    targetCpus n uncore = List.range n := by
  obtain ⟨m, rfl⟩ : ∃ m, n = m + 1 := ⟨n - 1, by omega⟩
  cases uncore <;> simp [targetCpus, List.range_eq_range', List.range'_succ]

/-! ## 2. What the loops can do -/

/-- The call that opens an event on a processor. -/
def openCall (event : SessionEvent η) (options : OpenOptions) (leader? : Option (SessionEvent η))
    (cpu : Nat) (outcome : Except Error η) : BackendCall η :=
  .openCounter event.attr options cpu (leader?.bind fun leader => leader.handle? cpu) outcome

/-- The calls that give an event its counters from processor `cpu` on. -/
def openCalls (event : SessionEvent η) (options : OpenOptions) (leader? : Option (SessionEvent η))
    (cpu : Nat) (handles : List η) : List (BackendCall η) :=
  (handles.zipIdx cpu).map fun (handle, cpu) => openCall event options leader? cpu (.ok handle)

/-- What opening events on `n` processors can do.  Each event gets a counter on every processor, up
to the first call that fails; the events after that one are left as they are. -/
inductive Opening (options : OpenOptions) (n : Nat) :
    Option (SessionEvent η) → List (SessionEvent η) → List (BackendCall η) → Except Error Unit →
      List (SessionEvent η) → Prop
  | done (leader? : Option (SessionEvent η)) : Opening options n leader? [] [] (.ok ()) []
  | failed (leader? : Option (SessionEvent η)) (event : SessionEvent η)
      (events : List (SessionEvent η)) (handles : List η) (e : Error) (h : handles.length < n) :
      Opening options n leader? (event :: events)
        (openCalls event options leader? 0 handles ++
          [openCall event options leader? handles.length (.error e)])
        (.error (.openFailed event.name handles.length e.message))
        (event.holding n handles :: events)
  | opened {leader? : Option (SessionEvent η)} {event : SessionEvent η}
      {events opened : List (SessionEvent η)} {handles : List η} {calls : List (BackendCall η)}
      {result : Except Error Unit} (h : handles.length = n)
      (rest : Opening options n (nextLeader? leader? (event.holding n handles)) events calls result
        opened) :
      Opening options n leader? (event :: events)
        (openCalls event options leader? 0 handles ++ calls) result
        (event.holding n handles :: opened)

@[simp] theorem openCalls_nil (event : SessionEvent η) (options : OpenOptions)
    (leader? : Option (SessionEvent η)) (cpu : Nat) :
    openCalls event options leader? cpu [] = [] := rfl

theorem openCalls_cons (event : SessionEvent η) (options : OpenOptions)
    (leader? : Option (SessionEvent η)) (cpu : Nat) (handle : η) (handles : List η) :
    openCalls event options leader? cpu (handle :: handles) =
      openCall event options leader? cpu (.ok handle) ::
        openCalls event options leader? (cpu + 1) handles := rfl

@[simp] theorem length_openCalls (event : SessionEvent η) (options : OpenOptions)
    (leader? : Option (SessionEvent η)) (cpu : Nat) (handles : List η) :
    (openCalls event options leader? cpu handles).length = handles.length := by
  simp [openCalls]

theorem getElem?_openCalls (event : SessionEvent η) (options : OpenOptions)
    (leader? : Option (SessionEvent η)) (cpu : Nat) (handles : List η) (k : Nat) :
    (openCalls event options leader? cpu handles)[k]? =
      handles[k]?.map fun handle => openCall event options leader? (cpu + k) (.ok handle) := by
  simp [openCalls, List.getElem?_zipIdx, Function.comp_def]

/-- The calls of an event come first. -/
theorem getElem?_openCalls_append {event : SessionEvent η} {options : OpenOptions}
    {leader? : Option (SessionEvent η)} {handles : List η} {calls : List (BackendCall η)} {k : Nat}
    (h : k < handles.length) :
    (openCalls event options leader? 0 handles ++ calls)[k]? =
      some (openCall event options leader? k (.ok handles[k])) := by
  rw [List.getElem?_append_left (by simpa using h), getElem?_openCalls,
    List.getElem?_eq_getElem h, Option.map_some, Nat.zero_add]

/-- **The inner loop.**  From a processor on, an event gets counters in order, either on all
processors that remain or up to the first call that fails. -/
theorem openOn_recorded (b : Backend σ η) (options : OpenOptions)
    (leader? : Option (SessionEvent η)) (event : SessionEvent η) {n : Nat} (m : Nat)
    (held : List η) (hm : held.length + m = n) (w : σ) (log : List (BackendCall η)) :
    ∃ handles w',
      (handles.length = m ∧
        (event.holding n held).openOn b.recorded options leader? (List.range' held.length m)
            (w, log) =
          (.ok (), event.holding n (held ++ handles), w',
            log ++ openCalls event options leader? held.length handles)) ∨
      ∃ e, handles.length < m ∧
        (event.holding n held).openOn b.recorded options leader? (List.range' held.length m)
            (w, log) =
          (.error (.openFailed event.name (held.length + handles.length) e.message),
            event.holding n (held ++ handles), w',
            log ++ (openCalls event options leader? held.length handles ++
              [openCall event options leader? (held.length + handles.length) (.error e)])) := by
  induction m generalizing held w log with
  | zero => exact ⟨[], w, Or.inl ⟨rfl, by simp [SessionEvent.openOn]⟩⟩
  | succ m ih =>
    have hlt : held.length < n := by omega
    rcases hcall : b.openCounter event.attr options held.length
        (leader?.bind fun leader => leader.handle? held.length) (b.moveThread [held.length] w)
      with ⟨e | handle, w₁⟩
    · refine ⟨[], w₁, Or.inr ⟨e, Nat.succ_pos m, ?_⟩⟩
      simp only [List.range'_succ, SessionEvent.openOn, Backend.recorded_moveThread,
        Backend.recorded_openCounter, SessionEvent.holding, hcall]
      simp [openCall]
    · have hlen : (held ++ [handle]).length + m = n := by simp; omega
      have hstep : (event.holding n held).openOn b.recorded options leader?
          (List.range' held.length (m + 1)) (w, log) =
          (event.holding n (held ++ [handle])).openOn b.recorded options leader?
            (List.range' (held ++ [handle]).length m)
            (w₁, log ++ [openCall event options leader? held.length (.ok handle)]) := by
        rw [← SessionEvent.setCounter_holding event hlt handle]
        have hslots : held.length < (event.holding n held).slots.length := by
          rw [SessionEvent.length_slots_holding event (Nat.le_of_lt hlt)]
          exact hlt
        simp only [List.range'_succ, SessionEvent.openOn, Backend.recorded_moveThread,
          Backend.recorded_openCounter, SessionEvent.holding, hcall] at hslots ⊢
        rw [if_pos hslots]
        simp [openCall]
      obtain ⟨handles, w', h⟩ := ih (held ++ [handle]) hlen w₁
        (log ++ [openCall event options leader? held.length (.ok handle)])
      refine ⟨handle :: handles, w', ?_⟩
      simp only [hstep, openCalls_cons]
      rcases h with ⟨hl, h⟩ | ⟨e, hl, h⟩
      · exact Or.inl ⟨by simp [hl], by rw [h]; simp⟩
      · refine Or.inr ⟨e, by simpa using hl, ?_⟩
        rw [h]
        simp [Nat.add_assoc, Nat.add_comm 1]

/-- **The outer loop.**  Whatever the backend does, the loop over the events is an `Opening`. -/
theorem openEvents_recorded (b : Backend σ η) (options : OpenOptions) {n : Nat} (hn : 1 ≤ n)
    (leader? : Option (SessionEvent η)) (events : List (SessionEvent η)) (w : σ)
    (log : List (BackendCall η)) :
    ∃ calls result opened w',
      Session.openEvents b.recorded options n leader? events (w, log) =
        (result, opened, w', log ++ calls) ∧
      Opening options n leader? events calls result opened := by
  induction events generalizing leader? w log with
  | nil => exact ⟨[], .ok (), [], w, by simp [Session.openEvents], .done leader?⟩
  | cons event events ih =>
    have htargets := targetCpus_eq_range hn event.uncore
    rw [List.range_eq_range'] at htargets
    obtain ⟨handles, w₁, h⟩ := openOn_recorded b options leader? event (n := n) n [] (by simp) w log
    simp only [List.length_nil, List.nil_append, Nat.zero_add] at h
    rcases h with ⟨hlen, h⟩ | ⟨e, hlen, h⟩
    · obtain ⟨calls, result, opened, w', heq, hrest⟩ :=
        ih (nextLeader? leader? (event.holding n handles)) w₁
          (log ++ openCalls event options leader? 0 handles)
      refine ⟨_, result, _, w', ?_, .opened hlen hrest⟩
      simp only [Session.openEvents, htargets, SessionEvent.prepare_eq_holding, h, heq]
      simp
    · refine ⟨_, _, _, w₁, ?_, .failed leader? event events handles e hlen⟩
      simp only [Session.openEvents, htargets, SessionEvent.prepare_eq_holding, h]

/-! ## 3. Without processors

An event that is counted once for all processors is opened on processor 0 even where there are no
processors, but then no event has a slot: the counter has no place, and no leader a handle to pass
on. -/

/-- The failure of opening an event without slots on processor 0. -/
def slotlessFailure (event : SessionEvent η) : Except Error η → Error
  | .ok _ => .noSlot 0
  | .error e => .openFailed event.name 0 e.message

/-- What opening events without processors can do.  There is one call at most, for the first event
that is counted once, and it ends the loop whether or not it gives a counter. -/
inductive SlotlessOpening (options : OpenOptions) :
    List (SessionEvent η) → List (BackendCall η) → Except Error Unit → Prop
  | done {events : List (SessionEvent η)} (h : ∀ event ∈ events, event.uncore = false) :
      SlotlessOpening options events [] (.ok ())
  | reached {event : SessionEvent η} (before later : List (SessionEvent η))
      (hbefore : ∀ other ∈ before, other.uncore = false)
      (h : event.uncore = true) (outcome : Except Error η) :
      SlotlessOpening options (before ++ event :: later)
        [.openCounter event.attr options 0 none outcome] (.error (slotlessFailure event outcome))

theorem SlotlessOpening.cons {options : OpenOptions} {events : List (SessionEvent η)}
    {calls : List (BackendCall η)} {result : Except Error Unit}
    (h : SlotlessOpening options events calls result) {event : SessionEvent η}
    (hevent : event.uncore = false) : SlotlessOpening options (event :: events) calls result := by
  cases h with
  | done h => exact .done (List.forall_mem_cons.mpr ⟨hevent, h⟩)
  | reached before later hbefore h outcome =>
    exact .reached (event :: before) later (List.forall_mem_cons.mpr ⟨hevent, hbefore⟩) h outcome

theorem nextLeader?_slots {leader? : Option (SessionEvent η)} {event : SessionEvent η}
    (hleader : ∀ leader ∈ leader?, leader.slots = []) (hevent : event.slots = []) :
    ∀ leader ∈ nextLeader? leader? event, leader.slots = [] := by
  intro leader hmem
  rw [nextLeader?] at hmem
  split at hmem
  · cases hmem
  · split at hmem
    · cases hmem
      exact hevent
    · exact hleader leader hmem

/-- Without processors the loop over the events is a `SlotlessOpening`. -/
theorem openEvents_recorded_slotless (b : Backend σ η) (options : OpenOptions)
    {leader? : Option (SessionEvent η)} (hleader : ∀ leader ∈ leader?, leader.slots = [])
    (events : List (SessionEvent η)) (w : σ) (log : List (BackendCall η)) :
    ∃ calls result opened w',
      Session.openEvents b.recorded options 0 leader? events (w, log) =
        (result, opened, w', log ++ calls) ∧
      SlotlessOpening options events calls result := by
  induction events generalizing leader? w log with
  | nil => exact ⟨[], .ok (), [], w, by simp [Session.openEvents], .done fun _ h => nomatch h⟩
  | cons event events ih =>
    have hnext := nextLeader?_slots hleader (rfl : (event.prepare 0).slots = [])
    cases huncore : event.uncore with
    | false =>
      obtain ⟨calls, result, opened, w', heq, h⟩ := ih hnext w log
      refine ⟨calls, result, event.prepare 0 :: opened, w', ?_, h.cons huncore⟩
      simp [Session.openEvents, huncore, targetCpus, SessionEvent.openOn, heq]
    | true =>
      have hnone : (leader?.bind fun leader => leader.handle? 0) = none := by
        cases leader? with
        | none => rfl
        | some leader => simp [SessionEvent.handle?, SessionEvent.counter?, hleader leader rfl]
      rcases hcall : b.openCounter event.attr options 0 none (b.moveThread [0] w) with ⟨outcome, w₁⟩
      refine ⟨_, _, event.prepare 0 :: events, w₁, ?_,
        .reached [] events (fun _ h => nomatch h) huncore outcome⟩
      cases outcome <;>
        simp [Session.openEvents, huncore, targetCpus, SessionEvent.openOn, SessionEvent.prepare,
          hnone, hcall, slotlessFailure]

/-! ## 4. Which event leads -/

/-- Event `l` leads the group that is open when event `i` is reached: it is the last event before
`i` that is marked as a leader, and no event from it up to `i` ends a group. -/
structure LeadsAt (events : List (SessionEvent η)) (l i : Nat) : Prop where
  before : l < i
  leads : ∃ event, events[l]? = some event ∧ event.leader = true
  last : ∀ j event, l < j → j < i → events[j]? = some event → event.leader = false
  unended : ∀ j event, l ≤ j → j < i → events[j]? = some event → event.endsGroup = false

/-- The event that leads when event `i` is reached, computed from the marks of the events. -/
def leaderIndex? (marks : List (Bool × Bool)) : Nat → Option Nat
  | 0 => none
  | i + 1 =>
    match marks[i]? with
    | none => none
    | some (leads, ends) =>
      if ends then none else if leads then some i else leaderIndex? marks i

/-- **The threaded variable is the leader.**  Going through the marks one by one finds the last
leader whose group is still open. -/
theorem leaderIndex?_eq_some_iff {events : List (SessionEvent η)} {i : Nat} (l : Nat)
    (hi : i ≤ events.length) :
    leaderIndex? (events.map SessionEvent.marks) i = some l ↔ LeadsAt events l i := by
  induction i with
  | zero =>
    constructor
    · intro h
      cases h
    · intro h
      exact absurd h.before (Nat.not_lt_zero l)
  | succ i ih =>
    obtain ⟨event, hevent⟩ : ∃ event, events[i]? = some event :=
      ⟨events[i], List.getElem?_eq_getElem hi⟩
    have hmarks : (events.map SessionEvent.marks)[i]? = some (event.leader, event.endsGroup) := by
      simp [hevent, SessionEvent.marks]
    simp only [leaderIndex?, hmarks]
    by_cases hends : event.endsGroup = true
    · rw [if_pos hends]
      constructor
      · intro h
        cases h
      · intro h
        have := h.unended i event (Nat.lt_succ_iff.mp h.before) (Nat.lt_succ_self i) hevent
        simp [hends] at this
    · rw [if_neg hends]
      have hends : event.endsGroup = false := by simpa using hends
      by_cases hleads : event.leader = true
      · rw [if_pos hleads, Option.some.injEq]
        constructor
        · rintro rfl
          refine ⟨Nat.lt_succ_self i, ⟨event, hevent, hleads⟩, ?_, ?_⟩
          · intro j _ hlt hj _
            omega
          · intro j other hle hj hother
            obtain rfl : j = i := by omega
            rw [hevent, Option.some.injEq] at hother
            exact hother ▸ hends
        · intro h
          by_contra hne
          have hlt : l < i := by
            have := h.before
            omega
          have := h.last i event hlt (Nat.lt_succ_self i) hevent
          simp [hleads] at this
      · rw [if_neg hleads, ih (Nat.le_of_succ_le hi)]
        have hleads : event.leader = false := by simpa using hleads
        constructor
        · intro h
          refine ⟨Nat.lt_succ_of_lt h.before, h.leads, ?_, ?_⟩
          · intro j other hlt hj hother
            rcases Nat.lt_succ_iff_lt_or_eq.mp hj with hj | rfl
            · exact h.last j other hlt hj hother
            · rw [hevent, Option.some.injEq] at hother
              exact hother ▸ hleads
          · intro j other hle hj hother
            rcases Nat.lt_succ_iff_lt_or_eq.mp hj with hj | rfl
            · exact h.unended j other hle hj hother
            · rw [hevent, Option.some.injEq] at hother
              exact hother ▸ hends
        · intro h
          have hne : l ≠ i := by
            rintro rfl
            obtain ⟨other, hother, htrue⟩ := h.leads
            rw [hevent, Option.some.injEq] at hother
            subst hother
            simp [hleads] at htrue
          have hlt : l < i := by
            have := h.before
            omega
          exact ⟨hlt, h.leads, fun j other hl hj => h.last j other hl (Nat.lt_succ_of_lt hj),
            fun j other hl hj => h.unended j other hl (Nat.lt_succ_of_lt hj)⟩

/-- The leader when event `i` is reached, as an event. -/
def leaderOf? (events : List (SessionEvent η)) (i : Nat) : Option (SessionEvent η) :=
  (leaderIndex? (events.map SessionEvent.marks) i).bind fun l => events[l]?

/-- Passing an event threads the variable on. -/
theorem leaderOf?_succ {events : List (SessionEvent η)} {i : Nat} {event : SessionEvent η}
    (h : events[i]? = some event) :
    leaderOf? events (i + 1) = nextLeader? (leaderOf? events i) event := by
  have hmarks : (events.map SessionEvent.marks)[i]? = some (event.leader, event.endsGroup) := by
    simp [h, SessionEvent.marks]
  simp only [leaderOf?, leaderIndex?, hmarks, nextLeader?]
  cases event.endsGroup <;> cases event.leader <;> simp [h]

/-! ## 5. Call by call -/

/-- The handle of event `i` on a processor. -/
def handleAt? (events : List (SessionEvent η)) (i cpu : Nat) : Option η :=
  (events[i]?).bind fun event => event.handle? cpu

@[simp] theorem openedHandles_openCalls (event : SessionEvent η) (options : OpenOptions)
    (leader? : Option (SessionEvent η)) (cpu : Nat) (handles : List η) :
    openedHandles (openCalls event options leader? cpu handles) = handles := by
  induction handles generalizing cpu with
  | nil => rfl
  | cons handle handles ih =>
    have h : (openCall event options leader? cpu (.ok handle)).opened? = some handle := rfl
    rw [openCalls_cons, openedHandles, List.filterMap_cons_some h]
    exact congrArg (handle :: ·) (ih (cpu + 1))

namespace Opening

variable {options : OpenOptions} {n : Nat} {leader? : Option (SessionEvent η)}
  {events opened : List (SessionEvent η)} {calls : List (BackendCall η)}
  {result : Except Error Unit}

/-- Opening changes no mark of an event, and loses no event. -/
theorem map_marks (h : Opening options n leader? events calls result opened) :
    opened.map SessionEvent.marks = events.map SessionEvent.marks := by
  induction h with
  | done => rfl
  | failed => rfl
  | opened _ _ ih => simp only [List.map_cons, ih, SessionEvent.holding, SessionEvent.marks]

/-- A call among those that gave an event its counters. -/
theorem call_of_lt {event : SessionEvent η} {handles : List η} {more : List (BackendCall η)}
    {k : Nat} {call : BackendCall η} (hlt : k < handles.length)
    (hk : (openCalls event options leader? 0 handles ++ more)[k]? = some call) (n : Nat)
    (rest : List (SessionEvent η)) :
    ∃ outcome, call = openCall event options leader? k outcome ∧
      (∀ handle, outcome = .ok handle →
        handleAt? (event.holding n handles :: rest) 0 k = some handle) ∧
      ∀ e, outcome ≠ .error e := by
  rw [getElem?_openCalls_append hlt, Option.some.injEq] at hk
  refine ⟨.ok handles[k], hk.symm, ?_, ?_⟩
  · rintro handle hh
    cases hh
    simp [handleAt?, hlt]
  · rintro e hh
    cases hh

/-- **The call with number `k`.**  It concerns event `k / n` on processor `k % n`, joins the group
that is open there, and either gives the event its counter or is the last call.  `all` are the
events with those that were opened before, and `before` counts the latter. -/
theorem call_at (h : Opening options n leader? events calls result opened) (hn : 1 ≤ n)
    (all before : List (SessionEvent η)) (hall : all = before ++ opened)
    (hleader : leader? = leaderOf? all before.length) {k : Nat} {call : BackendCall η}
    (hk : calls[k]? = some call) :
    ∃ event outcome, events[k / n]? = some event ∧
      call = openCall event options (leaderOf? all (before.length + k / n)) (k % n) outcome ∧
      (∀ handle, outcome = .ok handle → handleAt? opened (k / n) (k % n) = some handle) ∧
      ∀ e, outcome = .error e →
        k + 1 = calls.length ∧ result = .error (.openFailed event.name (k % n) e.message) := by
  induction h generalizing before k with
  | done => simp at hk
  | failed leader? event events handles e hlt =>
    have hle : k ≤ handles.length := by
      have := (List.getElem?_eq_some_iff.mp hk).1
      simp at this
      omega
    rw [Nat.div_eq_of_lt (by omega), Nat.mod_eq_of_lt (by omega)]
    rcases Nat.lt_or_eq_of_le hle with hlt' | rfl
    · obtain ⟨outcome, rfl, hok, herror⟩ := call_of_lt hlt' hk n events
      exact ⟨event, outcome, rfl, by rw [Nat.add_zero, hleader], hok,
        fun e he => absurd he (herror e)⟩
    · rw [List.getElem?_append_right (by simp)] at hk
      simp only [length_openCalls, Nat.sub_self, List.getElem?_cons_zero, Option.some.injEq] at hk
      refine ⟨event, .error e, rfl, ?_, ?_, ?_⟩
      · rw [← hk, Nat.add_zero, hleader]
      · rintro handle hh
        cases hh
      · rintro e' hh
        cases hh
        exact ⟨by simp, rfl⟩
  | @opened leader? event events opened handles calls result hlen rest ih =>
    have hevent : all[before.length]? = some (event.holding n handles) := by simp [hall]
    rcases Nat.lt_or_ge k n with hlt | hge
    · have hlt' : k < handles.length := hlen ▸ hlt
      rw [Nat.div_eq_of_lt hlt, Nat.mod_eq_of_lt hlt]
      obtain ⟨outcome, rfl, hok, herror⟩ := call_of_lt hlt' hk n opened
      exact ⟨event, outcome, rfl, by rw [Nat.add_zero, hleader], hok,
        fun e he => absurd he (herror e)⟩
    · obtain ⟨m, rfl⟩ : ∃ m, k = m + n := ⟨k - n, by omega⟩
      rw [List.getElem?_append_right (by simp [hlen]), length_openCalls, hlen,
        Nat.add_sub_cancel] at hk
      have hlead : nextLeader? leader? (event.holding n handles) =
          leaderOf? all (before ++ [event.holding n handles]).length := by
        rw [hleader, List.length_append, List.length_singleton, leaderOf?_succ hevent]
      obtain ⟨other, outcome, hother, hcall, hok, herror⟩ := ih _ (by simp [hall]) hlead hk
      rw [Nat.add_div_right m hn, Nat.add_mod_right]
      refine ⟨other, outcome, hother, ?_, ?_, ?_⟩
      · rw [hcall, List.length_append, List.length_singleton, Nat.add_right_comm]
        rfl
      · intro handle hh
        exact hok handle hh
      · intro e hh
        obtain ⟨hlast, hres⟩ := herror e hh
        refine ⟨?_, hres⟩
        rw [List.length_append, length_openCalls, hlen, ← hlast]
        omega

/-- A call that fails ends the loop with an error, so a loop whose calls all succeed succeeds. -/
theorem result_eq_ok (h : Opening options n leader? events calls result opened)
    (hok : ∀ call ∈ calls, call.opened?.isSome = true) : result = .ok () := by
  induction h with
  | done => rfl
  | failed leader? event events handles e =>
    have := hok _ (List.mem_append_right _ (List.mem_singleton.mpr rfl))
    simp [openCall, BackendCall.opened?] at this
  | opened _ _ ih => exact ih fun call hcall => hok call (List.mem_append_right _ hcall)

/-- A loop that succeeds has made one call for every event and processor, and every event has a
counter on every processor. -/
theorem complete (h : Opening options n leader? events calls result opened)
    (hok : result = .ok ()) :
    calls.length = events.length * n ∧
      ∀ i < events.length, ∀ cpu < n, ∃ handle, handleAt? opened i cpu = some handle := by
  induction h with
  | done => simp
  | failed => cases hok
  | @opened leader? event events opened handles calls result hlen rest ih =>
    obtain ⟨hcount, hall⟩ := ih hok
    refine ⟨?_, ?_⟩
    · rw [List.length_append, length_openCalls, hlen, hcount, List.length_cons, Nat.succ_mul,
        Nat.add_comm]
    · intro i hi cpu hcpu
      cases i with
      | zero =>
        have hcpu : cpu < handles.length := hlen ▸ hcpu
        exact ⟨handles[cpu], by simp [handleAt?, hcpu]⟩
      | succ i => exact hall i (by simpa using hi) cpu hcpu

/-- **The session holds what it obtained.**  Where no event had a counter before, the handles of all
events are those of the calls, in the same order. -/
theorem flatMap_handles (h : Opening options n leader? events calls result opened)
    (hnone : ∀ event ∈ events, event.handles = []) :
    opened.flatMap SessionEvent.handles = openedHandles calls := by
  induction h with
  | done => rfl
  | failed leader? event events handles e =>
    have hrest : events.flatMap SessionEvent.handles = [] :=
      List.flatMap_eq_nil_iff.mpr fun other hother => hnone other (List.mem_cons_of_mem _ hother)
    have hlast : openedHandles [openCall event options leader? handles.length (.error e)] = [] :=
      rfl
    rw [List.flatMap_cons, hrest, openedHandles_append, hlast, openedHandles_openCalls,
      SessionEvent.handles_holding]
  | opened _ _ ih =>
    rw [List.flatMap_cons, openedHandles_append, openedHandles_openCalls,
      SessionEvent.handles_holding,
      ih fun other hother => hnone other (List.mem_cons_of_mem _ hother)]

end Opening

/-! ## 6. Opening a session -/

/-- The calls gave event `i` that handle on a processor. -/
def Obtained (calls : List (BackendCall η)) (n i cpu : Nat) (handle : η) : Prop :=
  ∃ attr options leader?,
    calls[i * n + cpu]? = some (.openCounter attr options cpu leader? (.ok handle))

/-- The events are opened one after another, each on processors `0` to `n - 1`. -/
structure OpenedInOrder (options : OpenOptions) (n : Nat) (events : List (SessionEvent η))
    (calls : List (BackendCall η)) (result : Except Error Unit) (opened : List (SessionEvent η)) :
    Prop where
  /-- The call with number `k` opens event `k / n` on processor `k % n`. -/
  concerns : ∀ k call, calls[k]? = some call → ∃ event leader? outcome,
    events[k / n]? = some event ∧
      call = .openCounter event.attr options (k % n) leader? outcome
  /-- If an event leads there, its handle on the same processor is passed on: the one that it got
  from these calls and that it still has. -/
  led : ∀ k attr options cpu leader? outcome l,
    calls[k]? = some (.openCounter attr options cpu leader? outcome) → LeadsAt events l (k / n) →
      ∃ handle, leader? = some handle ∧ Obtained calls n l cpu handle ∧
        handleAt? opened l cpu = some handle
  /-- If no event leads, no handle is. -/
  alone : ∀ k attr options cpu leader? outcome,
    calls[k]? = some (.openCounter attr options cpu leader? outcome) →
      (∀ l, ¬ LeadsAt events l (k / n)) → leader? = none
  /-- A call that succeeds gives the event its counter. -/
  succeeds : ∀ k attr options cpu leader? handle,
    calls[k]? = some (.openCounter attr options cpu leader? (.ok handle)) →
      handleAt? opened (k / n) cpu = some handle
  /-- A call that fails is the last one, and the error names its event and processor. -/
  fails : ∀ k attr options cpu leader? e,
    calls[k]? = some (.openCounter attr options cpu leader? (.error e)) →
      k + 1 = calls.length ∧ ∃ event, events[k / n]? = some event ∧
        result = .error (.openFailed event.name cpu e.message)
  /-- If no call fails, every event has a counter on every processor. -/
  complete : (∀ call ∈ calls, call.opened?.isSome = true) →
    result = .ok () ∧ calls.length = events.length * n ∧
      ∀ i < events.length, ∀ cpu < n, ∃ handle, handleAt? opened i cpu = some handle
  /-- The events hold the handles of the calls and no others, if they held none before, as parsed
  events do. -/
  holds : (∀ event ∈ events, event.handles = []) →
    opened.flatMap SessionEvent.handles = openedHandles calls

namespace Opening

variable {options : OpenOptions} {n : Nat} {events opened : List (SessionEvent η)}
  {calls : List (BackendCall η)} {result : Except Error Unit}

/-- The call with number `k` of a whole run. -/
theorem call_of_getElem? (h : Opening options n none events calls result opened) (hn : 1 ≤ n)
    {k : Nat} {call : BackendCall η} (hk : calls[k]? = some call) :
    ∃ event outcome, events[k / n]? = some event ∧
      call = openCall event options (leaderOf? opened (k / n)) (k % n) outcome ∧
      (∀ handle, outcome = .ok handle → handleAt? opened (k / n) (k % n) = some handle) ∧
      ∀ e, outcome = .error e →
        k + 1 = calls.length ∧ result = .error (.openFailed event.name (k % n) e.message) := by
  have hcall := h.call_at hn opened [] rfl rfl hk
  rwa [List.length_nil, Nat.zero_add] at hcall

/-- The call with number `l * n + cpu` concerns event `l`. -/
theorem callIndex_div (l : Nat) {n cpu : Nat} (hcpu : cpu < n) : (l * n + cpu) / n = l := by
  rw [Nat.mul_comm, Nat.mul_add_div (by omega), Nat.div_eq_of_lt hcpu, Nat.add_zero]

/-- When the loop reaches an event, every event before it has its counters. -/
theorem obtained_before (h : Opening options n none events calls result opened) (hn : 1 ≤ n)
    {k l cpu : Nat} (hk : k < calls.length) (hl : l < k / n) (hcpu : cpu < n) :
    ∃ handle, Obtained calls n l cpu handle ∧ handleAt? opened l cpu = some handle := by
  have hle : (l + 1) * n ≤ k := (Nat.le_div_iff_mul_le hn).mp hl
  rw [Nat.succ_mul] at hle
  have hdiv := callIndex_div l hcpu
  have hmod : (l * n + cpu) % n = cpu := by
    rw [Nat.mul_comm, Nat.mul_add_mod, Nat.mod_eq_of_lt hcpu]
  have hearlier : l * n + cpu < calls.length := by omega
  obtain ⟨event, outcome, _, hc, hok, herror⟩ :=
    h.call_of_getElem? hn (List.getElem?_eq_getElem hearlier)
  rw [hdiv, hmod] at hok
  rw [hmod] at hc
  cases outcome with
  | error e =>
    have := (herror e rfl).1
    omega
  | ok handle =>
    have hget := List.getElem?_eq_getElem hearlier
    rw [hc] at hget
    exact ⟨handle, ⟨_, _, _, hget⟩, hok handle rfl⟩

/-- What the threaded variable says is what the marks of the events say. -/
theorem leaderOf?_eq_of_leadsAt (h : Opening options n none events calls result opened) {i l : Nat}
    (hi : i ≤ events.length) (hl : LeadsAt events l i) : leaderOf? opened i = opened[l]? := by
  rw [leaderOf?, h.map_marks, (leaderIndex?_eq_some_iff l hi).mpr hl]
  rfl

theorem leaderOf?_eq_none (h : Opening options n none events calls result opened) {i : Nat}
    (hi : i ≤ events.length) (hnone : ∀ l, ¬ LeadsAt events l i) : leaderOf? opened i = none := by
  have hindex : leaderIndex? (events.map SessionEvent.marks) i = none := by
    rw [Option.eq_none_iff_forall_ne_some]
    intro l hl
    exact hnone l ((leaderIndex?_eq_some_iff l hi).mp hl)
  rw [leaderOf?, h.map_marks, hindex]
  rfl

/-- Whatever the loops can do, they open the events in order. -/
theorem openedInOrder (h : Opening options n none events calls result opened) (hn : 1 ≤ n) :
    OpenedInOrder options n events calls result opened := by
  have hcall : ∀ {k attr options' cpu leader? outcome},
      calls[k]? = some (.openCounter attr options' cpu leader? outcome) →
      ∃ event, events[k / n]? = some event ∧ cpu = k % n ∧
        leader? = ((leaderOf? opened (k / n)).bind fun leader => leader.handle? cpu) ∧
        (∀ handle, outcome = .ok handle → handleAt? opened (k / n) cpu = some handle) ∧
        ∀ e, outcome = .error e →
          k + 1 = calls.length ∧ result = .error (.openFailed event.name cpu e.message) := by
    intro k attr options' cpu leader? outcome hk
    obtain ⟨event, outcome', hevent, hc, hok, herror⟩ := h.call_of_getElem? hn hk
    rw [openCall, BackendCall.openCounter.injEq] at hc
    obtain ⟨-, -, rfl, rfl, rfl⟩ := hc
    exact ⟨event, hevent, rfl, rfl, hok, herror⟩
  have hwithin : ∀ {i event}, events[i]? = some event → i ≤ events.length :=
    fun hevent => Nat.le_of_lt (List.getElem?_eq_some_iff.mp hevent).1
  refine ⟨?_, ?_, ?_, ?_, ?_, ?_, h.flatMap_handles⟩
  · intro k call hk
    obtain ⟨event, outcome, hevent, rfl, _⟩ := h.call_of_getElem? hn hk
    exact ⟨event, _, outcome, hevent, rfl⟩
  · intro k attr options' cpu leader? outcome l hk hl
    obtain ⟨event, hevent, rfl, rfl, _⟩ := hcall hk
    have hlt := (List.getElem?_eq_some_iff.mp hk).1
    obtain ⟨handle, hobtained, hheld⟩ := h.obtained_before hn hlt hl.before (Nat.mod_lt k hn)
    refine ⟨handle, ?_, hobtained, hheld⟩
    rw [h.leaderOf?_eq_of_leadsAt (hwithin hevent) hl]
    exact hheld
  · intro k attr options' cpu leader? outcome hk hnone
    obtain ⟨event, hevent, -, rfl, _⟩ := hcall hk
    rw [h.leaderOf?_eq_none (hwithin hevent) hnone]
    rfl
  · intro k attr options' cpu leader? handle hk
    obtain ⟨-, -, -, -, hok, _⟩ := hcall hk
    exact hok handle rfl
  · intro k attr options' cpu leader? e hk
    obtain ⟨event, hevent, -, -, _, herror⟩ := hcall hk
    obtain ⟨hlast, hres⟩ := herror e rfl
    exact ⟨hlast, event, hevent, hres⟩
  · intro hok
    have hres := h.result_eq_ok hok
    exact ⟨hres, h.complete hres⟩

end Opening

/-- Once nothing refuses it, opening a session is opening its events: moving the thread back makes
no call. -/
theorem openCounters_of_openEvents (b : Backend σ η) (measureAll : Bool) (pid : Int)
    {session : Session η} (hopen : session.refusalOrEmpty? .open = none) {w : σ}
    (hcheck : (b.check { pid, measureAll } w).1 = .ok ()) {log : List (BackendCall η)}
    {result : Except Error Unit} {opened : List (SessionEvent η)} {w₁ : σ}
    {more : List (BackendCall η)}
    (heq : Session.openEvents b.recorded { pid, measureAll } session.cpuCount none session.events
      ((b.threadCpus? (b.check { pid, measureAll } w).2).2,
        log ++ [.check { pid, measureAll } (.ok ())]) = (result, opened, w₁, more)) :
    ∃ w', session.openCounters b.recorded measureAll pid (w, log) =
      (result, { session with events := opened, state := .opened }, w', more) := by
  cases hhome : (b.threadCpus? (b.check { pid, measureAll } w).2).1 with
  | none =>
    refine ⟨w₁, ?_⟩
    simp [Session.openCounters, hopen, hcheck, hhome, heq]
  | some cpus =>
    refine ⟨b.moveThread cpus w₁, ?_⟩
    simp [Session.openCounters, hopen, hcheck, hhome, heq]

/-- A session that does not refuse to be opened, on a backend that does not refuse the options. -/
theorem openCounters_recorded (b : Backend σ η) (measureAll : Bool) (pid : Int)
    {session : Session η} (hn : 1 ≤ session.cpuCount)
    (hopen : session.refusalOrEmpty? .open = none) {w : σ}
    (hcheck : (b.check { pid, measureAll } w).1 = .ok ()) (log : List (BackendCall η)) :
    ∃ calls result opened w',
      session.openCounters b.recorded measureAll pid (w, log) =
        (result, { session with events := opened, state := .opened }, w',
          log ++ .check { pid, measureAll } (.ok ()) :: calls) ∧
      Opening { pid, measureAll } session.cpuCount none session.events calls result opened := by
  obtain ⟨calls, result, opened, w₁, heq, h⟩ :=
    openEvents_recorded b { pid, measureAll } hn none session.events
      (b.threadCpus? (b.check { pid, measureAll } w).2).2
      (log ++ [.check { pid, measureAll } (.ok ())])
  rw [List.append_assoc, List.singleton_append] at heq
  obtain ⟨w', hwhole⟩ := openCounters_of_openEvents b measureAll pid hopen hcheck heq
  exact ⟨calls, result, opened, w', hwhole, h⟩

/-- A session without processors that does not refuse to be opened, on a backend that does not refuse
the options. -/
theorem openCounters_recorded_slotless (b : Backend σ η) (measureAll : Bool) (pid : Int)
    {session : Session η} (hzero : session.cpuCount = 0)
    (hopen : session.refusalOrEmpty? .open = none) {w : σ}
    (hcheck : (b.check { pid, measureAll } w).1 = .ok ()) (log : List (BackendCall η)) :
    ∃ calls result after w',
      session.openCounters b.recorded measureAll pid (w, log) =
        (result, after, w', log ++ .check { pid, measureAll } (.ok ()) :: calls) ∧
      SlotlessOpening { pid, measureAll } session.events calls result := by
  have hnone : ∀ leader ∈ (none : Option (SessionEvent η)), leader.slots = [] := by
    simp
  obtain ⟨calls, result, opened, w₁, heq, h⟩ :=
    openEvents_recorded_slotless b { pid, measureAll } hnone session.events
      (b.threadCpus? (b.check { pid, measureAll } w).2).2
      (log ++ [.check { pid, measureAll } (.ok ())])
  rw [← hzero, List.append_assoc, List.singleton_append] at heq
  obtain ⟨w', hwhole⟩ := openCounters_of_openEvents b measureAll pid hopen hcheck heq
  exact ⟨calls, result, _, w', hwhole, h⟩

namespace Example

/-- A backend whose second open on processor 1 fails. -/
def failsOnce : BackendScript :=
  { rules := [{ selector := { cpu? := some 1 }, opens := [none, some .notCapable] }] }

end Example

end HardwareCounters
