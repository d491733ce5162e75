/-
# Openings apart from their handles

Which handles a backend gives cannot be foreseen, but apart from them an opening is settled by the
events and by which of its calls fail.  Its pattern says this: it has the calls and the slots of the
opening, with each counter known by the number of the call that opened it.  Two openings of the same
events that are answered alike have one pattern, so that they differ in their handles alone.

* `OpenPattern` are such patterns, and `OpenPattern.Describes` relates them to what was called and
  to the events afterwards;
* `Opening.describes`: the pattern of an opening, by its events and the answers to its calls;
* `Opening.lt_length_iff`: a call is made if there is an event for it and no call before it has
  failed, and `Opening.answers_eq` draws from it that openings answered alike get the same answers.
-/
import HardwareCounters.Proofs.Session.Events
import HardwareCounters.Proofs.Session.Refusal
import HardwareCounters.Proofs.Session.Renaming

namespace HardwareCounters

variable {η θ : Type}

/-! ## 1. Patterns -/

/-- The handle that a call passes on as that of its leader. -/
def BackendCall.leader? : BackendCall η → Option η
  | .openCounter _ _ _ leader? _ => leader?
  | _ => none

/-- The handle that the call with number `k` gave. -/
def givenBy (calls : List (BackendCall η)) (k : Nat) : Option η :=
  (calls[k]?).bind BackendCall.opened?

/-- The answer that the call with number `k` got: the error with which it failed, or none. -/
def answer? (calls : List (BackendCall η)) (k : Nat) : Option (Option Error) :=
  (calls[k]?).map BackendCall.failure?

/-- What an opening is apart from its handles.  A counter is known by the number of the call that
opened it. -/
structure OpenPattern where
  /-- The call with number `k`, if there is one. -/
  call? : Nat → Option (BackendCall Nat)
  /-- The slots of event `i`. -/
  slots : Nat → List (Slot Nat)
  /-- A call that opens a counter gives it the number of the call. -/
  own : ∀ {k call number}, call? k = some call → call.opened? = some number → number = k
  /-- A leader was opened by an earlier call. -/
  earlier : ∀ {k call leader}, call? k = some call → call.leader? = some leader → leader < k

/-- The calls and the slots of the events are those of the pattern, with the number of each call
replaced by the handle that it gave. -/
structure OpenPattern.Describes (pattern : OpenPattern) (calls : List (BackendCall η))
    (events : List (SessionEvent η)) : Prop where
  calls_eq : ∀ k, (calls[k]?).map (BackendCall.mapHandle some) =
    (pattern.call? k).map (BackendCall.mapHandle (givenBy calls))
  slots_eq : ∀ i event, events[i]? = some event →
    event.slots.map (Option.map (CpuCounter.mapHandle some)) =
      (pattern.slots i).map (Option.map (CpuCounter.mapHandle (givenBy calls)))

theorem mem_openedHandles_of_givenBy {calls : List (BackendCall η)} {k : Nat} {handle : η}
    (h : givenBy calls k = some handle) : handle ∈ openedHandles calls := by
  obtain ⟨call, hcall, hopened⟩ := Option.bind_eq_some_iff.mp h
  exact List.mem_filterMap.mpr ⟨call, List.mem_of_getElem? hcall, hopened⟩

theorem BackendCall.leader?_mapHandle (f : η → θ) (call : BackendCall η) :
    (call.mapHandle f).leader? = call.leader?.map f := by
  cases call <;> rfl

/-- Every leader that is passed on was opened by an earlier call among the same ones. -/
theorem OpenPattern.Describes.exists_earlier {pattern : OpenPattern}
    {calls : List (BackendCall η)} {events : List (SessionEvent η)}
    (h : pattern.Describes calls events) {k : Nat} {call : BackendCall η} {leader : η}
    (hk : calls[k]? = some call) (hleader : call.leader? = some leader) :
    ∃ j < k, givenBy calls j = some leader := by
  have hcall := h.calls_eq k
  rw [hk, Option.map_some] at hcall
  obtain ⟨planned, hplanned, heq⟩ := Option.map_eq_some_iff.mp hcall.symm
  have hmapped := congrArg BackendCall.leader? heq
  rw [BackendCall.leader?_mapHandle, BackendCall.leader?_mapHandle, hleader] at hmapped
  obtain ⟨j, hj, hgiven⟩ := Option.map_eq_some_iff.mp hmapped
  exact ⟨j, pattern.earlier hplanned hj, hgiven⟩

/-! ## 2. The pattern of an opening -/

/-- The number of the call that opens event `i` on a processor.  Call 0 asks about the options. -/
def callNumber (n i cpu : Nat) : Nat := i * n + cpu + 1

/-- The calls for an event come before those for a later one. -/
theorem callNumber_lt {n l k : Nat} (h : l < k / n) : callNumber n l (k % n) < k + 1 := by
  have hn : 0 < n := by
    rcases Nat.eq_zero_or_pos n with rfl | hn
    · rw [Nat.div_zero] at h
      cases h
    · exact hn
  have hle : (l + 1) * n ≤ k / n * n := Nat.mul_le_mul_right n h
  have hdiv := Nat.div_add_mod' k n
  rw [Nat.succ_mul] at hle
  rw [callNumber]
  omega

/-- The result of the call with a number, if it fails with that error or not at all. -/
def answered (number : Nat) : Option Error → Except Error Nat
  | none => .ok number
  | some e => .error e

/-- The call with number `k + 1`, if it gets that answer. -/
def plannedCall (options : OpenOptions) (n : Nat) (plan : List (SessionEvent η)) (k : Nat)
    (answer : Option Error) : Option (BackendCall Nat) :=
  (plan[k / n]?).map fun event =>
    .openCounter event.attr options (k % n)
      ((leaderIndex? (plan.map SessionEvent.marks) (k / n)).map fun l => callNumber n l (k % n))
      (answered (k + 1) answer)

theorem eq_of_opened?_plannedCall {options : OpenOptions} {n k : Nat}
    {plan : List (SessionEvent η)} {answer : Option Error} {call : BackendCall Nat} {number : Nat}
    (hcall : plannedCall options n plan k answer = some call) (h : call.opened? = some number) :
    number = k + 1 := by
  obtain ⟨event, -, rfl⟩ := Option.map_eq_some_iff.mp hcall
  cases answer with
  | none =>
    cases h
    rfl
  | some e => cases h

theorem lt_of_leader?_plannedCall {options : OpenOptions} {n k : Nat}
    {plan : List (SessionEvent η)} {answer : Option Error} {call : BackendCall Nat} {leader : Nat}
    (hcall : plannedCall options n plan k answer = some call) (h : call.leader? = some leader) :
    leader < k + 1 := by
  obtain ⟨event, hevent, rfl⟩ := Option.map_eq_some_iff.mp hcall
  obtain ⟨l, hl, rfl⟩ := Option.map_eq_some_iff.mp h
  have hwithin := Nat.le_of_lt (List.getElem?_eq_some_iff.mp hevent).1
  exact callNumber_lt ((leaderIndex?_eq_some_iff l hwithin).mp hl).before

/-- The slot that is filled by the call with a number, if that is made and does not fail. -/
def plannedSlot (number : Nat) : Option (Option Error) → Slot Nat
  | some none => some { handle := number }
  | _ => none

/-- The slots of event `i` after these answers. -/
def plannedSlots (n : Nat) (answers : Nat → Option (Option Error)) (i : Nat) : List (Slot Nat) :=
  if (answers (i * n)).isSome then
    (List.range n).map fun cpu => plannedSlot (callNumber n i cpu) (answers (i * n + cpu))
  else []

/-- The pattern of an opening of events, by the answers that its calls get. -/
def openPattern (options : OpenOptions) (n : Nat) (plan : List (SessionEvent η))
    (answers : Nat → Option (Option Error)) : OpenPattern where
  call?
    | 0 => some (.check options (.ok ()))
    | k + 1 => (answers k).bind (plannedCall options n plan k)
  slots := plannedSlots n answers
  own {k call number} hk hnumber := by
    cases k with
    | zero =>
      cases hk
      cases hnumber
    | succ k =>
      obtain ⟨answer, -, hcall⟩ := Option.bind_eq_some_iff.mp hk
      exact eq_of_opened?_plannedCall hcall hnumber
  earlier {k call leader} hk hleader := by
    cases k with
    | zero =>
      cases hk
      cases hleader
    | succ k =>
      obtain ⟨answer, -, hcall⟩ := Option.bind_eq_some_iff.mp hk
      exact lt_of_leader?_plannedCall hcall hleader

/-! ## 3. Every opening has its pattern -/

theorem givenBy_of_getElem? {calls : List (BackendCall η)} {k cpu : Nat} {attr : Attribute}
    {options : OpenOptions} {leader? : Option η} {handle : η}
    (hk : calls[k]? = some (.openCounter attr options cpu leader? (.ok handle))) :
    givenBy calls k = some handle := by
  rw [givenBy, hk]
  rfl

theorem givenBy_append_left {calls : List (BackendCall η)} {k : Nat} (h : k < calls.length)
    (more : List (BackendCall η)) : givenBy (calls ++ more) k = givenBy calls k := by
  rw [givenBy, givenBy, List.getElem?_append_left h]

theorem givenBy_append_right (calls more : List (BackendCall η)) (k : Nat) :
    givenBy (calls ++ more) (calls.length + k) = givenBy more k := by
  rw [givenBy, givenBy, List.getElem?_append_right (Nat.le_add_right _ _), Nat.add_sub_cancel_left]

theorem givenBy_openCalls (event : SessionEvent η) (options : OpenOptions)
    (leader? : Option (SessionEvent η)) (cpu : Nat) (handles : List η) (k : Nat) :
    givenBy (openCalls event options leader? cpu handles) k = handles[k]? := by
  rw [givenBy, getElem?_openCalls]
  cases handles[k]? with
  | none => rfl
  | some handle => rfl

/-- The call that fails gives no handle. -/
theorem givenBy_openCalls_append_failed (event : SessionEvent η) (options : OpenOptions)
    (leader? : Option (SessionEvent η)) (handles : List η) (e : Error) (k : Nat) :
    givenBy (openCalls event options leader? 0 handles ++
      [openCall event options leader? handles.length (.error e)]) k = handles[k]? := by
  rcases Nat.lt_or_ge k handles.length with hk | hk
  · rw [givenBy_append_left (by simpa using hk), givenBy_openCalls]
  · obtain ⟨m, rfl⟩ := Nat.exists_eq_add_of_le hk
    have hright := givenBy_append_right (openCalls event options leader? 0 handles)
      [openCall event options leader? handles.length (.error e)] m
    rw [length_openCalls] at hright
    rw [hright, List.getElem?_eq_none hk]
    cases m with
    | zero => rfl
    | succ m => rfl

/-- The slots of an event with its first counters, one by one. -/
theorem freshSlots_eq_map {n : Nat} {handles : List η} (h : handles.length ≤ n) :
    freshSlots n handles =
      (List.range n).map fun cpu => (handles[cpu]?).map fun handle => { handle := handle } := by
  obtain ⟨m, rfl⟩ := Nat.exists_eq_add_of_le h
  apply List.ext_getElem?
  intro cpu
  rw [freshSlots, Nat.add_sub_cancel_left, List.getElem?_map]
  rcases Nat.lt_or_ge cpu handles.length with hcpu | hcpu
  · rw [List.getElem?_append_left (by simpa using hcpu), List.getElem?_map,
      List.getElem?_range (by omega), List.getElem?_eq_getElem hcpu, Option.map_some,
      Option.map_some, List.getElem?_eq_getElem hcpu, Option.map_some]
  · rw [List.getElem?_append_right (by simpa using hcpu), List.length_map,
      List.getElem?_replicate]
    split
    · rw [List.getElem?_range (by omega), Option.map_some, List.getElem?_eq_none hcpu,
        Option.map_none]
    · rw [List.getElem?_eq_none (by simp; omega), Option.map_none]

/-- The plan has the attributes and the marks of the events. -/
theorem plannedCall_eq {options : OpenOptions} {n : Nat} {events : List (SessionEvent η)} {k : Nat}
    {event : SessionEvent η} (hevent : events[k / n]? = some event) (answer : Option Error) :
    plannedCall options n (events.map SessionEvent.asParsed) k answer =
      some (.openCounter event.attr options (k % n)
        ((leaderIndex? (events.map SessionEvent.marks) (k / n)).map fun l => callNumber n l (k % n))
        (answered (k + 1) answer)) := by
  rw [plannedCall, List.getElem?_map, hevent, List.map_map]
  rfl

namespace Opening

variable {options : OpenOptions} {n : Nat} {events opened : List (SessionEvent η)}
  {calls : List (BackendCall η)} {result : Except Error Unit}

/-- An event of which a call was made has the counters that its calls gave, just opened, and an event
of which none was made is as it was. -/
theorem event_of_getElem? {leader? : Option (SessionEvent η)}
    (h : Opening options n leader? events calls result opened) (hn : 1 ≤ n) {i : Nat}
    {event : SessionEvent η} (hi : opened[i]? = some event) :
    (calls.length ≤ i * n ∧ events[i]? = some event) ∨
      i * n < calls.length ∧ ∃ before handles, events[i]? = some before ∧ handles.length ≤ n ∧
        event = before.holding n handles ∧
        ∀ cpu < n, givenBy calls (i * n + cpu) = handles[cpu]? := by
  induction h generalizing i with
  | done => cases hi
  | failed leader? first events handles e hlt =>
    have hlen : (openCalls first options leader? 0 handles ++
        [openCall first options leader? handles.length (.error e)]).length =
          handles.length + 1 := by simp
    cases i with
    | zero =>
      cases hi
      refine Or.inr ⟨by simp, first, handles, rfl, Nat.le_of_lt hlt, rfl, fun cpu _ => ?_⟩
      rw [Nat.zero_mul, Nat.zero_add, givenBy_openCalls_append_failed]
    | succ i =>
      left
      refine ⟨?_, hi⟩
      rw [hlen, Nat.succ_mul]
      omega
  | @opened leader? first events opened handles calls result hlen rest ih =>
    have hlength : (openCalls first options leader? 0 handles ++ calls).length =
        n + calls.length := by simp [hlen]
    cases i with
    | zero =>
      cases hi
      refine Or.inr ⟨by rw [hlength]; omega, first, handles, rfl, Nat.le_of_eq hlen, rfl, ?_⟩
      intro cpu hcpu
      rw [Nat.zero_mul, Nat.zero_add, givenBy_append_left (by simpa [hlen] using hcpu),
        givenBy_openCalls]
    | succ i =>
      -- The event is number `i` of the rest, whose calls come after those of the first event.
      rw [hlength, Nat.succ_mul]
      rcases ih hi with ⟨hle, hevent⟩ | ⟨hlt, before, held, hevent, hheld, heq, hgiven⟩
      · exact Or.inl ⟨by omega, hevent⟩
      · refine Or.inr ⟨by omega, before, held, hevent, hheld, heq, fun cpu hcpu => ?_⟩
        have hright := givenBy_append_right (openCalls first options leader? 0 handles) calls
          (i * n + cpu)
        rw [length_openCalls, hlen] at hright
        rw [← hgiven cpu hcpu, ← hright, Nat.add_comm (i * n) n, Nat.add_assoc]

/-- The events that were reached start from zero. -/
theorem totalSum_eq_zero (h : Opening options n none events calls result opened) (hn : 1 ≤ n)
    (hslots : ∀ event ∈ events, event.slots = []) :
    ∀ event ∈ opened, event.slots ≠ [] → event.totalSum = 0 := by
  intro event hevent hne
  obtain ⟨i, hi, rfl⟩ := List.getElem_of_mem hevent
  rcases h.event_of_getElem? hn (List.getElem?_eq_getElem hi) with
    ⟨-, hsame⟩ | ⟨-, before, handles, -, -, heq, -⟩
  · exact absurd (hslots _ (List.mem_of_getElem? hsame)) hne
  · rw [heq]
    rfl

/-- The leader of a call is what the call of the leading event gave on the same processor. -/
theorem map_leader (h : Opening options n none events calls result opened) (hn : 1 ≤ n) {k : Nat}
    (hk : k < calls.length) (hwithin : k / n ≤ events.length) :
    ((leaderOf? opened (k / n)).bind fun leader => leader.handle? (k % n)).map some =
      (leaderIndex? (events.map SessionEvent.marks) (k / n)).map fun l =>
        givenBy calls (l * n + k % n) := by
  cases hindex : leaderIndex? (events.map SessionEvent.marks) (k / n) with
  | none =>
    rw [leaderOf?, h.map_marks, hindex]
    rfl
  | some l =>
    have hleads := (leaderIndex?_eq_some_iff l hwithin).mp hindex
    obtain ⟨handle, ⟨attr, options', leader?, hcall⟩, hheld⟩ :=
      h.obtained_before hn hk hleads.before (Nat.mod_lt k hn)
    rw [h.leaderOf?_eq_of_leadsAt hwithin hleads, Option.map_some, givenBy_of_getElem? hcall]
    exact congrArg (Option.map some) hheld

theorem mapHandle_call (h : Opening options n none events calls result opened) (hn : 1 ≤ n)
    (check : BackendCall η) {k : Nat} {call : BackendCall η} (hk : calls[k]? = some call) :
    (plannedCall options n (events.map SessionEvent.asParsed) k call.failure?).map
        (BackendCall.mapHandle (givenBy (check :: calls))) = some (call.mapHandle some) := by
  obtain ⟨event, outcome, hevent, rfl, -, -⟩ := h.call_of_getElem? hn hk
  have hwithin := Nat.le_of_lt (List.getElem?_eq_some_iff.mp hevent).1
  have hleader := h.map_leader hn (List.getElem?_eq_some_iff.mp hk).1 hwithin
  have houtcome : (answered (k + 1) (openCall event options (leaderOf? opened (k / n)) (k % n)
      outcome).failure?).map (givenBy (check :: calls)) = outcome.map some := by
    cases outcome with
    | error e => rfl
    | ok handle =>
      have hgiven : givenBy (check :: calls) (k + 1) = some handle := givenBy_of_getElem? hk
      exact congrArg Except.ok hgiven
  rw [plannedCall_eq hevent, Option.map_some, BackendCall.mapHandle, houtcome, Option.map_map,
    openCall, BackendCall.mapHandle, hleader]
  rfl

theorem mapHandle_slot (h : Opening options n none events calls result opened) (hn : 1 ≤ n)
    (check : BackendCall η) (k : Nat) :
    (plannedSlot (k + 1) (answer? calls k)).map
        (CpuCounter.mapHandle (givenBy (check :: calls))) =
      (givenBy calls k).map fun handle => CpuCounter.mapHandle some { handle := handle } := by
  rw [answer?, givenBy]
  cases hk : calls[k]? with
  | none => rfl
  | some call =>
    obtain ⟨_, outcome, -, rfl, -, -⟩ := h.call_of_getElem? hn hk
    cases outcome with
    | error e => rfl
    | ok handle =>
      have hgiven : givenBy (check :: calls) (k + 1) = some handle := givenBy_of_getElem? hk
      have hcounter : CpuCounter.mapHandle (givenBy (check :: calls)) { handle := k + 1 } =
          CpuCounter.mapHandle some { handle := handle } := by
        rw [CpuCounter.mapHandle, CpuCounter.mapHandle, hgiven]
      exact congrArg some hcounter

theorem map_slots (h : Opening options n none events calls result opened) (hn : 1 ≤ n)
    (hslots : ∀ event ∈ events, event.slots = []) (check : BackendCall η) {i : Nat}
    {event : SessionEvent η} (hi : opened[i]? = some event) :
    event.slots.map (Option.map (CpuCounter.mapHandle some)) =
      (plannedSlots n (answer? calls) i).map
        (Option.map (CpuCounter.mapHandle (givenBy (check :: calls)))) := by
  have hreached : (answer? calls (i * n)).isSome = true ↔ i * n < calls.length := by
    rw [answer?, Option.isSome_map, isSome_getElem?]
  rw [plannedSlots]
  rcases h.event_of_getElem? hn hi with ⟨hle, hevent⟩ | ⟨hlt, before, handles, -, hle, rfl, hgiven⟩
  · rw [if_neg (mt hreached.mp (Nat.not_lt.mpr hle)), hslots event (List.mem_of_getElem? hevent)]
    rfl
  · rw [if_pos (hreached.mpr hlt), SessionEvent.holding, freshSlots_eq_map hle, List.map_map,
      List.map_map]
    refine List.map_congr_left fun cpu hcpu => ?_
    rw [List.mem_range] at hcpu
    rw [Function.comp_apply, Function.comp_apply, ← hgiven cpu hcpu, Option.map_map]
    exact (h.mapHandle_slot hn check (i * n + cpu)).symm

/-- **Every opening has its pattern**, by its events and the answers to its calls. -/
theorem describes (h : Opening options n none events calls result opened) (hn : 1 ≤ n)
    (hslots : ∀ event ∈ events, event.slots = []) :
    (openPattern options n (events.map SessionEvent.asParsed) (answer? calls)).Describes
      (.check options (.ok ()) :: calls) opened := by
  refine ⟨fun k => ?_, fun i event hi => h.map_slots hn hslots _ hi⟩
  cases k with
  | zero => rfl
  | succ k =>
    cases hk : calls[k]? with
    | none => simp [openPattern, answer?, hk]
    | some call =>
      rw [List.getElem?_cons_succ, hk, Option.map_some,
        ← h.mapHandle_call hn (.check options (.ok ())) hk]
      simp [openPattern, answer?, hk]

end Opening

/-! ## 4. Openings that are answered alike -/

/-- As far as both go, calls with the same number fail with the same error or not at all. -/
def AnsweredAlike (calls others : List (BackendCall η)) : Prop :=
  ∀ (k : Nat) (call other : BackendCall η), calls[k]? = some call → others[k]? = some other →
    call.failure? = other.failure?

theorem answeredAlike_of_map_eq {calls others : List (BackendCall η)}
    (h : calls.map BackendCall.failure? = others.map BackendCall.failure?) :
    AnsweredAlike calls others := by
  intro k call other hk hk'
  have hanswer := congrArg (fun answers : List (Option Error) => answers[k]?) h
  simpa [List.getElem?_map, hk, hk'] using hanswer

namespace Opening

variable {options : OpenOptions} {n : Nat} {events events' opened opened' : List (SessionEvent η)}
  {calls calls' : List (BackendCall η)} {result result' : Except Error Unit}

/-- The error of an opening names the event and the processor of the call that failed. -/
theorem result_of_failed (h : Opening options n none events calls result opened) (hn : 1 ≤ n)
    {k : Nat} {e : Error} (hk : answer? calls k = some (some e)) :
    ∃ event, events[k / n]? = some event ∧
      result = .error (.openFailed event.name (k % n) e.message) := by
  obtain ⟨call, hcall, hfailed⟩ := Option.map_eq_some_iff.mp hk
  obtain ⟨event, outcome, hevent, rfl, -, hlast⟩ := h.call_of_getElem? hn hcall
  cases outcome with
  | error e' =>
    cases hfailed
    exact ⟨event, hevent, (hlast e rfl).2⟩
  | ok handle => cases hfailed

theorem result_of_none_failed (h : Opening options n none events calls result opened) (hn : 1 ≤ n)
    (hnone : ∀ k e, answer? calls k ≠ some (some e)) :
    result = .ok () := by
  refine h.result_eq_ok fun call hcall => ?_
  obtain ⟨k, hk, rfl⟩ := List.getElem_of_mem hcall
  have hget := List.getElem?_eq_getElem hk
  obtain ⟨event, outcome, -, heq, -, -⟩ := h.call_of_getElem? hn hget
  rw [heq]
  cases outcome with
  | error e =>
    refine absurd ?_ (hnone k e)
    rw [answer?, hget, heq]
    rfl
  | ok handle => rfl

/-- **Which calls are made.**  A call is made if there is an event for it and no call before it has
failed. -/
theorem lt_length_iff (h : Opening options n none events calls result opened) (hn : 1 ≤ n)
    (k : Nat) :
    k < calls.length ↔
      k < events.length * n ∧ ∀ j < k, ∀ e, answer? calls j ≠ some (some e) := by
  constructor
  · intro hk
    obtain ⟨event, _, hevent, -, -, -⟩ := h.call_of_getElem? hn (List.getElem?_eq_getElem hk)
    have hevent := (List.getElem?_eq_some_iff.mp hevent).1
    refine ⟨(Nat.div_lt_iff_lt_mul hn).mp hevent, fun j hj e hfailed => ?_⟩
    obtain ⟨call, hcall, hfailed⟩ := Option.map_eq_some_iff.mp hfailed
    obtain ⟨_, outcome, -, rfl, -, hlast⟩ := h.call_of_getElem? hn hcall
    cases outcome with
    | error e =>
      have := (hlast e rfl).1
      omega
    | ok handle => cases hfailed
  · rintro ⟨hwithin, hnone⟩
    by_contra hge
    have hresult : result = .ok () := by
      refine h.result_of_none_failed hn fun j e hj => ?_
      have hlt : j < calls.length := by
        obtain ⟨call, hcall, -⟩ := Option.map_eq_some_iff.mp hj
        exact (List.getElem?_eq_some_iff.mp hcall).1
      exact hnone j (by omega) e hj
    have hlength := (h.complete hresult).1
    omega

/-- **Openings of as many events that are answered alike fail alike**, and so make as many calls. -/
theorem answers_eq (h : Opening options n none events calls result opened)
    (h' : Opening options n none events' calls' result' opened') (hn : 1 ≤ n)
    (hevents : events.length = events'.length) (halike : AnsweredAlike calls calls') :
    answer? calls = answer? calls' := by
  have hanswer : ∀ k, (k < calls.length ↔ k < calls'.length) →
      answer? calls k = answer? calls' k := by
    intro k hiff
    rw [answer?, answer?]
    rcases Nat.lt_or_ge k calls.length with hk | hk
    · have hcall := List.getElem?_eq_getElem hk
      have hcall' := List.getElem?_eq_getElem (hiff.mp hk)
      rw [hcall, hcall', Option.map_some, Option.map_some, halike k _ _ hcall hcall']
    · have hk' : calls'.length ≤ k := Nat.not_lt.mp fun hlt => Nat.not_lt.mpr hk (hiff.mpr hlt)
      rw [List.getElem?_eq_none hk, List.getElem?_eq_none hk']
  have hiff : ∀ k, k < calls.length ↔ k < calls'.length := by
    intro k
    -- Whether a call is made depends on the answers to the calls before it, which agree.
    induction k using Nat.strongRecOn with
    | ind k ih =>
      rw [h.lt_length_iff hn, h'.lt_length_iff hn, hevents]
      refine and_congr_right fun _ => forall_congr' fun j => forall_congr' fun hj => ?_
      rw [hanswer j (ih j hj)]
  exact funext fun k => hanswer k (hiff k)

/-- Openings of the same events that get the same answers have the same result. -/
theorem result_eq (h : Opening options n none events calls result opened)
    (h' : Opening options n none events' calls' result' opened') (hn : 1 ≤ n)
    (hplan : events.map SessionEvent.asParsed = events'.map SessionEvent.asParsed)
    (hanswers : answer? calls = answer? calls') : result = result' := by
  by_cases hfailed : ∃ k e, answer? calls k = some (some e)
  · obtain ⟨k, e, hk⟩ := hfailed
    obtain ⟨event, hevent, hresult⟩ := h.result_of_failed hn hk
    obtain ⟨event', hevent', hresult'⟩ := h'.result_of_failed hn (hanswers ▸ hk)
    have hsame := congrArg (fun plan : List (SessionEvent η) => plan[k / n]?) hplan
    simp only [List.getElem?_map, hevent, hevent', Option.map_some, Option.some.injEq] at hsame
    have hname : event.asParsed.name = event'.asParsed.name := congrArg SessionEvent.name hsame
    rw [hresult, hresult']
    exact congrArg (fun name => Except.error (Error.openFailed name (k % n) e.message)) hname
  · have hnone : ∀ k e, answer? calls k ≠ some (some e) := fun k e hk => hfailed ⟨k, e, hk⟩
    rw [h.result_of_none_failed hn hnone, h'.result_of_none_failed hn (hanswers ▸ hnone)]

end Opening

end HardwareCounters
