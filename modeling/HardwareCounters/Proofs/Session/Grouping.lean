/-
# Which leaders a group can have

Opening remembers one leader: the last event that is marked as one, until an event ends a group.
Nothing checks the marks of an expression.  So a group need not be closed, and a leader may stand in
a group that is still open; that one then joins the open group and leads the events after it, which
a kernel does not allow.  Where no leader stands in an open group, every group is led by a counter
that has no leader itself.

* `GroupOpenAt` and `Unnested` say this of the names of an expression; `groupOpenAt_iff` ties them
  to the leader that opening remembers.
* `Grouped` says which calls pass a leader on, and `OpenedInOrder.grouped` derives it from the order
  of the calls; `TrulyLed` is what an expression without nested groups gives.
* `groups_led` is about every parsed expression on every backend, and
  `not_trulyLed_nestedGroup` shows that nested groups are led by counters with leaders.
-/
import HardwareCounters.Proofs.Session.Events
import HardwareCounters.Proofs.Session.Parsing

namespace HardwareCounters

variable {σ η : Type}

/-! ## 1. Groups in an expression -/

def EventToken.marks (token : EventToken) : Bool × Bool := (token.leader, token.endsGroup)

def SessionEvent.token (event : SessionEvent η) : EventToken :=
  ⟨event.name, event.leader, event.endsGroup⟩

/-- Name `i` is marked as a leader. -/
def MarkedAt (tokens : List EventToken) (i : Nat) : Prop :=
  ∃ token, tokens[i]? = some token ∧ token.leader = true

/-- A group is open when name `i` is reached: some name before is marked as a leader, and no name
from it on has ended a group. -/
def GroupOpenAt (tokens : List EventToken) (i : Nat) : Prop :=
  ∃ l, l < i ∧ MarkedAt tokens l ∧
    ∀ j token, l ≤ j → j < i → tokens[j]? = some token → token.endsGroup = false

/-- No leader stands in a group that is still open.  Groups need not be closed. -/
def Unnested (tokens : List EventToken) : Prop :=
  ∀ i, MarkedAt tokens i → ¬ GroupOpenAt tokens i

/-- A group is open after a name if the name ends none, and starts one or stands in one. -/
theorem groupOpenAt_succ_iff {tokens : List EventToken} {i : Nat} {token : EventToken}
    (htoken : tokens[i]? = some token) :
    GroupOpenAt tokens (i + 1) ↔
      token.endsGroup = false ∧ (token.leader = true ∨ GroupOpenAt tokens i) := by
  constructor
  · rintro ⟨l, hlt, hmarked, hunended⟩
    refine ⟨hunended i token (Nat.le_of_lt_succ hlt) (Nat.lt_succ_self i) htoken, ?_⟩
    rcases Nat.lt_succ_iff_lt_or_eq.mp hlt with hlt | rfl
    · exact Or.inr ⟨l, hlt, hmarked, fun j other hle hj => hunended j other hle (by omega)⟩
    · obtain ⟨other, hother, hleads⟩ := hmarked
      rw [htoken, Option.some.injEq] at hother
      exact Or.inl (hother ▸ hleads)
  · rintro ⟨hends, hleads | ⟨l, hlt, hmarked, hunended⟩⟩
    · refine ⟨i, Nat.lt_succ_self i, ⟨token, htoken, hleads⟩, fun j other hle hj hother => ?_⟩
      obtain rfl : j = i := by omega
      rw [htoken, Option.some.injEq] at hother
      exact hother ▸ hends
    · refine ⟨l, Nat.lt_succ_of_lt hlt, hmarked, fun j other hle hj hother => ?_⟩
      rcases Nat.lt_succ_iff_lt_or_eq.mp hj with hj | rfl
      · exact hunended j other hle hj hother
      · rw [htoken, Option.some.injEq] at hother
        exact hother ▸ hends

/-- Going through the marks one by one finds a leader where a group is open. -/
theorem exists_leaderIndex?_iff {tokens : List EventToken} {i : Nat} (hi : i ≤ tokens.length) :
    (∃ l, leaderIndex? (tokens.map EventToken.marks) i = some l) ↔ GroupOpenAt tokens i := by
  induction i with
  | zero =>
    constructor
    · rintro ⟨l, h⟩
      cases h
    · rintro ⟨l, hlt, -⟩
      exact absurd hlt (Nat.not_lt_zero l)
  | succ i ih =>
    obtain ⟨token, htoken⟩ : ∃ token, tokens[i]? = some token :=
      ⟨tokens[i], List.getElem?_eq_getElem hi⟩
    have hmarks : (tokens.map EventToken.marks)[i]? = some (token.leader, token.endsGroup) := by
      simp [htoken, EventToken.marks]
    rw [groupOpenAt_succ_iff htoken, ← ih (Nat.le_of_succ_le hi)]
    simp only [leaderIndex?, hmarks]
    cases token.endsGroup <;> cases token.leader <;> simp

/-- Whether groups are nested can be read off the marks, one by one. -/
theorem unnested_iff {tokens : List EventToken} :
    Unnested tokens ↔ ∀ i < tokens.length, (tokens[i]?.map EventToken.leader = some true) →
      leaderIndex? (tokens.map EventToken.marks) i = none := by
  have hmarked : ∀ i, MarkedAt tokens i ↔ tokens[i]?.map EventToken.leader = some true :=
    fun i => Option.map_eq_some_iff.symm
  have hopen : ∀ i ≤ tokens.length,
      ¬ GroupOpenAt tokens i ↔ leaderIndex? (tokens.map EventToken.marks) i = none := by
    intro i hi
    rw [← exists_leaderIndex?_iff hi, not_exists, Option.eq_none_iff_forall_ne_some]
  constructor
  · intro h i hi hmark
    exact (hopen i (Nat.le_of_lt hi)).mp (h i ((hmarked i).mpr hmark))
  · intro h i hmark
    obtain ⟨token, htoken, _⟩ := id hmark
    have hi : i < tokens.length := (List.getElem?_eq_some_iff.mp htoken).1
    exact (hopen i (Nat.le_of_lt hi)).mpr (h i hi ((hmarked i).mp hmark))

instance (tokens : List EventToken) : Decidable (Unnested tokens) :=
  decidable_of_iff _ unnested_iff.symm

theorem markedAt_iff {events : List (SessionEvent η)} {i : Nat} :
    MarkedAt (events.map SessionEvent.token) i ↔
      ∃ event, events[i]? = some event ∧ event.leader = true := by
  simp [MarkedAt, SessionEvent.token]

/-- A group is open where opening remembers a leader. -/
theorem groupOpenAt_iff {events : List (SessionEvent η)} {i : Nat} (hi : i ≤ events.length) :
    GroupOpenAt (events.map SessionEvent.token) i ↔ ∃ l, LeadsAt events l i := by
  have hmarks : (events.map SessionEvent.token).map EventToken.marks =
      events.map SessionEvent.marks := by
    rw [List.map_map]
    rfl
  rw [← exists_leaderIndex?_iff (by simpa using hi), hmarks]
  exact exists_congr fun l => leaderIndex?_eq_some_iff l hi

/-! ## 2. Which calls pass a leader on -/

/-- How the calls that open the events of some names on `n` processors pass leaders on. -/
structure Grouped (tokens : List EventToken) (n : Nat) (calls : List (BackendCall η)) : Prop where
  /-- All calls open counters. -/
  opens : ∀ call ∈ calls, ∃ attr options cpu leader? outcome,
    call = .openCounter attr options cpu leader? outcome
  /-- A handle that is passed on was obtained before, on the same processor and for an event that is
  marked as a leader. -/
  leader : ∀ k attr options cpu handle outcome,
    calls[k]? = some (.openCounter attr options cpu (some handle) outcome) →
      ∃ j, j < k ∧ MarkedAt tokens (j / n) ∧ ∃ attr' options' leader?,
        calls[j]? = some (.openCounter attr' options' cpu leader? (.ok handle))
  /-- An event that is marked as a leader is opened without one if and only if no group is open. -/
  marked : ∀ k attr options cpu leader? outcome,
    calls[k]? = some (.openCounter attr options cpu leader? outcome) → MarkedAt tokens (k / n) →
      (leader? = none ↔ ¬ GroupOpenAt tokens (k / n))
  /-- Without processors no leader is passed on at all. -/
  unled : n = 0 → ∀ attr options cpu leader? outcome,
    .openCounter attr options cpu leader? outcome ∈ calls → leader? = none

/-- Groups are led by counters without leaders. -/
structure TrulyLed (tokens : List EventToken) (n : Nat) (calls : List (BackendCall η)) : Prop where
  /-- A handle that is passed on was itself obtained without a leader. -/
  leader : ∀ (k : Nat) attr options cpu handle outcome,
    calls[k]? = some (.openCounter attr options cpu (some handle) outcome) →
      ∃ j, j < k ∧ ∃ attr' options',
        calls[j]? = some (.openCounter attr' options' cpu none (.ok handle))
  /-- An event that is marked as a leader is opened without one. -/
  marked : ∀ k attr options cpu leader? outcome,
    calls[k]? = some (.openCounter attr options cpu leader? outcome) → MarkedAt tokens (k / n) →
      leader? = none

/-- Without nested groups there are only true leaders. -/
theorem Grouped.trulyLed {tokens : List EventToken} {n : Nat} {calls : List (BackendCall η)}
    (h : Grouped tokens n calls) (hunnested : Unnested tokens) : TrulyLed tokens n calls := by
  have hmarked : ∀ k attr options cpu leader? outcome,
      calls[k]? = some (.openCounter attr options cpu leader? outcome) →
      MarkedAt tokens (k / n) → leader? = none :=
    fun k _ _ _ _ _ hk hmark => (h.marked k _ _ _ _ _ hk hmark).mpr (hunnested _ hmark)
  refine ⟨fun k attr options cpu handle outcome hk => ?_, hmarked⟩
  obtain ⟨j, hj, hmark, attr', options', leader?, hcall⟩ := h.leader _ _ _ _ _ _ hk
  obtain rfl := hmarked j _ _ _ _ _ hcall hmark
  exact ⟨j, hj, attr', options', hcall⟩

/-- Calls on no processors that pass no leader on. -/
theorem Grouped.of_unled (tokens : List EventToken) {options : OpenOptions}
    {calls : List (BackendCall η)}
    (h : ∀ call ∈ calls, ∃ attr cpu outcome, call = .openCounter attr options cpu none outcome) :
    Grouped tokens 0 calls := by
  have hunled : ∀ attr options' cpu leader? outcome,
      .openCounter attr options' cpu leader? outcome ∈ calls → leader? = none := by
    intro attr options' cpu leader? outcome hcall
    obtain ⟨_, _, _, heq⟩ := h _ hcall
    cases heq
    rfl
  refine ⟨fun call hcall => ?_, fun k attr options' cpu handle outcome hk => ?_,
    fun k attr options' cpu leader? outcome hk _ => ?_, fun _ => hunled⟩
  · obtain ⟨attr, cpu, outcome, heq⟩ := h call hcall
    exact ⟨attr, options, cpu, none, outcome, heq⟩
  · cases hunled _ _ _ _ _ (List.mem_of_getElem? hk)
  · rw [Nat.div_zero]
    refine iff_of_true (hunled _ _ _ _ _ (List.mem_of_getElem? hk)) ?_
    rintro ⟨l, hlt, -⟩
    exact Nat.not_lt_zero l hlt

/-- **The order of the calls decides.**  Events that are opened in order pass leaders on by their
marks. -/
theorem OpenedInOrder.grouped {options : OpenOptions} {n : Nat}
    {events opened : List (SessionEvent η)} {calls : List (BackendCall η)}
    {result : Except Error Unit} (h : OpenedInOrder options n events calls result opened)
    (hn : 1 ≤ n) : Grouped (events.map SessionEvent.token) n calls := by
  have hwithin : ∀ {k call}, calls[k]? = some call → k / n ≤ events.length := by
    intro k call hk
    obtain ⟨event, _, _, hevent, _⟩ := h.concerns k call hk
    exact Nat.le_of_lt (List.getElem?_eq_some_iff.mp hevent).1
  refine ⟨?_, ?_, ?_, fun hzero => absurd hn (by omega)⟩
  · intro call hcall
    obtain ⟨k, hk⟩ := List.mem_iff_getElem?.mp hcall
    obtain ⟨_, leader?, outcome, -, heq⟩ := h.concerns k call hk
    exact ⟨_, _, _, leader?, outcome, heq⟩
  · intro k attr options' cpu handle outcome hk
    obtain ⟨_, _, _, _, hcall⟩ := h.concerns k _ hk
    rw [BackendCall.openCounter.injEq] at hcall
    obtain ⟨-, -, rfl, -, -⟩ := hcall
    by_cases hled : ∃ l, LeadsAt events l (k / n)
    · obtain ⟨l, hl⟩ := hled
      obtain ⟨_, hhandle, ⟨attr', options'', leader?, hj⟩, _⟩ := h.led k _ _ _ _ _ l hk hl
      cases hhandle
      have hmod : k % n < n := Nat.mod_lt k hn
      have hle : (l + 1) * n ≤ k := (Nat.le_div_iff_mul_le hn).mp hl.before
      rw [Nat.succ_mul] at hle
      refine ⟨l * n + k % n, by omega, ?_, attr', options'', leader?, hj⟩
      rw [Opening.callIndex_div l hmod, markedAt_iff]
      exact hl.leads
    · cases h.alone k _ _ _ _ _ hk fun l hl => hled ⟨l, hl⟩
  · intro k attr options' cpu leader? outcome hk _
    rw [groupOpenAt_iff (hwithin hk)]
    constructor
    · rintro rfl ⟨l, hl⟩
      obtain ⟨_, hhandle, _⟩ := h.led k _ _ _ _ _ l hk hl
      cases hhandle
    · intro hnone
      exact h.alone k _ _ _ _ _ hk fun l hl => hnone ⟨l, hl⟩

/-- Without processors no call passes a leader on. -/
theorem SlotlessOpening.unled {options : OpenOptions} {events : List (SessionEvent η)}
    {calls : List (BackendCall η)} {result : Except Error Unit}
    (h : SlotlessOpening options events calls result) :
    ∀ call ∈ calls, ∃ attr cpu outcome, call = .openCounter attr options cpu none outcome := by
  intro call hcall
  cases h with
  | done => cases hcall
  | reached => exact ⟨_, _, _, List.mem_singleton.mp hcall⟩

/-! ## 3. Every parsed expression -/

/-- Names that are resolved have the events that spell them. -/
theorem Resolver.map_token_of_resolveTokens {resolver : Resolver} {tokens : List EventToken}
    {events : List (SessionEvent η)} (h : (resolver.resolveTokens tokens).1 = .ok events) :
    events.map SessionEvent.token = tokens := by
  induction tokens generalizing events with
  | nil =>
    cases h
    rfl
  | cons token tokens ih =>
    rw [resolveTokens_cons] at h
    cases hevent : (resolver.eventOf token : Except Error (SessionEvent η)) with
    | error e =>
      rw [hevent] at h
      cases h
    | ok event =>
      cases hrest : (resolver.resolveTokens tokens :
        Except Error (List (SessionEvent η)) × Resolver).1 with
      | error e =>
        rw [hevent, hrest] at h
        cases h
      | ok others =>
        rw [hevent, hrest] at h
        cases h
        obtain ⟨attr, uncore, -, -, rfl⟩ := eventOf_eq_ok_iff.mp hevent
        rw [List.map_cons, ih hrest]
        rfl

/-- The events of a session spell the expression that was parsed last. -/
theorem Session.map_token_of_plan {session parsed : Session η} (h : session.plan = parsed.plan) :
    session.events.map SessionEvent.token = parsed.events.map SessionEvent.token := by
  have hplan : ∀ s : Session η,
      s.plan.map SessionEvent.token = s.events.map SessionEvent.token := by
    intro s
    rw [plan, List.map_map]
    rfl
  rw [← hplan, h, hplan]

/-- The calls that open a session, and how they follow its groups. -/
structure GroupedOpening (session : Session η) (options : OpenOptions)
    (asked calls : List (BackendCall η)) : Prop where
  /-- The calls before the others only ask about the options. -/
  asked : ∀ call ∈ asked, ∃ outcome, call = .check options outcome
  /-- The call with number `k` opens event `k / n` on processor `k % n`. -/
  concerns : 1 ≤ session.cpuCount → ∀ k call, calls[k]? = some call → ∃ event leader? outcome,
    session.events[k / session.cpuCount]? = some event ∧
      call = .openCounter event.attr options (k % session.cpuCount) leader? outcome
  grouped : Grouped (session.events.map SessionEvent.token) session.cpuCount calls

theorem Session.openCounters_grouped (b : Backend σ η) (measureAll : Bool) (pid : Int)
    (session : Session η) (w : σ) (log : List (BackendCall η)) :
    ∃ asked calls result after w',
      session.openCounters b.recorded measureAll pid (w, log) =
        (result, after, w', log ++ (asked ++ calls)) ∧
      GroupedOpening session { pid, measureAll } asked calls := by
  have hsingle : ∀ outcome, ∀ call ∈ [BackendCall.check { pid, measureAll } outcome],
      ∃ outcome, (call : BackendCall η) = .check { pid, measureAll } outcome :=
    fun outcome call hcall => ⟨outcome, List.mem_singleton.mp hcall⟩
  have hnil : Grouped (session.events.map SessionEvent.token) session.cpuCount
      ([] : List (BackendCall η)) := by
    constructor <;> simp
  cases hopen : session.refusalOrEmpty? .open with
  | some e =>
    refine ⟨[], [], .error e, session, w, ?_, by simp, by simp, hnil⟩
    simp [openCounters, hopen]
  | none =>
    cases hcheck : (b.check { pid, measureAll } w).1 with
    | error e =>
      refine ⟨_, [], .error e, session, (b.check { pid, measureAll } w).2, ?_,
        hsingle (.error e), by simp, hnil⟩
      simp [openCounters, hopen, hcheck]
    | ok =>
      rcases Nat.eq_zero_or_pos session.cpuCount with hzero | hn
      · obtain ⟨calls, result, after, w', heq, hopening⟩ :=
          openCounters_recorded_slotless b measureAll pid hzero hopen hcheck log
        exact ⟨[.check { pid, measureAll } (.ok ())], calls, result, after, w', heq,
          hsingle (.ok ()), fun hn => absurd hn (by omega),
          hzero ▸ Grouped.of_unled _ hopening.unled⟩
      · obtain ⟨calls, result, opened, w', heq, hopening⟩ :=
          openCounters_recorded b measureAll pid hn hopen hcheck log
        have hordered := hopening.openedInOrder hn
        exact ⟨[.check { pid, measureAll } (.ok ())], calls, result, _, w', heq, hsingle (.ok ()),
          fun _ => hordered.concerns, hordered.grouped hn⟩

/-- **Which leaders the groups of an expression have.**  Take any expression that is parsed, however
its groups are closed or nested, on any backend, and open the session at any time before another one
is parsed.  A handle that is passed on as a leader was obtained before by the same command, on the
same processor and for an event that is marked as a leader; and an event that is marked as a leader
is opened without one if and only if no group is open where it stands.  So an expression without
nested groups has true leaders only, whether or not its groups are closed. -/
theorem groups_led (b : Backend σ η) {session parsed : Session η} {expression : Text}
    {resolver last : Resolver}
    (hparse : session.parse expression resolver = (.ok (), parsed, last))
    {commands : List SessionCommand}
    (hcommands : ∀ command ∈ commands, command.operation? ≠ some .parse) (w : σ)
    (log : List (BackendCall η)) {later : Session η} {w₁ : σ} {before : List (BackendCall η)}
    (hlater : Session.performAll b.recorded commands parsed (w, log) = (later, w₁, before))
    (measureAll : Bool) (pid : Int) :
    later.events.map SessionEvent.token = EventToken.ofExpression expression ∧
    ∃ asked calls result after w₂,
      later.openCounters b.recorded measureAll pid (w₁, before) =
        (result, after, w₂, before ++ (asked ++ calls)) ∧
      GroupedOpening later { pid, measureAll } asked calls ∧
      (Unnested (EventToken.ofExpression expression) →
        TrulyLed (EventToken.ofExpression expression) later.cpuCount calls) := by
  obtain ⟨-, events, -, hevents, rfl⟩ := Session.exists_events_of_parse hparse
  have hplan := Session.plan_performAll b.recorded
    ({ session with events, state := .parsed } : Session η) hcommands (w, log)
  rw [hlater] at hplan
  have htokens : later.events.map SessionEvent.token = EventToken.ofExpression expression :=
    (Session.map_token_of_plan hplan).trans (Resolver.map_token_of_resolveTokens hevents)
  obtain ⟨asked, calls, result, after, w₂, heq, hopening⟩ :=
    later.openCounters_grouped b measureAll pid w₁ before
  refine ⟨htokens, asked, calls, result, after, w₂, heq, hopening, ?_⟩
  rw [← htokens]
  exact hopening.grouped.trulyLed

namespace Example

def unclosedGroup : Text := "\x7br1;r2\x7d;\x7br3;r4".toList

/-- A group inside a group that is still open. -/
def nestedGroup : Text := "\x7br1;\x7br2;r3\x7d".toList

def plainBackend : Backend ScriptState Nat := ({} : BackendScript).backend

def parsedFrom (expression : Text) : Session Nat := (newSession.parse expression bareResolver).2.1

/-- The parsed session after it has been opened and closed, with its backend. -/
def afterClosing (expression : Text) : Session Nat × ScriptState × List (BackendCall Nat) :=
  Session.performAll plainBackend.recorded [.open false 7, .close] (parsedFrom expression) ({}, [])

/-- The calls that open the nested groups, after the question about the options. -/
def nestedCalls : List (BackendCall Nat) :=
  ((parsedFrom nestedGroup).openCounters plainBackend.recorded false 7 ({}, [])).2.2.2.drop 1

end Example

open Example in
theorem groups_led_unclosedGroup :
    ((newSession.parse unclosedGroup bareResolver).1 = .ok () ∧
      (∀ command ∈ [SessionCommand.open false 7, .close], command.operation? ≠ some .parse) ∧
      Unnested (EventToken.ofExpression unclosedGroup)) ∧
    ∃ asked calls result after w₂,
      (afterClosing unclosedGroup).1.openCounters plainBackend.recorded false 7
          (afterClosing unclosedGroup).2 =
        (result, after, w₂, (afterClosing unclosedGroup).2.2 ++ (asked ++ calls)) ∧
      GroupedOpening (afterClosing unclosedGroup).1 { pid := 7, measureAll := false } asked calls ∧
      TrulyLed (EventToken.ofExpression unclosedGroup) 1 calls := by
  have hcommands : ∀ command ∈ [SessionCommand.open false 7, .close],
      command.operation? ≠ some .parse := by
    decide
  have hunnested : Unnested (EventToken.ofExpression unclosedGroup) := by decide
  have hparse : newSession.parse unclosedGroup bareResolver =
      (.ok (), parsedFrom unclosedGroup, (newSession.parse unclosedGroup bareResolver).2.2) := rfl
  obtain ⟨-, asked, calls, result, after, w₂, heq, hopening, hled⟩ := groups_led plainBackend hparse
    hcommands {} [] (Prod.eta (afterClosing unclosedGroup)).symm false 7
  exact ⟨⟨rfl, hcommands, hunnested⟩, asked, calls, result, after, w₂, heq, hopening,
    hled hunnested⟩

open Example in
/-- Nested groups are led by a counter that has a leader itself. -/
theorem not_trulyLed_nestedGroup :
    (newSession.parse nestedGroup bareResolver).1 = .ok () ∧
    ((parsedFrom nestedGroup).openCounters plainBackend.recorded false 7 ({}, [])).1 = .ok () ∧
    (∃ attr, nestedCalls[1]? =
      some (.openCounter attr { pid := 7, measureAll := false } 0 (some 0) (.ok 1))) ∧
    (∃ attr, nestedCalls[2]? =
      some (.openCounter attr { pid := 7, measureAll := false } 0 (some 1) (.ok 2))) ∧
    ¬ TrulyLed (EventToken.ofExpression nestedGroup) 1 nestedCalls := by
  have hsecond : nestedCalls[1]? =
      some (.openCounter _ { pid := 7, measureAll := false } 0 (some 0) (.ok 1)) := rfl
  refine ⟨rfl, rfl, ⟨_, hsecond⟩, ⟨_, rfl⟩, fun h => ?_⟩
  have hmarked : MarkedAt (EventToken.ofExpression nestedGroup) (1 / 1) :=
    ⟨⟨"r2".toList, true, false⟩, rfl, rfl⟩
  cases h.marked 1 _ _ _ _ _ hsecond hmarked

end HardwareCounters
