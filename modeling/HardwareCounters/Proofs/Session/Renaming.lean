/-
# A session does not look at its handles

A session keeps handles and passes them on, and that is all.  If one backend does with renamed
handles what another does with the handles themselves, a session on the one is the renamed session
on the other, call by call.  Handles can therefore be numbered as they are opened, which makes each
of them an object of its own, without changing anything else.

* `Backend.Mirrors` relates two backends; `Backend.Mirrors.perform` and `Backend.Mirrors.performAll`
  carry it over a command and over a sequence of commands.
* `history_numbered`: every history is the numbered one with the numbers left out.
-/
import HardwareCounters.Proofs.Session.Ledger

namespace HardwareCounters

variable {σ τ η θ : Type}

/-! ## 1. Renaming handles -/

/-- The counter under another handle. -/
def CpuCounter.mapHandle (f : η → θ) (counter : CpuCounter η) : CpuCounter θ :=
  { handle := f counter.handle, count := counter.count, scaled := counter.scaled }

/-- The event with its handles renamed. -/
def SessionEvent.mapHandle (f : η → θ) (event : SessionEvent η) : SessionEvent θ :=
  { name := event.name, attr := event.attr, leader := event.leader, endsGroup := event.endsGroup,
    uncore := event.uncore, slots := event.slots.map (Option.map (CpuCounter.mapHandle f)),
    totalSum := event.totalSum }

/-- The session with its handles renamed. -/
def Session.mapHandle (f : η → θ) (session : Session η) : Session θ :=
  { cpuCount := session.cpuCount, events := session.events.map (SessionEvent.mapHandle f),
    state := session.state }

/-- The call with its handles renamed. -/
def BackendCall.mapHandle (f : η → θ) : BackendCall η → BackendCall θ
  | .check options result => .check options result
  | .openCounter attr options cpu leader? result =>
    .openCounter attr options cpu (leader?.map f) (result.map f)
  | .start handle result => .start (f handle) result
  | .stopAndRead handle result => .stopAndRead (f handle) result
  | .close handle result => .close (f handle) result

variable {f : η → θ}

@[simp] theorem SessionEvent.handle?_mapHandle (event : SessionEvent η) (cpu : Nat) :
    (event.mapHandle f).handle? cpu = (event.handle? cpu).map f := by
  simp only [handle?, counter?, mapHandle, List.getElem?_map]
  rcases event.slots[cpu]? with _ | _ | counter
  · rfl
  · rfl
  · rfl

theorem SessionEvent.setCounter_mapHandle (event : SessionEvent η) (cpu : Nat)
    (counter : CpuCounter η) :
    (event.mapHandle f).setCounter cpu (counter.mapHandle f) =
      (event.setCounter cpu counter).mapHandle f := by
  simp [setCounter, mapHandle]

theorem SessionEvent.prepare_mapHandle (event : SessionEvent η) (n : Nat) :
    (event.mapHandle f).prepare n = (event.prepare n).mapHandle f := by
  simp [prepare, mapHandle]

theorem nextLeader?_mapHandle (leader? : Option (SessionEvent η)) (event : SessionEvent η) :
    nextLeader? (leader?.map (SessionEvent.mapHandle f)) (event.mapHandle f) =
      (nextLeader? leader? event).map (SessionEvent.mapHandle f) := by
  have hends : (event.mapHandle f).endsGroup = event.endsGroup := rfl
  have hleads : (event.mapHandle f).leader = event.leader := rfl
  rw [nextLeader?, nextLeader?, hends, hleads]
  cases event.endsGroup <;> cases event.leader <;> rfl

theorem SessionEvent.handles_mapHandle (event : SessionEvent η) :
    (event.mapHandle f).handles = event.handles.map f := by
  rw [handles, handles, mapHandle, List.filterMap_map, List.map_filterMap]
  refine congrArg (List.filterMap · event.slots) (funext fun slot => ?_)
  cases slot <;> rfl

theorem Session.handles_mapHandle (session : Session η) :
    (session.mapHandle f).handles = session.handles.map f := by
  rw [handles, handles, mapHandle, List.flatMap_map, List.map_flatMap]
  exact congrArg (List.flatMap · session.events) (funext SessionEvent.handles_mapHandle)

theorem Session.refusal?_mapHandle (session : Session η) (operation : SessionOperation) :
    (session.mapHandle f).refusal? operation = session.refusal? operation := rfl

theorem Session.refusalOrEmpty?_mapHandle (session : Session η) (operation : SessionOperation) :
    (session.mapHandle f).refusalOrEmpty? operation = session.refusalOrEmpty? operation := by
  rw [refusalOrEmpty?, refusalOrEmpty?, refusal?_mapHandle, mapHandle, List.isEmpty_map]

/-- An expression makes the same events whatever the handles will be. -/
theorem Resolver.resolveTokens_mapHandle (f : η → θ) (resolver : Resolver)
    (tokens : List EventToken) :
    (resolver.resolveTokens tokens : Except Error (List (SessionEvent θ)) × Resolver) =
      ((resolver.resolveTokens tokens).1.map (List.map (SessionEvent.mapHandle f)),
        (resolver.resolveTokens (η := η) tokens).2) := by
  induction tokens generalizing resolver with
  | nil => rfl
  | cons token tokens ih =>
    rw [Resolver.resolveTokens, Resolver.resolveTokens]
    rcases resolver.resolve token.name with ⟨e | attr, next⟩
    · rfl
    · dsimp only
      cases next.isUncore token.name with
      | error e => rfl
      | ok uncore =>
        dsimp only
        rw [ih next]
        rcases (next.resolveTokens tokens : Except Error (List (SessionEvent η)) × Resolver) with
          ⟨e | others, last⟩
        · rfl
        · rfl

theorem Session.parse_mapHandle (f : η → θ) (session : Session η) (expression : Text)
    (resolver : Resolver) :
    (session.mapHandle f).parse expression resolver =
      ((session.parse expression resolver).1,
        (session.parse expression resolver).2.1.mapHandle f,
        (session.parse expression resolver).2.2) := by
  rw [Session.parse, Session.parse, Session.refusal?_mapHandle]
  cases session.refusal? .parse with
  | some e => rfl
  | none =>
    dsimp only
    rw [Resolver.resolveTokens_mapHandle f]
    rcases (resolver.resolveTokens (EventToken.ofExpression expression) :
      Except Error (List (SessionEvent η)) × Resolver) with ⟨e | _ | ⟨event, events⟩, last⟩
    · rfl
    · rfl
    · rfl

/-! ## 2. Backends that mirror one another -/

/-- What one backend does with a state and handles, the other does with their images. -/
structure Backend.Mirrors (c : Backend τ θ) (b : Backend σ η) (state : σ → τ) (f : η → θ) :
    Prop where
  check : ∀ options w,
    c.check options (state w) = ((b.check options w).1, state (b.check options w).2)
  openCounter : ∀ attr options cpu leader? w,
    c.openCounter attr options cpu (leader?.map f) (state w) =
      ((b.openCounter attr options cpu leader? w).1.map f,
        state (b.openCounter attr options cpu leader? w).2)
  start : ∀ handle w,
    c.start (f handle) (state w) = ((b.start handle w).1, state (b.start handle w).2)
  stopAndRead : ∀ handle w,
    c.stopAndRead (f handle) (state w) =
      ((b.stopAndRead handle w).1, state (b.stopAndRead handle w).2)
  close : ∀ handle w,
    c.close (f handle) (state w) = ((b.close handle w).1, state (b.close handle w).2)
  threadCpus? : ∀ w, c.threadCpus? (state w) = ((b.threadCpus? w).1, state (b.threadCpus? w).2)
  moveThread : ∀ cpus w, c.moveThread cpus (state w) = state (b.moveThread cpus w)

/-- The image of a recorded state: that of the state, and that of every call in its log. -/
def mirrorLog (state : σ → τ) (f : η → θ) (w : σ × List (BackendCall η)) :
    τ × List (BackendCall θ) :=
  (state w.1, w.2.map (BackendCall.mapHandle f))

namespace Backend.Mirrors

variable {c : Backend τ θ} {b : Backend σ η} {state : σ → τ}

/-- Recording the calls mirrors them too. -/
theorem recorded (h : c.Mirrors b state f) :
    c.recorded.Mirrors b.recorded (mirrorLog state f) f where
  check options w := by
    simp [Backend.recorded, Backend.record, mirrorLog, h.check, BackendCall.mapHandle]
  openCounter attr options cpu leader? w := by
    simp [Backend.recorded, Backend.record, mirrorLog, h.openCounter, BackendCall.mapHandle]
  start handle w := by
    simp [Backend.recorded, Backend.record, mirrorLog, h.start, BackendCall.mapHandle]
  stopAndRead handle w := by
    simp [Backend.recorded, Backend.record, mirrorLog, h.stopAndRead, BackendCall.mapHandle]
  close handle w := by
    simp [Backend.recorded, Backend.record, mirrorLog, h.close, BackendCall.mapHandle]
  threadCpus? w := by simp [Backend.recorded, mirrorLog, h.threadCpus?]
  moveThread cpus w := by simp [Backend.recorded, mirrorLog, h.moveThread]

/-! ## 3. The loops -/

theorem openOn (h : c.Mirrors b state f) (options : OpenOptions)
    (leader? : Option (SessionEvent η)) (cpus : List Nat) (event : SessionEvent η) (w : σ) :
    (event.mapHandle f).openOn c options (leader?.map (SessionEvent.mapHandle f)) cpus (state w) =
      ((event.openOn b options leader? cpus w).1,
        (event.openOn b options leader? cpus w).2.1.mapHandle f,
        state (event.openOn b options leader? cpus w).2.2) := by
  induction cpus generalizing event w with
  | nil => rfl
  | cons cpu cpus ih =>
    have hleader : (leader?.map (SessionEvent.mapHandle f)).bind
        (fun leader => leader.handle? cpu) =
          (leader?.bind fun leader => leader.handle? cpu).map f := by
      cases leader? with
      | none => rfl
      | some leader => exact leader.handle?_mapHandle cpu
    have hcall := h.openCounter event.attr options cpu
      (leader?.bind fun leader => leader.handle? cpu) (b.moveThread [cpu] w)
    have hattr : (event.mapHandle f).attr = event.attr := rfl
    have hlen : (event.mapHandle f).slots.length = event.slots.length := List.length_map _
    rw [SessionEvent.openOn, SessionEvent.openOn, hleader, h.moveThread, hattr, hcall]
    rcases b.openCounter event.attr options cpu
      (leader?.bind fun leader => leader.handle? cpu) (b.moveThread [cpu] w) with ⟨e | handle, w₁⟩
    · rfl
    · have hset := event.setCounter_mapHandle (f := f) cpu { handle := handle }
      have hih := ih (event.setCounter cpu { handle := handle }) w₁
      simp only [Except.map, hlen]
      split
      · rw [← hset] at hih
        exact hih
      · rfl

theorem openEvents (h : c.Mirrors b state f) (options : OpenOptions) (n : Nat)
    (leader? : Option (SessionEvent η)) (events : List (SessionEvent η)) (w : σ) :
    Session.openEvents c options n (leader?.map (SessionEvent.mapHandle f))
        (events.map (SessionEvent.mapHandle f)) (state w) =
      ((Session.openEvents b options n leader? events w).1,
        (Session.openEvents b options n leader? events w).2.1.map (SessionEvent.mapHandle f),
        state (Session.openEvents b options n leader? events w).2.2) := by
  induction events generalizing leader? w with
  | nil => rfl
  | cons event events ih =>
    have huncore : (event.mapHandle f).uncore = event.uncore := rfl
    have hevent := h.openOn options leader? (targetCpus n event.uncore) (event.prepare n) w
    rw [List.map_cons, Session.openEvents, Session.openEvents, huncore,
      SessionEvent.prepare_mapHandle, hevent]
    rcases (event.prepare n).openOn b options leader? (targetCpus n event.uncore) w with
      ⟨e | _, opened, w₁⟩
    · rfl
    · simp only [nextLeader?_mapHandle, ih (nextLeader? leader? opened) w₁, List.map_cons]

theorem startAll (h : c.Mirrors b state f) (handles : List η) (w : σ) :
    Session.startAll c (handles.map f) (state w) =
      ((Session.startAll b handles w).1, state (Session.startAll b handles w).2) := by
  induction handles generalizing w with
  | nil => rfl
  | cons handle handles ih =>
    rw [List.map_cons, Session.startAll, Session.startAll, h.start]
    rcases b.start handle w with ⟨e | _, w₁⟩
    · rfl
    · exact ih w₁

theorem readSlots (h : c.Mirrors b state f) (slots : List (Slot η)) (sum : Word) (w : σ) :
    Session.readSlots c (slots.map (Option.map (CpuCounter.mapHandle f))) sum (state w) =
      ((Session.readSlots b slots sum w).1,
        (Session.readSlots b slots sum w).2.1.map (Option.map (CpuCounter.mapHandle f)),
        state (Session.readSlots b slots sum w).2.2) := by
  induction slots generalizing sum w with
  | nil => rfl
  | cons slot slots ih =>
    cases slot with
    | none => rfl
    | some counter =>
      have hhandle : (counter.mapHandle f).handle = f counter.handle := rfl
      rw [List.map_cons, Option.map_some, Session.readSlots, Session.readSlots, hhandle,
        h.stopAndRead]
      rcases b.stopAndRead counter.handle w with ⟨e | count, w₁⟩
      · rfl
      · have hrecord : (counter.mapHandle f).record count = (counter.record count).mapHandle f :=
          rfl
        have hscaled : ((counter.record count).mapHandle f).scaled =
          (counter.record count).scaled := rfl
        simp only [hrecord, hscaled, ih, List.map_cons, Option.map_some]

theorem readEvents (h : c.Mirrors b state f) (events : List (SessionEvent η)) (w : σ) :
    Session.readEvents c (events.map (SessionEvent.mapHandle f)) (state w) =
      ((Session.readEvents b events w).1,
        (Session.readEvents b events w).2.1.map (SessionEvent.mapHandle f),
        state (Session.readEvents b events w).2.2) := by
  induction events generalizing w with
  | nil => rfl
  | cons event events ih =>
    have hslots : (event.mapHandle f).slots =
        event.slots.map (Option.map (CpuCounter.mapHandle f)) := rfl
    rw [List.map_cons, Session.readEvents, Session.readEvents, hslots, h.readSlots]
    rcases Session.readSlots b event.slots 0 w with ⟨e | totalSum, slots, w₁⟩
    · rfl
    · simp only [ih w₁]
      rfl

theorem closeAll (h : c.Mirrors b state f) (handles : List η) (w : σ) :
    Session.closeAll c (handles.map f) (state w) =
      ((Session.closeAll b handles w).1, state (Session.closeAll b handles w).2) := by
  induction handles generalizing w with
  | nil => rfl
  | cons handle handles ih =>
    simp only [List.map_cons, Session.closeAll, h.close, ih]

/-! ## 4. Commands and histories -/

theorem openCounters (h : c.Mirrors b state f) (measureAll : Bool) (pid : Int)
    (session : Session η) (w : σ) :
    (session.mapHandle f).openCounters c measureAll pid (state w) =
      ((session.openCounters b measureAll pid w).1,
        (session.openCounters b measureAll pid w).2.1.mapHandle f,
        state (session.openCounters b measureAll pid w).2.2) := by
  rw [Session.openCounters, Session.openCounters, Session.refusalOrEmpty?_mapHandle]
  cases session.refusalOrEmpty? .open with
  | some e => rfl
  | none =>
    dsimp only
    rw [h.check]
    rcases b.check { pid, measureAll } w with ⟨e | _, w₁⟩
    · rfl
    · have hall := h.openEvents { pid, measureAll } session.cpuCount none session.events
        (b.threadCpus? w₁).2
      have hevents : (session.mapHandle f).events =
        session.events.map (SessionEvent.mapHandle f) := rfl
      have hcount : (session.mapHandle f).cpuCount = session.cpuCount := rfl
      rw [Option.map_none] at hall
      simp only [h.threadCpus?, hevents, hcount, hall]
      cases (b.threadCpus? w₁).1 with
      | none => rfl
      | some cpus =>
        simp only [h.moveThread]
        rfl

/-- **One command.**  A command on the one backend is the renamed command on the other. -/
theorem perform (h : c.Mirrors b state f) (session : Session η) (command : SessionCommand)
    (w : σ) :
    (session.mapHandle f).perform c command (state w) =
      ((session.perform b command w).1, (session.perform b command w).2.1.mapHandle f,
        state (session.perform b command w).2.2) := by
  cases command with
  | parse expression resolver => simp only [Session.perform, Session.parse_mapHandle]
  | «open» measureAll pid => exact h.openCounters measureAll pid session w
  | start =>
    rw [Session.perform, Session.perform, Session.start, Session.start,
      Session.refusalOrEmpty?_mapHandle]
    cases session.refusalOrEmpty? .start with
    | some e => rfl
    | none =>
      dsimp only
      rw [Session.handles_mapHandle, h.startAll]
      rcases Session.startAll b session.handles w with ⟨e | _, w₁⟩
      · rfl
      · rfl
  | stop =>
    have hevents : (session.mapHandle f).events =
      session.events.map (SessionEvent.mapHandle f) := rfl
    rw [Session.perform, Session.perform, Session.stop, Session.stop,
      Session.refusalOrEmpty?_mapHandle]
    cases session.refusalOrEmpty? .stop with
    | some e => rfl
    | none =>
      dsimp only
      rw [hevents, h.readEvents]
      rcases Session.readEvents b session.events w with ⟨e | _, events, w₁⟩
      · rfl
      · rfl
  | close =>
    have hevents : ((session.mapHandle f).events.map fun event : SessionEvent θ =>
        ({ event with slots := [] } : SessionEvent θ)) =
          (session.events.map fun event : SessionEvent η =>
            ({ event with slots := [] } : SessionEvent η)).map (SessionEvent.mapHandle f) := by
      simp [Session.mapHandle, SessionEvent.mapHandle]
    simp only [Session.perform, Session.close, Session.handles_mapHandle, h.closeAll, hevents]
    rfl

/-- **Any commands.**  A session on the one backend is the renamed session on the other. -/
theorem performAll (h : c.Mirrors b state f) (commands : List SessionCommand)
    (session : Session η) (w : σ) :
    Session.performAll c commands (session.mapHandle f) (state w) =
      ((Session.performAll b commands session w).1.mapHandle f,
        state (Session.performAll b commands session w).2) := by
  induction commands generalizing session w with
  | nil => rfl
  | cons command commands ih =>
    rw [Session.performAll, Session.performAll, h.perform]
    exact ih _ _

end Backend.Mirrors

/-! ## 5. Numbering -/

/-- A backend mirrors the numbering one, if the numbers are left out. -/
theorem mirrors_numbered (b : Backend σ η) : b.Mirrors b.numbered Prod.fst Prod.snd where
  check _ _ := rfl
  openCounter attr options cpu leader? w := by
    simp only [Backend.numbered]
    rcases b.openCounter attr options cpu (leader?.map Prod.snd) w.1 with ⟨e | handle, w₁⟩
    · rfl
    · rfl
  start _ _ := rfl
  stopAndRead _ _ := rfl
  close _ _ := rfl
  threadCpus? _ := rfl
  moveThread _ _ := rfl

/-- **Numbering changes nothing.**  Every history is the numbered one with the numbers left out. -/
theorem history_numbered (b : Backend σ η) (n : Nat) (w : σ) (commands : List SessionCommand) :
    Session.history b n w commands =
      ((Session.history b.numbered n (w, 0) commands).1.mapHandle Prod.snd,
        (Session.history b.numbered n (w, 0) commands).2.map (BackendCall.mapHandle Prod.snd)) :=
  congrArg (fun outcome => (outcome.1, outcome.2.2)) <|
    (mirrors_numbered b).recorded.performAll commands { cpuCount := n } ((w, 0), [])

end HardwareCounters
