/-
# Counting leaves nothing open

The program that counts opens a counter for each event and processor, and any call can fail on the way.
Its session accounts for every handle, and it closes the session in any case; so of the descriptors that
the kernel gave out none is left.  The account is that of `Accounted`, whose log of backend calls is not
there when the program runs: it is carried along with the log of the kernel.

* `Tracks`: the two logs agree; `tracks_preserves`: every operation of the backend keeps that;
* `Tracked` is the account of a session on a kernel; `Tracked.perform` is the step for a command,
  `Tracked.pause` that for a pause, and `Tracked.count` the run;
* `Stat.run_settled`: whatever the arguments, the files and the kernel.
-/
import HardwareCounters.Program.Stat
import HardwareCounters.Proofs.Session.Renaming
import HardwareCounters.Proofs.Sysfs.CpuCount

namespace HardwareCounters

/-! ## 1. The log of a kernel -/

/-- The descriptor that a call obtained. -/
def KernelCall.opened? : KernelCall → Option Nat
  | .openCounter _ descriptor? => descriptor?
  | _ => none

def KernelCall.closed? : KernelCall → Option Nat
  | .close descriptor => some descriptor
  | _ => none

/-- The seconds that a call let pass. -/
def KernelCall.slept : KernelCall → Nat
  | .sleep seconds => seconds
  | _ => 0

/-- The descriptors that a log has seen opened, in order. -/
def openedDescriptors (log : List KernelCall) : List Nat := log.filterMap KernelCall.opened?

def closedDescriptors (log : List KernelCall) : List Nat := log.filterMap KernelCall.closed?

def sleptSeconds (log : List KernelCall) : Nat := (log.map KernelCall.slept).sum

/-- The log of a kernel has seen the same counters opened and closed as that of a backend, and so many
seconds. -/
structure Tracks (seconds : Nat) (log : List KernelCall) (calls : List (BackendCall KernelCounter)) :
    Prop where
  opened_eq : openedDescriptors log = (openedHandles calls).map KernelCounter.descriptor
  closed_eq : closedDescriptors log = (closedHandles calls).map KernelCounter.descriptor
  slept_eq : sleptSeconds log = seconds

variable {κ : Type} {seconds : Nat} {log more : List KernelCall}
  {calls moreCalls : List (BackendCall KernelCounter)}

theorem Tracks.add (h : Tracks seconds log calls) {added : Nat} (hmore : Tracks added more moreCalls) :
    Tracks (seconds + added) (log ++ more) (calls ++ moreCalls) where
  opened_eq := by
    rw [openedDescriptors, List.filterMap_append, openedHandles_append, List.map_append]
    exact congrArg₂ _ h.opened_eq hmore.opened_eq
  closed_eq := by
    rw [closedDescriptors, List.filterMap_append, closedHandles_append, List.map_append]
    exact congrArg₂ _ h.closed_eq hmore.closed_eq
  slept_eq := by
    rw [sleptSeconds, List.map_append, List.sum_append]
    exact congrArg₂ _ h.slept_eq hmore.slept_eq

/-- The calls of an operation on counters take no time. -/
theorem Tracks.append (h : Tracks seconds log calls) (hmore : Tracks 0 more moreCalls) :
    Tracks seconds (log ++ more) (calls ++ moreCalls) := h.add hmore

theorem tracks_sleeps (lengths : List Nat) : Tracks lengths.sum (lengths.map .sleep) [] where
  opened_eq := by simp [openedDescriptors, openedHandles, KernelCall.opened?]
  closed_eq := by simp [closedDescriptors, closedHandles, KernelCall.closed?]
  slept_eq := by simp [sleptSeconds, Function.comp_def, KernelCall.slept]

/-- **What every operation keeps.**  The log of the kernel and that of its backend go on agreeing. -/
theorem tracks_preserves (k : Kernel κ) (files : FileTree) (seconds : Nat) :
    (k.recorded.backend files).recorded.Preserves fun w => Tracks seconds w.1.2 w.2 where
  check := by
    rintro options ⟨⟨w, log⟩, calls⟩ h
    have hcall : Tracks 0 [] [.check options (capability files (k.user w) options)] :=
      ⟨rfl, rfl, rfl⟩
    exact List.append_nil log ▸ h.append hcall
  openCounter := by
    rintro attr options cpu leader? ⟨⟨w, log⟩, calls⟩ h
    rw [Backend.recorded_openCounter]
    simp only [Kernel.backend, Kernel.openEvent, Kernel.recorded, Kernel.record]
    rcases k.openCounter _ w with ⟨e | descriptor, w'⟩
    · exact h.append ⟨rfl, rfl, rfl⟩
    · exact h.append ⟨rfl, rfl, rfl⟩
  start := by
    rintro counter ⟨⟨w, log⟩, calls⟩ h
    rw [Backend.recorded_start]
    simp only [Kernel.backend, Kernel.startCounter, Kernel.recorded, Kernel.record]
    rcases k.command .reset counter.descriptor w with ⟨e | _, w'⟩
    · exact h.append ⟨rfl, rfl, rfl⟩
    · simp only [List.append_assoc]
      exact h.append ⟨rfl, rfl, rfl⟩
  stopAndRead := by
    rintro counter ⟨⟨w, log⟩, calls⟩ h
    rw [Backend.recorded_stopAndRead]
    simp only [Kernel.backend, Kernel.stopCounter, Kernel.readCount, Kernel.recorded, Kernel.record]
    rcases k.command .disable counter.descriptor w with ⟨e | _, w₁⟩
    · exact h.append ⟨rfl, rfl, rfl⟩
    · have hread : ∀ result, Tracks 0 [.command .disable counter.descriptor,
          .read counter.descriptor Count.byteSize] [.stopAndRead counter result] :=
        fun _ => ⟨rfl, rfl, rfl⟩
      simp only [List.append_assoc]
      rcases k.read counter.descriptor Count.byteSize w₁ with ⟨e | bytes, w₂⟩
      · exact h.append (hread _)
      · dsimp only
        split
        · exact h.append (hread _)
        · exact h.append (hread _)
  close := by
    rintro counter ⟨⟨w, log⟩, calls⟩ h
    exact h.append ⟨rfl, rfl, rfl⟩
  threadCpus? := by
    rintro ⟨⟨w, log⟩, calls⟩ h
    have hcall : Tracks 0 [.threadCpus] [] := ⟨rfl, rfl, rfl⟩
    exact List.append_nil calls ▸ h.append hcall
  moveThread := by
    rintro cpus ⟨⟨w, log⟩, calls⟩ h
    rw [Backend.recorded_moveThread]
    simp only [Kernel.backend, Kernel.tryMoveThread]
    split
    · have hcall : Tracks 0 [.moveThread cpus] [] := ⟨rfl, rfl, rfl⟩
      exact List.append_nil calls ▸ h.append hcall
    · exact h

/-! ## 2. The account of a session on a kernel -/

/-- A backend does the same whether or not its calls are recorded. -/
theorem mirrors_recorded {σ η : Type} (b : Backend σ η) : b.Mirrors b.recorded Prod.fst id where
  check _ _ := rfl
  openCounter attr options cpu leader? w := by
    have hid : ∀ result : Except Error η, result.map id = result := fun result => by
      cases result <;> rfl
    rw [Option.map_id, id, hid]
    rfl
  start _ _ := rfl
  stopAndRead _ _ := rfl
  close _ _ := rfl
  threadCpus? _ := rfl
  moveThread _ _ := rfl

theorem Session.mapHandle_id {η : Type} (session : Session η) : session.mapHandle id = session := by
  have hcounter : CpuCounter.mapHandle (η := η) id = id := rfl
  have hevent : SessionEvent.mapHandle (id : η → η) = id := by
    funext event
    simp [SessionEvent.mapHandle, hcounter]
  simp [mapHandle, hevent]

/-- Every counter of the kernel that a session has opened is accounted for, and so much time has
passed. -/
def Tracked (session : Session KernelCounter) (seconds : Nat) (log : List KernelCall) : Prop :=
  1 ≤ session.cpuCount ∧ ∃ calls, Accounted session calls ∧ Tracks seconds log calls

variable {session : Session KernelCounter} {w : κ}

/-- **The step.**  Whatever a command can do, failures included, keeps the account, and takes no
time. -/
theorem Tracked.perform (h : Tracked session seconds log) (k : Kernel κ) (files : FileTree)
    (command : SessionCommand) (w : κ) :
    ∃ result after w' log',
      session.perform (k.recorded.backend files) command (w, log) = (result, after, w', log') ∧
      Tracked after seconds log' := by
  obtain ⟨hn, calls, haccounted, htracks⟩ := h
  obtain ⟨more, result, after, ⟨w', log'⟩, heq, hperformed⟩ :=
    perform_recorded (k.recorded.backend files) hn command (w, log) calls
  have hplain := (mirrors_recorded (k.recorded.backend files)).perform session command ((w, log), calls)
  have hkept := @Backend.Preserves.perform _ _ _ _ (tracks_preserves k files seconds) session command
    ((w, log), calls) htracks
  rw [heq] at hplain hkept
  rw [Session.mapHandle_id, Session.mapHandle_id] at hplain
  exact ⟨result, after, w', log', hplain, hperformed.cpuCount_eq ▸ hn, calls ++ more,
    haccounted.performed hperformed, hkept⟩

/-- The calls let just the given time pass. -/
theorem Stat.sum_sleeps (seconds : Nat) : (sleeps seconds).sum = seconds := by
  have h := Nat.div_add_mod seconds longestSleep
  rw [Nat.mul_comm] at h
  rw [sleeps, List.sum_append, List.sum_replicate_nat]
  split
  · rename_i hmod
    rwa [hmod] at h
  · simpa using h

theorem Stat.pause_recorded (k : Kernel κ) (seconds : Nat) (w : κ) (log : List KernelCall) :
    ∃ w', Stat.pause k.recorded seconds (w, log) = (w', log ++ (sleeps seconds).map .sleep) := by
  rw [pause]
  induction sleeps seconds generalizing w log with
  | nil => exact ⟨w, by simp⟩
  | cons length lengths ih =>
    obtain ⟨w', heq⟩ := ih (k.sleep length w) (log ++ [.sleep length])
    exact ⟨w', by simpa [Kernel.recorded] using heq⟩

/-- A pause opens and closes nothing. -/
theorem Tracked.pause (h : Tracked session 0 log) (k : Kernel κ) (seconds : Nat) (w : κ) :
    ∃ w' log', Stat.pause k.recorded seconds (w, log) = (w', log') ∧ Tracked session seconds log' := by
  obtain ⟨hn, calls, haccounted, htracks⟩ := h
  obtain ⟨w', heq⟩ := Stat.pause_recorded k seconds w log
  have hpaused := htracks.add (tracks_sleeps (Stat.sleeps seconds))
  rw [List.append_nil, Stat.sum_sleeps, Nat.zero_add] at hpaused
  exact ⟨w', _, heq, hn, calls, haccounted, hpaused⟩

/-- **The run.**  Counting keeps the account wherever it ends, and it ends well only after the pause. -/
theorem Tracked.count (h : Tracked session 0 log) (k : Kernel κ) (files : FileTree) (seconds : Nat)
    (w : κ) :
    ∃ report after w' log' slept,
      Stat.count k.recorded (k.recorded.backend files) seconds session (w, log) =
        (report, after, w', log') ∧
      Tracked after slept log' ∧ (slept = 0 ∨ slept = seconds) ∧
      (report.result = .ok () → slept = seconds) := by
  obtain ⟨result, opened, w₁, log₁, hopen, htracked⟩ := h.perform k files (.open true (-1)) w
  rw [Session.perform] at hopen
  rw [Stat.count, hopen]
  cases result with
  | error e => exact ⟨_, _, _, _, 0, rfl, htracked, Or.inl rfl, fun hok => by cases hok⟩
  | ok =>
    obtain ⟨result, started, w₂, log₂, hstart, htracked⟩ := htracked.perform k files .start w₁
    rw [Session.perform] at hstart
    dsimp only
    rw [hstart]
    cases result with
    | error e => exact ⟨_, _, _, _, 0, rfl, htracked, Or.inl rfl, fun hok => by cases hok⟩
    | ok =>
      obtain ⟨w₃, log₃, hpause, htracked⟩ := htracked.pause k seconds w₂
      obtain ⟨result, stopped, w₄, log₄, hstop, htracked⟩ := htracked.perform k files .stop w₃
      rw [Session.perform] at hstop
      dsimp only
      rw [hpause, hstop]
      cases result with
      | error e => exact ⟨_, _, _, _, seconds, rfl, htracked, Or.inr rfl, fun _ => rfl⟩
      | ok => exact ⟨_, _, _, _, seconds, rfl, htracked, Or.inr rfl, fun _ => rfl⟩

/-! ## 3. The program -/

/-- What a run leaves behind.  The descriptors that it has obtained are those that it has closed, each as
often.  The time that passes is what the second argument says, or none; and a run that ends well has let
it pass. -/
structure Stat.Settled (arguments : List Text) (report : Report) (log : List KernelCall) : Prop where
  released : (openedDescriptors log).Perm (closedDescriptors log)
  slept : sleptSeconds log = 0 ∨ readSeconds arguments[1]? = .ok (sleptSeconds log)
  slept_of_ok : report.result = .ok () → readSeconds arguments[1]? = .ok (sleptSeconds log)

/-- A program that fails before it reaches the kernel leaves nothing behind. -/
theorem Stat.settled_failed (arguments : List Text) (e : Error) :
    Settled arguments (.failed e) [] := ⟨.nil, Or.inl rfl, fun hok => by cases hok⟩

/-- A session that has been closed leaves nothing behind. -/
theorem Tracked.close (h : Tracked session seconds log) (k : Kernel κ) (files : FileTree) (w : κ) :
    ∃ result after w' log',
      session.close (k.recorded.backend files) (w, log) = (result, after, w', log') ∧
      (openedDescriptors log').Perm (closedDescriptors log') ∧ sleptSeconds log' = seconds := by
  obtain ⟨result, after, w', log', hclose, -, calls, haccounted, htracks⟩ := h.perform k files .close w
  rw [Session.perform] at hclose
  have hstate : after.state = .closed := by
    have hlast : (session.close (k.recorded.backend files) (w, log)).2.1.state = .closed := rfl
    rwa [hclose] at hlast
  have hbalance := haccounted.balance
  rw [haccounted.idle (Or.inl hstate), List.nil_append] at hbalance
  refine ⟨result, after, w', log', hclose, ?_, htracks.slept_eq⟩
  rw [htracks.opened_eq, htracks.closed_eq]
  exact hbalance.map _

/-- **Nothing stays open**, whatever the arguments and the files are and whatever the kernel does. -/
theorem Stat.run_settled (k : Kernel κ) (s : Sysfs) (arguments : List Text)
    (searchPath? : Option Text) (w : κ) :
    ∃ report w' log, Stat.run k.recorded s arguments searchPath? (w, []) = (report, w', log) ∧
      Settled arguments report log := by
  rw [run]
  split
  · exact ⟨_, _, _, rfl, settled_failed arguments _⟩
  · rename_i seconds hseconds
    split
    · exact ⟨_, _, _, rfl, settled_failed arguments _⟩
    · rename_i cpuCount hcount
      have hn := Sysfs.one_le_of_cpuCount hcount (Nat.le_refl 1)
      dsimp only
      split
      · exact ⟨_, _, _, rfl, settled_failed arguments _⟩
      · rename_i session _ hparse
        have hnew : Accounted ({ cpuCount } : Session KernelCounter) [] := ⟨.nil, fun _ => rfl⟩
        have hparsed := parse_performed (⟨cpuCount, [], .closed⟩ : Session KernelCounter)
          (arguments[0]?.getD defaultExpression) ⟨s, catalogOf s.files searchPath?⟩
        rw [hparse] at hparsed
        have htracked : Tracked session 0 [] :=
          ⟨hparsed.cpuCount_eq ▸ hn, [], hnew.performed hparsed, rfl, rfl, rfl⟩
        obtain ⟨report, after, w₁, log₁, slept, hrun, htracked, hslept, hok⟩ :=
          htracked.count k s.files seconds w
        obtain ⟨closed, last, w₂, log₂, hclose, hreleased, htime⟩ := htracked.close k s.files w₁
        rw [hrun]
        dsimp only
        rw [hclose]
        refine ⟨_, _, _, rfl, hreleased, ?_, fun hresult => ?_⟩
        · rw [htime]
          rcases hslept with hnone | hall
          · exact Or.inl hnone
          · exact Or.inr (hall ▸ hseconds)
        · -- a report that ends with an error keeps it when the session is closed
          have hreport : report.result = .ok () := by
            cases hresult' : report.result with
            | error e =>
              rw [hresult'] at hresult
              cases hresult
            | ok => rfl
          rw [htime, hok hreport, hseconds]

end HardwareCounters
