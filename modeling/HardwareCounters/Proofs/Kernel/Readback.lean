/-
# Nothing is lost on the way to the kernel

The attribute of an event is written into words of the kernel's attribute, and what is left out, the
precision, the kind of sampling and the way in which the counter is attached all go into one word of
flags.  No two of them share a bit, so everything can be read back, as long as the precision fits
into its two bits.  It does for whatever a name or a descriptor is resolved to.

* `getLsbD_flags_ofEvent` says what each bit of the flags is;
* `Carries` says what is read from the kernel's attribute, and `carries_ofEvent` that it is right;
* `Descriptor.precise_le_of_resolve` and `Resolver.precise_le_of_resolve` bound the precision;
* `ofEvent_faithful` puts these together.
-/
import HardwareCounters.Proofs.Descriptor.Qualifiers
import HardwareCounters.Proofs.Kernel.Flags
import HardwareCounters.Resolver

namespace HardwareCounters

/-! ## 1. The flags of an event -/

/-- The number that says how often a counter is sampled. -/
def Sampling.value : Sampling → Word
  | .period n => n
  | .frequency n => n

/-- The counter is sampled with a frequency. -/
def Sampling.isFrequency : Sampling → Bool
  | .period _ => false
  | .frequency _ => true

namespace KernelAttribute

variable (event : Attribute) (options : OpenOptions)

/-- Every flag is one bit. -/
theorem flags_eq_twoPow :
    disabledFlag = BitVec.twoPow 64 0 ∧ inheritFlag = BitVec.twoPow 64 1 ∧
    excludeUserFlag = BitVec.twoPow 64 4 ∧ excludeKernelFlag = BitVec.twoPow 64 5 ∧
    excludeHypervisorFlag = BitVec.twoPow 64 6 ∧ freqFlag = BitVec.twoPow 64 10 ∧
    enableOnExecFlag = BitVec.twoPow 64 12 ∧ excludeGuestFlag = BitVec.twoPow 64 20 := by
  decide

theorem bit?_flag_twoPow {k : Nat} (hk : k < 64) (on : Bool) (i : Nat) :
    (FlagWrite.flag (BitVec.twoPow 64 k) on).bit? i = if i = k then some on else none := by
  rw [FlagWrite.bit?, BitVec.getLsbD_twoPow]
  simp [hk, eq_comm]

theorem bit?_precise (level : BitVec 8) (i : Nat) :
    (FlagWrite.precise level).bit? i =
      if i = 15 then some (level.getLsbD 0) else if i = 16 then some (level.getLsbD 1) else none :=
  rfl

/-- The words for an event, without flags. -/
def ofWords : KernelAttribute where
  pmuType := event.pmuType
  size := structureSize
  config := event.config
  config1 := event.config1
  config2 := event.config2
  sample := event.sampling.value
  readFormat := enabledTimeFormat ||| runningTimeFormat

/-- What is written to the flags for an event, in order. -/
def eventWrites : List FlagWrite :=
  (if event.sampling.isFrequency then [.flag freqFlag true] else []) ++
  [.flag excludeUserFlag event.excludeUser, .flag excludeKernelFlag event.excludeKernel,
    .flag excludeHypervisorFlag event.excludeHypervisor, .flag excludeGuestFlag event.excludeGuest,
    .precise event.precise] ++
  if options.measureAll then []
  else [.flag disabledFlag true, .flag enableOnExecFlag true, .flag inheritFlag true]

theorem ofEvent_eq_applyWrites :
    ofEvent event options = (ofWords event).applyWrites (eventWrites event options) := by
  obtain ⟨pid, measureAll⟩ := options
  cases hsampling : event.sampling <;> cases measureAll <;>
    simp [ofEvent, eventWrites, ofWords, hsampling, setSampling, Sampling.isFrequency,
      Sampling.value, applyWrites, applyWrite, setFlag]

/-- What a bit of the flags says about an event. -/
def eventBit : Nat → Bool
  | 0 | 1 | 12 => !options.measureAll
  | 4 => event.excludeUser
  | 5 => event.excludeKernel
  | 6 => event.excludeHypervisor
  | 10 => event.sampling.isFrequency
  | 15 => event.precise.getLsbD 0
  | 16 => event.precise.getLsbD 1
  | 20 => event.excludeGuest
  | _ => false

theorem getLsbD_flags_ofEvent (i : Nat) :
    (ofEvent event options).flags.getLsbD i = eventBit event options i := by
  have hzero : (ofWords event).flags.getLsbD i = false := BitVec.getLsbD_zero
  rw [ofEvent_eq_applyWrites, getLsbD_applyWrites, hzero, eventWrites]
  -- No two writes cover the same bit, so it does not matter which of them comes last.
  cases hfrequency : event.sampling.isFrequency <;> cases hmeasure : options.measureAll <;>
    simp only [eventBit, hfrequency, hmeasure, flags_eq_twoPow, List.reverse_append,
      List.findSome?_append, reduceIte, Bool.false_eq_true] <;> split <;>
    simp_all [bit?_flag_twoPow, bit?_precise]

/-! ## 2. What is read -/

/-- A precision up to 3 fits into two bits. -/
theorem getLsbD_of_le_three {level : BitVec 8} (h : level ≤ 3) {i : Nat} (hi : 2 ≤ i) :
    level.getLsbD i = false := by
  have hlt : level.toNat < 2 ^ 2 := Nat.lt_succ_of_le (BitVec.le_def.mp h)
  exact Nat.testBit_lt_two_pow (Nat.lt_of_lt_of_le hlt (Nat.pow_le_pow_right (by decide) hi))

/-- The event and the way in which it is attached can be read from the attribute. -/
structure Carries (attr : KernelAttribute) (event : Attribute) (measureAll : Bool) : Prop where
  pmuType_eq : attr.pmuType = event.pmuType
  config_eq : attr.config = event.config
  config1_eq : attr.config1 = event.config1
  config2_eq : attr.config2 = event.config2
  sample_eq : attr.sample = event.sampling.value
  freq_eq : attr.hasFlag freqFlag = event.sampling.isFrequency
  precise_eq : attr.precise = event.precise
  excludeUser_eq : attr.hasFlag excludeUserFlag = event.excludeUser
  excludeKernel_eq : attr.hasFlag excludeKernelFlag = event.excludeKernel
  excludeHypervisor_eq : attr.hasFlag excludeHypervisorFlag = event.excludeHypervisor
  excludeGuest_eq : attr.hasFlag excludeGuestFlag = event.excludeGuest
  /-- Unless everything is measured the counter waits for the next program and is inherited. -/
  waits_eq : ∀ flag ∈ [disabledFlag, enableOnExecFlag, inheritFlag],
    attr.hasFlag flag = !measureAll
  /-- No other bit of the flags is set. -/
  bit_mem : ∀ i, attr.flags.getLsbD i = true → i ∈ [0, 1, 4, 5, 6, 10, 12, 15, 16, 20]

theorem precise_ofEvent (h : event.precise ≤ 3) :
    (ofEvent event options).precise = event.precise := by
  refine BitVec.eq_of_getLsbD_eq fun i _ => ?_
  rw [getLsbD_precise, getLsbD_flags_ofEvent, getLsbD_flags_ofEvent]
  split
  · rename_i hi
    rw [hi]
    rfl
  · split
    · rename_i hi
      rw [hi]
      rfl
    · exact (getLsbD_of_le_three h (by omega)).symm

/-- **Everything can be read back**, if the precision fits. -/
theorem carries_ofEvent (h : event.precise ≤ 3) :
    (ofEvent event options).Carries event options.measureAll := by
  have hflag : ∀ {k : Nat}, k < 64 →
      (ofEvent event options).hasFlag (BitVec.twoPow 64 k) = eventBit event options k := by
    intro k hk
    rw [hasFlag_twoPow _ hk, getLsbD_flags_ofEvent]
  obtain ⟨hdisabled, hinherit, huser, hkernel, hhypervisor, hfreq, hexec, hguest⟩ :=
    flags_eq_twoPow
  have hwords := (ofEvent_eq_applyWrites event options).trans (applyWrites_eq _ _)
  exact {
    pmuType_eq := congrArg pmuType hwords
    config_eq := congrArg config hwords
    config1_eq := congrArg config1 hwords
    config2_eq := congrArg config2 hwords
    sample_eq := congrArg sample hwords
    freq_eq := hfreq ▸ hflag (by decide)
    precise_eq := precise_ofEvent event options h
    excludeUser_eq := huser ▸ hflag (by decide)
    excludeKernel_eq := hkernel ▸ hflag (by decide)
    excludeHypervisor_eq := hhypervisor ▸ hflag (by decide)
    excludeGuest_eq := hguest ▸ hflag (by decide)
    waits_eq := by
      simp only [List.forall_mem_cons, hdisabled, hexec, hinherit]
      exact ⟨hflag (by decide), hflag (by decide), hflag (by decide),
        fun _ hmem => absurd hmem List.not_mem_nil⟩
    bit_mem := by
      intro i hi
      rw [getLsbD_flags_ofEvent] at hi
      by_contra hmem
      simp only [List.mem_cons, List.not_mem_nil, or_false, not_or] at hmem
      simp_all [eventBit] }

/-- What is carried is determined by the attribute. -/
theorem Carries.unique {attr : KernelAttribute} {event other : Attribute} {measureAll all : Bool}
    (h : attr.Carries event measureAll) (h' : attr.Carries other all) :
    event = other ∧ measureAll = all := by
  have hsampling : event.sampling = other.sampling := by
    have hvalue := h.sample_eq.symm.trans h'.sample_eq
    have hkind := h.freq_eq.symm.trans h'.freq_eq
    cases hfirst : event.sampling <;> cases hsecond : other.sampling <;>
      simp_all [Sampling.value, Sampling.isFrequency]
  constructor
  · cases event
    cases other
    simp only [Attribute.mk.injEq]
    exact ⟨h.pmuType_eq.symm.trans h'.pmuType_eq, h.config_eq.symm.trans h'.config_eq,
      h.config1_eq.symm.trans h'.config1_eq, h.config2_eq.symm.trans h'.config2_eq, hsampling,
      h.excludeUser_eq.symm.trans h'.excludeUser_eq,
      h.excludeKernel_eq.symm.trans h'.excludeKernel_eq,
      h.excludeGuest_eq.symm.trans h'.excludeGuest_eq,
      h.excludeHypervisor_eq.symm.trans h'.excludeHypervisor_eq,
      h.precise_eq.symm.trans h'.precise_eq⟩
  · have hmem : disabledFlag ∈ [disabledFlag, enableOnExecFlag, inheritFlag] :=
      List.mem_cons_self
    exact Bool.not_inj ((h.waits_eq _ hmem).symm.trans (h'.waits_eq _ hmem))

end KernelAttribute

/-! ## 3. The precision of what is resolved -/

/-- Letters raise the precision of an attribute without qualifiers to 3 at most. -/
theorem Attribute.Unqualified.precise_le {attr : Attribute} (h : attr.Unqualified)
    (letters : Text) : (attr.applyQualifiers letters).precise ≤ 3 := by
  have hall : ∀ n ≤ 3, BitVec.ofNat 8 n ≤ 3 := by decide
  rw [h.applyQualifiers_eq]
  exact hall _ (Nat.min_le_left _ _)

theorem Descriptor.precise_le_of_resolve {s : Sysfs} {t : Text} {attr : Attribute}
    (h : resolve s t = .ok attr) : attr.precise ≤ 3 := by
  rw [resolve] at h
  split at h
  · cases h
  · rename_i descriptor _
    cases descriptor with
    | raw code qualifiers =>
      rw [toAttribute] at h
      split at h
      · cases h
      · cases h
        exact Attribute.Unqualified.precise_le ⟨rfl, rfl, rfl, rfl⟩ qualifiers
    | pmu name terms qualifiers =>
      rw [toAttribute] at h
      split at h
      · cases h
      · rename_i id directory _
        have hsame := Term.withoutSettings_apply s directory terms
          { Attribute.raw with pmuType := id }
        split at h
        · cases h
        · rename_i reached hreached
          rw [hreached] at hsame
          cases h
          exact (Attribute.Unqualified.of_withoutSettings_eq ⟨rfl, rfl, rfl, rfl⟩ hsame).precise_le
            qualifiers

theorem GenericEvent.precise_of_find? {name : Text} {attr : Attribute}
    (h : find? name = some attr) : attr.precise = 0 := by
  have htype : ∀ {id events}, (name, attr) ∈ withType id events → attr.precise = 0 := by
    intro id events hmem
    obtain ⟨event, -, heq⟩ := List.mem_map.mp hmem
    cases heq
    rfl
  obtain ⟨front, back, hsplit, -⟩ := List.lookup_eq_some_iff.mp h
  have hmem : (name, attr) ∈ all := by
    rw [hsplit]
    exact List.mem_append_right _ List.mem_cons_self
  rw [all] at hmem
  rcases List.mem_append.mp hmem with hmem | hmem
  · rcases List.mem_append.mp hmem with hmem | hmem
    · exact htype hmem
    · exact htype hmem
  · exact htype hmem

theorem Resolver.precise_le_of_resolve {resolver : Resolver} {name : Text} {attr : Attribute}
    (h : (resolver.resolve name).1 = .ok attr) : attr.precise ≤ 3 := by
  rw [resolve, lookUp] at h
  split at h
  · rename_i found hfirst
    cases h
    obtain ⟨descriptor, -, hresolve⟩ := List.exists_of_findSome?_eq_some hfirst
    cases hattr : Descriptor.resolve resolver.loaded.sysfs descriptor with
    | error e =>
      rw [hattr] at hresolve
      cases hresolve
    | ok other =>
      rw [hattr] at hresolve
      cases hresolve
      exact Descriptor.precise_le_of_resolve hattr
  · split at h
    · rename_i found hfind
      cases h
      rw [GenericEvent.precise_of_find? hfind]
      decide
    · cases h

/-- **Nothing is lost.**  Take any event whose precision is at most 3, and any way to attach its
counter.  What the kernel is told carries the PMU, the configuration words, the sampling, what is
left out, the precision, and whether everything is measured, and sets no other bit of the flags.  So
two such events, or two ways to attach them of which one measures everything, are told apart.  And
the precision is at most 3 in every attribute that a descriptor or a name is resolved to. -/
theorem KernelAttribute.ofEvent_faithful :
    (∀ event options, event.precise ≤ 3 →
      (ofEvent event options).Carries event options.measureAll) ∧
    (∀ event other options options', event.precise ≤ 3 → other.precise ≤ 3 →
      ofEvent event options = ofEvent other options' →
        event = other ∧ options.measureAll = options'.measureAll) ∧
    (∀ s t event, Descriptor.resolve s t = .ok event → event.precise ≤ 3) ∧
    ∀ (resolver : Resolver) (name : Text) (event : Attribute),
      (resolver.resolve name).1 = .ok event → event.precise ≤ 3 := by
  refine ⟨carries_ofEvent, ?_, fun _ _ _ => Descriptor.precise_le_of_resolve,
    fun _ _ _ => Resolver.precise_le_of_resolve⟩
  intro event other options options' hevent hother heq
  have hcarries := carries_ofEvent other options' hother
  rw [← heq] at hcarries
  exact (carries_ofEvent event options hevent).unique hcarries

namespace Example

/-- A raw event of the kernel alone, as precise as can be. -/
def preciseEvent : Attribute :=
  { Attribute.raw with
    config := 0x1c0, sampling := .frequency 4000, excludeUser := true, precise := 3 }

end Example

open Example in
theorem KernelAttribute.ofEvent_faithful_preciseEvent :
    (preciseEvent.precise ≤ 3 ∧
      (ofEvent preciseEvent { pid := 7, measureAll := false }).flags = 0x19413) ∧
    (ofEvent preciseEvent { pid := 7, measureAll := false }).Carries preciseEvent false ∧
    ofEvent preciseEvent { pid := 7, measureAll := false } ≠
      ofEvent preciseEvent { pid := 7, measureAll := true } := by
  have hprecise : preciseEvent.precise ≤ 3 := by decide
  refine ⟨⟨hprecise, by decide⟩, ofEvent_faithful.1 preciseEvent _ hprecise, fun heq => ?_⟩
  exact absurd (ofEvent_faithful.2.1 _ _ _ _ hprecise hprecise heq).2 (by decide)

end HardwareCounters
