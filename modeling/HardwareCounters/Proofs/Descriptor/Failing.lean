/-
# Which errors a descriptor can give

A descriptor that cannot be resolved should give an error that concerns this one event, because
everything that is read on the way, the descriptor itself and the files of its PMU, belongs to it.
Nearly all failures are of that kind.  Those that are not come from numbers that are handed over to a
reader of machine integers without a word about where they stand: the code of a raw event and the
bits of a field.  A number in a term fails as that term.

* `Descriptor.NumberFault` are the descriptors with such a number;
* `Descriptor.resolve_error_classified` says that these and no others fail with an error that does
  not concern an event, and `hugeCode_not_resolveError` is one of them.
-/
import HardwareCounters.Proofs.Descriptor.Spelling
import HardwareCounters.Proofs.Term.Failing

namespace HardwareCounters

namespace Descriptor

variable {s : Sysfs} {t code qualifiers name terms : Text}

/-! ## 1. Raw codes -/

/-- The code of a raw event is a text of hexadecimal digits. -/
theorem code_of_parse? (h : parse? t = some (.raw code qualifiers)) :
    code ≠ [] ∧ Numeral.AllDigits 16 code := by
  rw [parse?] at h
  split at h
  · rename_i hraw
    obtain ⟨_, _, heq, hne, hdigits⟩ := exists_code_of_raw? hraw
    cases h
    cases heq
    refine ⟨hne, fun c hc => ?_⟩
    have hdigit := hdigits c hc
    rwa [isHexDigit, Option.isSome_iff_ne_none] at hdigit
  · simp only [pmu?] at h
    split at h
    · cases h
    · obtain ⟨letters, -, hpmu⟩ := Option.map_eq_some_iff.mp h
      cases hpmu
    · cases h

/-- **A raw code is read** if and only if it fits in a word. -/
theorem exists_readUnsigned_code_iff (h : parse? t = some (.raw code qualifiers)) :
    (∃ n, Numeral.readUnsigned 16 Numeral.limit64 code = .ok n) ↔
      Numeral.digitsValue 16 0 code < Numeral.limit64 := by
  obtain ⟨hne, hdigits⟩ := code_of_parse? h
  have hplus : code.head? ≠ some '+' := by
    intro hhead
    have hnone : Numeral.digitValue? 16 '+' = none := by decide
    exact hdigits '+' (List.mem_of_head? hhead) hnone
  rw [Numeral.exists_readUnsigned_iff (by decide) hne hplus]
  exact and_iff_right hdigits

/-! ## 2. Descriptors with a number at fault -/

/-- The descriptor is a raw event whose code does not fit in a word, or an event of a PMU for which
the text of a bit field is looked at that names a bit by a number of more than 32 bits or by digits of
another script. -/
inductive NumberFault (s : Sysfs) (t : Text) : Prop
  | code {code qualifiers : Text} (hparse : parse? t = some (.raw code qualifiers))
      (hlarge : Numeral.limit64 ≤ Numeral.digitsValue 16 0 code) : NumberFault s t
  | bit {name terms qualifiers directory format : Text} {id : BitVec 32}
      (hparse : parse? t = some (.pmu name terms qualifiers))
      (hid : s.pmuType? name = some (id, directory))
      (hreaches : Term.ReachesFormat s directory terms { Attribute.raw with pmuType := id } format)
      (hhuge : Bitfield.NamesHugeBit format) : NumberFault s t

theorem resolve_raw_error_cases (hparse : parse? t = some (.raw code qualifiers)) {e : Error}
    (h : resolve s t = .error e) : (∃ cause, e = .number cause) ∧ NumberFault s t := by
  rw [resolve, hparse] at h
  simp only [toAttribute] at h
  cases hread : Numeral.readUnsigned 16 Numeral.limit64 code with
  | ok n =>
    rw [hread] at h
    cases h
  | error cause =>
    rw [hread] at h
    cases h
    refine ⟨⟨cause, rfl⟩, .code hparse ?_⟩
    by_contra hsmall
    obtain ⟨n, hn⟩ := (exists_readUnsigned_code_iff hparse).mpr (Nat.lt_of_not_le hsmall)
    rw [hread] at hn
    cases hn

theorem resolve_pmu_error_cases (hparse : parse? t = some (.pmu name terms qualifiers)) {e : Error}
    (h : resolve s t = .error e) :
    e.isResolveError = true ∨ (∃ cause, e = .number cause) ∧ NumberFault s t := by
  cases hid : s.pmuType? name with
  | none =>
    rw [resolve_pmu_of_unknown hparse hid] at h
    cases h
    exact Or.inl rfl
  | some found =>
    obtain ⟨id, directory⟩ := found
    have hfails := (resolve_pmu_eq_error_iff hparse hid).mp h
    rcases Term.apply_error_cases hfails with hevent | ⟨hcause, format, hreaches, hhuge⟩
    · exact Or.inl hevent
    · exact Or.inr ⟨hcause, .bit hparse hid hreaches hhuge⟩

/-- Where a number is at fault, it is what is reported. -/
theorem exists_number_of_numberFault (h : NumberFault s t) :
    ∃ cause, resolve s t = .error (.number cause) := by
  cases h with
  | @code code qualifiers hparse hlarge =>
    cases hread : Numeral.readUnsigned 16 Numeral.limit64 code with
    | ok n =>
      have hsmall := (exists_readUnsigned_code_iff hparse).mp ⟨n, hread⟩
      exact absurd hsmall (Nat.not_lt_of_le hlarge)
    | error cause =>
      refine ⟨cause, ?_⟩
      rw [resolve, hparse]
      simp only [toAttribute, hread]
  | bit hparse hid hreaches hhuge =>
    obtain ⟨cause, hcause⟩ := Term.exists_number_of_reachesFormat hreaches hhuge
    exact ⟨cause, (resolve_pmu_eq_error_iff hparse hid).mpr hcause⟩

/-! ## 3. The errors of descriptors -/

/-- **The errors of descriptors.**  Whatever the files and the descriptor, an error concerns the one
event unless it is the fault of a number; and it is the fault of a number if and only if the
descriptor is a raw event whose code does not fit in a word, or looks at a bit field that names a bit
by a number of more than 32 bits or in digits of another script. -/
theorem resolve_error_classified (s : Sysfs) (t : Text) :
    (∀ e, resolve s t = .error e → (e.isResolveError = false ↔ ∃ cause, e = .number cause)) ∧
    ((∃ cause, resolve s t = .error (.number cause)) ↔ NumberFault s t) := by
  have hcases : ∀ e, resolve s t = .error e →
      e.isResolveError = true ∨ (∃ cause, e = .number cause) ∧ NumberFault s t := by
    intro e h
    cases hparse : parse? t with
    | none =>
      rw [resolve, hparse] at h
      cases h
      exact Or.inl rfl
    | some descriptor =>
      cases descriptor with
      | raw code qualifiers => exact Or.inr (resolve_raw_error_cases hparse h)
      | pmu name terms qualifiers => exact resolve_pmu_error_cases hparse h
  refine ⟨fun e h => ⟨fun hother => ?_, ?_⟩, ⟨?_, exists_number_of_numberFault⟩⟩
  · rcases hcases e h with hevent | ⟨hcause, -⟩
    · rw [hother] at hevent
      cases hevent
    · exact hcause
  · rintro ⟨cause, rfl⟩
    rfl
  · rintro ⟨cause, h⟩
    rcases hcases _ h with hevent | ⟨-, hfault⟩
    · cases hevent
    · exact hfault

end Descriptor

namespace Example

/-- A PMU with a field whose bit has a number of more than 32 bits. -/
def farBitFiles : FileTree :=
  (({} : FileTree).write "/sys/cpu/type".toList (.text ['4'])).write
    "/sys/cpu/format/event".toList (.text "config:4294967296".toList)

/-- The description of that PMU. -/
def farBitSysfs : Sysfs := ⟨"/sys".toList, farBitFiles⟩

end Example

open Example in
theorem Descriptor.resolve_error_classified_farBit :
    Descriptor.resolve farBitSysfs "cpu/event=1/".toList = .error (.number .tooLarge) ∧
    (Error.number .tooLarge).isResolveError = false ∧
    NumberFault farBitSysfs "cpu/event=1/".toList := by
  have hresolve : Descriptor.resolve farBitSysfs "cpu/event=1/".toList =
      .error (.number .tooLarge) := rfl
  obtain ⟨hclass, hfault⟩ := resolve_error_classified farBitSysfs "cpu/event=1/".toList
  exact ⟨hresolve, (hclass _ hresolve).mpr ⟨_, rfl⟩, hfault.mp ⟨_, hresolve⟩⟩

open Example in
/-- A raw event whose code has one digit too many fails with an error that does not concern an
event. -/
theorem Descriptor.hugeCode_not_resolveError :
    ∃ e, Descriptor.resolve farBitSysfs "r10000000000000000".toList = .error e ∧
      e.isResolveError = false :=
  ⟨_, rfl, rfl⟩

end HardwareCounters
