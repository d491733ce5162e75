/-
# The PMU of an attribute

Terms and qualifiers fill the words of an attribute and choose how it counts.  Which PMU it belongs to
is settled before, by the name in front of the terms, and nothing that follows can change it: neither a
term that sets a word as a whole, nor a bit field, nor an alias.

* `Term.withoutSettings_apply`: terms set words and the sampling and leave the rest as it is, also
  where they fail;
* `Descriptor.exists_pmuType_of_resolve`: an event of a PMU has the type that was found under its name;
* `Descriptor.pmuType_of_slash_not_mem`: a descriptor without slashes is a raw event.
-/
import HardwareCounters.Proofs.Descriptor.Spelling
import Mathlib.Tactic.SplitIfs

namespace HardwareCounters

/-! ## 1. What terms and qualifiers leave alone -/

namespace Attribute

/-- What the attribute says besides its configuration words and its sampling. -/
def withoutSettings (attr : Attribute) : Attribute :=
  { attr with config := 0, config1 := 0, config2 := 0, sampling := .period 0 }

theorem withoutSettings_setWord (attr : Attribute) (which : ConfigWord) (value : Word) :
    (attr.setWord which value).withoutSettings = attr.withoutSettings := by
  cases which with
  | config => rfl
  | config1 => rfl
  | config2 => rfl

theorem pmuType_applyQualifier (attr : Attribute) (letter : Char) :
    (attr.applyQualifier letter).pmuType = attr.pmuType := by
  rw [applyQualifier]
  split_ifs <;> rfl

theorem pmuType_applyQualifiers (attr : Attribute) (letters : Text) :
    (attr.applyQualifiers letters).pmuType = attr.pmuType := by
  induction letters generalizing attr with
  | nil => rfl
  | cons letter letters ih =>
    have hrest := ih (attr.applyQualifier letter)
    rw [pmuType_applyQualifier] at hrest
    exact hrest

end Attribute

namespace Term

variable {step : Term → Attribute → Applied} {s : Sysfs} {directory : Text}
  {alias? : Text → Option (Attribute → Applied)}

/-- The action changes nothing but configuration words and the sampling. -/
def OnlySets (action : Attribute → Applied) : Prop :=
  ∀ attr, (action attr).2.withoutSettings = attr.withoutSettings

theorem onlySets_applyEach (h : ∀ term, OnlySets (step term)) (terms : List Term) :
    OnlySets (applyEach step terms) := by
  induction terms with
  | nil => exact fun attr => rfl
  | cons term terms ih =>
    intro attr
    have hterm := h term attr
    rw [applyEach]
    rcases hstep : step term attr with ⟨_ | _, next⟩
    · rw [hstep] at hterm
      exact hterm
    · rw [hstep] at hterm
      exact (ih next).trans hterm

theorem onlySets_applyText (h : ∀ term, OnlySets (step term)) (text : Text) :
    OnlySets (applyText step text) := by
  intro attr
  rw [applyText]
  split
  · rfl
  · exact onlySets_applyEach h _ attr

theorem withoutSettings_of_setDirectly? {key : Text} {value : Word} {attr next : Attribute}
    (h : setDirectly? key value attr = some next) :
    next.withoutSettings = attr.withoutSettings := by
  simp only [setDirectly?] at h
  split_ifs at h <;> cases h <;> rfl

/-- A term sets nothing else if the aliases do not. -/
theorem onlySets_applyOne (halias : ∀ key action, alias? key = some action → OnlySets action)
    (term : Term) : OnlySets (applyOne s directory alias? term) := by
  intro attr
  rw [applyOne]
  split
  · rfl
  · split
    · rfl
    · split
      · rename_i hdirect
        exact withoutSettings_of_setDirectly? hdirect
      · split
        · split
          · exact Attribute.withoutSettings_setWord _ _ _
          · rfl
        · split
          · rename_i haction
            exact halias _ _ haction attr
          · rfl

/-- **Terms set configuration words and the sampling** and nothing else, also where one of them
fails. -/
theorem withoutSettings_apply (s : Sysfs) (directory terms : Text) (attr : Attribute) :
    (apply s directory terms attr).2.withoutSettings = attr.withoutSettings := by
  have hexpansion : ∀ key action, aliasAction? s directory key = some action →
      OnlySets action := by
    intro key action haction
    obtain ⟨expansion, -, rfl⟩ := Option.map_eq_some_iff.mp haction
    refine onlySets_applyText (onlySets_applyOne ?_) expansion
    intro key action hnone
    cases hnone
  exact onlySets_applyText (onlySets_applyOne hexpansion) terms attr

/-- Terms leave the type of the PMU as it is, also where one of them fails. -/
theorem pmuType_apply (s : Sysfs) (directory terms : Text) (attr : Attribute) :
    (apply s directory terms attr).2.pmuType = attr.pmuType := by
  have htype := congrArg Attribute.pmuType (withoutSettings_apply s directory terms attr)
  exact htype

end Term

/-! ## 2. Descriptors -/

namespace Descriptor

variable {s : Sysfs} {t pmu name code terms qualifiers : Text} {attr : Attribute}

theorem pmuType_of_raw (hparse : parse? t = some (.raw code qualifiers))
    (h : resolve s t = .ok attr) : attr.pmuType = Attribute.rawType := by
  rw [resolve, hparse] at h
  simp only [toAttribute] at h
  split at h
  · cases h
  · cases h
    exact Attribute.pmuType_applyQualifiers _ qualifiers

theorem exists_pmuType_of_pmu (hparse : parse? t = some (.pmu name terms qualifiers))
    (h : resolve s t = .ok attr) : ∃ directory, s.pmuType? name = some (attr.pmuType, directory) := by
  cases hid : s.pmuType? name with
  | none =>
    rw [resolve_pmu_of_unknown hparse hid] at h
    cases h
  | some found =>
    obtain ⟨id, directory⟩ := found
    obtain ⟨reached, happly, rfl⟩ := (resolve_pmu_eq_ok_iff hparse hid).mp h
    have htype := Term.pmuType_apply s directory terms { Attribute.raw with pmuType := id }
    rw [happly] at htype
    refine ⟨directory, ?_⟩
    rw [Attribute.pmuType_applyQualifiers, htype]

/-- **The event of a PMU** has the type that is found under the name of the PMU, whatever the terms
and qualifiers are. -/
theorem exists_pmuType_of_resolve (hne : pmu ≠ []) (hpmu : Plain pmu)
    (h : resolve s (pmuEvent pmu terms) = .ok attr) :
    ∃ directory, s.pmuType? pmu = some (attr.pmuType, directory) := by
  cases hparse : parse? (pmuEvent pmu terms) with
  | none =>
    rw [resolve, hparse] at h
    cases h
  | some descriptor =>
    have hread := hparse
    rw [parse?_pmuEvent_eq hne hpmu] at hread
    obtain ⟨letters, -, rfl⟩ := Option.map_eq_some_iff.mp hread
    exact exists_pmuType_of_pmu hparse h

/-- A text without slashes names no PMU. -/
theorem pmu?_of_slash_not_mem (h : '/' ∉ t) : pmu? t = none := by
  have hslash : dropSlash t = t := by
    rw [dropSlash.eq_def]
    split
    · exact absurd List.mem_cons_self h
    · rfl
  simp only [pmu?, hslash]
  split
  · rfl
  · rename_i rest hbehind _
    have hmem : '/' ∈ t.dropWhile isPlain := hbehind ▸ List.mem_cons_self
    exact absurd ((List.dropWhile_suffix isPlain).subset hmem) h
  · rfl

/-- **A descriptor without slashes** is a raw event. -/
theorem pmuType_of_slash_not_mem (hslash : '/' ∉ t) (h : resolve s t = .ok attr) :
    (∃ code qualifiers, parse? t = some (.raw code qualifiers)) ∧
      attr.pmuType = Attribute.rawType := by
  have hparse : parse? t = raw? t := by
    rw [parse?, pmu?_of_slash_not_mem hslash]
    cases raw? t <;> rfl
  cases hraw : raw? t with
  | none =>
    rw [resolve, hparse, hraw] at h
    cases h
  | some descriptor =>
    obtain ⟨code, qualifiers, rfl, -⟩ := exists_code_of_raw? hraw
    rw [hraw] at hparse
    exact ⟨⟨code, qualifiers, hparse⟩, pmuType_of_raw hparse h⟩

end Descriptor

end HardwareCounters
