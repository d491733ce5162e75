/-
# Descriptors with a sampling period

Besides the numbers of bit fields a descriptor may assign the sampling period.  The two do not meet:
the fields are packed as if the period were not there, and the last period stays.

* `applyEach_assignments`: assignments to bit fields and to the sampling period are applied;
* `resolve_assignments`: the attribute of a descriptor of such assignments `CarriesOnly` them.
-/
import HardwareCounters.Proofs.Descriptor.Fields

namespace HardwareCounters

variable {s : Sysfs} {directory : Text} {fields : Text → Bitfield} {assignments : List Assignment}

/-! ## 1. What assignments do -/

def periodKey : Text := "period".toList

/-- The assignments to bit fields, where `fields` gives the field of a key. -/
def fieldSettings (fields : Text → Bitfield) (assignments : List Assignment) : List FieldSetting :=
  (assignments.filter fun a => a.key ≠ periodKey).map fun a => ⟨a, fields a.key⟩

/-- The sampling that assignments leave. -/
def samplingOf (sampling : Sampling) (assignments : List Assignment) : Sampling :=
  (assignments.filter fun a => a.key = periodKey).foldl (fun _ a => .period a.value) sampling

/-- What an assignment does to an attribute. -/
def Assignment.act (fields : Text → Bitfield) (a : Assignment) (attr : Attribute) : Attribute :=
  if a.key = periodKey then { attr with sampling := .period a.value }
  else (fields a.key).pack a.value attr

/-- Packing and setting the sampling period can be told apart. -/
theorem foldl_act (fields : Text → Bitfield) (assignments : List Assignment) (attr : Attribute) :
    assignments.foldl (fun attr a => a.act fields attr) attr =
      packAll ((fieldSettings fields assignments).map FieldSetting.entry)
        { attr with sampling := samplingOf attr.sampling assignments } := by
  induction assignments generalizing attr with
  | nil => rfl
  | cons a assignments ih =>
    rw [List.foldl_cons, ih, Assignment.act]
    by_cases hkey : a.key = periodKey
    · simp [hkey, fieldSettings, samplingOf]
    · have hsampling : ((fields a.key).pack a.value attr).sampling = attr.sampling := by
        rw [Bitfield.pack]
        cases (fields a.key).word <;> rfl
      simp [hkey, fieldSettings, samplingOf, FieldSetting.entry, hsampling,
        Bitfield.pack_setSampling]

theorem applyOne_period {a : Assignment} (h : a.Proper) (hkey : a.key = periodKey)
    (alias? : Text → Option (Attribute → Applied)) (attr : Attribute) :
    Term.applyOne s directory alias? a.term attr =
      (.ok (), { attr with sampling := .period a.value }) := by
  have hterm : a.term.key = periodKey := hkey
  have hlabel : periodKey ≠ Term.labelKey := by decide
  simp only [Term.applyOne, hterm, if_neg hlabel, h.number_term, Term.setDirectly?]
  rfl

/-- **Assignments are applied.**  Those to bit fields are packed, and the last one to the sampling
period stays. -/
theorem applyEach_assignments (hproper : ∀ a ∈ assignments, a.Proper)
    (h : ∀ setting ∈ fieldSettings fields assignments, setting.DescribedBy s directory)
    (alias? : Text → Option (Attribute → Applied)) (attr : Attribute) :
    Term.applyEach (Term.applyOne s directory alias?) (assignments.map Assignment.term) attr =
      (.ok (), packAll ((fieldSettings fields assignments).map FieldSetting.entry)
        { attr with sampling := samplingOf attr.sampling assignments }) := by
  rw [← foldl_act]
  refine Term.applyEach_map (fun a ha attr => ?_) attr
  rw [Assignment.act]
  split
  · rename_i hkey
    exact applyOne_period (hproper a ha) hkey alias? attr
  · rename_i hkey
    have hsetting : (⟨a, fields a.key⟩ : FieldSetting) ∈ fieldSettings fields assignments :=
      List.mem_map.mpr ⟨a, List.mem_filter.mpr ⟨ha, by simpa using hkey⟩, rfl⟩
    exact (h _ hsetting).applyOne_eq alias? attr

/-! ## 2. Whole descriptors -/

/-- **From text to bits, with a sampling period.**  The descriptor of a PMU with assignments to bit
fields of its directory and to the sampling period gives the attribute that carries the numbers. -/
theorem resolve_assignments {pmu : Text} {id : BitVec 32} (hne : pmu ≠ [])
    (hplain : Descriptor.Plain pmu) (hid : s.pmuType? pmu = some (id, directory))
    (hproper : ∀ a ∈ assignments, a.Proper)
    (h : ∀ setting ∈ fieldSettings fields assignments, setting.DescribedBy s directory)
    (hapart : FieldSetting.Apart (fieldSettings fields assignments)) :
    ∃ attr, Descriptor.resolve s (pmuEvent pmu (Assignment.listing assignments)) = .ok attr ∧
      CarriesOnly id (samplingOf (.period 0) assignments) (fieldSettings fields assignments)
        attr := by
  refine ⟨_, ?_, carriesOnly_packAll h hapart id (samplingOf (.period 0) assignments)⟩
  refine Descriptor.resolve_pmuEvent hne hplain (Assignment.plain_listing hproper) hid ?_
  rw [Term.apply, Term.applyText, Assignment.parseList?_listing hproper]
  exact applyEach_assignments hproper h _ _

end HardwareCounters
