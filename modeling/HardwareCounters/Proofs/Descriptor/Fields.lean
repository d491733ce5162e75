/-
# From the text of a descriptor to the bits of an attribute

A descriptor that assigns numbers to bit fields of a PMU is cut into terms, each number is read, each
field is looked up and read, and the number is packed into its bits.  The theorem of this file goes
through all of that: what is read back from the bits is what was written, and no other bit is set.

* `FieldSetting.DescribedBy` is a setting that a directory of a PMU describes;
* `applyEach_fields`: settings are applied by packing them;
* `resolve_fields`: the attribute of a descriptor `CarriesOnly` the numbers of its settings.
-/
import HardwareCounters.Proofs.Bitfield.Packing
import HardwareCounters.Proofs.Descriptor.Spelling
import HardwareCounters.Proofs.Term.Applying
import HardwareCounters.Proofs.Term.Listing

namespace HardwareCounters

/-! ## 1. Settings of bit fields -/

/-- The assignment of a number to a bit field. -/
structure FieldSetting where
  assignment : Assignment
  field : Bitfield

namespace FieldSetting

def entry (setting : FieldSetting) : Bitfield × Word := (setting.field, setting.assignment.value)

/-- The setting is one for a PMU directory: the file of its key spells its field, and no range of the
field shares a bit with another. -/
structure DescribedBy (s : Sysfs) (directory : Text) (setting : FieldSetting) : Prop where
  proper : setting.assignment.Proper
  key_not_reserved : setting.assignment.key ∉ Term.reservedKeys
  format : ∃ text, s.format? directory setting.assignment.key = some text ∧
    Bitfield.parse text = .ok setting.field
  apart : setting.field.ranges.Pairwise fun a b => a.bits.Disjoint b.bits

/-- Settings without common bits. -/
def Apart (settings : List FieldSetting) : Prop :=
  settings.Pairwise fun a b => a.field.bits.Disjoint b.field.bits

instance (settings : List FieldSetting) : Decidable (Apart settings) :=
  inferInstanceAs (Decidable (settings.Pairwise fun a b => a.field.bits.Disjoint b.field.bits))

def assignments (settings : List FieldSetting) : List Assignment :=
  settings.map FieldSetting.assignment

end FieldSetting

/-- The attribute of a PMU with that type id and that sampling in which each field of the settings
has its number, cut to the width of the field, and no other bit is set. -/
structure CarriesOnly (id : BitVec 32) (sampling : Sampling) (settings : List FieldSetting)
    (attr : Attribute) : Prop where
  withoutWords_eq : attr.withoutWords = { Attribute.raw with pmuType := id, sampling }
  readBack_eq : ∀ setting ∈ settings,
    setting.field.readBack attr = setting.assignment.value.toNat % 2 ^ setting.field.width
  bit_eq_false : ∀ place, (∀ setting ∈ settings, place ∉ setting.field.bits) →
    attr.bit place = false

/-! ## 2. Applying settings -/

variable {s : Sysfs} {directory : Text} {settings : List FieldSetting}

/-- A number is assigned to a bit field by packing it. -/
theorem Assignment.Proper.applyOne_eq {a : Assignment} (h : a.Proper)
    (hkey : a.key ∉ Term.reservedKeys) {format : Text} {field : Bitfield}
    (hformat : s.format? directory a.key = some format) (hparse : Bitfield.parse format = .ok field)
    (alias? : Text → Option (Attribute → Applied)) (attr : Attribute) :
    Term.applyOne s directory alias? a.term attr = (.ok (), field.pack a.value attr) := by
  have hlabel : a.key ≠ Term.labelKey := fun heq => hkey (heq ▸ List.mem_cons_self)
  have hterm : a.term.key = a.key := rfl
  simp only [Term.applyOne, hterm, if_neg hlabel, h.number_term, Term.setDirectly?_eq_none hkey,
    hformat, hparse]

/-- A setting is applied by packing its number. -/
theorem FieldSetting.DescribedBy.applyOne_eq {setting : FieldSetting}
    (h : setting.DescribedBy s directory) (alias? : Text → Option (Attribute → Applied))
    (attr : Attribute) :
    Term.applyOne s directory alias? setting.assignment.term attr =
      (.ok (), setting.field.pack setting.assignment.value attr) := by
  obtain ⟨text, hformat, hparse⟩ := h.format
  exact h.proper.applyOne_eq h.key_not_reserved hformat hparse alias? attr

/-- **Settings are packed.**  No term of them fails. -/
theorem applyEach_fields (h : ∀ setting ∈ settings, setting.DescribedBy s directory)
    (alias? : Text → Option (Attribute → Applied)) (attr : Attribute) :
    Term.applyEach (Term.applyOne s directory alias?)
        ((FieldSetting.assignments settings).map Assignment.term) attr =
      (.ok (), packAll (settings.map FieldSetting.entry) attr) := by
  rw [FieldSetting.assignments, List.map_map, packAll, List.foldl_map]
  exact Term.applyEach_map (fun setting hsetting => (h setting hsetting).applyOne_eq alias?) attr

/-- The attribute of a PMU with that sampling and no bit set. -/
def bareAttribute (id : BitVec 32) (sampling : Sampling) : Attribute :=
  { Attribute.raw with pmuType := id, sampling }

/-- What is packed where nothing was before is carried, and nothing else. -/
theorem carriesOnly_packAll (h : ∀ setting ∈ settings, setting.DescribedBy s directory)
    (hapart : FieldSetting.Apart settings) (id : BitVec 32) (sampling : Sampling) :
    CarriesOnly id sampling settings
      (packAll (settings.map FieldSetting.entry) (bareAttribute id sampling)) := by
  have hclear : ∀ place, (bareAttribute id sampling).bit place = false := by
    rintro ⟨which, i⟩
    cases which <;> exact BitVec.getLsbD_zero
  have hdisjoint : (settings.map FieldSetting.entry).Pairwise fun a b => a.1.bits.Disjoint b.1.bits :=
    List.pairwise_map.mpr hapart
  refine ⟨withoutWords_packAll _ _, ?_, ?_⟩
  · intro setting hsetting
    exact readBack_packAll hdisjoint (List.mem_map_of_mem hsetting)
      (Bitfield.nodup_bits (h setting hsetting).apart) fun place _ => hclear place
  · intro place hplace
    rw [bit_packAll_of_not_mem, hclear]
    intro entry hentry
    obtain ⟨setting, hsetting, rfl⟩ := List.mem_map.mp hentry
    exact hplace setting hsetting

/-! ## 3. Whole descriptors -/

/-- The text of assignments may stand in a descriptor. -/
theorem Assignment.plain_listing {assignments : List Assignment}
    (h : ∀ a ∈ assignments, a.Proper) : Descriptor.Plain (Assignment.listing assignments) := by
  refine Descriptor.plain_joinWith (Descriptor.plain_iff.mpr (by simp)) ?_
  intro piece hpiece
  obtain ⟨a, ha, rfl⟩ := List.mem_map.mp hpiece
  exact Descriptor.plain_iff.mpr
    ⟨(h a ha).not_mem_text (by decide), (h a ha).not_mem_text (by decide)⟩

/-- **From text to bits.**  The descriptor of a PMU with settings that its directory describes, in
any notation of the numbers, gives the attribute that carries these numbers in their fields and
nothing else. -/
theorem resolve_fields (s : Sysfs) {pmu directory : Text} {id : BitVec 32} (hne : pmu ≠ [])
    (hplain : Descriptor.Plain pmu) (hid : s.pmuType? pmu = some (id, directory))
    {settings : List FieldSetting} (h : ∀ setting ∈ settings, setting.DescribedBy s directory)
    (hapart : FieldSetting.Apart settings) :
    ∃ attr, Descriptor.resolve s
        (pmuEvent pmu (Assignment.listing (FieldSetting.assignments settings))) = .ok attr ∧
      CarriesOnly id (.period 0) settings attr := by
  have hproper : ∀ a ∈ FieldSetting.assignments settings, a.Proper := by
    intro a ha
    obtain ⟨setting, hsetting, rfl⟩ := List.mem_map.mp ha
    exact (h setting hsetting).proper
  refine ⟨_, ?_, carriesOnly_packAll h hapart id (.period 0)⟩
  refine Descriptor.resolve_pmuEvent hne hplain (Assignment.plain_listing hproper) hid ?_
  rw [Term.apply, Term.applyText, Assignment.parseList?_listing hproper]
  exact applyEach_fields h _ _

namespace Example

/-- A PMU of type 4 with two fields, one of which has its ranges in two places of another word. -/
def coreFiles : FileTree :=
  ((({} : FileTree).write "/sys/cpu/type".toList (.text "4".toList)).write
    "/sys/cpu/format/event".toList (.text "config:0-7".toList)).write
    "/sys/cpu/format/ldlat".toList (.text "config1:36-32,0-1".toList)

def coreSysfs : Sysfs := ⟨"/sys".toList, coreFiles⟩

def eventField : Bitfield := ⟨.config, [⟨0, 7, by decide, by decide⟩]⟩

/-- The field of the latency register. -/
def latencyField : Bitfield :=
  ⟨.config1, [⟨32, 36, by decide, by decide⟩, ⟨0, 1, by decide, by decide⟩]⟩

/-- A number that is too large for its field, and an octal one. -/
def coreSettings : List FieldSetting :=
  [⟨⟨"event".toList, "0x12E ".toList, 0x12E⟩, eventField⟩,
    ⟨⟨"ldlat".toList, "0o123".toList, 83⟩, latencyField⟩]

theorem coreSettings_describedBy :
    ∀ setting ∈ coreSettings, setting.DescribedBy coreSysfs "cpu".toList := by
  rw [coreSettings, List.forall_mem_cons, List.forall_mem_singleton]
  constructor
  · exact ⟨⟨by decide, by decide, by simp, rfl⟩, by decide +kernel, ⟨_, rfl, rfl⟩,
      by decide⟩
  · exact ⟨⟨by decide, by decide, by simp, rfl⟩, by decide +kernel, ⟨_, rfl, rfl⟩,
      by decide⟩

theorem coreSettings_apart : FieldSetting.Apart coreSettings := by decide

end Example

open Example in
theorem resolve_fields_coreSettings :
    ("cpu".toList ≠ [] ∧ Descriptor.Plain "cpu".toList ∧
      coreSysfs.pmuType? "cpu".toList = some (4, "cpu".toList) ∧
      (∀ setting ∈ coreSettings, setting.DescribedBy coreSysfs "cpu".toList) ∧
      FieldSetting.Apart coreSettings) ∧
    ∃ attr, Descriptor.resolve coreSysfs
        (pmuEvent "cpu".toList (Assignment.listing (FieldSetting.assignments coreSettings))) =
          .ok attr ∧
      CarriesOnly 4 (.period 0) coreSettings attr :=
  ⟨⟨by decide, Descriptor.plain_iff.mpr (by simp), rfl, coreSettings_describedBy,
      coreSettings_apart⟩,
    resolve_fields coreSysfs (by decide) (Descriptor.plain_iff.mpr (by simp)) rfl
      coreSettings_describedBy coreSettings_apart⟩

end HardwareCounters
