/-
# Events with a fixed encoding

The terms of three events are fixed, so that what a catalog says about their encoding must not
matter.  The override is chosen by the name of the event that was found, and the event is found by
the name that was asked for.  These are the same name because a catalog keeps each event under its
own key, which `Catalog.Made.keyed` says of every catalog that can be made.

* `catalogDescriptor?_eq`: two catalogs that agree but for these encodings give the same descriptors;
* `FixedEvent.MappedBy.apply_eq`: the attribute of an event with a fixed encoding;
* `fixedEvents_shielded` puts the two together.
-/
import HardwareCounters.Proofs.Catalog.Made
import HardwareCounters.Proofs.Resolver.Record
import HardwareCounters.Proofs.Resolver.Repetition

namespace HardwareCounters

/-! ## 1. The fixed encodings -/

/-- An event whose encoding is fixed: its key, its code, and whether it counts for all threads of a
core. -/
structure FixedEvent where
  key : Text
  code : BitVec 8
  anyThread : Bool
  deriving DecidableEq

namespace FixedEvent

/-- The events whose encodings are fixed. -/
def all : List FixedEvent :=
  [⟨"inst_retired.any".toList, 0xc0, false⟩, ⟨"cpu_clk_unhalted.thread".toList, 0x3c, false⟩,
    ⟨"cpu_clk_unhalted.thread_any".toList, 0x3c, true⟩]

/-- The assignment that counts for all threads. -/
def anyAssignment : Assignment := CatalogEvent.assign "any".toList ['1']

/-- The assignments that encode the event. -/
def assignments (fixed : FixedEvent) : List Assignment :=
  CatalogEvent.codeAssignment (fixed.code.setWidth 64) ::
    if fixed.anyThread then [anyAssignment] else []

/-- The encodings are those that replace what a catalog says. -/
theorem lookup_key {fixed : FixedEvent} (h : fixed ∈ all) :
    Resolver.fixedEncodings.lookup fixed.key = some (Assignment.listing fixed.assignments) := by
  have hall : ∀ fixed ∈ all,
      Resolver.fixedEncodings.lookup fixed.key = some (Assignment.listing fixed.assignments) := by
    decide +kernel
  exact hall fixed h

theorem known_anyAssignment : CatalogEvent.Known anyAssignment := by
  constructor
  · decide +kernel
  · rfl

theorem known_of_mem_assignments {fixed : FixedEvent} {a : Assignment}
    (h : a ∈ fixed.assignments) : CatalogEvent.Known a := by
  rw [assignments, List.mem_cons] at h
  rcases h with rfl | h
  · exact CatalogEvent.known_codeAssignment _
  · split at h
    · rw [List.mem_singleton.mp h]
      exact known_anyAssignment
    · cases h

end FixedEvent

/-! ## 2. Catalogs that agree -/

/-- Two catalogs have the same keys and the same events, except that the events with a fixed encoding
need only be counted by the same PMU. -/
structure Catalog.AgreeButFixed (catalog other : Catalog) : Prop where
  event_eq : ∀ key ∉ FixedEvent.all.map FixedEvent.key,
    catalog.events.find? key = other.events.find? key
  pmu_eq : ∀ fixed ∈ FixedEvent.all,
    (catalog.events.find? fixed.key).map CatalogEvent.pmu =
      (other.events.find? fixed.key).map CatalogEvent.pmu

namespace Resolver

variable {catalog other : Catalog}

/-- The encoding of a catalog is replaced by the key of the event that was found, which is the key
that was asked for. -/
theorem encodingOf_of_fixed (hkeyed : catalog.events.Keyed) {fixed : FixedEvent}
    (hfixed : fixed ∈ FixedEvent.all) {name : Text} (hname : Text.lowercase name = fixed.key)
    {event : CatalogEvent} (hfind : catalog.find? name = some event) :
    encodingOf event = Assignment.listing fixed.assignments := by
  rw [Catalog.find?, hname] at hfind
  rw [encodingOf, hkeyed fixed.key event hfind, FixedEvent.lookup_key hfixed, Option.getD_some]

theorem catalogDescriptor?_of_fixed (hkeyed : catalog.events.Keyed) {fixed : FixedEvent}
    (hfixed : fixed ∈ FixedEvent.all) {name : Text} (hname : Text.lowercase name = fixed.key) :
    catalogDescriptor? catalog name =
      ((catalog.events.find? fixed.key).map CatalogEvent.pmu).map
        fun pmu => pmuEvent pmu (Assignment.listing fixed.assignments) := by
  rw [← hname]
  change _ = ((catalog.find? name).map CatalogEvent.pmu).map _
  rw [catalogDescriptor?]
  cases hfind : catalog.find? name with
  | none => rfl
  | some event =>
    rw [Option.map_some, Option.map_some, Option.map_some,
      encodingOf_of_fixed hkeyed hfixed hname hfind]

theorem catalogDescriptor?_eq (h : catalog.AgreeButFixed other) (hkeyed : catalog.events.Keyed)
    (hkeyed' : other.events.Keyed) (name : Text) :
    catalogDescriptor? catalog name = catalogDescriptor? other name := by
  by_cases hfixed : ∃ fixed ∈ FixedEvent.all, fixed.key = Text.lowercase name
  · obtain ⟨fixed, hmem, hkey⟩ := hfixed
    rw [catalogDescriptor?_of_fixed hkeyed hmem hkey.symm,
      catalogDescriptor?_of_fixed hkeyed' hmem hkey.symm, h.pmu_eq fixed hmem]
  · have hkey : Text.lowercase name ∉ FixedEvent.all.map FixedEvent.key := by
      intro hmem
      exact hfixed (List.mem_map.mp hmem)
    rw [catalogDescriptor?, catalogDescriptor?, Catalog.find?, Catalog.find?, h.event_eq _ hkey]

/-- A catalog that has events is not loaded. -/
theorem resolve_of_events_ne_nil {s : Sysfs} (hne : catalog.events ≠ []) (name : Text) :
    ((⟨s, catalog⟩ : Resolver).resolve name).1 = lookUp s catalog (Text.trim name) := by
  have hsettled : ¬ catalog.Unsettled := by
    intro hunsettled
    exact hne (List.isEmpty_iff.mp hunsettled.1)
  rw [resolve, loaded, Catalog.ensureLoaded_of_not_unsettled hsettled]

end Resolver

/-! ## 3. Fields of known bits -/

/-- The directory of a PMU maps a term to bits of the configuration words, the lowest bit of its
number first. -/
def Sysfs.MapsTo (s : Sysfs) (directory key : Text) (bits : List WordBit) : Prop :=
  ∃ format field, s.format? directory key = some format ∧ Bitfield.parse format = .ok field ∧
    field.bits = bits

namespace Bitfield

/-- The field of the bits of the first word from `lo` to `hi`. -/
def ofConfig (lo hi : Nat) (hle : lo ≤ hi) (hlt : hi < 64) : Bitfield :=
  ⟨.config, [⟨lo, hi, hle, hlt⟩]⟩

theorem pack_ofConfig {lo hi : Nat} (hle : lo ≤ hi) (hlt : hi < 64) (value : Word)
    (attr : Attribute) :
    (ofConfig lo hi hle hlt).pack value attr =
      { attr with config := attr.config ||| ((value &&& lowBits (hi - lo + 1)) <<< lo) } := rfl

theorem bits_ofConfig_self (i : Nat) (hlt : i < 64) :
    (ofConfig i i (Nat.le_refl i) hlt).bits = [(.config, i)] := by
  simp [ofConfig, bits, positions, BitRange.bits, BitRange.width]

/-- A byte has no bits but the lowest eight. -/
theorem setWidth_and_lowBits (code : BitVec 8) :
    code.setWidth 64 &&& lowBits 8 = code.setWidth 64 := by
  apply BitVec.eq_of_getLsbD_eq
  intro i hi
  rw [BitVec.getLsbD_and, getLsbD_lowBits, BitVec.getLsbD_setWidth]
  by_cases hbyte : i < 8
  · simp [hi, hbyte]
  · simp [BitVec.getLsbD_of_ge code i (by omega)]

end Bitfield

variable {s : Sysfs} {directory : Text}

/-- A known assignment to a key that is mapped to the bits of a field is packed into that field. -/
theorem Sysfs.MapsTo.applyOne_eq {a : Assignment} {field : Bitfield}
    (h : s.MapsTo directory a.key field.bits) (hknown : CatalogEvent.Known a)
    (hperiod : a.key ≠ periodKey) (alias? : Text → Option (Attribute → Applied))
    (attr : Attribute) :
    Term.applyOne s directory alias? a.term attr = (.ok (), field.pack a.value attr) := by
  obtain ⟨format, parsed, hformat, hparse, hbits⟩ := h
  rw [hknown.proper.applyOne_eq (CatalogEvent.not_mem_reservedKeys hknown.1 hperiod) hformat hparse,
    Bitfield.pack_eq_of_bits_eq hbits]

/-! ## 4. The attribute of an event with a fixed encoding -/

namespace FixedEvent

/-- The directory of a PMU maps the code of events to the lowest eight bits of the first word and, if
the event needs it, the term for all threads to one bit above these. -/
structure MappedBy (fixed : FixedEvent) (s : Sysfs) (directory : Text) (anyBit : Nat) : Prop where
  event : s.MapsTo directory "event".toList ((List.range 8).map fun i => (.config, i))
  any : fixed.anyThread = true → 7 < anyBit ∧ s.MapsTo directory "any".toList [(.config, anyBit)]

/-- The attribute of the event: the type of the PMU, the code, the bit for all threads if the event
needs it, and nothing else. -/
def toAttribute (fixed : FixedEvent) (id : BitVec 32) (anyBit : Nat) : Attribute :=
  { Attribute.raw with
    pmuType := id
    config := fixed.code.setWidth 64 ||| if fixed.anyThread then 1#64 <<< anyBit else 0 }

variable {fixed : FixedEvent} {anyBit : Nat}

/-- The bit for all threads is not in the lowest byte. -/
theorem MappedBy.setWidth_config (h : fixed.MappedBy s directory anyBit) (id : BitVec 32) :
    (fixed.toAttribute id anyBit).config.setWidth 8 = fixed.code := by
  apply BitVec.eq_of_getLsbD_eq
  intro i hi
  rw [toAttribute, BitVec.getLsbD_setWidth, BitVec.getLsbD_or, BitVec.getLsbD_setWidth]
  split
  · rename_i hany
    obtain ⟨habove, -⟩ := h.any hany
    have hlt : i < anyBit := by omega
    have hword : i < 64 := by omega
    simp [hi, hlt, hword]
  · have hword : i < 64 := by omega
    simp [hi, hword]

theorem MappedBy.applyOne_code (h : fixed.MappedBy s directory anyBit)
    (alias? : Text → Option (Attribute → Applied)) (attr : Attribute) :
    Term.applyOne s directory alias?
        (CatalogEvent.codeAssignment (fixed.code.setWidth 64)).term attr =
      (.ok (), { attr with config := attr.config ||| fixed.code.setWidth 64 }) := by
  have hmaps : s.MapsTo directory (CatalogEvent.codeAssignment (fixed.code.setWidth 64)).key
      (Bitfield.ofConfig 0 7 (by decide) (by decide)).bits := h.event
  have hperiod : (CatalogEvent.codeAssignment (fixed.code.setWidth 64)).key ≠ periodKey := by
    change "event".toList ≠ periodKey
    decide
  have hvalue : ((CatalogEvent.codeAssignment (fixed.code.setWidth 64)).value &&&
      Bitfield.lowBits (7 - 0 + 1)) <<< 0 = fixed.code.setWidth 64 := by
    rw [BitVec.shiftLeft_zero]
    exact Bitfield.setWidth_and_lowBits fixed.code
  rw [hmaps.applyOne_eq (CatalogEvent.known_codeAssignment _) hperiod, Bitfield.pack_ofConfig,
    hvalue]

theorem MappedBy.applyOne_any (h : fixed.MappedBy s directory anyBit)
    (hany : fixed.anyThread = true) (alias? : Text → Option (Attribute → Applied))
    (attr : Attribute) :
    Term.applyOne s directory alias? anyAssignment.term attr =
      (.ok (), { attr with config := attr.config ||| 1#64 <<< anyBit }) := by
  obtain ⟨-, format, field, hformat, hparse, hbits⟩ := h.any hany
  have hmem : ((.config, anyBit) : WordBit) ∈ field.bits := by
    rw [hbits]
    exact List.mem_singleton_self _
  have hlt : anyBit < 64 := Bitfield.lt_of_mem_bits hmem
  have hmaps : s.MapsTo directory anyAssignment.key
      (Bitfield.ofConfig anyBit anyBit (Nat.le_refl anyBit) hlt).bits :=
    ⟨format, field, hformat, hparse, hbits.trans (Bitfield.bits_ofConfig_self anyBit hlt).symm⟩
  have hvalue : anyAssignment.value &&& Bitfield.lowBits (anyBit - anyBit + 1) = 1#64 := by
    rw [Nat.sub_self]
    rfl
  rw [hmaps.applyOne_eq known_anyAssignment (by decide), Bitfield.pack_ofConfig, hvalue]

/-- The terms of the event give its attribute. -/
theorem MappedBy.apply_eq (h : fixed.MappedBy s directory anyBit) (id : BitVec 32) :
    Term.apply s directory (Assignment.listing fixed.assignments)
        { Attribute.raw with pmuType := id } = (.ok (), fixed.toAttribute id anyBit) := by
  have hcode : Attribute.raw.config ||| fixed.code.setWidth 64 = fixed.code.setWidth 64 :=
    BitVec.zero_or
  rw [Term.apply, Term.applyText, Assignment.parseList?_listing
    fun a ha => (known_of_mem_assignments ha).proper]
  simp only [assignments, List.map_cons, Term.applyEach, h.applyOne_code, toAttribute, hcode]
  split
  · rename_i hany
    rw [List.map_singleton, Term.applyEach_singleton, h.applyOne_any hany]
  · have hnone : fixed.code.setWidth 64 ||| (0 : Word) = fixed.code.setWidth 64 := BitVec.or_zero
    rw [hnone]
    rfl

end FixedEvent

/-! ## 5. The shield -/

/-- An event with a fixed encoding is resolved to its attribute, if its PMU maps the terms of that
encoding. -/
theorem Resolver.lookUp_of_fixed {catalog : Catalog} (hkeyed : catalog.events.Keyed)
    {fixed : FixedEvent} (hfixed : fixed ∈ FixedEvent.all) {name : Text}
    (hname : Text.lowercase name = fixed.key) {event : CatalogEvent}
    (hfind : catalog.find? name = some event) (hne : event.pmu ≠ [])
    (hplain : Descriptor.Plain event.pmu) {id : BitVec 32}
    (hid : s.pmuType? event.pmu = some (id, directory)) {anyBit : Nat}
    (hmapped : fixed.MappedBy s directory anyBit) :
    lookUp s catalog name = .ok (fixed.toAttribute id anyBit) := by
  have hencoding : encodingOf event = Assignment.listing fixed.assignments :=
    encodingOf_of_fixed hkeyed hfixed hname hfind
  have hproper : ∀ a ∈ fixed.assignments, a.Proper := by
    intro a ha
    exact (FixedEvent.known_of_mem_assignments ha).proper
  refine lookUp_of_find? hfind ?_
  rw [hencoding]
  exact Descriptor.resolve_pmuEvent hne hplain (Assignment.plain_listing hproper) hid
    (hmapped.apply_eq id)

/-- **The fixed encodings shield the resolver from the catalog.**  Two catalogs with events that
agree but for what they say about the three events with a fixed encoding give the same answers.  And
if one of the three is found, and its PMU maps the terms of the fixed encoding to bits, the attribute
has the code of the event in its lowest byte, and nothing is in it that comes from the encoding of
the catalog. -/
theorem fixedEvents_shielded (s : Sysfs) {catalog other : Catalog} (hmade : catalog.Made)
    (hmade' : other.Made) (hevents : catalog.events ≠ []) (hevents' : other.events ≠ [])
    (h : catalog.AgreeButFixed other) :
    (∀ name, ((⟨s, catalog⟩ : Resolver).resolve name).1 =
      ((⟨s, other⟩ : Resolver).resolve name).1) ∧
    ∀ fixed ∈ FixedEvent.all, ∀ name, Text.lowercase (Text.trim name) = fixed.key →
      ∀ event, catalog.find? (Text.trim name) = some event →
        event.pmu ≠ [] → Descriptor.Plain event.pmu →
      ∀ id directory anyBit, s.pmuType? event.pmu = some (id, directory) →
        fixed.MappedBy s directory anyBit →
      ∃ attr, ((⟨s, catalog⟩ : Resolver).resolve name).1 = .ok attr ∧
        attr.config.setWidth 8 = fixed.code ∧ attr = fixed.toAttribute id anyBit := by
  constructor
  · intro name
    rw [Resolver.resolve_of_events_ne_nil hevents, Resolver.resolve_of_events_ne_nil hevents',
      Resolver.lookUp, Resolver.lookUp, Resolver.descriptors, Resolver.descriptors,
      Resolver.catalogDescriptor?_eq h hmade.keyed hmade'.keyed]
  · intro fixed hfixed name hname event hfind hne hplain id directory anyBit hid hmapped
    refine ⟨fixed.toAttribute id anyBit, ?_, hmapped.setWidth_config id, rfl⟩
    rw [Resolver.resolve_of_events_ne_nil hevents]
    exact Resolver.lookUp_of_fixed hmade.keyed hfixed hname hfind hne hplain hid hmapped

namespace Example

/-- A PMU with the two fields of the fixed encodings. -/
def threadFiles : FileTree :=
  ((({} : FileTree).write "/sys/cpu/type".toList (.text "4".toList)).write
    "/sys/cpu/format/event".toList (.text "config:0-7".toList)).write
    "/sys/cpu/format/any".toList (.text "config:21".toList)

/-- The description of that PMU. -/
def threadSysfs : Sysfs := ⟨"/sys".toList, threadFiles⟩

/-- An event with a fixed encoding, with terms of its own. -/
def threadEvent : CatalogEvent :=
  ⟨"CPU_CLK_UNHALTED.THREAD_ANY".toList, "event=0x00,umask=3".toList, [], [], "cpu".toList⟩

/-- The same event in other letters, with terms that cannot be read. -/
def otherThreadEvent : CatalogEvent :=
  ⟨"Cpu_Clk_Unhalted.Thread_Any".toList, "period=,,".toList, "cycles".toList, [], "cpu".toList⟩

/-- A catalog with an event whose encoding is its own. -/
def plainCatalog : Catalog := ({} : Catalog).insert { name := "a.b".toList, pmu := "cpu".toList }

/-- That catalog with one more event. -/
def threadCatalog (event : CatalogEvent) : Catalog := plainCatalog.insert event

theorem threadCatalog_made (event : CatalogEvent) : (threadCatalog event).Made :=
  (Catalog.Made.empty.insert _).insert event

theorem threadCatalog_agree :
    (threadCatalog threadEvent).AgreeButFixed (threadCatalog otherThreadEvent) := by
  have hkeys : threadEvent.key ∈ FixedEvent.all.map FixedEvent.key ∧
      otherThreadEvent.key ∈ FixedEvent.all.map FixedEvent.key := by
    decide +kernel
  constructor
  · intro key hkey
    have hne : key ≠ threadEvent.key := fun heq => hkey (heq ▸ hkeys.1)
    have hne' : key ≠ otherThreadEvent.key := fun heq => hkey (heq ▸ hkeys.2)
    have hinsert : ∀ event, (threadCatalog event).events.find? key =
        if key = event.key then some event else plainCatalog.events.find? key :=
      fun event => EventTable.find?_insert plainCatalog.events event key
    rw [hinsert, hinsert, if_neg hne, if_neg hne']
  · decide +kernel

end Example

open Example in
theorem fixedEvents_shielded_threadAny :
    (∀ name, ((⟨threadSysfs, threadCatalog threadEvent⟩ : Resolver).resolve name).1 =
      ((⟨threadSysfs, threadCatalog otherThreadEvent⟩ : Resolver).resolve name).1) ∧
    ((⟨threadSysfs, threadCatalog threadEvent⟩ : Resolver).resolve
      " cpu_clk_UNHALTED.thread_any\n".toList).1 = .ok { pmuType := 4, config := 0x20003c } := by
  have hmapped : FixedEvent.MappedBy ⟨"cpu_clk_unhalted.thread_any".toList, 0x3c, true⟩
      threadSysfs "cpu".toList 21 := by
    constructor
    · exact ⟨_, _, rfl, rfl, rfl⟩
    · intro _
      exact ⟨by decide, _, _, rfl, rfl, rfl⟩
  have hname : Text.lowercase (Text.trim " cpu_clk_UNHALTED.thread_any\n".toList) =
      "cpu_clk_unhalted.thread_any".toList := by
    decide +kernel
  have hfind : (threadCatalog threadEvent).find?
      (Text.trim " cpu_clk_UNHALTED.thread_any\n".toList) = some threadEvent := by
    decide +kernel
  have hplain : Descriptor.Plain threadEvent.pmu := by
    change Descriptor.Plain "cpu".toList
    exact Descriptor.plain_iff.mpr (by simp)
  obtain ⟨hsame, hfixed⟩ := fixedEvents_shielded threadSysfs (threadCatalog_made threadEvent)
    (threadCatalog_made otherThreadEvent) (List.cons_ne_nil _ _) (List.cons_ne_nil _ _)
    threadCatalog_agree
  obtain ⟨attr, hattr, -, rfl⟩ := hfixed _ (by decide) _ hname threadEvent hfind
    (List.cons_ne_nil _ _) hplain 4 "cpu".toList 21 rfl hmapped
  exact ⟨hsame, hattr⟩

end HardwareCounters
