/-
# From a catalog record to the bits of an attribute

A record is turned into text, stored under its name in lower case, found again by a name in any case,
put into a descriptor, and read and packed like any other descriptor.  The theorem of this file goes
through all of that and says what is in the bits in terms of the fields of the record.

* `CatalogEvent.Holds` says in terms of a record what is in an attribute;
* `lookUp_of_find?`: the descriptor of an event of the catalog comes first;
* `resolve_record`: the attribute of a name `Holds` the numbers of its last record.
-/
import HardwareCounters.Proofs.Catalog.Encoding
import HardwareCounters.Proofs.Catalog.Loading
import HardwareCounters.Proofs.Descriptor.Sampling
import HardwareCounters.Proofs.Text.Casing
import HardwareCounters.Resolver

namespace HardwareCounters

variable {s : Sysfs} {directory : Text} {fields : Text → Bitfield}

/-! ## 1. The assignments of a record -/

namespace CatalogEvent

variable {record : Record}

/-- The keys of the bit fields that the encoding of a record fills. -/
def emittedKeys (record : Record) : List Text :=
  ((encodedAssignments record 0).map Assignment.key).filter fun key => key ≠ periodKey

/-- The settings of a record have these keys, whatever its code. -/
theorem map_key_fieldSettings (fields : Text → Bitfield) (code : Word) :
    (fieldSettings fields (encodedAssignments record code)).map (fun x => x.assignment.key) =
      emittedKeys record := by
  rw [fieldSettings, List.map_map, emittedKeys, List.filter_map]
  rfl

/-- A PMU directory has well-formed bit fields for keys.  No range shares a bit with another range of
the same field or of a field of another key. -/
structure Formatted (s : Sysfs) (directory : Text) (fields : Text → Bitfield) (keys : List Text) :
    Prop where
  format : ∀ key ∈ keys, ∃ text, s.format? directory key = some text ∧
    Bitfield.parse text = .ok (fields key)
  apart : ∀ key ∈ keys, (fields key).ranges.Pairwise fun a b => a.bits.Disjoint b.bits
  disjoint : keys.Pairwise fun k l => (fields k).bits.Disjoint (fields l).bits

/-- No key of an encoding is reserved but that of the sampling period. -/
theorem not_mem_reservedKeys {key : Text} (h : key ∈ encodingKeys) (hkey : key ≠ periodKey) :
    key ∉ Term.reservedKeys := by
  have hall : ∀ key ∈ encodingKeys, key ≠ periodKey → key ∉ Term.reservedKeys := by
    decide +kernel
  exact hall key h hkey

theorem describedBy_of_formatted {code : Word} (hnumeric : Numeric record)
    (h : Formatted s directory fields (emittedKeys record)) :
    ∀ setting ∈ fieldSettings fields (encodedAssignments record code),
      setting.DescribedBy s directory := by
  intro setting hsetting
  have hkey : setting.assignment.key ∈ emittedKeys record := by
    rw [← map_key_fieldSettings fields code]
    exact List.mem_map_of_mem hsetting
  obtain ⟨a, ha, rfl⟩ := List.mem_map.mp hsetting
  obtain ⟨hmem, hperiod⟩ := List.mem_filter.mp ha
  have hknown := known_of_mem_encodedAssignments hnumeric hmem
  exact ⟨hknown.proper, not_mem_reservedKeys hknown.1 (by simpa using hperiod), h.format _ hkey,
    h.apart _ hkey⟩

theorem apart_of_formatted {code : Word} (h : Formatted s directory fields (emittedKeys record)) :
    FieldSetting.Apart (fieldSettings fields (encodedAssignments record code)) := by
  have hdisjoint := h.disjoint
  rw [← map_key_fieldSettings fields code, List.pairwise_map] at hdisjoint
  refine hdisjoint.imp_of_mem ?_
  intro x y hx hy hxy
  obtain ⟨a, -, rfl⟩ := List.mem_map.mp hx
  obtain ⟨b, -, rfl⟩ := List.mem_map.mp hy
  exact hxy

/-- The sampling period is assigned from its field alone. -/
theorem filter_encodedAssignments (record : Record) (code : Word) :
    ((encodedAssignments record code).filter fun a => a.key = periodKey) =
      plainAssignments record "SampleAfterValue" "period" := by
  have hcode : (codeAssignment code).key ≠ periodKey := by
    change "event".toList ≠ periodKey
    decide
  have hregister : ((registerAssignments record).filter fun a => a.key = periodKey) = [] := by
    have hkeys : ∀ key ∈ registerKeys, key ≠ periodKey := by decide
    rw [List.filter_eq_nil_iff]
    intro a ha
    obtain ⟨index, key, value, -, hterm, -, rfl⟩ := mem_registerAssignments.mp ha
    exact fun hkey => hkeys key (registerTerm?_mem_registerKeys hterm) (of_decide_eq_true hkey)
  have hother : ∀ field key : String, key.toList ≠ periodKey →
      ((plainAssignments record field key).filter fun a => a.key = periodKey) = [] := by
    intro field key hne
    rw [List.filter_eq_nil_iff]
    intro a ha
    obtain ⟨value, -, rfl⟩ := mem_plainAssignments.mp ha
    exact fun hkey => hne (of_decide_eq_true hkey)
  have hperiod : ((plainAssignments record "SampleAfterValue" "period").filter
      fun a => a.key = periodKey) = plainAssignments record "SampleAfterValue" "period" := by
    rw [List.filter_eq_self]
    intro a ha
    obtain ⟨value, -, rfl⟩ := mem_plainAssignments.mp ha
    exact decide_eq_true rfl
  rw [encodedAssignments, List.filter_cons_of_neg (by simpa using hcode), fieldAssignments,
    List.filter_append, hregister, List.nil_append]
  simp only [plainTerms, List.flatMap_cons, List.flatMap_nil, List.filter_append, hperiod,
    hother "AnyThread" "any" (by decide), hother "EdgeDetect" "edge" (by decide),
    hother "Invert" "inv" (by decide), hother "CounterMask" "cmask" (by decide),
    hother "UMask" "umask" (by decide), List.nil_append, List.append_nil]

/-- The sampling period is that of the record, or 0. -/
theorem samplingOf_encodedAssignments (record : Record) (code : Word) :
    samplingOf (.period 0) (encodedAssignments record code) =
      .period (wordIn record "SampleAfterValue") := by
  rw [samplingOf, filter_encodedAssignments, plainAssignments]
  cases hused : used? record "SampleAfterValue" with
  | none =>
    rw [wordIn_of_used?_eq_none hused]
    rfl
  | some value =>
    rw [wordIn, (used?_eq_some_iff.mp hused).1]
    rfl

/-- The attribute of a PMU with that type id holds the numbers of a record with that code: each
number is in the field of its key, cut to the width of the field, the sampling period is that of the
record, and no other bit is set. -/
structure Holds (record : Record) (code : Word) (fields : Text → Bitfield) (id : BitVec 32)
    (attr : Attribute) : Prop where
  withoutWords_eq : attr.withoutWords =
    { Attribute.raw with pmuType := id, sampling := .period (wordIn record "SampleAfterValue") }
  code_eq : (fields "event".toList).readBack attr =
    code.toNat % 2 ^ (fields "event".toList).width
  plain_eq : ∀ entry ∈ [("UMask", "umask"), ("CounterMask", "cmask"), ("AnyThread", "any"),
      ("EdgeDetect", "edge"), ("Invert", "inv")], ∀ value, used? record entry.1 = some value →
    (fields entry.2.toList).readBack attr =
      (wordOf value).toNat % 2 ^ (fields entry.2.toList).width
  register_eq : ∀ index key value, record.field? "MSRIndex" = some index →
    registerTerm? index = some key → record.field? "MSRValue" = some value →
    (fields key).readBack attr = (wordOf value).toNat % 2 ^ (fields key).width
  bit_eq_false : ∀ place, (∀ key ∈ emittedKeys record, place ∉ (fields key).bits) →
    attr.bit place = false

/-- What is carried for the settings of a record are the numbers of the record. -/
theorem holds_of_carriesOnly {code : Word} {id : BitVec 32} {attr : Attribute}
    (h : CarriesOnly id (samplingOf (.period 0) (encodedAssignments record code))
      (fieldSettings fields (encodedAssignments record code)) attr) :
    Holds record code fields id attr := by
  have hread : ∀ a ∈ encodedAssignments record code, a.key ≠ periodKey →
      (fields a.key).readBack attr = a.value.toNat % 2 ^ (fields a.key).width := by
    intro a ha hkey
    exact h.readBack_eq ⟨a, fields a.key⟩
      (List.mem_map.mpr ⟨a, List.mem_filter.mpr ⟨ha, by simpa using hkey⟩, rfl⟩)
  refine ⟨?_, ?_, ?_, ?_, ?_⟩
  · rw [h.withoutWords_eq, samplingOf_encodedAssignments]
  · exact hread (codeAssignment code) List.mem_cons_self (by
      change "event".toList ≠ periodKey
      decide)
  · intro entry hentry value hused
    have hknown : ∀ entry ∈ [("UMask", "umask"), ("CounterMask", "cmask"), ("AnyThread", "any"),
        ("EdgeDetect", "edge"), ("Invert", "inv")],
        entry ∈ plainTerms ∧ entry.2.toList ≠ periodKey := by
      decide
    obtain ⟨hmem, hkey⟩ := hknown entry hentry
    exact hread (assign entry.2.toList value) (mem_encodedAssignments.mpr
      (Or.inr (Or.inr ⟨entry, hmem, mem_plainAssignments.mpr ⟨value, hused, rfl⟩⟩))) hkey
  · intro index key value hindex hterm hvalue
    have hkeys : ∀ key ∈ registerKeys, key ≠ periodKey := by decide
    exact hread (assign key value) (mem_encodedAssignments.mpr
      (Or.inr (Or.inl (mem_registerAssignments.mpr
        ⟨index, key, value, hindex, hterm, hvalue, rfl⟩))))
      (hkeys key (registerTerm?_mem_registerKeys hterm))
  · intro place hplace
    refine h.bit_eq_false place ?_
    intro setting hsetting
    have hkey : setting.assignment.key ∈ emittedKeys record := by
      rw [← map_key_fieldSettings fields code]
      exact List.mem_map_of_mem hsetting
    obtain ⟨a, -, rfl⟩ := List.mem_map.mp hsetting
    exact hplace _ hkey

end CatalogEvent

/-! ## 2. Finding a record -/

/-- The PMU of a record has a name. -/
theorem CatalogEvent.pmuOf_ne_nil (record : Record) : pmuOf record ≠ [] := by
  have haliases : ∀ entry ∈ unitAliases, entry.2 ≠ [] := by decide
  rw [pmuOf]
  cases hunit : record.field? "Unit" with
  | none => simp [coreMark]
  | some unit =>
    rw [Option.map_some, Option.getD_some, pmuOfUnit]
    cases halias : unitAliases.lookup unit with
    | none => exact Text.lowercase_ne_nil (Record.field?_trimmed hunit).2
    | some pmu =>
      obtain ⟨front, back, hsplit, -⟩ := List.lookup_eq_some_iff.mp halias
      exact haliases (unit, pmu) (by rw [hsplit]; simp)

/-- A catalog in which an event is found is not loaded again. -/
theorem Resolver.loaded_eq {resolver : Resolver} {name : Text} {event : CatalogEvent}
    (h : resolver.catalog.find? name = some event) : resolver.loaded = resolver := by
  have hne : resolver.catalog.events.isEmpty = false := by
    cases hevents : resolver.catalog.events with
    | nil => simp [Catalog.find?, EventTable.find?, Association.get?, hevents] at h
    | cons => rfl
  rw [Resolver.loaded, Catalog.ensureLoaded, if_neg (by simp [hne])]

/-- The descriptor of an event of the catalog comes first. -/
theorem Resolver.lookUp_of_find? {s : Sysfs} {catalog : Catalog} {name : Text}
    {event : CatalogEvent} {attr : Attribute} (hfind : catalog.find? name = some event)
    (hresolve : Descriptor.resolve s (pmuEvent event.pmu (encodingOf event)) = .ok attr) :
    lookUp s catalog name = .ok attr := by
  have hfirst : firstResolved? s (descriptors catalog name) = some attr := by
    rw [descriptors, catalogDescriptor?, hfind, firstResolved?, Option.map_some,
      Option.toList_some, List.singleton_append, List.findSome?_cons, hresolve]
    rfl
  rw [lookUp, hfirst]

/-- The event of a record that is not one of those with a fixed encoding. -/
theorem Resolver.encodingOf_eq {event : CatalogEvent}
    (h : event.key ∉ fixedEncodings.map Prod.fst) : encodingOf event = event.encoded := by
  have hnone : fixedEncodings.lookup event.key = none := by
    rw [List.lookup_eq_none_iff]
    intro entry hentry
    have hne : event.key ≠ entry.1 := fun heq => h (heq ▸ List.mem_map_of_mem hentry)
    simpa using hne
  rw [encodingOf, hnone, Option.getD_none]

/-- **From a record to bits.**  If the record is the last one of its name in the files that were
loaded, resolving the name, in any case, gives the attribute that holds the numbers of the record. -/
theorem resolve_record {resolver : Resolver} {catalog : Catalog} {files : FileTree}
    {paths : List Text} {n : Nat}
    (hload : catalog.loadFiles files paths = (.ok n, resolver.catalog))
    {before after : List Record} {record : Record}
    (hrecords : EventTable.recordsOf files paths = before ++ record :: after)
    (hlast : ∀ other ∈ after, other.key? ≠ record.key?) {name : Text}
    (hname : record.field? "EventName" = some name)
    (hfixed : Text.lowercase name ∉ Resolver.fixedEncodings.map Prod.fst) {event selector : Word}
    (hevent : CatalogEvent.code record "EventCode" = .ok event)
    (hselector : CatalogEvent.code record "ExtSel" = .ok selector)
    (hnumeric : CatalogEvent.Numeric record)
    (hfilter : ∀ t, record.field? "Filter" = some t → t = "na".toList)
    (hplain : Descriptor.Plain (CatalogEvent.pmuOf record)) {id : BitVec 32} {directory : Text}
    (hid : resolver.sysfs.pmuType? (CatalogEvent.pmuOf record) = some (id, directory))
    {fields : Text → Bitfield}
    (hformat : CatalogEvent.Formatted resolver.sysfs directory fields
      (CatalogEvent.emittedKeys record))
    {query : Text} (hquery : Text.lowercase query = Text.lowercase name) :
    ∃ attr, (resolver.resolve query).1 = .ok attr ∧
      CatalogEvent.Holds record (event ||| selector <<< 21) fields id attr := by
  have htrim : Text.trim query = query := by
    rw [← Text.trim_eq_self_iff_lowercase, hquery, Text.trim_eq_self_iff_lowercase]
    exact (Record.field?_trimmed hname).1
  have hkey : record.key? = some (Text.lowercase query) := by
    rw [Record.key?, hname, Option.map_some, hquery]
  obtain ⟨found, hfound, hfind⟩ := Catalog.find?_loadFiles hload hrecords hkey hlast
  have hcode : CatalogEvent.eventCode record = .ok (event ||| selector <<< 21) := by
    rw [CatalogEvent.eventCode, hevent, hselector]
    rfl
  have hparts : found.key = Text.lowercase name ∧ found.pmu = CatalogEvent.pmuOf record ∧
      found.encoded = CatalogEvent.encoding record (event ||| selector <<< 21) := by
    rw [CatalogEvent.ofRecord?, hname, hcode] at hfound
    simp only [Except.map, Except.ok.injEq, Option.some.injEq] at hfound
    subst hfound
    exact ⟨rfl, rfl, rfl⟩
  obtain ⟨hfoundKey, hpmu, hencoded⟩ := hparts
  have hfilterTerms : CatalogEvent.filterTerms record = [] := by
    rw [CatalogEvent.filterTerms]
    cases hfield : record.field? "Filter" with
    | none => rfl
    | some t => simp [Option.filter, hfilter t hfield]
  have hproper : ∀ a ∈ CatalogEvent.encodedAssignments record (event ||| selector <<< 21),
      a.Proper :=
    fun a ha => (CatalogEvent.known_of_mem_encodedAssignments hnumeric ha).proper
  obtain ⟨attr, hresolve, hcarries⟩ :=
    resolve_assignments (CatalogEvent.pmuOf_ne_nil record) hplain hid hproper
      (CatalogEvent.describedBy_of_formatted hnumeric hformat)
      (CatalogEvent.apart_of_formatted hformat)
  refine ⟨attr, ?_, CatalogEvent.holds_of_carriesOnly hcarries⟩
  have hdescriptor : Descriptor.resolve resolver.sysfs
      (pmuEvent found.pmu (Resolver.encodingOf found)) = .ok attr := by
    rw [Resolver.encodingOf_eq (hfoundKey ▸ hfixed), hpmu, hencoded,
      CatalogEvent.encoding_eq_listing hfilterTerms]
    exact hresolve
  simp only [Resolver.resolve, Resolver.loaded_eq hfind, htrim]
  exact Resolver.lookUp_of_find? hfind hdescriptor

namespace Example

/-- A catalog file with two records whose names differ in case. -/
def catalogFiles : FileTree :=
  ({} : FileTree).write "/core.json".toList (.text
    ("[\x7b\"EventName\":\"a.b\"\x7d,\x7b\"EventName\":\"A.B\",\"EventCode\":\"0x2e,0x2f\"," ++
      "\"MSRIndex\":\"0x3F6\",\"MSRValue\":\"0x53\",\"SampleAfterValue\":\"100\"\x7d]").toList)

/-- The first of the two records. -/
def firstRecord : Record := ⟨[("EventName".toList, "a.b".toList)]⟩

/-- The second of the two records. -/
def lastRecord : Record :=
  ⟨[("EventName", "A.B"), ("EventCode", "0x2e,0x2f"), ("MSRIndex", "0x3F6"), ("MSRValue", "0x53"),
    ("SampleAfterValue", "100")].map fun (key, value) => (key.toList, value.toList)⟩

/-- A resolver that has loaded the file. -/
def loadedResolver : Resolver :=
  ⟨coreSysfs, (({} : Catalog).loadFiles catalogFiles ["/core.json".toList]).2⟩

/-- The fields of the event code and of the latency register. -/
def coreFields (key : Text) : Bitfield :=
  if key = "event".toList then eventField else latencyField

theorem lastRecord_numeric : CatalogEvent.Numeric lastRecord := by
  intro field hfield t ht
  have hall : ∀ field ∈ CatalogEvent.numberFields, ∀ t ∈ lastRecord.field? field,
      (Numeral.readWord t).isOk = true := by
    decide +kernel
  have hok := hall field hfield t ht
  cases hread : Numeral.readWord t with
  | error e => simp [hread, Except.isOk, Except.toBool] at hok
  | ok value => exact ⟨value, rfl⟩

theorem lastRecord_formatted :
    CatalogEvent.Formatted coreSysfs "cpu".toList coreFields
      (CatalogEvent.emittedKeys lastRecord) := by
  have hkeys : CatalogEvent.emittedKeys lastRecord = ["event".toList, "ldlat".toList] := rfl
  rw [hkeys]
  refine ⟨?_, ?_, by decide⟩
  · rw [List.forall_mem_cons, List.forall_mem_singleton]
    exact ⟨⟨_, rfl, rfl⟩, ⟨_, rfl, rfl⟩⟩
  · decide

end Example

set_option maxRecDepth 8000 in
open Example in
theorem resolve_record_lastRecord :
    ({} : Catalog).loadFiles catalogFiles ["/core.json".toList] =
        (.ok 1, loadedResolver.catalog) ∧
      ∃ attr, (loadedResolver.resolve "a.B".toList).1 = .ok attr ∧
        CatalogEvent.Holds lastRecord 0x2e coreFields 4 attr := by
  have hload : ({} : Catalog).loadFiles catalogFiles ["/core.json".toList] =
      (.ok 1, loadedResolver.catalog) := rfl
  have hrecords : EventTable.recordsOf catalogFiles ["/core.json".toList] =
      [firstRecord] ++ lastRecord :: [] := by
    decide +kernel
  have hname : lastRecord.field? "EventName" = some "A.B".toList := rfl
  have hevent : CatalogEvent.code lastRecord "EventCode" = .ok 0x2e := rfl
  have hselector : CatalogEvent.code lastRecord "ExtSel" = .ok 0 := rfl
  have hplain : Descriptor.Plain (CatalogEvent.pmuOf lastRecord) := by
    change Descriptor.Plain "cpu".toList
    exact Descriptor.plain_iff.mpr (by simp)
  refine ⟨hload, resolve_record hload hrecords ?_ hname (by decide +kernel) hevent hselector
    lastRecord_numeric ?_ hplain rfl lastRecord_formatted (by decide +kernel)⟩
  · intro other hother
    cases hother
  · intro t ht
    cases ht

end HardwareCounters
