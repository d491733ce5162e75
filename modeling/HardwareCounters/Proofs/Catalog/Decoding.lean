/-
# What the encoding of a record is read as

The terms that encode a record are put together as one text, piece by piece and each piece only if its
field says so.  Applying that text cuts it into terms again.  If no value holds a comma and the filter
is a list of its own, the cuts are where the pieces were joined, and the terms are those that the fields
of the record stand for.

* `filterList`, `registerList` and `plainList` are the terms that the fields of a record stand for;
* `map_term_fieldAssignments`: the assignments that encode a record are those terms;
* `parseList?_encoding`: the terms of the encoding, one by one and in order;
* `ofRecord?_decoded`: the event of a record is read as what the record says.
-/
import HardwareCounters.Proofs.Catalog.Encoding

namespace HardwareCounters

namespace CatalogEvent

variable {record : Record} {code : Word}

/-! ## 1. The terms of a record -/

/-- The terms of the filter of a record. -/
def filterList (record : Record) : List Term := ((filter? record).bind Term.parseList?).getD []

/-- The indices of the registers that have terms, and the keys of these. -/
def registerTable : List (Text × Text) :=
  [("0x3f6", "ldlat"), ("0x1a6", "offcore_rsp"), ("0x1a7", "offcore_rsp"), ("0x3f7", "frontend")].map
    fun (index, key) => (index.toList, key.toList)

/-- The key for the first alternative of an index, in upper or lower case. -/
def registerKey? (index : Text) : Option Text :=
  registerTable.lookup (Text.lowercase (Text.trim (Text.upTo ',' index)))

/-- The term for the value of a model-specific register. -/
def registerList (record : Record) : List Term :=
  match (record.field? "MSRIndex").bind registerKey?, record.field? "MSRValue" with
  | some key, some value => [⟨key, some value⟩]
  | _, _ => []

/-- The terms for the fields that are used. -/
def plainList (record : Record) : List Term :=
  [("AnyThread", "any"), ("EdgeDetect", "edge"), ("Invert", "inv"), ("CounterMask", "cmask"),
    ("SampleAfterValue", "period"), ("UMask", "umask")].flatMap fun (field, key) =>
      ((used? record field).map fun value => (⟨key.toList, some value⟩ : Term)).toList

theorem registerTerm?_eq (index : Text) : registerTerm? index = registerKey? index := by
  rw [registerTerm?, registerKey?]
  generalize Text.lowercase (Text.trim (Text.upTo ',' index)) = first
  by_cases hlatency : first = "0x3f6".toList
  · subst hlatency
    rfl
  by_cases hfirst : first = "0x1a6".toList
  · subst hfirst
    rfl
  by_cases hsecond : first = "0x1a7".toList
  · subst hsecond
    rfl
  by_cases hfrontend : first = "0x3f7".toList
  · subst hfrontend
    rfl
  simp only [registerTable, List.map_cons, List.map_nil, List.lookup_cons, List.lookup_nil,
    beq_false_of_ne hlatency, beq_false_of_ne hfirst, beq_false_of_ne hsecond,
    beq_false_of_ne hfrontend, if_neg hlatency, if_neg hfrontend, hfirst, hsecond, or_self, if_false]

/-- A field is trimmed, and so is the term that assigns it. -/
theorem term_assign {key value : Text} {field : String} (h : record.field? field = some value) :
    (assign key value).term = ⟨key, some value⟩ := by
  rw [Assignment.term, assign, (Record.field?_trimmed h).1]

/-- The assignments that encode the fields of a record are the terms that these stand for. -/
theorem map_term_fieldAssignments (record : Record) :
    (fieldAssignments record).map Assignment.term = registerList record ++ plainList record := by
  have hregister : (registerAssignments record).map Assignment.term = registerList record := by
    have hkey : registerTerm? = registerKey? := funext registerTerm?_eq
    rw [registerAssignments, registerList, hkey]
    cases (record.field? "MSRIndex").bind registerKey? with
    | none => rfl
    | some key =>
      cases hvalue : record.field? "MSRValue" with
      | none => rfl
      | some value => rw [List.map_singleton, term_assign hvalue]
  have hplain : ∀ field key : String, (plainAssignments record field key).map Assignment.term =
      ((used? record field).map fun value => (⟨key.toList, some value⟩ : Term)).toList := by
    intro field key
    rw [plainAssignments]
    cases hused : used? record field with
    | none => rfl
    | some value =>
      rw [Option.map_some, Option.toList_some, List.map_singleton,
        term_assign (used?_eq_some_iff.mp hused).1]
      rfl
  rw [fieldAssignments, List.map_append, hregister, List.map_flatMap]
  simp only [hplain]
  rfl

/-! ## 2. The round trip -/

/-- No number of the record holds a comma, and its filter is a list of terms of its own. -/
structure Separable (record : Record) : Prop where
  comma_not_mem : ∀ field ∈ numberFields, ∀ t, record.field? field = some t → ',' ∉ t
  filter_listed : ∀ t, filter? record = some t → ∃ terms, Term.parseList? t = some terms ∧
    terms ≠ [] ∧ t.getLast? ≠ some ','

/-- The parts of a filter are terms, and they are the terms of the filter. -/
theorem Separable.parts_filter (h : Separable record) :
    (∀ part ∈ (filter? record).toList.flatMap (Text.splitOn ','), Term.isTerm part = true) ∧
      ((filter? record).toList.flatMap (Text.splitOn ',')).map Term.ofPart = filterList record := by
  rw [filterList]
  cases hfilter : filter? record with
  | none => exact ⟨fun _ hpart => (nomatch hpart), rfl⟩
  | some t =>
    obtain ⟨terms, hterms, hne, hlast⟩ := h.filter_listed t hfilter
    have htrim : Text.trim t = t :=
      (trim_copiedText (mem_copiedTexts.mpr (Or.inl hfilter))).1
    have hparts := Term.parts_of_parseTrimmed? (t := t) (htrim ▸ hterms) hne hlast
    rw [Option.toList_some, List.flatMap_singleton, Option.bind_some, hterms, Option.getD_some]
    exact ⟨hparts.1, hparts.2.symm⟩

theorem isTerm_text {a : Assignment} (h : a.key ∈ encodingKeys) : Term.isTerm a.text = true := by
  refine Term.isTerm_of_key_ne_nil ?_
  rw [Assignment.text, ofPart_assignment h]
  exact (encodingKeys_plain h).1

/-- An assignment for a field is one part of the encoding. -/
theorem Separable.comma_not_mem_text (h : Separable record) {a : Assignment}
    (ha : a ∈ fieldAssignments record) : ',' ∉ a.text := by
  obtain ⟨hkey, field, hfield, hwritten, -⟩ := exists_field_of_mem_fieldAssignments ha
  have hplain := (encodingKeys_plain hkey).2.2 ',' (by decide)
  simp [Assignment.text, hplain, h.comma_not_mem field hfield a.written hwritten]

/-- **The parts of the encoding** are the code, the parts of the filter, and the assignments for the
fields. -/
theorem Separable.splitOn_encoding (h : Separable record) (code : Word) :
    Text.splitOn ',' (encoding record code) =
      (codeAssignment code).text :: ((filter? record).toList.flatMap (Text.splitOn ',') ++
        (fieldAssignments record).map Assignment.text) := by
  have hcode : ',' ∉ (codeAssignment code).text :=
    (known_codeAssignment code).proper.not_mem_text (by decide)
  have hfields : ∀ t ∈ (fieldAssignments record).map Assignment.text, ',' ∉ t := by
    intro t ht
    obtain ⟨a, ha, rfl⟩ := List.mem_map.mp ht
    exact h.comma_not_mem_text ha
  rw [encoding_eq_joinWith, Text.splitOn_joinWith_eq_flatMap _ (List.cons_ne_nil _ _),
    List.flatMap_cons, Text.splitOn_of_not_mem hcode, copiedTexts, List.flatMap_append,
    Text.flatMap_splitOn_of_not_mem hfields, List.singleton_append]

/-- **The terms of the encoding**, one by one and in order. -/
theorem Separable.parseList?_encoding (h : Separable record) (code : Word) :
    Term.parseList? (encoding record code) = some ((codeAssignment code).term ::
      (filterList record ++ registerList record ++ plainList record)) := by
  have hcodeKey := (known_codeAssignment code).1
  have hcode : Term.ofPart (codeAssignment code).text = (codeAssignment code).term :=
    ofPart_assignment hcodeKey
  have hkey : ∀ a ∈ fieldAssignments record, a.key ∈ encodingKeys :=
    fun a ha => (exists_field_of_mem_fieldAssignments ha).1
  have hfields : ((fieldAssignments record).map Assignment.text).map Term.ofPart =
      registerList record ++ plainList record := by
    rw [← map_term_fieldAssignments, List.map_map]
    exact List.map_congr_left fun a ha => ofPart_assignment (hkey a ha)
  rw [Term.parseList?, trim_encoding, Term.parseTrimmed?_of_parts, h.splitOn_encoding,
    List.map_cons, hcode, List.map_append, h.parts_filter.2, hfields,
    List.append_assoc]
  rw [h.splitOn_encoding, List.forall_mem_cons, List.forall_mem_append]
  refine ⟨isTerm_text hcodeKey, h.parts_filter.1, ?_⟩
  intro part hpart
  obtain ⟨a, ha, rfl⟩ := List.mem_map.mp hpart
  exact isTerm_text (hkey a ha)

/-- **A record is read as what it says.**  A record with a name, with numbers in its two codes, without
commas in its other numbers and with a filter that is a list of its own has an event, and the encoding
of that event is read as these terms in this order: the event code together with the selector, the
terms of the filter, the term of a model-specific register if there is one, and one term for each field
that is used. -/
theorem ofRecord?_decoded {name : Text} {eventCode selector : Word}
    (hname : record.field? "EventName" = some name)
    (hevent : CatalogEvent.code record "EventCode" = .ok eventCode)
    (hselector : CatalogEvent.code record "ExtSel" = .ok selector) (h : Separable record) :
    ∃ event codeTerm, ofRecord? record = .ok (some event) ∧ event.name = name ∧
      codeTerm.key = "event".toList ∧
      codeTerm.number = .ok (eventCode ||| BitVec.ofNat 64 (selector.toNat <<< 21)) ∧
      Term.parseList? event.encoded =
        some (codeTerm :: (filterList record ++ registerList record ++ plainList record)) := by
  have hshift : BitVec.ofNat 64 (selector.toNat <<< 21) = selector <<< selectorShift := by
    rw [← BitVec.toNat_inj, BitVec.toNat_shiftLeft, BitVec.toNat_ofNat, selectorShift]
  have hcode : CatalogEvent.eventCode record =
      .ok (eventCode ||| BitVec.ofNat 64 (selector.toNat <<< 21)) := by
    rw [CatalogEvent.eventCode, hevent, hselector, hshift]
    rfl
  generalize eventCode ||| BitVec.ofNat 64 (selector.toNat <<< 21) = code at hcode ⊢
  have hmade : ∃ event, ofRecord? record = .ok (some event) ∧ event.name = name ∧
      event.encoded = encoding record code := by
    rw [ofRecord?, hname, hcode]
    exact ⟨_, rfl, rfl, rfl⟩
  obtain ⟨event, hrecord, heventName, hencoded⟩ := hmade
  refine ⟨event, (codeAssignment code).term, hrecord, heventName, rfl,
    (known_codeAssignment code).proper.number_term, ?_⟩
  rw [hencoded]
  exact h.parseList?_encoding code

namespace RecordExample

/-- A record with a selector, a filter of two terms and a register, of whose fields one is not used. -/
def responseRecord : Record where
  fields := [("EventName", "OFFCORE"), ("EventCode", "0xB7,0xBB"), ("ExtSel", "1"),
    ("Filter", "thresh=2, edge "), ("MSRIndex", "0X1A6, 0x1a7"), ("MSRValue", " 0x1 "),
    ("AnyThread", "0x00"), ("Invert", "1"), ("UMask", "0x4")].map
      fun (key, value) => (key.toList, value.toList)

theorem separable_responseRecord : Separable responseRecord where
  comma_not_mem := by
    have hall : ∀ field ∈ numberFields,
        ∀ t ∈ (responseRecord.field? field).toList, ',' ∉ t := by decide +kernel
    intro field hfield t ht
    exact hall field hfield t (by rw [ht]; exact List.mem_singleton_self t)
  filter_listed := by
    intro t ht
    have hfilter : filter? responseRecord = some "thresh=2, edge".toList := by decide +kernel
    obtain rfl := Option.some.inj (hfilter.symm.trans ht)
    exact ⟨_, rfl, List.cons_ne_nil _ _, by decide⟩

end RecordExample

open RecordExample in
theorem ofRecord?_decoded_responseRecord :
    (responseRecord.field? "EventName" = some "OFFCORE".toList ∧
      CatalogEvent.code responseRecord "EventCode" = .ok 0xB7 ∧
      CatalogEvent.code responseRecord "ExtSel" = .ok 1 ∧ Separable responseRecord) ∧
    ∃ event codeTerm, ofRecord? responseRecord = .ok (some event) ∧
      codeTerm.number = .ok 0x2000B7 ∧
      Term.parseList? event.encoded = some [codeTerm, ⟨"thresh".toList, some ['2']⟩,
        ⟨"edge".toList, none⟩, ⟨"offcore_rsp".toList, some "0x1".toList⟩,
        ⟨"inv".toList, some ['1']⟩, ⟨"umask".toList, some "0x4".toList⟩] := by
  have hname : responseRecord.field? "EventName" = some "OFFCORE".toList := by decide +kernel
  have hcode : CatalogEvent.code responseRecord "EventCode" = .ok 0xB7 := by decide +kernel
  have hselector : CatalogEvent.code responseRecord "ExtSel" = .ok 1 := by decide +kernel
  have hterms : filterList responseRecord ++ registerList responseRecord ++
      plainList responseRecord = [⟨"thresh".toList, some ['2']⟩, ⟨"edge".toList, none⟩,
        ⟨"offcore_rsp".toList, some "0x1".toList⟩, ⟨"inv".toList, some ['1']⟩,
        ⟨"umask".toList, some "0x4".toList⟩] := by decide +kernel
  obtain ⟨event, codeTerm, hrecord, -, -, hnumber, hdecoded⟩ :=
    ofRecord?_decoded hname hcode hselector separable_responseRecord
  rw [hterms] at hdecoded
  exact ⟨⟨hname, hcode, hselector, separable_responseRecord⟩, event, codeTerm, hrecord, hnumber,
    hdecoded⟩

end CatalogEvent

end HardwareCounters
