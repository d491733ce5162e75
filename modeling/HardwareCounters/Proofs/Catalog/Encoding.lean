/-
# The encoding of a record as assignments

The terms that encode a record are written without regard to how they are read.  If the record has no
filter and its fields hold numbers, they are a list of assignments, and every one of these is proper,
so that the list is read as it was meant.

* `encodedAssignments` are the assignments of a record, in order, and `copiedTexts` are the texts
  behind its code;
* `encoding_eq_joinWith`: the encoding is the list of these texts, for every record;
* `encoding_eq_listing`: without a filter it is the text of the assignments;
* `known_of_mem_encodedAssignments`: each of them is `Known`, and so it is proper;
* `trim_encoding`: no blanks are around the encoding.
-/
import HardwareCounters.Catalog.Event
import HardwareCounters.Proofs.Term.Listing

namespace HardwareCounters

theorem Record.field?_trimmed {record : Record} {key : String} {t : Text}
    (h : record.field? key = some t) : Text.trim t = t ∧ t ≠ [] := by
  rw [Record.field?, Option.filter_eq_some_iff] at h
  obtain ⟨hmap, hne⟩ := h
  obtain ⟨raw, -, rfl⟩ := Option.map_eq_some_iff.mp hmap
  exact ⟨Text.trim_trim raw, by simpa using hne⟩

namespace CatalogEvent

variable {record : Record}

/-! ## 1. Numbers of a record -/

/-- The number that a text spells, or 0 if it spells none. -/
def wordOf (t : Text) : Word :=
  match Numeral.readWord t with
  | .ok value => value
  | .error _ => 0

/-- The number in a field of a record, or 0 without the field. -/
def wordIn (record : Record) (field : String) : Word := ((record.field? field).map wordOf).getD 0

/-- The fields of a record that hold one number. -/
def numberFields : List String :=
  ["UMask", "CounterMask", "AnyThread", "EdgeDetect", "Invert", "SampleAfterValue", "MSRValue"]

/-- Every field that should hold one number does, if it is there. -/
def Numeric (record : Record) : Prop :=
  ∀ field ∈ numberFields, ∀ t, record.field? field = some t →
    ∃ value, Numeral.readWord t = .ok value

theorem Numeric.readWord_eq (h : Numeric record) {field : String} (hfield : field ∈ numberFields)
    {t : Text} (ht : record.field? field = some t) : Numeral.readWord t = .ok (wordOf t) := by
  obtain ⟨value, hvalue⟩ := h field hfield t ht
  rw [wordOf, hvalue]

theorem used?_eq_some_iff {field : String} {t : Text} :
    used? record field = some t ↔ record.field? field = some t ∧ t ∉ unusedValues := by
  simp [used?, Option.filter_eq_some_iff]

/-- A field that is not used holds no number but 0. -/
theorem wordIn_of_used?_eq_none {field : String} (h : used? record field = none) :
    wordIn record field = 0 := by
  have hunused : ∀ t ∈ unusedValues, wordOf t = 0 := by decide
  rw [wordIn]
  cases hfield : record.field? field with
  | none => rfl
  | some t =>
    rw [used?, hfield] at h
    exact hunused t (by simpa [Option.filter] using h)

/-! ## 2. Assignments -/

/-- The assignment of a text to a key. -/
def assign (key written : Text) : Assignment := ⟨key, written, wordOf written⟩

/-- The assignment of the code of the event. -/
def codeAssignment (code : Word) : Assignment :=
  ⟨"event".toList, if code = 0 then ['0'] else Numeral.hex code.toNat, code⟩

/-- The assignment for a model-specific register, if there is one. -/
def registerAssignments (record : Record) : List Assignment :=
  match (record.field? "MSRIndex").bind registerTerm?, record.field? "MSRValue" with
  | some key, some value => [assign key value]
  | _, _ => []

/-- The assignment for a field, if the field is used. -/
def plainAssignments (record : Record) (field key : String) : List Assignment :=
  ((used? record field).map (assign key.toList)).toList

/-- The assignments for the fields of a record other than its codes, in order. -/
def fieldAssignments (record : Record) : List Assignment :=
  registerAssignments record ++ plainTerms.flatMap fun (field, key) =>
    plainAssignments record field key

/-- The assignments that encode the record with that code, in order. -/
def encodedAssignments (record : Record) (code : Word) : List Assignment :=
  codeAssignment code :: fieldAssignments record

/-- The filter of a record, if it is used. -/
def filter? (record : Record) : Option Text := (record.field? "Filter").filter (· ≠ "na".toList)

/-- The texts that are put behind the code of a record, in order. -/
def copiedTexts (record : Record) : List Text :=
  (filter? record).toList ++ (fieldAssignments record).map Assignment.text

/-- The text of an assignment behind a comma. -/
theorem text_assign (key written : Text) :
    [','] ++ (assign key written).text = valueTerm key written := rfl

/-- **The encoding is a list of texts**: the code, the filter and the assignments. -/
theorem encoding_eq_joinWith (record : Record) (code : Word) :
    encoding record code = Text.joinWith [','] ((codeAssignment code).text :: copiedTexts record) := by
  have hcode : eventTerm code = (codeAssignment code).text := rfl
  have hfilter : filterTerms record = (filter? record).toList.flatMap fun t => [','] ++ t := by
    rw [filterTerms, ← filter?]
    cases filter? record with
    | none => rfl
    | some t => rw [Option.toList_some, List.flatMap_singleton, List.singleton_append]
  have hregister : registerTerms record =
      (registerAssignments record).flatMap fun a => [','] ++ a.text := by
    rw [registerTerms, registerAssignments]
    generalize (record.field? "MSRIndex").bind registerTerm? = key?
    generalize record.field? "MSRValue" = value?
    rcases key? with _ | key <;> rcases value? with _ | value
    · rfl
    · rfl
    · rfl
    · rw [List.flatMap_singleton, text_assign]
  have hplain : ∀ field key : String, plainTerm record field key =
      (plainAssignments record field key).flatMap fun a => [','] ++ a.text := by
    intro field key
    rw [plainTerm, plainAssignments]
    cases used? record field with
    | none => rfl
    | some value =>
      rw [Option.map_some, Option.toList_some, List.flatMap_singleton, text_assign]
  rw [encoding, hcode, hfilter, hregister, Text.joinWith_cons_eq_flatMap, copiedTexts,
    fieldAssignments, List.flatMap_append, List.flatMap_map, List.flatMap_append,
    List.flatMap_assoc, List.append_assoc, List.append_assoc]
  simp only [hplain]

/-- **The encoding is a list of assignments**, unless the record has a filter. -/
theorem encoding_eq_listing (hfilter : filterTerms record = []) (code : Word) :
    encoding record code = Assignment.listing (encodedAssignments record code) := by
  have hnone : filter? record = none := by
    rw [filterTerms, ← filter?] at hfilter
    cases hused : filter? record with
    | none => rfl
    | some t => simp [hused] at hfilter
  rw [encoding_eq_joinWith, copiedTexts, hnone, Option.toList_none, List.nil_append,
    Assignment.listing, encodedAssignments, List.map_cons]

/-! ## 3. Known assignments -/

/-- The keys of the assignments that encode records. -/
def encodingKeys : List Text :=
  ["event", "ldlat", "offcore_rsp", "frontend", "any", "edge", "inv", "cmask", "period",
    "umask"].map String.toList

/-- The assignment is to one of these keys, and of a number. -/
def Known (a : Assignment) : Prop :=
  a.key ∈ encodingKeys ∧ Numeral.readWord a.written = .ok a.value

/-- The keys can be told from the rest of a list and of a descriptor. -/
theorem encodingKeys_plain {key : Text} (h : key ∈ encodingKeys) :
    key ≠ [] ∧ Text.trim key = key ∧ ∀ c ∈ [',', '=', '/', ':'], c ∉ key := by
  have hspelled : ∀ key ∈ encodingKeys, key ≠ [] ∧ Text.trim key = key := by decide +kernel
  have hplain : ∀ key ∈ encodingKeys, ∀ c ∈ [',', '=', '/', ':'], c ∉ key := by
    simp [encodingKeys]
  exact ⟨(hspelled key h).1, (hspelled key h).2, hplain key h⟩

theorem Known.proper {a : Assignment} (h : Known a) : a.Proper := by
  obtain ⟨hne, htrim, hplain⟩ := encodingKeys_plain h.1
  exact ⟨hne, htrim, hplain, h.2⟩

theorem known_codeAssignment (code : Word) : Known (codeAssignment code) := by
  have hkey : "event".toList ∈ encodingKeys := by decide +kernel
  refine ⟨hkey, ?_⟩
  rw [codeAssignment]
  split
  · rename_i hzero
    rw [hzero]
    rfl
  · exact Numeral.readWord_hex code

theorem mem_registerAssignments {a : Assignment} :
    a ∈ registerAssignments record ↔ ∃ index key value, record.field? "MSRIndex" = some index ∧
      registerTerm? index = some key ∧ record.field? "MSRValue" = some value ∧
      a = assign key value := by
  rw [registerAssignments]
  split
  · rename_i key value hkey hvalue
    obtain ⟨index, hindex, hterm⟩ := Option.bind_eq_some_iff.mp hkey
    rw [List.mem_singleton]
    constructor
    · rintro rfl
      exact ⟨index, key, value, hindex, hterm, hvalue, rfl⟩
    · rintro ⟨index', key', value', hindex', hterm', hvalue', rfl⟩
      rw [hindex, Option.some.injEq] at hindex'
      rw [← hindex', hterm, Option.some.injEq] at hterm'
      rw [hvalue, Option.some.injEq] at hvalue'
      rw [hterm', hvalue']
  · rename_i hnone
    constructor
    · intro hmem
      cases hmem
    · rintro ⟨index, key, value, hindex, hterm, hvalue, -⟩
      exact absurd hvalue (hnone key value (by rw [hindex]; exact hterm))

theorem mem_plainAssignments {field key : String} {a : Assignment} :
    a ∈ plainAssignments record field key ↔
      ∃ value, used? record field = some value ∧ a = assign key.toList value := by
  rw [plainAssignments, Option.mem_toList, Option.map_eq_some_iff]
  exact exists_congr fun value => and_congr_right fun _ => eq_comm

/-- The keys of the assignments for model-specific registers. -/
def registerKeys : List Text := ["ldlat", "offcore_rsp", "frontend"].map String.toList

theorem registerTerm?_mem_registerKeys {index key : Text} (h : registerTerm? index = some key) :
    key ∈ registerKeys := by
  rw [registerKeys]
  simp only [registerTerm?] at h
  split at h
  · simp [← Option.some.inj h]
  · split at h
    · simp [← Option.some.inj h]
    · split at h
      · simp [← Option.some.inj h]
      · cases h

theorem mem_fieldAssignments {a : Assignment} :
    a ∈ fieldAssignments record ↔ a ∈ registerAssignments record ∨
      ∃ entry ∈ plainTerms, a ∈ plainAssignments record entry.1 entry.2 := by
  simp only [fieldAssignments, List.mem_append, List.mem_flatMap]

theorem mem_encodedAssignments {code : Word} {a : Assignment} :
    a ∈ encodedAssignments record code ↔ a = codeAssignment code ∨ a ∈ registerAssignments record ∨
      ∃ entry ∈ plainTerms, a ∈ plainAssignments record entry.1 entry.2 := by
  rw [encodedAssignments, List.mem_cons, mem_fieldAssignments]

/-- The assignments of a record are to keys of its encoding, and of what its fields hold. -/
theorem exists_field_of_mem_fieldAssignments {a : Assignment} (h : a ∈ fieldAssignments record) :
    a.key ∈ encodingKeys ∧ ∃ field ∈ numberFields, record.field? field = some a.written ∧
      a.value = wordOf a.written := by
  rcases mem_fieldAssignments.mp h with hregister | ⟨⟨field, key⟩, hentry, hplain⟩
  · obtain ⟨index, key, value, -, hterm, hvalue, rfl⟩ := mem_registerAssignments.mp hregister
    have hkeys : ∀ key ∈ registerKeys, key ∈ encodingKeys := by decide +kernel
    exact ⟨hkeys key (registerTerm?_mem_registerKeys hterm), "MSRValue", by decide, hvalue, rfl⟩
  · obtain ⟨value, hused, rfl⟩ := mem_plainAssignments.mp hplain
    have hknown : ∀ entry ∈ plainTerms,
        entry.1 ∈ numberFields ∧ entry.2.toList ∈ encodingKeys := by
      decide +kernel
    obtain ⟨hfield, hkey⟩ := hknown _ hentry
    exact ⟨hkey, field, hfield, (used?_eq_some_iff.mp hused).1, rfl⟩

/-- **Every assignment is known**, so the list of them is read as it is. -/
theorem known_of_mem_encodedAssignments (h : Numeric record) {code : Word} {a : Assignment}
    (ha : a ∈ encodedAssignments record code) : Known a := by
  rw [encodedAssignments] at ha
  rcases List.mem_cons.mp ha with rfl | ha
  · exact known_codeAssignment code
  · obtain ⟨hkey, field, hfield, hwritten, hvalue⟩ := exists_field_of_mem_fieldAssignments ha
    exact ⟨hkey, hvalue ▸ h.readWord_eq hfield hwritten⟩

/-! ## 4. Texts without blanks around them -/

theorem mem_copiedTexts {t : Text} :
    t ∈ copiedTexts record ↔ filter? record = some t ∨ ∃ a ∈ fieldAssignments record, a.text = t := by
  rw [copiedTexts, List.mem_append, Option.mem_toList, List.mem_map]

/-- An assignment of a trimmed text to a key of an encoding is trimmed. -/
theorem trim_text {a : Assignment} (hkey : a.key ∈ encodingKeys)
    (hwritten : Text.trim a.written = a.written) (hne : a.written ≠ []) :
    Text.trim a.text = a.text ∧ a.text ≠ [] := by
  obtain ⟨hkeyNe, hkeyTrim, -⟩ := encodingKeys_plain hkey
  have htext : a.text = a.key ++ ['='] ++ a.written := by
    rw [Assignment.text, List.append_assoc, List.singleton_append]
  rw [htext]
  exact ⟨Text.trim_append_append hkeyTrim hkeyNe hwritten hne ['='], by simp [hkeyNe]⟩

theorem trim_codeText (code : Word) :
    Text.trim (codeAssignment code).text = (codeAssignment code).text ∧
      (codeAssignment code).text ≠ [] := by
  have hwritten : Text.trim (codeAssignment code).written = (codeAssignment code).written ∧
      (codeAssignment code).written ≠ [] := by
    rw [codeAssignment]
    split
    · have hzero : Text.trim ['0'] = ['0'] := by decide
      exact ⟨hzero, List.cons_ne_nil _ _⟩
    · exact ⟨Numeral.trim_hex code, List.cons_ne_nil _ _⟩
  exact trim_text (known_codeAssignment code).1 hwritten.1 hwritten.2

theorem trim_copiedText {t : Text} (h : t ∈ copiedTexts record) : Text.trim t = t ∧ t ≠ [] := by
  rcases mem_copiedTexts.mp h with hfilter | ⟨a, ha, rfl⟩
  · rw [filter?, Option.filter_eq_some_iff] at hfilter
    exact Record.field?_trimmed hfilter.1
  · obtain ⟨hkey, field, -, hwritten, -⟩ := exists_field_of_mem_fieldAssignments ha
    obtain ⟨htrim, hne⟩ := Record.field?_trimmed hwritten
    exact trim_text hkey htrim hne

/-- No blanks are around an encoding. -/
theorem trim_encoding (record : Record) (code : Word) :
    Text.trim (encoding record code) = encoding record code := by
  rw [encoding_eq_joinWith]
  exact Text.trim_joinWith [','] (List.forall_mem_cons.mpr
    ⟨trim_codeText code, fun _ ht => trim_copiedText ht⟩)

/-- A number in the notation of an assignment is a term of its own. -/
theorem ofPart_assignment {key written : Text} (hkey : key ∈ encodingKeys) :
    Term.ofPart (key ++ '=' :: written) = ⟨key, some (Text.trim written)⟩ := by
  obtain ⟨-, htrim, hplain⟩ := encodingKeys_plain hkey
  rw [Term.ofPart, Text.cut?_append written (hplain '=' (by decide))]
  simp only [htrim]

end CatalogEvent

end HardwareCounters
