/-
# Numbers that are copied unread

Of all the numbers in a record, a load reads its two codes.  The others are copied as they are written
into the terms of the event, where nothing reads them until the event is resolved.  A malformed one
does not fail the file; it makes the event of its record one that no PMU can count.

* `CatalogEvent.CopiedTerm`: the terms of an event that come from such texts;
* `mem_encoding_iff`: apart from these there is only the code in the terms of an event;
* `Catalog.numbers_of_loadFiles` says what is known about the numbers of a loaded catalog, and
  `Catalog.uncheckedMask_loaded` is a file that is loaded in spite of a malformed one.
-/
import HardwareCounters.Proofs.Catalog.Replacement
import HardwareCounters.Proofs.Resolver.Record
import HardwareCounters.Proofs.Term.Failing

namespace HardwareCounters

namespace CatalogEvent

variable {record : Record} {s : Sysfs} {event : CatalogEvent} {term : Term}

/-! ## 1. The terms of an encoding -/

/-- The first alternative of a text is a number. -/
def StartsWithNumber (t : Text) : Prop := ∃ value, Numeral.readWord (Text.upTo ',' t) = .ok value

/-- The term is spelled by a part of the texts that are put behind the code of a record. -/
def CopiedTerm (record : Record) (term : Term) : Prop :=
  ∃ t ∈ copiedTexts record, ∃ part ∈ Text.splitOn ',' t, part ≠ [] ∧ term = Term.ofPart part

/-- **The terms of an encoding** are that of the code and those that were copied. -/
theorem mem_encoding_iff {code : Word} {terms : List Term}
    (h : Term.parseList? (encoding record code) = some terms) :
    term ∈ terms ↔ term = (codeAssignment code).term ∨ CopiedTerm record term := by
  have hcode := known_codeAssignment code
  have hcomma : ',' ∉ (codeAssignment code).text := hcode.proper.not_mem_text (by decide)
  have hpart : Term.ofPart (codeAssignment code).text = (codeAssignment code).term :=
    ofPart_assignment hcode.1
  rw [Term.parseList?, trim_encoding, encoding_eq_joinWith] at h
  -- The code is one part; the other texts may hold commas and are cut again.
  rw [Term.mem_iff_of_parseTrimmed? h, Text.splitOn_joinWith_eq_flatMap _ (List.cons_ne_nil _ _),
    List.flatMap_cons, Text.splitOn_of_not_mem hcomma]
  simp only [List.mem_append, List.mem_singleton, List.mem_flatMap, or_and_right, exists_or,
    exists_eq_left, hpart, CopiedTerm]
  refine or_congr (and_iff_right (trim_codeText code).2) ⟨?_, ?_⟩
  · rintro ⟨part, ⟨t, ht, hmem⟩, hne, rfl⟩
    exact ⟨t, ht, part, hmem, hne, rfl⟩
  · rintro ⟨t, ht, part, hmem, hne, rfl⟩
    exact ⟨part, ⟨t, ht, hmem⟩, hne, rfl⟩

/-- The first alternative of a field is the number of a copied term. -/
theorem copiedTerm_of_mem_fieldAssignments {a : Assignment} (h : a ∈ fieldAssignments record) :
    a.key ∈ encodingKeys ∧ CopiedTerm record ⟨a.key, some (Text.trim (Text.upTo ',' a.written))⟩ := by
  obtain ⟨hkey, -⟩ := exists_field_of_mem_fieldAssignments h
  obtain ⟨hne, -, hplain⟩ := encodingKeys_plain hkey
  have hall : ∀ c ∈ a.key ++ ['='], decide (c ≠ ',') = true := by
    intro c hc
    have hcomma : c ≠ ',' := by
      rintro rfl
      rcases List.mem_append.mp hc with hc | hc
      · exact hplain ',' (by decide) hc
      · exact absurd hc (by decide)
    exact decide_eq_true hcomma
  -- No comma stands in front of the value, so the first part ends where its first alternative does.
  have hfirst : Text.upTo ',' a.text = a.key ++ '=' :: Text.upTo ',' a.written := by
    have htext : a.text = (a.key ++ ['=']) ++ a.written := by
      rw [Assignment.text, List.append_assoc, List.singleton_append]
    rw [htext, Text.upTo, List.takeWhile_append_of_pos hall, Text.upTo, List.append_assoc,
      List.singleton_append]
  obtain ⟨pieces, hpieces⟩ := Text.exists_splitOn_eq_cons ',' a.text
  refine ⟨hkey, a.text, mem_copiedTexts.mpr (Or.inr ⟨a, h, rfl⟩), Text.upTo ',' a.text, ?_, ?_, ?_⟩
  · rw [hpieces]
    exact List.mem_cons_self
  · rw [hfirst]
    simp
  · rw [hfirst, ofPart_assignment hkey]

/-! ## 2. Events with malformed numbers -/

/-- What the numbers in the texts of a record mean for its event. -/
structure Unread (record : Record) (event : CatalogEvent) : Prop where
  /-- With a malformed number in a field the event cannot be resolved, whatever the PMUs. -/
  unresolved : ∀ a ∈ fieldAssignments record, ¬ StartsWithNumber a.written →
    ∀ s, ∃ e, Descriptor.resolve s event.descriptor = .error e
  /-- A number that is reported stands in a text that was copied, or in an alias of the PMU. -/
  reported : ∀ s term cause, Descriptor.resolve s event.descriptor = .error (.badTerm term cause) →
    term.number = .error cause ∧ (CopiedTerm record term ∨
      ∃ id directory key expansion, s.pmuType? event.pmu = some (id, directory) ∧
        s.alias? directory key = some expansion ∧ Term.ListedIn expansion term)

/-- A record with a name has an event with its PMU and, under some code, its encoding. -/
theorem exists_code_of_ofRecord? (h : ofRecord? record = .ok (some event)) :
    event.pmu = pmuOf record ∧ ∃ code, event.encoded = encoding record code := by
  rw [ofRecord?] at h
  split at h
  · cases h
  · cases hcode : eventCode record with
    | error e =>
      rw [hcode] at h
      cases h
    | ok code =>
      rw [hcode] at h
      cases h
      exact ⟨rfl, code, rfl⟩

/-- A field without a number in front fails the terms of every event of its record. -/
theorem not_apply_ok {code : Word} {a : Assignment} (ha : a ∈ fieldAssignments record)
    (hmalformed : ¬ StartsWithNumber a.written) (s : Sysfs) (directory : Text) (attr : Attribute) :
    (Term.apply s directory (encoding record code) attr).1 ≠ .ok () := by
  intro h
  obtain ⟨terms, hterms, hnumbers⟩ := Term.exists_number_of_applyText h
  obtain ⟨hkey, hcopied⟩ := copiedTerm_of_mem_fieldAssignments ha
  have hlabel : a.key ≠ Term.labelKey := by
    have hall : ∀ key ∈ encodingKeys, key ≠ Term.labelKey := by decide +kernel
    exact hall a.key hkey
  obtain ⟨value, hvalue⟩ := hnumbers _ ((mem_encoding_iff hterms).mpr (Or.inr hcopied)) hlabel
  refine hmalformed ⟨value, ?_⟩
  rw [← Numeral.readWord_trim]
  exact hvalue

section Resolving

variable {code : Word} (hcode : event.encoded = encoding record code) (hne : event.pmu ≠ [])
  (hpmu : Descriptor.Plain event.pmu) (hencoded : Descriptor.Plain event.encoded)

include hcode hne hpmu hencoded

theorem exists_error_of_malformed {a : Assignment} (ha : a ∈ fieldAssignments record)
    (hmalformed : ¬ StartsWithNumber a.written) (s : Sysfs) :
    ∃ e, Descriptor.resolve s event.descriptor = .error e := by
  cases hresolve : Descriptor.resolve s event.descriptor with
  | error e => exact ⟨e, rfl⟩
  | ok attr =>
    cases hid : s.pmuType? event.pmu with
    | none =>
      have hparse := Descriptor.parse?_pmuEvent hne hpmu hencoded
      rw [descriptor, Descriptor.resolve_pmu_of_unknown hparse hid] at hresolve
      cases hresolve
    | some found =>
      obtain ⟨id, directory⟩ := found
      have happly := (Descriptor.resolve_pmuEvent_eq_ok_iff hne hpmu hencoded hid).mp hresolve
      rw [hcode] at happly
      exact absurd (congrArg Prod.fst happly) (not_apply_ok ha hmalformed s directory _)

theorem copied_of_badTerm {cause : NumberError}
    (hresolve : Descriptor.resolve s event.descriptor = .error (.badTerm term cause)) :
    term.number = .error cause ∧ (CopiedTerm record term ∨
      ∃ id directory key expansion, s.pmuType? event.pmu = some (id, directory) ∧
        s.alias? directory key = some expansion ∧ Term.ListedIn expansion term) := by
  have hparse := Descriptor.parse?_pmuEvent hne hpmu hencoded
  cases hid : s.pmuType? event.pmu with
  | none =>
    rw [descriptor, Descriptor.resolve_pmu_of_unknown hparse hid] at hresolve
    cases hresolve
  | some found =>
    obtain ⟨id, directory⟩ := found
    have happly := (Descriptor.resolve_pmu_eq_error_iff hparse hid).mp hresolve
    obtain ⟨hnumber, ⟨terms, hterms, hmem⟩ | ⟨key, expansion, halias, hlisted⟩⟩ :=
      Term.listedIn_of_badTerm happly
    · refine ⟨hnumber, Or.inl ?_⟩
      rw [hcode] at hterms
      rcases (mem_encoding_iff hterms).mp hmem with rfl | hcopied
      · -- The code was written as a number.
        rw [(known_codeAssignment code).proper.number_term] at hnumber
        cases hnumber
      · exact hcopied
    · exact ⟨hnumber, Or.inr ⟨id, directory, key, expansion, rfl, halias, hlisted⟩⟩

end Resolving

theorem unread_of_ofRecord? (h : ofRecord? record = .ok (some event))
    (hpmu : Descriptor.Plain event.pmu) (hencoded : Descriptor.Plain event.encoded) :
    Unread record event := by
  obtain ⟨heq, code, hcode⟩ := exists_code_of_ofRecord? h
  have hne : event.pmu ≠ [] := heq ▸ pmuOf_ne_nil record
  exact ⟨fun a ha hmalformed s => exists_error_of_malformed hcode hne hpmu hencoded ha hmalformed s,
    fun s term cause hresolve => copied_of_badTerm hcode hne hpmu hencoded hresolve⟩

end CatalogEvent

/-! ## 3. Loaded catalogs -/

/-- **Numbers of a loaded catalog.**  Whatever the files, after a load the codes of every record with a
name start with a number.  Nothing is known about the other fields: if one of them does not, the event
of its record is in the catalog nevertheless and cannot be resolved under any PMU; and a number that is
reported when an event is resolved is never the code, but stands in a text of the record that was
copied, or in an alias of the PMU. -/
theorem Catalog.numbers_of_loadFiles {catalog loaded : Catalog} {files : FileTree}
    {paths : List Text} {n : Nat} (h : catalog.loadFiles files paths = (.ok n, loaded)) :
    (∀ record ∈ EventTable.recordsOf files paths, record.Sound) ∧
    ∀ name before record after, EventTable.recordsOf files paths = before ++ record :: after →
      record.key? = some (Text.lowercase name) → (∀ other ∈ after, other.key? ≠ record.key?) →
      ∃ event, loaded.find? name = some event ∧
        (Descriptor.Plain event.pmu → Descriptor.Plain event.encoded →
          CatalogEvent.Unread record event) := by
  refine ⟨?_, ?_⟩
  · have hinsert := insertRecords_loadFiles h
    rcases EventTable.insertRecords_outcome [] (EventTable.recordsOf files paths) with
      ⟨-, -, hsound⟩ | ⟨-, -, -, e, -, -, -, he⟩
    · exact hsound
    · rw [he] at hinsert
      cases hinsert
  · intro name before record after hrecords hkey hlast
    obtain ⟨event, hevent, hfind⟩ := find?_loadFiles h hrecords hkey hlast
    exact ⟨event, hfind, CatalogEvent.unread_of_ofRecord? hevent⟩

namespace Example

/-- A catalog file with one record whose mask is no number. -/
def uncheckedFiles : FileTree :=
  ({} : FileTree).write "/core.json".toList (.text
    "[\x7b\"EventName\":\"a\",\"UMask\":\"zz\"\x7d]".toList)

/-- The record of the file. -/
def uncheckedRecord : Record :=
  ⟨[("EventName".toList, "a".toList), ("UMask".toList, "zz".toList)]⟩

/-- The catalog with that file. -/
def uncheckedCatalog : Catalog := (({} : Catalog).loadFiles uncheckedFiles ["/core.json".toList]).2

/-- The event of the record. -/
def uncheckedEvent : CatalogEvent :=
  { name := "a".toList, encoded := "event=0,umask=zz".toList, pmu := "cpu".toList }

theorem not_startsWithNumber_unchecked : ¬ CatalogEvent.StartsWithNumber "zz".toList := by
  rintro ⟨value, hvalue⟩
  cases hvalue

end Example

open Example in
theorem Catalog.numbers_of_loadFiles_unchecked :
    ({} : Catalog).loadFiles uncheckedFiles ["/core.json".toList] = (.ok 1, uncheckedCatalog) ∧
      uncheckedRecord.Sound ∧ ∃ event, uncheckedCatalog.find? "A".toList = some event ∧
        ∀ s, ∃ e, Descriptor.resolve s event.descriptor = .error e := by
  have hload : ({} : Catalog).loadFiles uncheckedFiles ["/core.json".toList] =
      (.ok 1, uncheckedCatalog) := rfl
  have hrecords : EventTable.recordsOf uncheckedFiles ["/core.json".toList] =
      [] ++ uncheckedRecord :: [] := by
    decide +kernel
  have hkey : uncheckedRecord.key? = some (Text.lowercase "A".toList) := by decide +kernel
  obtain ⟨hsound, hunread⟩ := numbers_of_loadFiles hload
  obtain ⟨event, hfind, hplain⟩ :=
    hunread "A".toList [] uncheckedRecord [] hrecords hkey fun _ hother => nomatch hother
  have hevent : uncheckedCatalog.find? "A".toList = some uncheckedEvent := rfl
  rw [hevent, Option.some.injEq] at hfind
  subst hfind
  have hmem : uncheckedRecord ∈ EventTable.recordsOf uncheckedFiles ["/core.json".toList] := by
    rw [hrecords]
    exact List.mem_singleton_self _
  refine ⟨hload, hsound uncheckedRecord hmem, uncheckedEvent, hevent, ?_⟩
  have hpmu : Descriptor.Plain uncheckedEvent.pmu :=
    Descriptor.plain_iff.mpr ⟨by decide, by decide⟩
  have hencoded : Descriptor.Plain uncheckedEvent.encoded :=
    Descriptor.plain_iff.mpr ⟨by decide, by decide⟩
  refine (hplain hpmu hencoded).unresolved
    (CatalogEvent.assign "umask".toList "zz".toList) ?_ not_startsWithNumber_unchecked
  have hassignments : CatalogEvent.fieldAssignments uncheckedRecord =
      [CatalogEvent.assign "umask".toList "zz".toList] := rfl
  rw [hassignments]
  exact List.mem_singleton_self _

open Example in
/-- **A malformed mask is loaded**, and found only when the event is resolved. -/
theorem Catalog.uncheckedMask_loaded :
    ({} : Catalog).loadFiles uncheckedFiles ["/core.json".toList] = (.ok 1, uncheckedCatalog) ∧
      uncheckedRecord ∈ EventTable.recordsOf uncheckedFiles ["/core.json".toList] ∧
      uncheckedRecord.field? "UMask" = some "zz".toList ∧
      ¬ CatalogEvent.StartsWithNumber "zz".toList ∧
      ∃ event, uncheckedCatalog.find? "a".toList = some event ∧
        Descriptor.resolve coreSysfs event.descriptor =
          .error (.badTerm ⟨"umask".toList, some "zz".toList⟩ .invalidDigit) := by
  exact ⟨rfl, by decide +kernel, rfl, not_startsWithNumber_unchecked, uncheckedEvent, rfl, rfl⟩

end HardwareCounters
