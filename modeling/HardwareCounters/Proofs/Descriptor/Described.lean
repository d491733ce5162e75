/-
# Attributes that are written and read back

An attribute is written as an event of the PMU with its type id, by terms for its configuration words
and for a label.  What is written is a list of terms that is read as it was; each term sets its word
or does nothing, and a word that is left out is 0 in the attribute that the reader starts from.  So
the words are read back, and whatever the descriptor does not say is as in a raw event.

* `Attribute.describedTerms`: the terms of an attribute, which `exists_pmu_of_describe` says are what
  is written;
* `applyEach_describedTerms`: what the terms do;
* `resolve_describe`: the attribute that the text of an attribute stands for.
-/
import HardwareCounters.Proofs.Descriptor.Spelling
import HardwareCounters.Proofs.Sysfs.Found
import HardwareCounters.Proofs.Term.Applying
import HardwareCounters.Proofs.Term.Listing

namespace HardwareCounters

variable {glob : Glob} {s : Sysfs} {directory : Text} {attr : Attribute} {label? : Option Text}

namespace Term

/-! ## 1. The terms that are written -/

/-- The term that sets a configuration word. -/
def ofWord (which : ConfigWord) (value : Word) : Term :=
  ⟨which.key.toList, some (Numeral.hex value.toNat)⟩

/-- The term that sets a configuration word, unless it is 0. -/
def ofWordUnlessZero (which : ConfigWord) (value : Word) : List Term :=
  if value = 0 then [] else [ofWord which value]

/-- The term that labels an event, unless there is no label or an empty one. -/
def ofLabel : Option Text → List Term
  | none => []
  | some label => if label = [] then [] else [⟨labelKey, some label⟩]

/-- Terms behind others: each one after a comma. -/
def continuation (terms : List Term) : Text := terms.flatMap fun term => ',' :: term.text

theorem listing_cons (term : Term) (terms : List Term) :
    listing (term :: terms) = term.text ++ continuation terms := by
  rw [listing, List.map_cons, Text.joinWith_cons_eq_flatMap, List.flatMap_map]
  rfl

theorem continuation_append (terms others : List Term) :
    continuation (terms ++ others) = continuation terms ++ continuation others :=
  List.flatMap_append

theorem continuation_ofWordUnlessZero (which : ConfigWord) (value : Word) :
    continuation (ofWordUnlessZero which value) = optionalHexTerm which.key value := by
  rw [ofWordUnlessZero, optionalHexTerm]
  split
  · rfl
  · simp [continuation, hexTerm, ofWord, text]

theorem continuation_ofLabel (label? : Option Text) :
    continuation (ofLabel label?) = labelTerm label? := by
  cases label? with
  | none => rfl
  | some label =>
    simp only [ofLabel, labelTerm]
    split
    · rfl
    · simp [continuation, text]

end Term

/-- The terms of an attribute: its configuration words, of which all but the first are left out if
they are 0, and the label. -/
def Attribute.describedTerms (attr : Attribute) (label? : Option Text) : List Term :=
  Term.ofWord .config attr.config :: (Term.ofWordUnlessZero .config1 attr.config1 ++
    Term.ofWordUnlessZero .config2 attr.config2 ++ Term.ofLabel label?)

/-- What is written for an attribute are its terms, as an event of the PMU with its type id. -/
theorem Attribute.exists_pmu_of_describe {text : Text} (h : attr.describe glob s label? = .ok text) :
    ∃ pmu, s.pmuName? glob attr.pmuType = .ok (some pmu) ∧
      text = pmuEvent pmu (Term.listing (attr.describedTerms label?)) := by
  rw [describe] at h
  split at h
  · cases h
  · cases h
  · rename_i pmu hpmu
    cases h
    refine ⟨pmu, hpmu, ?_⟩
    rw [describedTerms, Term.listing_cons, Term.continuation_append, Term.continuation_append,
      Term.continuation_ofWordUnlessZero, Term.continuation_ofWordUnlessZero,
      Term.continuation_ofLabel, ← List.append_assoc, ← List.append_assoc]
    rfl

/-! ## 2. The terms are read as they were written -/

namespace Term

/-- A term that may stand in the list of a descriptor and is read there as it is. -/
structure Legible (term : Term) : Prop where
  spelled : term.Spelled
  plain : Descriptor.Plain term.text

theorem ofWord_legible (which : ConfigWord) (value : Word) : (ofWord which value).Legible := by
  have hkey : ∀ c ∈ [',', '=', '/', ':'], c ∉ which.key.toList := by
    cases which <;> simp [ConfigWord.key]
  have hnumber : ∀ c ∈ [',', '/', ':'], c ∉ Numeral.hex value.toNat := by
    intro c hc
    exact Numeral.separator_not_mem_of_readWord hc (Numeral.readWord_hex value)
  constructor
  · constructor
    · cases which <;> exact List.cons_ne_nil _ _
    · cases which <;> exact rfl
    · exact hkey '=' (by decide)
    · exact hkey ',' (by decide)
    · rintro _ ⟨⟩
      exact hnumber ',' (by decide)
  · rw [Descriptor.plain_iff]
    simp [text, ofWord, hkey, hnumber]

theorem legible_of_mem_ofWordUnlessZero {which : ConfigWord} {value : Word} {term : Term}
    (h : term ∈ ofWordUnlessZero which value) : term.Legible := by
  rw [ofWordUnlessZero] at h
  split at h
  · cases h
  · rw [List.mem_singleton.mp h]
    exact ofWord_legible which value

theorem legible_of_mem_ofLabel
    (hlabel : ∀ label ∈ label?, ',' ∉ label ∧ Descriptor.Plain label) {term : Term}
    (h : term ∈ ofLabel label?) : term.Legible := by
  cases label? with
  | none => cases h
  | some label =>
    obtain ⟨hcomma, hplain⟩ := hlabel label rfl
    rw [ofLabel] at h
    split at h
    · cases h
    · rw [List.mem_singleton.mp h]
      constructor
      · constructor
        · exact List.cons_ne_nil _ _
        · exact (rfl : Text.trim labelKey = labelKey)
        · exact (by decide : '=' ∉ labelKey)
        · exact (by decide : ',' ∉ labelKey)
        · rintro _ ⟨⟩
          exact hcomma
      · rw [Descriptor.plain_iff] at hplain ⊢
        simp [text, labelKey, hplain]

/-- The list of legible terms may stand in a descriptor. -/
theorem plain_listing {terms : List Term} (h : ∀ term ∈ terms, term.Legible) :
    Descriptor.Plain (listing terms) := by
  refine Descriptor.plain_joinWith (Descriptor.plain_iff.mpr (by simp)) ?_
  intro piece hpiece
  obtain ⟨term, hterm, rfl⟩ := List.mem_map.mp hpiece
  exact (h term hterm).plain

end Term

theorem Attribute.legible_of_mem_describedTerms
    (hlabel : ∀ label ∈ label?, ',' ∉ label ∧ Descriptor.Plain label) {term : Term}
    (h : term ∈ attr.describedTerms label?) : term.Legible := by
  rw [describedTerms, List.mem_cons, List.mem_append, List.mem_append] at h
  rcases h with rfl | (h | h) | h
  · exact Term.ofWord_legible .config attr.config
  · exact Term.legible_of_mem_ofWordUnlessZero h
  · exact Term.legible_of_mem_ofWordUnlessZero h
  · exact Term.legible_of_mem_ofLabel hlabel h

/-! ## 3. What the terms do -/

section Applying

variable (s directory) (alias? : Text → Option (Attribute → Applied))

/-- The word of a term is set, even if there is a bit field or an alias of that name. -/
theorem applyOne_ofWord (which : ConfigWord) (value : Word) (attr : Attribute) :
    Term.applyOne s directory alias? (Term.ofWord which value).trimmed attr =
      (.ok (), attr.setWord which value) := by
  have hkey : (Term.ofWord which value).trimmed.key = which.key.toList := rfl
  have hlabel : which.key.toList ≠ Term.labelKey := by cases which <;> decide
  have hnumber : (Term.ofWord which value).trimmed.number = .ok value := by
    exact (Numeral.readWord_trim _).trans (Numeral.readWord_hex value)
  simp only [Term.applyOne, hkey, if_neg hlabel, hnumber, Term.setDirectly?_key]

/-- A word that is left out is as it would have been set. -/
theorem applyEach_ofWordUnlessZero {which : ConfigWord} {attr : Attribute} (value : Word)
    (h : attr.word which = 0) :
    Term.applyEach (Term.applyOne s directory alias?)
        ((Term.ofWordUnlessZero which value).map Term.trimmed) attr =
      (.ok (), attr.setWord which value) := by
  rw [Term.ofWordUnlessZero]
  split
  · rename_i hzero
    have hsame : attr.setWord which 0 = attr := by
      rw [← h]
      cases which <;> rfl
    rw [hzero, hsame]
    rfl
  · rw [List.map_singleton, Term.applyEach_singleton, applyOne_ofWord]

theorem applyEach_ofLabel (label? : Option Text) (attr : Attribute) :
    Term.applyEach (Term.applyOne s directory alias?)
      ((Term.ofLabel label?).map Term.trimmed) attr = (.ok (), attr) := by
  cases label? with
  | none => rfl
  | some label =>
    rw [Term.ofLabel]
    split
    · rfl
    · rw [List.map_singleton, Term.applyEach_singleton, Term.applyOne]
      rfl

/-- **The terms set the words.**  What they do to an attribute without configuration is to give it
the configuration that was written. -/
theorem applyEach_describedTerms (attr : Attribute) (label? : Option Text) (id : BitVec 32) :
    Term.applyEach (Term.applyOne s directory alias?)
        ((attr.describedTerms label?).map Term.trimmed) { Attribute.raw with pmuType := id } =
      (.ok (),
        { pmuType := id
          config := attr.config
          config1 := attr.config1
          config2 := attr.config2 }) := by
  rw [Attribute.describedTerms, List.map_cons, Term.applyEach, applyOne_ofWord, List.map_append,
    List.map_append]
  simp only
  rw [Term.applyEach_append, Term.applyEach_append, applyEach_ofWordUnlessZero (h := rfl)]
  simp only
  rw [applyEach_ofWordUnlessZero (h := rfl)]
  exact applyEach_ofLabel s directory alias? label? _

end Applying

/-- **What is written is read back.**  The text of an attribute, with or without a label, stands for
the attribute with its type id and its configuration words, and with the defaults for everything
else.  No bit field and no alias can intervene, and no other directory with the same type id.  The PMU
is found by any search that finds paths as its pattern says, from a root that is no pattern itself. -/
theorem resolve_describe (hglob : glob.Sound) {s : Sysfs} (hroot : s.PlainRoot) (attr : Attribute)
    {label? : Option Text}
    (hlabel : ∀ label, label? = some label → ',' ∉ label ∧ '/' ∉ label ∧ ':' ∉ label) {text : Text}
    (h : attr.describe glob s label? = .ok text)
    (hpmu : ∀ pmu, s.pmuName? glob attr.pmuType = .ok (some pmu) → ':' ∉ pmu) :
    Descriptor.resolve s text = .ok
      { pmuType := attr.pmuType
        config := attr.config
        config1 := attr.config1
        config2 := attr.config2 } := by
  obtain ⟨pmu, hname, rfl⟩ := Attribute.exists_pmu_of_describe h
  obtain ⟨name, rfl, htype⟩ := hroot.exists_typeOf?_of_pmuName? hglob hname
  obtain ⟨hne, -, -, hslash⟩ := name.proper
  have hlegible : ∀ term ∈ attr.describedTerms label?, term.Legible := by
    intro term hterm
    refine Attribute.legible_of_mem_describedTerms ?_ hterm
    intro label hmem
    obtain ⟨hcomma, hplain⟩ := hlabel label hmem
    exact ⟨hcomma, Descriptor.plain_iff.mpr hplain⟩
  have hread : Term.parseList? (Term.listing (attr.describedTerms label?)) =
      some ((attr.describedTerms label?).map Term.trimmed) := by
    exact Term.parseList?_listing fun term hterm => (hlegible term hterm).spelled
  refine Descriptor.resolve_pmuEvent hne (Descriptor.plain_iff.mpr ⟨hslash, hpmu _ hname⟩)
    (Term.plain_listing hlegible) (Sysfs.pmuType?_of_typeOf? htype) ?_
  rw [Term.apply, Term.applyText, hread]
  exact applyEach_describedTerms s name.text _ attr label? attr.pmuType

namespace Example

/-- Two PMUs of one type.  The first by name has a bit field and an alias that are named as words. -/
def twinFiles : FileTree :=
  (((({} : FileTree).write "/sys/cpu/type".toList (.text "4".toList)).write
    "/sys/atom/type".toList (.text "4\n".toList)).write
    "/sys/atom/format/config".toList (.text "config1:0-7".toList)).write
    "/sys/atom/events/config2".toList (.text "config=1".toList)

/-- The description of these PMUs. -/
def twinSysfs : Sysfs := ⟨"/sys".toList, twinFiles⟩

/-- An attribute with two words and with a sampling frequency. -/
def sampledMiss : Attribute :=
  { pmuType := 4, config := 0x412e, config2 := 7, sampling := .frequency 99, excludeUser := true }

/-- The text of that attribute with a label that has blanks and an equals sign in it. -/
def labelledMiss : Text := "atom/config=0x412e,config2=0x7,name= x=1 /".toList

theorem children_twinFiles :
    (twinFiles.children (twinFiles.placeOf "/sys/".toList)).map FileName.text =
      ["atom".toList, "cpu".toList] := by
  have hnames : (twinFiles.entries.filterMap fun e =>
      if e.1.dropLast = twinFiles.placeOf "/sys/".toList then e.1.getLast? else none) =
        [⟨"atom".toList, by decide⟩, ⟨"cpu".toList, by decide⟩] := by
    decide +kernel
  rw [FileTree.children, hnames]
  simp [List.mergeSort, Text.le]

theorem search_twinFiles :
    twinFiles.search "/sys/*/type".toList =
      some [some "/sys/atom/type".toList, some "/sys/cpu/type".toList] := by
  have hbelow : twinFiles.expand (some "/sys".toList) [Glob.star, "type".toList] =
      ((twinFiles.children (twinFiles.placeOf "/sys/".toList)).map FileName.text).flatMap
        fun name => twinFiles.expand (some ("/sys/".toList ++ name)) ["type".toList] := by
    rw [List.flatMap_map]
    rfl
  rw [children_twinFiles] at hbelow
  exact congrArg (fun paths => some (paths.map some)) hbelow

theorem pmuName?_twinSysfs :
    twinSysfs.pmuName? FileTree.search sampledMiss.pmuType = .ok (some "atom".toList) := by
  have hfound : FileTree.search twinSysfs.files twinSysfs.typePattern = _ := search_twinFiles
  rw [Sysfs.pmuName?, hfound]
  rfl

end Example

open Example in
theorem resolve_describe_twins :
    sampledMiss.describe FileTree.search twinSysfs (some " x=1 ".toList) = .ok labelledMiss ∧
      Descriptor.resolve twinSysfs labelledMiss =
        .ok { pmuType := 4, config := 0x412e, config2 := 7 } := by
  have htext :
      sampledMiss.describe FileTree.search twinSysfs (some " x=1 ".toList) = .ok labelledMiss := by
    rw [Attribute.describe, pmuName?_twinSysfs]
    rfl
  have hlabel : ∀ label, some " x=1 ".toList = some label →
      ',' ∉ label ∧ '/' ∉ label ∧ ':' ∉ label := by
    rintro _ ⟨⟩
    decide
  have hpmu : ∀ pmu, twinSysfs.pmuName? FileTree.search sampledMiss.pmuType = .ok (some pmu) →
      ':' ∉ pmu := by
    rw [pmuName?_twinSysfs]
    rintro _ ⟨⟩
    decide
  exact ⟨htext,
    resolve_describe FileTree.search_sound (plainRoot_sys twinFiles) sampledMiss hlabel htext hpmu⟩

end HardwareCounters
