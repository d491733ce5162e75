/-
# The language of descriptors

Descriptors are given by a grammar whose rules are tried in order and never go back.  A mark of
hexadecimal numbers that can be read is read, even if no digit follows it, and so is a slash behind the
terms.  The reader of descriptors takes the same steps, and what it accepts are the texts in one of the
two forms.

* `descriptorGrammar` is the grammar, and `parse?_eq_read`: a descriptor is read as the grammar says;
* `RawForm.resolve_text` and `PmuForm.resolve_text`: what the two forms are resolved to;
* `resolve_language`: what every text is resolved to.
-/
import HardwareCounters.Proofs.Descriptor.Forms
import HardwareCounters.Proofs.Text.Grammar

namespace HardwareCounters

namespace Descriptor

/-! ## 1. The grammar -/

/-- The rules whose texts are kept. -/
inductive Rule where
  | code
  | pmu
  | terms
  | modifiers
  deriving DecidableEq, Repr

/-- What may announce a hexadecimal number, and the digits of one. -/
def codeGrammar : Grammar Rule :=
  .inTurn (.maybe (.firstOf (.exactly "0x".toList) (.exactly "0X".toList)))
    (.atLeastOnce (.one isHexDigit))

/-- Possibly a colon and any letters, and then the end. -/
def endingGrammar : Grammar Rule :=
  .inTurn (.maybe (.inTurn (.exactly [':']) (.named .modifiers (.many (.one fun _ => true)))))
    .ended

/-- `r<code>[:<qualifiers>]` -/
def rawGrammar : Grammar Rule :=
  .inTurn (.exactly ['r']) (.inTurn (.named .code codeGrammar) endingGrammar)

/-- `[/]<name>/<terms>[/][:<qualifiers>]` -/
def pmuGrammar : Grammar Rule :=
  .inTurn (.maybe (.exactly ['/']))
    (.inTurn (.named .pmu (.atLeastOnce (.one isPlain)))
      (.inTurn (.exactly ['/'])
        (.inTurn (.named .terms (.many (.one isPlain)))
          (.inTurn (.maybe (.exactly ['/'])) endingGrammar))))

/-- A raw event or, if it is none, the event of a PMU. -/
def descriptorGrammar : Grammar Rule := .firstOf rawGrammar pmuGrammar

/-- The qualifiers that have been found, if any. -/
def modifiersIn : List (Rule × Text) → Text
  | (.modifiers, letters) :: _ => letters
  | _ => []

/-- The descriptor whose parts have been found. -/
def ofFound? : List (Rule × Text) → Option Descriptor
  | (.code, code) :: found => some (.raw (dropHexMark code) (modifiersIn found))
  | (.pmu, name) :: (.terms, terms) :: found => some (.pmu name terms (modifiersIn found))
  | _ => none

/-! ## 2. Descriptors are read as the grammar says -/

section Reading

variable {t : Text}

def foundInEnding : Option Text → List (Rule × Text)
  | none => []
  | some letters => [(.modifiers, letters)]

theorem modifiersIn_foundInEnding (qualifiers? : Option Text) :
    modifiersIn (foundInEnding qualifiers?) = qualifiers?.getD [] := by
  cases qualifiers? <;> rfl

theorem read_any (t : Text) :
    (.many (.one fun _ => true) : Grammar Rule).read t = some ⟨t, [], []⟩ := by
  rw [Grammar.read_many_one, List.takeWhile_eq_self_iff.mpr fun _ _ => rfl,
    List.dropWhile_eq_nil_iff.mpr fun _ _ => rfl]

theorem read_endingGrammar (qualifiers? : Option Text) :
    endingGrammar.read (ending qualifiers?) =
      some ⟨ending qualifiers?, foundInEnding qualifiers?, []⟩ := by
  cases qualifiers? with
  | none => rfl
  | some letters =>
    rw [endingGrammar, Grammar.read, Grammar.read, Grammar.read, ending, Grammar.read_exactly_cons,
      Option.bind_some, Grammar.read, read_any]
    simp [foundInEnding, Grammar.Reading.andThen, Grammar.Reading.under, Grammar.read,
      Grammar.Reading.start]

theorem read_endingGrammar_eq_none (h : Descriptor.qualifiers? t = none) :
    endingGrammar.read t = none := by
  have hne : t ≠ [] := by
    rintro rfl
    cases h
  have hhead : t.head? ≠ some ':' := by
    intro hhead
    obtain ⟨letters, rfl⟩ := List.head?_eq_some_iff.mp hhead
    cases h
  rw [endingGrammar, Grammar.read, Grammar.read, Grammar.read,
    Grammar.read_exactly_of_head?_ne hhead]
  simp [Grammar.Reading.start, Grammar.read, hne]

/-- The mark of a hexadecimal number is read if there is one. -/
theorem exists_read_hexMark (t : Text) : ∃ mark ∈ hexMarks, t = mark ++ dropHexMark t ∧
    (.maybe (.firstOf (.exactly "0x".toList) (.exactly "0X".toList)) : Grammar Rule).read t =
      some ⟨mark, [], dropHexMark t⟩ := by
  rw [dropHexMark.eq_def]
  split
  · exact ⟨"0x".toList, by decide, rfl, rfl⟩
  · exact ⟨"0X".toList, by decide, rfl, rfl⟩
  · rename_i hsmall hcapital
    have hx : Text.dropFront? "0x".toList t = none :=
      Text.dropFront?_pair fun rest heq => hsmall rest heq
    have hX : Text.dropFront? "0X".toList t = none :=
      Text.dropFront?_pair fun rest heq => hcapital rest heq
    refine ⟨[], by decide, rfl, ?_⟩
    simp only [Grammar.read, hx, hX]
    rfl

/-- The code of a raw event is read with its mark. -/
theorem exists_read_code (t : Text) : ∃ mark ∈ hexMarks,
    (.named .code codeGrammar : Grammar Rule).read t =
      if (dropHexMark t).takeWhile isHexDigit = [] then none
      else some ⟨mark ++ (dropHexMark t).takeWhile isHexDigit,
        [(.code, mark ++ (dropHexMark t).takeWhile isHexDigit)],
        (dropHexMark t).dropWhile isHexDigit⟩ := by
  obtain ⟨mark, hmark, -, hread⟩ := exists_read_hexMark t
  refine ⟨mark, hmark, ?_⟩
  rw [Grammar.read, codeGrammar, Grammar.read, hread, Option.bind_some,
    Grammar.read_atLeastOnce_one]
  split
  · rfl
  · rfl

/-- **Raw events** are read as the grammar says. -/
theorem map_read_rawGrammar (t : Text) :
    (rawGrammar.read t).map (fun reading => ofFound? reading.found) = (raw? t).map some := by
  by_cases hr : t.head? = some 'r'
  · obtain ⟨rest, rfl⟩ := List.head?_eq_some_iff.mp hr
    obtain ⟨mark, hmark, hread⟩ := exists_read_code rest
    rw [rawGrammar, Grammar.read, Grammar.read_exactly_cons, Option.bind_some, Grammar.read, hread]
    simp only [raw?]
    split
    · rfl
    · rename_i hne
      have hdigits : ∀ c ∈ (dropHexMark rest).takeWhile isHexDigit, c ∈ hexDigits :=
        fun c hc => isHexDigit_iff.mp ((Text.run_takeWhile isHexDigit _).inside c hc)
      -- The code is found with its mark, which has to be dropped again.
      have hcode := dropHexMark_append hmark hne hdigits none
      rw [ending, List.append_nil] at hcode
      cases hending : qualifiers? ((dropHexMark rest).dropWhile isHexDigit) with
      | none =>
        rw [Option.bind_some, read_endingGrammar_eq_none hending]
        rfl
      | some letters =>
        obtain ⟨qualifiers?, hletters, rfl⟩ := exists_ending_of_qualifiers? hending
        rw [Option.bind_some, hletters, read_endingGrammar]
        simp [Grammar.Reading.andThen, ofFound?, hcode, modifiersIn_foundInEnding]
  · have hnone : raw? t = none := by
      rw [raw?.eq_def]
      split
      · exact absurd rfl hr
      · rfl
    rw [hnone, rawGrammar, Grammar.read, Grammar.read_exactly_of_head?_ne hr]
    rfl

/-- A slash that may be missing is read if it is there. -/
theorem exists_read_slash (t : Text) : ∃ taken,
    (.maybe (.exactly ['/']) : Grammar Rule).read t = some ⟨taken, [], dropSlash t⟩ := by
  by_cases hslash : t.head? = some '/'
  · obtain ⟨rest, rfl⟩ := List.head?_eq_some_iff.mp hslash
    exact ⟨['/'], by rw [Grammar.read, Grammar.read_exactly_cons]; rfl⟩
  · refine ⟨[], ?_⟩
    rw [Grammar.read, Grammar.read_exactly_of_head?_ne hslash, dropSlash_eq_self hslash]
    rfl

/-- **Events of PMUs** are read as the grammar says. -/
theorem map_read_pmuGrammar (t : Text) :
    (pmuGrammar.read t).map (fun reading => ofFound? reading.found) = (pmu? t).map some := by
  obtain ⟨opened, hopened⟩ := exists_read_slash t
  rw [pmuGrammar, Grammar.read, hopened, Option.bind_some, Grammar.read, Grammar.read,
    Grammar.read_atLeastOnce_one]
  by_cases hname : (dropSlash t).takeWhile isPlain = []
  · simp only [pmu?, hname]
    rfl
  by_cases hbehind : ((dropSlash t).dropWhile isPlain).head? = some '/'
  · obtain ⟨rest, hrest⟩ := List.head?_eq_some_iff.mp hbehind
    obtain ⟨closed, hclosed⟩ := exists_read_slash (rest.dropWhile isPlain)
    have hterms : (.named .terms (.many (.one isPlain)) : Grammar Rule).read rest =
        some ⟨rest.takeWhile isPlain, [(.terms, rest.takeWhile isPlain)],
          rest.dropWhile isPlain⟩ := by
      rw [Grammar.read, Grammar.read_many_one]
      rfl
    have hpmu : pmu? t = (qualifiers? (dropSlash (rest.dropWhile isPlain))).map
        (.pmu ((dropSlash t).takeWhile isPlain) (rest.takeWhile isPlain)) := by
      refine pmu?_eq_of_name hname (Text.run_takeWhile isPlain _).inside ?_
      rw [← hrest, List.takeWhile_append_dropWhile]
    rw [if_neg hname, hpmu, hrest, Option.map_some, Option.bind_some]
    simp only [Grammar.Reading.under]
    rw [Grammar.read, Grammar.read_exactly_cons, Option.bind_some, Grammar.read, hterms,
      Option.bind_some, Grammar.read, hclosed, Option.bind_some]
    cases hending : qualifiers? (dropSlash (rest.dropWhile isPlain)) with
    | none =>
      rw [read_endingGrammar_eq_none hending]
      rfl
    | some letters =>
      obtain ⟨qualifiers?, hrest, rfl⟩ := exists_ending_of_qualifiers? hending
      rw [hrest, read_endingGrammar]
      simp [Grammar.Reading.andThen, ofFound?, modifiersIn_foundInEnding]
  · have hnone : pmu? t = none := by
      simp only [pmu?]
      split
      · rfl
      · rename_i hrest _
        exact absurd (congrArg List.head? hrest) hbehind
      · rfl
    rw [if_neg hname, hnone, Option.map_some, Option.bind_some]
    simp only [Grammar.Reading.under]
    rw [Grammar.read, Grammar.read_exactly_of_head?_ne hbehind]
    rfl

/-- **Descriptors** are read as the grammar says. -/
theorem parse?_eq_read (t : Text) :
    parse? t = (descriptorGrammar.read t).bind fun reading => ofFound? reading.found :=
  calc parse? t = (raw? t).or (pmu? t) := by
        rw [parse?]
        cases raw? t <;> rfl
    _ = (((raw? t).or (pmu? t)).map some).join := by cases (raw? t).or (pmu? t) <;> rfl
    _ = ((descriptorGrammar.read t).map fun reading => ofFound? reading.found).join := by
        rw [descriptorGrammar, Grammar.read, Option.map_or, Option.map_or, map_read_rawGrammar,
          map_read_pmuGrammar]
    _ = (descriptorGrammar.read t).bind fun reading => ofFound? reading.found := by
        cases descriptorGrammar.read t <;> rfl

end Reading

/-! ## 3. What the two forms are resolved to -/

/-- A raw event is resolved if its number fits in a word. -/
theorem RawForm.resolve_text (form : RawForm) (s : Sysfs) :
    resolve s form.text =
      if form.value < Numeral.limit64 then
        .ok ({ Attribute.raw with config := BitVec.ofNat 64 form.value }.applyQualifiers
          form.letters)
      else .error (.number .tooLarge) := by
  have hparse : parse? form.text = some (.raw form.digits form.letters) :=
    parse?_eq_raw_iff.mpr ⟨form, rfl, rfl, rfl⟩
  have hdigits : Numeral.AllDigits 16 form.digits := by
    intro c hc
    have hdigit := isHexDigit_iff.mpr (form.digits_hex c hc)
    rwa [isHexDigit, Option.isSome_iff_ne_none] at hdigit
  have hplus : form.digits.head? ≠ some '+' := by
    intro hhead
    have hnot : '+' ∉ hexDigits := by decide
    exact hnot (form.digits_hex '+' (List.mem_of_head? hhead))
  have hread : Numeral.readUnsigned 16 Numeral.limit64 form.digits =
      if form.value < Numeral.limit64 then .ok form.value else .error .tooLarge := by
    rw [Numeral.readUnsigned_eq_readDigits form.digits_ne_nil hplus]
    exact Numeral.readDigits_of_allDigits (by decide) hdigits
  rw [resolve, hparse]
  simp only [toAttribute, hread]
  by_cases hfits : form.value < Numeral.limit64
  · simp only [if_pos hfits]
  · simp only [if_neg hfits]

theorem PmuForm.resolve_text_of_unknown (form : PmuForm) {s : Sysfs}
    (h : s.pmuType? form.name = none) : resolve s form.text = .error (.unknownPmu form.name) :=
  resolve_pmu_of_unknown (parse?_eq_pmu_iff.mpr ⟨form, rfl, rfl, rfl, rfl⟩) h

/-- The event of a PMU is resolved by applying its terms and then its qualifiers. -/
theorem PmuForm.resolve_text (form : PmuForm) {s : Sysfs} {id : BitVec 32} {directory : Text}
    (h : s.pmuType? form.name = some (id, directory)) :
    resolve s form.text =
      (Term.apply s directory form.terms { Attribute.raw with pmuType := id }).1.map fun _ =>
        (Term.apply s directory form.terms { Attribute.raw with pmuType := id }).2.applyQualifiers
          form.letters := by
  have hparse : parse? form.text = some (.pmu form.name form.terms form.letters) :=
    parse?_eq_pmu_iff.mpr ⟨form, rfl, rfl, rfl, rfl⟩
  simp only [resolve, hparse, toAttribute, h]
  rcases Term.apply s directory form.terms { Attribute.raw with pmuType := id } with
    ⟨_ | _, reached⟩ <;> rfl

/-- A text in neither form is refused. -/
theorem resolve_of_not_written {s : Sysfs} {t : Text} (hraw : ¬ ∃ form : RawForm, form.text = t)
    (hpmu : ¬ ∃ form : PmuForm, form.text = t) : resolve s t = .error .notInGrammar := by
  cases hparse : parse? t with
  | none => rw [resolve, hparse]
  | some descriptor =>
    cases descriptor with
    | raw code letters =>
      obtain ⟨form, htext, -⟩ := parse?_eq_raw_iff.mp hparse
      exact absurd ⟨form, htext⟩ hraw
    | pmu name terms letters =>
      obtain ⟨form, htext, -⟩ := parse?_eq_pmu_iff.mp hparse
      exact absurd ⟨form, htext⟩ hpmu

/-- **The language of descriptors.**  A descriptor is read as its grammar says: as a raw event if and
only if it is written as one, as the event of a PMU if and only if it is written as one, and never as
both.  A raw event gives the attribute of a raw event with its number and its qualifiers, if the number
fits in a word, and fails otherwise.  The event of a PMU is written in one way, and it gives what
finding the PMU by its name, applying the terms in its directory and applying the qualifiers give.
Every other text is refused. -/
theorem resolve_language (s : Sysfs) (t : Text) :
    (parse? t = (descriptorGrammar.read t).bind fun reading => ofFound? reading.found) ∧
    ((∃ code letters, parse? t = some (.raw code letters)) ↔ ∃ form : RawForm, form.text = t) ∧
    ((∃ name terms letters, parse? t = some (.pmu name terms letters)) ↔
      ∃ form : PmuForm, form.text = t) ∧
    (∀ raw : RawForm, ∀ pmu : PmuForm, ¬ (raw.text = t ∧ pmu.text = t)) ∧
    (∀ form : RawForm, form.text = t → resolve s t =
      if form.value < Numeral.limit64 then
        .ok ({ Attribute.raw with config := BitVec.ofNat 64 form.value }.applyQualifiers
          form.letters)
      else .error (.number .tooLarge)) ∧
    (∀ form : PmuForm, form.text = t →
      (∀ other : PmuForm, other.text = t → other = form) ∧
      (s.pmuType? form.name = none → resolve s t = .error (.unknownPmu form.name)) ∧
      ∀ id directory, s.pmuType? form.name = some (id, directory) →
        resolve s t =
          (Term.apply s directory form.terms { Attribute.raw with pmuType := id }).1.map fun _ =>
            (Term.apply s directory form.terms
              { Attribute.raw with pmuType := id }).2.applyQualifiers form.letters) ∧
    ((¬ ∃ form : RawForm, form.text = t) → (¬ ∃ form : PmuForm, form.text = t) →
      resolve s t = .error .notInGrammar) := by
  have hraw : (∃ code letters, parse? t = some (.raw code letters)) ↔
      ∃ form : RawForm, form.text = t := by
    simp only [parse?_eq_raw_iff]
    exact ⟨fun ⟨_, _, form, htext, _⟩ => ⟨form, htext⟩,
      fun ⟨form, htext⟩ => ⟨_, _, form, htext, rfl, rfl⟩⟩
  have hpmu : (∃ name terms letters, parse? t = some (.pmu name terms letters)) ↔
      ∃ form : PmuForm, form.text = t := by
    simp only [parse?_eq_pmu_iff]
    exact ⟨fun ⟨_, _, _, form, htext, _⟩ => ⟨form, htext⟩,
      fun ⟨form, htext⟩ => ⟨_, _, _, form, htext, rfl, rfl, rfl⟩⟩
  refine ⟨parse?_eq_read t, hraw, hpmu, ?_, ?_, ?_, resolve_of_not_written⟩
  · rintro raw pmu ⟨rfl, hboth⟩
    have hnone := pmu.raw?_text
    rw [hboth, raw.raw?_text] at hnone
    cases hnone
  · rintro form rfl
    exact form.resolve_text s
  · rintro form rfl
    exact ⟨fun other hother => PmuForm.eq_of_text_eq hother, form.resolve_text_of_unknown,
      fun id directory hid => form.resolve_text hid⟩

end Descriptor

namespace Example

/-- A PMU with one field. -/
def soleFieldFiles : FileTree :=
  (({} : FileTree).write "/sys/cpu/type".toList (.text "4".toList)).write
    "/sys/cpu/format/event".toList (.text "config:0-7".toList)

def soleFieldSysfs : Sysfs := ⟨"/sys".toList, soleFieldFiles⟩

/-- A raw event with more digits than a word has, whose qualifiers could stand in the event of a
PMU. -/
def paddedRaw : Descriptor.RawForm :=
  ⟨"0X".toList, "0000000000000000001fF".toList, some "u/:p/".toList, by decide, by decide,
    Text.forall_mem_of_all (by decide +kernel)⟩

/-- The event of a PMU with both slashes that may be missing. -/
def slashedPmu : Descriptor.PmuForm :=
  ⟨true, "cpu".toList, "event=0x12e".toList, true, some "k\n".toList, by decide,
    Descriptor.plain_iff.mpr (by decide), Descriptor.plain_iff.mpr (by decide)⟩

end Example

open Example in
theorem Descriptor.resolve_language_bothForms :
    (paddedRaw.text = "r0X0000000000000000001fF:u/:p/".toList ∧
      resolve soleFieldSysfs "r0X0000000000000000001fF:u/:p/".toList =
        .ok { Attribute.raw with config := 0x1ff, excludeKernel := true, precise := 1 }) ∧
    (slashedPmu.text = "/cpu/event=0x12e/:k\n".toList ∧
      soleFieldSysfs.pmuType? "cpu".toList = some (4, "cpu".toList) ∧
      resolve soleFieldSysfs "/cpu/event=0x12e/:k\n".toList =
        .ok { Attribute.raw with config := 0x2e, excludeUser := true }) ∧
    ((¬ ∃ form : RawForm, form.text = "cpu//u/".toList) ∧
      (¬ ∃ form : PmuForm, form.text = "cpu//u/".toList) ∧
      resolve soleFieldSysfs "cpu//u/".toList = .error .notInGrammar) := by
  obtain ⟨-, -, -, -, hraw, -⟩ :=
    resolve_language soleFieldSysfs "r0X0000000000000000001fF:u/:p/".toList
  obtain ⟨-, -, -, -, -, hpmu, -⟩ := resolve_language soleFieldSysfs "/cpu/event=0x12e/:k\n".toList
  obtain ⟨-, hasRaw, hasPmu, -, -, -, hother⟩ := resolve_language soleFieldSysfs "cpu//u/".toList
  have hnone : parse? "cpu//u/".toList = none := by decide
  have hnoRaw : ¬ ∃ form : RawForm, form.text = "cpu//u/".toList := by
    rw [← hasRaw, hnone]
    rintro ⟨_, _, hsome⟩
    cases hsome
  have hnoPmu : ¬ ∃ form : PmuForm, form.text = "cpu//u/".toList := by
    rw [← hasPmu, hnone]
    rintro ⟨_, _, _, hsome⟩
    cases hsome
  refine ⟨⟨rfl, hraw paddedRaw rfl⟩, ⟨rfl, rfl, ?_⟩, hnoRaw, hnoPmu, hother hnoRaw hnoPmu⟩
  obtain ⟨-, -, hfound⟩ := hpmu slashedPmu rfl
  exact hfound 4 "cpu".toList rfl

end HardwareCounters
