/-
# How descriptors are written

A descriptor is read from left to right by readers that take as many characters as they can and never
give one back: first as a raw event and, if that fails, as an event of a PMU.  The order of the two and
the slashes that may be missing or doubled could make the outcome depend on how the text is read.  They
do not.  A text is written in one of the two forms or in none; what reading finds are the parts of that
form, and the parts of an event of a PMU are determined by the text.

* `RawForm` and `PmuForm` are the two forms; their texts say how a descriptor may be written;
* `parse?_eq_raw_iff` and `parse?_eq_pmu_iff`: a descriptor is read if and only if it is so written;
* `PmuForm.raw?_text`: no text is written in both forms;
* `PmuForm.eq_of_text_eq`: an event of a PMU is written in one way.
-/
import HardwareCounters.Proofs.Descriptor.Spelling
import HardwareCounters.Proofs.Numeral.Value
import HardwareCounters.Proofs.Text.Runs

namespace HardwareCounters

namespace Descriptor

/-! ## 1. How descriptors are written -/

/-- What a descriptor ends with: nothing, or a colon and qualifiers. -/
def ending : Option Text → Text
  | none => []
  | some letters => ':' :: letters

/-- What may announce a hexadecimal number. -/
def hexMarks : List Text := [[], "0x".toList, "0X".toList]

/-- The digits of hexadecimal numbers. -/
def hexDigits : Text := "0123456789abcdefABCDEF".toList

/-- A raw event, `r<code>[:<qualifiers>]`. -/
structure RawForm where
  mark : Text
  digits : Text
  qualifiers? : Option Text
  mark_mem : mark ∈ hexMarks
  digits_ne_nil : digits ≠ []
  digits_hex : ∀ c ∈ digits, c ∈ hexDigits

/-- An event of a PMU, `[/]<name>/<terms>[/][:<qualifiers>]`. -/
structure PmuForm where
  opened : Bool
  name : Text
  terms : Text
  closed : Bool
  qualifiers? : Option Text
  name_ne_nil : name ≠ []
  name_plain : Plain name
  terms_plain : Plain terms

namespace RawForm

/-- The text in front of the qualifiers. -/
def body (form : RawForm) : Text := 'r' :: form.mark ++ form.digits

/-- The whole text. -/
def text (form : RawForm) : Text := form.body ++ ending form.qualifiers?

/-- The letters of the qualifiers. -/
def letters (form : RawForm) : Text := form.qualifiers?.getD []

/-- The number that the digits denote. -/
def value (form : RawForm) : Nat := Numeral.digitsValue 16 0 form.digits

end RawForm

namespace PmuForm

/-- The text in front of the qualifiers. -/
def body (form : PmuForm) : Text :=
  Text.charIf '/' form.opened ++ form.name ++ '/' :: form.terms ++ Text.charIf '/' form.closed

/-- The whole text. -/
def text (form : PmuForm) : Text := form.body ++ ending form.qualifiers?

/-- The letters of the qualifiers. -/
def letters (form : PmuForm) : Text := form.qualifiers?.getD []

theorem text_eq (form : PmuForm) :
    form.text = Text.charIf '/' form.opened ++ (form.name ++ '/' :: (form.terms ++
      (Text.charIf '/' form.closed ++ ending form.qualifiers?))) := by
  simp [text, body]

end PmuForm

/-! ## 2. Parts of descriptors -/

section Parts

variable {t digits letters : Text} {qualifiers? : Option Text}

theorem isHexDigit_iff {c : Char} : isHexDigit c = true ↔ c ∈ hexDigits := by
  rw [isHexDigit, Option.isSome_iff_ne_none]
  exact Numeral.digitValue?_ne_none_iff (by decide +kernel) (Text.forall_mem_of_all (by decide))

/-- What follows the parts of a descriptor starts with a colon, if it is not empty. -/
theorem eq_colon_of_mem_head?_ending {c : Char} (h : c ∈ (ending qualifiers?).head?) : c = ':' := by
  cases qualifiers? with
  | none => cases h
  | some letters => exact (Option.some.inj h).symm

theorem ending_injective {other? : Option Text} (h : ending qualifiers? = ending other?) :
    qualifiers? = other? := by
  cases qualifiers? with
  | none => cases other? with
    | none => rfl
    | some other => cases h
  | some letters => cases other? with
    | none => cases h
    | some other => exact congrArg some (List.cons.inj h).2

theorem qualifiers?_ending (qualifiers? : Option Text) :
    Descriptor.qualifiers? (ending qualifiers?) = some (qualifiers?.getD []) := by
  cases qualifiers? <;> rfl

theorem exists_ending_of_qualifiers? (h : Descriptor.qualifiers? t = some letters) :
    ∃ qualifiers?, t = ending qualifiers? ∧ letters = qualifiers?.getD [] := by
  rw [Descriptor.qualifiers?.eq_def] at h
  split at h
  · cases h
    exact ⟨none, rfl, rfl⟩
  · cases h
    exact ⟨some letters, rfl, rfl⟩
  · cases h

theorem exists_hexMark (t : Text) : ∃ mark ∈ hexMarks, t = mark ++ dropHexMark t := by
  rw [dropHexMark.eq_def]
  split
  · exact ⟨"0x".toList, by decide, rfl⟩
  · exact ⟨"0X".toList, by decide, rfl⟩
  · exact ⟨[], by decide, rfl⟩

/-- A mark is not found in digits, because the second character of a mark is no digit. -/
theorem dropHexMark_digits (hne : digits ≠ []) (hhex : ∀ c ∈ digits, c ∈ hexDigits)
    (qualifiers? : Option Text) :
    dropHexMark (digits ++ ending qualifiers?) = digits ++ ending qualifiers? := by
  have hno : ∀ x, x ∉ hexDigits → x ≠ ':' → ∀ rest,
      digits ++ ending qualifiers? ≠ '0' :: x :: rest := by
    intro x hx hcolon rest heq
    match digits, hne with
    | [_], _ =>
      have hhead : x ∈ (ending qualifiers?).head? := by
        have hrest : ending qualifiers? = x :: rest := (List.cons.inj heq).2
        rw [hrest]
        rfl
      exact hcolon (eq_colon_of_mem_head?_ending hhead)
    | _ :: c :: _, _ =>
      have hc : c = x := (List.cons.inj (List.cons.inj heq).2).1
      exact hx (hc ▸ hhex c (List.mem_cons_of_mem _ List.mem_cons_self))
  rw [dropHexMark.eq_def]
  split
  · rename_i heq
    exact absurd heq (hno 'x' (by decide) (by decide) _)
  · rename_i heq
    exact absurd heq (hno 'X' (by decide) (by decide) _)
  · rfl

theorem dropHexMark_append {mark : Text} (hmark : mark ∈ hexMarks) (hne : digits ≠ [])
    (hhex : ∀ c ∈ digits, c ∈ hexDigits) (qualifiers? : Option Text) :
    dropHexMark (mark ++ (digits ++ ending qualifiers?)) = digits ++ ending qualifiers? := by
  simp only [hexMarks, List.mem_cons, List.not_mem_nil, or_false] at hmark
  rcases hmark with rfl | rfl | rfl
  · exact dropHexMark_digits hne hhex qualifiers?
  · rfl
  · rfl

/-- The digits of a raw event end at the qualifiers. -/
theorem run_digits (hhex : ∀ c ∈ digits, c ∈ hexDigits) (qualifiers? : Option Text) :
    Text.Run isHexDigit digits (ending qualifiers?) where
  inside c hc := isHexDigit_iff.mpr (hhex c hc)
  stops c hc := by
    rw [eq_colon_of_mem_head?_ending hc]
    decide

theorem dropSlash_eq_self (h : t.head? ≠ some '/') : dropSlash t = t := by
  rw [dropSlash.eq_def]
  split
  · exact absurd rfl h
  · rfl

/-- One slash is dropped, and none where there is none. -/
theorem dropSlash_charIf (h : t.head? ≠ some '/') (present : Bool) :
    dropSlash (Text.charIf '/' present ++ t) = t := by
  cases present with
  | false => exact dropSlash_eq_self h
  | true => rfl

theorem exists_dropSlash (t : Text) : ∃ present, t = Text.charIf '/' present ++ dropSlash t := by
  rw [dropSlash.eq_def]
  split
  · exact ⟨true, rfl⟩
  · exact ⟨false, rfl⟩

/-- Whether a slash is there can be told from a text that goes on without one. -/
theorem charIf_append_inj {present other : Bool} {u : Text} (ht : t.head? ≠ some '/')
    (hu : u.head? ≠ some '/') (h : Text.charIf '/' present ++ t = Text.charIf '/' other ++ u) :
    present = other ∧ t = u := by
  have hsame : t = u := by
    rw [← dropSlash_charIf ht present, h, dropSlash_charIf hu]
  refine ⟨?_, hsame⟩
  rw [hsame] at h
  have hslash := List.append_cancel_right h
  cases present <;> cases other <;> trivial

theorem head?_ending_ne (qualifiers? : Option Text) : (ending qualifiers?).head? ≠ some '/' := by
  intro h
  cases eq_colon_of_mem_head?_ending h

/-- The terms of an event of a PMU end at a slash or at the qualifiers. -/
theorem run_terms {terms : Text} (h : Plain terms) (closed : Bool) (qualifiers? : Option Text) :
    Text.Run isPlain terms (Text.charIf '/' closed ++ ending qualifiers?) where
  inside := h
  stops c hc := by
    cases closed with
    | true =>
      cases hc
      decide
    | false =>
      rw [eq_colon_of_mem_head?_ending hc]
      decide

/-- The name of a PMU ends at a slash. -/
theorem run_name {name : Text} (h : Plain name) (rest : Text) :
    Text.Run isPlain name ('/' :: rest) where
  inside := h
  stops c hc := by
    cases hc
    decide

theorem head?_name_ne {name : Text} (hne : name ≠ []) (h : Plain name) (rest : Text) :
    (name ++ rest).head? ≠ some '/' := by
  obtain ⟨c, more, rfl⟩ := List.exists_cons_of_ne_nil hne
  intro hhead
  cases hhead
  cases h '/' List.mem_cons_self

end Parts

/-! ## 3. What is written is read, and nothing else -/

theorem RawForm.raw?_text (form : RawForm) :
    raw? form.text = some (.raw form.digits form.letters) := by
  have htext : form.text = 'r' :: (form.mark ++ (form.digits ++ ending form.qualifiers?)) := by
    simp [text, body]
  have hrun := run_digits form.digits_hex form.qualifiers?
  simp only [htext, raw?, dropHexMark_append form.mark_mem form.digits_ne_nil form.digits_hex,
    hrun.takeWhile_eq, hrun.dropWhile_eq, if_neg form.digits_ne_nil, qualifiers?_ending]
  rfl

theorem exists_rawForm_of_raw? {t : Text} {descriptor : Descriptor} (h : raw? t = some descriptor) :
    ∃ form : RawForm, form.text = t ∧ descriptor = .raw form.digits form.letters := by
  rw [raw?.eq_def] at h
  split at h
  · rename_i rest
    simp only at h
    split at h
    · cases h
    · rename_i hne
      obtain ⟨letters, hletters, rfl⟩ := Option.map_eq_some_iff.mp h
      obtain ⟨qualifiers?, hending, rfl⟩ := exists_ending_of_qualifiers? hletters
      obtain ⟨mark, hmark, hrest⟩ := exists_hexMark rest
      have hhex : ∀ c ∈ (dropHexMark rest).takeWhile isHexDigit, c ∈ hexDigits :=
        fun c hc => isHexDigit_iff.mp ((Text.run_takeWhile isHexDigit _).inside c hc)
      refine ⟨⟨mark, _, qualifiers?, hmark, hne, hhex⟩, ?_, rfl⟩
      rw [RawForm.text, RawForm.body, List.append_assoc, ← hending, List.takeWhile_append_dropWhile,
        List.cons_append, ← hrest]
  · cases h

/-- Behind the name of a PMU the terms and the qualifiers are read. -/
theorem pmu?_eq_of_name {t name rest : Text} (hne : name ≠ []) (hname : Plain name)
    (hslash : dropSlash t = name ++ '/' :: rest) :
    pmu? t = (qualifiers? (dropSlash (rest.dropWhile isPlain))).map
      (.pmu name (rest.takeWhile isPlain)) := by
  obtain ⟨c, more, rfl⟩ := List.exists_cons_of_ne_nil hne
  have hrun := run_name hname rest
  simp only [pmu?, hslash, hrun.takeWhile_eq, hrun.dropWhile_eq]

theorem PmuForm.pmu?_text (form : PmuForm) :
    pmu? form.text = some (.pmu form.name form.terms form.letters) := by
  have hterms := run_terms form.terms_plain form.closed form.qualifiers?
  have hopened := dropSlash_charIf (head?_name_ne form.name_ne_nil form.name_plain
    ('/' :: (form.terms ++ (Text.charIf '/' form.closed ++ ending form.qualifiers?)))) form.opened
  have hclosed := dropSlash_charIf (head?_ending_ne form.qualifiers?) form.closed
  rw [text_eq, pmu?_eq_of_name form.name_ne_nil form.name_plain hopened, hterms.takeWhile_eq,
    hterms.dropWhile_eq, hclosed, qualifiers?_ending]
  rfl

theorem exists_pmuForm_of_pmu? {t : Text} {descriptor : Descriptor} (h : pmu? t = some descriptor) :
    ∃ form : PmuForm, form.text = t ∧ descriptor = .pmu form.name form.terms form.letters := by
  simp only [pmu?] at h
  split at h
  · cases h
  · rename_i rest hbehind hne
    obtain ⟨letters, hletters, rfl⟩ := Option.map_eq_some_iff.mp h
    obtain ⟨qualifiers?, hending, rfl⟩ := exists_ending_of_qualifiers? hletters
    obtain ⟨opened, hopened⟩ := exists_dropSlash t
    obtain ⟨closed, hclosed⟩ := exists_dropSlash (rest.dropWhile isPlain)
    refine ⟨⟨opened, (dropSlash t).takeWhile isPlain, rest.takeWhile isPlain, closed, qualifiers?,
      hne, (Text.run_takeWhile isPlain _).inside, (Text.run_takeWhile isPlain _).inside⟩, ?_, rfl⟩
    have hrest :
        rest.takeWhile isPlain ++ (Text.charIf '/' closed ++ ending qualifiers?) = rest := by
      rw [← hending, ← hclosed, List.takeWhile_append_dropWhile]
    have hname : (dropSlash t).takeWhile isPlain ++ '/' :: rest = dropSlash t := by
      rw [← hbehind, List.takeWhile_append_dropWhile]
    simp only [PmuForm.text, PmuForm.body, List.append_assoc, List.cons_append]
    rw [hrest, hname, ← hopened]
  · cases h

/-- No text is written in both forms. -/
theorem PmuForm.raw?_text (form : PmuForm) : raw? form.text = none := by
  rw [text, body]
  cases form.opened with
  | true => rfl
  | false =>
    simp only [Text.charIf, Bool.false_eq_true, if_false, List.nil_append, List.append_assoc,
      List.cons_append]
    exact raw?_eq_none form.name_plain _

/-- **Raw events.**  A text is read as a raw event if and only if it is written as one. -/
theorem parse?_eq_raw_iff {t code letters : Text} :
    parse? t = some (.raw code letters) ↔
      ∃ form : RawForm, form.text = t ∧ form.digits = code ∧ form.letters = letters := by
  constructor
  · intro h
    rw [parse?] at h
    split at h
    · rename_i hraw
      obtain ⟨form, htext, hdescriptor⟩ := exists_rawForm_of_raw? hraw
      cases h
      cases hdescriptor
      exact ⟨form, htext, rfl, rfl⟩
    · obtain ⟨form, -, hdescriptor⟩ := exists_pmuForm_of_pmu? h
      cases hdescriptor
  · rintro ⟨form, rfl, rfl, rfl⟩
    rw [parse?, form.raw?_text]

/-- **Events of PMUs.**  A text is read as the event of a PMU if and only if it is written as one. -/
theorem parse?_eq_pmu_iff {t name terms letters : Text} :
    parse? t = some (.pmu name terms letters) ↔
      ∃ form : PmuForm, form.text = t ∧ form.name = name ∧ form.terms = terms ∧
        form.letters = letters := by
  constructor
  · intro h
    rw [parse?] at h
    split at h
    · rename_i hraw
      obtain ⟨form, -, hdescriptor⟩ := exists_rawForm_of_raw? hraw
      cases h
      cases hdescriptor
    · obtain ⟨form, htext, hdescriptor⟩ := exists_pmuForm_of_pmu? h
      cases hdescriptor
      exact ⟨form, htext, rfl, rfl, rfl⟩
  · rintro ⟨form, rfl, rfl, rfl, rfl⟩
    rw [parse?, form.raw?_text, form.pmu?_text]

/-- **One way to write it.**  The parts of the event of a PMU are determined by the text. -/
theorem PmuForm.eq_of_text_eq {form other : PmuForm} (h : form.text = other.text) :
    form = other := by
  rw [text_eq, text_eq] at h
  obtain ⟨hopened, h⟩ := charIf_append_inj (head?_name_ne form.name_ne_nil form.name_plain _)
    (head?_name_ne other.name_ne_nil other.name_plain _) h
  obtain ⟨hname, h⟩ := (run_name form.name_plain _).unique (run_name other.name_plain _) h
  obtain ⟨hterms, h⟩ := (run_terms form.terms_plain _ _).unique (run_terms other.terms_plain _ _)
    (List.cons.inj h).2
  obtain ⟨hclosed, h⟩ := charIf_append_inj (head?_ending_ne _) (head?_ending_ne _) h
  have hqualifiers := ending_injective h
  cases form
  cases other
  simp only at hopened hname hterms hclosed hqualifiers
  subst hopened hname hterms hclosed hqualifiers
  rfl

end Descriptor

end HardwareCounters
