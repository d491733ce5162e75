/-
# The language of fields

The reader of a field first looks at the form of a part, in which the digits of any script count and
numbers may be of any length, and then at its numbers, of which only those in ASCII digits are read, and
only up to a limit far beyond the bits of a word.  What the word is called is looked at last.  In the
end it is simple which texts are read: a word, a colon and parts between commas, each of them a bit of
the word or two bits around a separator.

* `SpellsBit` and `SpellsRange`: how a bit and a range are written, and `FieldForm`: how a field is;
* `readPart_eq_ok_iff`: what is read in one part, and `readRanges_eq_ok_iff`: in all of them;
* `parse_eq_ok_iff`: a text is read if and only if it is so written, and as what;
* `parse_language`: the language of fields, in which every field has ranges and all lie in the word.
-/
import HardwareCounters.Proofs.Bitfield.Reading
import HardwareCounters.Proofs.Term.Applying
import HardwareCounters.Proofs.Text.Joining
import HardwareCounters.Proofs.Text.Runs
import Mathlib.Data.List.Forall2

namespace HardwareCounters

namespace Bitfield

/-! ## 1. How fields are written -/

/-- The digits of decimal numbers. -/
def decimalDigits : Text := "0123456789".toList

/-- The text is a decimal number, possibly with zeros in front. -/
structure SpellsBit (t : Text) (n : Nat) : Prop where
  digits_ne_nil : t ≠ []
  digits_decimal : ∀ c ∈ t, c ∈ decimalDigits
  value_eq : Numeral.digitsValue 10 0 t = n

/-- The text is the number of a bit, or those of two bits in either order.  The separator `=` belongs to
the word `config2`. -/
inductive SpellsRange (target : Text) : Text → BitRange → Prop
  | bit {t : Text} {n : Nat} (h : SpellsBit t n) (hn : n < 64) :
      SpellsRange target t (.spanning n n hn hn)
  | bits {first second : Text} {m n : Nat} {sep : Char} (hfirst : SpellsBit first m)
      (hsecond : SpellsBit second n) (hm : m < 64) (hn : n < 64)
      (hsep : sep = '-' ∨ sep = '=' ∧ target = "config2".toList) :
      SpellsRange target (first ++ sep :: second) (.spanning m n hm hn)

/-- A configuration word and parts between commas. -/
structure FieldForm where
  named : ConfigWord
  parts : List Text
  parts_ne_nil : parts ≠ []
  comma_not_mem : ∀ part ∈ parts, ',' ∉ part

/-- The part holds no separator. -/
def isSingle (part : Text) : Bool := decide ('-' ∉ part ∧ '=' ∉ part)

namespace FieldForm

/-- The text without the blanks around it. -/
def text (form : FieldForm) : Text :=
  form.named.key.toList ++ ':' :: Text.joinWith [','] form.parts

/-- The word in which the field lies: the named one, except that a single bit of `config1` lies in
`config`. -/
def word (form : FieldForm) : ConfigWord :=
  match form.named, form.parts with
  | .config1, [part] => if isSingle part then .config else .config1
  | named, _ => named

/-- The ranges are those that the parts spell, in the same order. -/
def Spells (form : FieldForm) (ranges : List BitRange) : Prop :=
  List.Forall₂ (fun part range => SpellsRange form.named.key.toList (Text.trim part) range)
    form.parts ranges

end FieldForm

/-! ## 2. Bits -/

section Bits

variable {t : Text} {n : Nat}

theorem isDecimalDigit_of_mem {c : Char} (h : c ∈ decimalDigits) :
    Text.isDecimalDigit c = true := by
  have hall : ∀ c ∈ decimalDigits, Text.isDecimalDigit c = true :=
    Text.forall_mem_of_all (by decide +kernel)
  exact hall c h

theorem SpellsBit.digitText (h : SpellsBit t n) : DigitText t :=
  ⟨h.digits_ne_nil, fun c hc => isDecimalDigit_of_mem (h.digits_decimal c hc)⟩

theorem allDigits_iff : Numeral.AllDigits 10 t ↔ ∀ c ∈ t, c ∈ decimalDigits := by
  have hdigit : ∀ c, Numeral.digitValue? 10 c ≠ none ↔ c ∈ decimalDigits :=
    fun _ => Numeral.digitValue?_ne_none_iff (by decide +kernel) (Text.forall_mem_of_all (by decide))
  simp only [Numeral.AllDigits, hdigit]

theorem readBit_of_allDigits (h : DigitText t) (hall : Numeral.AllDigits 10 t)
    (hlt : Numeral.digitsValue 10 0 t < Numeral.limit32) :
    readBit t = .ok (Numeral.digitsValue 10 0 t) := by
  rw [readBit, Numeral.readUnsigned_eq_readDigits h.1 h.head?_ne,
    Numeral.readDigits_of_allDigits (by decide) hall, if_pos hlt]

/-- Of the texts of digits, numbers in ASCII digits are read, up to a limit. -/
theorem readBit_eq_ok_iff (h : DigitText t) :
    readBit t = .ok n ↔ SpellsBit t n ∧ n < Numeral.limit32 := by
  constructor
  · intro hread
    obtain ⟨hall, hlt⟩ := (exists_readBit_iff h).mp ⟨n, hread⟩
    rw [readBit_of_allDigits h hall hlt] at hread
    cases hread
    exact ⟨⟨h.1, allDigits_iff.mp hall, rfl⟩, hlt⟩
  · rintro ⟨⟨-, hdigits, rfl⟩, hlt⟩
    exact readBit_of_allDigits h (allDigits_iff.mpr hdigits) hlt

end Bits

/-! ## 3. Ranges -/

theorem bind_eq_ok_iff {ε α β : Type} {result : Except ε α} {next : α → Except ε β} {b : β} :
    result.bind next = .ok b ↔ ∃ a, result = .ok a ∧ next a = .ok b := by
  cases result <;> simp [Except.bind]

theorem map_eq_ok_iff {ε α β : Type} {result : Except ε α} {f : α → β} {b : β} :
    result.map f = .ok b ↔ ∃ a, result = .ok a ∧ f a = b := by
  cases result <;> simp [Except.map]

section Ranges

variable {format target t first second : Text} {text : RangeText} {range : BitRange} {m n : Nat}
  {sep : Char}

theorem isDecimalDigit_separator (h : sep = '-' ∨ sep = '=') : Text.isDecimalDigit sep = false := by
  rcases h with rfl | rfl <;> decide

theorem ofText?_digits (h : DigitText first) : RangeText.ofText? first = some ⟨first, none⟩ := by
  have htake : first.takeWhile Text.isDecimalDigit = first := List.takeWhile_eq_self_iff.mpr h.2
  have hdrop : first.dropWhile Text.isDecimalDigit = [] := List.dropWhile_eq_nil_iff.mpr h.2
  obtain ⟨c, rest, rfl⟩ := List.exists_cons_of_ne_nil h.1
  simp only [RangeText.ofText?, htake, hdrop]

theorem ofText?_append (hfirst : DigitText first) (hsecond : DigitText second)
    (hsep : sep = '-' ∨ sep = '=') :
    RangeText.ofText? (first ++ sep :: second) = some ⟨first, some (sep, second)⟩ := by
  have hrun : Text.Run Text.isDecimalDigit first (sep :: second) := by
    refine ⟨hfirst.2, fun c hc => ?_⟩
    cases hc
    exact isDecimalDigit_separator hsep
  obtain ⟨c, rest, rfl⟩ := List.exists_cons_of_ne_nil hfirst.1
  simp only [RangeText.ofText?, hrun.takeWhile_eq, hrun.dropWhile_eq]
  exact if_pos ⟨hsep, hsecond.1, List.all_eq_true.mpr hsecond.2⟩

/-- What has the form of a range is one text of digits, or two around a separator. -/
theorem ofText?_cases (h : RangeText.ofText? t = some text) :
    (text = ⟨t, none⟩ ∧ DigitText t) ∨
      ∃ first sep second, t = first ++ sep :: second ∧ text = ⟨first, some (sep, second)⟩ ∧
        (sep = '-' ∨ sep = '=') ∧ DigitText first ∧ DigitText second := by
  have hdigits := RangeText.digits_of_ofText? h
  rw [RangeText.ofText?] at h
  split at h
  · cases h
  · rename_i hdrop _
    have hall : t.takeWhile Text.isDecimalDigit = t := by
      rw [← List.append_nil (t.takeWhile _), ← hdrop, List.takeWhile_append_dropWhile]
    cases h
    rw [hall] at hdigits ⊢
    exact Or.inl ⟨rfl, hdigits.1⟩
  · rename_i sep second hdrop _
    split at h
    · rename_i hsecond
      cases h
      refine Or.inr ⟨_, sep, second, ?_, rfl, hsecond.1, hdigits.1, hdigits.2 sep second rfl⟩
      rw [← hdrop, List.takeWhile_append_dropWhile]
    · cases h

theorem rangeBetween_eq_ok_iff :
    rangeBetween format m n = .ok range ↔ ∃ hm hn, range = .spanning m n hm hn := by
  rw [rangeBetween]
  split
  · rename_i h
    constructor
    · intro heq
      cases heq
      exact ⟨h.1, h.2, rfl⟩
    · rintro ⟨_, _, rfl⟩
      rfl
  · rename_i h
    constructor
    · intro heq
      cases heq
    · rintro ⟨hm, hn, -⟩
      exact absurd ⟨hm, hn⟩ h

/-- A bit of a word is far below the limit of the numbers that are read. -/
theorem lt_limit32 (h : n < 64) : n < Numeral.limit32 := Nat.lt_trans h (by decide)

theorem isSingle_of_spellsBit (h : SpellsBit t n) : isSingle t = true := by
  have hsep : ∀ sep, sep ∉ decimalDigits → sep ∉ t :=
    fun sep hsep hmem => hsep (h.digits_decimal sep hmem)
  rw [isSingle, decide_eq_true_iff]
  exact ⟨hsep '-' (by decide), hsep '=' (by decide)⟩

theorem isSingle_of_separator (h : sep = '-' ∨ sep = '=') (first second : Text) :
    isSingle (first ++ sep :: second) = false := by
  rw [isSingle, decide_eq_false_iff_not]
  rcases h with rfl | rfl <;> simp

/-- What spells a range is read as that range. -/
theorem SpellsRange.exists_text (h : SpellsRange target t range) (format : Text) :
    ∃ text, RangeText.ofText? t = some text ∧ readRange format target text = .ok range ∧
      text.second?.isNone = isSingle t := by
  cases h with
  | bit h hn =>
    refine ⟨_, ofText?_digits h.digitText, ?_, (isSingle_of_spellsBit h).symm⟩
    rw [readRange_eq, (readBit_eq_ok_iff h.digitText).mpr ⟨h, lt_limit32 hn⟩]
    exact rangeBetween_eq_ok_iff.mpr ⟨hn, hn, rfl⟩
  | @bits first second m n sep hfirst hsecond hm hn hsep =>
    have hform := hsep.imp_right And.left
    refine ⟨_, ofText?_append hfirst.digitText hsecond.digitText hform, ?_,
      (isSingle_of_separator hform _ _).symm⟩
    -- A separator that belongs to the word is not at fault.
    have hplaced : ¬ (sep = '=' ∧ target ≠ "config2".toList) := by
      rintro ⟨rfl, hne⟩
      rcases hsep with hdash | ⟨-, heq⟩
      · cases hdash
      · exact hne heq
    rw [readRange_eq, (readBit_eq_ok_iff hfirst.digitText).mpr ⟨hfirst, lt_limit32 hm⟩]
    simp only [Except.bind, readSecond, if_neg hplaced]
    rw [(readBit_eq_ok_iff hsecond.digitText).mpr ⟨hsecond, lt_limit32 hn⟩]
    exact rangeBetween_eq_ok_iff.mpr ⟨hm, hn, rfl⟩

/-- What is read as a range spells it. -/
theorem spellsRange_of_readRange (h : RangeText.ofText? t = some text)
    (hread : readRange format target text = .ok range) :
    SpellsRange target t range ∧ text.second?.isNone = isSingle t := by
  rw [readRange_eq, bind_eq_ok_iff] at hread
  obtain ⟨m, hm, hread⟩ := hread
  rcases ofText?_cases h with ⟨rfl, ht⟩ | ⟨first, sep, second, rfl, rfl, hsep, hfirst, hsecond⟩
  · obtain ⟨hbit, -⟩ := (readBit_eq_ok_iff ht).mp hm
    obtain ⟨hlt, _, rfl⟩ := rangeBetween_eq_ok_iff.mp hread
    exact ⟨.bit hbit hlt, (isSingle_of_spellsBit hbit).symm⟩
  · refine ⟨?_, (isSingle_of_separator hsep _ _).symm⟩
    simp only [readSecond] at hread
    split at hread
    · cases hread
    · rename_i hplaced
      rw [bind_eq_ok_iff] at hread
      obtain ⟨n, hn, hread⟩ := hread
      obtain ⟨hmlt, hnlt, rfl⟩ := rangeBetween_eq_ok_iff.mp hread
      refine .bits ((readBit_eq_ok_iff hfirst).mp hm).1 ((readBit_eq_ok_iff hsecond).mp hn).1
        hmlt hnlt (hsep.imp_right fun heq => ⟨heq, ?_⟩)
      exact not_not.mp fun hne => hplaced ⟨heq, hne⟩

/-- Blanks are no separators. -/
theorem isSingle_trim (part : Text) : isSingle (Text.trim part) = isSingle part := by
  have hdash : '-' ∈ Text.trim part ↔ '-' ∈ part := Text.mem_trim_iff (by decide)
  have hequals : '=' ∈ Text.trim part ↔ '=' ∈ part := Text.mem_trim_iff (by decide)
  simp only [isSingle, hdash, hequals]

/-- **What is read in one part** is the range that it spells, and whether it holds no separator. -/
theorem readPart_eq_ok_iff {part : Text} {single : Bool} :
    readPart format target part = .ok (range, single) ↔
      SpellsRange target (Text.trim part) range ∧ single = isSingle part := by
  rw [← isSingle_trim, readPart]
  constructor
  · intro h
    cases htext : RangeText.ofText? (Text.trim part) with
    | none =>
      rw [htext] at h
      cases h
    | some text =>
      simp only [htext] at h
      obtain ⟨found, hread, hfound⟩ := bind_eq_ok_iff.mp h
      cases hfound
      exact spellsRange_of_readRange htext hread
  · rintro ⟨hspells, rfl⟩
    obtain ⟨text, htext, hread, hsingle⟩ := hspells.exists_text format
    simp only [htext, hread, ← hsingle]
    rfl

end Ranges

/-! ## 4. All parts -/

section Parts

variable {format target : Text} {parts : List Text} {entries : List (BitRange × Bool)}

/-- **What is read in all parts** are the ranges that they spell, in the same order. -/
theorem readRanges_eq_ok_iff :
    readRanges format target parts = .ok entries ↔
      List.Forall₂ (fun part range => SpellsRange target (Text.trim part) range) parts
          (entries.map Prod.fst) ∧
        entries.map Prod.snd = parts.map isSingle := by
  induction parts generalizing entries with
  | nil => cases entries <;> simp [readRanges]
  | cons part parts ih =>
    rw [readRanges_cons, bind_eq_ok_iff]
    constructor
    · rintro ⟨⟨range, single⟩, hpart, hentries⟩
      obtain ⟨rest, hrest, rfl⟩ := map_eq_ok_iff.mp hentries
      obtain ⟨hspells, rfl⟩ := readPart_eq_ok_iff.mp hpart
      obtain ⟨hranges, hsingles⟩ := ih.mp hrest
      exact ⟨.cons hspells hranges, congrArg (isSingle part :: ·) hsingles⟩
    · rintro ⟨hranges, hsingles⟩
      cases entries with
      | nil => cases hranges
      | cons entry rest =>
        obtain ⟨range, single⟩ := entry
        obtain ⟨hspells, hranges⟩ := List.forall₂_cons.mp hranges
        obtain ⟨hsingle, hsingles⟩ := List.cons.inj hsingles
        exact ⟨_, readPart_eq_ok_iff.mpr ⟨hspells, hsingle⟩,
          map_eq_ok_iff.mpr ⟨rest, ih.mpr ⟨hranges, hsingles⟩, rfl⟩⟩

end Parts

/-! ## 5. Whole texts -/

section Whole

variable {format : Text} {field : Bitfield} {word : ConfigWord}

theorem exists_named_of_wordNamed? {target : Text} {entries : List (BitRange × Bool)}
    (h : wordNamed? target entries = some word) :
    ∃ named : ConfigWord, target = named.key.toList := by
  rw [wordNamed?.eq_def] at h
  split_ifs at h with hconfig hconfig1 hconfig2
  · exact ⟨.config, hconfig⟩
  · exact ⟨.config1, hconfig1⟩
  · exact ⟨.config2, hconfig2⟩

/-- **The word of a field** is the named one, apart from a single bit of `config1`. -/
theorem FieldForm.wordNamed?_eq (form : FieldForm) {entries : List (BitRange × Bool)}
    (h : entries.map Prod.snd = form.parts.map isSingle) :
    wordNamed? form.named.key.toList entries = some form.word := by
  obtain ⟨named, parts, hne, hcomma⟩ := form
  cases named with
  | config => simp [wordNamed?.eq_def, word, ConfigWord.key]
  | config2 => simp [wordNamed?.eq_def, word, ConfigWord.key]
  | config1 =>
    simp only at h
    match entries, parts, h with
    | [], [], _ => simp [wordNamed?.eq_def, word, ConfigWord.key]
    | [(_, single)], [part], h =>
      obtain rfl : single = isSingle part := (List.cons.inj h).1
      cases hsingle : isSingle part <;>
        simp [wordNamed?.eq_def, word, ConfigWord.key, hsingle]
    | _ :: _ :: _, _ :: _ :: _, _ => simp [wordNamed?.eq_def, word, ConfigWord.key]

/-- A text is read in front of and behind its first colon. -/
theorem parse_eq_bind {target body : Text} (htrim : Text.trim format = target ++ ':' :: body)
    (htarget : ':' ∉ target) :
    parse format = (readRanges format target (Text.splitOn ',' body)).bind fun entries =>
      match wordNamed? target entries with
      | none => .error (.badFormat format .unknownWord)
      | some word => .ok ⟨word, entries.map Prod.fst⟩ := by
  have hcut : Text.cut? ':' (Text.trim format) = some (target, body) := by
    rw [htrim, Text.cut?_append body htarget]
  rw [parse]
  cases hranges : readRanges format target (Text.splitOn ',' body) with
  | error e => simp [hcut, hranges, bind, Except.bind]
  | ok entries =>
    simp only [hcut, hranges, bind, Except.bind]
    cases wordNamed? target entries <;> rfl

theorem colon_not_mem_key (named : ConfigWord) : ':' ∉ named.key.toList := by
  cases named <;> decide

/-- **Fields.**  A text is read if and only if it is written as a field, and as what. -/
theorem parse_eq_ok_iff :
    parse format = .ok field ↔
      ∃ form : FieldForm, form.text = Text.trim format ∧ form.Spells field.ranges ∧
        field.word = form.word := by
  constructor
  · intro h
    have hcolon : ':' ∈ Text.trim format := by
      by_contra hnone
      rw [parse, Text.cut?_eq_none hnone] at h
      cases h
    obtain ⟨target, body, htrim, htarget⟩ := List.eq_append_cons_of_mem hcolon
    rw [parse_eq_bind htrim htarget, bind_eq_ok_iff] at h
    obtain ⟨entries, hentries, h⟩ := h
    split at h
    · cases h
    · rename_i word hword
      cases h
      obtain ⟨named, rfl⟩ := exists_named_of_wordNamed? hword
      obtain ⟨hranges, hsingles⟩ := readRanges_eq_ok_iff.mp hentries
      let form : FieldForm := ⟨named, Text.splitOn ',' body, Text.splitOn_ne_nil _ _,
        fun part hpart => Text.not_mem_of_mem_splitOn hpart⟩
      refine ⟨form, ?_, hranges, ?_⟩
      · rw [FieldForm.text, Text.joinWith_splitOn, htrim]
      · rw [form.wordNamed?_eq hsingles] at hword
        exact (Option.some.inj hword).symm
  · rintro ⟨form, htext, hspells, hword⟩
    have hsplit := Text.splitOn_joinWith form.parts_ne_nil form.comma_not_mem
    obtain ⟨word, ranges⟩ := field
    obtain rfl : word = form.word := hword
    -- What is read in a part is its range and whether it holds no separator.
    let entries := ranges.zip (form.parts.map isSingle)
    have hlength : ranges.length = (form.parts.map isSingle).length := by
      rw [List.length_map, hspells.length_eq]
    have hfst : entries.map Prod.fst = ranges := List.map_fst_zip hlength.le
    have hsnd : entries.map Prod.snd = form.parts.map isSingle := List.map_snd_zip hlength.ge
    have hentries : readRanges format form.named.key.toList form.parts = .ok entries :=
      readRanges_eq_ok_iff.mpr ⟨hfst.symm ▸ hspells, hsnd⟩
    rw [parse_eq_bind htext.symm (colon_not_mem_key form.named), hsplit, hentries]
    simp only [Except.bind, form.wordNamed?_eq hsnd, hfst]

/-- **The language of fields.**  A text is accepted if and only if it is, apart from blanks around it, a
configuration word, a colon and parts between commas, each of which spells a range of bits of a word
apart from blanks around it.  The field then has the ranges that the parts spell, in the same order, of
which there is at least one and which all lie in a word; its word is the named one, except that a
single bit of `config1` lies in `config`.  Every other text is refused with a fault of the field or of a
number in it. -/
theorem parse_language (format : Text) :
    (∀ field, parse format = .ok field ↔
      ∃ form : FieldForm, form.text = Text.trim format ∧ form.Spells field.ranges ∧
        field.word = form.word) ∧
    (∀ field, parse format = .ok field →
      field.ranges ≠ [] ∧ ∀ range ∈ field.ranges, range.lo ≤ range.hi ∧ range.hi ≤ 63) ∧
    ((¬ ∃ (form : FieldForm) (ranges : List BitRange),
        form.text = Text.trim format ∧ form.Spells ranges) →
      ∃ e, parse format = .error e ∧
        ((∃ fault, e = .badFormat format fault) ∨ ∃ cause, e = .number cause)) := by
  refine ⟨fun _ => parse_eq_ok_iff, ?_, ?_⟩
  · intro field h
    obtain ⟨form, -, hspells, -⟩ := parse_eq_ok_iff.mp h
    refine ⟨?_, fun range _ => ⟨range.lo_le_hi, Nat.le_of_lt_succ range.hi_lt⟩⟩
    intro hnone
    rw [hnone] at hspells
    exact form.parts_ne_nil (List.forall₂_nil_right_iff.mp hspells)
  · intro hother
    cases h : parse format with
    | ok field =>
      obtain ⟨form, htext, hspells, -⟩ := parse_eq_ok_iff.mp h
      exact absurd ⟨form, field.ranges, htext, hspells⟩ hother
    | error e => exact ⟨e, rfl, (parse_error_cases h).imp_right And.left⟩

end Whole

end Bitfield

namespace Example

/-- A single bit of `config1`, with zeros in front of its number. -/
def singleBitForm : Bitfield.FieldForm :=
  ⟨.config1, ["\t007".toList], by decide, by decide⟩

/-- Two bits in the order in which they are rarely written, and a single one. -/
def reversedForm : Bitfield.FieldForm :=
  ⟨.config2, ["31=0 ".toList, " 63".toList], by decide, by decide⟩

end Example

open Example in
theorem Bitfield.parse_language_accepted :
    (singleBitForm.text = Text.trim " config1:\t007".toList ∧
      parse " config1:\t007".toList = .ok ⟨.config, [⟨7, 7, by decide, by decide⟩]⟩) ∧
    (reversedForm.text = Text.trim "config2:31=0 , 63\n".toList ∧
      parse "config2:31=0 , 63\n".toList =
        .ok ⟨.config2, [⟨0, 31, by decide, by decide⟩, ⟨63, 63, by decide, by decide⟩]⟩) ∧
    ∃ e, parse "config2:31=".toList = .error e ∧
      ((∃ fault, e = .badFormat "config2:31=".toList fault) ∨ ∃ cause, e = .number cause) := by
  have hdigits : SpellsBit "007".toList 7 ∧ SpellsBit "31".toList 31 ∧ SpellsBit "0".toList 0 ∧
      SpellsBit "63".toList 63 := by
    refine ⟨⟨by decide, ?_, rfl⟩, ⟨by decide, ?_, rfl⟩, ⟨by decide, ?_, rfl⟩, ⟨by decide, ?_, rfl⟩⟩ <;>
      exact Text.forall_mem_of_all (by decide)
  obtain ⟨h7, h31, h0, h63⟩ := hdigits
  have hsingle : singleBitForm.Spells [⟨7, 7, by decide, by decide⟩] :=
    .cons (.bit h7 (by decide)) .nil
  have hbits : SpellsRange "config2".toList ("31".toList ++ '=' :: "0".toList)
      (.spanning 31 0 (by decide) (by decide)) :=
    .bits h31 h0 (by decide) (by decide) (.inr ⟨rfl, rfl⟩)
  have hreversed : reversedForm.Spells
      [⟨0, 31, by decide, by decide⟩, ⟨63, 63, by decide, by decide⟩] :=
    .cons hbits (.cons (.bit h63 (by decide)) .nil)
  obtain ⟨hfirst, -, -⟩ := parse_language " config1:\t007".toList
  obtain ⟨hsecond, -, -⟩ := parse_language "config2:31=0 , 63\n".toList
  obtain ⟨haccepted, -, hrefused⟩ := parse_language "config2:31=".toList
  refine ⟨⟨rfl, (hfirst _).mpr ⟨singleBitForm, rfl, hsingle, rfl⟩⟩,
    ⟨rfl, (hsecond _).mpr ⟨reversedForm, rfl, hreversed, rfl⟩⟩, hrefused ?_⟩
  rintro ⟨form, ranges, htext, hspells⟩
  have hok := (haccepted ⟨form.word, ranges⟩).mpr ⟨form, htext, hspells, rfl⟩
  have herror : parse "config2:31=".toList =
      .error (.badFormat "config2:31=".toList .malformedRange) := rfl
  rw [herror] at hok
  cases hok

end HardwareCounters
