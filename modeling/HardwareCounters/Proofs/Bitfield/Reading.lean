/-
# Reading the text of a field

A field is read part by part, and the first part that cannot be read decides what is wrong with the
text.  A part has to have the form of a range before its numbers are looked at; that form admits
decimal digits of any script and of any length, so that a number in it may still be no number of 32
bits.  This is the one fault that is reported as that of a number and not as that of a field.

* `Bitfield.readPart` reads one part, and `readRanges_eq_error_iff` finds the first that fails;
* `Bitfield.FaultedBy` is what all readers have in common, and `FaultedBy.bind` puts them together;
* `Bitfield.parse_error_cases`: what is wrong with a text is a fault of the field or of a number;
* `Bitfield.NamesHugeBit` are the texts of the second kind, by `exists_number_of_parse_iff`.
-/
import HardwareCounters.Bitfield
import HardwareCounters.Proofs.Numeral.Value
import Mathlib.Data.List.TakeWhile

namespace HardwareCounters

namespace Bitfield

variable {format target part t : Text} {parts : List Text} {e : Error}

/-! ## 1. Part by part -/

/-- Reads one part of the text of a field. -/
def readPart (format target part : Text) : Except Error (BitRange × Bool) := do
  let some text := RangeText.ofText? (Text.trim part)
    | throw (.badFormat format .malformedRange)
  let range ← readRange format target text
  return (range, text.second?.isNone)

theorem readRanges_cons (format target part : Text) (parts : List Text) :
    readRanges format target (part :: parts) = (readPart format target part).bind fun entry =>
      (readRanges format target parts).map fun entries => entry :: entries := by
  rw [readRanges, readPart]
  cases RangeText.ofText? (Text.trim part) with
  | none => rfl
  | some text =>
    cases hrange : readRange format target text with
    | error e => simp [hrange, bind, Except.bind]
    | ok range =>
      cases hranges : readRanges format target parts with
      | error e => simp [hrange, bind, Except.bind, pure, Except.pure, Except.map]
      | ok ranges => simp [hrange, bind, Except.bind, pure, Except.pure, Except.map]

/-- **The first part that cannot be read** decides what is wrong. -/
theorem readRanges_eq_error_iff :
    readRanges format target parts = .error e ↔
      ∃ before part after, parts = before ++ part :: after ∧
        (∀ earlier ∈ before, ∃ entry, readPart format target earlier = .ok entry) ∧
        readPart format target part = .error e := by
  induction parts with
  | nil => simp [readRanges]
  | cons first parts ih =>
    rw [readRanges_cons]
    cases hfirst : readPart format target first with
    | error fault =>
      change Except.error fault = Except.error e ↔ _
      rw [Except.error.injEq]
      constructor
      · rintro rfl
        exact ⟨[], first, parts, rfl, fun _ hmem => (nomatch hmem), hfirst⟩
      · rintro ⟨before, part, after, hsplit, hbefore, hpart⟩
        cases before with
        | nil =>
          obtain ⟨rfl, -⟩ := List.cons.inj hsplit
          rw [hfirst] at hpart
          exact Except.error.inj hpart
        | cons other before =>
          obtain ⟨rfl, -⟩ := List.cons.inj hsplit
          obtain ⟨entry, hentry⟩ := hbefore first List.mem_cons_self
          rw [hfirst] at hentry
          cases hentry
    | ok entry =>
      have hmap : ((readRanges format target parts).map fun entries => entry :: entries) =
          .error e ↔ readRanges format target parts = .error e := by
        cases readRanges format target parts <;> simp [Except.map]
      rw [Except.bind, hmap, ih]
      constructor
      · rintro ⟨before, part, after, rfl, hbefore, hpart⟩
        exact ⟨first :: before, part, after, rfl,
          List.forall_mem_cons.mpr ⟨⟨entry, hfirst⟩, hbefore⟩, hpart⟩
      · rintro ⟨before, part, after, hsplit, hbefore, hpart⟩
        cases before with
        | nil =>
          obtain ⟨rfl, -⟩ := List.cons.inj hsplit
          rw [hfirst] at hpart
          cases hpart
        | cons other before =>
          obtain ⟨rfl, rfl⟩ := List.cons.inj hsplit
          exact ⟨before, part, after, rfl, (List.forall_mem_cons.mp hbefore).2, hpart⟩

/-! ## 2. Numbers of bits -/

/-- The text is a number of a bit that a reader of 32 bits accepts. -/
def BitNumber (t : Text) : Prop :=
  Numeral.AllDigits 10 t ∧ Numeral.digitsValue 10 0 t < Numeral.limit32

instance (t : Text) : Decidable (BitNumber t) :=
  inferInstanceAs (Decidable (Numeral.AllDigits 10 t ∧ Numeral.digitsValue 10 0 t < Numeral.limit32))

/-- The text is one of decimal digits of any script. -/
def DigitText (t : Text) : Prop := t ≠ [] ∧ ∀ c ∈ t, Text.isDecimalDigit c = true

theorem DigitText.head?_ne (h : DigitText t) : t.head? ≠ some '+' := by
  intro hhead
  have hplus : Text.isDecimalDigit '+' = false := by decide
  have := h.2 '+' (List.mem_of_head? hhead)
  rw [hplus] at this
  cases this

/-- A number of a bit is what is read. -/
theorem exists_readBit_iff (h : DigitText t) : (∃ n, readBit t = .ok n) ↔ BitNumber t := by
  have hiff : (∃ n, Numeral.readUnsigned 10 Numeral.limit32 t = .ok n) ↔ BitNumber t :=
    Numeral.exists_readUnsigned_iff (by decide) h.1 h.head?_ne
  rw [readBit, ← hiff]
  cases Numeral.readUnsigned 10 Numeral.limit32 t with
  | ok n => simp
  | error cause => simp

/-- A text of the form of a range holds numbers in decimal digits of any script. -/
theorem RangeText.digits_of_ofText? {text : RangeText} (h : RangeText.ofText? t = some text) :
    DigitText text.first ∧ ∀ sep second, text.second? = some (sep, second) → DigitText second := by
  have hfirst : ∀ c ∈ t.takeWhile Text.isDecimalDigit, Text.isDecimalDigit c = true :=
    fun c hc => List.mem_takeWhile_imp hc
  rw [RangeText.ofText?] at h
  split at h
  · cases h
  · rename_i hne
    cases h
    exact ⟨⟨hne, hfirst⟩, fun _ _ h => nomatch h⟩
  · rename_i hne
    split at h
    · rename_i hsecond
      cases h
      refine ⟨⟨hne, hfirst⟩, fun _ _ h => ?_⟩
      cases h
      exact ⟨hsecond.2.1, List.all_eq_true.mp hsecond.2.2⟩
    · cases h

/-! ## 3. Ranges -/

/-- If `huge` holds, the result is the error of a number, and else it is no error but a fault of the
field. -/
def FaultedBy {α : Type} (format : Text) (huge : Prop) (result : Except Error α) : Prop :=
  (huge ∧ ∃ cause, result = .error (.number cause)) ∨
    (¬ huge ∧ ∀ e, result = .error e → ∃ fault, e = .badFormat format fault)

namespace FaultedBy

variable {α β : Type} {huge other : Prop} {result : Except Error α}

theorem congr (h : FaultedBy format huge result) (hiff : huge ↔ other) :
    FaultedBy format other result := by
  rwa [FaultedBy, ← hiff]

/-- In front of a second reader the first one decides, unless it succeeds. -/
theorem bind {more : α → Prop} {next : α → Except Error β} (h : FaultedBy format huge result)
    (hnext : ∀ a, FaultedBy format (more a) (next a)) :
    FaultedBy format (huge ∨ ∃ a, result = .ok a ∧ more a) (result.bind next) := by
  rcases h with ⟨hhuge, cause, rfl⟩ | ⟨hfits, hfault⟩
  · exact Or.inl ⟨Or.inl hhuge, cause, rfl⟩
  · -- A fault of the field in the first reader keeps the second one from being asked.
    cases result with
    | error e =>
      refine Or.inr ⟨?_, fun other he => ?_⟩
      · rintro (hhuge | ⟨a, ha, -⟩)
        · exact hfits hhuge
        · cases ha
      · cases he
        exact hfault e rfl
    | ok a =>
      refine (hnext a).congr ⟨fun hmore => Or.inr ⟨a, rfl, hmore⟩, ?_⟩
      rintro (hhuge | ⟨b, hb, hmore⟩)
      · exact absurd hhuge hfits
      · cases hb
        exact hmore

end FaultedBy

theorem faultedBy_readBit (format : Text) (h : DigitText t) :
    FaultedBy format (¬ BitNumber t) (readBit t) := by
  rw [← exists_readBit_iff h, readBit]
  cases Numeral.readUnsigned 10 Numeral.limit32 t with
  | ok n => exact Or.inr ⟨fun hnot => hnot ⟨n, rfl⟩, fun e he => nomatch he⟩
  | error cause => exact Or.inl ⟨fun ⟨n, hn⟩ => (nomatch hn), cause, rfl⟩

theorem faultedBy_rangeBetween (format : Text) (m n : Nat) :
    FaultedBy format False (rangeBetween format m n) := by
  refine Or.inr ⟨id, fun e he => ?_⟩
  rw [rangeBetween] at he
  split at he
  · cases he
  · cases he
    exact ⟨_, rfl⟩

/-- Reads a range from what stands behind its first bit. -/
def readSecond (format target : Text) (first : Nat) : Option (Char × Text) → Except Error BitRange
  | none => rangeBetween format first first
  | some (sep, second) =>
    if sep = '=' ∧ target ≠ "config2".toList then .error (.badFormat format .misplacedSeparator)
    else (readBit second).bind fun n => rangeBetween format first n

theorem readRange_eq (format target : Text) (text : RangeText) :
    readRange format target text =
      (readBit text.first).bind fun first => readSecond format target first text.second? := by
  obtain ⟨first, _ | ⟨sep, second⟩⟩ := text
  · rfl
  · by_cases hsep : sep = '=' ∧ target ≠ "config2".toList
    · simp only [readRange, readSecond, if_pos hsep]
      rfl
    · simp only [readRange, readSecond, if_neg hsep]
      rfl

/-- The second bit of a range is given by a number that is not read, behind a separator that the word
admits. -/
def HugeBehind (target : Text) (second? : Option (Char × Text)) : Prop :=
  ∃ sep second, second? = some (sep, second) ∧ (sep = '=' → target = "config2".toList) ∧
    ¬ BitNumber second

theorem faultedBy_readSecond (format target : Text) (first : Nat) {second? : Option (Char × Text)}
    (h : ∀ sep second, second? = some (sep, second) → DigitText second) :
    FaultedBy format (HugeBehind target second?) (readSecond format target first second?) := by
  obtain _ | ⟨sep, second⟩ := second?
  · refine (faultedBy_rangeBetween format first first).congr ⟨False.elim, ?_⟩
    rintro ⟨_, _, hnone, -⟩
    cases hnone
  · rw [readSecond]
    split
    · rename_i hsep
      refine Or.inr ⟨?_, fun e he => ⟨_, (Except.error.inj he).symm⟩⟩
      rintro ⟨_, _, hfound, hadmitted, -⟩
      cases hfound
      exact hsep.2 (hadmitted hsep.1)
    · rename_i hsep
      have hadmitted : sep = '=' → target = "config2".toList :=
        fun heq => not_not.mp fun hne => hsep ⟨heq, hne⟩
      refine ((faultedBy_readBit format (h sep second rfl)).bind
        fun n => faultedBy_rangeBetween format first n).congr ?_
      constructor
      · rintro (hhuge | ⟨n, -, hfalse⟩)
        · exact ⟨sep, second, rfl, hadmitted, hhuge⟩
        · exact hfalse.elim
      · rintro ⟨_, _, hfound, -, hhuge⟩
        cases hfound
        exact Or.inl hhuge

/-- One of the two bits of a range is given by a number that is not read. -/
def RangeText.NamesHugeBit (target : Text) (text : RangeText) : Prop :=
  ¬ BitNumber text.first ∨ HugeBehind target text.second?

/-- What is wrong with a range is what is wrong with its first bit, or else with the second one. -/
theorem faultedBy_readRange (format target : Text) {text : RangeText}
    (h : RangeText.ofText? t = some text) :
    FaultedBy format (RangeText.NamesHugeBit target text) (readRange format target text) := by
  obtain ⟨hfirst, hsecond⟩ := RangeText.digits_of_ofText? h
  rw [readRange_eq]
  refine ((faultedBy_readBit format hfirst).bind
    fun first => faultedBy_readSecond format target first hsecond).congr ?_
  rw [RangeText.NamesHugeBit, exists_and_right, exists_readBit_iff hfirst]
  constructor
  · exact Or.imp_right And.right
  · rintro (hhuge | hhuge)
    · exact Or.inl hhuge
    · by_cases hfits : BitNumber text.first
      · exact Or.inr ⟨hfits, hhuge⟩
      · exact Or.inl hfits

/-! ## 4. Whole texts -/

/-- Of the parts of a text, the first that cannot be read has the form of a range, but one of its bits
is given by a number that is not read. -/
def NamesHugeBit (format : Text) : Prop :=
  ∃ target body before part after text, Text.cut? ':' (Text.trim format) = some (target, body) ∧
    Text.splitOn ',' body = before ++ part :: after ∧
    (∀ earlier ∈ before, ∃ entry, readPart format target earlier = .ok entry) ∧
    RangeText.ofText? (Text.trim part) = some text ∧ RangeText.NamesHugeBit target text

/-- What is wrong with a part is that it has not the form of a range, or what is wrong with the
range. -/
theorem faultedBy_readPart (format target part : Text) :
    FaultedBy format
      (∃ text, RangeText.ofText? (Text.trim part) = some text ∧ RangeText.NamesHugeBit target text)
      (readPart format target part) := by
  rw [readPart]
  cases htext : RangeText.ofText? (Text.trim part) with
  | none =>
    exact Or.inr ⟨fun ⟨_, hnone, _⟩ => (nomatch hnone), fun e he => ⟨_, (Except.error.inj he).symm⟩⟩
  | some text =>
    have hdone : ∀ range : BitRange, FaultedBy format False
        (.ok (range, text.second?.isNone) : Except Error (BitRange × Bool)) :=
      fun _ => Or.inr ⟨id, fun e he => nomatch he⟩
    refine ((faultedBy_readRange format target htext).bind hdone).congr ?_
    constructor
    · rintro (hhuge | ⟨range, -, hfalse⟩)
      · exact ⟨text, rfl, hhuge⟩
      · exact hfalse.elim
    · rintro ⟨_, hsome, hhuge⟩
      cases hsome
      exact Or.inl hhuge

/-- What is wrong with the parts of a text is what is wrong with the first that cannot be read. -/
theorem parse_eq_error_cases (h : parse format = .error e) :
    (∃ fault, e = .badFormat format fault) ∨
      ∃ target body, Text.cut? ':' (Text.trim format) = some (target, body) ∧
        readRanges format target (Text.splitOn ',' body) = .error e := by
  rw [parse] at h
  cases hcut : Text.cut? ':' (Text.trim format) with
  | none =>
    rw [hcut] at h
    cases h
    exact Or.inl ⟨_, rfl⟩
  | some found =>
    obtain ⟨target, body⟩ := found
    cases hranges : readRanges format target (Text.splitOn ',' body) with
    | error fault =>
      simp only [hcut, hranges, bind, Except.bind] at h
      cases h
      exact Or.inr ⟨target, body, rfl, hranges⟩
    | ok ranges =>
      simp only [hcut, hranges, bind, Except.bind] at h
      cases hword : wordNamed? target ranges with
      | none =>
        rw [hword] at h
        cases h
        exact Or.inl ⟨_, rfl⟩
      | some word =>
        rw [hword] at h
        cases h

/-- **What is wrong with the text of a field** is a fault of the field, or of a number of a bit. -/
theorem parse_error_cases (h : parse format = .error e) :
    (∃ fault, e = .badFormat format fault) ∨ (∃ cause, e = .number cause) ∧ NamesHugeBit format := by
  rcases parse_eq_error_cases h with hfault | ⟨target, body, hcut, hranges⟩
  · exact Or.inl hfault
  · obtain ⟨before, part, after, hsplit, hbefore, hpart⟩ := readRanges_eq_error_iff.mp hranges
    rcases faultedBy_readPart format target part with
      ⟨⟨text, htext, hhuge⟩, cause, hcause⟩ | ⟨-, hfault⟩
    · rw [hcause] at hpart
      cases hpart
      exact Or.inr ⟨⟨cause, rfl⟩, target, body, before, part, after, text, hcut, hsplit, hbefore,
        htext, hhuge⟩
    · exact Or.inl (hfault e hpart)

/-- **Which texts have a number at fault.** -/
theorem exists_number_of_parse_iff :
    (∃ cause, parse format = .error (.number cause)) ↔ NamesHugeBit format := by
  constructor
  · rintro ⟨cause, h⟩
    rcases parse_error_cases h with ⟨fault, hfault⟩ | ⟨-, hhuge⟩
    · cases hfault
    · exact hhuge
  · rintro ⟨target, body, before, part, after, text, hcut, hsplit, hbefore, htext, hhuge⟩
    rcases faultedBy_readPart format target part with ⟨-, cause, hcause⟩ | ⟨hfits, -⟩
    · have hranges : readRanges format target (Text.splitOn ',' body) = .error (.number cause) :=
        readRanges_eq_error_iff.mpr ⟨before, part, after, hsplit, hbefore, hcause⟩
      refine ⟨cause, ?_⟩
      rw [parse]
      simp only [hcut, hranges, bind, Except.bind]
    · exact absurd ⟨text, htext, hhuge⟩ hfits

end Bitfield

end HardwareCounters
