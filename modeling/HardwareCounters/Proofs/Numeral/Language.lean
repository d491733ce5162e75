/-
# The language of numbers

A number may start with the mark of a radix.  Behind it stand digits, of which there is at least one, and
one plus sign may stand in front of them.  A zero in front of further characters is the mark of octal
digits, so a decimal number, which has no mark, starts with no zero unless it is `0` itself.  What digits
denote is said here with tables of the digits, and not with the reader.

* `Denotes`: the number that digits denote, and `readDigits_eq_ok_iff`: the digits that are read;
* `NumberForm`: how a number is written, and `NumberForm.marked`: its mark is told from its digits;
* `readWord_eq_ok_iff`: a word is read if and only if it is so written, as the number that its digits
  denote, and `readWord_of_denotes`: a number that is too large is refused, and not reduced;
* `readWord_written`: words in the digits of any radix are read back;
* `readWord?_eq`: a mark is never cut off in the middle of a character;
* `readWord_language`: all of it.
-/
import HardwareCounters.FileTree
import HardwareCounters.Proofs.Numeral.Notation
import HardwareCounters.Proofs.Numeral.Value
import HardwareCounters.Proofs.Text.Runs
import Mathlib.Data.List.Forall2
import Mathlib.Data.Nat.Digits.Defs

namespace HardwareCounters

namespace Numeral

/-! ## 1. What digits denote -/

/-- The digits in the order of their values, with small letters. -/
def smallDigits : Text := "0123456789abcdef".toList

/-- The digits in the order of their values, with capital letters. -/
def capitalDigits : Text := "0123456789ABCDEF".toList

/-- The character is the digit of that value, of which there are as many as the radix says. -/
def IsDigit (radix : Nat) (c : Char) (value : Nat) : Prop :=
  value < radix ∧ (smallDigits[value]? = some c ∨ capitalDigits[value]? = some c)

/-- The text consists of digits.  The last one counts ones, and every other one counts multiples of what
the one behind it counts, as many as the radix. -/
def Denotes (radix : Nat) (t : Text) (n : Nat) : Prop :=
  ∃ values, List.Forall₂ (IsDigit radix) t values ∧ Nat.ofDigits radix values.reverse = n

section Digits

variable {radix limit acc n d : Nat} {t : Text} {c : Char}

/-- Of the digits up to 16, the radix decides only which there are. -/
theorem digitValue?_eq_some_iff_lt (hradix : radix ≤ 16) :
    digitValue? radix c = some d ↔ d < radix ∧ digitValue? 16 c = some d := by
  simp only [digitValue?, Option.ite_none_right_eq_some, Option.some.injEq]
  split
  · omega
  · split
    · omega
    · split <;> omega

/-- **The digits** are those of the tables. -/
theorem digitValue?_eq_some_iff (hradix : radix ≤ 16) :
    digitValue? radix c = some d ↔ IsDigit radix c d := by
  have hascii : ∀ n < 128, ∀ d < 16, digitValue? 16 (Char.ofNat n) = some d →
      smallDigits[d]? = some (Char.ofNat n) ∨ capitalDigits[d]? = some (Char.ofNat n) := by
    decide +kernel
  have htables : ∀ d < 16, smallDigits[d]?.bind (digitValue? 16) = some d ∧
      capitalDigits[d]?.bind (digitValue? 16) = some d := by
    decide
  rw [digitValue?_eq_some_iff_lt hradix, IsDigit]
  refine and_congr_right fun hd => ⟨fun h => ?_, fun h => ?_⟩
  · have hc := hascii c.toNat (toNat_lt_of_digitValue? (h ▸ Option.some_ne_none d)) d (by omega)
    rw [Char.ofNat_toNat] at hc
    exact hc h
  · obtain ⟨hsmall, hcapital⟩ := htables d (by omega)
    rcases h with h | h
    · rwa [h] at hsmall
    · rwa [h] at hcapital

theorem not_isDigit_plus (radix value : Nat) : ¬ IsDigit radix '+' value := by
  rintro ⟨-, h | h⟩
  · exact absurd (List.mem_of_getElem? h) (by decide)
  · exact absurd (List.mem_of_getElem? h) (by decide)

/-- A text is made of digits if its characters have values. -/
theorem allDigits_iff_exists (hradix : radix ≤ 16) :
    AllDigits radix t ↔ ∃ values, List.Forall₂ (IsDigit radix) t values := by
  induction t with
  | nil => exact ⟨fun _ => ⟨[], .nil⟩, fun _ _ h => (nomatch h)⟩
  | cons c t ih =>
    rw [AllDigits, List.forall_mem_cons, ← AllDigits, ih, Option.ne_none_iff_exists']
    simp only [digitValue?_eq_some_iff hradix, List.forall₂_cons_left_iff]
    constructor
    · rintro ⟨⟨d, hd⟩, values, hvalues⟩
      exact ⟨d :: values, d, values, hd, hvalues, rfl⟩
    · rintro ⟨-, d, values, hd, hvalues, rfl⟩
      exact ⟨⟨d, hd⟩, values, hvalues⟩

/-- Each digit takes the number before it times the radix. -/
theorem digitsValue_eq_foldl (hradix : radix ≤ 16) {values : List Nat}
    (h : List.Forall₂ (IsDigit radix) t values) :
    digitsValue radix acc t = values.foldl (fun n d => n * radix + d) acc := by
  induction h generalizing acc with
  | nil => rfl
  | cons hd _ ih =>
    rw [digitsValue_cons ((digitValue?_eq_some_iff hradix).mpr hd), ih, List.foldl_cons]

theorem ofDigits_reverse_eq_foldl (radix : Nat) (values : List Nat) :
    Nat.ofDigits radix values.reverse = values.foldl (fun n d => n * radix + d) 0 := by
  rw [Nat.ofDigits_eq_foldr, List.foldr_reverse]
  refine congrArg (List.foldl · 0 values) ?_
  funext n d
  rw [Nat.cast_id, Nat.add_comm, Nat.mul_comm]

/-- Digits denote the number that comes of taking them one after another. -/
theorem denotes_iff (hradix : radix ≤ 16) :
    Denotes radix t n ↔ AllDigits radix t ∧ digitsValue radix 0 t = n := by
  constructor
  · rintro ⟨values, hvalues, rfl⟩
    exact ⟨(allDigits_iff_exists hradix).mpr ⟨values, hvalues⟩,
      (digitsValue_eq_foldl hradix hvalues).trans (ofDigits_reverse_eq_foldl radix values).symm⟩
  · rintro ⟨hall, rfl⟩
    obtain ⟨values, hvalues⟩ := (allDigits_iff_exists hradix).mp hall
    exact ⟨values, hvalues,
      (ofDigits_reverse_eq_foldl radix values).trans (digitsValue_eq_foldl hradix hvalues).symm⟩

theorem Denotes.head?_ne_plus (h : Denotes radix t n) : t.head? ≠ some '+' := by
  obtain ⟨values, hvalues, -⟩ := h
  cases hvalues with
  | nil => exact nofun
  | cons hd _ =>
    intro hc
    exact not_isDigit_plus _ _ (Option.some.inj hc ▸ hd)

/-! ## 2. Digits with a sign -/

/-- **Digits are read** as the number that they denote, if that is below the limit. -/
theorem readDigits_eq_ok_iff (hradix : radix ≤ 16) (hlimit : 0 < limit) :
    readDigits radix limit 0 t = .ok n ↔ Denotes radix t n ∧ n < limit := by
  rw [denotes_iff hradix]
  constructor
  · intro h
    obtain ⟨hall, hlt⟩ := (exists_readDigits_iff hlimit).mp ⟨n, h⟩
    rw [readDigits_of_allDigits hlimit hall, if_pos hlt] at h
    obtain rfl := Except.ok.inj h
    exact ⟨⟨hall, rfl⟩, hlt⟩
  · rintro ⟨⟨hall, rfl⟩, hlt⟩
    rw [readDigits_of_allDigits hlimit hall, if_pos hlt]

theorem readUnsigned_signed (plus : Bool) (hne : t ≠ []) (hhead : t.head? ≠ some '+') :
    readUnsigned radix limit (Text.charIf '+' plus ++ t) = readDigits radix limit 0 t := by
  cases plus with
  | false => exact readUnsigned_eq_readDigits hne hhead
  | true =>
    obtain ⟨c, rest, rfl⟩ := List.exists_cons_of_ne_nil hne
    rfl

/-- A number without a mark is read if and only if it is one plus sign or none in front of digits. -/
theorem readUnsigned_eq_ok_iff (hradix : radix ≤ 16) (hlimit : 0 < limit) :
    readUnsigned radix limit t = .ok n ↔
      ∃ plus digits, Text.charIf '+' plus ++ digits = t ∧ digits ≠ [] ∧ Denotes radix digits n ∧
        n < limit := by
  constructor
  · intro h
    rw [readUnsigned.eq_def] at h
    split at h
    · cases h
    · cases h
    · rename_i digits hne
      exact ⟨true, digits, rfl, hne, (readDigits_eq_ok_iff hradix hlimit).mp h⟩
    · rename_i hne _ _
      exact ⟨false, t, rfl, hne, (readDigits_eq_ok_iff hradix hlimit).mp h⟩
  · rintro ⟨plus, digits, rfl, hne, hdigits, hlt⟩
    rw [readUnsigned_signed plus hne hdigits.head?_ne_plus]
    exact (readDigits_eq_ok_iff hradix hlimit).mpr ⟨hdigits, hlt⟩

end Digits

/-! ## 3. How numbers are written -/

/-- The letters that may stand behind a zero, and the radices that they announce. -/
def letters : List (Char × Nat) :=
  [('x', 16), ('X', 16), ('o', 8), ('O', 8), ('b', 2), ('B', 2)]

/-- What may stand in front of a number: a zero and a letter, a zero, or nothing. -/
def marks : List (Text × Nat) :=
  letters.map (fun entry => (['0', entry.1], entry.2)) ++ [(['0'], 8), ([], 10)]

/-- The text can stand without a mark: it is just a zero, or does not start with one. -/
def Unmarked (t : Text) : Prop := t = ['0'] ∨ t.head? ≠ some '0'

/-- How a number is written: a mark, a plus sign or none, and at least one digit. -/
structure NumberForm where
  mark : Text
  radix : Nat
  plus : Bool
  digits : Text
  mem_marks : (mark, radix) ∈ marks
  digits_ne_nil : digits ≠ []
  unmarked : mark = [] → Unmarked (Text.charIf '+' plus ++ digits)

theorem radix_bounds {mark : Text} {radix : Nat} (h : (mark, radix) ∈ marks) :
    1 < radix ∧ radix ≤ 16 := by
  have hall : ∀ entry ∈ marks, 1 < entry.2 ∧ entry.2 ≤ 16 := by decide
  exact hall _ h

namespace NumberForm

variable (form : NumberForm)

/-- What follows the mark. -/
def signed : Text := Text.charIf '+' form.plus ++ form.digits

/-- The text without the blanks around it. -/
def text : Text := form.mark ++ form.signed

/-- The digits are digits of the radix and denote the number. -/
def Denotes (n : Nat) : Prop := Numeral.Denotes form.radix form.digits n

end NumberForm

/-! ## 4. Where the mark ends -/

/-- The radix and the digits are told by what the text starts with: a zero and a letter, a zero in front
of another character, or none of these. -/
inductive Marked : Text → Nat × Text → Prop
  | letter {c : Char} {radix : Nat} (h : (c, radix) ∈ letters) (rest : Text) :
      Marked ('0' :: c :: rest) (radix, rest)
  | zero {c : Char} (h : c ∉ letters.map Prod.fst) (rest : Text) :
      Marked ('0' :: c :: rest) (8, c :: rest)
  | unmarked {t : Text} (h : Unmarked t) : Marked t (10, t)

theorem marked_radixAndDigits (t : Text) : Marked t (radixAndDigits t) := by
  rw [radixAndDigits.eq_def]
  split
  · exact .letter (by decide : ('x', 16) ∈ letters) _
  · exact .letter (by decide : ('X', 16) ∈ letters) _
  · exact .letter (by decide : ('o', 8) ∈ letters) _
  · exact .letter (by decide : ('O', 8) ∈ letters) _
  · exact .letter (by decide : ('b', 2) ∈ letters) _
  · exact .letter (by decide : ('B', 2) ∈ letters) _
  · exact .zero (by simp_all [letters]) _
  · rename_i hzero
    refine .unmarked (or_iff_not_imp_right.mpr fun hhead => ?_)
    obtain ⟨rest, rfl⟩ := List.head?_eq_some_iff.mp (not_not.mp hhead)
    cases rest with
    | nil => rfl
    | cons c digits => exact absurd rfl (hzero c digits)

theorem Marked.radixAndDigits_eq {t : Text} {found : Nat × Text} (h : Marked t found) :
    radixAndDigits t = found := by
  cases h with
  | letter h rest =>
    have hall : ∀ entry ∈ letters, radixAndDigits ('0' :: entry.1 :: rest) = (entry.2, rest) := by
      simp only [letters, List.forall_mem_cons]
      exact ⟨rfl, rfl, rfl, rfl, rfl, rfl, nofun⟩
    exact hall _ h
  | zero h rest =>
    rw [radixAndDigits.eq_def]
    split <;> simp_all [letters]
  | unmarked h =>
    rcases h with rfl | h
    · rfl
    · rw [radixAndDigits.eq_def]
      split <;> first | rfl | exact absurd rfl h

/-- Every text starts with a mark, or can stand without one. -/
theorem exists_mark (t : Text) :
    ∃ mark radix digits, radixAndDigits t = (radix, digits) ∧ (mark, radix) ∈ marks ∧
      mark ++ digits = t ∧ (mark = [] → Unmarked digits) := by
  have hmarked := marked_radixAndDigits t
  generalize radixAndDigits t = found at hmarked ⊢
  cases hmarked with
  | @letter c radix h rest =>
    exact ⟨['0', c], radix, rest, rfl, List.mem_append_left _ (List.mem_map_of_mem h), rfl, nofun⟩
  | zero h rest => exact ⟨['0'], 8, _, rfl, by decide, rfl, nofun⟩
  | unmarked h => exact ⟨[], 10, t, rfl, by decide, rfl, fun _ => h⟩

namespace NumberForm

variable {form : NumberForm} {n : Nat}

/-- Behind the mark stands a plus sign or a digit. -/
theorem exists_signed_eq_cons (h : form.Denotes n) :
    ∃ c rest, form.signed = c :: rest ∧ (c = '+' ∨ ∃ d, IsDigit form.radix c d) := by
  cases hplus : form.plus with
  | true => exact ⟨'+', form.digits, by rw [signed, hplus]; rfl, Or.inl rfl⟩
  | false =>
    obtain ⟨values, hvalues, -⟩ := h
    obtain ⟨c, rest, hdigits⟩ := List.exists_cons_of_ne_nil form.digits_ne_nil
    obtain ⟨d, -, hd, -⟩ := List.forall₂_cons_left_iff.mp (hdigits ▸ hvalues)
    exact ⟨c, rest, by rw [signed, hplus, hdigits]; rfl, Or.inr ⟨d, hd⟩⟩

/-- **The mark is told from the digits**, as the letters of the marks are no octal digits. -/
theorem marked (h : form.Denotes n) : Marked form.text (form.radix, form.signed) := by
  obtain ⟨mark, radix, plus, digits, hmem, hne, hunmarked⟩ := form
  rcases List.mem_append.mp hmem with hmem | hmem
  · obtain ⟨entry, hentry, heq⟩ := List.mem_map.mp hmem
    obtain ⟨rfl, rfl⟩ := Prod.mk.inj heq
    exact .letter hentry _
  rcases List.mem_pair.mp hmem with hmem | hmem
  · obtain ⟨rfl, rfl⟩ := Prod.mk.inj hmem
    have hletter : ∀ c ∈ letters.map Prod.fst, c ≠ '+' ∧ digitValue? 8 c = none :=
      Text.forall_mem_of_all (by decide)
    obtain ⟨c, rest, hsigned, hc⟩ := exists_signed_eq_cons h
    rw [text, hsigned]
    refine .zero (fun hmem => ?_) rest
    rcases hc with rfl | ⟨d, hd⟩
    · exact (hletter _ hmem).1 rfl
    · have hdigit : digitValue? 8 c = some d := (digitValue?_eq_some_iff (by decide)).mpr hd
      rw [(hletter c hmem).2] at hdigit
      cases hdigit
  · obtain ⟨rfl, rfl⟩ := Prod.mk.inj hmem
    exact .unmarked (hunmarked rfl)

/-- No blank stands at the ends of a number. -/
theorem trim_text (h : form.Denotes n) : Text.trim form.text = form.text := by
  have hmark : ∀ entry ∈ marks, entry.1.all (fun c => !Text.isBlank c) = true := by decide
  obtain ⟨hall, -⟩ := (denotes_iff (radix_bounds form.mem_marks).2).mp h
  refine Text.trim_eq_self fun c hc => ?_
  rcases List.mem_append.mp hc with hc | hc
  · simpa using List.all_eq_true.mp (hmark _ form.mem_marks) c hc
  rcases List.mem_append.mp hc with hc | hc
  · have hplus : c = '+' := by
      rw [Text.charIf] at hc
      split at hc
      · exact List.mem_singleton.mp hc
      · cases hc
    rw [hplus]
    decide
  · by_contra hblank
    exact hall c hc (noDigit_of_isBlank (by simpa using hblank) form.radix)

end NumberForm

/-! ## 5. What is read -/

section Words

variable {form : NumberForm} {n : Nat} {t : Text} {value : Word}

/-- **Numbers of any size.**  What does not fit in a word is refused. -/
theorem readWord_of_denotes (htext : form.text = Text.trim t) (h : form.Denotes n) :
    readWord t = if n < limit64 then .ok (BitVec.ofNat 64 n) else .error .tooLarge := by
  obtain ⟨hall, hvalue⟩ := (denotes_iff (radix_bounds form.mem_marks).2).mp h
  rw [readWord, ← htext, (NumberForm.marked h).radixAndDigits_eq]
  simp only [NumberForm.signed]
  rw [readUnsigned_signed _ form.digits_ne_nil (Denotes.head?_ne_plus h),
    readDigits_of_allDigits (by decide) hall, hvalue]
  split <;> rfl

/-- **The language of numbers.** -/
theorem readWord_eq_ok_iff :
    readWord t = .ok value ↔
      ∃ form : NumberForm, form.text = Text.trim t ∧ form.Denotes value.toNat := by
  constructor
  · intro h
    obtain ⟨mark, radix, rest, hsplit, hmem, htext, hunmarked⟩ := exists_mark (Text.trim t)
    rw [readWord, hsplit] at h
    cases hread : readUnsigned radix limit64 rest with
    | error e => simp [hread, Except.map] at h
    | ok n =>
      obtain ⟨plus, digits, rfl, hne, hdigits, hlt⟩ :=
        (readUnsigned_eq_ok_iff (radix_bounds hmem).2 (by decide)).mp hread
      simp only [hread, Except.map, Except.ok.injEq] at h
      have hvalue : value.toNat = n := by
        rw [← h, BitVec.toNat_ofNat]
        exact Nat.mod_eq_of_lt hlt
      exact ⟨⟨mark, radix, plus, digits, hmem, hne, hunmarked⟩, htext, hvalue ▸ hdigits⟩
  · rintro ⟨form, htext, h⟩
    have hfits : value.toNat < limit64 := value.isLt
    rw [readWord_of_denotes htext h, if_pos hfits, BitVec.ofNat_toNat, BitVec.setWidth_eq]

end Words

/-! ## 6. What is written -/

/-- A number in digits, of which the letters are small or capital. -/
def written (capital : Bool) (radix n : Nat) : Text :=
  if capital then (Nat.toDigits radix n).map Char.toUpper else Nat.toDigits radix n

section Written

variable {radix n : Nat}

theorem denotes_written (capital : Bool) (hone : 1 < radix) (hradix : radix ≤ 16) (n : Nat) :
    Denotes radix (written capital radix n) n := by
  refine ((readDigits_eq_ok_iff hradix (Nat.succ_pos n)).mp ?_).1
  cases capital with
  | false => exact readDigits_toDigits hone hradix (Nat.lt_succ_self n)
  | true => exact readDigits_toUpper_toDigits hone hradix (Nat.lt_succ_self n)

theorem written_ne_nil (capital : Bool) (radix n : Nat) : written capital radix n ≠ [] := by
  cases capital with
  | false => exact Nat.toDigits_ne_nil
  | true => exact mt List.map_eq_nil_iff.mp Nat.toDigits_ne_nil

/-- The first digit of a positive number is not 0. -/
theorem exists_head?_toDigits (hone : 1 < radix) (hn : 0 < n) :
    ∃ d, 0 < d ∧ d < radix ∧ (Nat.toDigits radix n).head? = some (Nat.digitChar d) := by
  induction n using Nat.strongRecOn with
  | ind n ih =>
    rcases Nat.lt_or_ge n radix with hlt | hge
    · exact ⟨n, hn, hlt, by rw [Nat.toDigits_of_lt_base hlt]; rfl⟩
    · obtain ⟨d, hpos, hd, hhead⟩ :=
        ih _ (Nat.div_lt_self hn hone) (Nat.div_pos hge (Nat.zero_lt_of_lt hone))
      refine ⟨d, hpos, hd, ?_⟩
      rw [Nat.toDigits_of_base_le hone hge, List.head?_append, hhead, Option.some_or]

theorem unmarked_written (capital : Bool) (n : Nat) : Unmarked (written capital 10 n) := by
  rcases Nat.eq_zero_or_pos n with rfl | hn
  · cases capital with
    | false => exact Or.inl rfl
    | true => exact Or.inl rfl
  · have hzero : ∀ d < 10, 0 < d →
        Nat.digitChar d ≠ '0' ∧ (Nat.digitChar d).toUpper ≠ '0' := by decide
    obtain ⟨d, hpos, hd, hhead⟩ := exists_head?_toDigits (show 1 < 10 by decide) hn
    refine Or.inr ?_
    cases capital with
    | false => simp [written, hhead, hzero d hd hpos]
    | true => simp [written, hhead, hzero d hd hpos]

/-- **Words are read back** from their digits behind any of the marks. -/
theorem readWord_written {mark : Text} (hmark : (mark, radix) ∈ marks) (capital : Bool)
    (hn : n < 2 ^ 64) :
    readWord (mark ++ written capital radix n) = .ok (BitVec.ofNat 64 n) := by
  obtain ⟨hone, hradix⟩ := radix_bounds hmark
  have hunmarked : mark = [] → Unmarked (written capital radix n) := by
    have hten : ∀ entry ∈ marks, entry.1 = [] → entry.2 = 10 := by decide
    intro hnil
    obtain rfl : radix = 10 := hten _ hmark hnil
    exact unmarked_written capital n
  let form : NumberForm :=
    ⟨mark, radix, false, written capital radix n, hmark, written_ne_nil _ _ _, hunmarked⟩
  have hform : form.Denotes n := denotes_written capital hone hradix n
  exact (readWord_of_denotes (NumberForm.trim_text hform).symm hform).trans (if_pos hn)

end Written

/-! ## 7. Bytes -/

/-- The text from a byte on.  There is none if that byte is in the middle of a character or past the
end. -/
def fromByte? : Nat → Text → Option Text
  | 0, t => some t
  | _ + 1, [] => none
  | n + 1, c :: t => if c.utf8Size ≤ n + 1 then fromByte? (n + 1 - c.utf8Size) t else none

/-- The radix and the digits, where a zero that is a mark is cut off as the first byte. -/
def radixAndDigits? (t : Text) : Option (Nat × Text) :=
  match letters.findSome? fun entry => (Text.dropFront? ['0', entry.1] t).map (entry.2, ·) with
  | some found => some found
  | none =>
    if 1 < FileTree.utf8Length t ∧ t.head? = some '0' then (fromByte? 1 t).map (8, ·)
    else some (10, t)

/-- A number without sign in a radix, of which there is none below 2 and none above 36. -/
def readUnsigned? (radix limit : Nat) (t : Text) : Option (Except NumberError Nat) :=
  if 2 ≤ radix ∧ radix ≤ 36 then some (readUnsigned radix limit t) else none

/-- Reads a word, and stops without an answer at a position or a radix that there is not. -/
def readWord? (t : Text) : Option (Except NumberError Word) :=
  (radixAndDigits? (Text.trim t)).bind fun (radix, digits) =>
    (readUnsigned? radix limit64 digits).map fun result => result.map (BitVec.ofNat 64)

theorem utf8Length_cons (c : Char) (t : Text) :
    FileTree.utf8Length (c :: t) = c.utf8Size + FileTree.utf8Length t := by
  simp [FileTree.utf8Length, String.ofList_cons]

/-- A position behind a part of a text is not in the middle of a character. -/
theorem fromByte?_append (front t : Text) :
    fromByte? (FileTree.utf8Length front) (front ++ t) = some t := by
  induction front with
  | nil =>
    rw [List.nil_append]
    exact fromByte?.eq_1 t
  | cons c front ih =>
    obtain ⟨k, hk⟩ := Nat.exists_eq_add_of_le' c.utf8Size_pos
    have hsum : FileTree.utf8Length (c :: front) = k + FileTree.utf8Length front + 1 := by
      rw [utf8Length_cons, hk]
      omega
    have hrest : k + FileTree.utf8Length front + 1 - c.utf8Size = FileTree.utf8Length front := by
      omega
    rw [List.cons_append, hsum, fromByte?, if_pos (by omega), hrest, ih]

/-- What is left to be told if there is no letter behind a zero. -/
theorem radixAndDigits?_of_no_letter {t : Text}
    (ht : ∀ c ∈ letters.map Prod.fst, ∀ rest, t ≠ '0' :: c :: rest) :
    radixAndDigits? t =
      if 1 < FileTree.utf8Length t ∧ t.head? = some '0' then (fromByte? 1 t).map (8, ·)
      else some (10, t) := by
  have hnone : letters.findSome?
      (fun entry => (Text.dropFront? ['0', entry.1] t).map (entry.2, ·)) = none := by
    rw [List.findSome?_eq_none_iff]
    intro entry h
    rw [Text.dropFront?_pair (ht entry.1 (List.mem_map_of_mem h)), Option.map_none]
  rw [radixAndDigits?, hnone]

/-- **Positions.**  The mark is cut off in front of a character. -/
theorem radixAndDigits?_eq (t : Text) : radixAndDigits? t = some (radixAndDigits t) := by
  have hmarked := marked_radixAndDigits t
  generalize radixAndDigits t = found at hmarked ⊢
  cases hmarked with
  | letter h rest =>
    have hall : ∀ entry ∈ letters,
        radixAndDigits? ('0' :: entry.1 :: rest) = some (entry.2, rest) := by
      simp only [letters, List.forall_mem_cons]
      exact ⟨rfl, rfl, rfl, rfl, rfl, rfl, nofun⟩
    exact hall _ h
  | @zero c h rest =>
    have hlong : 1 < FileTree.utf8Length ('0' :: c :: rest) := by
      have hpos := c.utf8Size_pos
      have hzero : '0'.utf8Size = 1 := by decide
      rw [utf8Length_cons, utf8Length_cons]
      omega
    have hcut : fromByte? 1 ('0' :: c :: rest) = some (c :: rest) :=
      fromByte?_append ['0'] (c :: rest)
    rw [radixAndDigits?_of_no_letter, if_pos ⟨hlong, rfl⟩, hcut, Option.map_some]
    rintro d hd digits heq
    obtain ⟨rfl, -⟩ := List.cons.inj (List.cons.inj heq).2
    exact h hd
  | unmarked h =>
    rcases h with rfl | h
    · rfl
    · rw [radixAndDigits?_of_no_letter, if_neg fun hzero => h hzero.2]
      rintro d - digits rfl
      exact h rfl

/-- **There is always an answer.** -/
theorem readWord?_eq (t : Text) : readWord? t = some (readWord t) := by
  obtain ⟨mark, radix, rest, hsplit, hmem, -, -⟩ := exists_mark (Text.trim t)
  obtain ⟨hone, hradix⟩ := radix_bounds hmem
  have hunsigned : readUnsigned? radix limit64 rest = some (readUnsigned radix limit64 rest) :=
    if_pos ⟨hone, by omega⟩
  rw [readWord?, radixAndDigits?_eq, readWord, hsplit, Option.bind_some]
  simp only [hunsigned, Option.map_some]

/-! ## 8. The result -/

/-- **The language of numbers.**  A text is read if and only if, without the blanks around it, it is a
number below 2^64 with or without a mark, and as that number.  A larger number is refused, every text
gets an answer, and what is written is read back. -/
theorem readWord_language :
    (∀ (t : Text) (value : Word), readWord t = .ok value ↔
      ∃ form : NumberForm, form.text = Text.trim t ∧ form.Denotes value.toNat) ∧
    (∀ (t : Text) (form : NumberForm) (n : Nat), form.text = Text.trim t → form.Denotes n →
      2 ^ 64 ≤ n → readWord t = .error .tooLarge) ∧
    (∀ t : Text, readWord? t = some (readWord t)) ∧
    ∀ (mark : Text) (radix : Nat) (capital : Bool) (n : Nat), (mark, radix) ∈ marks → n < 2 ^ 64 →
      readWord (mark ++ written capital radix n) = .ok (BitVec.ofNat 64 n) := by
  refine ⟨fun _ _ => readWord_eq_ok_iff, fun t form n htext h hlarge => ?_, readWord?_eq,
    fun _ _ capital _ hmark hn => readWord_written hmark capital hn⟩
  have htoo : ¬ n < limit64 := Nat.not_lt.mpr hlarge
  rw [readWord_of_denotes htext h, if_neg htoo]

/-- A mark, a sign and letters of both cases, the smallest number that is too large, and octal digits
behind a zero. -/
theorem readWord_language_marked :
    readWord " 0x+2eE\n".toList = .ok 0x2EE ∧
      readWord "0X10000000000000000".toList = .error .tooLarge ∧
      readWord? "0b10".toList = some (readWord "0b10".toList) ∧
      readWord "010".toList = .ok 8 := by
  obtain ⟨hread, hlarge, hanswer, hwritten⟩ := readWord_language
  refine ⟨(hread _ _).mpr ?_, ?_, hanswer _, hwritten ['0'] 8 false 8 (by decide) (by decide)⟩
  · exact ⟨⟨['0', 'x'], 16, true, "2eE".toList, by decide, by decide, nofun⟩, by decide,
      (denotes_iff (by decide)).mpr ⟨Text.forall_mem_of_all (by decide), by decide⟩⟩
  · exact hlarge _ ⟨['0', 'X'], 16, false, "10000000000000000".toList, by decide, by decide, nofun⟩
      (2 ^ 64) (by decide) ((denotes_iff (by decide)).mpr ⟨Text.forall_mem_of_all (by decide), by decide⟩)
      (by decide)

/-- A sign in front of a zero makes a number decimal. -/
example : readWord "+010".toList = .ok 10 := by rfl

end Numeral

end HardwareCounters
