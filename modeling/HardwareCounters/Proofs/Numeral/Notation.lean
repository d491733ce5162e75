/-
# The characters of numbers

What may stand in the text of a number is fixed by the readers alone: digits, a sign, the marks of a
radix and blanks.  A character that is none of these does not stand in a text that is accepted, so
such a text can be put between commas, slashes and colons.  In the other direction the digits that
are written are read back.

* `not_mem_of_readWord`: a character without a value as a digit is in no accepted number, unless it
  is a plus sign or a blank;
* `readDigits_toDigits` and `readWord_hex`: what is written is read back;
* `decimal_inj` and `hexUpper_inj`: so different numbers are written differently.
-/
import HardwareCounters.Proofs.Text.Trimming
import HardwareCounters.Numeral

namespace HardwareCounters

namespace Numeral

/-! ## 1. Accepted texts -/

/-- The character has no value as a digit in any radix. -/
def NoDigit (c : Char) : Prop := ∀ radix, digitValue? radix c = none

/-- Characters outside the ranges of digits and ASCII letters are no digits. -/
theorem noDigit_of_outside {c : Char}
    (h : c.toNat < 48 ∨ 57 < c.toNat ∧ c.toNat < 65 ∨ 90 < c.toNat ∧ c.toNat < 97 ∨
      122 < c.toNat) : NoDigit c := by
  intro radix
  have h57 : ¬ (48 ≤ c.toNat ∧ c.toNat ≤ 57) := by omega
  have h122 : ¬ (97 ≤ c.toNat ∧ c.toNat ≤ 122) := by omega
  have h90 : ¬ (65 ≤ c.toNat ∧ c.toNat ≤ 90) := by omega
  simp [digitValue?, h57, h122, h90]

theorem noDigit_of_isBlank {c : Char} (h : Text.isBlank c = true) : NoDigit c := by
  obtain ⟨range, hrange, hfirst, hlast⟩ := Text.inRanges_iff.mp h
  have houtside : ∀ range ∈ Text.blankRanges, range.2 < 48 ∨ 122 < range.1 := by decide
  have := houtside range hrange
  exact noDigit_of_outside (by omega)

theorem not_mem_of_readDigits {radix limit acc n : Nat} {t : Text} {c : Char} (hc : NoDigit c)
    (h : readDigits radix limit acc t = .ok n) : c ∉ t := by
  induction t generalizing acc with
  | nil => exact List.not_mem_nil
  | cons d t ih =>
    rw [readDigits] at h
    split at h
    · cases h
    · rename_i value hvalue
      split at h
      · rintro hmem
        rcases List.mem_cons.mp hmem with rfl | hmem
        · rw [hc radix] at hvalue
          cases hvalue
        · exact ih h hmem
      · cases h

theorem not_mem_of_readUnsigned {radix limit n : Nat} {t : Text} {c : Char} (hc : NoDigit c)
    (hplus : c ≠ '+') (h : readUnsigned radix limit t = .ok n) : c ∉ t := by
  rw [readUnsigned.eq_def] at h
  split at h
  · cases h
  · cases h
  · intro hmem
    rcases List.mem_cons.mp hmem with rfl | hmem
    · exact hplus rfl
    · exact not_mem_of_readDigits hc h hmem
  · exact not_mem_of_readDigits hc h

/-- What announces the radix are digits and letters. -/
theorem mem_radixAndDigits {t : Text} {c : Char} (hc : NoDigit c) (hmem : c ∈ t) :
    c ∈ (radixAndDigits t).2 := by
  have hne : ∀ d : Char, digitValue? 36 d ≠ none → c ≠ d := by
    rintro d hd rfl
    exact hd (hc 36)
  rw [radixAndDigits.eq_def]
  split <;> simp_all [digitValue?]

/-- A number is read from the text without the blanks around it. -/
theorem readWord_trim (t : Text) : readWord (Text.trim t) = readWord t := by
  rw [readWord, readWord, Text.trim_trim]

/-- **No other characters.**  A character that is neither a digit nor a sign nor a blank is in no
accepted number. -/
theorem not_mem_of_readWord {t : Text} {value : Word} {c : Char} (hc : NoDigit c)
    (hplus : c ≠ '+') (hblank : Text.isBlank c = false) (h : readWord t = .ok value) : c ∉ t := by
  intro hmem
  have hdigits := mem_radixAndDigits hc (Text.mem_trim hmem hblank)
  rw [readWord] at h
  cases hread : readUnsigned (radixAndDigits (Text.trim t)).1 limit64
      (radixAndDigits (Text.trim t)).2 with
  | error e => simp [hread, Except.map] at h
  | ok n => exact not_mem_of_readUnsigned hc hplus hread hdigits

/-- Neither commas nor slashes nor colons are in an accepted number. -/
theorem separator_not_mem_of_readWord {t : Text} {value : Word} {c : Char}
    (hc : c ∈ [',', '/', ':']) (h : readWord t = .ok value) : c ∉ t := by
  have hall : ∀ c ∈ [',', '/', ':'], c ≠ '+' ∧ Text.isBlank c = false ∧
      (c.toNat < 48 ∨ 57 < c.toNat ∧ c.toNat < 65) := by
    rw [List.forall_mem_cons, List.forall_mem_cons, List.forall_mem_singleton]
    decide
  obtain ⟨hplus, hblank, hrange⟩ := hall c hc
  exact not_mem_of_readWord (noDigit_of_outside (by omega)) hplus hblank h

/-! ## 2. Written numbers -/

theorem digitValue?_digitChar {radix d : Nat} (hradix : radix ≤ 16) (hd : d < radix) :
    digitValue? radix (Nat.digitChar d) = some d := by
  have h : ∀ r ≤ 16, ∀ d < r, digitValue? r (Nat.digitChar d) = some d := by decide
  exact h radix hradix d hd

/-- **Digits are read back.** -/
theorem readDigits_toDigits {radix limit n : Nat} (hone : 1 < radix) (hradix : radix ≤ 16)
    (hn : n < limit) : readDigits radix limit 0 (Nat.toDigits radix n) = .ok n := by
  induction n using Nat.strongRecOn with
  | ind n ih =>
    rcases Nat.lt_or_ge n radix with hlt | hge
    · rw [Nat.toDigits_of_lt_base hlt, readDigits, digitValue?_digitChar hradix hlt]
      simp [readDigits, hn]
    · have hdiv : n / radix < n := Nat.div_lt_self (by omega) hone
      have hmod : n % radix < radix := Nat.mod_lt n (by omega)
      have hsum : n / radix * radix + n % radix = n := by
        rw [Nat.mul_comm]
        exact Nat.div_add_mod n radix
      rw [Nat.toDigits_of_base_le hone hge, readDigits_append, ih _ hdiv (by omega)]
      simp [Except.bind, readDigits, digitValue?_digitChar hradix hmod, hsum, hn]

/-- Only digits are written. -/
theorem not_noDigit_of_mem_toDigits {radix n : Nat} {c : Char} (hone : 1 < radix)
    (hradix : radix ≤ 16) (h : c ∈ Nat.toDigits radix n) : ¬ NoDigit c := by
  intro hc
  exact not_mem_of_readDigits hc (readDigits_toDigits hone hradix (Nat.lt_succ_self n)) h

theorem readUnsigned_toDigits {radix limit n : Nat} (hone : 1 < radix) (hradix : radix ≤ 16)
    (hn : n < limit) : readUnsigned radix limit (Nat.toDigits radix n) = .ok n := by
  have hplus : '+' ∉ Nat.toDigits radix n := fun hmem =>
    not_noDigit_of_mem_toDigits hone hradix hmem (noDigit_of_outside (by decide))
  have hread := readDigits_toDigits hone hradix hn
  rw [readUnsigned.eq_def]
  split
  · rename_i hnil
    exact absurd hnil Nat.toDigits_ne_nil
  · rename_i heq
    simp [heq] at hplus
  · rename_i heq
    simp [heq] at hplus
  · exact hread

theorem exists_digitChar_of_mem_toDigits {radix n : Nat} {c : Char} (hone : 1 < radix)
    (h : c ∈ Nat.toDigits radix n) : ∃ d < radix, c = Nat.digitChar d := by
  induction n using Nat.strongRecOn with
  | ind n ih =>
    rcases Nat.lt_or_ge n radix with hlt | hge
    · rw [Nat.toDigits_of_lt_base hlt, List.mem_singleton] at h
      exact ⟨n, hlt, h⟩
    · rw [Nat.toDigits_of_base_le hone hge, List.mem_append, List.mem_singleton] at h
      rcases h with h | h
      · exact ih _ (Nat.div_lt_self (by omega) hone) h
      · exact ⟨n % radix, Nat.mod_lt n (by omega), h⟩

/-- A text is read as another one with digits of the same values. -/
theorem readDigits_map {radix limit acc : Nat} {t : Text} {f : Char → Char}
    (h : ∀ c ∈ t, digitValue? radix (f c) = digitValue? radix c) :
    readDigits radix limit acc (t.map f) = readDigits radix limit acc t := by
  induction t generalizing acc with
  | nil => rfl
  | cons c t ih =>
    obtain ⟨hc, ht⟩ := List.forall_mem_cons.mp h
    simp only [List.map_cons, readDigits, hc, ih ht]

/-- **Digits are read back from capital letters.** -/
theorem readDigits_toUpper_toDigits {radix limit n : Nat} (hone : 1 < radix) (hradix : radix ≤ 16)
    (hn : n < limit) :
    readDigits radix limit 0 ((Nat.toDigits radix n).map Char.toUpper) = .ok n := by
  have hdigit : ∀ r ≤ 16, ∀ d < r, digitValue? r (Nat.digitChar d).toUpper = some d := by decide
  rw [readDigits_map, readDigits_toDigits hone hradix hn]
  intro c hc
  obtain ⟨d, hd, rfl⟩ := exists_digitChar_of_mem_toDigits hone hc
  rw [hdigit radix hradix d hd, digitValue?_digitChar hradix hd]

/-- Numbers that are read back are written differently. -/
theorem eq_of_written_eq {radix : Nat} {write : Nat → Text}
    (hread : ∀ limit n, n < limit → readDigits radix limit 0 (write n) = .ok n) {m n : Nat}
    (h : write m = write n) : m = n := by
  have hm := hread (m + n + 1) m (by omega)
  rw [h, hread (m + n + 1) n (by omega)] at hm
  exact (Except.ok.inj hm).symm

theorem decimal_inj {m n : Nat} : decimal m = decimal n ↔ m = n :=
  ⟨eq_of_written_eq fun _ _ => readDigits_toDigits (by decide) (by decide), congrArg decimal⟩

theorem hexUpper_inj {m n : Nat} : hexUpper m = hexUpper n ↔ m = n :=
  ⟨eq_of_written_eq fun _ _ => readDigits_toUpper_toDigits (by decide) (by decide),
    congrArg hexUpper⟩

/-- No blank is written. -/
theorem trim_hex (value : Word) : Text.trim (hex value.toNat) = hex value.toNat := by
  refine Text.trim_eq_self fun c hc => ?_
  rcases List.mem_cons.mp hc with rfl | hc
  · decide
  rcases List.mem_cons.mp hc with rfl | hc
  · decide
  · by_contra hb
    exact not_noDigit_of_mem_toDigits (by decide) (by decide) hc
      (noDigit_of_isBlank (by simpa using hb))

/-- **Words in hexadecimal digits are read back.** -/
theorem readWord_hex (value : Word) : readWord (hex value.toNat) = .ok value := by
  have hread : readUnsigned 16 limit64 (Nat.toDigits 16 value.toNat) = .ok value.toNat :=
    readUnsigned_toDigits (by decide) (by decide) value.isLt
  rw [readWord, trim_hex]
  simp [hex, radixAndDigits, hread, Except.map]

end Numeral

end HardwareCounters
