/-
# The number that digits denote

A reader of digits stops at the first character that is no digit and at the first digit that takes
the number past its limit.  A number never shrinks by another digit, so the second happens somewhere
exactly if the whole text denotes too large a number: the reader accepts the texts of digits that
denote a number below the limit.

* `digitsValue` is the number that digits denote;
* `exists_readDigits_iff` and `exists_readUnsigned_iff`: which texts are accepted.
-/
import HardwareCounters.Numeral

namespace HardwareCounters

namespace Numeral

/-! ## 1. Digits and what they denote -/

/-- The text holds nothing but digits of the radix. -/
def AllDigits (radix : Nat) (t : Text) : Prop := ∀ c ∈ t, digitValue? radix c ≠ none

instance (radix : Nat) (t : Text) : Decidable (AllDigits radix t) :=
  inferInstanceAs (Decidable (∀ c ∈ t, digitValue? radix c ≠ none))

/-- The number that digits denote behind the digits of `acc`. -/
def digitsValue (radix acc : Nat) (t : Text) : Nat :=
  t.foldl (fun n c => n * radix + (digitValue? radix c).getD 0) acc

variable {radix limit acc : Nat} {t : Text}

theorem digitsValue_cons {c : Char} {d : Nat} (h : digitValue? radix c = some d) (t : Text) :
    digitsValue radix acc (c :: t) = digitsValue radix (acc * radix + d) t := by
  rw [digitsValue, List.foldl_cons, h]
  rfl

/-- Where there is a digit the radix is not 0. -/
theorem radix_pos_of_digitValue? {c : Char} {d : Nat} (h : digitValue? radix c = some d) :
    0 < radix := by
  simp only [digitValue?, Option.ite_none_right_eq_some] at h
  omega

/-- Digits are ASCII characters. -/
theorem toNat_lt_of_digitValue? {c : Char} (h : digitValue? radix c ≠ none) : c.toNat < 128 := by
  refine Nat.lt_of_not_le fun hlarge => h ?_
  have hdecimal : ¬ (48 ≤ c.toNat ∧ c.toNat ≤ 57) := by omega
  have hsmall : ¬ (97 ≤ c.toNat ∧ c.toNat ≤ 122) := by omega
  have hcapital : ¬ (65 ≤ c.toNat ∧ c.toNat ≤ 90) := by omega
  simp [digitValue?, hdecimal, hsmall, hcapital]

/-- The digits of a radix are found among the ASCII characters. -/
theorem digitValue?_ne_none_iff {digits : Text}
    (h : ∀ n < 128, digitValue? radix (Char.ofNat n) ≠ none ↔ Char.ofNat n ∈ digits)
    (hascii : ∀ c ∈ digits, c.toNat < 128) {c : Char} :
    digitValue? radix c ≠ none ↔ c ∈ digits := by
  have hiff : c.toNat < 128 → (digitValue? radix c ≠ none ↔ c ∈ digits) := by
    intro hc
    have hchar := h c.toNat hc
    rwa [Char.ofNat_toNat] at hchar
  exact ⟨fun hdigit => (hiff (toNat_lt_of_digitValue? hdigit)).mp hdigit,
    fun hmem => (hiff (hascii c hmem)).mpr hmem⟩

/-- **A number does not shrink by more digits.** -/
theorem le_digitsValue (h : AllDigits radix t) : acc ≤ digitsValue radix acc t := by
  induction t generalizing acc with
  | nil => exact Nat.le_refl acc
  | cons c t ih =>
    obtain ⟨hc, ht⟩ := List.forall_mem_cons.mp h
    obtain ⟨d, hd⟩ := Option.ne_none_iff_exists'.mp hc
    have hgrow : acc ≤ acc * radix + d :=
      Nat.le_trans (Nat.le_mul_of_pos_right acc (radix_pos_of_digitValue? hd)) (Nat.le_add_right _ _)
    rw [digitsValue_cons hd]
    exact Nat.le_trans hgrow (ih ht)

/-! ## 2. What is accepted -/

/-- **Digits are accepted** if and only if they denote a number below the limit. -/
theorem exists_readDigits_iff (hacc : acc < limit) :
    (∃ n, readDigits radix limit acc t = .ok n) ↔
      AllDigits radix t ∧ digitsValue radix acc t < limit := by
  induction t generalizing acc with
  | nil => exact ⟨fun _ => ⟨fun _ h => (nomatch h), hacc⟩, fun _ => ⟨acc, rfl⟩⟩
  | cons c t ih =>
    rw [readDigits, AllDigits, List.forall_mem_cons]
    cases hc : digitValue? radix c with
    | none => simp
    | some d =>
      rw [digitsValue_cons hc]
      by_cases hlt : acc * radix + d < limit
      · simp only [hlt, if_true, ih hlt, ne_eq, reduceCtorEq, not_false_eq_true, true_and]
        exact Iff.rfl
      · simp only [hlt, if_false, reduceCtorEq, exists_false, false_iff, not_and, Nat.not_lt]
        intro hall
        exact Nat.le_trans (Nat.le_of_not_lt hlt) (le_digitsValue hall.2)

/-- Digits are read as the number that they denote, unless that is too large. -/
theorem readDigits_of_allDigits (hacc : acc < limit) (h : AllDigits radix t) :
    readDigits radix limit acc t =
      if digitsValue radix acc t < limit then .ok (digitsValue radix acc t)
      else .error .tooLarge := by
  induction t generalizing acc with
  | nil => exact (if_pos hacc).symm
  | cons c t ih =>
    obtain ⟨hc, ht⟩ := List.forall_mem_cons.mp h
    obtain ⟨d, hd⟩ := Option.ne_none_iff_exists'.mp hc
    rw [digitsValue_cons hd, readDigits, hd]
    by_cases hlt : acc * radix + d < limit
    · simp only [if_pos hlt]
      exact ih hlt ht
    · have hlarge : ¬ digitsValue radix (acc * radix + d) t < limit :=
        fun hsmall => hlt (Nat.lt_of_le_of_lt (le_digitsValue ht) hsmall)
      simp only [if_neg hlt, if_neg hlarge]

/-- A text that starts with no sign is read digit by digit. -/
theorem readUnsigned_eq_readDigits (hne : t ≠ []) (hplus : t.head? ≠ some '+') :
    readUnsigned radix limit t = readDigits radix limit 0 t := by
  rw [readUnsigned.eq_def]
  split
  · exact absurd rfl hne
  · exact absurd rfl hplus
  · exact absurd rfl hplus
  · rfl

/-- **Numbers without a sign are accepted** if and only if they are digits that denote a number below
the limit. -/
theorem exists_readUnsigned_iff (hlimit : 0 < limit) (hne : t ≠ []) (hplus : t.head? ≠ some '+') :
    (∃ n, readUnsigned radix limit t = .ok n) ↔
      AllDigits radix t ∧ digitsValue radix 0 t < limit := by
  rw [readUnsigned_eq_readDigits hne hplus, exists_readDigits_iff hlimit]

end Numeral

end HardwareCounters
