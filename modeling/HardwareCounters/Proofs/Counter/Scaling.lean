/-
# Scaling

A counter that shares the hardware with others counts for a part of the time only, and its value is
extrapolated in proportion.  The product of the value and the enabled time is taken in machine words,
so it may wrap before it is divided.  As long as it fits, scaling rounds the exact proportion down; once
it does not, what is lost is a multiple of 2^64, and no running time is long enough to hide it.

* `scaled?_eq`: nothing is divided by zero;
* `toNat_scaled_of_fits`: a product that fits gives the exact proportion, rounded down;
* `scaled_lt_proportion`: one that does not fit gives less;
* `scaled_extrapolates`: both together, with the bounds and the order that hold where it fits.
-/
import HardwareCounters.Counter.Basic
import Mathlib.Algebra.Ring.Nat

namespace HardwareCounters

namespace Count

/-! ## 1. Division where it is defined -/

/-- A quotient of words, unless the divisor is zero. -/
def quotient? (value divisor : Word) : Option Word :=
  if divisor = 0 then none else some (value / divisor)

/-- Scaling by a quotient that is defined. -/
def scaled? (count : Count) : Option Word :=
  if count.enabled = count.running ∨ count.running = 0 then some count.value
  else quotient? (count.value * count.enabled) count.running

/-- **Nothing is divided by zero.** -/
theorem scaled?_eq (count : Count) : count.scaled? = some count.scaled := by
  rw [scaled?, scaled]
  split
  · rfl
  · rename_i hshared
    rw [quotient?, if_neg (not_or.mp hshared).2]

/-! ## 2. Wrapped and exact proportions -/

/-- The exact proportion of the value to the whole time, rounded down. -/
def proportion (count : Count) : Nat :=
  count.value.toNat * count.enabled.toNat / count.running.toNat

/-- The product of the value and the enabled time is a word. -/
def Fits (count : Count) : Prop := count.value.toNat * count.enabled.toNat < 2 ^ 64

instance (count : Count) : Decidable count.Fits :=
  inferInstanceAs (Decidable (count.value.toNat * count.enabled.toNat < 2 ^ 64))

/-- The counter was on the hardware, and not just for the time in which it was enabled. -/
def Shared (count : Count) : Prop := count.enabled ≠ count.running ∧ count.running ≠ 0

variable {count other : Count}

theorem toNat_running_pos (h : count.running ≠ 0) : 0 < count.running.toNat :=
  Nat.pos_of_ne_zero fun hzero => h (BitVec.eq_of_toNat_eq hzero)

/-- What wraps loses more than any word can divide away. -/
theorem wrapped_div_lt {product divisor : Nat} (hwraps : 2 ^ 64 ≤ product) (hpos : 0 < divisor)
    (hword : divisor < 2 ^ 64) : product % 2 ^ 64 / divisor < product / divisor := by
  have hlost : product % 2 ^ 64 + divisor ≤ product := by
    have hdiv : 0 < product / 2 ^ 64 := Nat.div_pos hwraps (by decide)
    omega
  calc product % 2 ^ 64 / divisor < product % 2 ^ 64 / divisor + 1 := Nat.lt_succ_self _
    _ = (product % 2 ^ 64 + divisor) / divisor := (Nat.add_div_right _ hpos).symm
    _ ≤ product / divisor := Nat.div_le_div_right hlost

/-- A counter that did not share the hardware shows its value. -/
theorem scaled_of_not_shared (h : ¬ count.Shared) : count.scaled = count.value := by
  rw [Shared, ne_eq, ne_eq, ← not_or, not_not] at h
  rw [scaled, if_pos h]

/-- **What is computed.**  The product wraps, and the quotient is rounded down. -/
theorem toNat_scaled (h : count.Shared) :
    count.scaled.toNat =
      count.value.toNat * count.enabled.toNat % 2 ^ 64 / count.running.toNat := by
  rw [scaled, if_neg (not_or.mpr h), BitVec.toNat_udiv, BitVec.toNat_mul]

/-- Without sharing the value is its own proportion. -/
theorem proportion_of_enabled_eq (hrunning : count.running ≠ 0)
    (h : count.enabled = count.running) : count.proportion = count.value.toNat := by
  rw [proportion, h, Nat.mul_div_cancel _ (toNat_running_pos hrunning)]

/-- **A product that fits** gives the exact proportion. -/
theorem toNat_scaled_of_fits (hfits : count.Fits) (hrunning : count.running ≠ 0) :
    count.scaled.toNat = count.proportion := by
  by_cases h : count.enabled = count.running
  · rw [scaled_of_running_eq_enabled h, proportion_of_enabled_eq hrunning h]
  · rw [toNat_scaled ⟨h, hrunning⟩, Nat.mod_eq_of_lt hfits, proportion]

/-- **A product that wraps** gives less than the exact proportion. -/
theorem scaled_lt_proportion (hwraps : ¬ count.Fits) (h : count.Shared) :
    count.scaled.toNat < count.proportion := by
  rw [toNat_scaled h]
  exact wrapped_div_lt (Nat.le_of_not_lt hwraps) (toNat_running_pos h.2) count.running.isLt

/-! ## 3. Bounds and order of proportions -/

theorem le_proportion (hrunning : count.running ≠ 0) (h : count.running ≤ count.enabled) :
    count.value.toNat ≤ count.proportion := by
  rw [proportion, Nat.le_div_iff_mul_le (toNat_running_pos hrunning)]
  exact Nat.mul_le_mul_left _ h

theorem proportion_le (h : count.enabled ≤ count.running) :
    count.proportion ≤ count.value.toNat := by
  refine Nat.div_le_of_le_mul ?_
  rw [Nat.mul_comm]
  exact Nat.mul_le_mul_right _ h

/-- For one running time, proportions grow with the value and with the enabled time. -/
theorem proportion_mono (hrunning : count.running = other.running)
    (hvalue : count.value ≤ other.value) (henabled : count.enabled ≤ other.enabled) :
    count.proportion ≤ other.proportion := by
  rw [proportion, proportion, hrunning]
  exact Nat.div_le_div_right (Nat.mul_le_mul hvalue henabled)

/-- A reading below one whose product fits has a product that fits. -/
theorem Fits.of_le (hfits : other.Fits) (hvalue : count.value ≤ other.value)
    (henabled : count.enabled ≤ other.enabled) : count.Fits :=
  Nat.lt_of_le_of_lt (Nat.mul_le_mul hvalue henabled) hfits

/-- **Scaling.**  Nothing is divided by zero.  A counter that did not share the hardware, or was never
on it, shows its value; any other the wrapped product of its value and enabled time, divided by the
running time and rounded down.  If the counter was on the hardware and the product fits into a word,
this is the exact proportion, rounded down: it is not below the value if the counter ran for no more
than the enabled time and not above it if for no less, and of two such readings with the same running
time the one with the larger value and enabled time shows no less.  If the product does not fit, a
counter that shared the hardware shows less than the exact proportion. -/
theorem scaled_extrapolates (count : Count) :
    count.scaled? = some count.scaled ∧
    (count.running = 0 ∨ count.enabled = count.running → count.scaled = count.value) ∧
    (count.running ≠ 0 → count.enabled ≠ count.running →
      count.scaled.toNat =
        count.value.toNat * count.enabled.toNat % 2 ^ 64 / count.running.toNat) ∧
    (count.value.toNat * count.enabled.toNat < 2 ^ 64 → count.running ≠ 0 →
      count.scaled.toNat = count.value.toNat * count.enabled.toNat / count.running.toNat ∧
      (count.running ≤ count.enabled → count.value ≤ count.scaled) ∧
      (count.enabled ≤ count.running → count.scaled ≤ count.value) ∧
      ∀ smaller : Count, smaller.running = count.running → smaller.value ≤ count.value →
        smaller.enabled ≤ count.enabled → smaller.scaled ≤ count.scaled) ∧
    (2 ^ 64 ≤ count.value.toNat * count.enabled.toNat → count.running ≠ 0 →
      count.enabled ≠ count.running →
      count.scaled.toNat < count.value.toNat * count.enabled.toNat / count.running.toNat) := by
  refine ⟨scaled?_eq count, ?_, fun hrunning hshared => toNat_scaled ⟨hshared, hrunning⟩, ?_, ?_⟩
  · intro h
    exact scaled_of_not_shared fun hshared => h.elim hshared.2 hshared.1
  · intro hfits hrunning
    have hexact := toNat_scaled_of_fits hfits hrunning
    refine ⟨hexact, fun hle => ?_, fun hle => ?_, fun smaller hsame hvalue henabled => ?_⟩
    · rw [BitVec.le_def, hexact]
      exact le_proportion hrunning hle
    · rw [BitVec.le_def, hexact]
      exact proportion_le hle
    · rw [BitVec.le_def, hexact, toNat_scaled_of_fits (Fits.of_le hfits hvalue henabled)
        (hsame.symm ▸ hrunning)]
      exact proportion_mono hsame hvalue henabled
  · intro hwraps hrunning hshared
    exact scaled_lt_proportion (Nat.not_lt.mpr hwraps) ⟨hshared, hrunning⟩

end Count

namespace Example

/-- A counter that was on the hardware for two thirds of the time. -/
def sharedReading : Count := { value := 10, enabled := 3, running := 2 }

/-- A value of which the double is no word any more. -/
def wrappingReading : Count := { value := 0x8000000000000001, enabled := 2, running := 1 }

end Example

open Example in
theorem Count.scaled_extrapolates_wrapping :
    (sharedReading.Fits ∧ sharedReading.running ≠ 0 ∧ sharedReading.scaled.toNat = 15 ∧
      sharedReading.value ≤ sharedReading.scaled ∧
      ({ sharedReading with enabled := 2 } : Count).scaled ≤ sharedReading.scaled) ∧
    wrappingReading.scaled = 2 ∧
    wrappingReading.scaled.toNat < 0x10000000000000002 := by
  obtain ⟨-, -, -, hfits, -⟩ := scaled_extrapolates sharedReading
  obtain ⟨-, -, -, -, hwraps⟩ := scaled_extrapolates wrappingReading
  obtain ⟨hexact, hle, -, hmono⟩ := hfits (by decide) (by decide)
  exact ⟨⟨by decide, by decide, hexact, hle (by decide),
    hmono _ rfl (by decide) (by decide)⟩, by decide, hwraps (by decide) (by decide) (by decide)⟩

end HardwareCounters
