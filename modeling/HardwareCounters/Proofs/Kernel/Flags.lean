/-
# The bits of the flags

The flags and the two bits of the precision share one word, and each of them is set or cleared by a
write that leaves the rest of the word alone.  So a bit of the word is as the last write that covers
it has left it, and what a write has left can be read back as long as no other write covers it.

* `getLsbD_setFlag` and `getLsbD_setPrecise` say what one write does to each bit, and
  `getLsbD_applyWrites` what writes one after another do;
* `hasFlag_iff` and `getLsbD_precise` say which bits are read.
-/
import HardwareCounters.Kernel.Attribute

namespace HardwareCounters

namespace KernelAttribute

variable (attr : KernelAttribute)

/-! ## 1. One write -/

/-- The two lowest bits are those of 3. -/
theorem getLsbD_three (i : Nat) : (3#64).getLsbD i = decide (i < 2) := by
  have hones : 3#64 = (BitVec.allOnes 2).setWidth 64 := rfl
  rw [hones, BitVec.getLsbD_setWidth, BitVec.getLsbD_allOnes]
  by_cases h : i < 2
  · simp [h, Nat.lt_trans h (by decide : 2 < 64)]
  · simp [h]

/-- Setting a flag writes the bits of its mask. -/
theorem getLsbD_setFlag (mask : Word) (on : Bool) (i : Nat) :
    (attr.setFlag mask on).flags.getLsbD i =
      if mask.getLsbD i then on else attr.flags.getLsbD i := by
  cases on with
  | true => cases hbit : mask.getLsbD i <;> simp [setFlag, hbit]
  | false =>
    cases hbit : mask.getLsbD i with
    | true => simp [setFlag, hbit]
    | false =>
      have hlt : attr.flags.getLsbD i = true → i < 64 := BitVec.lt_of_getLsbD
      simpa [setFlag, hbit] using hlt

/-- Setting the precision writes bits 15 and 16. -/
theorem getLsbD_setPrecise (level : BitVec 8) (i : Nat) :
    (attr.setPrecise level).flags.getLsbD i =
      if i = 15 then level.getLsbD 0 else if i = 16 then level.getLsbD 1
      else attr.flags.getLsbD i := by
  simp only [setPrecise, preciseShift, BitVec.getLsbD_or, BitVec.getLsbD_and, BitVec.getLsbD_not,
    BitVec.getLsbD_shiftLeft, BitVec.ofNat_eq_ofNat, getLsbD_three]
  by_cases hlow : i = 15
  · subst hlow
    simp
  by_cases hhigh : i = 16
  · subst hhigh
    simp
  · have hlt : attr.flags.getLsbD i = true → i < 64 := BitVec.lt_of_getLsbD
    have hout : i < 15 ∨ ¬ i - 15 < 2 := by omega
    rcases hout with hout | hout <;> simpa [hlow, hhigh, hout] using hlt

/-! ## 2. Writes one after another -/

inductive FlagWrite where
  | flag (mask : Word) (on : Bool)
  | precise (level : BitVec 8)

def applyWrite : FlagWrite → KernelAttribute
  | .flag mask on => attr.setFlag mask on
  | .precise level => attr.setPrecise level

def applyWrites (writes : List FlagWrite) : KernelAttribute := writes.foldl applyWrite attr

/-- What a write leaves in a bit, if it covers it. -/
def FlagWrite.bit? (i : Nat) : FlagWrite → Option Bool
  | .flag mask on => if mask.getLsbD i then some on else none
  | .precise level =>
    if i = 15 then some (level.getLsbD 0) else if i = 16 then some (level.getLsbD 1) else none

theorem getLsbD_applyWrite (write : FlagWrite) (i : Nat) :
    (attr.applyWrite write).flags.getLsbD i = (write.bit? i).getD (attr.flags.getLsbD i) := by
  cases write with
  | flag mask on =>
    rw [applyWrite, getLsbD_setFlag, FlagWrite.bit?]
    split <;> rfl
  | precise level =>
    rw [applyWrite, getLsbD_setPrecise, FlagWrite.bit?]
    split
    · rfl
    · split <;> rfl

/-- **The last write that covers a bit** decides it. -/
theorem getLsbD_applyWrites (writes : List FlagWrite) (i : Nat) :
    (attr.applyWrites writes).flags.getLsbD i =
      (writes.reverse.findSome? (FlagWrite.bit? i)).getD (attr.flags.getLsbD i) := by
  induction writes generalizing attr with
  | nil => rfl
  | cons write writes ih =>
    have hstep : attr.applyWrites (write :: writes) = (attr.applyWrite write).applyWrites writes :=
      rfl
    rw [hstep, ih, getLsbD_applyWrite, List.reverse_cons, List.findSome?_append,
      List.findSome?_singleton]
    cases writes.reverse.findSome? (FlagWrite.bit? i) <;> rfl

/-- Writes change the flags alone. -/
theorem applyWrites_eq (writes : List FlagWrite) :
    attr.applyWrites writes = { attr with flags := (attr.applyWrites writes).flags } := by
  induction writes generalizing attr with
  | nil => rfl
  | cons write writes ih =>
    have hstep : attr.applyWrites (write :: writes) = (attr.applyWrite write).applyWrites writes :=
      rfl
    have hwrite : attr.applyWrite write = { attr with flags := (attr.applyWrite write).flags } := by
      cases write <;> rfl
    rw [hstep, ih, hwrite]

/-! ## 3. Reading -/

/-- A mask is seen in the flags if they share a bit. -/
theorem hasFlag_iff (mask : Word) :
    attr.hasFlag mask = true ↔ ∃ i, mask.getLsbD i = true ∧ attr.flags.getLsbD i = true := by
  have hzero : attr.flags &&& mask = 0#64 ↔ ∀ i, (attr.flags &&& mask).getLsbD i = false := by
    constructor
    · intro h i
      rw [h, BitVec.getLsbD_zero]
    · intro h
      exact BitVec.eq_of_getLsbD_eq fun i _ => by rw [h, BitVec.getLsbD_zero]
  rw [hasFlag, bne_iff_ne, ne_eq, BitVec.ofNat_eq_ofNat, hzero, Classical.not_forall]
  refine exists_congr fun i => ?_
  rw [BitVec.getLsbD_and, Bool.not_eq_false, Bool.and_eq_true, and_comm]

/-- A mask of one bit is seen if the bit is set. -/
theorem hasFlag_twoPow {k : Nat} (hk : k < 64) :
    attr.hasFlag (BitVec.twoPow 64 k) = attr.flags.getLsbD k := by
  rw [Bool.eq_iff_iff, hasFlag_iff]
  simp [hk]

/-- The precision is read from bits 15 and 16. -/
theorem getLsbD_precise (i : Nat) :
    attr.precise.getLsbD i =
      if i = 0 then attr.flags.getLsbD 15 else if i = 1 then attr.flags.getLsbD 16 else false := by
  rw [precise, BitVec.getLsbD_setWidth, BitVec.getLsbD_and, BitVec.ofNat_eq_ofNat, getLsbD_three,
    BitVec.getLsbD_ushiftRight, preciseShift]
  by_cases hlow : i = 0
  · subst hlow
    simp
  by_cases hhigh : i = 1
  · subst hhigh
    simp
  · have hout : ¬ i < 2 := by omega
    simp [hlow, hhigh, hout]

end KernelAttribute

end HardwareCounters
