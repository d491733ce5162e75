/-
# The history of the flags

The flags and the precision are written one after another into one word, with masks that may share
bits with each other and with the precision.  What such a history leaves is said bit by bit: the last
write that covers a bit decides it, and a bit that no write covers stays 0.  So two histories that
cover no bit in common may come in either order.

* `FlagWrite.Covers` and `FlagWrite.written`: which bits a write covers, and what it puts there;
* `Leaves`: what a history leaves in a bit, and `leaves_iff` that this is the bit of the flags;
* `toNat_precise`: the precision is the number in bits 15 and 16;
* `applyWrites_append_comm`: histories that cover no bit in common commute;
* `flags_as_last_written`: all of it.
-/
import HardwareCounters.Proofs.Kernel.Flags
import Mathlib.Data.Nat.Bitwise

namespace HardwareCounters

namespace KernelAttribute

/-! ## 1. What a write covers -/

/-- The write covers the bit: a flag covers the bits of its mask, and the precision bits 15 and 16. -/
def FlagWrite.Covers (i : Nat) : FlagWrite → Prop
  | .flag mask _ => mask.getLsbD i = true
  | .precise _ => i = 15 ∨ i = 16

/-- What the write puts into a bit that it covers.  A precision is taken modulo 4 and stands from
bit 15 on. -/
def FlagWrite.written (i : Nat) : FlagWrite → Bool
  | .flag _ on => on
  | .precise level => (level.toNat % 4).testBit (i - 15)

instance (i : Nat) (write : FlagWrite) : Decidable (write.Covers i) :=
  match write with
  | .flag mask _ => inferInstanceAs (Decidable (mask.getLsbD i = true))
  | .precise _ => inferInstanceAs (Decidable (i = 15 ∨ i = 16))

/-- No bit is covered both by a write of the first list and by one of the second. -/
def Apart (first second : List FlagWrite) : Prop :=
  ∀ write ∈ first, ∀ other ∈ second, ∀ i, write.Covers i → ¬ other.Covers i

/-- What a history leaves in a bit that was 0: what its last write that covers the bit puts there. -/
inductive Leaves (i : Nat) : List FlagWrite → Bool → Prop
  | untouched {writes : List FlagWrite} (h : ∀ write ∈ writes, ¬ write.Covers i) :
      Leaves i writes false
  | last {before after : List FlagWrite} {write : FlagWrite} (h : write.Covers i)
      (hafter : ∀ later ∈ after, ¬ later.Covers i) :
      Leaves i (before ++ write :: after) (write.written i)

/-! ## 2. What is left -/

section History

variable {i : Nat} {write : FlagWrite} {writes first second : List FlagWrite} {value : Bool}

/-- The two lowest bits of a number are those of its remainder. -/
theorem testBit_mod_four (n : Nat) {k : Nat} (hk : k < 2) : (n % 4).testBit k = n.testBit k := by
  rw [show 4 = 2 ^ 2 from rfl, Nat.testBit_mod_two_pow]
  simp [hk]

theorem FlagWrite.bit?_eq (i : Nat) (write : FlagWrite) :
    write.bit? i = if write.Covers i then some (write.written i) else none := by
  cases write with
  | flag mask on => rfl
  | precise level =>
    by_cases hlow : i = 15
    · subst hlow
      simp [bit?, Covers, written, BitVec.getLsbD]
    by_cases hhigh : i = 16
    · subst hhigh
      simp [bit?, Covers, written, BitVec.getLsbD, testBit_mod_four]
    · simp [bit?, Covers, hlow, hhigh]

theorem FlagWrite.bit?_eq_none_iff : write.bit? i = none ↔ ¬ write.Covers i := by
  simp [bit?_eq]

theorem FlagWrite.bit?_eq_some_iff :
    write.bit? i = some value ↔ write.Covers i ∧ write.written i = value := by
  simp [bit?_eq]

/-- Nothing is found in a history that does not cover the bit. -/
theorem findSome?_bit?_eq_none_iff :
    writes.reverse.findSome? (FlagWrite.bit? i) = none ↔ ∀ write ∈ writes, ¬ write.Covers i := by
  simp only [List.findSome?_eq_none_iff, List.mem_reverse, FlagWrite.bit?_eq_none_iff]

/-- **What a history leaves** is what is found in it from its end on. -/
theorem leaves_iff_findSome? :
    Leaves i writes value ↔
      (writes.reverse.findSome? (FlagWrite.bit? i)).getD false = value := by
  constructor
  · intro h
    cases h with
    | untouched h => rw [findSome?_bit?_eq_none_iff.mpr h, Option.getD_none]
    | @last before after write h hafter =>
      have hbit : write.bit? i = some (write.written i) := FlagWrite.bit?_eq_some_iff.mpr ⟨h, rfl⟩
      rw [List.reverse_append, List.reverse_cons, List.append_assoc, List.findSome?_append,
        findSome?_bit?_eq_none_iff.mpr hafter, Option.none_or, List.singleton_append,
        List.findSome?_cons_of_isSome, hbit, Option.getD_some]
      rw [hbit, Option.isSome_some]
  · rintro rfl
    cases hfound : writes.reverse.findSome? (FlagWrite.bit? i) with
    | none => exact .untouched (findSome?_bit?_eq_none_iff.mp hfound)
    | some found =>
      obtain ⟨after, write, before, hsplit, hwrite, hafter⟩ :=
        List.findSome?_eq_some_iff.mp hfound
      obtain ⟨hcovers, rfl⟩ := FlagWrite.bit?_eq_some_iff.mp hwrite
      have hwrites : writes = before.reverse ++ write :: after.reverse := by
        rw [← List.reverse_reverse writes, hsplit]
        simp
      rw [hwrites]
      refine .last hcovers fun later hlater => ?_
      exact FlagWrite.bit?_eq_none_iff.mp (hafter later (List.mem_reverse.mp hlater))

/-- **The bits of the flags** are what the history leaves in them. -/
theorem leaves_iff :
    Leaves i writes value ↔
      (({} : KernelAttribute).applyWrites writes).flags.getLsbD i = value := by
  have hzero : ({} : KernelAttribute).flags.getLsbD i = false := BitVec.getLsbD_zero
  rw [getLsbD_applyWrites, hzero, leaves_iff_findSome?]

/-! ## 3. Order -/

/-- Attributes that differ by writes are told apart by a bit of their flags. -/
theorem applyWrites_ext {attr : KernelAttribute}
    (h : ∀ i, (attr.applyWrites first).flags.getLsbD i = (attr.applyWrites second).flags.getLsbD i) :
    attr.applyWrites first = attr.applyWrites second := by
  rw [applyWrites_eq attr first, applyWrites_eq attr second, BitVec.eq_of_getLsbD_eq fun i _ => h i]

/-- **Histories that cover no bit in common** may come in either order. -/
theorem applyWrites_append_comm (attr : KernelAttribute) (h : Apart first second) :
    attr.applyWrites (first ++ second) = attr.applyWrites (second ++ first) := by
  refine applyWrites_ext fun i => ?_
  simp only [getLsbD_applyWrites, List.reverse_append, List.findSome?_append]
  -- One of the two leaves the bit alone, so it does not matter which is asked first.
  by_cases hfirst : ∀ write ∈ first, ¬ write.Covers i
  · rw [findSome?_bit?_eq_none_iff.mpr hfirst, Option.or_none, Option.none_or]
  · obtain ⟨write, hwrite, hcovers⟩ : ∃ write ∈ first, write.Covers i := by
      simpa using hfirst
    have hsecond : ∀ other ∈ second, ¬ other.Covers i :=
      fun other hother => h write hwrite other hother i hcovers
    rw [findSome?_bit?_eq_none_iff.mpr hsecond, Option.or_none, Option.none_or]

end History

/-! ## 4. The precision -/

/-- **The precision** is the number in bits 15 and 16. -/
theorem toNat_precise (attr : KernelAttribute) :
    attr.precise.toNat =
      (attr.flags.getLsbD 15).toNat + 2 * (attr.flags.getLsbD 16).toNat := by
  have hlow : ∀ n : Nat, n &&& 3 = n % 4 := fun n => Nat.and_two_pow_sub_one_eq_mod n 2
  have hbits : attr.precise.toNat = attr.flags.toNat / 2 ^ 15 % 4 := by
    rw [precise, BitVec.toNat_setWidth, BitVec.toNat_and, BitVec.toNat_ushiftRight, preciseShift,
      Nat.shiftRight_eq_div_pow, show (3 : Word).toNat = 3 from rfl, hlow]
    omega
  rw [hbits, BitVec.getLsbD, BitVec.getLsbD, Nat.toNat_testBit, Nat.toNat_testBit]
  omega

/-- **The last write decides.**  Take any writes to the flags of an empty attribute, with any masks and
any precisions.  Each bit is as the last write that covers it puts it, and 0 if none does.  A mask is
seen in flags exactly if one of its bits is set, and the precision is the number in bits 15 and 16.
Writes that cover no bit in common may come in either order, whatever was there before. -/
theorem flags_as_last_written :
    (∀ (writes : List FlagWrite) (i : Nat) (value : Bool),
      (({} : KernelAttribute).applyWrites writes).flags.getLsbD i = value ↔
        Leaves i writes value) ∧
    (∀ (attr : KernelAttribute) (mask : Word), attr.hasFlag mask = true ↔
      ∃ i, mask.getLsbD i = true ∧ attr.flags.getLsbD i = true) ∧
    (∀ attr : KernelAttribute, attr.precise.toNat =
      (attr.flags.getLsbD 15).toNat + 2 * (attr.flags.getLsbD 16).toNat) ∧
    ∀ (attr : KernelAttribute) (first second : List FlagWrite), Apart first second →
      attr.applyWrites (first ++ second) = attr.applyWrites (second ++ first) :=
  ⟨fun _ _ _ => leaves_iff.symm, hasFlag_iff, toNat_precise,
    fun attr _ _ => applyWrites_append_comm attr⟩

end KernelAttribute

namespace Example

/-- A mask that shares bit 15 with the precision, a precision above 3, and a mask that clears bit 16. -/
def overlappingWrites : List KernelAttribute.FlagWrite :=
  [.flag 0x8001 true, .precise 0xFE, .flag 0x10000 false]

/-- A flag on its own. -/
def guestWrites : List KernelAttribute.FlagWrite := [.flag KernelAttribute.excludeGuestFlag true]

end Example

open Example in
theorem KernelAttribute.flags_as_last_written_overlapping :
    (Leaves 0 overlappingWrites true ∧ Leaves 15 overlappingWrites false ∧
      Leaves 16 overlappingWrites false) ∧
    Apart overlappingWrites guestWrites ∧
    ({} : KernelAttribute).applyWrites (overlappingWrites ++ guestWrites) =
      ({} : KernelAttribute).applyWrites (guestWrites ++ overlappingWrites) := by
  have hbits : (({} : KernelAttribute).applyWrites overlappingWrites).flags = 1 := by decide
  have hapart : Apart overlappingWrites guestWrites := by
    intro write hwrite other hother i hcovers hguest
    obtain rfl := List.mem_singleton.mp hother
    have hlt : i < 64 := BitVec.lt_of_getLsbD hguest
    have hall : ∀ i < 64, excludeGuestFlag.getLsbD i = true →
        ∀ write ∈ overlappingWrites, ¬ write.Covers i := by
      decide
    exact hall i hlt hguest write hwrite hcovers
  obtain ⟨hleaves, -, -, hcomm⟩ := flags_as_last_written
  refine ⟨⟨?_, ?_, ?_⟩, hapart, hcomm {} _ _ hapart⟩
  · exact (hleaves overlappingWrites 0 true).mp (by rw [hbits]; decide)
  · exact (hleaves overlappingWrites 15 false).mp (by rw [hbits]; decide)
  · exact (hleaves overlappingWrites 16 false).mp (by rw [hbits]; decide)

end HardwareCounters
