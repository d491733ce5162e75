/-
# Packing by shifts and masks

Packing goes from range to range: a mask cuts off the bits for the range, a shift takes them to their
place, and another shift brings down what is left of the value.  How often what is left is shifted
down depends on all ranges before, which may overlap and may cover more bits than a word has.  Said
of one bit of the result, the loop amounts to a single choice of a range and of a bit of the value.

Shifts of a machine word are only defined for amounts below its width, and a shift to the left may
lose bits at the top.  The loop is therefore also run with shifts that give nothing in these cases.

* `Bitfield.positions_getElem?_iff`: which bit of a value belongs to a bit of a range;
* `Bitfield.packRanges?_eq`: packing shifts by defined amounts and loses no bit;
* `Bitfield.pack_bit_by_bit` is the law of packing for one bit, and what follows from it.
-/
import HardwareCounters.Proofs.Bitfield.Packing

namespace HardwareCounters

namespace Bitfield

/-! ## 1. Which bit goes where -/

@[simp] theorem totalWidth_nil : totalWidth [] = 0 := rfl

@[simp] theorem totalWidth_cons (range : BitRange) (ranges : List BitRange) :
    totalWidth (range :: ranges) = range.width + totalWidth ranges := rfl

/-- The bit number `j` of the value belongs to the bit `i` of the word if some range has the bit `i`
and the bits in front of it, in this range and in those before, are `j`. -/
theorem positions_getElem?_iff {ranges : List BitRange} {i j : Nat} :
    (positions ranges)[j]? = some i ↔
      ∃ front range back, ranges = front ++ range :: back ∧ range.lo ≤ i ∧ i ≤ range.hi ∧
        j = totalWidth front + (i - range.lo) := by
  induction ranges generalizing j with
  | nil => simp [positions]
  | cons first ranges ih =>
    have hbounds := first.lo_le_hi
    rw [positions_cons_getElem?]
    constructor
    · rintro (⟨hlt, rfl⟩ | ⟨k, rfl, hk⟩)
      · rw [BitRange.width] at hlt
        refine ⟨[], first, ranges, rfl, by omega, by omega, ?_⟩
        rw [totalWidth_nil]
        omega
      · obtain ⟨front, range, back, rfl, hlo, hhi, rfl⟩ := ih.mp hk
        refine ⟨first :: front, range, back, rfl, hlo, hhi, ?_⟩
        rw [totalWidth_cons, Nat.add_assoc]
    · rintro ⟨front, range, back, hsplit, hlo, hhi, rfl⟩
      cases front with
      | nil =>
        obtain ⟨rfl, rfl⟩ := List.cons.inj hsplit
        rw [totalWidth_nil, BitRange.width]
        exact Or.inl ⟨by omega, by omega⟩
      | cons other front =>
        obtain ⟨rfl, rfl⟩ := List.cons.inj hsplit
        refine Or.inr ⟨totalWidth front + (i - range.lo), ?_, ?_⟩
        · rw [totalWidth_cons, Nat.add_assoc]
        · exact ih.mpr ⟨front, range, back, rfl, hlo, hhi, rfl⟩

/-! ## 2. Shifts that are defined -/

/-- A shift to the left by less than the width of a word, if shifting back gives the value again, so
that no bit was lost. -/
def shiftLeft? (value : Word) (n : Nat) : Option Word :=
  if n < 64 ∧ (value <<< n) >>> n = value then some (value <<< n) else none

/-- A shift to the right by less than the width of a word. -/
def shiftRight? (value : Word) (n : Nat) : Option Word :=
  if n < 64 then some (value >>> n) else none

/-- The word in which the lowest `n` bits are set: all bits, or one less than a shifted 1. -/
def lowBits? (n : Nat) : Option Word :=
  if 64 ≤ n then some (BitVec.allOnes 64) else (shiftLeft? 1 n).map fun power => power - 1

/-- The value without its lowest `n` bits: nothing, or the value shifted down. -/
def withoutLowBits? (value : Word) (n : Nat) : Option Word :=
  if 64 ≤ n then some 0 else shiftRight? value n

/-- Packing by shifts that are all defined. -/
def packRanges? : List BitRange → Word → Word → Option Word
  | [], _, target => some target
  | range :: ranges, value, target => do
    let mask ← lowBits? range.width
    let part ← shiftLeft? (value &&& mask) range.lo
    let rest ← withoutLowBits? value range.width
    packRanges? ranges rest (target ||| part)

/-- A value that leaves room for the shift loses nothing. -/
theorem shiftLeft?_eq {value : Word} {n width : Nat} (hn : n < 64) (hroom : n + width ≤ 64)
    (hvalue : ∀ i, value.getLsbD i = true → i < width) :
    shiftLeft? value n = some (value <<< n) := by
  have hback : (value <<< n) >>> n = value := by
    refine BitVec.eq_of_getLsbD_eq fun i hi => ?_
    rw [BitVec.getLsbD_ushiftRight, BitVec.getLsbD_shiftLeft, Nat.add_sub_cancel_left]
    cases hbit : value.getLsbD i with
    | false => simp
    | true =>
      have := hvalue i hbit
      simp only [Bool.and_true, Bool.and_eq_true, decide_eq_true_eq, Bool.not_eq_true',
        decide_eq_false_iff_not]
      omega
  rw [shiftLeft?, if_pos ⟨hn, hback⟩]

theorem lowBits?_eq (n : Nat) : lowBits? n = some (lowBits n) := by
  rw [lowBits?]
  split
  · rename_i hge
    refine congrArg some (BitVec.eq_of_getLsbD_eq fun i hi => ?_)
    have hn : i < n := by omega
    rw [getLsbD_lowBits, BitVec.getLsbD_allOnes, decide_eq_true hi, decide_eq_true hn, Bool.and_true]
  · rename_i hlt
    have hone : ∀ i, (1 : Word).getLsbD i = true → i < 1 := by
      intro i hi
      simpa [BitVec.getLsbD_one] using hi
    rw [shiftLeft?_eq (by omega) (by omega) hone, Option.map_some]
    refine congrArg some (BitVec.eq_of_toNat_eq ?_)
    have hpow : 2 ^ n < 2 ^ 64 := Nat.pow_lt_pow_right (by decide) (by omega)
    have hpos : 0 < 2 ^ n := Nat.two_pow_pos n
    have hnat : (1 : Word).toNat = 1 := rfl
    simp only [lowBits, BitVec.toNat_sub, BitVec.toNat_shiftLeft, BitVec.toNat_setWidth,
      BitVec.toNat_allOnes, Nat.shiftLeft_eq, hnat, Nat.one_mul]
    omega

theorem withoutLowBits?_eq (value : Word) (n : Nat) :
    withoutLowBits? value n = some (value >>> n) := by
  rw [withoutLowBits?]
  split
  · rename_i hge
    rw [BitVec.ushiftRight_eq_zero hge]
    rfl
  · rename_i hlt
    rw [shiftRight?, if_pos (by omega)]

/-- **Every shift is defined.**  Whatever the ranges and the value, packing never shifts by the width
of a word or more, and the bits that it moves into a range are all still there. -/
theorem packRanges?_eq (ranges : List BitRange) (value target : Word) :
    packRanges? ranges value target = some (packRanges ranges value target) := by
  induction ranges generalizing value target with
  | nil => rfl
  | cons range ranges ih =>
    have hmasked : ∀ i, (value &&& lowBits range.width).getLsbD i = true → i < range.width := by
      intro i hi
      rw [BitVec.getLsbD_and, getLsbD_lowBits] at hi
      simp only [Bool.and_eq_true, decide_eq_true_eq] at hi
      exact hi.2.2
    rw [packRanges?, packRanges, lowBits?_eq, withoutLowBits?_eq, Option.bind_eq_bind,
      Option.bind_some, shiftLeft?_eq range.lo_lt range.lo_add_width_le hmasked]
    exact ih _ _

/-! ## 3. The law of packing -/

/-- **Packing, bit by bit.**  After packing, a bit of the word of a field is set if it was set before
or if some range of the field has it and the bit of the value is set that comes after as many as the
ranges in front of it and the bits below it in this range; the value has no bits from 64 on.  The
other words and the rest of the attribute stay as they are.  So a field whose bits are clear, and
whose ranges are disjoint, reads the value cut to its width; and all shifts are defined, with none of
the shifted bits lost. -/
theorem pack_bit_by_bit (field : Bitfield) (value : Word) (attr : Attribute) :
    (∀ i, (field.pack value attr).bit (field.word, i) = true ↔
      attr.bit (field.word, i) = true ∨
        ∃ front range back, field.ranges = front ++ range :: back ∧
          range.lo ≤ i ∧ i ≤ range.hi ∧
          value.getLsbD (totalWidth front + (i - range.lo)) = true) ∧
    (∀ which, which ≠ field.word → (field.pack value attr).word which = attr.word which) ∧
    (field.pack value attr).withoutWords = attr.withoutWords ∧
    ((field.ranges.Pairwise fun a b => a.bits.Disjoint b.bits) →
      (∀ place ∈ field.bits, attr.bit place = false) →
      field.readBack (field.pack value attr) = value.toNat % 2 ^ field.width) ∧
    packRanges? field.ranges value (attr.word field.word) =
      some ((field.pack value attr).word field.word) := by
  refine ⟨fun i => ?_, fun which hwhich => ?_, field.withoutWords_pack value attr,
    fun hdisjoint hclear => ?_, ?_⟩
  · rw [bit_pack]
    refine or_congr_right ?_
    simp only [bits_getElem?, true_and, positions_getElem?_iff]
    constructor
    · rintro ⟨j, ⟨front, range, back, hsplit, hlo, hhi, rfl⟩, hvalue⟩
      exact ⟨front, range, back, hsplit, hlo, hhi, hvalue⟩
    · rintro ⟨front, range, back, hsplit, hlo, hhi, hvalue⟩
      exact ⟨_, ⟨front, range, back, hsplit, hlo, hhi, rfl⟩, hvalue⟩
  · rw [word_pack, if_neg hwhich]
  · have hmem : (field, value) ∈ [(field, value)] := List.mem_singleton_self _
    exact readBack_packAll (List.pairwise_singleton _ _) hmem (nodup_bits hdisjoint) hclear
  · rw [packRanges?_eq, word_pack, if_pos rfl]

end Bitfield

namespace Example

/-- A field of twelve bits, with other bits of its word between them. -/
def splitField : Bitfield :=
  ⟨.config, [⟨3, 10, by decide, by decide⟩, ⟨40, 43, by decide, by decide⟩]⟩

/-- An attribute with bits set between those of the field. -/
def surroundedAttribute : Attribute := { config := 0xF800 }

end Example

open Example in
theorem Bitfield.pack_bit_by_bit_splitField :
    Bitfield.parse "config:3-10,43-40".toList = .ok splitField ∧
    (splitField.ranges.Pairwise fun a b => a.bits.Disjoint b.bits) ∧
    (∀ place ∈ splitField.bits, surroundedAttribute.bit place = false) ∧
    splitField.readBack (splitField.pack 0x51C0 surroundedAttribute) = 0x1C0 := by
  have hdisjoint : splitField.ranges.Pairwise fun a b => a.bits.Disjoint b.bits := by decide
  have hclear : ∀ place ∈ splitField.bits, surroundedAttribute.bit place = false := by decide
  obtain ⟨-, -, -, hread, -⟩ := pack_bit_by_bit splitField 0x51C0 surroundedAttribute
  exact ⟨rfl, hdisjoint, hclear, hread hdisjoint hclear⟩

end HardwareCounters
