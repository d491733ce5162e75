/-
# Packing, bit by bit

A field names bits of a configuration word, one after another as its ranges are written.  Packing a
value sets the named bits that belong to set bits of the value, and touches nothing else.  From that
one law follows what is read back from the fields of an attribute.

* `Bitfield.bit_pack` is the law for one field and `bit_packAll` for several;
* `readBack_packAll`: fields without common bits give their values back, cut to their widths;
* `withoutWords_packAll`: packing changes nothing but the configuration words;
* `Bitfield.pack_eq_of_bits_eq`: two fields with the same bits are packed alike.
-/
import HardwareCounters.Bitfield
import Mathlib.Algebra.Ring.Nat
import Mathlib.Data.List.Nodup

namespace HardwareCounters

/-! ## 1. The bits of a field -/

instance instDecidableDisjoint {α : Type} [DecidableEq α] (l m : List α) :
    Decidable (l.Disjoint m) :=
  decidable_of_iff (∀ a ∈ l, a ∉ m) List.disjoint_left.symm

/-- A bit of an attribute: a configuration word and the number of the bit in it. -/
abbrev WordBit := ConfigWord × Nat

/-- A bit of the attribute. -/
def Attribute.bit (attr : Attribute) (place : WordBit) : Bool := (attr.word place.1).getLsbD place.2

/-- The numbers of the bits of a range, from the lowest. -/
def BitRange.bits (range : BitRange) : List Nat := List.range' range.lo range.width

namespace Bitfield

/-- The numbers of the bits that ranges name, in the order in which they are written. -/
def positions (ranges : List BitRange) : List Nat := ranges.flatMap BitRange.bits

/-- The bits of a field, in the order in which they take the bits of a value. -/
def bits (field : Bitfield) : List WordBit := (positions field.ranges).map fun i => (field.word, i)

theorem length_bits (field : Bitfield) : field.bits.length = field.width := by
  rw [bits, List.length_map, width]
  induction field.ranges with
  | nil => rfl
  | cons range ranges ih =>
    rw [positions, List.flatMap_cons, List.length_append, ← positions, ih, BitRange.bits,
      List.length_range']
    rfl

theorem lt_of_mem_bits {field : Bitfield} {place : WordBit} (h : place ∈ field.bits) :
    place.2 < 64 := by
  obtain ⟨i, hi, rfl⟩ := List.mem_map.mp h
  obtain ⟨range, -, hrange⟩ := List.mem_flatMap.mp hi
  obtain ⟨-, hlt⟩ := List.mem_range'_1.mp hrange
  exact Nat.lt_of_lt_of_le hlt range.lo_add_width_le

/-- Ranges of one word without common bits name no bit twice. -/
theorem nodup_bits {field : Bitfield}
    (h : field.ranges.Pairwise fun a b => a.bits.Disjoint b.bits) : field.bits.Nodup := by
  have hpositions : (positions field.ranges).Nodup :=
    List.nodup_flatMap.mpr ⟨fun range _ => List.nodup_range', h⟩
  refine hpositions.map ?_
  intro i j hij
  exact congrArg Prod.snd hij

/-- The bit number `j` of a value goes to the position number `j`. -/
theorem positions_cons_getElem? {range : BitRange} {ranges : List BitRange} {i j : Nat} :
    (positions (range :: ranges))[j]? = some i ↔
      (j < range.width ∧ i = range.lo + j) ∨
        ∃ k, j = range.width + k ∧ (positions ranges)[k]? = some i := by
  have hlen : (BitRange.bits range).length = range.width := List.length_range'
  rw [positions, List.flatMap_cons, ← positions]
  rcases Nat.lt_or_ge j range.width with hlt | hge
  · rw [List.getElem?_append_left (by omega), BitRange.bits, List.getElem?_range' hlt]
    constructor
    · intro h
      left
      have : range.lo + 1 * j = i := by simpa using h
      exact ⟨hlt, by omega⟩
    · rintro (⟨_, rfl⟩ | ⟨k, rfl, _⟩)
      · simp
      · omega
  · obtain ⟨k, rfl⟩ := Nat.exists_eq_add_of_le hge
    rw [List.getElem?_append_right (by omega), hlen, Nat.add_sub_cancel_left]
    constructor
    · intro h
      exact Or.inr ⟨k, rfl, h⟩
    · rintro (⟨hlt, _⟩ | ⟨m, heq, hm⟩)
      · omega
      · obtain rfl : k = m := by omega
        exact hm

/-- The part of a value that goes into a range. -/
theorem getLsbD_shifted (range : BitRange) (value : Word) (i : Nat) :
    ((value &&& lowBits range.width) <<< range.lo).getLsbD i = true ↔
      ∃ j < range.width, i = range.lo + j ∧ value.getLsbD j = true := by
  have hbound := range.lo_add_width_le
  rw [BitVec.getLsbD_shiftLeft, BitVec.getLsbD_and, getLsbD_lowBits]
  simp only [Bool.and_eq_true, Bool.not_eq_true', decide_eq_true_eq, decide_eq_false_iff_not]
  constructor
  · rintro ⟨⟨_, hlo⟩, hvalue, _, hlt⟩
    exact ⟨i - range.lo, hlt, by omega, hvalue⟩
  · rintro ⟨j, hlt, rfl, hvalue⟩
    rw [Nat.add_sub_cancel_left]
    exact ⟨⟨by omega, by omega⟩, hvalue, by omega, hlt⟩

/-- **Packing into ranges.**  A bit is set if it was set before or is the position of a set bit of
the value. -/
theorem getLsbD_packRanges (ranges : List BitRange) (value target : Word) (i : Nat) :
    (packRanges ranges value target).getLsbD i = true ↔
      target.getLsbD i = true ∨ ∃ j, (positions ranges)[j]? = some i ∧ value.getLsbD j = true := by
  induction ranges generalizing value target with
  | nil => simp [packRanges, positions]
  | cons range ranges ih =>
    rw [packRanges, ih, BitVec.getLsbD_or, Bool.or_eq_true, getLsbD_shifted, or_assoc]
    refine or_congr_right ?_
    simp only [positions_cons_getElem?, BitVec.getLsbD_ushiftRight]
    constructor
    · rintro (⟨j, hlt, hi, hvalue⟩ | ⟨k, hk, hvalue⟩)
      · exact ⟨j, Or.inl ⟨hlt, hi⟩, hvalue⟩
      · exact ⟨range.width + k, Or.inr ⟨k, rfl, hk⟩, hvalue⟩
    · rintro ⟨j, ⟨hlt, hi⟩ | ⟨k, rfl, hk⟩, hvalue⟩
      · exact Or.inl ⟨j, hlt, hi, hvalue⟩
      · exact Or.inr ⟨k, hk, hvalue⟩

theorem bits_getElem? {field : Bitfield} {place : WordBit} {j : Nat} :
    field.bits[j]? = some place ↔
      place.1 = field.word ∧ (positions field.ranges)[j]? = some place.2 := by
  obtain ⟨which, i⟩ := place
  rw [bits, List.getElem?_map, Option.map_eq_some_iff]
  constructor
  · rintro ⟨i, hi, heq⟩
    cases heq
    exact ⟨rfl, hi⟩
  · rintro ⟨rfl, hi⟩
    exact ⟨i, hi, rfl⟩

/-- **Packing a field.**  A bit of the attribute is set if it was set before or belongs to a set bit
of the value. -/
theorem bit_pack (field : Bitfield) (value : Word) (attr : Attribute) (place : WordBit) :
    (field.pack value attr).bit place = true ↔
      attr.bit place = true ∨ ∃ j : Nat, field.bits[j]? = some place ∧ value.getLsbD j = true := by
  simp only [Attribute.bit, word_pack, bits_getElem?]
  split
  · rename_i hword
    rw [getLsbD_packRanges]
    simp [hword]
  · rename_i hword
    simp [hword]

end Bitfield

/-! ## 2. Reading back -/

/-- The number that some bits of the attribute spell, the lowest first. -/
def Attribute.numberOf (attr : Attribute) : List WordBit → Nat
  | [] => 0
  | place :: places => (attr.bit place).toNat + 2 * attr.numberOf places

/-- The number in the bits of a field. -/
def Bitfield.readBack (field : Bitfield) (attr : Attribute) : Nat := attr.numberOf field.bits

/-- Bits that are those of a number spell its lowest part. -/
theorem Attribute.numberOf_eq_mod {attr : Attribute} {places : List WordBit} {n : Nat}
    (h : ∀ (j : Nat) (place : WordBit), places[j]? = some place → attr.bit place = n.testBit j) :
    attr.numberOf places = n % 2 ^ places.length := by
  induction places generalizing n with
  | nil => rw [Attribute.numberOf, List.length_nil, Nat.pow_zero, Nat.mod_one]
  | cons place places ih =>
    have hfirst : (attr.bit place).toNat = n % 2 := by
      rw [h 0 place rfl, Nat.testBit_zero]
      rcases Nat.mod_two_eq_zero_or_one n with hn | hn <;> simp [hn]
    have hrest : attr.numberOf places = n / 2 % 2 ^ places.length :=
      ih fun j other hother => by rw [h (j + 1) other hother, Nat.testBit_succ]
    rw [Attribute.numberOf, hfirst, hrest, List.length_cons, Nat.pow_succ', Nat.mod_mul]

/-! ## 3. Several fields -/

/-- The attribute after packing values into fields, in order. -/
def packAll (fields : List (Bitfield × Word)) (attr : Attribute) : Attribute :=
  fields.foldl (fun attr entry => entry.1.pack entry.2 attr) attr

@[simp] theorem packAll_nil (attr : Attribute) : packAll [] attr = attr := rfl

@[simp] theorem packAll_cons (field : Bitfield) (value : Word) (fields : List (Bitfield × Word))
    (attr : Attribute) :
    packAll ((field, value) :: fields) attr = packAll fields (field.pack value attr) := rfl

/-- **Packing several fields.**  A bit is set if it was set before or belongs to a set bit of one of
the values. -/
theorem bit_packAll (fields : List (Bitfield × Word)) (attr : Attribute) (place : WordBit) :
    (packAll fields attr).bit place = true ↔
      attr.bit place = true ∨ ∃ entry ∈ fields, ∃ j : Nat,
        entry.1.bits[j]? = some place ∧ entry.2.getLsbD j = true := by
  induction fields generalizing attr with
  | nil => simp
  | cons entry fields ih =>
    obtain ⟨field, value⟩ := entry
    rw [packAll_cons, ih, Bitfield.bit_pack, or_assoc]
    simp only [List.mem_cons, exists_eq_or_imp]

/-- A bit in none of the fields keeps its value. -/
theorem bit_packAll_of_not_mem {fields : List (Bitfield × Word)} (attr : Attribute)
    {place : WordBit} (h : ∀ entry ∈ fields, place ∉ entry.1.bits) :
    (packAll fields attr).bit place = attr.bit place := by
  rw [Bool.eq_iff_iff, bit_packAll]
  constructor
  · rintro (hbit | ⟨entry, hentry, j, hj, _⟩)
    · exact hbit
    · exact absurd (List.mem_of_getElem? hj) (h entry hentry)
  · exact Or.inl

/-- Of fields without common bits, the one that has a bit is the only one. -/
theorem eq_of_mem_bits {fields : List (Bitfield × Word)}
    (hdisjoint : fields.Pairwise fun a b => a.1.bits.Disjoint b.1.bits)
    {entry other : Bitfield × Word} (hentry : entry ∈ fields) (hother : other ∈ fields)
    {place : WordBit} (hmem : place ∈ entry.1.bits) (hmem' : place ∈ other.1.bits) :
    entry = other := by
  induction fields with
  | nil => cases hentry
  | cons first fields ih =>
    obtain ⟨hfirst, hrest⟩ := List.pairwise_cons.mp hdisjoint
    rcases List.mem_cons.mp hentry with rfl | hentry' <;>
      rcases List.mem_cons.mp hother with rfl | hother'
    · rfl
    · exact absurd hmem' (hfirst other hother' hmem)
    · exact absurd hmem (hfirst entry hentry' hmem')
    · exact ih hrest hentry' hother'

/-- **Fields without common bits give their values back.**  Each of them reads the value that was
packed into it, cut to its width. -/
theorem readBack_packAll {fields : List (Bitfield × Word)} {attr : Attribute}
    (hdisjoint : fields.Pairwise fun a b => a.1.bits.Disjoint b.1.bits)
    {field : Bitfield} {value : Word} (hmem : (field, value) ∈ fields) (hnodup : field.bits.Nodup)
    (hclear : ∀ place ∈ field.bits, attr.bit place = false) :
    field.readBack (packAll fields attr) = value.toNat % 2 ^ field.width := by
  rw [Bitfield.readBack, ← field.length_bits]
  refine Attribute.numberOf_eq_mod fun j place hj => ?_
  have hplace := List.mem_of_getElem? hj
  rw [BitVec.testBit_toNat, Bool.eq_iff_iff, bit_packAll]
  constructor
  · rintro (hbit | ⟨entry, hentry, k, hk, hvalue⟩)
    · rw [hclear place hplace] at hbit
      cases hbit
    · obtain rfl := eq_of_mem_bits hdisjoint hentry hmem (List.mem_of_getElem? hk) hplace
      obtain ⟨hlt, _⟩ := List.getElem?_eq_some_iff.mp hk
      obtain rfl : k = j := (List.getElem?_inj hlt hnodup).mp (hk.trans hj.symm)
      exact hvalue
  · intro hvalue
    exact Or.inr ⟨(field, value), hmem, j, hj, hvalue⟩

/-! ## 4. What packing leaves alone -/

/-- What the attribute says besides its configuration words. -/
def Attribute.withoutWords (attr : Attribute) : Attribute :=
  { attr with config := 0, config1 := 0, config2 := 0 }

@[simp] theorem Attribute.withoutWords_setWord (attr : Attribute) (which : ConfigWord)
    (value : Word) : (attr.setWord which value).withoutWords = attr.withoutWords := by
  cases which <;> rfl

theorem Bitfield.withoutWords_pack (field : Bitfield) (value : Word) (attr : Attribute) :
    (field.pack value attr).withoutWords = attr.withoutWords :=
  Attribute.withoutWords_setWord attr field.word _

theorem withoutWords_packAll (fields : List (Bitfield × Word)) (attr : Attribute) :
    (packAll fields attr).withoutWords = attr.withoutWords := by
  induction fields generalizing attr with
  | nil => rfl
  | cons entry fields ih =>
    obtain ⟨field, value⟩ := entry
    rw [packAll_cons, ih, Bitfield.withoutWords_pack]

/-- An attribute is known by its bits and by what it says besides its configuration words. -/
theorem Attribute.eq_of_bit_eq {attr other : Attribute}
    (hbit : ∀ place, attr.bit place = other.bit place)
    (hrest : attr.withoutWords = other.withoutWords) : attr = other := by
  have hword : ∀ which, attr.word which = other.word which := by
    intro which
    exact BitVec.eq_of_getLsbD_eq fun i _ => hbit (which, i)
  have hwords : ∀ attr : Attribute, attr = { attr.withoutWords with
      config := attr.word .config, config1 := attr.word .config1, config2 := attr.word .config2 } :=
    fun attr => rfl
  rw [hwords attr, hwords other, hrest, hword, hword, hword]

/-- Packing depends on nothing of a field but its bits. -/
theorem Bitfield.pack_eq_of_bits_eq {field other : Bitfield} (h : field.bits = other.bits)
    (value : Word) (attr : Attribute) : field.pack value attr = other.pack value attr := by
  apply Attribute.eq_of_bit_eq
  · intro place
    rw [Bool.eq_iff_iff, bit_pack, bit_pack, h]
  · rw [withoutWords_pack, withoutWords_pack]

/-- Packing and sampling do not meet. -/
theorem Bitfield.pack_setSampling (field : Bitfield) (value : Word) (attr : Attribute)
    (sampling : Sampling) :
    field.pack value { attr with sampling } = { field.pack value attr with sampling } := by
  obtain ⟨which, ranges⟩ := field
  cases which <;> rfl

end HardwareCounters
