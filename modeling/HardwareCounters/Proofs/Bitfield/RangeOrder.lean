/-
# The order of the ranges

A field of several ranges is meant to take the bits of a value from its lowest range on.  Packing does
not look where a range lies, though: it fills the ranges as they are written, and the text of a field
may name them in any order.  For ranges without common bits the two are the same only where the ranges
are written in ascending order.

* `Bitfield.sorted` is the field with its ranges in ascending order, and `FieldForm.exists_sorted` a
  text for it, with the same parts;
* `pack_eq_pack_iff`: when fields with the same bits pack a value alike, and `forall_pack_eq_iff`: when
  they pack every value alike;
* `pack_sorted_iff`: which fields are packed from their lowest range on.
-/
import HardwareCounters.Proofs.Bitfield.Language
import HardwareCounters.Proofs.Bitfield.Packing
import HardwareCounters.Proofs.Bitfield.Shifting
import Mathlib.Data.List.Lattice
import Mathlib.Data.List.Perm.Basic
import Mathlib.Data.List.Sort

namespace HardwareCounters

/-! ## 1. Ascending ranges -/

/-- The first range starts where the second one does, or below. -/
def BitRange.StartsBefore (range other : BitRange) : Prop := range.lo ≤ other.lo

instance : DecidableRel BitRange.StartsBefore :=
  fun range other => inferInstanceAs (Decidable (range.lo ≤ other.lo))

instance : Std.Total BitRange.StartsBefore := ⟨fun range other => Nat.le_total range.lo other.lo⟩

instance : IsTrans BitRange BitRange.StartsBefore := ⟨fun _ _ _ => Nat.le_trans⟩

theorem BitRange.mem_bits_iff {range : BitRange} {i : Nat} :
    i ∈ range.bits ↔ range.lo ≤ i ∧ i ≤ range.hi := by
  have hbounds := range.lo_le_hi
  rw [BitRange.bits, List.mem_range'_1, BitRange.width]
  omega

/-- Of two ranges without common bits, the one that starts below the other ends below it. -/
theorem BitRange.hi_lt_lo_of_disjoint {range other : BitRange}
    (hstart : range.StartsBefore other) (hdisjoint : range.bits.Disjoint other.bits) :
    range.hi < other.lo := by
  by_contra hge
  have hmem : other.lo ∈ range.bits := mem_bits_iff.mpr ⟨hstart, Nat.le_of_not_lt hge⟩
  exact hdisjoint hmem (mem_bits_iff.mpr ⟨Nat.le_refl _, other.lo_le_hi⟩)

theorem Attribute.bit_empty (place : WordBit) : ({} : Attribute).bit place = false := by
  obtain ⟨which, i⟩ := place
  cases which <;> exact BitVec.getLsbD_zero

namespace Bitfield

variable {field other : Bitfield} {ranges : List BitRange}

/-- Every range ends below those that are written behind it. -/
def Ascending (ranges : List BitRange) : Prop := ranges.Pairwise fun a b => a.hi < b.lo

instance (ranges : List BitRange) : Decidable (Ascending ranges) :=
  inferInstanceAs (Decidable (ranges.Pairwise fun a b => a.hi < b.lo))

/-- Ascending ranges are those that name the bits of the word from the lowest to the highest. -/
theorem pairwise_positions_iff : (positions ranges).Pairwise (· < ·) ↔ Ascending ranges := by
  have hrange : ∀ range ∈ ranges, range.bits.Pairwise (· < ·) :=
    fun range _ => List.pairwise_lt_range' 1
  have hpair : ∀ a b : BitRange, (∀ i ∈ a.bits, ∀ j ∈ b.bits, i < j) ↔ a.hi < b.lo := by
    intro a b
    simp only [BitRange.mem_bits_iff]
    constructor
    · intro h
      exact h a.hi ⟨a.lo_le_hi, Nat.le_refl _⟩ b.lo ⟨Nat.le_refl _, b.lo_le_hi⟩
    · rintro h i ⟨-, hi⟩ j ⟨hj, -⟩
      omega
  rw [positions, List.pairwise_flatMap, and_iff_right hrange]
  simp only [hpair, Ascending]

/-- The field with its ranges in ascending order. -/
def sorted (field : Bitfield) : Bitfield :=
  { field with ranges := field.ranges.insertionSort BitRange.StartsBefore }

theorem ranges_sorted_perm (field : Bitfield) : field.sorted.ranges.Perm field.ranges :=
  List.perm_insertionSort BitRange.StartsBefore field.ranges

/-- Ranges without common bits are ascending once they are sorted. -/
theorem ascending_sorted (hdisjoint : field.ranges.Pairwise fun a b => a.bits.Disjoint b.bits) :
    Ascending field.sorted.ranges := by
  have hstarts : field.sorted.ranges.Pairwise BitRange.StartsBefore :=
    List.pairwise_insertionSort BitRange.StartsBefore field.ranges
  have hsorted := hdisjoint.perm field.ranges_sorted_perm.symm List.Disjoint.symm
  exact hstarts.imp₂ (fun _ _ => BitRange.hi_lt_lo_of_disjoint) hsorted

/-- Ascending ranges are not moved by sorting. -/
theorem sorted_of_ascending (h : Ascending field.ranges) : field.sorted = field := by
  have hstarts : field.ranges.Pairwise BitRange.StartsBefore :=
    h.imp fun {a b} hlt => Nat.le_trans a.lo_le_hi (Nat.le_of_lt hlt)
  rw [sorted, hstarts.insertionSort_eq]

/-- Sorting keeps the bits of a field. -/
theorem bits_perm_sorted (field : Bitfield) : field.bits.Perm field.sorted.bits :=
  (field.ranges_sorted_perm.symm.flatMap_right BitRange.bits).map _

theorem bits_eq_sorted_iff (hdisjoint : field.ranges.Pairwise fun a b => a.bits.Disjoint b.bits) :
    field.bits = field.sorted.bits ↔ Ascending field.ranges := by
  constructor
  · intro h
    have hpositions : positions field.ranges = positions field.sorted.ranges := by
      have := congrArg (List.map Prod.snd) h
      simpa [bits, Function.comp_def] using this
    rw [← pairwise_positions_iff, hpositions, pairwise_positions_iff]
    exact ascending_sorted hdisjoint
  · intro h
    rw [sorted_of_ascending h]

/-! ## 2. Fields with the same bits -/

/-- A bit that a field has once takes one bit of the value. -/
theorem bit_pack_of_getElem? (hnodup : field.bits.Nodup) {place : WordBit} {j : Nat}
    (hj : field.bits[j]? = some place) (value : Word) (attr : Attribute) :
    (field.pack value attr).bit place = (attr.bit place || value.getLsbD j) := by
  rw [Bool.eq_iff_iff, bit_pack, Bool.or_eq_true]
  refine or_congr_right ⟨?_, fun hvalue => ⟨j, hj, hvalue⟩⟩
  rintro ⟨k, hk, hvalue⟩
  obtain ⟨hlt, -⟩ := List.getElem?_eq_some_iff.mp hk
  obtain rfl : k = j := (List.getElem?_inj hlt hnodup).mp (hk.trans hj.symm)
  exact hvalue

theorem bit_pack_of_not_mem {place : WordBit} (h : place ∉ field.bits) (value : Word)
    (attr : Attribute) : (field.pack value attr).bit place = attr.bit place := by
  have hone : ∀ entry ∈ [(field, value)], place ∉ entry.1.bits :=
    fun entry hentry => List.mem_singleton.mp hentry ▸ h
  exact bit_packAll_of_not_mem attr hone

/-- **When a value is packed alike.**  Fields with the same bits, each of them once, give the same
attribute if each of these bits was set before or takes the same bit of the value from both. -/
theorem pack_eq_pack_iff (hperm : field.bits.Perm other.bits) (hnodup : field.bits.Nodup)
    (value : Word) (attr : Attribute) :
    field.pack value attr = other.pack value attr ↔
      ∀ (place : WordBit) (j k : Nat), field.bits[j]? = some place →
        other.bits[k]? = some place →
          attr.bit place = true ∨ value.getLsbD j = value.getLsbD k := by
  have hnodup' : other.bits.Nodup := hperm.nodup_iff.mp hnodup
  constructor
  · intro h place j k hj hk
    have hbit := congrArg (fun packed => packed.bit place) h
    simp only [bit_pack_of_getElem? hnodup hj, bit_pack_of_getElem? hnodup' hk] at hbit
    cases hset : attr.bit place with
    | true => exact Or.inl rfl
    | false =>
      rw [hset, Bool.false_or, Bool.false_or] at hbit
      exact Or.inr hbit
  · intro h
    apply Attribute.eq_of_bit_eq
    · intro place
      by_cases hplace : place ∈ field.bits
      · obtain ⟨j, hj⟩ := List.mem_iff_getElem?.mp hplace
        obtain ⟨k, hk⟩ := List.mem_iff_getElem?.mp (hperm.mem_iff.mp hplace)
        rw [bit_pack_of_getElem? hnodup hj, bit_pack_of_getElem? hnodup' hk]
        rcases h place j k hj hk with hset | hsame
        · rw [hset, Bool.true_or, Bool.true_or]
        · rw [hsame]
      · rw [bit_pack_of_not_mem hplace, bit_pack_of_not_mem fun hmem =>
          hplace (hperm.mem_iff.mpr hmem)]
    · rw [withoutWords_pack, withoutWords_pack]

/-- A field that has each of its bits once has no more of them than a word. -/
theorem length_bits_le (hnodup : field.bits.Nodup) : field.bits.length ≤ 64 := by
  have hsubset : field.bits ⊆ (List.range 64).map fun i => (field.word, i) := by
    intro place hplace
    have hlt := lt_of_mem_bits hplace
    obtain ⟨i, -, rfl⟩ := List.mem_map.mp hplace
    exact List.mem_map_of_mem (List.mem_range.mpr hlt)
  have hlength := (List.subperm_of_subset hnodup hsubset).length_le
  rwa [List.length_map, List.length_range] at hlength

/-- **When every value is packed alike.**  Fields with the same bits, each of them once, pack every
value alike only if they take its bits in the same order. -/
theorem forall_pack_eq_iff (hperm : field.bits.Perm other.bits) (hnodup : field.bits.Nodup) :
    (∀ value attr, field.pack value attr = other.pack value attr) ↔ field.bits = other.bits := by
  constructor
  · intro h
    refine List.ext_getElem? fun j => ?_
    rcases Nat.lt_or_ge j field.bits.length with hlt | hge
    · -- The value with the bit number `j` alone tells where this bit goes.
      have hj := List.getElem?_eq_getElem hlt
      have hmem := hperm.mem_iff.mp (List.getElem_mem hlt)
      obtain ⟨k, hk⟩ := List.mem_iff_getElem?.mp hmem
      have hword : j < 64 := Nat.lt_of_lt_of_le hlt (length_bits_le hnodup)
      rcases (pack_eq_pack_iff hperm hnodup (BitVec.twoPow 64 j) {}).mp (h _ _) _ j k hj hk with
        hset | hsame
      · rw [Attribute.bit_empty] at hset
        cases hset
      · have hjk : j = k := by simpa [BitVec.getLsbD_twoPow, hword] using hsame
        rw [hj, ← hk, hjk]
    · rw [List.getElem?_eq_none hge, List.getElem?_eq_none (hperm.length_eq ▸ hge)]
  · exact fun h value attr => pack_eq_of_bits_eq h value attr

/-! ## 3. The texts of a field and of its sorted ranges -/

/-- The text has the same parts as another one, apart from blanks around them, in any order. -/
structure FieldForm.Rearranges (form other : FieldForm) : Prop where
  named_eq : form.named = other.named
  parts_perm : form.parts.Perm (other.parts.map Text.trim)

/-- Blanks around the parts and their order do not matter for the word. -/
theorem FieldForm.Rearranges.word_eq {form other : FieldForm} (h : form.Rearranges other) :
    form.word = other.word := by
  obtain ⟨hnamed, hperm⟩ := h
  obtain ⟨named, parts, hne, hcomma⟩ := form
  obtain ⟨named', parts', hne', hcomma'⟩ := other
  obtain rfl : named = named' := hnamed
  cases named with
  | config => rfl
  | config2 => rfl
  | config1 =>
    match parts, hne, hcomma, parts', hne', hcomma', hperm with
    | [part], _, _, [part'], _, _, hperm =>
      obtain rfl : part = Text.trim part' := List.singleton_perm_singleton.mp hperm
      simp only [word, isSingle_trim]
    | _ :: _ :: _, _, _, _ :: _ :: _, _, _, _ => rfl
    | [_], _, _, _ :: _ :: _, _, _, hperm => cases hperm.length_eq
    | _ :: _ :: _, _, _, [_], _, _, hperm => cases hperm.length_eq

theorem SpellsRange.ne_nil {target t : Text} {range : BitRange} (h : SpellsRange target t range) :
    t ≠ [] := by
  cases h with
  | bit h hn => exact h.digits_ne_nil
  | bits => simp

/-- A form whose parts carry no blanks around them is a text without blanks around it. -/
theorem FieldForm.trim_text (form : FieldForm)
    (h : ∀ part ∈ form.parts, Text.trim part = part ∧ part ≠ []) :
    Text.trim form.text = form.text := by
  have hkey : Text.trim form.named.key.toList = form.named.key.toList ∧
      form.named.key.toList ≠ [] := by
    cases form.named <;> decide
  have hparts : Text.joinWith [','] form.parts ≠ [] := by
    obtain ⟨part, parts, hsplit⟩ := List.exists_cons_of_ne_nil form.parts_ne_nil
    obtain ⟨rest, hrest⟩ := Text.exists_rest [','] part parts
    rw [hsplit, hrest]
    have hne := (h part (hsplit ▸ List.mem_cons_self)).2
    simp [hne]
  have hwhole :=
    Text.trim_append_append hkey.1 hkey.2 (Text.trim_joinWith [','] h) hparts [':']
  rwa [List.append_assoc, List.singleton_append] at hwhole

/-- **The sorted field has a text.**  It names the same word and the same ranges. -/
theorem FieldForm.exists_sorted {form : FieldForm} {ranges : List BitRange}
    (hspells : form.Spells ranges) :
    ∃ other : FieldForm, other.Rearranges form ∧
      parse other.text = .ok (Bitfield.mk form.word ranges).sorted := by
  have hperm := (Bitfield.mk form.word ranges).ranges_sorted_perm
  obtain ⟨parts, hparts, hrearranged⟩ := List.perm_comp_forall₂ hperm hspells.flip
  have hne : parts.map Text.trim ≠ [] := by
    rw [ne_eq, List.map_eq_nil_iff]
    rintro rfl
    exact form.parts_ne_nil hrearranged.nil_eq.symm
  have hcomma : ∀ part ∈ parts.map Text.trim, ',' ∉ part := by
    intro part hpart hmem
    obtain ⟨untrimmed, huntrimmed, rfl⟩ := List.mem_map.mp hpart
    exact form.comma_not_mem untrimmed (hrearranged.mem_iff.mp huntrimmed)
      ((Text.mem_trim_iff (by decide)).mp hmem)
  let other : FieldForm := ⟨form.named, parts.map Text.trim, hne, hcomma⟩
  have hother : other.Rearranges form := ⟨rfl, hrearranged.map Text.trim⟩
  have hsorted : other.Spells (Bitfield.mk form.word ranges).sorted.ranges := by
    refine List.forall₂_map_left_iff.mpr (hparts.flip.imp ?_)
    intro part range hrange
    rw [Text.trim_trim]
    exact hrange
  have hfilled : ∀ part ∈ other.parts, Text.trim part ≠ [] :=
    ((List.forall₂_and_left _ _).mp (hsorted.imp fun _ _ hrange => ⟨hrange.ne_nil, hrange⟩)).1
  have htrimmed : ∀ part ∈ other.parts, Text.trim part = part ∧ part ≠ [] := by
    intro part hpart
    have hne := hfilled part hpart
    obtain ⟨untrimmed, -, rfl⟩ := List.mem_map.mp hpart
    rw [Text.trim_trim] at hne
    exact ⟨Text.trim_trim untrimmed, hne⟩
  exact ⟨other, hother, parse_eq_ok_iff.mpr
    ⟨other, (other.trim_text htrimmed).symm, hsorted, hother.word_eq.symm⟩⟩

/-! ## 4. Which fields are filled from below -/

/-- **Only ascending ranges are filled from the lowest on.**  Take a text that is accepted as a field,
whose ranges have no common bits.  Its parts in another order are a text for the sorted field, which has
the same word and takes the bits of a value into ascending bits of it.  A value is packed alike into
both if and only if every bit of the field was set before or takes the same bit of the value from both.
So all values are packed alike if and only if the ranges are written in ascending order. -/
theorem pack_sorted_iff {format : Text} (hparse : parse format = .ok field)
    (hdisjoint : field.ranges.Pairwise fun a b => a.bits.Disjoint b.bits) :
    (∃ form other : FieldForm, form.text = Text.trim format ∧ other.Rearranges form ∧
      parse other.text = .ok field.sorted) ∧
    (field.sorted.word = field.word ∧ field.sorted.ranges.Perm field.ranges ∧
      (positions field.sorted.ranges).Pairwise (· < ·)) ∧
    (∀ value attr, field.pack value attr = field.sorted.pack value attr ↔
      ∀ (place : WordBit) (j k : Nat), field.bits[j]? = some place →
        field.sorted.bits[k]? = some place →
          attr.bit place = true ∨ value.getLsbD j = value.getLsbD k) ∧
    ((∀ value attr, field.pack value attr = field.sorted.pack value attr) ↔
      Ascending field.ranges) := by
  have hnodup := nodup_bits hdisjoint
  refine ⟨?_, ⟨rfl, field.ranges_sorted_perm, ?_⟩, ?_, ?_⟩
  · obtain ⟨form, htext, hspells, hword⟩ := parse_eq_ok_iff.mp hparse
    obtain ⟨other, hother, hsorted⟩ := form.exists_sorted hspells
    rw [← hword] at hsorted
    exact ⟨form, other, htext, hother, hsorted⟩
  · exact pairwise_positions_iff.mpr (ascending_sorted hdisjoint)
  · exact pack_eq_pack_iff field.bits_perm_sorted hnodup
  · rw [forall_pack_eq_iff field.bits_perm_sorted hnodup, bits_eq_sorted_iff hdisjoint]

end Bitfield

namespace Example

/-- A field of twelve bits whose higher range is written first. -/
def descendingField : Bitfield := { splitField with ranges := splitField.ranges.reverse }

end Example

open Example in
theorem Bitfield.pack_sorted_iff_descending :
    (parse "config:40-43, 10-3".toList = .ok descendingField ∧
      ¬ ∀ value attr, descendingField.pack value attr = descendingField.sorted.pack value attr) ∧
    (parse "config:3-10,40-43".toList = .ok descendingField.sorted ∧
      ∀ value attr, descendingField.sorted.pack value attr =
        descendingField.sorted.sorted.pack value attr) := by
  have hdescending : parse "config:40-43, 10-3".toList = .ok descendingField := rfl
  have hascending : parse "config:3-10,40-43".toList = .ok descendingField.sorted := rfl
  obtain ⟨-, -, -, hiff⟩ := pack_sorted_iff hdescending (by decide)
  obtain ⟨-, -, -, hiff'⟩ := pack_sorted_iff hascending (by decide)
  exact ⟨⟨hdescending, fun h => absurd (hiff.mp h) (by decide)⟩, hascending,
    hiff'.mpr (by decide)⟩

open Example in
/-- The text names its higher range first, and this is the one that takes the lowest bits. -/
theorem Bitfield.descendingField_filled_from_above :
    parse "config:40-43,3-10".toList = .ok descendingField ∧
    parse "config:3-10,40-43".toList = .ok descendingField.sorted ∧
    (descendingField.ranges.Pairwise fun a b => a.bits.Disjoint b.bits) ∧
    descendingField.pack 0x1C0 {} = { config := 0xE0 } ∧
    descendingField.sorted.pack 0x1C0 {} = { config := 0x10000000600 } :=
  ⟨rfl, rfl, by decide, by decide, by decide⟩

end HardwareCounters
