/-
# What a class of characters takes

A scan compares a character with ranges of code points.  Here it is said what they stand for: a class
takes what one of its items takes, in either case, and a class that is given by what it leaves out takes
all the rest.

* `ClassItem.Takes` and `CharClass.Takes` say it of items and classes;
* `CharClass.inRanges_iff`: the ranges of a class hold just these characters.
-/
import HardwareCounters.Pattern.CharClass
import HardwareCounters.Proofs.Text.CodeRanges

namespace HardwareCounters

open Text

/-- What an item of a class takes. -/
def ClassItem.Takes : ClassItem → Nat → Prop
  | .between first last _, n => first.toNat ≤ n ∧ n ≤ last.toNat
  | .digit negated, n => covers decimalDigitRanges n = true ↔ negated = false
  | .blank negated, n => covers blankRanges n = true ↔ negated = false

/-- What a class takes. -/
def CharClass.Takes : CharClass → Char → Prop
  | .any, c => c ≠ '\n'
  | .only d, c => SameCase d.toNat c.toNat
  | .lettered item, c => item.Takes c.toNat
  | .oneOf items negated, c =>
    (∃ item ∈ items, ∃ n, item.Takes n ∧ SameCase n c.toNat) ↔ negated = false

/-! ## 1. Items -/

theorem toNat_le_lastCodePoint (c : Char) : c.toNat ≤ lastCodePoint := by
  have h := c.valid
  simp only [UInt32.isValidChar, Nat.isValidChar] at h
  simp only [lastCodePoint, Char.toNat]
  omega

theorem covers_single (first last n : Nat) :
    covers [(first, last)] n = true ↔ first ≤ n ∧ n ≤ last := by
  simp [covers]

theorem proper_rangesOrOthers {ranges : List CodeRange} (h : Proper ranges) (negated : Bool) :
    Proper (rangesOrOthers negated ranges) := by
  cases negated with
  | false => exact (separated_joinRanges h).proper
  | true => exact proper_gapsFrom 0 _

theorem covers_rangesOrOthers {ranges : List CodeRange} (h : Proper ranges) (negated : Bool) {n : Nat}
    (hn : n ≤ lastCodePoint) :
    covers (rangesOrOthers negated ranges) n = true ↔ (covers ranges n = true ↔ negated = false) := by
  cases negated with
  | false => simp [rangesOrOthers, covers_joinRanges]
  | true => simp [rangesOrOthers, covers_complement h hn]

theorem proper_decimalDigitRanges : Proper decimalDigitRanges := by decide

theorem proper_blankRanges : Proper blankRanges := by decide

theorem ClassItem.proper_ranges (item : ClassItem) : Proper item.ranges := by
  cases item with
  | between first last h => exact List.forall_mem_singleton.mpr h
  | digit negated => exact proper_rangesOrOthers proper_decimalDigitRanges negated
  | blank negated => exact proper_rangesOrOthers proper_blankRanges negated

theorem ClassItem.covers_ranges_iff (item : ClassItem) {n : Nat} (hn : n ≤ lastCodePoint) :
    covers item.ranges n = true ↔ item.Takes n := by
  cases item with
  | between first last h => exact covers_single _ _ n
  | digit negated => exact covers_rangesOrOthers proper_decimalDigitRanges negated hn
  | blank negated => exact covers_rangesOrOthers proper_blankRanges negated hn

/-! ## 2. Classes -/

/-- **The characters of a class.** -/
theorem CharClass.inRanges_iff (charClass : CharClass) (c : Char) :
    inRanges charClass.ranges c = true ↔ charClass.Takes c := by
  have hc := toNat_le_lastCodePoint c
  cases charClass with
  | any =>
    have hproper : Proper [('\n'.toNat, '\n'.toNat)] := by decide
    rw [inRanges, ranges, covers_complement hproper hc, Takes, Bool.not_eq_true', ←
      Bool.not_eq_true, covers_single, ne_eq, ← Char.toNat_inj]
    omega
  | only d =>
    simp only [inRanges, ranges, covers_caseClosure, covers_single, Takes]
    constructor
    · rintro ⟨m, ⟨hle, hge⟩, hsame⟩
      obtain rfl : m = d.toNat := by omega
      exact hsame
    · exact fun hsame => ⟨d.toNat, ⟨Nat.le_refl _, Nat.le_refl _⟩, hsame⟩
  | lettered item => exact item.covers_ranges_iff hc
  | oneOf items negated =>
    have hproper : Proper (caseClosure (items.flatMap ClassItem.ranges)) := by
      refine proper_caseClosure fun range hrange => ?_
      obtain ⟨item, -, hrange⟩ := List.mem_flatMap.mp hrange
      exact item.proper_ranges range hrange
    rw [inRanges, ranges, covers_rangesOrOthers hproper negated hc, covers_caseClosure, Takes]
    refine iff_congr ?_ Iff.rfl
    simp only [covers_flatMap]
    constructor
    · rintro ⟨m, ⟨item, hitem, hm⟩, hsame⟩
      have hle := hsame.le_lastCodePoint hc
      exact ⟨item, hitem, m, (item.covers_ranges_iff hle).mp hm, hsame⟩
    · rintro ⟨item, hitem, m, hm, hsame⟩
      have hle := hsame.le_lastCodePoint hc
      exact ⟨m, ⟨item, hitem, (item.covers_ranges_iff hle).mpr hm⟩, hsame⟩

end HardwareCounters
