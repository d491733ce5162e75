/-
# Ranges that have been put in order

Ranges are joined from the last one on: each is put in front of those that start behind it, and takes in
all that it touches.  What comes out lies apart, so the gaps between are just the code points outside.

* `covers_joinRanges` and `separated_joinRanges`: the same code points as before, by ranges that lie
  apart;
* `covers_complement`: the code points outside;
* `covers_caseClosure`: the code points that differ at most in case.
-/
import HardwareCounters.Text.CaseTable

namespace HardwareCounters

namespace Text

variable {ranges : List CodeRange} {range r : CodeRange} {start n : Nat}

theorem covers_cons (range : CodeRange) (ranges : List CodeRange) (n : Nat) :
    covers (range :: ranges) n =
      (decide (range.1 ≤ n) && decide (n ≤ range.2) || covers ranges n) := rfl

theorem covers_append (ranges more : List CodeRange) (n : Nat) :
    covers (ranges ++ more) n = (covers ranges n || covers more n) := by
  simp [covers]

theorem covers_flatMap {α : Type} (f : α → List CodeRange) (items : List α) (n : Nat) :
    covers (items.flatMap f) n = true ↔ ∃ item ∈ items, covers (f item) n = true := by
  simp only [covers_iff, List.mem_flatMap]
  constructor
  · rintro ⟨range, ⟨item, hitem, hrange⟩, hn⟩
    exact ⟨item, hitem, range, hrange, hn⟩
  · rintro ⟨item, hitem, range, hrange, hn⟩
    exact ⟨range, ⟨item, hitem, hrange⟩, hn⟩

/-! ## 1. Joining -/

/-- Every range holds a code point. -/
def Proper (ranges : List CodeRange) : Prop := ∀ range ∈ ranges, range.1 ≤ range.2

instance (ranges : List CodeRange) : Decidable (Proper ranges) :=
  inferInstanceAs (Decidable (∀ range ∈ ranges, range.1 ≤ range.2))

/-- The ranges hold code points, are in order, and leave at least one code point between them. -/
structure Separated (ranges : List CodeRange) : Prop where
  proper : Proper ranges
  apart : ranges.Pairwise fun range next => range.2 + 1 < next.1

/-- Joining to ranges that do not start before it adds the code points of a range. -/
theorem covers_absorb (h : ∀ r ∈ ranges, range.1 ≤ r.1) (n : Nat) :
    covers (absorb range ranges) n = (covers [range] n || covers ranges n) := by
  induction ranges generalizing range with
  | nil => simp [absorb, covers]
  | cons next ranges ih =>
    rw [absorb]
    split
    · rename_i htouch
      have hnext := h next (by simp)
      have hrest : ∀ r ∈ ranges, range.1 ≤ r.1 := fun r hr => h r (by simp [hr])
      rw [@ih (range.1, max range.2 next.2) hrest, Bool.eq_iff_iff]
      simp only [covers, List.any_cons, List.any_nil, Bool.or_false, Bool.or_eq_true,
        Bool.and_eq_true, decide_eq_true_eq, ← or_assoc]
      refine or_congr_left ?_
      omega
    · simp [covers]

theorem le_of_mem_absorb (h : ∀ r ∈ ranges, range.1 ≤ r.1) (hr : r ∈ absorb range ranges) :
    range.1 ≤ r.1 := by
  induction ranges generalizing range with
  | nil => simp_all [absorb]
  | cons next ranges ih =>
    have hrest : ∀ r ∈ ranges, range.1 ≤ r.1 := fun r hr => h r (by simp [hr])
    rw [absorb] at hr
    split at hr
    · exact @ih (range.1, max range.2 next.2) hrest hr
    · rcases List.mem_cons.mp hr with rfl | hr
      · exact Nat.le_refl _
      · exact h r hr

theorem separated_absorb (hrange : range.1 ≤ range.2) (h : ∀ r ∈ ranges, range.1 ≤ r.1)
    (hranges : Separated ranges) : Separated (absorb range ranges) := by
  induction ranges generalizing range with
  | nil => exact ⟨by simpa [absorb, Proper] using hrange, by simp [absorb]⟩
  | cons next ranges ih =>
    obtain ⟨hproper, hapart⟩ := hranges
    obtain ⟨hbehind, hapart⟩ := List.pairwise_cons.mp hapart
    obtain ⟨hnext, hrest⟩ := List.forall_mem_cons.mp hproper
    rw [absorb]
    split
    · refine ih ?_ (fun r hr => h r (List.mem_cons_of_mem _ hr)) ⟨hrest, hapart⟩
      exact Nat.le_trans hrange (Nat.le_max_left _ _)
    · rename_i hgap
      refine ⟨List.forall_mem_cons.mpr ⟨hrange, hproper⟩, ?_⟩
      refine List.pairwise_cons.mpr ⟨?_, List.pairwise_cons.mpr ⟨hbehind, hapart⟩⟩
      refine List.forall_mem_cons.mpr ⟨by omega, fun r hr => ?_⟩
      have hr := hbehind r hr
      omega

/-- What joining ranges in the order of their starts gives. -/
theorem foldr_absorb (hsorted : ranges.Pairwise fun a b => a.1 ≤ b.1) :
    (∀ n, covers (ranges.foldr absorb []) n = covers ranges n) ∧
      (∀ start, (∀ r ∈ ranges, start ≤ r.1) → ∀ r ∈ ranges.foldr absorb [], start ≤ r.1) ∧
      (Proper ranges → Separated (ranges.foldr absorb [])) := by
  induction ranges with
  | nil => exact ⟨fun n => rfl, fun start h => h, fun h => ⟨h, .nil⟩⟩
  | cons range ranges ih =>
    obtain ⟨hfirst, hsorted⟩ := List.pairwise_cons.mp hsorted
    obtain ⟨hcovers, hstarts, hseparated⟩ := ih hsorted
    have hbehind := hstarts range.1 hfirst
    rw [List.foldr_cons]
    refine ⟨fun n => ?_, fun start h r hr => ?_, fun h => ?_⟩
    · rw [covers_absorb hbehind, hcovers, ← covers_append, List.singleton_append]
    · exact Nat.le_trans (h range (by simp)) (le_of_mem_absorb hbehind hr)
    · obtain ⟨hrange, hrest⟩ := List.forall_mem_cons.mp h
      exact separated_absorb hrange hbehind (hseparated hrest)

theorem pairwise_mergeSort_start (ranges : List CodeRange) :
    (ranges.mergeSort fun a b => decide (a.1 ≤ b.1)).Pairwise fun a b => a.1 ≤ b.1 := by
  have hsorted := @List.pairwise_mergeSort CodeRange (fun a b => decide (a.1 ≤ b.1))
    (by simp; omega) (by simp; omega) ranges
  exact hsorted.imp (by simp)

/-- Putting ranges in order changes none of their code points. -/
theorem covers_joinRanges (ranges : List CodeRange) (n : Nat) :
    covers (joinRanges ranges) n = covers ranges n := by
  rw [joinRanges, (foldr_absorb (pairwise_mergeSort_start ranges)).1, Bool.eq_iff_iff]
  simp [covers_iff]

theorem separated_joinRanges (h : Proper ranges) : Separated (joinRanges ranges) :=
  (foldr_absorb (pairwise_mergeSort_start ranges)).2.2 fun range hrange =>
    h range (List.mem_mergeSort.mp hrange)

/-! ## 2. What lies outside -/

/-- Ranges that start behind a code point do not hold it. -/
theorem covers_eq_false_of_lt (h : ∀ r ∈ ranges, n < r.1) : covers ranges n = false := by
  rw [← Bool.not_eq_true, covers_iff]
  rintro ⟨range, hrange, hle, -⟩
  exact absurd (h range hrange) (Nat.not_lt.mpr hle)

theorem proper_gapsFrom (start : Nat) (ranges : List CodeRange) : Proper (gapsFrom start ranges) := by
  induction ranges generalizing start with
  | nil =>
    rw [gapsFrom]
    split
    · simpa [Proper] using ‹_›
    · simp [Proper]
  | cons range ranges ih =>
    rw [gapsFrom]
    split
    · exact List.forall_mem_cons.mpr ⟨Nat.le_sub_one_of_lt ‹_›, ih _⟩
    · exact ih _

theorem covers_gapsFrom (h : Separated ranges) (hstart : ∀ r ∈ ranges, start ≤ r.1)
    (hn : n ≤ lastCodePoint) :
    covers (gapsFrom start ranges) n = true ↔ start ≤ n ∧ covers ranges n = false := by
  induction ranges generalizing start with
  | nil =>
    rw [gapsFrom]
    split
    · simp [covers, hn]
    · rename_i hlast
      simp only [covers, List.any_nil, Bool.false_eq_true, and_true, false_iff]
      omega
  | cons range ranges ih =>
    obtain ⟨hproper, hapart⟩ := h
    obtain ⟨hbehind, hapart⟩ := List.pairwise_cons.mp hapart
    obtain ⟨hrange, hrest⟩ := List.forall_mem_cons.mp hproper
    have hle := hstart range (by simp)
    have hih := ih ⟨hrest, hapart⟩ (fun r hr => Nat.le_of_lt (hbehind r hr))
    have hbefore : n ≤ range.2 → covers ranges n = false := fun hn =>
      covers_eq_false_of_lt fun r hr => by
        have hr := hbehind r hr
        omega
    rw [gapsFrom]
    split
    · simp only [covers_cons, Bool.or_eq_true, hih, Bool.or_eq_false_iff, Bool.and_eq_true,
        decide_eq_true_eq, Bool.and_eq_false_iff, decide_eq_false_iff_not]
      by_cases hin : n ≤ range.2
      · simp only [hbefore hin, and_true]
        omega
      · simp only [hin, not_false_eq_true, or_true, true_and]
        constructor
        · rintro (hgap | hafter)
          · omega
          · exact ⟨by omega, hafter.2⟩
        · rintro ⟨-, hafter⟩
          exact Or.inr ⟨by omega, hafter⟩
    · simp only [covers_cons, hih, Bool.or_eq_false_iff, Bool.and_eq_false_iff, decide_eq_false_iff_not]
      by_cases hin : n ≤ range.2
      · simp only [hbefore hin, and_true]
        omega
      · simp only [hin, not_false_eq_true, or_true, true_and]
        exact and_congr_left fun _ => by omega

/-- **The code points outside the ranges.** -/
theorem covers_complement (h : Proper ranges) (hn : n ≤ lastCodePoint) :
    covers (complement ranges) n = !covers ranges n := by
  rw [Bool.eq_iff_iff, complement,
    covers_gapsFrom (separated_joinRanges h) (fun _ _ => Nat.zero_le _) hn, covers_joinRanges]
  simp

/-! ## 3. Case -/

/-- Simple case folding takes the code point to its image, which may be the code point itself. -/
def FoldsTo (n image : Nat) : Prop := n = image ∨ (n, image) ∈ foldPairs

/-- The code points differ at most in case. -/
def SameCase (m n : Nat) : Prop := ∃ image, FoldsTo m image ∧ FoldsTo n image

theorem SameCase.refl (n : Nat) : SameCase n n := ⟨n, Or.inl rfl, Or.inl rfl⟩

/-- What differs from a code point at most in case is a code point. -/
theorem SameCase.le_lastCodePoint {m : Nat} (h : SameCase m n) (hn : n ≤ lastCodePoint) :
    m ≤ lastCodePoint := by
  have hpairs : ∀ pair ∈ foldPairs, pair.1 ≤ lastCodePoint ∧ pair.2 ≤ lastCodePoint := by
    decide +kernel
  obtain ⟨image, rfl | hm, rfl | hn'⟩ := h
  · exact hn
  · exact (hpairs _ hn').2
  · exact (hpairs _ hm).1
  · exact (hpairs _ hm).1

theorem proper_caseClosure (h : Proper ranges) : Proper (caseClosure ranges) := by
  refine (separated_joinRanges fun range hrange => ?_).proper
  rcases List.mem_append.mp hrange with hrange | hrange
  · exact h range hrange
  · obtain ⟨⟨p, image⟩, -, hrange⟩ := List.mem_flatMap.mp hrange
    dsimp only at hrange
    split at hrange
    · simp only [List.mem_cons, List.not_mem_nil, or_false] at hrange
      rcases hrange with rfl | rfl
      · exact Nat.le_refl p
      · exact Nat.le_refl image
    · cases hrange

theorem mem_foldedImages {image : Nat} :
    image ∈ foldedImages ranges ↔
      ∃ m, (m, image) ∈ foldPairs ∧ (covers ranges m = true ∨ covers ranges image = true) := by
  rw [foldedImages, List.mem_filterMap]
  constructor
  · rintro ⟨⟨m, image'⟩, hpair, hsome⟩
    by_cases hcovers : covers ranges m = true ∨ covers ranges image' = true
    · simp only [Bool.or_eq_true, hcovers, if_true, Option.some.injEq] at hsome
      subst hsome
      exact ⟨m, hpair, hcovers⟩
    · simp [hcovers] at hsome
  · rintro ⟨m, hpair, hcovers⟩
    exact ⟨(m, image), hpair, by simp [hcovers]⟩

/-- **The code points that differ from one of the ranges at most in case.** -/
theorem covers_caseClosure (ranges : List CodeRange) (n : Nat) :
    covers (caseClosure ranges) n = true ↔ ∃ m, covers ranges m = true ∧ SameCase m n := by
  have hpair : ∀ p image, covers (if (foldedImages ranges).contains image = true then
      [(p, p), (image, image)] else []) n = true ↔
        image ∈ foldedImages ranges ∧ (n = p ∨ n = image) := by
    intro p image
    rw [← List.contains_iff_mem]
    by_cases h : (foldedImages ranges).contains image = true
    · simp only [h, if_true, covers, List.any_cons, List.any_nil, Bool.or_false, Bool.or_eq_true,
        Bool.and_eq_true, decide_eq_true_eq, true_and]
      omega
    · simp only [h, if_false, covers, List.any_nil, Bool.false_eq_true, false_and]
  rw [caseClosure, covers_joinRanges, covers_append, Bool.or_eq_true, covers_flatMap]
  simp only [Prod.exists, hpair, mem_foldedImages]
  constructor
  · rintro (hn | ⟨p, image, hp, ⟨m, hm, hcovers⟩, hn⟩)
    · exact ⟨n, hn, .refl n⟩
    · have hfolds : FoldsTo n image := by
        rcases hn with rfl | rfl
        · exact Or.inr hp
        · exact Or.inl rfl
      rcases hcovers with hcovers | hcovers
      · exact ⟨m, hcovers, image, Or.inr hm, hfolds⟩
      · exact ⟨image, hcovers, image, Or.inl rfl, hfolds⟩
  · rintro ⟨m, hm, image, rfl | hm', rfl | hn⟩
    · exact Or.inl hm
    · exact Or.inr ⟨n, m, hn, ⟨n, hn, Or.inr hm⟩, Or.inl rfl⟩
    · exact Or.inr ⟨m, n, hm', ⟨m, hm', Or.inl hm⟩, Or.inr rfl⟩
    · exact Or.inr ⟨n, image, hn, ⟨m, hm', Or.inl hm⟩, Or.inl rfl⟩

end Text

end HardwareCounters
