/-
# Trimmed texts

A text is trimmed if trimming leaves it as it is.  The lemmas here say where blanks can be in a text
that is put together from others: in front of the first character that is no blank, and behind the
last one.

* `trim_eq_self_iff`: the first and the last character of a trimmed text are no blanks;
* `mem_trim`: characters that are no blanks are kept;
* `trimEnd_append`: behind a text that ends without a blank, only what follows is trimmed;
* `trim_trimEnd`: trimming the end first makes no difference;
* `exists_surround_trim` and `trim_surround`: blanks around a text, and nothing else, are trimmed away.
-/
import HardwareCounters.Text.Blank
import Mathlib.Data.List.TakeWhile

namespace HardwareCounters

namespace Text

/-! ## 1. What trimming keeps -/

theorem mem_dropWhile {p : Char → Bool} {t : Text} {c : Char} (h : c ∈ t) (hc : p c = false) :
    c ∈ t.dropWhile p := by
  rw [← List.takeWhile_append_dropWhile (p := p) (l := t)] at h
  rcases List.mem_append.mp h with h | h
  · have := List.mem_takeWhile_imp h
    simp [hc] at this
  · exact h

/-- Characters that are no blanks are kept. -/
theorem mem_trim {t : Text} {c : Char} (h : c ∈ t) (hc : isBlank c = false) : c ∈ trim t := by
  have hstart : c ∈ trimStart t := mem_dropWhile h hc
  rw [trim, trimEnd, dropEndWhile, List.mem_reverse]
  exact mem_dropWhile (List.mem_reverse.mpr hstart) hc

/-! ## 2. Ends without blanks -/

theorem trimStart_cons {c : Char} (t : Text) (hc : isBlank c = false) :
    trimStart (c :: t) = c :: t := by
  simp [trimStart, hc]

/-- Behind a text that ends without a blank, only what follows is trimmed. -/
theorem trimEnd_append {s : Text} (t : Text) (hs : trimEnd s = s) :
    trimEnd (s ++ t) = s ++ trimEnd t := by
  have hback : s.reverse.dropWhile isBlank = s.reverse := by
    have := congrArg List.reverse hs
    rwa [trimEnd, dropEndWhile, List.reverse_reverse] at this
  rw [trimEnd, dropEndWhile, List.reverse_append, List.dropWhile_append]
  split
  · rename_i hempty
    rw [List.isEmpty_iff] at hempty
    rw [hback, List.reverse_reverse, trimEnd, dropEndWhile, hempty, List.reverse_nil,
      List.append_nil]
  · rw [List.reverse_append, List.reverse_reverse, trimEnd, dropEndWhile]

theorem trimEnd_concat (s : Text) {c : Char} (hc : isBlank c = false) :
    trimEnd (s ++ [c]) = s ++ [c] := by
  simp [trimEnd, dropEndWhile, hc]

theorem trim_eq_self {t : Text} (h : ∀ c ∈ t, isBlank c = false) : trim t = t := by
  have hkeep : ∀ {s : Text}, (∀ c ∈ s, isBlank c = false) → s.dropWhile isBlank = s := by
    intro s hs
    cases s with
    | nil => rfl
    | cons c s => exact List.dropWhile_cons_of_neg (by simp [hs c List.mem_cons_self])
  rw [trim, trimStart, hkeep h, trimEnd, dropEndWhile,
    hkeep fun c hc => h c (List.mem_reverse.mp hc), List.reverse_reverse]

theorem isBlank_of_dropWhile_eq_cons {t rest : Text} {c : Char}
    (h : t.dropWhile isBlank = c :: rest) : isBlank c = false := by
  have hself := dropWhile_dropWhile isBlank t
  rw [h, List.dropWhile_eq_self_iff] at hself
  simpa using hself (Nat.succ_pos _)

/-- Trimming the end first makes no difference. -/
theorem trim_trimEnd (t : Text) : trim (trimEnd t) = trim t := by
  rcases h : trimStart t with _ | ⟨c, rest⟩
  · have hblank : ∀ x ∈ t, isBlank x = true := List.dropWhile_eq_nil_iff.mp h
    have hend : trimStart (trimEnd t) = [] := List.dropWhile_eq_nil_iff.mpr fun x hx =>
      hblank x ((dropEndWhile_isPrefixOf isBlank t).subset hx)
    rw [trim, trim, h, hend]
  · have hc := isBlank_of_dropWhile_eq_cons h
    have hfront : ∀ x ∈ t.takeWhile isBlank, isBlank x = true :=
      fun x hx => List.mem_takeWhile_imp hx
    have ht : t = t.takeWhile isBlank ++ [c] ++ rest := by
      rw [List.append_assoc, List.singleton_append, ← h]
      exact List.takeWhile_append_dropWhile.symm
    have hend : trimStart (trimEnd t) = c :: trimEnd rest := by
      rw [ht, trimEnd_append rest (trimEnd_concat _ hc), List.append_assoc, List.singleton_append,
        trimStart, List.dropWhile_append_of_pos hfront]
      exact trimStart_cons _ hc
    have hcons : ∀ u : Text, trimEnd (c :: u) = c :: trimEnd u :=
      fun u => trimEnd_append u (trimEnd_concat [] hc)
    rw [trim, trim, h, hend, hcons, hcons]
    exact congrArg (c :: ·) (dropEndWhile_dropEndWhile isBlank rest)

theorem dropWhile_eq_self_iff_head? {p : Char → Bool} {t : Text} :
    t.dropWhile p = t ↔ t.head?.map p ≠ some true := by
  rw [List.dropWhile_eq_self_iff]
  cases t with
  | nil => simp
  | cons c t => simp

/-- A text is trimmed if its first and its last character are no blanks. -/
theorem trim_eq_self_iff {t : Text} :
    trim t = t ↔ t.head?.map isBlank ≠ some true ∧ t.getLast?.map isBlank ≠ some true := by
  have hstart : trimStart t = t ↔ t.head?.map isBlank ≠ some true := dropWhile_eq_self_iff_head?
  have hend : trimEnd t = t ↔ t.getLast?.map isBlank ≠ some true := by
    rw [← List.head?_reverse, ← dropWhile_eq_self_iff_head?, trimEnd, dropEndWhile,
      List.reverse_eq_iff]
  rw [← hstart, ← hend]
  constructor
  · intro h
    refine ⟨?_, ?_⟩
    · refine (List.dropWhile_suffix isBlank).eq_of_length_le ?_
      have hprefix := (dropEndWhile_isPrefixOf isBlank (trimStart t)).length_le
      have hlen := congrArg List.length h
      rw [trim, trimEnd] at hlen
      exact hlen ▸ hprefix
    · have htwice := dropEndWhile_dropEndWhile isBlank (trimStart t)
      change trimEnd (trim t) = trim t at htwice
      rwa [h] at htwice
  · rintro ⟨h₁, h₂⟩
    rw [trim, h₁, h₂]

/-- Between trimmed texts nothing is trimmed. -/
theorem trim_append_append {s t : Text} (hs : trim s = s) (hsne : s ≠ []) (ht : trim t = t)
    (htne : t ≠ []) (middle : Text) : trim (s ++ middle ++ t) = s ++ middle ++ t := by
  obtain ⟨c, rest, rfl⟩ := List.exists_cons_of_ne_nil hsne
  have hlast : (c :: rest ++ middle ++ t).getLast? = t.getLast? := by
    rw [List.getLast?_append, List.getLast?_eq_some_getLast htne, Option.some_or]
  refine trim_eq_self_iff.mpr ⟨(trim_eq_self_iff.mp hs).1, ?_⟩
  rw [hlast]
  exact (trim_eq_self_iff.mp ht).2

/-! ## 3. Blanks around a text -/

/-- The text holds nothing but blanks. -/
def AllBlank (t : Text) : Prop := ∀ c ∈ t, isBlank c = true

theorem allBlank_nil : AllBlank [] := fun _ hc => nomatch hc

theorem AllBlank.not_mem {t : Text} (h : AllBlank t) {c : Char} (hc : isBlank c = false) : c ∉ t := by
  intro hmem
  rw [h c hmem] at hc
  cases hc

theorem trim_eq_nil {t : Text} (h : AllBlank t) : trim t = [] := by
  have hstart : trimStart t = [] := List.dropWhile_eq_nil_iff.mpr h
  rw [trim, hstart]
  rfl

/-- Trimming takes blanks away at both ends. -/
theorem exists_surround_trim (t : Text) :
    ∃ front back, AllBlank front ∧ AllBlank back ∧ front ++ trim t ++ back = t := by
  refine ⟨t.takeWhile isBlank, ((trimStart t).reverse.takeWhile isBlank).reverse,
    fun c hc => List.mem_takeWhile_imp hc,
    fun c hc => List.mem_takeWhile_imp (List.mem_reverse.mp hc), ?_⟩
  rw [trim, trimEnd, dropEndWhile, List.append_assoc, ← List.reverse_append,
    List.takeWhile_append_dropWhile, List.reverse_reverse, trimStart,
    List.takeWhile_append_dropWhile]

/-- Nothing remains of a text if and only if it holds nothing but blanks. -/
theorem trim_eq_nil_iff {t : Text} : trim t = [] ↔ AllBlank t := by
  refine ⟨fun h => ?_, trim_eq_nil⟩
  obtain ⟨front, back, hfront, hback, ht⟩ := exists_surround_trim t
  rw [h, List.append_nil] at ht
  rw [← ht]
  exact List.forall_mem_append.mpr ⟨hfront, hback⟩

/-- Which characters that are no blanks are in a text can be told after trimming. -/
theorem mem_trim_iff {t : Text} {c : Char} (hc : isBlank c = false) : c ∈ trim t ↔ c ∈ t := by
  refine ⟨fun h => ?_, fun h => mem_trim h hc⟩
  obtain ⟨front, back, -, -, ht⟩ := exists_surround_trim t
  rw [← ht]
  simp [h]

/-- Blanks around a text are trimmed away. -/
theorem trim_surround {front back : Text} (hfront : AllBlank front) (hback : AllBlank back)
    (t : Text) : trim (front ++ t ++ back) = trim t := by
  have hstart : trimStart (front ++ t ++ back) = trimStart (t ++ back) := by
    rw [List.append_assoc]
    exact List.dropWhile_append_of_pos hfront
  have hend : trimEnd (t ++ back) = trimEnd t := by
    have hreverse : ∀ c ∈ back.reverse, isBlank c = true :=
      fun c hc => hback c (List.mem_reverse.mp hc)
    rw [trimEnd, trimEnd, dropEndWhile, dropEndWhile, List.reverse_append,
      List.dropWhile_append_of_pos hreverse]
  calc trim (front ++ t ++ back) = trim (t ++ back) := by rw [trim, hstart, trim]
    _ = trim (trimEnd (t ++ back)) := (trim_trimEnd _).symm
    _ = trim t := by rw [hend, trim_trimEnd]

end Text

end HardwareCounters
