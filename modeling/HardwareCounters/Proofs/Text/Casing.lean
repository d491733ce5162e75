/-
# Blanks and lower case

Names are trimmed before they are looked up without regard to case.  The lower case of a blank is the
blank itself and the lower case of any other character holds no blank, so a text is trimmed if its
lower case is.

* `isBlank_of_mem_lowerChar` is the law for one character;
* `trim_eq_self_iff_lowercase` is the law for texts.
-/
import HardwareCounters.Proofs.Text.Trimming
import HardwareCounters.Text.Lowercase
import Mathlib.Data.List.Basic

namespace HardwareCounters

namespace Text

/-! ## 1. Characters -/

theorem isBlank_toLower {c : Char} (h : c.toNat < 128) : isBlank c.toLower = isBlank c := by
  have hall : ∀ n < 128, isBlank (Char.ofNat n).toLower = isBlank (Char.ofNat n) := by
    decide +kernel
  have hc := hall c.toNat h
  rwa [Char.ofNat_toNat] at hc

/-- No run of the lower-case map starts or ends in a blank. -/
theorem lowercaseRuns_blankRanges : ∀ run ∈ lowercaseRuns, ∀ range ∈ blankRanges,
    (run.last < range.1 ∨ range.2 < run.first) ∧
      (run.last + run.distance < range.1 ∨ range.2 < run.first + run.distance) := by
  decide +kernel

/-- The lower-case map leaves blanks alone and gives no new ones. -/
theorem isBlank_mapRuns (c : Char) : isBlank (mapRuns lowercaseRuns c) = isBlank c := by
  rw [mapRuns]
  split
  · rfl
  · rename_i run hfind
    have hmem := List.mem_of_find?_eq_some hfind
    have hholds := List.find?_some hfind
    simp only [CaseRun.holds, Bool.and_eq_true, decide_eq_true_eq] at hholds
    obtain ⟨⟨hfirst, hlast⟩, -⟩ := hholds
    have hsource : isBlank c = false := by
      rw [Bool.eq_false_iff, ne_eq, isBlank, inRanges_iff]
      rintro ⟨range, hrange, hlow, hhigh⟩
      have := (lowercaseRuns_blankRanges run hmem range hrange).1
      omega
    have himage : isBlank (Char.ofNat (run.image c.toNat)) = false := by
      rw [Bool.eq_false_iff, ne_eq, isBlank, inRanges_iff]
      rintro ⟨range, hrange, hlow, hhigh⟩
      have hapart := (lowercaseRuns_blankRanges run hmem range hrange).2
      have hpositive : ∀ range ∈ blankRanges, 0 < range.1 := by decide
      have := hpositive range hrange
      -- A number that is no code point gives the character 0, which is no blank.
      by_cases hvalid : (run.image c.toNat).isValidChar
      · have hnat : (Char.ofNat (run.image c.toNat)).toNat = run.image c.toNat := by
          rw [Char.ofNat, dif_pos hvalid]
          exact UInt32.toNat_ofNatLT
        rw [hnat, CaseRun.image] at hlow hhigh
        omega
      · have hnat : (Char.ofNat (run.image c.toNat)).toNat = 0 := by
          rw [Char.ofNat, dif_neg hvalid]
          rfl
        rw [hnat] at hlow
        omega
    rw [himage, hsource]

/-- **The law for one character.**  Its lower case consists of blanks or of other characters, as the
character itself does. -/
theorem isBlank_of_mem_lowerChar {c d : Char} (h : d ∈ lowerChar c) : isBlank d = isBlank c := by
  rw [lowerChar] at h
  split at h
  · rename_i hc
    rw [List.mem_singleton.mp h, isBlank_toLower hc]
  · split at h
    · rename_i hc
      have hblank : isBlank c = false := by
        rw [← Char.ofNat_toNat c, hc]
        decide
      simp only [List.mem_cons, List.not_mem_nil, or_false] at h
      rw [hblank]
      rcases h with rfl | rfl <;> decide
    · rw [List.mem_singleton.mp h, isBlank_mapRuns]

theorem lowerChar_ne_nil (c : Char) : lowerChar c ≠ [] := by
  rw [lowerChar]
  split
  · simp
  · split <;> simp

theorem isBlank_lowerSigma (before after : Text) : isBlank (lowerSigma before after) = false := by
  rw [lowerSigma]
  split <;> decide

/-! ## 2. Texts -/

/-- A text is lower-cased character by character: the lower case of each is not empty and holds
blanks only if the character is one. -/
theorem exists_lowercaseAfter_cons (before : Text) (c : Char) (rest : Text) :
    ∃ image, image ≠ [] ∧ (∀ d ∈ image, isBlank d = isBlank c) ∧
      lowercaseAfter before (c :: rest) = image ++ lowercaseAfter (c :: before) rest := by
  rw [lowercaseAfter]
  split
  · rename_i hc
    refine ⟨[lowerSigma before rest], by simp, ?_, rfl⟩
    intro d hd
    have hsigma : isBlank 'Σ' = false := by decide
    rw [List.mem_singleton.mp hd, isBlank_lowerSigma, hc, hsigma]
  · exact ⟨lowerChar c, lowerChar_ne_nil c, fun d hd => isBlank_of_mem_lowerChar hd, rfl⟩

theorem lowercase_ne_nil {t : Text} (h : t ≠ []) : lowercase t ≠ [] := by
  obtain ⟨c, rest, rfl⟩ := List.exists_cons_of_ne_nil h
  obtain ⟨image, hne, -, heq⟩ := exists_lowercaseAfter_cons [] c rest
  rw [lowercase, heq]
  simp [hne]

theorem head?_lowercase (t : Text) : (lowercase t).head?.map isBlank = t.head?.map isBlank := by
  cases t with
  | nil => rfl
  | cons c rest =>
    obtain ⟨image, hne, hblank, heq⟩ := exists_lowercaseAfter_cons [] c rest
    obtain ⟨d, more, rfl⟩ := List.exists_cons_of_ne_nil hne
    rw [lowercase, heq, List.cons_append, List.head?_cons, List.head?_cons, Option.map_some,
      Option.map_some, hblank d List.mem_cons_self]

theorem getLast?_lowercaseAfter (before t : Text) :
    (lowercaseAfter before t).getLast?.map isBlank = t.getLast?.map isBlank := by
  induction t generalizing before with
  | nil => rfl
  | cons c rest ih =>
    obtain ⟨image, hne, hblank, heq⟩ := exists_lowercaseAfter_cons before c rest
    obtain ⟨init, d, rfl⟩ := List.eq_nil_or_concat' image |>.resolve_left hne
    have hd : isBlank d = isBlank c := hblank d (by simp)
    have hrest := ih (c :: before)
    rw [heq, List.getLast?_append, List.getLast?_cons, List.getLast?_append]
    cases hlower : (lowercaseAfter (c :: before) rest).getLast? <;>
      cases hlast : rest.getLast? <;> simp_all

/-- **The law for texts.**  A text is trimmed if its lower case is. -/
theorem trim_eq_self_iff_lowercase (t : Text) :
    trim (lowercase t) = lowercase t ↔ trim t = t := by
  rw [trim_eq_self_iff, trim_eq_self_iff, head?_lowercase, lowercase, getLast?_lowercaseAfter]

end Text

end HardwareCounters
