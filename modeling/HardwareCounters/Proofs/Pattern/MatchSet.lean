/-
# What a pattern matches

Whether a pattern matches a text depends on the text and on whether it stands at an end of the text
around it.  So what is matched is a set of texts with these two facts, and the pattern's operators are
operators on such sets.

* `MatchSet.inTurn`, `either`, `times`, `upTo`, `anyTimes`: one match after another, in one or several
  ways;
* `Pattern.matched`: what a pattern matches, and `Pattern.OccursIn` that it matches a part of a text;
* `MatchSet.anyTimes_cons`: a row of matches that takes a character has a first match that takes one.
-/
import HardwareCounters.Pattern.Basic
import HardwareCounters.Proofs.Pattern.Classes

namespace HardwareCounters

/-- A set of matches.  A match is a text, with whether nothing stands before it and whether nothing
stands after it. -/
abbrev MatchSet := Bool → Text → Bool → Prop

namespace MatchSet

/-! ## 1. Operators -/

/-- Matches of no character, at some spots. -/
def nothing (p : Bool → Bool → Prop) : MatchSet := fun before t after => t = [] ∧ p before after

/-- The match of no character, wherever it stands. -/
def unit : MatchSet := nothing fun _ _ => True

/-- Matches of one character. -/
def one (p : Char → Prop) : MatchSet := fun _ t _ => ∃ c, p c ∧ t = [c]

/-- One match after another. -/
def inTurn (first second : MatchSet) : MatchSet := fun before t after =>
  ∃ u v, u ++ v = t ∧ first before u (after && v.isEmpty) ∧ second (before && u.isEmpty) v after

/-- A match in one way or another. -/
def either (first second : MatchSet) : MatchSet := fun before t after =>
  first before t after ∨ second before t after

/-- So many matches in a row. -/
def times (body : MatchSet) : Nat → MatchSet
  | 0 => unit
  | n + 1 => body.inTurn (body.times n)

/-- At most so many matches in a row. -/
def upTo (body : MatchSet) (n : Nat) : MatchSet := fun before t after =>
  ∃ k ≤ n, body.times k before t after

/-- Any number of matches in a row. -/
def anyTimes (body : MatchSet) : MatchSet := fun before t after => ∃ k, body.times k before t after

/-! ## 2. Laws -/

variable {first second third body : MatchSet}

theorem ext {first second : MatchSet}
    (h : ∀ before t after, first before t after ↔ second before t after) : first = second :=
  funext fun before => funext fun t => funext fun after => propext (h before t after)

@[simp] theorem unit_inTurn (body : MatchSet) : unit.inTurn body = body := by
  refine ext fun before t after => ⟨?_, fun h => ⟨[], t, rfl, ⟨rfl, trivial⟩, by simpa using h⟩⟩
  rintro ⟨u, v, rfl, ⟨rfl, -⟩, h⟩
  simpa using h

@[simp] theorem inTurn_unit (body : MatchSet) : body.inTurn unit = body := by
  refine ext fun before t after => ⟨?_, fun h => ⟨t, [], by simp, by simpa using h, rfl, trivial⟩⟩
  rintro ⟨u, v, rfl, h, rfl, -⟩
  simpa using h

theorem inTurn_assoc (first second third : MatchSet) :
    (first.inTurn second).inTurn third = first.inTurn (second.inTurn third) := by
  refine ext fun before t after => ⟨?_, ?_⟩
  · rintro ⟨_, w, rfl, ⟨u, v, rfl, hu, hv⟩, hw⟩
    refine ⟨u, v ++ w, by simp, ?_, v, w, rfl, hv, ?_⟩
    · cases v <;> cases w <;> simp_all
    · cases u <;> cases v <;> simp_all
  · rintro ⟨u, _, rfl, hu, v, w, rfl, hv, hw⟩
    refine ⟨u ++ v, w, by simp, ⟨u, v, rfl, ?_, hv⟩, ?_⟩
    · cases v <;> cases w <;> simp_all
    · cases u <;> cases v <;> simp_all

theorem either_inTurn (first second third : MatchSet) :
    (first.either second).inTurn third = (first.inTurn third).either (second.inTurn third) := by
  refine ext fun before t after => ⟨?_, ?_⟩
  · rintro ⟨u, v, h, hu | hu, hv⟩
    · exact Or.inl ⟨u, v, h, hu, hv⟩
    · exact Or.inr ⟨u, v, h, hu, hv⟩
  · rintro (⟨u, v, h, hu, hv⟩ | ⟨u, v, h, hu, hv⟩)
    · exact ⟨u, v, h, Or.inl hu, hv⟩
    · exact ⟨u, v, h, Or.inr hu, hv⟩

theorem times_add (body : MatchSet) (m n : Nat) :
    body.times (m + n) = (body.times m).inTurn (body.times n) := by
  induction m with
  | zero => rw [Nat.zero_add, times, unit_inTurn]
  | succ m ih => rw [Nat.add_right_comm, times, ih, times, inTurn_assoc]

theorem times_one (body : MatchSet) : body.times 1 = body := inTurn_unit body

theorem times_succ (body : MatchSet) (n : Nat) : body.times (n + 1) = (body.times n).inTurn body := by
  rw [times_add, times_one]

theorem upTo_zero (body : MatchSet) : body.upTo 0 = unit := by
  refine ext fun before t after => ⟨?_, fun h => ⟨0, Nat.le_refl 0, h⟩⟩
  rintro ⟨k, hk, h⟩
  rwa [Nat.le_zero.mp hk] at h

theorem upTo_succ (body : MatchSet) (n : Nat) :
    body.upTo (n + 1) = unit.either (body.inTurn (body.upTo n)) := by
  refine ext fun before t after => ⟨?_, ?_⟩
  · rintro ⟨_ | k, hk, h⟩
    · exact Or.inl h
    · obtain ⟨u, v, huv, hu, hv⟩ := h
      exact Or.inr ⟨u, v, huv, hu, k, Nat.le_of_succ_le_succ hk, hv⟩
  · rintro (h | ⟨u, v, huv, hu, k, hk, hv⟩)
    · exact ⟨0, Nat.zero_le _, h⟩
    · exact ⟨k + 1, Nat.succ_le_succ hk, u, v, huv, hu, hv⟩

/-- What may be left out, so many times. -/
theorem times_unit_either (body : MatchSet) (n : Nat) :
    (unit.either body).times n = body.upTo n := by
  induction n with
  | zero => exact (upTo_zero body).symm
  | succ n ih =>
    rw [times, ih, either_inTurn, unit_inTurn]
    refine ext fun before t after => ⟨?_, ?_⟩
    · rintro (⟨k, hk, h⟩ | h)
      · exact ⟨k, Nat.le_succ_of_le hk, h⟩
      · rw [upTo_succ]
        exact Or.inr h
    · rw [upTo_succ]
      rintro (h | h)
      · exact Or.inl ⟨0, Nat.zero_le n, h⟩
      · exact Or.inr h

/-- At least so many matches in a row. -/
theorem times_inTurn_anyTimes (body : MatchSet) (n : Nat) :
    (body.times n).inTurn body.anyTimes =
      fun before t after => ∃ m ≥ n, body.times m before t after := by
  refine ext fun before t after => ⟨?_, ?_⟩
  · rintro ⟨u, v, huv, hu, k, hv⟩
    exact ⟨n + k, Nat.le_add_right n k, times_add body n k ▸ ⟨u, v, huv, hu, hv⟩⟩
  · rintro ⟨m, hm, h⟩
    obtain ⟨k, rfl⟩ := Nat.exists_eq_add_of_le hm
    rw [times_add] at h
    obtain ⟨u, v, huv, hu, hv⟩ := h
    exact ⟨u, v, huv, hu, k, hv⟩

/-- At least so many matches in a row, and not many more. -/
theorem times_inTurn_upTo (body : MatchSet) (n more : Nat) :
    (body.times n).inTurn (body.upTo more) =
      fun before t after => ∃ m ≥ n, m ≤ n + more ∧ body.times m before t after := by
  refine ext fun before t after => ⟨?_, ?_⟩
  · rintro ⟨u, v, huv, hu, k, hk, hv⟩
    exact ⟨n + k, Nat.le_add_right n k, Nat.add_le_add_left hk n,
      times_add body n k ▸ ⟨u, v, huv, hu, hv⟩⟩
  · rintro ⟨m, hm, hmore, h⟩
    obtain ⟨k, rfl⟩ := Nat.exists_eq_add_of_le hm
    rw [times_add] at h
    obtain ⟨u, v, huv, hu, hv⟩ := h
    exact ⟨u, v, huv, hu, k, Nat.le_of_add_le_add_left hmore, hv⟩

theorem exists_append_eq_nil {P : Text → Text → Prop} :
    (∃ u v, u ++ v = [] ∧ P u v) ↔ P [] [] := by
  constructor
  · rintro ⟨u, v, huv, h⟩
    obtain ⟨rfl, rfl⟩ := List.append_eq_nil_iff.mp huv
    exact h
  · intro h
    exact ⟨[], [], rfl, h⟩

/-- Where a text that starts with a character can be cut in two. -/
theorem exists_append_eq_cons {c : Char} {t : Text} {P : Text → Text → Prop} :
    (∃ u v, u ++ v = c :: t ∧ P u v) ↔ P [] (c :: t) ∨ ∃ u v, u ++ v = t ∧ P (c :: u) v := by
  constructor
  · rintro ⟨_ | ⟨d, u⟩, v, huv, h⟩
    · obtain rfl : v = c :: t := huv
      exact Or.inl h
    · obtain ⟨rfl, rfl⟩ := List.cons.inj huv
      exact Or.inr ⟨u, v, rfl, h⟩
  · rintro (h | ⟨u, v, rfl, h⟩)
    · exact ⟨[], c :: t, rfl, h⟩
    · exact ⟨c :: u, v, rfl, h⟩

theorem inTurn_cons {before after : Bool} {c : Char} {t : Text} :
    first.inTurn second before (c :: t) after ↔
      (first before [] false ∧ second before (c :: t) after) ∨
        ∃ u v, u ++ v = t ∧ first before (c :: u) (after && v.isEmpty) ∧ second false v after := by
  rw [inTurn, exists_append_eq_cons]
  simp

/-- **A row of matches that takes a character** has matches of nothing, if any, and then one that takes
the character. -/
theorem anyTimes_cons {before after : Bool} {c : Char} {t : Text} :
    body.anyTimes before (c :: t) after ↔
      ∃ u v, u ++ v = t ∧ body before (c :: u) (after && v.isEmpty) ∧ body.anyTimes false v after := by
  constructor
  · rintro ⟨k, hk⟩
    induction k with
    | zero => cases hk.1
    | succ k ih =>
      rcases inTurn_cons.mp hk with ⟨-, hk⟩ | ⟨u, v, huv, hu, hv⟩
      · exact ih hk
      · exact ⟨u, v, huv, hu, k, hv⟩
  · rintro ⟨u, v, huv, hu, k, hv⟩
    exact ⟨k + 1, inTurn_cons.mpr (Or.inr ⟨u, v, huv, hu, hv⟩)⟩

theorem anyTimes_nil (body : MatchSet) (before after : Bool) : body.anyTimes before [] after :=
  ⟨0, rfl, trivial⟩

end MatchSet

/-! ## 3. Patterns -/

/-- What a pattern matches. -/
def Pattern.matched : Pattern → MatchSet
  | .empty => .unit
  | .char charClass => .one charClass.Takes
  | .start => .nothing fun before _ => before = true
  | .finish => .nothing fun _ after => after = true
  | .group body => body.matched
  | .seq first second => first.matched.inTurn second.matched
  | .alt first second => first.matched.either second.matched
  | .repeated body least none => fun before t after =>
    ∃ n ≥ least, body.matched.times n before t after
  | .repeated body least (some more) => fun before t after =>
    ∃ n ≥ least, n ≤ least + more ∧ body.matched.times n before t after

/-- The pattern matches a part of the text, as this part stands in the text. -/
def Pattern.OccursIn (pattern : Pattern) (t : Text) : Prop :=
  ∃ front found back, front ++ found ++ back = t ∧ pattern.matched front.isEmpty found back.isEmpty

end HardwareCounters
