/-
# Runs of characters

A reader that takes the characters of a class as long as there are any, and never gives one back, reads
a run.  Where a run ends is decided by the character behind it alone, so a text has at most one
division into a run of a class and a rest that does not go on with the class.

* `Run`: a text is the whole run of a class in front of a rest;
* `run_takeWhile`: every text starts with a run, `Run.takeWhile_eq` and `Run.dropWhile_eq`: which one;
* `Run.unique`: there is no second one;
* `append_cons_inj`: nor a second division at the last separator.
-/
import HardwareCounters.Text.Basic

namespace HardwareCounters

namespace Text

/-- The text is the run of the characters of a class in front of the rest. -/
structure Run (p : Char → Bool) (t rest : Text) : Prop where
  inside : ∀ c ∈ t, p c = true
  stops : ∀ c ∈ rest.head?, p c = false

variable {p : Char → Bool} {t rest : Text}

/-- Every text starts with a run, which may be empty. -/
theorem run_takeWhile (p : Char → Bool) (t : Text) : Run p (t.takeWhile p) (t.dropWhile p) := by
  constructor
  · intro c hc
    exact List.all_eq_true.mp List.all_takeWhile c hc
  · intro c hc
    have hhead := List.head?_dropWhile_not p t
    rw [Option.mem_def.mp hc] at hhead
    simpa using hhead

theorem Run.takeWhile_eq (h : Run p t rest) : (t ++ rest).takeWhile p = t := by
  rw [List.takeWhile_append_of_pos h.inside]
  cases rest with
  | nil => simp
  | cons c rest =>
    have hc : p c = false := h.stops c rfl
    simp [hc]

theorem Run.dropWhile_eq (h : Run p t rest) : (t ++ rest).dropWhile p = rest := by
  rw [List.dropWhile_append_of_pos h.inside]
  cases rest with
  | nil => rfl
  | cons c rest =>
    have hc : p c = false := h.stops c rfl
    simp [hc]

/-- **One division.**  A text is divided into a run and a rest in one way. -/
theorem Run.unique {other otherRest : Text} (h : Run p t rest) (hother : Run p other otherRest)
    (heq : t ++ rest = other ++ otherRest) : t = other ∧ rest = otherRest := by
  constructor
  · rw [← h.takeWhile_eq, heq, hother.takeWhile_eq]
  · rw [← h.dropWhile_eq, heq, hother.dropWhile_eq]

/-- A text without a separator is the run of other characters in front of the separator. -/
theorem run_of_not_mem {sep : Char} (h : sep ∉ t) (hstop : ∀ c ∈ rest.head?, c = sep) :
    Run (· != sep) t rest where
  inside c hc := by
    have hne : c ≠ sep := fun heq => h (heq ▸ hc)
    simpa using hne
  stops c hc := by simp [hstop c hc]

/-- **One last separator.**  Texts whose parts behind a separator hold no further one are equal only if
both parts are. -/
theorem append_cons_inj {sep : Char} {other otherRest : Text} (h : sep ∉ rest)
    (hother : sep ∉ otherRest) :
    t ++ sep :: rest = other ++ sep :: otherRest ↔ t = other ∧ rest = otherRest := by
  have hrun : ∀ {back : Text} (front : Text), sep ∉ back →
      Run (· != sep) back.reverse (sep :: front.reverse) :=
    fun _ hback => run_of_not_mem (mt List.mem_reverse.mp hback) fun _ hc => (Option.some.inj hc).symm
  constructor
  · intro heq
    have hreverse := congrArg List.reverse heq
    simp only [List.reverse_append, List.reverse_cons, List.append_assoc,
      List.singleton_append] at hreverse
    obtain ⟨hrest, hfront⟩ := (hrun t h).unique (hrun other hother) hreverse
    exact ⟨List.reverse_inj.mp (List.cons.inj hfront).2, List.reverse_inj.mp hrest⟩
  · rintro ⟨rfl, rfl⟩
    rfl

/-- What holds of all characters of a text can be found out from one after another. -/
theorem forall_mem_of_all {holds : Char → Prop} [DecidablePred holds]
    (h : t.all (fun c => decide (holds c)) = true) : ∀ c ∈ t, holds c :=
  fun c hc => of_decide_eq_true (List.all_eq_true.mp h c hc)

/-- A text that does not go on from two characters does not start with them. -/
theorem dropFront?_pair {c d : Char} (h : ∀ rest, t ≠ c :: d :: rest) :
    dropFront? [c, d] t = none := by
  match t, h with
  | [], _ => simp [dropFront?]
  | [a], _ => simp [dropFront?]
  | a :: b :: rest, h =>
    have hne : ¬ (c = a ∧ d = b) := by
      rintro ⟨rfl, rfl⟩
      exact h rest rfl
    rw [dropFront?, if_neg]
    simpa using hne

/-- A character, where there is one. -/
def charIf (c : Char) (present : Bool) : Text := if present then [c] else []

end Text

end HardwareCounters
