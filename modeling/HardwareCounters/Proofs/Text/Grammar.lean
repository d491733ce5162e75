/-
# Grammars that never go back

The texts of descriptors and of lists of terms are given by grammars whose rules are tried in order: the
first alternative that can be read is the one that counts, an optional part that can be read is read,
and a repetition goes on as long as it can.  What has been read is never given back, also where another
choice would let the rest of the grammar succeed.

* `Grammar.read`: what a grammar reads at the start of a text, with the texts of its named rules;
* `repeated_of_none` and `repeated_of_some`: a repetition, round by round;
* `read_many_one` and `read_atLeastOnce_one`: repeated characters are read as a run.
-/
import HardwareCounters.Proofs.Text.Runs
import Mathlib.Data.List.Basic

namespace HardwareCounters

/-- A grammar in which some rules have names. -/
inductive Grammar (ρ : Type) where
  /-- One character of a class. -/
  | one (accepts : Char → Bool)
  /-- These characters. -/
  | exactly (t : Text)
  /-- Nothing, at the end of the text. -/
  | ended
  | inTurn (first second : Grammar ρ)
  /-- The first of two grammars that can be read. -/
  | firstOf (first second : Grammar ρ)
  | maybe (part : Grammar ρ)
  /-- A part as often as it can be read. -/
  | many (part : Grammar ρ)
  | named (name : ρ) (part : Grammar ρ)

namespace Grammar

variable {ρ : Type}

/-- A part as often as it can be read, but at least once. -/
def atLeastOnce (part : Grammar ρ) : Grammar ρ := .inTurn part (.many part)

/-! ## 1. Reading -/

/-- What has been read of a text: how far, and the texts of the named rules in order. -/
structure Reading (ρ : Type) where
  taken : Text
  found : List (ρ × Text)
  rest : Text
  deriving DecidableEq, Repr

namespace Reading

/-- Nothing has been read yet. -/
def start (t : Text) : Reading ρ := ⟨[], [], t⟩

/-- What has been read when the rest of a reading has been read on. -/
def andThen (first second : Reading ρ) : Reading ρ :=
  ⟨first.taken ++ second.taken, first.found ++ second.found, second.rest⟩

/-- The reading as that of a named rule. -/
def under (reading : Reading ρ) (name : ρ) : Reading ρ :=
  { reading with found := (name, reading.taken) :: reading.found }

end Reading

/-- Reads one part after another until no further one can be read, in at most that many rounds. -/
def repeated (part? : Text → Option (Reading ρ)) : Nat → Text → Reading ρ
  | 0, t => .start t
  | rounds + 1, t =>
    match part? t with
    | none => .start t
    | some reading => reading.andThen (repeated part? rounds reading.rest)

/-- What a grammar reads at the start of a text.  A part that is repeated takes a character in every
round, so there are no more rounds than characters. -/
def read : Grammar ρ → Text → Option (Reading ρ)
  | .one _, [] => none
  | .one accepts, c :: rest => if accepts c then some ⟨[c], [], rest⟩ else none
  | .exactly expected, t => (Text.dropFront? expected t).map fun rest => ⟨expected, [], rest⟩
  | .ended, t => if t = [] then some (.start []) else none
  | .inTurn first second, t =>
    (first.read t).bind fun reading => (second.read reading.rest).map reading.andThen
  | .firstOf first second, t => (first.read t).or (second.read t)
  | .maybe part, t => (part.read t).or (some (.start t))
  | .many part, t => some (repeated part.read t.length t)
  | .named name part, t => (part.read t).map fun reading => reading.under name

section Repetition

variable {part? : Text → Option (Reading ρ)} {t : Text}

/-! ## 2. Repetition -/

theorem repeated_of_none (h : part? t = none) (rounds : Nat) :
    repeated part? rounds t = .start t := by
  cases rounds with
  | zero => rfl
  | succ rounds => rw [repeated, h]

theorem repeated_of_some {reading : Reading ρ} (h : part? t = some reading) (rounds : Nat) :
    repeated part? (rounds + 1) t = reading.andThen (repeated part? rounds reading.rest) := by
  rw [repeated, h]

theorem repeated_one (accepts : Char → Bool) {rounds : Nat} (h : t.length ≤ rounds) :
    repeated (one accepts : Grammar ρ).read rounds t =
      ⟨t.takeWhile accepts, [], t.dropWhile accepts⟩ := by
  induction t generalizing rounds with
  | nil => exact repeated_of_none rfl rounds
  | cons c rest ih =>
    obtain ⟨rounds, rfl⟩ := Nat.exists_eq_add_of_le' (Nat.lt_of_lt_of_le (Nat.succ_pos _) h)
    by_cases hc : accepts c = true
    · have hread : (one accepts : Grammar ρ).read (c :: rest) = some ⟨[c], [], rest⟩ := by
        rw [read, if_pos hc]
      rw [repeated_of_some hread, ih (Nat.le_of_succ_le_succ h)]
      simp [Reading.andThen, hc]
    · have hread : (one accepts : Grammar ρ).read (c :: rest) = none := by
        rw [read, if_neg hc]
      rw [repeated_of_none hread]
      simp [Reading.start, hc]

/-- **Repeated characters** are read as a run. -/
theorem read_many_one (accepts : Char → Bool) (t : Text) :
    (many (one accepts) : Grammar ρ).read t =
      some ⟨t.takeWhile accepts, [], t.dropWhile accepts⟩ := by
  rw [read, repeated_one accepts (Nat.le_refl _)]

/-- Characters of which there is at least one are read as a run that is not empty. -/
theorem read_atLeastOnce_one (accepts : Char → Bool) (t : Text) :
    (atLeastOnce (one accepts) : Grammar ρ).read t =
      if t.takeWhile accepts = [] then none
      else some ⟨t.takeWhile accepts, [], t.dropWhile accepts⟩ := by
  rw [atLeastOnce, read]
  cases t with
  | nil => rfl
  | cons c rest =>
    by_cases hc : accepts c = true
    · rw [read, if_pos hc, Option.bind_some, read_many_one]
      simp [Reading.andThen, hc]
    · rw [read, if_neg hc]
      simp [hc]

end Repetition

/-! ## 3. Single characters -/

theorem read_exactly_cons (c : Char) (rest : Text) :
    (exactly [c] : Grammar ρ).read (c :: rest) = some ⟨[c], [], rest⟩ := by
  simp [read, Text.dropFront?]

/-- A text that starts with another character is not read. -/
theorem read_exactly_of_head?_ne {c : Char} {t : Text} (h : t.head? ≠ some c) :
    (exactly [c] : Grammar ρ).read t = none := by
  cases t with
  | nil => rfl
  | cons d rest =>
    have hne : c ≠ d := fun heq => h (heq ▸ rfl)
    simp [read, Text.dropFront?, hne]

end Grammar

end HardwareCounters
