/-
# Lists of processors

The kernel writes a set of processors as numbers and ranges between commas, as in `0-3,8`.  Blank
parts are skipped, the two ends of a range may come in either order, and parts may overlap: what is
read is a set, given in increasing order.

The parts are put into one list before it is ordered, each range in full.  A list of 2^60 numbers would
take 2^63 bytes, which is more than any list may take, and a text can ask for so many in a few
characters.  Reading stops there.

* `mem_collect`: reading keeps exactly the numbers that the parts name;
* `pairwise_collect`: the numbers of the result increase strictly.
-/
import HardwareCounters.Numeral

namespace HardwareCounters

namespace CpuList

/-! ## 1. Sorting and removing repetitions -/

/-- Keeps the first of each run of equal neighbours. -/
def dropRepeats : List Nat → List Nat
  | [] => []
  | [n] => [n]
  | m :: n :: rest => if m = n then dropRepeats (n :: rest) else m :: dropRepeats (n :: rest)

/-- The numbers of a list in increasing order, each once. -/
def collect (cpus : List Nat) : List Nat := dropRepeats (cpus.mergeSort fun m n => decide (m ≤ n))

theorem mem_dropRepeats {n : Nat} (cpus : List Nat) : n ∈ dropRepeats cpus ↔ n ∈ cpus := by
  fun_induction dropRepeats cpus with
  | case1 => rfl
  | case2 => rfl
  | case3 m rest ih => simp [ih]
  | case4 m k rest h ih => simp [ih]

theorem mem_collect {n : Nat} {cpus : List Nat} : n ∈ collect cpus ↔ n ∈ cpus := by
  rw [collect, mem_dropRepeats]
  exact (List.mergeSort_perm cpus _).mem_iff

theorem pairwise_dropRepeats {cpus : List Nat} (h : cpus.Pairwise (· ≤ ·)) :
    (dropRepeats cpus).Pairwise (· < ·) := by
  fun_induction dropRepeats cpus with
  | case1 => exact .nil
  | case2 => simp
  | case3 m rest ih => exact ih (List.pairwise_cons.mp h).2
  | case4 m k rest hne ih =>
    obtain ⟨hm, hrest⟩ := List.pairwise_cons.mp h
    refine List.pairwise_cons.mpr ⟨fun n hn => ?_, ih hrest⟩
    have hk : k ≤ n := by
      rcases List.mem_cons.mp ((mem_dropRepeats _).mp hn) with rfl | hn
      · exact Nat.le_refl _
      · exact (List.pairwise_cons.mp hrest).1 n hn
    have := hm k (by simp)
    omega

theorem pairwise_collect (cpus : List Nat) : (collect cpus).Pairwise (· < ·) := by
  apply pairwise_dropRepeats
  have h : (cpus.mergeSort fun m n => decide (m ≤ n)).Pairwise fun m n => decide (m ≤ n) = true :=
    List.pairwise_mergeSort (fun a b c => by simp only [decide_eq_true_eq]; omega)
      (fun a b => by simp only [Bool.or_eq_true, decide_eq_true_eq]; omega) cpus
  exact h.imp fun hab => by simpa using hab

/-! ## 2. Reading -/

/-- The numbers from the smaller to the larger of two. -/
def between (m n : Nat) : List Nat := List.range' (min m n) (max m n - min m n + 1)

/-- How many numbers that are. -/
def span (m n : Nat) : Nat := max m n - min m n + 1

/-- The most numbers that a list can hold. -/
def maxLength : Nat := 0x0FFFFFFFFFFFFFFF

/-- Why a list is not read. -/
inductive ReadFault where
  | malformed (cause : NumberError)
  /-- There is no room for the processors that are named. -/
  | noRoom
  deriving DecidableEq, Repr

/-- The two ends of what a part names: two numbers around its first `-`, or one number that is both. -/
def readEnds (part : Text) : Except NumberError (Nat × Nat) :=
  match Text.cut? '-' part with
  | none => (Numeral.readUnsigned 10 Numeral.limit64 part).map fun n => (n, n)
  | some (before, after) => do
    let m ← Numeral.readUnsigned 10 Numeral.limit64 (Text.trim before)
    let n ← Numeral.readUnsigned 10 Numeral.limit64 (Text.trim after)
    return (m, n)

/-- Adds the processors that a part names to those of earlier parts, if there is room for them. -/
def readPart (cpus : List Nat) (part : Text) : Except ReadFault (List Nat) :=
  match readEnds part with
  | .error e => .error (.malformed e)
  | .ok (m, n) =>
    if cpus.length + span m n ≤ maxLength then .ok (cpus ++ between m n) else .error .noRoom

/-- Adds the processors that the parts name, one part after another. -/
def readParts (cpus : List Nat) : List Text → Except ReadFault (List Nat)
  | [] => .ok cpus
  | part :: parts => (readPart cpus part).bind fun more => readParts more parts

/-- The parts between commas that are not blank, without the blanks around them. -/
def parts (t : Text) : List Text :=
  ((Text.splitOn ',' (Text.trim t)).map Text.trim).filter (· ≠ [])

/-- Reads a list of processors. -/
def read (t : Text) : Except ReadFault (List Nat) := (readParts [] (parts t)).map collect

end CpuList

end HardwareCounters
