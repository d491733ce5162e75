/-
# The language of lists of processors

A list of processors stands for a set: its parts may be blank, overlap or repeat each other, and give
the two ends of a range in either order, and what is read is the set in increasing order.  So two
things are said of a list here, how its parts are written and which processors they name.

A list that is so written is read as the processors that it names, unless it is crowded: its parts are
put one behind another before repetitions are dropped, and there is no room for more than
`CpuList.maxLength` numbers.  Short texts can be crowded, and reading one stops the program.

* `SpellsNumber` and `SpellsPart`: how a number and a part are written;
* `WellFormed` and `Names`: which texts are lists, and which processors they name;
* `Length` and `Crowded`: how many numbers parts ask for, and when these are too many;
* `readEnds_eq_ok_iff`: what is read in one part; `exists_readParts_iff`, `readParts_eq_noRoom_iff` and
  `mem_of_readParts`: in all of them;
* `exists_read_iff`, `read_eq_noRoom_iff` and `mem_iff_names_of_read`: what is read in a text, and
  `Sysfs.listAt_eq_some_iff` and `Sysfs.listAt_eq_error_iff` in a file;
* `read_language`: the language of lists, and the PMUs whose list names processor 0 alone;
* `crowdedRange_not_read`: a list that is well-formed and is not read.
-/
import HardwareCounters.Proofs.FileTree.Reading
import HardwareCounters.Proofs.Numeral.Language
import HardwareCounters.Proofs.Text.Joining
import HardwareCounters.Sysfs.Basic
import Mathlib.Data.List.Sort

namespace HardwareCounters

namespace CpuList

/-! ## 1. How lists are written -/

/-- The text is the number of a processor: decimal digits behind one plus sign or none. -/
def SpellsNumber (t : Text) (n : Nat) : Prop :=
  ∃ plus digits, Text.charIf '+' plus ++ digits = t ∧ digits ≠ [] ∧ Numeral.Denotes 10 digits n ∧
    n < 2 ^ 64

/-- The text is a number, or two numbers with the first `-` between them.  They are the two ends of
what it names. -/
inductive SpellsPart : Text → Nat → Nat → Prop
  | number {t : Text} {n : Nat} (h : SpellsNumber t n) : SpellsPart t n n
  | range {before after : Text} {m n : Nat} (hdash : '-' ∉ before)
      (hbefore : SpellsNumber (Text.trim before) m) (hafter : SpellsNumber (Text.trim after) n) :
      SpellsPart (before ++ '-' :: after) m n

/-- Every part between commas that is not blank is a number or a range, with blanks around it. -/
def WellFormed (t : Text) : Prop :=
  ∀ part ∈ Text.splitOn ',' t, ¬ Text.AllBlank part → ∃ m n, SpellsPart (Text.trim part) m n

/-- A part names the processors from the smaller of its ends to the larger. -/
def PartNames (part : Text) (cpu : Nat) : Prop :=
  ∃ m n, SpellsPart part m n ∧ min m n ≤ cpu ∧ cpu ≤ max m n

/-- Some part between commas names the processor. -/
def Names (t : Text) (cpu : Nat) : Prop :=
  ∃ part ∈ Text.splitOn ',' t, PartNames (Text.trim part) cpu

/-- The parts name so many processors, each counted as often as it is named. -/
inductive Length : List Text → Nat → Prop
  | nil : Length [] 0
  | cons {part : Text} {pieces : List Text} {m n k : Nat} (h : SpellsPart part m n)
      (hrest : Length pieces k) : Length (part :: pieces) (span m n + k)

/-- The parts at the start of the list name more processors than a list can hold. -/
def Crowded (t : Text) : Prop := ∃ front k, front <+: parts t ∧ Length front k ∧ maxLength < k

/-! ## 2. Parts -/

section Parts

variable {t part before after : Text} {m n k cpu : Nat} {cpus : List Nat} {pieces : List Text}

theorem readUnsigned_eq_ok_iff :
    Numeral.readUnsigned 10 Numeral.limit64 t = .ok n ↔ SpellsNumber t n :=
  Numeral.readUnsigned_eq_ok_iff (by decide) (by decide)

theorem SpellsNumber.ne_nil (h : SpellsNumber t n) : t ≠ [] := by
  obtain ⟨plus, digits, rfl, hne, -⟩ := h
  exact List.append_ne_nil_of_right_ne_nil _ hne

theorem SpellsNumber.dash_not_mem (h : SpellsNumber t n) : '-' ∉ t :=
  Numeral.not_mem_of_readUnsigned (Numeral.noDigit_of_outside (by decide)) (by decide)
    (readUnsigned_eq_ok_iff.mpr h)

theorem SpellsPart.ne_nil (h : SpellsPart part m n) : part ≠ [] := by
  cases h with
  | number h => exact h.ne_nil
  | range => exact List.append_ne_nil_of_right_ne_nil _ (List.cons_ne_nil _ _)

theorem SpellsPart.lt (h : SpellsPart part m n) : m < 2 ^ 64 ∧ n < 2 ^ 64 := by
  cases h with
  | number h =>
    obtain ⟨_, _, -, -, -, hlt⟩ := h
    exact ⟨hlt, hlt⟩
  | range _ hbefore hafter =>
    obtain ⟨_, _, -, -, -, hm⟩ := hbefore
    obtain ⟨_, _, -, -, -, hn⟩ := hafter
    exact ⟨hm, hn⟩

theorem spellsPart_iff_of_not_mem (hdash : '-' ∉ part) :
    SpellsPart part m n ↔ m = n ∧ SpellsNumber part n := by
  constructor
  · intro h
    cases h with
    | number h => exact ⟨rfl, h⟩
    | range => exact absurd (List.mem_append_right _ List.mem_cons_self) hdash
  · rintro ⟨rfl, h⟩
    exact .number h

theorem spellsPart_append_iff (hdash : '-' ∉ before) :
    SpellsPart (before ++ '-' :: after) m n ↔
      SpellsNumber (Text.trim before) m ∧ SpellsNumber (Text.trim after) n := by
  refine ⟨fun h => ?_, fun h => .range hdash h.1 h.2⟩
  generalize hpart : before ++ '-' :: after = part at h
  cases h with
  | number h =>
    have hmem : '-' ∈ part := hpart ▸ List.mem_append_right _ List.mem_cons_self
    exact absurd hmem h.dash_not_mem
  | range hother hbefore hafter =>
    have hcut := congrArg (Text.cut? '-') hpart
    rw [Text.cut?_append _ hdash, Text.cut?_append _ hother] at hcut
    obtain ⟨rfl, rfl⟩ := Prod.mk.inj (Option.some.inj hcut)
    exact ⟨hbefore, hafter⟩

theorem mem_between : cpu ∈ between m n ↔ min m n ≤ cpu ∧ cpu ≤ max m n := by
  rw [between, List.mem_range'_1]
  omega

theorem length_between (m n : Nat) : (between m n).length = span m n := List.length_range'

/-- A part is read in front of and behind its first `-`. -/
theorem readEnds_append (hdash : '-' ∉ before) (after : Text) :
    readEnds (before ++ '-' :: after) =
      (Numeral.readUnsigned 10 Numeral.limit64 (Text.trim before)).bind fun m =>
        (Numeral.readUnsigned 10 Numeral.limit64 (Text.trim after)).map fun n => (m, n) := by
  rw [readEnds, Text.cut?_append after hdash]
  rfl

/-- **What is read in one part** are its two ends. -/
theorem readEnds_eq_ok_iff : readEnds part = .ok (m, n) ↔ SpellsPart part m n := by
  by_cases hdash : '-' ∈ part
  · obtain ⟨before, after, rfl, hbefore⟩ := List.eq_append_cons_of_mem hdash
    simp only [spellsPart_append_iff hbefore, ← readUnsigned_eq_ok_iff, readEnds_append hbefore]
    cases Numeral.readUnsigned 10 Numeral.limit64 (Text.trim before) with
    | error e => simp [Except.bind]
    | ok low =>
      cases Numeral.readUnsigned 10 Numeral.limit64 (Text.trim after) with
      | error e => simp [Except.bind, Except.map]
      | ok high => simp [Except.bind, Except.map]
  · rw [spellsPart_iff_of_not_mem hdash, ← readUnsigned_eq_ok_iff, readEnds, Text.cut?_eq_none hdash]
    cases Numeral.readUnsigned 10 Numeral.limit64 part with
    | error e => simp [Except.map]
    | ok found =>
      simp only [Except.map, Except.ok.injEq, Prod.mk.injEq]
      exact ⟨fun ⟨hm, hn⟩ => ⟨hm.symm.trans hn, hn⟩, fun ⟨hm, hn⟩ => ⟨hn.trans hm.symm, hn⟩⟩

/-- A part has two ends at most in one way. -/
theorem SpellsPart.unique {low high : Nat} (h : SpellsPart part m n)
    (hother : SpellsPart part low high) : low = m ∧ high = n := by
  rw [← readEnds_eq_ok_iff] at h hother
  exact Prod.mk.inj (Except.ok.inj (hother.symm.trans h))

theorem mem_between_iff_of_spells (h : SpellsPart part m n) :
    cpu ∈ between m n ↔ PartNames part cpu := by
  rw [mem_between]
  constructor
  · exact fun hcpu => ⟨m, n, h, hcpu⟩
  · rintro ⟨low, high, hother, hcpu⟩
    obtain ⟨rfl, rfl⟩ := h.unique hother
    exact hcpu

theorem readParts_append (cpus : List Nat) (pieces others : List Text) :
    readParts cpus (pieces ++ others) =
      (readParts cpus pieces).bind fun more => readParts more others := by
  induction pieces generalizing cpus with
  | nil => rfl
  | cons part pieces ih =>
    rw [List.cons_append, readParts, readParts]
    cases readPart cpus part with
    | error e => rfl
    | ok more => exact ih more

/-- A part is read as long as there is room. -/
theorem readPart_of_spells (h : SpellsPart part m n) (cpus : List Nat) :
    readPart cpus part =
      if cpus.length + span m n ≤ maxLength then .ok (cpus ++ between m n) else .error .noRoom := by
  rw [readPart, readEnds_eq_ok_iff.mpr h]

theorem readPart_of_not_spells (h : ¬ ∃ m n, SpellsPart part m n) (cpus : List Nat) :
    ∃ e, readPart cpus part = .error (.malformed e) := by
  cases hends : readEnds part with
  | error e => exact ⟨e, by rw [readPart, hends]⟩
  | ok ends => exact absurd ⟨ends.1, ends.2, readEnds_eq_ok_iff.mp hends⟩ h

/-- **Parts that spell something** are read if there is room for all of them, and stop the program if
there is none. -/
theorem readParts_of_length (h : Length pieces k) (hcpus : cpus.length ≤ maxLength) :
    (cpus.length + k ≤ maxLength → ∃ found, readParts cpus pieces = .ok found) ∧
      (maxLength < cpus.length + k → readParts cpus pieces = .error .noRoom) := by
  induction h generalizing cpus with
  | nil => exact ⟨fun _ => ⟨cpus, rfl⟩, fun hlt => absurd hlt (Nat.not_lt.mpr hcpus)⟩
  | @cons part pieces m n k hspells _ ih =>
    rw [readParts, readPart_of_spells hspells]
    by_cases hroom : cpus.length + span m n ≤ maxLength
    · have hlength : (cpus ++ between m n).length = cpus.length + span m n := by
        rw [List.length_append, length_between]
      have hgrown : (cpus ++ between m n).length ≤ maxLength := hlength ▸ hroom
      obtain ⟨hok, hfull⟩ := ih hgrown
      rw [hlength, Nat.add_assoc] at hok hfull
      rw [if_pos hroom]
      exact ⟨hok, hfull⟩
    · rw [if_neg hroom]
      exact ⟨fun hle => absurd (by omega) hroom, fun _ => rfl⟩

/-- The same for a whole list. -/
theorem readParts_nil_of_length (h : Length pieces k) :
    (k ≤ maxLength → ∃ found, readParts [] pieces = .ok found) ∧
      (maxLength < k → readParts [] pieces = .error .noRoom) := by
  have hempty : ([] : List Nat).length ≤ maxLength := Nat.zero_le _
  simpa only [List.length_nil, Nat.zero_add] using readParts_of_length h hempty

theorem Length.spells (h : Length pieces k) : ∀ part ∈ pieces, ∃ m n, SpellsPart part m n := by
  induction h with
  | nil => exact fun _ hmem => nomatch hmem
  | cons hspells _ ih => exact List.forall_mem_cons.mpr ⟨⟨_, _, hspells⟩, ih⟩

/-- Either all parts spell something, or there is a first one that does not. -/
theorem exists_length_or_split (pieces : List Text) :
    (∃ k, Length pieces k) ∨ ∃ front k part rest, pieces = front ++ part :: rest ∧
      Length front k ∧ ¬ ∃ m n, SpellsPart part m n := by
  induction pieces with
  | nil => exact Or.inl ⟨0, .nil⟩
  | cons part pieces ih =>
    by_cases hpart : ∃ m n, SpellsPart part m n
    · obtain ⟨m, n, hspells⟩ := hpart
      rcases ih with ⟨k, hk⟩ | ⟨front, k, other, rest, rfl, hk, hother⟩
      · exact Or.inl ⟨_, .cons hspells hk⟩
      · exact Or.inr ⟨part :: front, _, other, rest, rfl, .cons hspells hk, hother⟩
    · exact Or.inr ⟨[], 0, part, pieces, rfl, .nil, hpart⟩

/-- Behind a part that spells nothing no more parts are read. -/
theorem readParts_of_split {front : List Text} (rest : List Text) (hfront : Length front k)
    (hpart : ¬ ∃ m n, SpellsPart part m n) :
    (k ≤ maxLength → ∃ e, readParts [] (front ++ part :: rest) = .error (.malformed e)) ∧
      (maxLength < k → readParts [] (front ++ part :: rest) = .error .noRoom) := by
  obtain ⟨hok, hfull⟩ := readParts_nil_of_length hfront
  rw [readParts_append]
  constructor
  · intro hle
    obtain ⟨found, hfound⟩ := hok hle
    obtain ⟨e, he⟩ := readPart_of_not_spells hpart found
    refine ⟨e, ?_⟩
    rw [hfound, Except.bind, readParts, he]
    rfl
  · intro hlt
    rw [hfull hlt]
    rfl

/-- Parts are read if and only if each of them spells something and there is room for all. -/
theorem exists_readParts_iff :
    (∃ found, readParts [] pieces = .ok found) ↔ ∃ k ≤ maxLength, Length pieces k := by
  constructor
  · rintro ⟨found, hfound⟩
    rcases exists_length_or_split pieces with ⟨k, hk⟩ | ⟨front, k, part, rest, rfl, hk, hpart⟩
    · refine ⟨k, Nat.le_of_not_lt fun hlt => ?_, hk⟩
      rw [(readParts_nil_of_length hk).2 hlt] at hfound
      cases hfound
    · obtain ⟨hmalformed, hfull⟩ := readParts_of_split rest hk hpart
      rcases Nat.lt_or_ge maxLength k with hlt | hle
      · rw [hfull hlt] at hfound
        cases hfound
      · obtain ⟨e, he⟩ := hmalformed hle
        rw [he] at hfound
        cases hfound
  · rintro ⟨k, hle, hk⟩
    exact (readParts_nil_of_length hk).1 hle

/-- Reading stops if and only if there is no room for the parts at the start. -/
theorem readParts_eq_noRoom_iff :
    readParts [] pieces = .error .noRoom ↔
      ∃ front k, front <+: pieces ∧ Length front k ∧ maxLength < k := by
  constructor
  · intro hfull
    rcases exists_length_or_split pieces with ⟨k, hk⟩ | ⟨front, k, part, rest, rfl, hk, hpart⟩
    · refine ⟨pieces, k, List.prefix_rfl, hk, Nat.lt_of_not_le fun hle => ?_⟩
      obtain ⟨found, hfound⟩ := exists_readParts_iff.mpr ⟨k, hle, hk⟩
      rw [hfound] at hfull
      cases hfull
    · refine ⟨front, k, List.prefix_append _ _, hk, Nat.lt_of_not_le fun hle => ?_⟩
      obtain ⟨e, he⟩ := (readParts_of_split rest hk hpart).1 hle
      rw [he] at hfull
      cases hfull
  · rintro ⟨front, k, ⟨rest, rfl⟩, hk, hlt⟩
    rw [readParts_append, (readParts_nil_of_length hk).2 hlt]
    rfl

/-- **What is read in all parts** are the processors that some part names, behind those that were there
before. -/
theorem mem_of_readParts {found : List Nat} (h : readParts cpus pieces = .ok found) :
    cpu ∈ found ↔ cpu ∈ cpus ∨ ∃ part ∈ pieces, PartNames part cpu := by
  induction pieces generalizing cpus with
  | nil =>
    obtain rfl := Except.ok.inj h
    simp
  | cons part pieces ih =>
    rw [readParts] at h
    by_cases hpart : ∃ m n, SpellsPart part m n
    · obtain ⟨m, n, hspells⟩ := hpart
      rw [readPart_of_spells hspells] at h
      split at h
      · rw [ih h, List.mem_append, mem_between_iff_of_spells hspells, List.exists_mem_cons_iff,
          or_assoc]
      · cases h
    · obtain ⟨e, herror⟩ := readPart_of_not_spells hpart cpus
      rw [herror] at h
      cases h

end Parts

/-! ## 3. Lists -/

section Lists

variable {t : Text} {cpu : Nat} {cpus : List Nat}

/-- Blanks around a list are not seen in its parts. -/
theorem mem_parts_iff {part : Text} :
    part ∈ parts t ↔ part ≠ [] ∧ ∃ piece ∈ Text.splitOn ',' t, Text.trim piece = part := by
  rw [parts, Text.map_splitOn_trim (by decide) Text.trim_surround, List.mem_filter, List.mem_map,
    decide_eq_true_iff, and_comm]

theorem wellFormed_iff : WellFormed t ↔ ∃ k, Length (parts t) k := by
  have hparts : WellFormed t ↔ ∀ part ∈ parts t, ∃ m n, SpellsPart part m n := by
    simp only [WellFormed, mem_parts_iff, ← Text.trim_eq_nil_iff]
    constructor
    · rintro h _ ⟨hne, piece, hpiece, rfl⟩
      exact h piece hpiece hne
    · intro h piece hpiece hne
      exact h _ ⟨hne, piece, hpiece, rfl⟩
  rw [hparts]
  constructor
  · intro h
    rcases exists_length_or_split (parts t) with hlength | ⟨front, k, part, rest, hsplit, -, hpart⟩
    · exact hlength
    · refine absurd (h part ?_) hpart
      rw [hsplit]
      exact List.mem_append_right front List.mem_cons_self
  · rintro ⟨k, hk⟩
    exact hk.spells

theorem names_iff : Names t cpu ↔ ∃ part ∈ parts t, PartNames part cpu := by
  simp only [Names, mem_parts_iff]
  constructor
  · rintro ⟨piece, hpiece, m, n, hspells, hcpu⟩
    exact ⟨_, ⟨hspells.ne_nil, piece, hpiece, rfl⟩, m, n, hspells, hcpu⟩
  · rintro ⟨_, ⟨-, piece, hpiece, rfl⟩, hnames⟩
    exact ⟨piece, hpiece, hnames⟩

/-- The numbers of processors are words. -/
theorem Names.lt (h : Names t cpu) : cpu < 2 ^ 64 := by
  obtain ⟨part, -, m, n, hspells, -, hle⟩ := h
  obtain ⟨hm, hn⟩ := hspells.lt
  omega

/-- **Which lists stop the program.** -/
theorem read_eq_noRoom_iff : read t = .error .noRoom ↔ Crowded t := by
  rw [Crowded, ← readParts_eq_noRoom_iff, read]
  cases readParts [] (parts t) <;> simp [Except.map]

/-- **Which texts are read.** -/
theorem exists_read_iff : (∃ cpus, read t = .ok cpus) ↔ WellFormed t ∧ ¬ Crowded t := by
  have hread : (∃ cpus, read t = .ok cpus) ↔ ∃ k ≤ maxLength, Length (parts t) k := by
    rw [← exists_readParts_iff, read]
    cases readParts [] (parts t) <;> simp [Except.map]
  constructor
  · rintro ⟨cpus, h⟩
    obtain ⟨k, -, hk⟩ := hread.mp ⟨cpus, h⟩
    refine ⟨wellFormed_iff.mpr ⟨k, hk⟩, fun hcrowded => ?_⟩
    rw [read_eq_noRoom_iff.mpr hcrowded] at h
    cases h
  · rintro ⟨hwell, hroom⟩
    obtain ⟨k, hk⟩ := wellFormed_iff.mp hwell
    refine hread.mpr ⟨k, Nat.le_of_not_lt fun hlt => hroom ?_, hk⟩
    exact ⟨parts t, k, List.prefix_rfl, hk, hlt⟩

theorem exists_readParts_of_read (h : read t = .ok cpus) :
    ∃ named, readParts [] (parts t) = .ok named ∧ collect named = cpus := by
  rw [read] at h
  cases hparts : readParts [] (parts t) with
  | error e =>
    rw [hparts] at h
    cases h
  | ok named =>
    rw [hparts] at h
    exact ⟨named, rfl, Except.ok.inj h⟩

/-- What is read in a list increases. -/
theorem pairwise_of_read (h : read t = .ok cpus) : cpus.Pairwise (· < ·) := by
  obtain ⟨named, -, rfl⟩ := exists_readParts_of_read h
  exact pairwise_collect named

/-- **What is read in a list** are the processors that it names. -/
theorem mem_iff_names_of_read (h : read t = .ok cpus) : cpu ∈ cpus ↔ Names t cpu := by
  obtain ⟨named, hparts, rfl⟩ := exists_readParts_of_read h
  rw [mem_collect, mem_of_readParts hparts, names_iff, or_iff_right List.not_mem_nil]

/-- A list is read as a set that it names, for a set has one increasing list. -/
theorem read_eq_ok_of_mem_iff (hwell : WellFormed t) (hroom : ¬ Crowded t)
    (hsorted : cpus.Pairwise (· < ·)) (hmem : ∀ cpu, cpu ∈ cpus ↔ Names t cpu) :
    read t = .ok cpus := by
  obtain ⟨found, hfound⟩ := exists_read_iff.mpr ⟨hwell, hroom⟩
  have hsame : found = cpus := (pairwise_of_read hfound).eq_of_mem_iff hsorted fun cpu =>
    (mem_iff_names_of_read hfound).trans (hmem cpu).symm
  rw [hfound, hsame]

theorem read_trim (t : Text) : read (Text.trim t) = read t := by
  rw [read, read, parts, Text.trim_trim, ← parts]

theorem read_nil : read [] = .ok [] := by
  simp [read, parts, Text.trim_eq_nil Text.allBlank_nil, Text.splitOn, readParts, Except.map, collect,
    dropRepeats]

/-- A list is read by its parts, and the numbers in them by what they are. -/
theorem read_of_readParts {named : List Nat} (h : readParts [] (parts t) = .ok named)
    (hsorted : cpus.Pairwise (· < ·)) (hsub : cpus ⊆ named) (hsup : named ⊆ cpus) :
    read t = .ok cpus := by
  have hcollect : collect named = cpus := (pairwise_collect named).eq_of_mem_iff hsorted fun _ =>
    mem_collect.trans ⟨fun hmem => hsup hmem, fun hmem => hsub hmem⟩
  rw [read, h, Except.map, hcollect]

end Lists

end CpuList

/-! ## 4. Lists in files -/

namespace Sysfs

variable {s : Sysfs} {directory path t : Text} {cpus : List Nat} {e : Error}

/-- A file of which nothing remains is a list that names nothing. -/
theorem read_eq_nil_of_blank (hblank : s.files.readTrimmed? path = none)
    (ht : s.files.read path = .ok t) : CpuList.read t = .ok [] := by
  have htrim : Text.trim t = [] := by
    by_contra hne
    rw [FileTree.readTrimmed?_eq_some_iff.mpr ⟨t, ht, rfl, hne⟩] at hblank
    cases hblank
  rw [← CpuList.read_trim, htrim, CpuList.read_nil]

/-- **What is read in a file** is the list that its whole text is, unless that names nothing. -/
theorem listAt_eq_some_iff (hne : cpus ≠ []) :
    s.listAt path = .ok (some cpus) ↔
      ∃ t, s.files.read path = .ok t ∧ CpuList.read t = .ok cpus := by
  rw [listAt]
  cases htrimmed : s.files.readTrimmed? path with
  | none =>
    refine iff_of_false (fun h => nomatch h) ?_
    rintro ⟨t, ht, hread⟩
    rw [read_eq_nil_of_blank htrimmed ht] at hread
    exact hne (Except.ok.inj hread).symm
  | some text =>
    obtain ⟨t, ht, rfl, -⟩ := FileTree.readTrimmed?_eq_some_iff.mp htrimmed
    simp only [ht, Except.ok.injEq, exists_eq_left', CpuList.read_trim]
    cases CpuList.read t with
    | ok found => simp
    | error fault => cases fault <;> simp

/-- **Which files stop the program.** -/
theorem listAt_eq_error_iff :
    s.listAt path = .error e ↔
      e = .noRoom ∧ ∃ t, s.files.read path = .ok t ∧ CpuList.Crowded t := by
  rw [listAt]
  cases htrimmed : s.files.readTrimmed? path with
  | none =>
    refine iff_of_false (fun h => nomatch h) ?_
    rintro ⟨-, t, ht, hcrowded⟩
    rw [← CpuList.read_eq_noRoom_iff, read_eq_nil_of_blank htrimmed ht] at hcrowded
    cases hcrowded
  | some text =>
    obtain ⟨t, ht, rfl, -⟩ := FileTree.readTrimmed?_eq_some_iff.mp htrimmed
    simp only [ht, Except.ok.injEq, exists_eq_left', CpuList.read_trim, ← CpuList.read_eq_noRoom_iff]
    cases CpuList.read t with
    | ok found => simp
    | error fault =>
      cases fault with
      | malformed cause => simp
      | noRoom => simp [eq_comm]

/-- **A PMU of processor 0 alone.** -/
theorem cpumask?_eq_singleton_iff :
    s.cpumask? directory = .ok (some [0]) ↔
      ∃ t, s.files.read (s.pathOf directory cpumaskFile) = .ok t ∧ CpuList.WellFormed t ∧
        ¬ CpuList.Crowded t ∧ ∀ cpu, CpuList.Names t cpu ↔ cpu = 0 := by
  rw [cpumask?, listAt_eq_some_iff (List.cons_ne_nil 0 [])]
  refine exists_congr fun t => and_congr_right fun _ => ?_
  constructor
  · intro hread
    obtain ⟨hwell, hroom⟩ := CpuList.exists_read_iff.mp ⟨_, hread⟩
    refine ⟨hwell, hroom, fun cpu => ?_⟩
    rw [← CpuList.mem_iff_names_of_read hread, List.mem_singleton]
  · rintro ⟨hwell, hroom, hnames⟩
    refine CpuList.read_eq_ok_of_mem_iff hwell hroom (List.pairwise_singleton _ _) fun cpu => ?_
    rw [hnames, List.mem_singleton]

/-- **The flag of an event** that is not spelled out, with a PMU that has a name. -/
theorem isUncore_eq {event : Text} {pmu? : Option Text} (hslash : '/' ∉ event)
    (hpmu : pmu?.getD (Text.trim event) ≠ []) :
    s.isUncore event pmu? =
      (s.cpumask? (s.directoryOf (pmu?.getD (Text.trim event)))).map (· == some [0]) := by
  rw [isUncore, if_neg (not_or.mpr ⟨hslash, hpmu⟩)]

/-- Only a list without room keeps it from being told whether an event is counted once. -/
theorem eq_noRoom_of_isUncore {event : Text} {pmu? : Option Text}
    (h : s.isUncore event pmu? = .error e) : e = .noRoom := by
  rw [isUncore] at h
  split at h
  · cases h
  · cases hmask : s.cpumask? (s.directoryOf (pmu?.getD (Text.trim event))) with
    | error fault =>
      rw [hmask] at h
      obtain rfl := Except.error.inj h
      exact (listAt_eq_error_iff.mp hmask).1
    | ok cpus? =>
      rw [hmask] at h
      cases h

end Sysfs

/-- **The language of lists of processors.**  A list is well-formed if every part between commas that is
not blank is a number of 64 bits, or two such numbers around its first `-`, with any blanks around parts
and numbers; it is crowded if its parts name more numbers, counted with repetitions, than a list can
hold.  A text is read if and only if it is well-formed and not crowded.  What is read increases strictly
and holds exactly the processors that some part names, those at its two ends and between them, in
whichever order the ends are given.  A list whose first parts are crowded stops the program, whatever
comes behind them.  So an event that is not spelled out, with a PMU that has a name, is counted once if
and only if the list in the directory of that PMU is well-formed and not crowded and names processor 0
and no other; and it stops the program if and only if that list is crowded. -/
theorem CpuList.read_language (t : Text) :
    ((∃ cpus, read t = .ok cpus) ↔ WellFormed t ∧ ¬ Crowded t) ∧
    (∀ cpus, read t = .ok cpus → cpus.Pairwise (· < ·) ∧ ∀ cpu, cpu ∈ cpus ↔ Names t cpu) ∧
    (read t = .error .noRoom ↔ Crowded t) ∧
    ∀ (s : Sysfs) (event : Text) (pmu? : Option Text), '/' ∉ event →
      pmu?.getD (Text.trim event) ≠ [] →
      (s.isUncore event pmu? = .ok true ↔
        ∃ list, s.files.read (s.pathOf (s.directoryOf (pmu?.getD (Text.trim event)))
            Sysfs.cpumaskFile) = .ok list ∧
          WellFormed list ∧ ¬ Crowded list ∧ ∀ cpu, Names list cpu ↔ cpu = 0) ∧
      ∀ e, s.isUncore event pmu? = .error e ↔ e = .noRoom ∧
        ∃ list, s.files.read (s.pathOf (s.directoryOf (pmu?.getD (Text.trim event)))
            Sysfs.cpumaskFile) = .ok list ∧ Crowded list := by
  refine ⟨exists_read_iff, fun _ h => ⟨pairwise_of_read h, fun _ => mem_iff_names_of_read h⟩,
    read_eq_noRoom_iff, fun s event pmu? hslash hpmu => ?_⟩
  rw [Sysfs.isUncore_eq hslash hpmu, ← Sysfs.cpumask?_eq_singleton_iff]
  generalize hmask : s.cpumask? (s.directoryOf (pmu?.getD (Text.trim event))) = mask
  constructor
  · cases mask with
    | error e => exact iff_of_false (fun h => nomatch h) (fun h => nomatch h)
    | ok cpus? => simp [Except.map]
  · intro e
    rw [← Sysfs.listAt_eq_error_iff, ← Sysfs.cpumask?, hmask]
    cases mask <;> simp [Except.map]

namespace Example

/-- A list with blanks, an empty part, a sign, a reversed range and a processor that is named twice. -/
def untidyList : Text := " 3-1,\t2,, +07 - 8\n".toList

/-- A list that names processor 0 three times. -/
def onlyFirst : Text := "0-0, 0 ,0\n".toList

/-- A list of one range with 2^60 + 1 processors. -/
def crowdedRange : Text := "0-1152921504606846976".toList

/-- A PMU with a list of its processors. -/
def boxSysfs (list : Text) : Sysfs :=
  ⟨"/sys".toList,
    ((({} : FileTree).write "/sys/uncore_box_0/type".toList (.text "7\n".toList)).write
      "/sys/uncore_box_0/cpumask".toList (.text list))⟩

theorem read_untidyList : CpuList.read untidyList = .ok [1, 2, 3, 7, 8] :=
  @CpuList.read_of_readParts _ _ [1, 2, 3, 2, 7, 8] rfl (by decide) (by decide) (by decide)

theorem read_onlyFirst : CpuList.read onlyFirst = .ok [0] :=
  @CpuList.read_of_readParts _ _ [0, 0, 0] rfl (by decide) (by decide) (by decide)

theorem read_crowdedRange : CpuList.read crowdedRange = .error .noRoom := by decide +kernel

end Example

open Example in
theorem CpuList.read_language_untidyList :
    (read untidyList = .ok [1, 2, 3, 7, 8] ∧ WellFormed untidyList ∧ ¬ Crowded untidyList ∧
      ∀ cpu, cpu ∈ [1, 2, 3, 7, 8] ↔ Names untidyList cpu) ∧
    (boxSysfs onlyFirst).isUncore "any".toList (some "box".toList) = .ok true := by
  obtain ⟨hwell, hread, -, -⟩ := read_language untidyList
  obtain ⟨hwellFirst, hreadFirst, -, huncore⟩ := read_language onlyFirst
  obtain ⟨hlist, hroom⟩ := hwell.mp ⟨_, read_untidyList⟩
  obtain ⟨hfirst, hfits⟩ := hwellFirst.mp ⟨_, read_onlyFirst⟩
  have hpath : (boxSysfs onlyFirst).files.read ((boxSysfs onlyFirst).pathOf
      ((boxSysfs onlyFirst).directoryOf "box".toList) Sysfs.cpumaskFile) = .ok onlyFirst := by
    decide +kernel
  obtain ⟨huncore, -⟩ :=
    huncore (boxSysfs onlyFirst) "any".toList (some "box".toList) (by decide) (by decide)
  refine ⟨⟨read_untidyList, hlist, hroom, (hread _ read_untidyList).2⟩,
    huncore.mpr ⟨onlyFirst, hpath, hfirst, hfits, fun cpu => ?_⟩⟩
  rw [← (hreadFirst _ read_onlyFirst).2, List.mem_singleton]

open Example in
/-- A list of one range, written as a list is, stops the program instead of being read, and so does an
event of a PMU with this list. -/
theorem CpuList.crowdedRange_not_read :
    WellFormed crowdedRange ∧ (∀ cpus, read crowdedRange ≠ .ok cpus) ∧
      read crowdedRange = .error .noRoom ∧
      (boxSysfs crowdedRange).isUncore "any".toList (some "box".toList) = .error .noRoom := by
  have hspells : SpellsPart crowdedRange 0 1152921504606846976 :=
    readEnds_eq_ok_iff.mp (by decide +kernel)
  have hparts : parts crowdedRange = [crowdedRange] := by decide +kernel
  have hlength : ∃ k, Length (parts crowdedRange) k := hparts ▸ ⟨_, .cons hspells .nil⟩
  refine ⟨wellFormed_iff.mpr hlength, fun cpus h => ?_, read_crowdedRange, by decide +kernel⟩
  rw [read_crowdedRange] at h
  cases h

end HardwareCounters
