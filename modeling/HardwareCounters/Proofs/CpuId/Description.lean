/-
# Which block describes the processor

The kernel describes one processor after another, in blocks with blank lines between them.  The reader
knows nothing of blocks: it takes lines until all four keys have a value, and a later value replaces an
earlier one.  What it returns is therefore described by the first block exactly if that block names all
four keys; otherwise it goes on into the next block with what it has, and may end up with a processor
that is not there.

* `Partial.Knows` is the invariant: what is known are the last values of the lines so far;
* `ofLines_eq_ok_iff`: where the reader stops, and what it then returns;
* `describedIn_firstBlock_iff`: when that is described by the first block.
-/
import HardwareCounters.CpuId
import HardwareCounters.Proofs.Text.Trimming

namespace HardwareCounters

namespace CpuId

/-! ## 1. Blocks and what they say -/

/-- The line holds nothing but blanks. -/
def isBlankLine (line : Text) : Bool := line.all Text.isBlank

/-- The blocks of lines between blank lines. -/
def blocks (lines : List Text) : List (List Text) :=
  (lines.splitOnP isBlankLine).filter (· ≠ [])

/-- The block of the first processor. -/
def firstBlock (lines : List Text) : List Text := (blocks lines).headD []

/-- The values that lines give for a key, in order. -/
def valuesOf (key : Key) (lines : List Text) : List Text :=
  (lines.filterMap readLine?).filterMap fun entry => if entry.1 = key then some entry.2 else none

/-- Lines give a value for each of the four keys. -/
def NamesAll (lines : List Text) : Prop := ∀ key, valuesOf key lines ≠ []

/-- The value is that of the processor for the key. -/
def Shows (cpu : CpuId) : Key → Text → Prop
  | .vendor, value => value = cpu.vendor
  | .family, value => readNumber value = .ok cpu.family
  | .model, value => readNumber value = .ok cpu.model
  | .stepping, value => readNumber value = .ok cpu.stepping

/-- The processor is found in the lines: for each key they give its value. -/
def DescribedIn (cpu : CpuId) (lines : List Text) : Prop :=
  ∀ key, ∃ value ∈ valuesOf key lines, cpu.Shows key value

/-- The processor is what the lines say last for each key. -/
def LastDescribedIn (cpu : CpuId) (lines : List Text) : Prop :=
  ∀ key, ∃ value, (valuesOf key lines).getLast? = some value ∧ cpu.Shows key value

/-- If the line gives a number then this can be read. -/
def Legible (line : Text) : Prop :=
  ∀ key value, readLine? line = some (key, value) → key = .vendor ∨ ∃ n, readNumber value = .ok n

/-- Behind lines that were seen, further ones up to `last` are legible, and `last` gives the only key
that is missing in front of it. -/
structure StopsAt (seen front : List Text) (last : Text) : Prop where
  missing : ¬ NamesAll (seen ++ front)
  namesAll : NamesAll (seen ++ front ++ [last])
  legible : ∀ line ∈ front ++ [last], Legible line

theorem Key.forall_iff {p : Key → Prop} :
    (∀ key, p key) ↔ p .vendor ∧ p .family ∧ p .model ∧ p .stepping :=
  ⟨fun h => ⟨h _, h _, h _, h _⟩, fun ⟨hvendor, hfamily, hmodel, hstepping⟩ key => by
    cases key <;> assumption⟩

instance (cpu : CpuId) (key : Key) (value : Text) : Decidable (cpu.Shows key value) :=
  match key with
  | .vendor => inferInstanceAs (Decidable (value = cpu.vendor))
  | .family => inferInstanceAs (Decidable (readNumber value = .ok cpu.family))
  | .model => inferInstanceAs (Decidable (readNumber value = .ok cpu.model))
  | .stepping => inferInstanceAs (Decidable (readNumber value = .ok cpu.stepping))

instance (cpu : CpuId) (lines : List Text) : Decidable (cpu.DescribedIn lines) :=
  decidable_of_iff _ Key.forall_iff.symm

instance (lines : List Text) : Decidable (NamesAll lines) :=
  decidable_of_iff _ Key.forall_iff.symm

section Values

variable {cpu : CpuId} {key : Key} {line : Text} {lines others : List Text}

@[simp] theorem valuesOf_append (key : Key) (lines others : List Text) :
    valuesOf key (lines ++ others) = valuesOf key lines ++ valuesOf key others := by
  simp [valuesOf]

theorem NamesAll.append (h : NamesAll lines) (others : List Text) : NamesAll (lines ++ others) := by
  intro key hnil
  rw [valuesOf_append, List.append_eq_nil_iff] at hnil
  exact h key hnil.1

theorem DescribedIn.namesAll (h : cpu.DescribedIn lines) : NamesAll lines := by
  intro key hnil
  obtain ⟨value, hvalue, -⟩ := h key
  rw [hnil] at hvalue
  cases hvalue

theorem DescribedIn.append (h : cpu.DescribedIn lines) (others : List Text) :
    cpu.DescribedIn (lines ++ others) := by
  intro key
  obtain ⟨value, hvalue, hshows⟩ := h key
  rw [valuesOf_append]
  exact ⟨value, List.mem_append_left _ hvalue, hshows⟩

theorem LastDescribedIn.describedIn (h : cpu.LastDescribedIn lines) : cpu.DescribedIn lines := by
  intro key
  obtain ⟨value, hvalue, hshows⟩ := h key
  exact ⟨value, List.mem_of_getLast? hvalue, hshows⟩

end Values

/-! ## 2. What is known after some lines -/

/-- What is known for the key is what the value says. -/
def Partial.Holds (known : Partial) : Key → Option Text → Prop
  | .vendor, value? => known.vendor? = value?
  | .family, value? => known.family?.map .ok = value?.map readNumber
  | .model, value? => known.model?.map .ok = value?.map readNumber
  | .stepping, value? => known.stepping?.map .ok = value?.map readNumber

/-- What is known are the last values that the lines give. -/
def Partial.Knows (known : Partial) (lines : List Text) : Prop :=
  ∀ key, known.Holds key (valuesOf key lines).getLast?

section Knowing

variable {cpu : CpuId} {known next : Partial} {line : Text} {lines others seen : List Text}

theorem Partial.knows_nil : Partial.Knows {} [] := by
  intro key
  cases key <;> rfl

/-- A value is added if it is a vendor or a number that can be read. -/
theorem exists_add_iff (known : Partial) (key : Key) (value : Text) :
    (∃ next, known.add key value = .ok next) ↔
      key = .vendor ∨ ∃ n, readNumber value = .ok n := by
  cases key with
  | vendor => simp [Partial.add]
  | family => cases hread : readNumber value <;> simp [Partial.add, hread, Except.map]
  | model => cases hread : readNumber value <;> simp [Partial.add, hread, Except.map]
  | stepping => cases hread : readNumber value <;> simp [Partial.add, hread, Except.map]

/-- The value that is added is known for its key, and nothing else changes. -/
theorem Partial.holds_add {key : Key} {value : Text} (h : known.add key value = .ok next) :
    next.Holds key (some value) ∧
      ∀ other value?, other ≠ key → known.Holds other value? → next.Holds other value? := by
  rcases (exists_add_iff known key value).mp ⟨next, h⟩ with rfl | ⟨n, hn⟩
  · cases h
    refine ⟨rfl, fun other value? hne hholds => ?_⟩
    cases other <;> first | exact absurd rfl hne | exact hholds
  · -- The three numbers are added alike, each at its own place.
    cases key <;> simp only [add, hn, Except.map, Except.ok.injEq] at h <;> subst h <;>
      refine ⟨by simp [Holds, hn], fun other value? hne hholds => ?_⟩ <;> cases other <;>
      first | exact absurd rfl hne | exact hholds

theorem exists_addLine_iff (known : Partial) (line : Text) :
    (∃ next, known.addLine line = .ok next) ↔ Legible line := by
  rw [Partial.addLine, Legible]
  cases h : readLine? line with
  | none => simp
  | some entry =>
    obtain ⟨key, value⟩ := entry
    simp only [exists_add_iff]
    constructor
    · rintro hadd _ _ heq
      cases heq
      exact hadd
    · exact fun hlegible => hlegible key value rfl

/-- **One more line.**  Its value replaces the one that was known for its key. -/
theorem Partial.Knows.addLine (h : known.Knows lines) (hadd : known.addLine line = .ok next) :
    next.Knows (lines ++ [line]) := by
  rw [Partial.addLine] at hadd
  cases hline : readLine? line with
  | none =>
    rw [hline] at hadd
    cases hadd
    intro key
    have hnone : valuesOf key [line] = [] := by simp [valuesOf, hline]
    rw [valuesOf_append, hnone, List.append_nil]
    exact h key
  | some entry =>
    obtain ⟨key, value⟩ := entry
    rw [hline] at hadd
    obtain ⟨hadded, hkept⟩ := holds_add hadd
    intro other
    rw [valuesOf_append]
    by_cases heq : other = key
    · have hsame : valuesOf other [line] = [value] := by simp [valuesOf, hline, heq]
      rw [hsame, List.getLast?_concat, heq]
      exact hadded
    · have hnone : valuesOf other [line] = [] := by simp [valuesOf, hline, Ne.symm heq]
      rw [hnone, List.append_nil]
      exact hkept other _ heq (h other)

theorem Partial.complete?_eq_some :
    known.complete? = some cpu ↔ known.vendor? = some cpu.vendor ∧
      known.family? = some cpu.family ∧ known.model? = some cpu.model ∧
        known.stepping? = some cpu.stepping := by
  obtain ⟨vendor?, family?, model?, stepping?⟩ := known
  obtain ⟨vendor, family, model, stepping⟩ := cpu
  cases vendor? <;> cases family? <;> cases model? <;> cases stepping? <;> simp [complete?]

theorem Partial.complete?_eq_none :
    known.complete? = none ↔ known.vendor? = none ∨ known.family? = none ∨ known.model? = none ∨
      known.stepping? = none := by
  obtain ⟨vendor?, family?, model?, stepping?⟩ := known
  cases vendor? <;> cases family? <;> cases model? <;> cases stepping? <;> simp [complete?]

/-- A number is known where the text of it is. -/
theorem eq_some_iff_of_map_eq {known? : Option Nat} {value? : Option Text}
    (h : known?.map .ok = value?.map readNumber) {n : Nat} :
    known? = some n ↔ ∃ value, value? = some value ∧ readNumber value = .ok n := by
  cases known? with
  | none => cases value? <;> simp at h ⊢
  | some known =>
    cases value? with
    | none => simp at h
    | some value =>
      have hread : .ok known = readNumber value := Option.some.inj h
      simp [← hread]

theorem eq_none_iff_of_map_eq {known? : Option Nat} {values : List Text}
    (h : known?.map .ok = values.getLast?.map readNumber) : known? = none ↔ values = [] := by
  have hnone := congrArg Option.isNone h
  rw [Option.isNone_map, Option.isNone_map, Bool.eq_iff_iff, Option.isNone_iff_eq_none,
    Option.isNone_iff_eq_none] at hnone
  rw [hnone, List.getLast?_eq_none_iff]

/-- **Everything is known** if and only if the processor is what the lines say last. -/
theorem Partial.Knows.complete?_eq_some_iff (h : known.Knows lines) :
    known.complete? = some cpu ↔ cpu.LastDescribedIn lines := by
  obtain ⟨hvendor, hfamily, hmodel, hstepping⟩ := Key.forall_iff.mp h
  have hname : known.vendor? = some cpu.vendor ↔
      ∃ value, (valuesOf .vendor lines).getLast? = some value ∧ value = cpu.vendor := by
    rw [show known.vendor? = _ from hvendor]
    simp
  rw [complete?_eq_some, LastDescribedIn, Key.forall_iff, hname, eq_some_iff_of_map_eq hfamily,
    eq_some_iff_of_map_eq hmodel, eq_some_iff_of_map_eq hstepping]
  exact Iff.rfl

/-- Something is missing as long as a key has no value. -/
theorem Partial.Knows.complete?_eq_none_iff (h : known.Knows lines) :
    known.complete? = none ↔ ¬ NamesAll lines := by
  obtain ⟨hvendor, hfamily, hmodel, hstepping⟩ := Key.forall_iff.mp h
  have hname : known.vendor? = none ↔ valuesOf .vendor lines = [] := by
    rw [show known.vendor? = _ from hvendor, List.getLast?_eq_none_iff]
  rw [complete?_eq_none, NamesAll, Key.forall_iff, hname, eq_none_iff_of_map_eq hfamily,
    eq_none_iff_of_map_eq hmodel, eq_none_iff_of_map_eq hstepping]
  simp only [not_and_or, not_not, ne_eq]

end Knowing

/-! ## 3. Where the reader stops -/

section Stopping

variable {cpu : CpuId} {known : Partial} {line last : Text} {lines others seen front : List Text}

theorem stopsAt_nil :
    StopsAt seen [] line ↔ ¬ NamesAll seen ∧ NamesAll (seen ++ [line]) ∧ Legible line := by
  constructor
  · rintro ⟨hmissing, hall, hlegible⟩
    rw [List.append_nil] at hmissing hall
    exact ⟨hmissing, hall, hlegible line (List.mem_singleton_self _)⟩
  · rintro ⟨hmissing, hall, hlegible⟩
    refine ⟨by rwa [List.append_nil], by rwa [List.append_nil], fun other hother => ?_⟩
    exact List.mem_singleton.mp hother ▸ hlegible

theorem stopsAt_cons :
    StopsAt seen (line :: front) last ↔ Legible line ∧ StopsAt (seen ++ [line]) front last := by
  constructor
  · rintro ⟨hmissing, hall, hlegible⟩
    obtain ⟨hline, hrest⟩ := List.forall_mem_cons.mp hlegible
    exact ⟨hline, by simpa using hmissing, by simpa using hall, hrest⟩
  · rintro ⟨hline, hmissing, hall, hrest⟩
    exact ⟨by simpa using hmissing, by simpa using hall, List.forall_mem_cons.mpr ⟨hline, hrest⟩⟩

/-- A line of a list is the first one or one behind it. -/
theorem exists_split_cons {P : List Text → Text → Prop} :
    (∃ front last back, line :: lines = front ++ last :: back ∧ P front last) ↔
      P [] line ∨
        ∃ front last back, lines = front ++ last :: back ∧ P (line :: front) last := by
  constructor
  · rintro ⟨front, last, back, hsplit, hholds⟩
    cases front with
    | nil =>
      obtain ⟨rfl, rfl⟩ := List.cons.inj hsplit
      exact Or.inl hholds
    | cons first front =>
      obtain ⟨rfl, rfl⟩ := List.cons.inj hsplit
      exact Or.inr ⟨front, last, back, rfl, hholds⟩
  · rintro (hholds | ⟨front, last, back, rfl, hholds⟩)
    · exact ⟨[], line, lines, rfl, hholds⟩
    · exact ⟨line :: front, last, back, rfl, hholds⟩

/-- **What the reader returns.**  If the lines so far do not name all keys, it stops at the line that
gives the last missing one, and returns what the lines up to there say last. -/
theorem ofLines_eq_ok_iff (h : known.Knows seen) (hmissing : ¬ NamesAll seen) :
    ofLines known lines = .ok cpu ↔
      ∃ front last back, lines = front ++ last :: back ∧ StopsAt seen front last ∧
        cpu.LastDescribedIn (seen ++ front ++ [last]) := by
  induction lines generalizing known seen with
  | nil => simp [ofLines]
  | cons line lines ih =>
    rw [exists_split_cons (P := fun front last => StopsAt seen front last ∧
      cpu.LastDescribedIn (seen ++ front ++ [last])), ofLines]
    simp only [stopsAt_nil, stopsAt_cons, List.append_nil]
    cases hadd : known.addLine line with
    | error e =>
      have hline : ¬ Legible line := by
        rw [← exists_addLine_iff known, hadd]
        simp
      simp [hline]
    | ok next =>
      have hnext := h.addLine hadd
      have hline : Legible line := (exists_addLine_iff known line).mp ⟨next, hadd⟩
      cases hcomplete : next.complete? with
      | some found =>
        -- The reader stops here: no line behind this one gives a key that is missing.
        have hall : NamesAll (seen ++ [line]) :=
          not_not.mp (mt hnext.complete?_eq_none_iff.mpr (by simp [hcomplete]))
        have hnone : ∀ front last, ¬ StopsAt (seen ++ [line]) front last :=
          fun front _ hstops => hstops.missing (hall.append front)
        simp only [hmissing, hall, hline, hnone, not_false_eq_true, true_and, false_and, and_false,
          exists_false, or_false, ← hnext.complete?_eq_some_iff, hcomplete, Option.some.injEq,
          Except.ok.injEq]
      | none =>
        have hmore : ¬ NamesAll (seen ++ [line]) := hnext.complete?_eq_none_iff.mp hcomplete
        simp only [hcomplete, hmore, hline, false_and, and_false, false_or, true_and]
        simpa using ih hnext hmore

/-- Lines behind those that name all keys are not read. -/
theorem ofLines_append_of_namesAll (h : known.Knows seen) (hmissing : ¬ NamesAll seen)
    (hall : NamesAll (seen ++ lines)) (others : List Text) :
    ofLines known (lines ++ others) = ofLines known lines := by
  induction lines generalizing known seen with
  | nil => exact absurd (List.append_nil seen ▸ hall) hmissing
  | cons line lines ih =>
    rw [List.cons_append, ofLines, ofLines]
    cases hadd : known.addLine line with
    | error e => rfl
    | ok next =>
      have hnext := h.addLine hadd
      cases hcomplete : next.complete? with
      | some found => simp only [hcomplete]
      | none =>
        simp only [hcomplete]
        exact ih hnext (hnext.complete?_eq_none_iff.mp hcomplete) (by simpa using hall)

/-- Lines that give no value are skipped. -/
theorem ofLines_append_of_readLine?_eq_none (hknown : known.complete? = none)
    (h : ∀ line ∈ front, readLine? line = none) :
    ofLines known (front ++ lines) = ofLines known lines := by
  induction front with
  | nil => rfl
  | cons line front ih =>
    obtain ⟨hline, hfront⟩ := List.forall_mem_cons.mp h
    rw [List.cons_append, ofLines]
    simp only [Partial.addLine, hline, hknown]
    exact ih hfront

end Stopping

/-! ## 4. The first block -/

section Blocks

variable {cpu : CpuId} {line : Text} {lines : List Text}

/-- No key starts with a blank, so a blank line gives no value. -/
theorem readLine?_of_isBlankLine (h : isBlankLine line = true) : readLine? line = none := by
  have hkeys : ∀ entry ∈ keys, entry.1.any (fun c => !Text.isBlank c) = true := by decide
  rw [readLine?, List.findSome?_eq_none_iff]
  intro entry hentry
  obtain ⟨c, hc, hblank⟩ := List.any_eq_true.mp (hkeys entry hentry)
  have hfront : ¬ entry.1.isPrefixOf line = true := by
    intro hprefix
    have hmem : c ∈ line := (List.isPrefixOf_iff_prefix.mp hprefix).subset hc
    rw [List.all_eq_true.mp h c hmem] at hblank
    cases hblank
  simp [Text.dropFront?, hfront]

theorem exists_splitOnP_eq_cons (p : Text → Bool) (lines : List Text) :
    ∃ first others back, lines.splitOnP p = first :: others ∧ lines = first ++ back := by
  induction lines with
  | nil => exact ⟨[], [], [], List.splitOnP_nil, rfl⟩
  | cons line lines ih =>
    rw [List.splitOnP_cons_eq_if_modifyHead]
    split
    · exact ⟨[], _, _, rfl, rfl⟩
    · obtain ⟨first, others, back, hsplit, hlines⟩ := ih
      exact ⟨line :: first, others, back, by rw [hsplit, List.modifyHead_cons], by rw [hlines]; rfl⟩

/-- In front of the first block there are blank lines only. -/
theorem exists_firstBlock (lines : List Text) :
    ∃ front back, lines = front ++ (firstBlock lines ++ back) ∧
      ∀ line ∈ front, isBlankLine line = true := by
  induction lines with
  | nil => exact ⟨[], [], rfl, fun _ hmem => nomatch hmem⟩
  | cons line lines ih =>
    rw [firstBlock, blocks, List.splitOnP_cons_eq_if_modifyHead]
    split
    · rename_i hblank
      obtain ⟨front, back, hsplit, hfront⟩ := ih
      exact ⟨line :: front, back, congrArg (line :: ·) hsplit,
        List.forall_mem_cons.mpr ⟨hblank, hfront⟩⟩
    · obtain ⟨first, others, back, hsplit, hlines⟩ := exists_splitOnP_eq_cons isBlankLine lines
      rw [hsplit]
      exact ⟨[], back, congrArg (line :: ·) hlines, fun _ hmem => nomatch hmem⟩

theorem not_namesAll_nil : ¬ NamesAll [] := fun h => h .vendor rfl

/-- **Where the first block names all keys**, nothing else is read. -/
theorem ofLines_firstBlock (h : NamesAll (firstBlock lines)) :
    ofLines {} lines = ofLines {} (firstBlock lines) := by
  obtain ⟨front, back, hsplit, hfront⟩ := exists_firstBlock lines
  calc ofLines {} lines = ofLines {} (front ++ (firstBlock lines ++ back)) := congrArg _ hsplit
    _ = ofLines {} (firstBlock lines ++ back) :=
      ofLines_append_of_readLine?_eq_none rfl fun line hline =>
        readLine?_of_isBlankLine (hfront line hline)
    _ = ofLines {} (firstBlock lines) :=
      ofLines_append_of_namesAll Partial.knows_nil not_namesAll_nil h back

/-- **When the first block describes the processor.** -/
theorem describedIn_firstBlock_iff (h : ofLines {} lines = .ok cpu) :
    cpu.DescribedIn (firstBlock lines) ↔ NamesAll (firstBlock lines) := by
  refine ⟨DescribedIn.namesAll, fun hall => ?_⟩
  rw [ofLines_firstBlock hall, ofLines_eq_ok_iff Partial.knows_nil not_namesAll_nil] at h
  obtain ⟨front, last, back, hsplit, -, hlast⟩ := h
  rw [hsplit, ← List.singleton_append, ← List.append_assoc]
  exact hlast.describedIn.append back

/-- **One processor, or parts of several.**  A text gives a processor if and only if its lines, up to
the one that gives the last missing key, are legible; the processor is then what these lines say last
for each key.  It is described by the first block if and only if that block names all four keys, and in
this case nothing else is read: the text gives what the first block on its own gives. -/
theorem ofCpuinfo_firstBlock_iff (t : Text) :
    (∀ cpu, ofCpuinfo t = .ok cpu ↔
      ∃ front last back, Text.lines t = front ++ last :: back ∧ StopsAt [] front last ∧
        cpu.LastDescribedIn (front ++ [last])) ∧
    (∀ cpu, ofCpuinfo t = .ok cpu →
      (cpu.DescribedIn (firstBlock (Text.lines t)) ↔ NamesAll (firstBlock (Text.lines t)))) ∧
    (NamesAll (firstBlock (Text.lines t)) →
      ofCpuinfo t = ofLines {} (firstBlock (Text.lines t))) :=
  ⟨fun _ => ofLines_eq_ok_iff Partial.knows_nil not_namesAll_nil,
    fun _ => describedIn_firstBlock_iff, ofLines_firstBlock⟩

end Blocks

end CpuId

namespace Example

/-- Two processors of which the first one names all keys. -/
def alikeProcessors : Text :=
  ("processor\t: 0\nvendor_id\t: GenuineIntel\ncpu family\t: 6\nmodel\t\t: 85\n" ++
    "model name\t: Intel(R) Xeon(R) Gold 6140 CPU @ 2.30GHz\nstepping\t: 4\n\n" ++
    "processor\t: 1\nvendor_id\t: GenuineIntel\n").toList

/-- Two processors of which the first one names no vendor. -/
def unlikeProcessors : Text :=
  ("processor\t: 0\ncpu family\t: 6\nmodel\t\t: 85\nstepping\t: 4\n\n" ++
    "processor\t: 1\nvendor_id\t: AuthenticAMD\ncpu family\t: 23\nmodel\t\t: 49\n" ++
    "stepping\t: 0\n").toList

/-- The vendor of the second one with the numbers of the first one. -/
def mixedProcessor : CpuId := ⟨"AuthenticAMD".toList, 6, 85, 4⟩

end Example

open Example in
theorem CpuId.ofCpuinfo_firstBlock_iff_alike :
    ofCpuinfo alikeProcessors = .ok ⟨"GenuineIntel".toList, 6, 85, 4⟩ ∧
    NamesAll (firstBlock (Text.lines alikeProcessors)) ∧
    (⟨"GenuineIntel".toList, 6, 85, 4⟩ : CpuId).DescribedIn
      (firstBlock (Text.lines alikeProcessors)) ∧
    ofCpuinfo alikeProcessors = ofLines {} (firstBlock (Text.lines alikeProcessors)) := by
  have hread : ofCpuinfo alikeProcessors = .ok ⟨"GenuineIntel".toList, 6, 85, 4⟩ := by
    decide +kernel
  have hall : NamesAll (firstBlock (Text.lines alikeProcessors)) := by decide +kernel
  obtain ⟨-, hfirst, halone⟩ := ofCpuinfo_firstBlock_iff alikeProcessors
  exact ⟨hread, hall, (hfirst _ hread).mpr hall, halone hall⟩

open Example in
theorem CpuId.unlikeProcessors_mixed :
    ofCpuinfo unlikeProcessors = .ok mixedProcessor ∧
    ¬ mixedProcessor.DescribedIn (firstBlock (Text.lines unlikeProcessors)) ∧
    ∀ block ∈ blocks (Text.lines unlikeProcessors), ¬ mixedProcessor.DescribedIn block := by
  decide +kernel

end HardwareCounters
