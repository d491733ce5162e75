/-
# The language of lists of terms

A list of terms is given by a grammar in which the comma that may follow the last term competes with the
comma in front of a further term, and a value takes whatever stands in front of the next comma.  What
the grammar accepts can be said without it: the parts between the commas are terms, except that one
comma may follow them, or stand alone.

* `ListForm`: how a list of terms may be written;
* `parseTrimmed?_eq_some_iff`: a text is read if and only if it is so written, and part by part;
* `parseTrimmed?_eq_read`: the grammar `listGrammar` reads the same;
* `parseList?_language`: the language of lists and its round trip.
-/
import HardwareCounters.Proofs.Term.Listing
import HardwareCounters.Proofs.Text.Grammar

namespace HardwareCounters

namespace Term

/-! ## 1. How lists are written -/

/-- A part of a list spells a term: a key in front of the first `=` and a value behind it, or a key. -/
inductive Spells : Text → Term → Prop
  | key {part : Text} (h : '=' ∉ part) : Spells part ⟨Text.trim part, none⟩
  | value {key : Text} (h : '=' ∉ key) (value : Text) :
      Spells (key ++ '=' :: value) ⟨Text.trim key, some (Text.trim value)⟩

/-- Terms between commas, and possibly a comma behind them. -/
structure ListForm where
  parts : List Text
  final : Bool
  parts_ne_nil : parts ≠ []
  comma_not_mem : ∀ part ∈ parts, ',' ∉ part
  part_ne_nil : ∀ part ∈ parts, part ≠ []
  head?_ne_equals : ∀ part ∈ parts, part.head? ≠ some '='

/-- The whole text. -/
def ListForm.text (form : ListForm) : Text :=
  Text.joinWith [','] form.parts ++ Text.charIf ',' form.final

/-- A list without terms: nothing, or a comma. -/
def Bare (t : Text) : Prop := t = [] ∨ t = [',']

instance (t : Text) : Decidable (Bare t) := inferInstanceAs (Decidable (t = [] ∨ t = [',']))

/-! ## 2. What is written is read, and nothing else -/

section Reading

variable {t part : Text} {term : Term} {terms : List Term}

theorem spells_iff : Spells part term ↔ term = ofPart part := by
  constructor
  · intro h
    cases h with
    | key hkey => rw [ofPart, Text.cut?_eq_none hkey]
    | value hkey value => rw [ofPart, Text.cut?_append value hkey]
  · rintro rfl
    by_cases hmem : '=' ∈ part
    · obtain ⟨key, value, rfl, hkey⟩ := List.eq_append_cons_of_mem hmem
      rw [ofPart, Text.cut?_append value hkey]
      exact .value hkey value
    · rw [ofPart, Text.cut?_eq_none hmem]
      exact .key hmem

/-- The terms that parts spell are determined by the parts. -/
theorem forall₂_spells_iff {parts : List Text} :
    List.Forall₂ Spells parts terms ↔ terms = parts.map ofPart := by
  constructor
  · intro h
    induction h with
    | nil => rfl
    | cons hpart _ ih => rw [List.map_cons, ← spells_iff.mp hpart, ← ih]
  · rintro rfl
    induction parts with
    | nil => exact .nil
    | cons part parts ih => exact .cons (spells_iff.mpr rfl) ih

theorem isTerm_iff : isTerm part = true ↔ part ≠ [] ∧ part.head? ≠ some '=' := by
  cases part with
  | nil => simp [isTerm]
  | cons c rest => simp [isTerm]

/-- A list without terms is a comma or nothing. -/
theorem Bare.exists_charIf (h : Bare t) : ∃ final, t = Text.charIf ',' final := by
  rcases h with rfl | rfl
  · exact ⟨false, rfl⟩
  · exact ⟨true, rfl⟩

theorem exists_dropFinalComma (t : Text) :
    ∃ final, t = dropFinalComma t ++ Text.charIf ',' final := by
  by_cases hlast : t.getLast? = some ','
  · obtain ⟨front, rfl⟩ := List.getLast?_eq_some_iff.mp hlast
    exact ⟨true, by simp [dropFinalComma, Text.dropLast?, Text.charIf]⟩
  · exact ⟨false, by simp [dropFinalComma_eq_self hlast, Text.charIf]⟩

/-- A comma behind a list of terms is not seen. -/
theorem parseTrimmed?_append_comma (h : ∀ part ∈ Text.splitOn ',' t, isTerm part = true) :
    parseTrimmed? (t ++ [',']) = parseTrimmed? t := by
  have hne : t ≠ [] := by
    rintro rfl
    cases h [] List.mem_cons_self
  have hdrop : dropFinalComma (t ++ [',']) = t := by
    simp [dropFinalComma, Text.dropLast?]
  rw [parseTrimmed?_of_parts h, parseTrimmed?, hdrop, if_neg]
  · exact if_pos (List.all_eq_true.mpr h)
  · simp [hne]

namespace ListForm

theorem isTerm_of_mem (form : ListForm) (h : part ∈ form.parts) : isTerm part = true :=
  isTerm_iff.mpr ⟨form.part_ne_nil part h, form.head?_ne_equals part h⟩

theorem splitOn_joinWith (form : ListForm) :
    Text.splitOn ',' (Text.joinWith [','] form.parts) = form.parts :=
  Text.splitOn_joinWith form.parts_ne_nil form.comma_not_mem

/-- What is written is read part by part. -/
theorem parseTrimmed?_text (form : ListForm) :
    parseTrimmed? form.text = some (form.parts.map ofPart) := by
  have hterms : ∀ part ∈ Text.splitOn ',' (Text.joinWith [','] form.parts), isTerm part = true := by
    rw [form.splitOn_joinWith]
    exact fun part hpart => form.isTerm_of_mem hpart
  have hparts := parseTrimmed?_of_parts hterms
  rw [form.splitOn_joinWith] at hparts
  rw [text]
  cases form.final with
  | true => exact (parseTrimmed?_append_comma hterms).trans hparts
  | false =>
    rw [Text.charIf, if_neg (by decide), List.append_nil]
    exact hparts

end ListForm

/-- **Lists of terms.**  A text is read if and only if it is written as a list. -/
theorem parseTrimmed?_eq_some_iff :
    parseTrimmed? t = some terms ↔
      (Bare t ∧ terms = []) ∨
        ∃ form : ListForm, form.text = t ∧ List.Forall₂ Spells form.parts terms := by
  simp only [forall₂_spells_iff]
  constructor
  · intro h
    rw [parseTrimmed?] at h
    split at h
    · rename_i hbare
      cases h
      exact Or.inl ⟨hbare, rfl⟩
    · simp only at h
      split at h
      · rename_i hall
        cases h
        have hterms : ∀ part ∈ Text.splitOn ',' (dropFinalComma t), isTerm part = true :=
          List.all_eq_true.mp hall
        obtain ⟨final, hfinal⟩ := exists_dropFinalComma t
        refine Or.inr ⟨⟨Text.splitOn ',' (dropFinalComma t), final, Text.splitOn_ne_nil _ _,
          fun part hpart => Text.not_mem_of_mem_splitOn hpart,
          fun part hpart => (isTerm_iff.mp (hterms part hpart)).1,
          fun part hpart => (isTerm_iff.mp (hterms part hpart)).2⟩, ?_, rfl⟩
        rw [ListForm.text, Text.joinWith_splitOn, ← hfinal]
      · cases h
  · rintro (⟨hbare, rfl⟩ | ⟨form, rfl, rfl⟩)
    · exact if_pos hbare
    · exact form.parseTrimmed?_text

end Reading

/-! ## 3. The grammar of lists -/

/-- The rules whose texts are kept. -/
inductive Rule where
  | key
  | value
  deriving DecidableEq, Repr

/-- The character may stand in a key. -/
def isKeyChar (c : Char) : Bool := c != '=' && c != ','

/-- At least one character, but neither `=` nor a comma. -/
def keyGrammar : Grammar Rule := .named .key (.atLeastOnce (.one isKeyChar))

/-- A value behind an `=`, without commas. -/
def valueGrammar : Grammar Rule :=
  .inTurn (.exactly ['=']) (.named .value (.many (.one (· != ','))))

/-- `<key>[=<value>]` -/
def termGrammar : Grammar Rule := .inTurn keyGrammar (.maybe valueGrammar)

/-- A further term behind a comma. -/
def furtherTerm : Grammar Rule := .inTurn (.exactly [',']) termGrammar

/-- Possibly a comma, and then the end. -/
def finalComma : Grammar Rule := .inTurn (.maybe (.exactly [','])) .ended

/-- Terms between commas, of which there may be none, possibly followed by a comma. -/
def listGrammar : Grammar Rule :=
  .inTurn (.maybe (.inTurn termGrammar (.many furtherTerm))) finalComma

/-- The terms whose keys and values have been found. -/
def ofFound : List (Rule × Text) → List Term
  | (.key, key) :: (.value, value) :: found =>
    ⟨Text.trim key, some (Text.trim value)⟩ :: ofFound found
  | (.key, key) :: found => ⟨Text.trim key, none⟩ :: ofFound found
  | (.value, _) :: found => ofFound found
  | [] => []

/-- What is found in a part of a list. -/
def foundIn (part : Text) : List (Rule × Text) :=
  match Text.cut? '=' part with
  | none => [(.key, part)]
  | some (key, value) => [(.key, key), (.value, value)]

theorem ofFound_flatMap (parts : List Text) :
    ofFound (parts.flatMap foundIn) = parts.map ofPart := by
  induction parts with
  | nil => rfl
  | cons part parts ih =>
    rw [List.flatMap_cons, List.map_cons, ← ih, foundIn, ofPart]
    cases Text.cut? '=' part with
    | some found => rfl
    | none =>
      -- A key is not taken for one with a value, because what is found next is a key or nothing.
      cases parts with
      | nil => rfl
      | cons next parts =>
        rw [List.flatMap_cons, foundIn]
        cases Text.cut? '=' next <;> rfl

section Reading

variable {key value part rest t : Text} {parts : List Text}

theorem run_key (hequals : '=' ∉ key) (hcomma : ',' ∉ key)
    (hrest : ∀ c ∈ rest.head?, c = '=' ∨ c = ',') : Text.Run isKeyChar key rest where
  inside c hc := by
    have h1 : c ≠ '=' := fun heq => hequals (heq ▸ hc)
    have h2 : c ≠ ',' := fun heq => hcomma (heq ▸ hc)
    simp [isKeyChar, h1, h2]
  stops c hc := by
    rcases hrest c hc with rfl | rfl <;> rfl

theorem read_keyGrammar (h : Text.Run isKeyChar key rest) :
    keyGrammar.read (key ++ rest) =
      if key = [] then none else some ⟨key, [(.key, key)], rest⟩ := by
  rw [keyGrammar, Grammar.read, Grammar.read_atLeastOnce_one, h.takeWhile_eq, h.dropWhile_eq]
  split
  · rfl
  · rfl

theorem read_valueGrammar (h : ',' ∉ value) (hrest : ∀ c ∈ rest.head?, c = ',') :
    valueGrammar.read ('=' :: (value ++ rest)) =
      some ⟨'=' :: value, [(.value, value)], rest⟩ := by
  have hrun := Text.run_of_not_mem h hrest
  rw [valueGrammar, Grammar.read, Grammar.read_exactly_cons, Option.bind_some, Grammar.read,
    Grammar.read_many_one, hrun.takeWhile_eq, hrun.dropWhile_eq]
  rfl

theorem read_valueGrammar_eq_none (hrest : ∀ c ∈ rest.head?, c = ',') :
    valueGrammar.read rest = none := by
  have hhead : rest.head? ≠ some '=' := by
    intro hequals
    cases hrest '=' hequals
  rw [valueGrammar, Grammar.read, Grammar.read_exactly_of_head?_ne hhead, Option.bind_none]

/-- **One term.**  In front of a comma or of the end, a part is read if it is a term. -/
theorem read_termGrammar (hpart : ',' ∉ part) (hrest : ∀ c ∈ rest.head?, c = ',') :
    termGrammar.read (part ++ rest) =
      if isTerm part then some ⟨part, foundIn part, rest⟩ else none := by
  by_cases hmem : '=' ∈ part
  · obtain ⟨key, value, rfl, hkey⟩ := List.eq_append_cons_of_mem hmem
    have hcommas : ',' ∉ key ∧ ',' ∉ value := by simpa using hpart
    have hrun : Text.Run isKeyChar key ('=' :: (value ++ rest)) :=
      run_key hkey hcommas.1 fun c hc => Or.inl (Option.some.inj hc).symm
    rw [foundIn, Text.cut?_append value hkey, List.append_assoc, List.cons_append, termGrammar,
      Grammar.read, read_keyGrammar hrun]
    cases key with
    | nil => rfl
    | cons c key =>
      have hterm : isTerm (c :: key ++ '=' :: value) = true := by
        have hc : c ≠ '=' := fun heq => hkey (heq ▸ List.mem_cons_self)
        simpa [isTerm] using hc
      rw [if_neg (List.cons_ne_nil c key), if_pos hterm, Option.bind_some, Grammar.read,
        read_valueGrammar hcommas.2 hrest]
      rfl
  · have hrun : Text.Run isKeyChar part rest :=
      run_key hmem hpart fun c hc => Or.inr (hrest c hc)
    rw [foundIn, Text.cut?_eq_none hmem, termGrammar, Grammar.read, read_keyGrammar hrun]
    cases part with
    | nil => rfl
    | cons c part =>
      have hterm : isTerm (c :: part) = true := by
        have hc : c ≠ '=' := fun heq => hmem (heq ▸ List.mem_cons_self)
        simpa [isTerm] using hc
      rw [if_neg (List.cons_ne_nil c part), if_pos hterm, Option.bind_some, Grammar.read,
        read_valueGrammar_eq_none hrest]
      simp [Grammar.Reading.andThen, Grammar.Reading.start]

/-- Parts behind commas start with a comma. -/
theorem head?_flatMap_comma (parts : List Text) :
    ∀ c ∈ (parts.flatMap (',' :: ·)).head?, c = ',' := by
  intro c hc
  cases parts with
  | nil => cases hc
  | cons part parts => exact (Option.some.inj hc).symm

theorem flatMap_comma_takeWhile_append (p : Text → Bool) (parts : List Text) :
    (parts.takeWhile p).flatMap (',' :: ·) ++ (parts.dropWhile p).flatMap (',' :: ·) =
      parts.flatMap (',' :: ·) := by
  rw [← List.flatMap_append, List.takeWhile_append_dropWhile]

theorem length_le_flatMap_comma (parts : List Text) :
    parts.length ≤ (parts.flatMap (',' :: ·)).length := by
  induction parts with
  | nil => exact Nat.le_refl _
  | cons part parts ih =>
    rw [List.flatMap_cons, List.length_append, List.length_cons, List.length_cons]
    omega

/-- **Further terms** are read up to the first part that is none. -/
theorem repeated_furtherTerm (h : ∀ part ∈ parts, ',' ∉ part) {rounds : Nat}
    (hrounds : parts.length ≤ rounds) :
    Grammar.repeated furtherTerm.read rounds (parts.flatMap (',' :: ·)) =
      ⟨(parts.takeWhile isTerm).flatMap (',' :: ·), (parts.takeWhile isTerm).flatMap foundIn,
        (parts.dropWhile isTerm).flatMap (',' :: ·)⟩ := by
  induction parts generalizing rounds with
  | nil => exact Grammar.repeated_of_none rfl rounds
  | cons part parts ih =>
    obtain ⟨hpart, hparts⟩ := List.forall_mem_cons.mp h
    obtain ⟨rounds, rfl⟩ :=
      Nat.exists_eq_add_of_le' (Nat.lt_of_lt_of_le (Nat.succ_pos _) hrounds)
    have hread : furtherTerm.read ((part :: parts).flatMap (',' :: ·)) =
        if isTerm part then
          some ⟨',' :: part, foundIn part, parts.flatMap (',' :: ·)⟩ else none := by
      rw [List.flatMap_cons, List.cons_append, furtherTerm, Grammar.read, Grammar.read_exactly_cons,
        Option.bind_some, read_termGrammar hpart (head?_flatMap_comma parts)]
      split
      · rfl
      · rfl
    by_cases hterm : isTerm part = true
    · rw [if_pos hterm] at hread
      rw [Grammar.repeated_of_some hread, ih hparts (Nat.le_of_succ_le_succ hrounds)]
      simp [Grammar.Reading.andThen, hterm]
    · rw [if_neg hterm] at hread
      rw [Grammar.repeated_of_none hread]
      simp [Grammar.Reading.start, hterm]

/-- Behind the terms a comma may stand, and nothing else. -/
theorem read_finalComma (t : Text) :
    finalComma.read t = if Bare t then some ⟨t, [], []⟩ else none := by
  rw [finalComma, Grammar.read, Grammar.read]
  by_cases hcomma : t.head? = some ','
  · obtain ⟨rest, rfl⟩ := List.head?_eq_some_iff.mp hcomma
    rw [Grammar.read_exactly_cons, Option.some_or, Option.bind_some, Grammar.read]
    cases rest with
    | nil => rfl
    | cons c rest => rfl
  · rw [Grammar.read_exactly_of_head?_ne hcomma, Option.none_or, Option.bind_some, Grammar.read]
    cases t with
    | nil => rfl
    | cons c rest =>
      have hbare : ¬ Bare (c :: rest) := by
        rintro (hnil | hsole)
        · cases hnil
        · exact hcomma (hsole ▸ rfl)
      rw [if_neg hbare]
      rfl

/-- **The grammar of lists.**  If the first part is a term, it and the terms behind it are read;
otherwise none is.  What is left must be a comma or nothing. -/
theorem read_listGrammar (hpart : ',' ∉ part) (hparts : ∀ part ∈ parts, ',' ∉ part) :
    listGrammar.read (part ++ parts.flatMap (',' :: ·)) =
      if isTerm part then
        if Bare ((parts.dropWhile isTerm).flatMap (',' :: ·)) then
          some ⟨part ++ parts.flatMap (',' :: ·),
            (part :: parts.takeWhile isTerm).flatMap foundIn, []⟩
        else none
      else if Bare (part ++ parts.flatMap (',' :: ·)) then
        some ⟨part ++ parts.flatMap (',' :: ·), [], []⟩
      else none := by
  have hterm := read_termGrammar hpart (head?_flatMap_comma parts)
  rw [listGrammar, Grammar.read, Grammar.read, Grammar.read, hterm]
  split
  · rw [Option.bind_some, Grammar.read, repeated_furtherTerm hparts (length_le_flatMap_comma parts),
      Option.map_some, Option.some_or, Option.bind_some]
    simp only [Grammar.Reading.andThen, read_finalComma]
    split
    · simp [Grammar.Reading.andThen, flatMap_comma_takeWhile_append isTerm parts]
    · rfl
  · rw [Option.bind_none, Option.none_or, Option.bind_some]
    simp only [Grammar.Reading.start, read_finalComma]
    split
    · rfl
    · rfl

theorem bare_flatMap_comma_iff :
    Bare (parts.flatMap (',' :: ·)) ↔ parts = [] ∨ parts = [[]] := by
  match parts with
  | [] => simp [Bare]
  | [[]] => simp [Bare]
  | [c :: part] => simp [Bare]
  | part :: next :: parts => simp [Bare]

/-- A list as it is written is read. -/
theorem ListForm.read_text (form : ListForm) :
    listGrammar.read form.text = some ⟨form.text, form.parts.flatMap foundIn, []⟩ := by
  obtain ⟨part, parts, hform⟩ := List.exists_cons_of_ne_nil form.parts_ne_nil
  have hcommas : ',' ∉ part ∧ ∀ part ∈ parts, ',' ∉ part :=
    List.forall_mem_cons.mp (hform ▸ form.comma_not_mem)
  have hterms : isTerm part = true ∧ ∀ part ∈ parts, isTerm part = true :=
    List.forall_mem_cons.mp (hform ▸ fun part hpart => form.isTerm_of_mem hpart)
  have hall : ∀ tail : List Text, tail = [] ∨ tail = [[]] →
      listGrammar.read (part ++ (parts ++ tail).flatMap (',' :: ·)) =
        some ⟨part ++ (parts ++ tail).flatMap (',' :: ·), (part :: parts).flatMap foundIn, []⟩ := by
    intro tail htail
    have hclear : ∀ part ∈ parts ++ tail, ',' ∉ part := by
      refine List.forall_mem_append.mpr ⟨hcommas.2, ?_⟩
      rcases htail with rfl | rfl <;> simp
    have hleft : (parts ++ tail).dropWhile isTerm = tail ∧
        (parts ++ tail).takeWhile isTerm = parts := by
      rw [List.dropWhile_append_of_pos hterms.2, List.takeWhile_append_of_pos hterms.2]
      rcases htail with rfl | rfl <;> simp [isTerm]
    rw [read_listGrammar hcommas.1 hclear, if_pos hterms.1, hleft.1, hleft.2,
      if_pos (bare_flatMap_comma_iff.mpr htail)]
  have htext : form.text = part ++ parts.flatMap (',' :: ·) ++ Text.charIf ',' form.final := by
    rw [text, hform, Text.joinWith_cons_eq_flatMap]
    rfl
  rw [htext, hform]
  cases form.final with
  | false => simpa [Text.charIf] using hall [] (Or.inl rfl)
  | true => simpa [Text.charIf] using hall [[]] (Or.inr rfl)

/-- What is read is written as a list. -/
theorem bare_or_exists_of_read {reading : Grammar.Reading Rule}
    (h : listGrammar.read t = some reading) :
    Bare t ∧ reading.found = [] ∨
      ∃ form : ListForm, form.text = t ∧ reading.found = form.parts.flatMap foundIn := by
  obtain ⟨part, parts, hsplit⟩ := List.exists_cons_of_ne_nil (Text.splitOn_ne_nil ',' t)
  have hcommas : ∀ part' ∈ part :: parts, ',' ∉ part' :=
    fun _ hmem => Text.not_mem_of_mem_splitOn (hsplit ▸ hmem)
  have ht : t = part ++ parts.flatMap (',' :: ·) := by
    rw [← Text.joinWith_splitOn ',' t, hsplit, Text.joinWith_cons_eq_flatMap]
    rfl
  obtain ⟨hpart, hparts⟩ := List.forall_mem_cons.mp hcommas
  rw [ht, read_listGrammar hpart hparts] at h
  split at h
  · rename_i hterm
    split at h
    · rename_i hleft
      cases h
      have hterms : ∀ other ∈ part :: parts.takeWhile isTerm, isTerm other = true :=
        List.forall_mem_cons.mpr ⟨hterm, List.all_eq_true.mp List.all_takeWhile⟩
      have hsub : ∀ other ∈ part :: parts.takeWhile isTerm, ',' ∉ other :=
        List.forall_mem_cons.mpr ⟨hpart, fun other hmem =>
          hparts other ((List.takeWhile_sublist isTerm).subset hmem)⟩
      obtain ⟨final, hfinal⟩ := hleft.exists_charIf
      refine Or.inr ⟨⟨part :: parts.takeWhile isTerm, final, List.cons_ne_nil _ _, hsub,
        fun other hmem => (isTerm_iff.mp (hterms other hmem)).1,
        fun other hmem => (isTerm_iff.mp (hterms other hmem)).2⟩, ?_, rfl⟩
      rw [ListForm.text, Text.joinWith_cons_eq_flatMap, ← hfinal, List.append_assoc, ht]
      exact congrArg (part ++ ·) (flatMap_comma_takeWhile_append isTerm parts)
    · cases h
  · split at h
    · rename_i hbare
      cases h
      exact Or.inl ⟨ht ▸ hbare, rfl⟩
    · cases h

/-- **The grammar.**  Reading a list part by part is reading it by the grammar. -/
theorem parseTrimmed?_eq_read (t : Text) :
    parseTrimmed? t = (listGrammar.read t).map fun reading => ofFound reading.found := by
  ext terms
  rw [parseTrimmed?_eq_some_iff, Option.map_eq_some_iff]
  constructor
  · rintro (⟨rfl | rfl, rfl⟩ | ⟨form, rfl, hparts⟩)
    · exact ⟨_, rfl, rfl⟩
    · exact ⟨_, rfl, rfl⟩
    · refine ⟨_, form.read_text, ?_⟩
      rw [forall₂_spells_iff.mp hparts, ofFound_flatMap]
  · rintro ⟨reading, hread, rfl⟩
    rcases bare_or_exists_of_read hread with ⟨hbare, hfound⟩ | ⟨form, hform, hfound⟩
    · exact Or.inl ⟨hbare, congrArg ofFound hfound⟩
    · exact Or.inr ⟨form, hform, forall₂_spells_iff.mpr (by rw [hfound, ofFound_flatMap])⟩

end Reading

/-! ## 4. The round trip -/

/-- The term is read from its own text without a change. -/
structure Exact (term : Term) : Prop extends Spelled term where
  trim_value : ∀ value ∈ term.value?, Text.trim value = value

section RoundTrip

variable {term : Term} {terms : List Term}

theorem Exact.trimmed_eq (h : term.Exact) : term.trimmed = term := by
  obtain ⟨key, value?⟩ := term
  cases value? with
  | none => rfl
  | some value => simp [trimmed, h.trim_value value rfl]

/-- Blanks at the ends of its text would be blanks at the ends of its key or of its value. -/
theorem Exact.trim_text (h : term.Exact) : Text.trim term.text = term.text := by
  rw [text]
  split
  · exact h.trim_key
  · rename_i value hvalue
    rcases eq_or_ne value [] with rfl | hne
    · have hequals : Text.trim ['='] = ['='] := by decide
      simpa using Text.trim_append_append h.trim_key h.key_ne_nil hequals (by decide) []
    · have htrim :=
        Text.trim_append_append h.trim_key h.key_ne_nil (h.trim_value value hvalue) hne ['=']
      rwa [List.append_assoc, List.singleton_append] at htrim

theorem Exact.isTerm_text (h : term.Exact) : isTerm term.text = true := by
  refine isTerm_of_key_ne_nil ?_
  rw [h.ofPart_text]
  exact h.key_ne_nil

/-- The texts of terms make a list. -/
def ListForm.ofTerms (terms : List Term) (final : Bool) (hne : terms ≠ [])
    (h : ∀ term ∈ terms, term.Exact) : ListForm where
  parts := terms.map Term.text
  final := final
  parts_ne_nil := by simpa using hne
  comma_not_mem := List.forall_mem_map.mpr fun term hterm => (h term hterm).comma_not_mem_text
  part_ne_nil :=
    List.forall_mem_map.mpr fun term hterm => (isTerm_iff.mp (h term hterm).isTerm_text).1
  head?_ne_equals :=
    List.forall_mem_map.mpr fun term hterm => (isTerm_iff.mp (h term hterm).isTerm_text).2

/-- A comma behind a trimmed text is no blank. -/
theorem trim_append_comma {t : Text} (h : Text.trim t = t) (final : Bool) :
    Text.trim (t ++ Text.charIf ',' final) = t ++ Text.charIf ',' final := by
  have hcomma : Text.trim [','] = [','] := by decide
  cases final with
  | false => simpa [Text.charIf] using h
  | true =>
    rcases eq_or_ne t [] with rfl | hne
    · exact hcomma
    · simpa [Text.charIf] using Text.trim_append_append h hne hcomma (by decide) []

/-- **The round trip.**  Terms that are listed, with or without a comma behind them, are read as they
are. -/
theorem parseList?_exact (h : ∀ term ∈ terms, term.Exact) (final : Bool) :
    parseList? (Text.joinWith [','] (terms.map text) ++ Text.charIf ',' final) = some terms := by
  rcases eq_or_ne terms [] with rfl | hne
  · cases final <;> rfl
  · have hparts : ∀ part ∈ terms.map text, Text.trim part = part ∧ part ≠ [] :=
      List.forall_mem_map.mpr fun term hterm =>
        ⟨(h term hterm).trim_text, (isTerm_iff.mp (h term hterm).isTerm_text).1⟩
    have hexact : terms.map trimmed = terms :=
      List.map_congr_left (fun term hterm => (h term hterm).trimmed_eq) |>.trans (List.map_id terms)
    calc parseList? (Text.joinWith [','] (terms.map text) ++ Text.charIf ',' final)
        = parseTrimmed? (ListForm.ofTerms terms final hne h).text := by
          rw [parseList?, trim_append_comma (Text.trim_joinWith [','] hparts)]
          rfl
      _ = some ((terms.map text).map ofPart) := ListForm.parseTrimmed?_text _
      _ = some terms := by
          rw [map_ofPart_text fun term hterm => (h term hterm).toSpelled, hexact]

end RoundTrip

/-- **The language of lists of terms.**  A list is read as its grammar says.  Without the blanks
around it, a text is accepted if and only if it is empty, a comma, or written as parts between commas,
of which none is empty or starts with `=`, and possibly a comma behind them; every part spells a term.
So terms that are listed, with or without a comma behind them, are read as they are. -/
theorem parseList?_language (t : Text) :
    (parseList? t = (listGrammar.read (Text.trim t)).map fun reading => ofFound reading.found) ∧
    ((parseList? t).isSome ↔
      Bare (Text.trim t) ∨ ∃ form : ListForm, form.text = Text.trim t) ∧
    (Bare (Text.trim t) → parseList? t = some []) ∧
    (∀ form : ListForm, form.text = Text.trim t →
      ∃ terms, parseList? t = some terms ∧ List.Forall₂ Spells form.parts terms) ∧
    (∀ terms : List Term, (∀ term ∈ terms, term.Exact) → ∀ final,
      parseList? (Text.joinWith [','] (terms.map text) ++ Text.charIf ',' final) = some terms) := by
  have hform : ∀ form : ListForm, form.text = Text.trim t →
      ∃ terms, parseList? t = some terms ∧ List.Forall₂ Spells form.parts terms :=
    fun form htext =>
      ⟨_, parseTrimmed?_eq_some_iff.mpr (Or.inr ⟨form, htext, forall₂_spells_iff.mpr rfl⟩),
        forall₂_spells_iff.mpr rfl⟩
  have hnone : Bare (Text.trim t) → parseList? t = some [] := fun hbare => if_pos hbare
  refine ⟨parseTrimmed?_eq_read _, ⟨?_, ?_⟩, hnone, hform,
    fun terms h final => parseList?_exact h final⟩
  · intro h
    obtain ⟨terms, hterms⟩ := Option.isSome_iff_exists.mp h
    rcases parseTrimmed?_eq_some_iff.mp hterms with ⟨hbare, -⟩ | ⟨form, htext, -⟩
    · exact Or.inl hbare
    · exact Or.inr ⟨form, htext⟩
  · rintro (hbare | ⟨form, htext⟩)
    · rw [hnone hbare]
      rfl
    · obtain ⟨terms, hterms, -⟩ := hform form htext
      rw [hterms]
      rfl

end Term

namespace Example

/-- Terms whose values are missing, empty, and not free of `=`. -/
def mixedTerms : List Term :=
  [⟨"edge".toList, none⟩, ⟨"name".toList, some "a=b".toList⟩, ⟨"mask".toList, some []⟩]

/-- Terms with blanks around their keys and values and a comma behind them. -/
def looseForm : Term.ListForm :=
  ⟨["edge ".toList, " name = a=b".toList, "mask=	".toList], true, by decide, by decide, by decide,
    by decide⟩

end Example

open Example in
theorem Term.parseList?_language_mixedTerms :
    (parseList? "edge,name=a=b,mask=,".toList = some mixedTerms) ∧
    (looseForm.text = Text.trim "
 edge , name = a=b,mask=	, ".toList ∧
      parseList? "
 edge , name = a=b,mask=	, ".toList = some mixedTerms) ∧
    (Bare (Text.trim " , ".toList) ∧ parseList? " , ".toList = some []) ∧
    (parseList? "edge,,".toList = none) := by
  have hexact : ∀ term ∈ mixedTerms, term.Exact := by
    intro term hterm
    simp only [mixedTerms, List.mem_cons, List.not_mem_nil, or_false] at hterm
    rcases hterm with rfl | rfl | rfl <;>
      exact ⟨⟨by decide, by decide, by decide, by decide, by decide⟩, by decide⟩
  obtain ⟨-, -, -, hform, hround⟩ := parseList?_language "
 edge , name = a=b,mask=	, ".toList
  obtain ⟨-, -, hbare, -⟩ := parseList?_language " , ".toList
  refine ⟨hround mixedTerms hexact true, ⟨rfl, ?_⟩, ⟨Or.inr rfl, hbare (Or.inr rfl)⟩, rfl⟩
  obtain ⟨terms, hterms, hspells⟩ := hform looseForm rfl
  rw [hterms, Term.forall₂_spells_iff.mp hspells]
  rfl

end HardwareCounters
