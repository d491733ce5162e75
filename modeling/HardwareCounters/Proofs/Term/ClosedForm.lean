/-
# What a list of terms leaves

A term assigns a word, adds bits to a word, sets the sampling, or only labels the event.  Applied one
after another such terms leave in every word the number that was assigned last and, on top of it, the
bits that were packed since then.  What was packed before is lost, and because bits are only added,
the order and the number of the terms in between are not seen.

* `Term.act` is what one term does, and `closedForm` what a list leaves, said word by word;
* `foldl_act`: the two agree;
* `Sound` terms are applied without failure, by `applyOne_of_sound`, and `sound_or_first_fault` finds
  the first that is not;
* `closedForm_of_rearranged`: between two assignments of a word only the set of its terms counts;
* `apply_closed_form` is what applying a text does, in success and in failure.
-/
import HardwareCounters.Proofs.Bitfield.Packing
import HardwareCounters.Proofs.Term.Failing
import Mathlib.Data.List.DropRight

namespace HardwareCounters

/-! ## 1. Bits that are added -/

/-- Packing adds the bits that it would leave in an empty word. -/
theorem Bitfield.packRanges_eq_or (ranges : List BitRange) (value target : Word) :
    packRanges ranges value target = target ||| packRanges ranges value 0 := by
  refine BitVec.eq_of_getLsbD_eq fun i _ => ?_
  rw [Bool.eq_iff_iff, BitVec.getLsbD_or, Bool.or_eq_true, getLsbD_packRanges, getLsbD_packRanges]
  simp

/-- A bit of several words together is set if it is set in one of them. -/
theorem getLsbD_foldl_or (words : List Word) (start : Word) (i : Nat) :
    (words.foldl (· ||| ·) start).getLsbD i = true ↔
      start.getLsbD i = true ∨ ∃ word ∈ words, word.getLsbD i = true := by
  induction words generalizing start with
  | nil => simp
  | cons word words ih =>
    rw [List.foldl_cons, ih, BitVec.getLsbD_or, Bool.or_eq_true, or_assoc]
    simp only [List.mem_cons, exists_eq_or_imp]

namespace Term

variable {s : Sysfs} {directory text : Text} {term : Term} {terms others : List Term}
  {attr : Attribute}

/-! ## 2. What one term does -/

/-- The number that a term stands for, or 0 if its text spells none. -/
def value (term : Term) : Word := term.number.toOption.getD 0

/-- The key of the term is reserved. -/
def isReserved (term : Term) : Bool := reservedKeys.contains term.key

/-- The bit field into which a term packs its number.  A reserved key names none, even if there is a
file for it. -/
def field? (s : Sysfs) (directory : Text) (term : Term) : Option Bitfield :=
  if term.isReserved then none
  else (s.format? directory term.key).bind fun format => (Bitfield.parse format).toOption

/-- The sampling that a term sets. -/
def sampling? (term : Term) : Option Sampling :=
  if term.key = "period".toList then some (.period term.value)
  else if term.key = "freq".toList then some (.frequency term.value)
  else none

/-- What packing a term leaves in a word in which nothing was before. -/
def contribution (s : Sysfs) (directory : Text) (which : ConfigWord) (term : Term) : Word :=
  ((term.field? s directory).map fun field => (field.pack term.value {}).word which).getD 0

/-- What a term does to an attribute. -/
def act (s : Sysfs) (directory : Text) (term : Term) (attr : Attribute) : Attribute :=
  match term.field? s directory with
  | some field => field.pack term.value attr
  | none => (setDirectly? term.key term.value attr).getD attr

/-- The word after a term, if it was `before`. -/
def wordAfterOne (s : Sysfs) (directory : Text) (which : ConfigWord) (before : Word) (term : Term) :
    Word :=
  if term.key = which.key.toList then term.value
  else before ||| contribution s directory which term

@[simp] theorem isReserved_iff : term.isReserved = true ↔ term.key ∈ reservedKeys :=
  List.contains_iff_mem

theorem mem_reservedKeys_of_key {which : ConfigWord} (h : term.key = which.key.toList) :
    term.key ∈ reservedKeys := by
  rw [h]
  cases which <;> decide

theorem field?_eq_none (h : term.key ∈ reservedKeys) : term.field? s directory = none :=
  if_pos (isReserved_iff.mpr h)

theorem field?_eq_bind (h : term.key ∉ reservedKeys) :
    term.field? s directory =
      (s.format? directory term.key).bind fun format => (Bitfield.parse format).toOption :=
  if_neg fun hreserved => h (isReserved_iff.mp hreserved)

theorem sampling?_eq_none (h : term.key ∉ reservedKeys) : term.sampling? = none := by
  simp only [reservedKeys, List.map_cons, List.mem_cons, not_or] at h
  rw [sampling?, if_neg h.2.1, if_neg h.2.2.1]

/-- Only a term for a bit field adds to a word. -/
theorem wordAfterOne_of_no_field (h : term.field? s directory = none) (which : ConfigWord)
    (before : Word) :
    wordAfterOne s directory which before term =
      if term.key = which.key.toList then term.value else before := by
  rw [wordAfterOne, contribution, h, Option.map_none, Option.getD_none]
  exact congrArg (ite _ _) BitVec.or_zero

/-- The three words and the sampling after a term, and the rest as it was. -/
theorem act_eq (s : Sysfs) (directory : Text) (term : Term) (attr : Attribute) :
    term.act s directory attr =
      { attr with
        config := wordAfterOne s directory .config attr.config term
        config1 := wordAfterOne s directory .config1 attr.config1 term
        config2 := wordAfterOne s directory .config2 attr.config2 term
        sampling := term.sampling?.getD attr.sampling } := by
  by_cases hreserved : term.key ∈ reservedKeys
  · have hnone : term.field? s directory = none := field?_eq_none hreserved
    obtain ⟨key, value?⟩ := term
    simp only [act, hnone, wordAfterOne_of_no_field hnone]
    simp only [reservedKeys, List.map_cons, List.map_nil, List.mem_cons, List.not_mem_nil,
      or_false] at hreserved
    rcases hreserved with rfl | rfl | rfl | rfl | rfl | rfl <;> rfl
  · have hkey : ∀ which : ConfigWord, term.key ≠ which.key.toList :=
      fun which h => hreserved (mem_reservedKeys_of_key h)
    rw [sampling?_eq_none hreserved, Option.getD_none]
    cases hfield : term.field? s directory with
    | none =>
      simp only [act, hfield, wordAfterOne_of_no_field hfield, if_neg (hkey _),
        setDirectly?_eq_none hreserved, Option.getD_none]
    | some field =>
      obtain ⟨which, ranges⟩ := field
      simp only [act, hfield, wordAfterOne, if_neg (hkey _), contribution, Option.map_some,
        Option.getD_some, Bitfield.word_pack]
      rw [Bitfield.pack, Bitfield.packRanges_eq_or]
      cases which <;> simp [Attribute.setWord, Attribute.word]

/-! ## 3. What a list leaves -/

/-- The number of the last term that assigns the word, or `before` if none does. -/
def lastAssigned (which : ConfigWord) (before : Word) (terms : List Term) : Word :=
  ((terms.filter fun term => term.key = which.key.toList).getLast?.map value).getD before

/-- The terms behind the last one that assigns the word. -/
def sinceAssigned (which : ConfigWord) (terms : List Term) : List Term :=
  terms.rtakeWhile fun term => term.key ≠ which.key.toList

/-- The word that terms leave: what was assigned last, and the bits that were packed since. -/
def wordAfter (s : Sysfs) (directory : Text) (which : ConfigWord) (before : Word)
    (terms : List Term) : Word :=
  ((sinceAssigned which terms).map (contribution s directory which)).foldl (· ||| ·)
    (lastAssigned which before terms)

/-- The sampling that terms leave: what was set last. -/
def samplingAfter (before : Sampling) (terms : List Term) : Sampling :=
  (terms.filterMap sampling?).getLast?.getD before

/-- The attribute that terms leave. -/
def closedForm (s : Sysfs) (directory : Text) (terms : List Term) (attr : Attribute) : Attribute :=
  { attr with
    config := wordAfter s directory .config attr.config terms
    config1 := wordAfter s directory .config1 attr.config1 terms
    config2 := wordAfter s directory .config2 attr.config2 terms
    sampling := samplingAfter attr.sampling terms }

theorem wordAfter_concat (which : ConfigWord) (before : Word) (terms : List Term) (term : Term) :
    wordAfter s directory which before (terms ++ [term]) =
      wordAfterOne s directory which (wordAfter s directory which before terms) term := by
  by_cases hkey : term.key = which.key.toList
  · have hsince : sinceAssigned which (terms ++ [term]) = [] :=
      List.rtakeWhile_concat_neg _ _ _ (by simpa using hkey)
    rw [wordAfter, hsince, wordAfterOne, if_pos hkey, lastAssigned, List.filter_append]
    simp [hkey]
  · have hsince : sinceAssigned which (terms ++ [term]) = sinceAssigned which terms ++ [term] :=
      List.rtakeWhile_concat_pos _ _ _ (by simpa using hkey)
    have hlast : lastAssigned which before (terms ++ [term]) = lastAssigned which before terms := by
      rw [lastAssigned, List.filter_append]
      simp [hkey, lastAssigned]
    rw [wordAfter, hsince, hlast, wordAfterOne, if_neg hkey, List.map_append, List.foldl_append,
      List.map_singleton, List.foldl_cons, List.foldl_nil, wordAfter]

theorem samplingAfter_concat (before : Sampling) (terms : List Term) (term : Term) :
    samplingAfter before (terms ++ [term]) =
      term.sampling?.getD (samplingAfter before terms) := by
  rw [samplingAfter, List.filterMap_append]
  cases hsampling : term.sampling? with
  | none => simp [hsampling, samplingAfter]
  | some sampling => simp [hsampling]

/-- **The closed form.**  Terms that act one after another leave what is said word by word. -/
theorem foldl_act (s : Sysfs) (directory : Text) (terms : List Term) (attr : Attribute) :
    terms.foldl (fun attr term => term.act s directory attr) attr =
      closedForm s directory terms attr := by
  induction terms using List.reverseRecOn with
  | nil => rfl
  | append_singleton terms term ih =>
    rw [List.foldl_append, ih, List.foldl_cons, List.foldl_nil, act_eq]
    simp only [closedForm, wordAfter_concat, samplingAfter_concat]

theorem closedForm_append (s : Sysfs) (directory : Text) (terms others : List Term)
    (attr : Attribute) :
    closedForm s directory (terms ++ others) attr =
      closedForm s directory others (closedForm s directory terms attr) := by
  simp only [← foldl_act, List.foldl_append]

/-! ## 4. Terms in another order -/

/-- The same terms for bit fields, in any order and any number, and in between the same other terms in
their order, none of which assigns a word that is packed into. -/
structure Rearranged (s : Sysfs) (directory : Text) (terms others : List Term) : Prop where
  fields : ∀ term : Term, term.key ∉ reservedKeys → (term ∈ terms ↔ term ∈ others)
  rest : terms.filter isReserved = others.filter isReserved
  no_assignment : ∀ packed ∈ terms, ∀ field, packed.field? s directory = some field →
    ∀ term ∈ terms, term.key ≠ field.word.key.toList

theorem Rearranged.mem_iff (h : Rearranged s directory terms others) (term : Term) :
    term ∈ terms ↔ term ∈ others := by
  by_cases hkey : term.key ∈ reservedKeys
  · have hmem := congrArg (term ∈ ·) h.rest
    simpa [hkey] using hmem
  · exact h.fields term hkey

theorem Rearranged.symm (h : Rearranged s directory terms others) :
    Rearranged s directory others terms where
  fields := fun term hkey => (h.fields term hkey).symm
  rest := h.rest.symm
  no_assignment := fun packed hpacked field hfield term hterm =>
    h.no_assignment packed ((h.mem_iff packed).mpr hpacked) field hfield term
      ((h.mem_iff term).mpr hterm)

/-- Without assignments a word keeps what it had. -/
theorem wordAfter_of_no_assignment {which : ConfigWord}
    (h : ∀ term ∈ terms, term.key ≠ which.key.toList) (before : Word) :
    wordAfter s directory which before terms =
      (terms.map (contribution s directory which)).foldl (· ||| ·) before := by
  have hsince : sinceAssigned which terms = terms :=
    List.rtakeWhile_eq_self_iff.mpr fun term hterm => by simpa using h term hterm
  have hlast : lastAssigned which before terms = before := by
    have hnone : (terms.filter fun term => term.key = which.key.toList) = [] :=
      List.filter_eq_nil_iff.mpr fun term hterm => by simpa using h term hterm
    rw [lastAssigned, hnone, List.getLast?_nil, Option.map_none, Option.getD_none]
  rw [wordAfter, hsince, hlast]

/-- A term adds nothing to a word in which its bit field does not lie. -/
theorem contribution_eq_zero {which : ConfigWord}
    (h : ∀ field, term.field? s directory = some field → field.word ≠ which) :
    contribution s directory which term = 0 := by
  rw [contribution]
  cases hfield : term.field? s directory with
  | none => rfl
  | some field =>
    rw [Option.map_some, Option.getD_some, Bitfield.word_pack, if_neg (h field hfield).symm]
    cases which <;> rfl

/-- A word that is not packed into is what was assigned to it. -/
theorem wordAfter_of_no_contribution {which : ConfigWord}
    (h : ∀ term ∈ terms, contribution s directory which term = 0) (before : Word) :
    wordAfter s directory which before terms = lastAssigned which before terms := by
  refine BitVec.eq_of_getLsbD_eq fun i _ => ?_
  rw [Bool.eq_iff_iff, wordAfter, getLsbD_foldl_or, or_iff_left]
  rintro ⟨word, hword, hbit⟩
  obtain ⟨term, hterm, rfl⟩ := List.mem_map.mp hword
  rw [h term ((List.rtakeWhile_suffix _ _).mem hterm)] at hbit
  simp at hbit

/-- What is assigned depends on nothing but the terms with reserved keys. -/
theorem lastAssigned_filter (which : ConfigWord) (before : Word) (terms : List Term) :
    lastAssigned which before (terms.filter isReserved) =
      lastAssigned which before terms := by
  rw [lastAssigned, lastAssigned, List.filter_filter]
  refine congrArg (fun found => (found.getLast?.map value).getD before) (List.filter_congr ?_)
  intro term _
  by_cases hkey : term.key = which.key.toList
  · simp [hkey, hkey ▸ mem_reservedKeys_of_key hkey]
  · simp [hkey]

/-- The sampling depends on nothing but the terms with reserved keys. -/
theorem samplingAfter_filter (before : Sampling) (terms : List Term) :
    samplingAfter before (terms.filter isReserved) = samplingAfter before terms := by
  rw [samplingAfter, samplingAfter, List.filterMap_filter]
  refine congrArg (fun found => (found.getLast?).getD before) (List.filterMap_congr ?_)
  intro term _
  by_cases hkey : term.key ∈ reservedKeys
  · simp [hkey]
  · simp [hkey, sampling?_eq_none hkey]

theorem wordAfter_of_rearranged (h : Rearranged s directory terms others) (which : ConfigWord)
    (before : Word) :
    wordAfter s directory which before others = wordAfter s directory which before terms := by
  by_cases hpacked : ∃ packed ∈ terms, ∃ field, packed.field? s directory = some field ∧
      field.word = which
  · -- Nothing is assigned to the word, so its bits are those of all the terms together.
    obtain ⟨packed, hmem, field, hfield, rfl⟩ := hpacked
    have hterms : ∀ term ∈ terms, term.key ≠ field.word.key.toList :=
      h.no_assignment packed hmem field hfield
    have hothers : ∀ term ∈ others, term.key ≠ field.word.key.toList :=
      fun term hterm => hterms term ((h.mem_iff term).mpr hterm)
    rw [wordAfter_of_no_assignment hterms, wordAfter_of_no_assignment hothers]
    refine BitVec.eq_of_getLsbD_eq fun i _ => ?_
    rw [Bool.eq_iff_iff, getLsbD_foldl_or, getLsbD_foldl_or]
    simp only [List.mem_map, exists_exists_and_eq_and, h.mem_iff]
  · have hterms : ∀ term ∈ terms, contribution s directory which term = 0 :=
      fun term hterm => contribution_eq_zero fun field hfield hword =>
        hpacked ⟨term, hterm, field, hfield, hword⟩
    have hothers : ∀ term ∈ others, contribution s directory which term = 0 :=
      fun term hterm => hterms term ((h.mem_iff term).mpr hterm)
    rw [wordAfter_of_no_contribution hterms, wordAfter_of_no_contribution hothers,
      ← lastAssigned_filter, ← h.rest, lastAssigned_filter]

/-- **The order does not matter** between two assignments, nor does it matter how often a term is
repeated. -/
theorem closedForm_of_rearranged (h : Rearranged s directory terms others) (attr : Attribute) :
    closedForm s directory others attr = closedForm s directory terms attr := by
  have hsampling : samplingAfter attr.sampling others = samplingAfter attr.sampling terms := by
    rw [← samplingAfter_filter, ← h.rest, samplingAfter_filter]
  simp only [closedForm, wordAfter_of_rearranged h, hsampling]

/-! ## 5. Where nothing fails, and where something does -/

/-- The key of a term is reserved or names a bit field of the PMU, whatever its file says. -/
def Direct (s : Sysfs) (directory : Text) (term : Term) : Prop :=
  term.key ∈ reservedKeys ∨ (s.format? directory term.key).isSome

/-- The term only labels the event, or it has a number and, if its key is not reserved, a bit field
that can be read. -/
def Sound (s : Sysfs) (directory : Text) (term : Term) : Prop :=
  term.key = labelKey ∨
    (∃ value, term.number = .ok value) ∧
      (term.key ∈ reservedKeys ∨ (term.field? s directory).isSome)

variable {alias? : Text → Option (Attribute → Applied)}

theorem value_eq {value : Word} (h : term.number = .ok value) : term.value = value := by
  rw [Term.value, h]
  rfl

/-- A field that can be read is that of the file of the key. -/
theorem exists_format_of_field? {field : Bitfield} (h : term.field? s directory = some field) :
    term.key ∉ reservedKeys ∧ ∃ format, s.format? directory term.key = some format ∧
      Bitfield.parse format = .ok field := by
  by_cases hkey : term.key ∈ reservedKeys
  · rw [field?_eq_none hkey] at h
    cases h
  · rw [field?_eq_bind hkey] at h
    obtain ⟨format, hformat, hparse⟩ := Option.bind_eq_some_iff.mp h
    refine ⟨hkey, format, hformat, ?_⟩
    cases hresult : Bitfield.parse format with
    | ok found =>
      rw [hresult] at hparse
      exact congrArg Except.ok (Option.some.inj hparse)
    | error e =>
      rw [hresult] at hparse
      cases hparse

/-- The key of a term that assigns or samples says what it does. -/
theorem exists_setDirectly? (h : term.key ∈ reservedKeys) (hlabel : term.key ≠ labelKey)
    (value : Word) (attr : Attribute) : ∃ next, setDirectly? term.key value attr = some next := by
  simp only [reservedKeys, List.map_cons, List.map_nil, List.mem_cons, List.not_mem_nil,
    or_false] at h
  rcases h with h | h | h | h | h | h
  · exact absurd h hlabel
  all_goals exact h ▸ ⟨_, rfl⟩

/-- A sound term does what it does alone, and does not fail. -/
theorem applyOne_of_sound (h : term.Sound s directory) (attr : Attribute) :
    applyOne s directory alias? term attr = (.ok (), term.act s directory attr) := by
  by_cases hlabel : term.key = labelKey
  · have hreserved : term.key ∈ reservedKeys := hlabel ▸ List.mem_cons_self
    rw [applyOne, if_pos hlabel, act, field?_eq_none hreserved, hlabel]
    rfl
  obtain ⟨⟨value, hnumber⟩, hkey⟩ := h.resolve_left hlabel
  by_cases hreserved : term.key ∈ reservedKeys
  · obtain ⟨next, hnext⟩ := exists_setDirectly? hreserved hlabel value attr
    rw [act, field?_eq_none hreserved, value_eq hnumber]
    simp only [applyOne, if_neg hlabel, hnumber, hnext, Option.getD_some]
  · obtain ⟨field, hfield⟩ := Option.isSome_iff_exists.mp (hkey.resolve_left hreserved)
    obtain ⟨-, format, hformat, hparse⟩ := exists_format_of_field? hfield
    have hlooked : term.LookedUp value := ⟨hreserved, hnumber⟩
    simp only [hlooked.applyOne_eq, hformat, hparse, act, hfield, value_eq hnumber]

/-- The bit field of a term that has a number and is not sound cannot be read. -/
theorem exists_fault_of_not_sound (hdirect : term.Direct s directory) (h : ¬ term.Sound s directory)
    {value : Word} (hnumber : term.number = .ok value) :
    term.LookedUp value ∧ ∃ format e, s.format? directory term.key = some format ∧
      Bitfield.parse format = .error e := by
  have hreserved : term.key ∉ reservedKeys :=
    fun hkey => h (Or.inr ⟨⟨value, hnumber⟩, Or.inl hkey⟩)
  obtain ⟨format, hformat⟩ := Option.isSome_iff_exists.mp (hdirect.resolve_left hreserved)
  refine ⟨⟨hreserved, hnumber⟩, format, ?_⟩
  cases hparse : Bitfield.parse format with
  | error e => exact ⟨e, hformat, rfl⟩
  | ok field =>
    refine absurd (Or.inr ⟨⟨value, hnumber⟩, Or.inr ?_⟩) h
    rw [field?_eq_bind hreserved, hformat, Option.bind_some, hparse]
    rfl

/-- A term that is not sound fails and leaves the attribute as it is. -/
theorem applyOne_of_not_sound (hdirect : term.Direct s directory) (h : ¬ term.Sound s directory)
    (attr : Attribute) : ∃ e, applyOne s directory alias? term attr = (.error e, attr) := by
  have hlabel : term.key ≠ labelKey := fun hkey => h (Or.inl hkey)
  cases hnumber : term.number with
  | error cause =>
    refine ⟨.badTerm term cause, ?_⟩
    simp only [applyOne, if_neg hlabel, hnumber]
  | ok value =>
    obtain ⟨hlooked, format, e, hformat, hparse⟩ := exists_fault_of_not_sound hdirect h hnumber
    refine ⟨e, ?_⟩
    simp only [hlooked.applyOne_eq, hformat, hparse]

/-- Sound terms leave their closed form. -/
theorem applyEach_of_sound (h : ∀ term ∈ terms, term.Sound s directory) (attr : Attribute) :
    applyEach (applyOne s directory alias?) terms attr =
      (.ok (), closedForm s directory terms attr) := by
  rw [← foldl_act]
  have hone : ∀ term ∈ terms, ∀ attr : Attribute,
      applyOne s directory alias? (id term) attr = (.ok (), term.act s directory attr) :=
    fun term hterm attr => applyOne_of_sound (h term hterm) attr
  have hmap := applyEach_map hone attr
  rwa [List.map_id] at hmap

/-- Terms of which the first `before` are sound and the next one is not fail there. -/
theorem applyEach_of_not_sound {before after : List Term}
    (hbefore : ∀ earlier ∈ before, earlier.Sound s directory) (hdirect : term.Direct s directory)
    (h : ¬ term.Sound s directory) (attr : Attribute) :
    ∃ e, applyEach (applyOne s directory alias?) (before ++ term :: after) attr =
      (.error e, closedForm s directory before attr) := by
  obtain ⟨e, he⟩ : ∃ e, applyOne s directory alias? term (closedForm s directory before attr) =
      (.error e, closedForm s directory before attr) := applyOne_of_not_sound hdirect h _
  refine ⟨e, ?_⟩
  rw [applyEach_append_cons _ (applyEach_of_sound hbefore attr), applyEach, he]

/-- Either all terms are sound, or one is the first that is not. -/
theorem sound_or_first_fault (s : Sysfs) (directory : Text) (terms : List Term) :
    (∀ term ∈ terms, term.Sound s directory) ∨
      ∃ before term after, terms = before ++ term :: after ∧
        (∀ earlier ∈ before, earlier.Sound s directory) ∧ ¬ term.Sound s directory := by
  induction terms with
  | nil => exact Or.inl fun _ hterm => nomatch hterm
  | cons first terms ih =>
    by_cases hfirst : first.Sound s directory
    · rcases ih with hall | ⟨before, term, after, rfl, hbefore, hterm⟩
      · exact Or.inl (List.forall_mem_cons.mpr ⟨hfirst, hall⟩)
      · exact Or.inr ⟨first :: before, term, after, rfl,
          List.forall_mem_cons.mpr ⟨hfirst, hbefore⟩, hterm⟩
    · exact Or.inr ⟨[], first, terms, rfl, fun _ hterm => (nomatch hterm), hfirst⟩

/-! ## 6. Texts -/

/-- A text of sound terms leaves their closed form. -/
theorem apply_of_sound (hterms : parseList? text = some terms)
    (h : ∀ term ∈ terms, term.Sound s directory) (attr : Attribute) :
    apply s directory text attr = (.ok (), closedForm s directory terms attr) := by
  rw [apply, applyText, hterms]
  exact applyEach_of_sound h attr

/-- The three ways in which a text of direct terms ends. -/
theorem apply_outcome
    (h : ∀ terms, parseList? text = some terms → ∀ term ∈ terms, term.Direct s directory)
    (attr : Attribute) :
    (parseList? text = none ∧ apply s directory text attr = (.error .notInGrammar, attr)) ∨
    (∃ terms, parseList? text = some terms ∧ (∀ term ∈ terms, term.Sound s directory) ∧
      apply s directory text attr = (.ok (), closedForm s directory terms attr)) ∨
    ∃ before term after e, parseList? text = some (before ++ term :: after) ∧
      (∀ earlier ∈ before, earlier.Sound s directory) ∧ ¬ term.Sound s directory ∧
      apply s directory text attr = (.error e, closedForm s directory before attr) := by
  cases hterms : parseList? text with
  | none =>
    refine Or.inl ⟨rfl, ?_⟩
    rw [apply, applyText, hterms]
  | some terms =>
    rcases sound_or_first_fault s directory terms with
      hall | ⟨before, term, after, rfl, hbefore, hterm⟩
    · exact Or.inr (Or.inl ⟨terms, rfl, hall, apply_of_sound hterms hall attr⟩)
    · have hdirect := h _ hterms term (List.mem_append_right before List.mem_cons_self)
      obtain ⟨e, he⟩ := applyEach_of_not_sound hbefore hdirect hterm attr
      refine Or.inr (Or.inr ⟨before, term, after, e, rfl, hbefore, hterm, ?_⟩)
      rw [apply, applyText, hterms]
      exact he

/-- A text of direct terms is applied if all of them are sound, and then leaves their closed form. -/
theorem apply_eq_ok_iff
    (h : ∀ terms, parseList? text = some terms → ∀ term ∈ terms, term.Direct s directory) :
    (apply s directory text attr).1 = .ok () ↔
      ∃ terms, parseList? text = some terms ∧ (∀ term ∈ terms, term.Sound s directory) ∧
        apply s directory text attr = (.ok (), closedForm s directory terms attr) := by
  constructor
  · intro hok
    rcases apply_outcome h attr with ⟨-, he⟩ | hdone | ⟨_, _, _, e, -, -, -, he⟩
    · rw [he] at hok
      cases hok
    · exact hdone
    · rw [he] at hok
      cases hok
  · rintro ⟨terms, -, -, happly⟩
    rw [happly]

/-- A text of direct terms comes to no alias. -/
theorem not_expands
    (h : ∀ terms, parseList? text = some terms → ∀ term ∈ terms, term.Direct s directory)
    {key : Text} {reached : Attribute} : ¬ Expands s directory alias? text attr key reached := by
  rintro ⟨term, value, rfl, ⟨before, after, hlist, -⟩, hlooked, hformat⟩
  have hdirect := h _ hlist term (List.mem_append_right before List.mem_cons_self)
  have hsome := hdirect.resolve_left hlooked.key_not_reserved
  rw [hformat] at hsome
  cases hsome

/-- A text of direct terms is applied as soon as they have numbers and the bit fields that are looked at
can be read. -/
theorem apply_eq_ok_iff_formats
    (h : ∀ terms, parseList? text = some terms → ∀ term ∈ terms, term.Direct s directory) :
    (apply s directory text attr).1 = .ok () ↔
      (∃ terms, parseList? text = some terms ∧
        ∀ term ∈ terms, term.key ≠ labelKey → ∃ value, term.number = .ok value) ∧
      ∀ format, ReachesFormat s directory text attr format →
        ∃ field, Bitfield.parse format = .ok field := by
  constructor
  · intro hok
    obtain ⟨terms, hterms, hsound, -⟩ := (apply_eq_ok_iff h).mp hok
    refine ⟨⟨terms, hterms, fun term hterm hlabel =>
      ((hsound term hterm).resolve_left hlabel).1⟩, fun format hreaches => ?_⟩
    rcases hreaches with hlooks | ⟨key, reached, expansion, hexpands, -, -⟩
    · cases hparse : Bitfield.parse format with
      | ok field => exact ⟨field, rfl⟩
      | error e =>
        rw [apply, applyText_eq_error_of_looksAt hlooks hparse] at hok
        cases hok
    · exact absurd hexpands (not_expands h)
  · rintro ⟨⟨terms, hterms, hnumbers⟩, hformats⟩
    rcases apply_outcome h attr with
      ⟨hnone, -⟩ | ⟨_, -, -, happly⟩ | ⟨before, term, after, e, hlist, hbefore, hterm, -⟩
    · rw [hnone] at hterms
      cases hterms
    · rw [happly]
    · -- The first term that is not sound is come to, and so its bit field is looked at.
      have hmem : term ∈ before ++ term :: after :=
        List.mem_append_right before List.mem_cons_self
      rw [hlist, Option.some.injEq] at hterms
      obtain ⟨value, hnumber⟩ :=
        hnumbers term (hterms ▸ hmem) fun hlabel => hterm (Or.inl hlabel)
      obtain ⟨hlooked, format, fault, hformat, hparse⟩ :=
        exists_fault_of_not_sound (h _ hlist term hmem) hterm hnumber
      have hreaches : Reaches (applyOne s directory (aliasAction? s directory)) text attr term
          (closedForm s directory before attr) :=
        ⟨before, after, hlist, applyEach_of_sound hbefore attr⟩
      obtain ⟨field, hfield⟩ :=
        hformats format (Or.inl ⟨term, _, value, hreaches, hlooked, hformat⟩)
      rw [hparse] at hfield
      cases hfield

/-- A text that is applied is applied with the same result if some of its terms are rearranged. -/
theorem apply_of_rearranged {otherText : Text} {front middle back : List Term}
    (hmiddle : parseList? text = some (front ++ middle ++ back))
    (hothers : parseList? otherText = some (front ++ others ++ back))
    (hdirect : ∀ term ∈ front ++ middle ++ back, term.Direct s directory)
    (h : Rearranged s directory middle others) (hok : (apply s directory text attr).1 = .ok ()) :
    apply s directory otherText attr = apply s directory text attr := by
  have hdirectText : ∀ terms, parseList? text = some terms →
      ∀ term ∈ terms, term.Direct s directory := by
    intro terms hterms
    obtain rfl := Option.some.inj (hmiddle.symm.trans hterms)
    exact hdirect
  obtain ⟨terms, hterms, hsound, happly⟩ := (apply_eq_ok_iff hdirectText).mp hok
  obtain rfl := Option.some.inj (hmiddle.symm.trans hterms)
  have hothersSound : ∀ term ∈ front ++ others ++ back, term.Sound s directory := by
    intro term hterm
    simp only [List.mem_append, ← h.mem_iff] at hterm
    exact hsound term (by simpa only [List.mem_append] using hterm)
  rw [happly, apply_of_sound hothers hothersSound]
  simp only [closedForm_append, closedForm_of_rearranged h]

/-- **What a text of terms leaves.**  Let every key of the text be reserved or that of a bit field of
the PMU.  Then applying the text succeeds if and only if it is a list of terms which all, apart from
labels, have numbers, and every bit field that is looked at can be read.  What it leaves is the closed
form of its terms: in each word the number that was assigned last with the bits that were packed since,
the sampling that was set last, and the rest as it was.  Terms for bit fields between two assignments
of their words may be put in another order or repeated.  On failure the terms in front of the first that
is not sound leave their closed form, and a text that is no list of terms leaves the attribute as it was. -/
theorem apply_closed_form
    (h : ∀ terms, parseList? text = some terms → ∀ term ∈ terms, term.Direct s directory)
    (attr : Attribute) :
    ((apply s directory text attr).1 = .ok () ↔
      (∃ terms, parseList? text = some terms ∧
        ∀ term ∈ terms, term.key ≠ labelKey → ∃ value, term.number = .ok value) ∧
      ∀ format, ReachesFormat s directory text attr format →
        ∃ field, Bitfield.parse format = .ok field) ∧
    (∀ terms, parseList? text = some terms → (apply s directory text attr).1 = .ok () →
      (∀ term ∈ terms, term.Sound s directory) ∧
        (apply s directory text attr).2 = closedForm s directory terms attr) ∧
    (∀ otherText front middle others back,
      parseList? text = some (front ++ middle ++ back) →
      parseList? otherText = some (front ++ others ++ back) →
      Rearranged s directory middle others →
      ((apply s directory otherText attr).1 = .ok () ↔ (apply s directory text attr).1 = .ok ()) ∧
        ((apply s directory text attr).1 = .ok () →
          apply s directory otherText attr = apply s directory text attr)) ∧
    (∀ e, (apply s directory text attr).1 = .error e →
      (parseList? text = none ∧ (apply s directory text attr).2 = attr) ∨
      ∃ before term after, parseList? text = some (before ++ term :: after) ∧
        (∀ earlier ∈ before, earlier.Sound s directory) ∧ ¬ term.Sound s directory ∧
        (apply s directory text attr).2 = closedForm s directory before attr) := by
  refine ⟨apply_eq_ok_iff_formats h, ?_, ?_, ?_⟩
  · intro terms hterms hok
    obtain ⟨found, hfound, hsound, happly⟩ := (apply_eq_ok_iff h).mp hok
    obtain rfl : terms = found := Option.some.inj (hterms.symm.trans hfound)
    exact ⟨hsound, congrArg Prod.snd happly⟩
  · intro otherText front middle others back hmiddle hothers hrearranged
    have hdirect : ∀ term ∈ front ++ middle ++ back, term.Direct s directory := h _ hmiddle
    have hothersDirect : ∀ term ∈ front ++ others ++ back, term.Direct s directory := by
      intro term hterm
      simp only [List.mem_append, ← hrearranged.mem_iff] at hterm
      exact hdirect term (by simpa only [List.mem_append] using hterm)
    have hkept : (apply s directory text attr).1 = .ok () →
        apply s directory otherText attr = apply s directory text attr :=
      apply_of_rearranged hmiddle hothers hdirect hrearranged
    refine ⟨⟨fun hok => ?_, fun hok => ?_⟩, hkept⟩
    · rw [apply_of_rearranged hothers hmiddle hothersDirect hrearranged.symm hok]
      exact hok
    · rw [hkept hok]
      exact hok
  · intro e he
    rcases apply_outcome h attr with
      ⟨hnone, happly⟩ | ⟨_, -, -, happly⟩ | ⟨before, term, after, _, hlist, hbefore, hterm, happly⟩
    · exact Or.inl ⟨hnone, congrArg Prod.snd happly⟩
    · rw [happly] at he
      cases he
    · exact Or.inr ⟨before, term, after, hlist, hbefore, hterm, congrArg Prod.snd happly⟩

namespace FieldExample

/-- Two bit fields of one word. -/
def fieldSysfs : Sysfs :=
  ⟨"/sys".toList,
    (({} : FileTree).write "/sys/cpu/format/event".toList (.text "config:0-7".toList)).write
      "/sys/cpu/format/umask".toList (.text "config:8-15".toList)⟩

/-- What is packed first is lost when the word is assigned. -/
def reassigningText : Text := "event=0xff,config=0x30000,event=3,umask=1,freq=9".toList

/-- The same with the two last bit fields the other way round, one of them twice. -/
def rearrangedText : Text := "event=0xff,config=0x30000,umask=1,event=3,umask=1,freq=9".toList

theorem direct_reassigningText (terms : List Term) (h : parseList? reassigningText = some terms) :
    ∀ term ∈ terms, term.Direct fieldSysfs "cpu".toList := by
  obtain rfl : _ = terms := Option.some.inj ((by rfl : parseList? reassigningText = some
    [⟨"event".toList, some "0xff".toList⟩, ⟨"config".toList, some "0x30000".toList⟩,
      ⟨"event".toList, some "3".toList⟩, ⟨"umask".toList, some "1".toList⟩,
      ⟨"freq".toList, some "9".toList⟩]).symm.trans h)
  simp only [List.forall_mem_cons, List.not_mem_nil, false_implies, implies_true, and_true]
  exact ⟨Or.inr (by decide +kernel), Or.inl (by decide), Or.inr (by decide +kernel),
    Or.inr (by decide +kernel), Or.inl (by decide)⟩

theorem rearranged_packedTerms : Rearranged fieldSysfs "cpu".toList
    [⟨"event".toList, some "3".toList⟩, ⟨"umask".toList, some "1".toList⟩]
    [⟨"umask".toList, some "1".toList⟩, ⟨"event".toList, some "3".toList⟩,
      ⟨"umask".toList, some "1".toList⟩] where
  fields := fun term _ => by
    simp only [List.mem_cons, List.not_mem_nil, or_false]
    tauto
  rest := by decide
  no_assignment := by
    intro packed _ field _ term hterm
    rcases List.mem_pair.mp hterm with rfl | rfl
    · cases field.word <;> decide
    · cases field.word <;> decide

end FieldExample

open FieldExample in
theorem apply_closed_form_reassigningText :
    (∀ terms, parseList? reassigningText = some terms →
      ∀ term ∈ terms, term.Direct fieldSysfs "cpu".toList) ∧
    apply fieldSysfs "cpu".toList reassigningText {} =
      (.ok (), { config := 0x30103, sampling := .frequency 9 }) ∧
    apply fieldSysfs "cpu".toList rearrangedText {} =
      apply fieldSysfs "cpu".toList reassigningText {} := by
  obtain ⟨-, hleft, hrearranged, -⟩ := apply_closed_form direct_reassigningText {}
  have hok : (apply fieldSysfs "cpu".toList reassigningText {}).1 = .ok () := by decide +kernel
  refine ⟨direct_reassigningText, Prod.ext hok ?_, ?_⟩
  · exact (hleft _ rfl hok).2.trans (by decide +kernel)
  · exact (hrearranged rearrangedText
      [⟨"event".toList, some "0xff".toList⟩, ⟨"config".toList, some "0x30000".toList⟩] _ _
      [⟨"freq".toList, some "9".toList⟩] rfl rfl rearranged_packedTerms).2 hok

end Term

end HardwareCounters
