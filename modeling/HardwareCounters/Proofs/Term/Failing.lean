/-
# Where a list of terms fails

A list of terms ends at the first that fails.  A single term can fail in four ways: its value is no
number, the text of its bit field is malformed, a term of the alias that it names fails, or nothing is
known about its key.  Together this says for every failure which term is at fault, in the list itself
or in an alias.

* `Term.Reaches`: a list comes to one of its terms;
* `Term.Fault` lists the ways in which one term fails, by `applyOne_eq_error_iff`;
* `Term.ReachesFormat`: the text of a bit field that is looked at on the way;
* `Term.apply_error_cases`: a failure is that of an event, or of a number in such a text;
* `Term.listedIn_of_badTerm`: where a term stands that is reported for its number.
-/
import HardwareCounters.Proofs.Bitfield.Reading
import HardwareCounters.Proofs.Term.Applying
import Mathlib.Tactic.SplitIfs

namespace HardwareCounters

namespace Term

variable {step : Term → Attribute → Applied} {term : Term} {terms : List Term} {text : Text}
  {attr reached : Attribute} {e : Error}

/-! ## 1. The first term that fails -/

theorem applyEach_append_cons (step : Term → Attribute → Applied) {before : List Term}
    (h : applyEach step before attr = (.ok (), reached)) (term : Term) (after : List Term) :
    applyEach step (before ++ term :: after) attr = applyEach step (term :: after) reached := by
  rw [applyEach_append, h]

/-- **The first term that fails** ends the list. -/
theorem applyEach_eq_error_iff :
    (applyEach step terms attr).1 = .error e ↔
      ∃ before term after reached, terms = before ++ term :: after ∧
        applyEach step before attr = (.ok (), reached) ∧ (step term reached).1 = .error e := by
  constructor
  · intro h
    induction terms generalizing attr with
    | nil => cases h
    | cons term terms ih =>
      rw [applyEach] at h
      rcases hstep : step term attr with ⟨fault | _, next⟩
      · rw [hstep] at h
        exact ⟨[], term, terms, attr, rfl, rfl, by rw [hstep]; exact h⟩
      · rw [hstep] at h
        obtain ⟨before, other, after, reached, rfl, hbefore, hother⟩ := ih h
        refine ⟨term :: before, other, after, reached, rfl, ?_, hother⟩
        rw [applyEach, hstep]
        exact hbefore
  · rintro ⟨before, term, after, reached, rfl, hbefore, hterm⟩
    rw [applyEach_append_cons step hbefore, applyEach]
    rcases hstep : step term reached with ⟨fault | _, next⟩
    · rw [hstep] at hterm
      exact hterm
    · rw [hstep] at hterm
      cases hterm

/-- Applying the terms of a text comes to a term, with an attribute that the terms before it have
reached. -/
def Reaches (step : Term → Attribute → Applied) (text : Text) (attr : Attribute) (term : Term)
    (reached : Attribute) : Prop :=
  ∃ before after, parseList? text = some (before ++ term :: after) ∧
    applyEach step before attr = (.ok (), reached)

theorem applyText_eq_error_iff :
    (applyText step text attr).1 = .error e ↔
      (parseList? text = none ∧ e = .notInGrammar) ∨
        ∃ term reached, Reaches step text attr term reached ∧ (step term reached).1 = .error e := by
  rw [applyText]
  cases hterms : parseList? text with
  | none =>
    simp only [Except.error.injEq, Reaches, hterms, reduceCtorEq, false_and, exists_false, or_false,
      true_and]
    exact eq_comm
  | some terms =>
    simp only [reduceCtorEq, false_and, false_or, Reaches, hterms, Option.some.injEq,
      applyEach_eq_error_iff]
    constructor
    · rintro ⟨before, term, after, reached, rfl, hbefore, hterm⟩
      exact ⟨term, reached, ⟨before, after, rfl, hbefore⟩, hterm⟩
    · rintro ⟨term, reached, ⟨before, after, rfl, hbefore⟩, hterm⟩
      exact ⟨before, term, after, reached, rfl, hbefore, hterm⟩

theorem Reaches.applyText_eq {final : Attribute} (h : Reaches step text attr term reached)
    (hterm : step term reached = (.error e, final)) :
    applyText step text attr = (.error e, final) := by
  obtain ⟨before, after, hterms, hbefore⟩ := h
  rw [applyText, hterms]
  simp only [applyEach_append_cons step hbefore, applyEach, hterm]

/-! ## 2. One term -/

/-- The term has a number and a key that is looked up in the directory of the PMU. -/
structure LookedUp (term : Term) (value : Word) : Prop where
  key_not_reserved : term.key ∉ reservedKeys
  number_eq : term.number = .ok value

theorem key_not_mem_reservedKeys {key : Text} (hlabel : key ≠ labelKey) {value : Word}
    (h : setDirectly? key value attr = none) : key ∉ reservedKeys := by
  simp only [setDirectly?] at h
  split_ifs at h with hperiod hfreq hconfig hconfig1 hconfig2
  simp only [reservedKeys, List.map_cons, List.map_nil, List.mem_cons, List.not_mem_nil, or_false,
    not_or]
  exact ⟨hlabel, hperiod, hfreq, hconfig, hconfig1, hconfig2⟩

variable {s : Sysfs} {directory : Text} {alias? : Text → Option (Attribute → Applied)}

/-- What a term does whose key is looked up. -/
theorem LookedUp.applyOne_eq {value : Word} (h : term.LookedUp value) :
    applyOne s directory alias? term attr =
      match s.format? directory term.key with
      | some format =>
        match Bitfield.parse format with
        | .ok field => (.ok (), field.pack value attr)
        | .error e => (.error e, attr)
      | none =>
        match alias? term.key with
        | some apply => apply attr
        | none => (.error (.unknownTerm directory term), attr) := by
  have hlabel : term.key ≠ labelKey := fun heq => h.key_not_reserved (heq ▸ List.mem_cons_self)
  have hdirect := setDirectly?_eq_none h.key_not_reserved value attr
  rw [applyOne, if_neg hlabel]
  cases s.format? directory term.key with
  | some format =>
    cases hparse : Bitfield.parse format with
    | ok field => simp only [h.number_eq, hdirect, hparse]
    | error e => simp only [h.number_eq, hdirect, hparse]
  | none =>
    cases alias? term.key with
    | some apply => simp only [h.number_eq, hdirect]
    | none => simp only [h.number_eq, hdirect]

/-- An alias does what its terms do without further aliases. -/
theorem LookedUp.applyOne_alias {value : Word} {expansion : Text} (h : term.LookedUp value)
    (hformat : s.format? directory term.key = none)
    (halias : s.alias? directory term.key = some expansion) (attr : Attribute) :
    applyOne s directory (aliasAction? s directory) term attr =
      applyExpansion s directory expansion attr := by
  simp only [h.applyOne_eq, hformat, aliasAction?, halias, Option.map_some]

/-- What a term does depends on its bit field and, where it has none, on its alias. -/
theorem applyOne_congr {s s' : Sysfs} {alias? other? : Text → Option (Attribute → Applied)}
    (hformat : s.format? directory term.key = s'.format? directory term.key)
    (halias : term.key ∉ reservedKeys → s.format? directory term.key = none →
      alias? term.key = other? term.key) (attr : Attribute) :
    applyOne s directory alias? term attr = applyOne s' directory other? term attr := by
  by_cases hlooked : ∃ value, term.LookedUp value
  · obtain ⟨value, hlooked⟩ := hlooked
    rw [hlooked.applyOne_eq, hlooked.applyOne_eq, ← hformat]
    cases hfield : s.format? directory term.key with
    | some format => rfl
    | none => rw [halias hlooked.key_not_reserved hfield]
  · rw [applyOne, applyOne]
    split
    · rfl
    · rename_i hlabel
      cases hnumber : term.number with
      | error cause => rfl
      | ok value =>
        cases hdirect : setDirectly? term.key value attr with
        | some next => simp only [hdirect]
        | none => exact absurd ⟨value, key_not_mem_reservedKeys hlabel hdirect, hnumber⟩ hlooked

inductive Fault (s : Sysfs) (directory : Text) (alias? : Text → Option (Attribute → Applied))
    (term : Term) (attr : Attribute) : Error → Prop
  /-- The value is no number. -/
  | value {cause : NumberError} (hkey : term.key ≠ labelKey) (h : term.number = .error cause) :
      Fault s directory alias? term attr (.badTerm term cause)
  /-- The text of the bit field is malformed. -/
  | format {value : Word} {format : Text} {e : Error} (hlooked : term.LookedUp value)
      (hformat : s.format? directory term.key = some format) (h : Bitfield.parse format = .error e) :
      Fault s directory alias? term attr e
  /-- The term is an alias, and what it stands for fails. -/
  | expansion {value : Word} {apply : Attribute → Applied} {e : Error} (hlooked : term.LookedUp value)
      (hformat : s.format? directory term.key = none) (halias : alias? term.key = some apply)
      (h : (apply attr).1 = .error e) : Fault s directory alias? term attr e
  /-- Nothing is known about the key. -/
  | unknown {value : Word} (hlooked : term.LookedUp value)
      (hformat : s.format? directory term.key = none) (halias : alias? term.key = none) :
      Fault s directory alias? term attr (.unknownTerm directory term)

/-- **How one term fails.** -/
theorem applyOne_eq_error_iff :
    (applyOne s directory alias? term attr).1 = .error e ↔
      Fault s directory alias? term attr e := by
  constructor
  · intro h
    by_cases hlabel : term.key = labelKey
    · rw [applyOne, if_pos hlabel] at h
      cases h
    cases hnumber : term.number with
    | error cause =>
      simp only [applyOne, if_neg hlabel, hnumber, Except.error.injEq] at h
      subst h
      exact .value hlabel hnumber
    | ok value =>
      cases hdirect : setDirectly? term.key value attr with
      | some next =>
        simp only [applyOne, if_neg hlabel, hnumber, hdirect, reduceCtorEq] at h
      | none =>
        have hlooked : term.LookedUp value := ⟨key_not_mem_reservedKeys hlabel hdirect, hnumber⟩
        rw [hlooked.applyOne_eq] at h
        split at h
        · rename_i format hformat
          split at h
          · cases h
          · rename_i fault hfault
            cases h
            exact .format hlooked hformat hfault
        · rename_i hformat
          split at h
          · rename_i apply halias
            exact .expansion hlooked hformat halias h
          · rename_i halias
            cases h
            exact .unknown hlooked hformat halias
  · intro h
    cases h with
    | value hkey h => simp only [applyOne, if_neg hkey, h]
    | format hlooked hformat h => simp only [hlooked.applyOne_eq, hformat, h]
    | expansion hlooked hformat halias h => simpa only [hlooked.applyOne_eq, hformat, halias] using h
    | unknown hlooked hformat halias => simp only [hlooked.applyOne_eq, hformat, halias]

/-! ## 3. Bit fields that are looked at -/

/-- Applying the terms of a text looks at the text of a bit field for one of them. -/
def LooksAt (s : Sysfs) (directory : Text) (alias? : Text → Option (Attribute → Applied))
    (text : Text) (attr : Attribute) (format : Text) : Prop :=
  ∃ term reached value, Reaches (applyOne s directory alias?) text attr term reached ∧
    term.LookedUp value ∧ s.format? directory term.key = some format

/-- Applying the terms of a text comes to an alias. -/
def Expands (s : Sysfs) (directory : Text) (alias? : Text → Option (Attribute → Applied))
    (text : Text) (attr : Attribute) (key : Text) (reached : Attribute) : Prop :=
  ∃ term value, term.key = key ∧ Reaches (applyOne s directory alias?) text attr term reached ∧
    term.LookedUp value ∧ s.format? directory key = none

/-- A text of terms fails with an error that concerns an event, with a number in a bit field that it
looks at, or in an alias. -/
theorem applyText_error_cases (h : (applyText (applyOne s directory alias?) text attr).1 = .error e) :
    e.isResolveError = true ∨
      ((∃ cause, e = .number cause) ∧
        ∃ format, LooksAt s directory alias? text attr format ∧ Bitfield.NamesHugeBit format) ∨
      ∃ key reached apply, Expands s directory alias? text attr key reached ∧
        alias? key = some apply ∧ (apply reached).1 = .error e := by
  rcases applyText_eq_error_iff.mp h with ⟨-, rfl⟩ | ⟨term, reached, hreaches, hterm⟩
  · exact Or.inl rfl
  · cases applyOne_eq_error_iff.mp hterm with
    | value hkey h => exact Or.inl rfl
    | format hlooked hformat h =>
      rcases Bitfield.parse_error_cases h with ⟨fault, rfl⟩ | ⟨hcause, hhuge⟩
      · exact Or.inl rfl
      · exact Or.inr (Or.inl ⟨hcause, _, ⟨term, reached, _, hreaches, hlooked, hformat⟩, hhuge⟩)
    | expansion hlooked hformat halias h =>
      exact Or.inr (Or.inr ⟨term.key, reached, _, ⟨term, _, rfl, hreaches, hlooked, hformat⟩,
        halias, h⟩)
    | unknown hlooked hformat halias => exact Or.inl rfl

theorem applyText_eq_error_of_looksAt {format : Text}
    (hlooks : LooksAt s directory alias? text attr format) (h : Bitfield.parse format = .error e) :
    (applyText (applyOne s directory alias?) text attr).1 = .error e := by
  obtain ⟨term, reached, value, hreaches, hlooked, hformat⟩ := hlooks
  exact applyText_eq_error_iff.mpr (Or.inr ⟨term, reached, hreaches,
    applyOne_eq_error_iff.mpr (.format hlooked hformat h)⟩)

/-- A bit field with a number at fault ends a list that looks at it. -/
theorem exists_number_of_looksAt {format : Text} (hlooks : LooksAt s directory alias? text attr format)
    (hhuge : Bitfield.NamesHugeBit format) :
    ∃ cause, (applyText (applyOne s directory alias?) text attr).1 = .error (.number cause) := by
  obtain ⟨cause, hcause⟩ := Bitfield.exists_number_of_parse_iff.mpr hhuge
  exact ⟨cause, applyText_eq_error_of_looksAt hlooks hcause⟩

theorem applyText_eq_error_of_expands {key : Text} {apply : Attribute → Applied}
    (hexpands : Expands s directory alias? text attr key reached) (halias : alias? key = some apply)
    (h : (apply reached).1 = .error e) :
    (applyText (applyOne s directory alias?) text attr).1 = .error e := by
  obtain ⟨term, value, rfl, hreaches, hlooked, hformat⟩ := hexpands
  exact applyText_eq_error_iff.mpr (Or.inr ⟨term, reached, hreaches,
    applyOne_eq_error_iff.mpr (.expansion hlooked hformat halias h)⟩)

/-- Applying the terms of a text in the directory of a PMU looks at the text of a bit field, for a
term of the text or for one of an alias. -/
def ReachesFormat (s : Sysfs) (directory text : Text) (attr : Attribute) (format : Text) : Prop :=
  LooksAt s directory (aliasAction? s directory) text attr format ∨
    ∃ key reached expansion, Expands s directory (aliasAction? s directory) text attr key reached ∧
      s.alias? directory key = some expansion ∧
      LooksAt s directory (fun _ => none) expansion reached format

/-- **How a text of terms fails**: with an error that concerns an event, or with a number in the text
of a bit field. -/
theorem apply_error_cases (h : (apply s directory text attr).1 = .error e) :
    e.isResolveError = true ∨ (∃ cause, e = .number cause) ∧
      ∃ format, ReachesFormat s directory text attr format ∧ Bitfield.NamesHugeBit format := by
  rcases applyText_error_cases h with
    hevent | ⟨hcause, format, hlooks, hhuge⟩ | ⟨key, reached, action, hexpands, halias, haction⟩
  · exact Or.inl hevent
  · exact Or.inr ⟨hcause, format, Or.inl hlooks, hhuge⟩
  · obtain ⟨expansion, hexpansion, rfl⟩ := Option.map_eq_some_iff.mp halias
    rcases applyText_error_cases haction with
      hevent | ⟨hcause, format, hlooks, hhuge⟩ | ⟨_, _, _, _, hnone, _⟩
    · exact Or.inl hevent
    · exact Or.inr ⟨hcause, format, Or.inr ⟨key, reached, expansion, hexpands, hexpansion, hlooks⟩,
        hhuge⟩
    · cases hnone

/-- **Where the number of a bit is at fault** the whole text fails. -/
theorem exists_number_of_reachesFormat {format : Text}
    (hreaches : ReachesFormat s directory text attr format) (hhuge : Bitfield.NamesHugeBit format) :
    ∃ cause, (apply s directory text attr).1 = .error (.number cause) := by
  rcases hreaches with hlooks | ⟨key, reached, expansion, hexpands, hexpansion, hlooks⟩
  · exact exists_number_of_looksAt hlooks hhuge
  · obtain ⟨cause, hcause⟩ := exists_number_of_looksAt hlooks hhuge
    have halias : aliasAction? s directory key = some (applyExpansion s directory expansion) := by
      rw [aliasAction?, hexpansion, Option.map_some]
    exact ⟨cause, applyText_eq_error_of_expands hexpands halias hcause⟩

/-! ## 4. Numbers of terms -/

/-- The term is one of those that a text lists. -/
def ListedIn (text : Text) (term : Term) : Prop := ∃ terms, parseList? text = some terms ∧ term ∈ terms

theorem Reaches.listedIn (h : Reaches step text attr term reached) : ListedIn text term := by
  obtain ⟨before, after, hterms, -⟩ := h
  exact ⟨_, hterms, List.mem_append_right before List.mem_cons_self⟩

/-- In a list that is applied without failure every term is. -/
theorem exists_reached_of_applyEach (h : (applyEach step terms attr).1 = .ok ()) (hmem : term ∈ terms) :
    ∃ reached, (step term reached).1 = .ok () := by
  induction terms generalizing attr with
  | nil => cases hmem
  | cons first terms ih =>
    rw [applyEach] at h
    rcases hstep : step first attr with ⟨fault | _, next⟩
    · rw [hstep] at h
      cases h
    · rw [hstep] at h
      rcases List.mem_cons.mp hmem with rfl | hmem
      · exact ⟨attr, by rw [hstep]⟩
      · exact ih h hmem

/-- In a text that is applied without failure every term has a number, unless it is a label. -/
theorem exists_number_of_applyText (h : (applyText (applyOne s directory alias?) text attr).1 = .ok ()) :
    ∃ terms, parseList? text = some terms ∧
      ∀ term ∈ terms, term.key ≠ labelKey → ∃ value, term.number = .ok value := by
  rw [applyText] at h
  cases hterms : parseList? text with
  | none =>
    rw [hterms] at h
    cases h
  | some terms =>
    rw [hterms] at h
    refine ⟨terms, rfl, fun term hmem hkey => ?_⟩
    obtain ⟨reached, hreached⟩ := exists_reached_of_applyEach h hmem
    cases hnumber : term.number with
    | ok value => exact ⟨value, rfl⟩
    | error cause =>
      simp only [applyOne, if_neg hkey, hnumber] at hreached
      cases hreached

/-- A term that is reported for its number has a malformed one, and is listed in the text or in that
of an alias. -/
theorem badTerm_cases {cause : NumberError}
    (h : (applyText (applyOne s directory alias?) text attr).1 = .error (.badTerm term cause)) :
    (term.number = .error cause ∧ ListedIn text term) ∨
      ∃ key reached apply, alias? key = some apply ∧
        (apply reached).1 = .error (.badTerm term cause) := by
  rcases applyText_eq_error_iff.mp h with ⟨-, hother⟩ | ⟨found, reached, hreaches, hfound⟩
  · cases hother
  · cases applyOne_eq_error_iff.mp hfound with
    | value hkey h => exact Or.inl ⟨h, hreaches.listedIn⟩
    | format hlooked hformat h =>
      rcases Bitfield.parse_error_cases h with ⟨fault, hother⟩ | ⟨⟨cause, hother⟩, -⟩
      · cases hother
      · cases hother
    | expansion hlooked hformat halias h => exact Or.inr ⟨found.key, reached, _, halias, h⟩

/-- **Where a malformed number stands**: in the text that was applied, or in the text of an alias. -/
theorem listedIn_of_badTerm {cause : NumberError}
    (h : (apply s directory text attr).1 = .error (.badTerm term cause)) :
    term.number = .error cause ∧ (ListedIn text term ∨
      ∃ key expansion, s.alias? directory key = some expansion ∧ ListedIn expansion term) := by
  rcases badTerm_cases h with ⟨hnumber, hlisted⟩ | ⟨key, reached, action, halias, haction⟩
  · exact ⟨hnumber, Or.inl hlisted⟩
  · obtain ⟨expansion, hexpansion, rfl⟩ := Option.map_eq_some_iff.mp halias
    rcases badTerm_cases haction with ⟨hnumber, hlisted⟩ | ⟨_, _, _, hnone, _⟩
    · exact ⟨hnumber, Or.inr ⟨key, expansion, hexpansion, hlisted⟩⟩
    · cases hnone

end Term

end HardwareCounters
