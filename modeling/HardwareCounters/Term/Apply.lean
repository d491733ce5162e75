/-
# Applying terms

A list of terms is applied to an attribute one term after another.  A term sets a part of the
attribute directly, or its value is packed into the bit field of that name, or it is an alias for a
list of terms, in which there are no further aliases.  The first term that fails ends the list, and
what the terms before it did to the attribute remains.

* `applyEach_append`: a list is applied by applying its two halves.
-/
import HardwareCounters.Bitfield
import HardwareCounters.Sysfs.Basic

namespace HardwareCounters

/-- The result of applying terms, and the attribute that was reached. -/
abbrev Applied := Except Error Unit × Attribute

namespace Term

/-! ## 1. Terms that set a part of the attribute -/

def labelKey : Text := "name".toList

/-- The attribute after a term that sets a part of it, if the key is that of such a term. -/
def setDirectly? (key : Text) (value : Word) (attr : Attribute) : Option Attribute :=
  if key = "period".toList then some { attr with sampling := .period value }
  else if key = "freq".toList then some { attr with sampling := .frequency value }
  else if key = ConfigWord.config.key.toList then some { attr with config := value }
  else if key = ConfigWord.config1.key.toList then some { attr with config1 := value }
  else if key = ConfigWord.config2.key.toList then some { attr with config2 := value }
  else none

/-! ## 2. Lists -/

/-- Applies terms in order up to the first that fails. -/
def applyEach (step : Term → Attribute → Applied) : List Term → Attribute → Applied
  | [], attr => (.ok (), attr)
  | term :: terms, attr =>
    match step term attr with
    | (.ok (), next) => applyEach step terms next
    | (.error e, reached) => (.error e, reached)

theorem applyEach_append (step : Term → Attribute → Applied) (ts us : List Term)
    (attr : Attribute) :
    applyEach step (ts ++ us) attr =
      match applyEach step ts attr with
      | (.ok (), next) => applyEach step us next
      | (.error e, reached) => (.error e, reached) := by
  induction ts generalizing attr with
  | nil => rfl
  | cons t ts ih =>
    simp only [List.cons_append, applyEach]
    rcases step t attr with ⟨_ | _, next⟩
    · rfl
    · exact ih next

/-- Applies the terms that a text lists. -/
def applyText (step : Term → Attribute → Applied) (text : Text) (attr : Attribute) : Applied :=
  match parseList? text with
  | none => (.error .notInGrammar, attr)
  | some terms => applyEach step terms attr

/-! ## 3. Single terms -/

/-- Applies one term of a PMU.  `alias?` says what is to be done for the aliases. -/
def applyOne (s : Sysfs) (directory : Text) (alias? : Text → Option (Attribute → Applied))
    (term : Term) (attr : Attribute) : Applied :=
  if term.key = labelKey then (.ok (), attr)
  else
    match term.number with
    | .error e => (.error (.badTerm term e), attr)
    | .ok value =>
      match setDirectly? term.key value attr with
      | some next => (.ok (), next)
      | none =>
        match s.format? directory term.key with
        | some format =>
          match Bitfield.parse format with
          | .ok field => (.ok (), field.pack value attr)
          | .error e => (.error e, attr)
        | none =>
          match alias? term.key with
          | some apply => apply attr
          | none => (.error (.unknownTerm directory term), attr)

def applyExpansion (s : Sysfs) (directory : Text) (terms : Text) (attr : Attribute) : Applied :=
  applyText (applyOne s directory fun _ => none) terms attr

/-- What an alias of a PMU does to an attribute. -/
def aliasAction? (s : Sysfs) (directory : Text) (key : Text) : Option (Attribute → Applied) :=
  (s.alias? directory key).map (applyExpansion s directory)

def apply (s : Sysfs) (directory : Text) (terms : Text) (attr : Attribute) : Applied :=
  applyText (applyOne s directory (aliasAction? s directory)) terms attr

end Term

end HardwareCounters
