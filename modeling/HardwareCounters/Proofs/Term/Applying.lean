/-
# What lists of terms do

A list of terms stops at the first that fails.  If none of them fails, they do one after another what
each does alone; and what succeeds without aliases is the same if there are aliases, because an alias
is looked for only where the list would fail otherwise.

* `Term.reservedKeys`: the keys for which neither bit fields nor aliases are looked up;
* `Term.applyEach_map`: what a list does in which no term fails;
* `Term.applyText_keptBy`: what aliases leave as it is.
-/
import HardwareCounters.Term.Apply

namespace HardwareCounters

namespace Term

/-! ## 1. Keys -/

/-- The keys that do not name bit fields. -/
def reservedKeys : List Text :=
  labelKey :: ["period", "freq", ConfigWord.config.key, ConfigWord.config1.key,
    ConfigWord.config2.key].map String.toList

theorem setDirectly?_eq_none {key : Text} (h : key ∉ reservedKeys) (value : Word)
    (attr : Attribute) : setDirectly? key value attr = none := by
  simp only [reservedKeys, List.map_cons, List.map_nil, List.mem_cons, List.not_mem_nil, or_false,
    not_or] at h
  obtain ⟨-, hperiod, hfreq, hconfig, hconfig1, hconfig2⟩ := h
  rw [setDirectly?, if_neg hperiod, if_neg hfreq, if_neg hconfig, if_neg hconfig1, if_neg hconfig2]

theorem setDirectly?_key (which : ConfigWord) (value : Word) (attr : Attribute) :
    setDirectly? which.key.toList value attr = some (attr.setWord which value) := by
  cases which <;> rfl

/-! ## 2. Lists -/

theorem applyEach_singleton (step : Term → Attribute → Applied) (term : Term) (attr : Attribute) :
    applyEach step [term] attr = step term attr := by
  rw [applyEach]
  rcases step term attr with ⟨_ | _, reached⟩
  · rfl
  · rfl

/-- Steps that agree on the terms of a list do the same to all of it. -/
theorem applyEach_congr {step other : Term → Attribute → Applied} {terms : List Term}
    (h : ∀ term ∈ terms, ∀ attr, step term attr = other term attr) (attr : Attribute) :
    applyEach step terms attr = applyEach other terms attr := by
  induction terms generalizing attr with
  | nil => rfl
  | cons term terms ih =>
    rw [applyEach, applyEach, h term List.mem_cons_self]
    rcases other term attr with ⟨_ | _, next⟩
    · rfl
    · exact ih (fun later hlater => h later (List.mem_cons_of_mem term hlater)) next

/-- A list of terms none of which fails does what they do, one after another. -/
theorem applyEach_map {α : Type} {step : Term → Attribute → Applied} {term : α → Term}
    {action : α → Attribute → Attribute} {entries : List α}
    (h : ∀ entry ∈ entries, ∀ attr, step (term entry) attr = (.ok (), action entry attr))
    (attr : Attribute) :
    applyEach step (entries.map term) attr =
      (.ok (), entries.foldl (fun attr entry => action entry attr) attr) := by
  induction entries generalizing attr with
  | nil => rfl
  | cons entry entries ih =>
    have hrest := ih fun other hother => h other (List.mem_cons_of_mem entry hother)
    rw [List.map_cons, applyEach, h entry List.mem_cons_self]
    exact hrest (action entry attr)

/-! ## 3. More aliases -/

/-- Wherever the first step succeeds, the second one does so too, with the same attribute. -/
def KeptBy (step wider : Term → Attribute → Applied) : Prop :=
  ∀ term attr next, step term attr = (.ok (), next) → wider term attr = (.ok (), next)

variable {step wider : Term → Attribute → Applied} {attr next : Attribute}

/-- An alias is looked for only where there would be a failure otherwise. -/
theorem applyOne_keptBy (s : Sysfs) (directory : Text)
    (alias? : Text → Option (Attribute → Applied)) :
    KeptBy (applyOne s directory fun _ => none) (applyOne s directory alias?) := by
  intro term attr next h
  rw [applyOne] at h ⊢
  split
  · rename_i hlabel
    rwa [if_pos hlabel] at h
  · rename_i hlabel
    rw [if_neg hlabel] at h
    split
    · rename_i e hnumber
      rw [hnumber] at h
      cases h
    · rename_i value hnumber
      rw [hnumber] at h
      cases hdirect : setDirectly? term.key value attr with
      | some direct => simpa [hdirect] using h
      | none =>
        cases hformat : s.format? directory term.key with
        | some format => simpa [hdirect, hformat] using h
        | none => simp [hdirect, hformat] at h

theorem applyEach_keptBy (hkept : KeptBy step wider) {terms : List Term}
    (h : applyEach step terms attr = (.ok (), next)) :
    applyEach wider terms attr = (.ok (), next) := by
  induction terms generalizing attr with
  | nil => exact h
  | cons term terms ih =>
    rw [applyEach] at h ⊢
    split at h
    · rename_i reached hstep
      rw [hkept term attr reached hstep]
      exact ih h
    · cases h

/-- **Aliases leave what succeeds.**  A text of terms that is applied without failure is applied with
the same result by wider steps. -/
theorem applyText_keptBy (hkept : KeptBy step wider) {text : Text}
    (h : applyText step text attr = (.ok (), next)) :
    applyText wider text attr = (.ok (), next) := by
  rw [applyText] at h ⊢
  split
  · rename_i hgrammar
    rw [hgrammar] at h
    cases h
  · rename_i terms hterms
    rw [hterms] at h
    exact applyEach_keptBy hkept h

end Term

end HardwareCounters
