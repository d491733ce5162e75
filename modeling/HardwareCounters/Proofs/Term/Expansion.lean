/-
# Aliases and their expansions

An alias stands for terms in which no further alias is looked for.  If all these terms are reserved or
have bit fields, it makes no difference whether the alias or what it stands for is written in a list,
wherever it stands there and whatever fails.  And since nothing is looked for behind one alias, other
aliases than those that a list names are never seen.

* `Direct` terms do not depend on aliases, by `applyOne_of_direct`;
* `parseList?_spliced`: a text in the midst of a list is read there as it is read alone;
* `apply_spliced`: an alias in a list is its expansion;
* `aliases_expanded_once`: of the aliases none is seen but those that the list names.
-/
import HardwareCounters.Proofs.Sysfs.Files
import HardwareCounters.Proofs.Term.ClosedForm
import HardwareCounters.Proofs.Term.Listing

namespace HardwareCounters

namespace Term

variable {s s' : Sysfs} {directory text key expansion : Text} {term : Term}
  {pre post terms : List Term} {attr reached : Attribute}

/-! ## 1. A text in the midst of a list -/

/-- A text between terms. -/
def spliced (pre : List Term) (middle : Text) (post : List Term) : Text :=
  Text.joinWith [','] (pre.map Term.text ++ [middle] ++ post.map Term.text)

/-- **A text in the midst of a list** is read there as it is read alone, if its parts have keys. -/
theorem parseList?_spliced (hpre : ∀ term ∈ pre, term.Spelled) (hpost : ∀ term ∈ post, term.Spelled)
    {middle : Text} (hmiddle : ∀ part ∈ Text.splitOn ',' middle, (ofPart part).key ≠ []) :
    parseList? (spliced pre middle post) =
      some (pre.map trimmed ++ (Text.splitOn ',' middle).map ofPart ++ post.map trimmed) := by
  have hparts : Text.splitOn ',' (spliced pre middle post) =
      pre.map Term.text ++ Text.splitOn ',' middle ++ post.map Term.text := by
    rw [spliced, Text.splitOn_joinWith_eq_flatMap _ (by simp), List.flatMap_append,
      List.flatMap_append, flatMap_splitOn_text hpre, flatMap_splitOn_text hpost,
      List.flatMap_singleton]
  rw [parseList?_of_keys, hparts, List.map_append, List.map_append, map_ofPart_text hpre,
    map_ofPart_text hpost]
  rw [hparts, List.forall_mem_append, List.forall_mem_append]
  exact ⟨⟨key_ofPart_text_ne_nil hpre, hmiddle⟩, key_ofPart_text_ne_nil hpost⟩

/-- A term in the midst of a list. -/
theorem parseList?_spliced_text (hpre : ∀ term ∈ pre, term.Spelled)
    (hpost : ∀ term ∈ post, term.Spelled) (hterm : term.Spelled) :
    parseList? (spliced pre term.text post) =
      some (pre.map trimmed ++ [term.trimmed] ++ post.map trimmed) := by
  have hpart : Text.splitOn ',' term.text = [term.text] :=
    Text.splitOn_of_not_mem hterm.comma_not_mem_text
  rw [parseList?_spliced hpre hpost, hpart, List.map_singleton, hterm.ofPart_text]
  rw [hpart, List.forall_mem_singleton, hterm.ofPart_text]
  exact hterm.key_ne_nil

/-! ## 2. Direct terms -/

/-- There is no bit field without a key. -/
theorem Direct.key_ne_nil (h : term.Direct s directory) : term.key ≠ [] := by
  intro hnil
  rw [Direct, hnil, Sysfs.format?_nil] at h
  rcases h with hreserved | hformat
  · revert hreserved
    decide
  · cases hformat

/-- What a direct term does is the same whatever aliases there are. -/
theorem applyOne_of_direct (h : term.Direct s directory)
    (alias? other? : Text → Option (Attribute → Applied)) (attr : Attribute) :
    applyOne s directory alias? term attr = applyOne s directory other? term attr := by
  refine applyOne_congr rfl ?_ attr
  intro hreserved hformat
  have hfound := h.resolve_left hreserved
  rw [hformat] at hfound
  cases hfound

/-- An alias for direct terms does what these do in its place. -/
theorem applyOne_of_expansion (hreserved : key ∉ reservedKeys)
    (hformat : s.format? directory key = none) (halias : s.alias? directory key = some expansion)
    (hterms : parseList? expansion = some terms) (hdirect : ∀ term ∈ terms, term.Direct s directory)
    (attr : Attribute) :
    applyOne s directory (aliasAction? s directory) ⟨key, none⟩ attr =
      applyEach (applyOne s directory (aliasAction? s directory)) terms attr := by
  have hlooked : LookedUp ⟨key, none⟩ 1 := ⟨hreserved, rfl⟩
  rw [hlooked.applyOne_alias hformat halias, applyExpansion, applyText, hterms]
  exact applyEach_congr (fun term hterm attr => applyOne_of_direct (hdirect term hterm) _ _ attr) attr

/-- **An alias is its expansion.**  Let a key be the name of an alias that is neither reserved nor the
name of a bit field, and let the alias stand for a list of direct terms that does not end with a comma.
Then the key and what it stands for may be exchanged between any other terms: both lists are read, the
one with the key as a term, the other with the terms that it stands for, and they do the same to every
attribute, up to the term that fails if one does. -/
theorem apply_spliced (hpre : ∀ term ∈ pre, term.Spelled) (hpost : ∀ term ∈ post, term.Spelled)
    (hkey : Spelled ⟨key, none⟩) (hreserved : key ∉ reservedKeys)
    (hformat : s.format? directory key = none) (halias : s.alias? directory key = some expansion)
    (hterms : parseList? expansion = some terms) (hne : terms ≠ [])
    (hlast : expansion.getLast? ≠ some ',') (hdirect : ∀ term ∈ terms, term.Direct s directory) :
    parseList? (spliced pre key post) =
      some (pre.map trimmed ++ [⟨key, none⟩] ++ post.map trimmed) ∧
    parseList? (spliced pre expansion post) =
      some (pre.map trimmed ++ terms ++ post.map trimmed) ∧
    ∀ attr, apply s directory (spliced pre key post) attr =
      apply s directory (spliced pre expansion post) attr := by
  have hlisted : parseList? (spliced pre key post) =
      some (pre.map trimmed ++ [⟨key, none⟩] ++ post.map trimmed) :=
    parseList?_spliced_text hpre hpost hkey
  have hparts : terms = (Text.splitOn ',' expansion).map ofPart := by
    refine parts_of_parseList? hterms hne ?_
    rwa [Sysfs.trim_of_read? halias]
  have hexpanded : parseList? (spliced pre expansion post) =
      some (pre.map trimmed ++ terms ++ post.map trimmed) := by
    rw [parseList?_spliced hpre hpost, ← hparts]
    intro part hpart
    exact (hdirect _ (hparts ▸ List.mem_map_of_mem hpart)).key_ne_nil
  refine ⟨hlisted, hexpanded, fun attr => ?_⟩
  rw [apply, apply, applyText, applyText, hlisted, hexpanded]
  simp only [applyEach_append, applyEach_singleton,
    applyOne_of_expansion hreserved hformat halias hterms hdirect]

namespace FieldExample

/-- Two bit fields, and an alias for terms that pack into both. -/
def loadSysfs : Sysfs :=
  ⟨"/sys".toList,
    fieldSysfs.files.write "/sys/cpu/events/loads".toList (.text "event=0x2e, umask = 2\n".toList)⟩

end FieldExample

open FieldExample in
theorem apply_spliced_loads :
    (parseList? "event=0x2e, umask = 2".toList =
        some [⟨"event".toList, some "0x2e".toList⟩, ⟨"umask".toList, some "2".toList⟩] ∧
      loadSysfs.alias? "cpu".toList "loads".toList = some "event=0x2e, umask = 2".toList) ∧
    apply loadSysfs "cpu".toList "config=0x10000,loads,freq=many".toList {} =
      apply loadSysfs "cpu".toList "config=0x10000,event=0x2e, umask = 2,freq=many".toList {} := by
  have halias : loadSysfs.alias? "cpu".toList "loads".toList =
      some "event=0x2e, umask = 2".toList := by decide +kernel
  have hassign : Spelled ⟨"config".toList, some "0x10000".toList⟩ :=
    ⟨by decide, rfl, by decide, by decide, by simp⟩
  have hfail : Spelled ⟨"freq".toList, some "many".toList⟩ :=
    ⟨by decide, rfl, by decide, by decide, by simp⟩
  have hkey : Spelled ⟨"loads".toList, none⟩ := ⟨by decide, rfl, by decide, by decide, by simp⟩
  have hdirect : ∀ term ∈ [(⟨"event".toList, some "0x2e".toList⟩ : Term),
      ⟨"umask".toList, some "2".toList⟩], term.Direct loadSysfs "cpu".toList := by
    rw [List.forall_mem_cons, List.forall_mem_singleton]
    exact ⟨Or.inr (by decide +kernel), Or.inr (by decide +kernel)⟩
  refine ⟨⟨rfl, halias⟩, ?_⟩
  exact (apply_spliced (List.forall_mem_singleton.mpr hassign) (List.forall_mem_singleton.mpr hfail)
    hkey (by decide) (by decide +kernel) halias rfl (List.cons_ne_nil _ _) (by decide) hdirect).2.2 {}

/-! ## 3. One level -/

/-- A term of an expansion for which there is no bit field is unknown, whatever aliases there are, and
ends the list in which the alias stands. -/
theorem apply_of_unknown_in_expansion {final : Attribute} {value : Word}
    (hexpands : Expands s directory (aliasAction? s directory) text attr key reached)
    (halias : s.alias? directory key = some expansion)
    (hreaches : Reaches (applyOne s directory fun _ => none) expansion reached term final)
    (hlooked : term.LookedUp value) (hformat : s.format? directory term.key = none) :
    apply s directory text attr = (.error (.unknownTerm directory term), final) := by
  obtain ⟨named, number, rfl, hnamed, hlookedNamed, hformatNamed⟩ := hexpands
  refine hnamed.applyText_eq ?_
  rw [hlookedNamed.applyOne_alias hformatNamed halias]
  refine hreaches.applyText_eq ?_
  simp only [hlooked.applyOne_eq, hformat]

def keysOf (text : Text) : List Text := ((parseList? text).getD []).map Term.key

theorem key_mem_keysOf (hterms : parseList? text = some terms) (hterm : term ∈ terms) :
    term.key ∈ keysOf text := by
  rw [keysOf, hterms]
  exact List.mem_map_of_mem hterm

/-- Steps that agree on terms with the keys of a text do the same to that text. -/
theorem applyText_congr {step other : Term → Attribute → Applied}
    (h : ∀ term : Term, term.key ∈ keysOf text → ∀ attr, step term attr = other term attr)
    (attr : Attribute) : applyText step text attr = applyText other text attr := by
  rw [applyText, applyText]
  cases hterms : parseList? text with
  | none => rfl
  | some terms =>
    exact applyEach_congr (fun term hterm => h term (key_mem_keysOf hterms hterm)) attr

/-- Aliases that a list does not name are not seen. -/
theorem apply_eq_of_aliasesDiffer (h : s.AliasesDiffer s' directory (keysOf text))
    (hkeys : ∀ key ∈ keysOf text, '/' ∉ key)
    (hexpansions : ∀ key ∈ keysOf text, ∀ expansion, s.alias? directory key = some expansion →
      ∀ inner ∈ keysOf expansion, '/' ∉ inner) (attr : Attribute) :
    apply s directory text attr = apply s' directory text attr := by
  refine applyText_congr (fun term hterm attr => ?_) attr
  refine applyOne_congr (h.format?_eq (hkeys _ hterm)) (fun _ _ => ?_) attr
  rw [aliasAction?, aliasAction?, ← h.alias?_eq (hkeys _ hterm) hterm]
  cases halias : s.alias? directory term.key with
  | none => rfl
  | some expansion =>
    -- Behind the alias nothing but bit fields is looked up.
    refine congrArg some (funext fun attr => applyText_congr (fun inner hinner attr => ?_) attr)
    exact applyOne_congr (h.format?_eq (hexpansions _ hterm _ halias _ hinner)) (fun _ _ => rfl) attr

/-- **Aliases are expanded once.**  What a text of terms does is the same for any two descriptions of
PMUs that differ only in aliases of the PMU which no term of the text names, unless a key leads to
another directory.  In particular a term of an expansion that has a number, but is neither reserved nor
has a bit field, is unknown even if there is an alias for it. -/
theorem aliases_expanded_once (s : Sysfs) (directory text : Text) (attr : Attribute) :
    (∀ s' : Sysfs, s.AliasesDiffer s' directory (keysOf text) →
      (∀ key ∈ keysOf text, '/' ∉ key) →
      (∀ key ∈ keysOf text, ∀ expansion, s.alias? directory key = some expansion →
        ∀ inner ∈ keysOf expansion, '/' ∉ inner) →
      apply s directory text attr = apply s' directory text attr) ∧
    ∀ key reached expansion term final value,
      Expands s directory (aliasAction? s directory) text attr key reached →
      s.alias? directory key = some expansion →
      Reaches (applyOne s directory fun _ => none) expansion reached term final →
      term.LookedUp value → s.format? directory term.key = none →
      apply s directory text attr = (.error (.unknownTerm directory term), final) :=
  ⟨fun _ h hkeys hexpansions => apply_eq_of_aliasesDiffer h hkeys hexpansions attr,
    fun _ _ _ _ _ _ hexpands halias hreaches hlooked hformat =>
      apply_of_unknown_in_expansion hexpands halias hreaches hlooked hformat⟩

namespace FieldExample

/-- An alias that stands for a bit field and for another alias. -/
def chainSysfs : Sysfs :=
  ⟨"/sys".toList,
    fieldSysfs.files.write "/sys/cpu/events/loop-a".toList (.text "event=1,loop-b".toList)⟩

def loopName : FileName := ⟨"loop-b".toList, by decide⟩

/-- The same with the other alias, which stands for the first. -/
def cyclicSysfs : Sysfs :=
  ⟨chainSysfs.root,
    chainSysfs.files.put (chainSysfs.aliasPlace "cpu".toList loopName) (.file (.text "loop-a".toList))⟩

theorem aliasesDiffer_cyclicSysfs :
    chainSysfs.AliasesDiffer cyclicSysfs "cpu".toList (keysOf "umask=3,loop-a".toList) :=
  Sysfs.aliasesDiffer_put (by decide) (by decide +kernel) _

end FieldExample

open FieldExample in
theorem aliases_expanded_once_cyclic :
    (chainSysfs.AliasesDiffer cyclicSysfs "cpu".toList (keysOf "umask=3,loop-a".toList) ∧
      cyclicSysfs.alias? "cpu".toList "loop-b".toList = some "loop-a".toList) ∧
    apply cyclicSysfs "cpu".toList "umask=3,loop-a".toList {} =
      (.error (.unknownTerm "cpu".toList ⟨"loop-b".toList, none⟩), { config := 0x301 }) ∧
    apply chainSysfs "cpu".toList "umask=3,loop-a".toList {} =
      apply cyclicSysfs "cpu".toList "umask=3,loop-a".toList {} := by
  obtain ⟨hsame, -⟩ := aliases_expanded_once chainSysfs "cpu".toList "umask=3,loop-a".toList {}
  obtain ⟨-, hunknown⟩ := aliases_expanded_once cyclicSysfs "cpu".toList "umask=3,loop-a".toList {}
  refine ⟨⟨aliasesDiffer_cyclicSysfs, by decide +kernel⟩, ?_, ?_⟩
  · refine hunknown "loop-a".toList { config := 0x300 } "event=1,loop-b".toList
      ⟨"loop-b".toList, none⟩ _ 1 ?_ (by decide +kernel) ?_ ⟨by decide, rfl⟩ (by decide +kernel)
    · exact ⟨⟨"loop-a".toList, none⟩, 1, rfl,
        ⟨[⟨"umask".toList, some "3".toList⟩], [], rfl, by decide +kernel⟩, ⟨by decide, rfl⟩,
        by decide +kernel⟩
    · exact ⟨[⟨"event".toList, some "1".toList⟩], [], rfl, by decide +kernel⟩
  · refine hsame cyclicSysfs aliasesDiffer_cyclicSysfs (by decide) ?_
    have hkeys : keysOf "umask=3,loop-a".toList = ["umask".toList, "loop-a".toList] := rfl
    have hnone : chainSysfs.alias? "cpu".toList "umask".toList = none := by decide +kernel
    have hsome : chainSysfs.alias? "cpu".toList "loop-a".toList = some "event=1,loop-b".toList := by
      decide +kernel
    simp only [hkeys, List.forall_mem_cons, hnone, hsome, Option.some.injEq, forall_eq', reduceCtorEq,
      false_implies, implies_true, true_and, List.not_mem_nil, and_true]
    decide

end Term

end HardwareCounters
