/-
# Names that are blank

Blank parts of an expression are skipped before their braces are taken off, so that a part such as
`{}` gets through with a name of no characters.  Whether it becomes an event is left to the resolver,
which tries the name as it tries any other.  In the catalog no record leaves an event without a name,
but an insertion may; and an empty list of terms is one that the PMU of the cores accepts, so that
wherever there is such a PMU the name counts its configuration 0.

* `EventToken.trim_name_of_mem_ofExpression`: every name of an expression is trimmed, so that a blank
  one is empty.
* `Resolver.resolve_blank`: what a blank name is resolved to.
* `blank_names_refused_iff` says exactly with which files and catalogs no blank name becomes an
  event, and `emptyGroup_parsed` is an expression that gives one.
-/
import HardwareCounters.Proofs.Descriptor.Spelling
import HardwareCounters.Proofs.Session.Grouping
import HardwareCounters.Proofs.Session.Refusal

namespace HardwareCounters

variable {η : Type}

/-! ## 1. Names are trimmed -/

namespace EventToken

theorem trim_splitOpening {t : Text} (h : Text.trim t = t) :
    Text.trim (splitOpening t).1 = (splitOpening t).1 := by
  rw [splitOpening.eq_def]
  split
  · exact Text.trim_trim _
  · exact h

theorem trim_splitClosing {t : Text} (h : Text.trim t = t) :
    Text.trim (splitClosing t).1 = (splitClosing t).1 := by
  rw [splitClosing]
  split
  · exact Text.trim_trim _
  · exact h

/-- Every name of an expression is trimmed. -/
theorem trim_name_of_mem_ofExpression {expression : Text} {token : EventToken}
    (h : token ∈ ofExpression expression) : Text.trim token.name = token.name := by
  obtain ⟨part, hpart, rfl⟩ := List.mem_map.mp h
  obtain ⟨piece, -, rfl⟩ := List.mem_map.mp (List.mem_filter.mp hpart).1
  exact trim_splitClosing (trim_splitOpening (Text.trim_trim piece))

end EventToken

/-! ## 2. What a blank name is resolved to -/

/-- An empty list of terms gives the configuration 0 of a PMU. -/
theorem Descriptor.resolve_pmuEvent_nil (s : Sysfs) {pmu : Text} (hne : pmu ≠ [])
    (hpmu : Plain pmu) :
    resolve s (pmuEvent pmu []) =
      match s.pmuType? pmu with
      | none => .error (.unknownPmu pmu)
      | some (id, _) => .ok { Attribute.raw with pmuType := id } := by
  have hnil : Plain [] := fun _ hc => nomatch hc
  rw [resolve, parse?_pmuEvent hne hpmu hnil]
  simp only [toAttribute]
  cases s.pmuType? pmu with
  | none => rfl
  | some found => rfl

namespace Resolver

/-- The attribute that the catalog gives a blank name. -/
def blankInCatalog? (resolver : Resolver) : Option Attribute :=
  (catalogDescriptor? resolver.loaded.catalog []).bind fun descriptor =>
    (Descriptor.resolve resolver.sysfs descriptor).toOption

/-- The attribute that the PMU of the cores gives a blank name. -/
def blankOnCores? (resolver : Resolver) : Option Attribute :=
  (resolver.sysfs.pmuType? CatalogEvent.coreMark).map fun (id, _) =>
    { Attribute.raw with pmuType := id }

theorem firstResolved?_append (s : Sysfs) (first second : List Text) :
    firstResolved? s (first ++ second) = (firstResolved? s first).or (firstResolved? s second) :=
  List.findSome?_append

theorem firstResolved?_toList (s : Sysfs) (descriptor? : Option Text) :
    firstResolved? s descriptor?.toList =
      descriptor?.bind fun descriptor => (Descriptor.resolve s descriptor).toOption := by
  cases descriptor? with
  | none => rfl
  | some descriptor => simp [firstResolved?]

/-- **A blank name** is looked for in the catalog, and then stands for an empty list of terms. -/
theorem resolve_blank (resolver : Resolver) {name : Text} (h : Text.trim name = []) :
    (resolver.resolve name).1 =
      match resolver.blankInCatalog?.or resolver.blankOnCores? with
      | some attr => .ok attr
      | none => .error (.eventNotFound []) := by
  have hplain : Descriptor.Plain CatalogEvent.coreMark :=
    Descriptor.plain_iff.mpr ⟨by decide, by decide⟩
  have hcores : firstResolved? resolver.sysfs [[], pmuEvent CatalogEvent.coreMark []] =
      resolver.blankOnCores? := by
    have hempty : (Descriptor.resolve resolver.sysfs []).toOption = none := rfl
    rw [firstResolved?, List.findSome?_cons, hempty, List.findSome?_singleton,
      Descriptor.resolve_pmuEvent_nil resolver.sysfs (by decide) hplain, blankOnCores?]
    cases resolver.sysfs.pmuType? CatalogEvent.coreMark with
    | none => rfl
    | some found => rfl
  have hfirst : firstResolved? resolver.sysfs (descriptors resolver.loaded.catalog []) =
      resolver.blankInCatalog?.or resolver.blankOnCores? := by
    rw [descriptors, firstResolved?_append, firstResolved?_toList, hcores, blankInCatalog?]
  have hgeneric : GenericEvent.find? [] = none := by decide +kernel
  have hsysfs : resolver.loaded.sysfs = resolver.sysfs := rfl
  rw [resolve, h]
  cases hblank : resolver.blankInCatalog?.or resolver.blankOnCores? with
  | none => simp only [lookUp, hsysfs, hfirst, hblank, hgeneric]
  | some attr => simp only [lookUp, hsysfs, hfirst, hblank]

theorem resolve_blank_of_refused {resolver : Resolver}
    (h : ¬ ∃ attr, (resolver.resolve []).1 = .ok attr) :
    (resolver.resolve []).1 = .error (.eventNotFound []) := by
  have hblank := resolver.resolve_blank (show Text.trim [] = [] from rfl)
  split at hblank
  · exact absurd ⟨_, hblank⟩ h
  · exact hblank

/-- A blank name is refused where the catalog gives it no attribute and there is no PMU of the
cores. -/
theorem exists_resolve_blank_iff {resolver : Resolver} :
    (∃ attr, (resolver.resolve []).1 = .ok attr) ↔
      ¬ (resolver.blankInCatalog? = none ∧
        resolver.sysfs.pmuType? CatalogEvent.coreMark = none) := by
  rw [resolver.resolve_blank rfl, blankOnCores?]
  cases resolver.blankInCatalog? with
  | some attr => simp
  | none =>
    cases resolver.sysfs.pmuType? CatalogEvent.coreMark with
    | none => simp
    | some found => simp

end Resolver

/-! ## 3. Expressions with blank names -/

/-- The events of a parsed session have the names of the expression. -/
theorem Session.exists_token_of_parse {session parsed : Session η} {expression : Text}
    {resolver after : Resolver} (h : session.parse expression resolver = (.ok (), parsed, after))
    {event : SessionEvent η} (hevent : event ∈ parsed.events) :
    ∃ token ∈ EventToken.ofExpression expression, token.name = event.name ∧
      ∃ attr, (resolver.resolve token.name).1 = .ok attr := by
  obtain ⟨hallowed, events, -, hevents, rfl⟩ := exists_events_of_parse h
  have hmem : event.token ∈ EventToken.ofExpression expression := by
    rw [← Resolver.map_token_of_resolveTokens hevents]
    exact List.mem_map_of_mem hevent
  have hresolved := (parsedByName resolver hallowed expression).ok_iff.mp (by rw [h])
  exact ⟨event.token, hmem, rfl, (hresolved.2 event.token hmem).1⟩

/-- An expression with a blank name alone: a group without events. -/
def emptyGroup : Text := ['{', '}']

theorem ofExpression_emptyGroup : EventToken.ofExpression emptyGroup = [⟨[], true, true⟩] := rfl

theorem trim_name_of_mem_emptyGroup :
    ∀ token ∈ EventToken.ofExpression emptyGroup, Text.trim token.name = [] := by
  rw [ofExpression_emptyGroup, List.forall_mem_singleton]
  rfl

/-- Among trimmed names only the empty one is blank. -/
theorem EventToken.name_eq_nil_of_mem {expression : Text} {token : EventToken}
    (h : token ∈ ofExpression expression) (hblank : Text.trim token.name = []) :
    token.name = [] := by
  rwa [trim_name_of_mem_ofExpression h] at hblank

namespace Session

variable {session parsed : Session η} {expression : Text} {resolver after : Resolver}

theorem trim_name_of_parse (h : session.parse expression resolver = (.ok (), parsed, after))
    {event : SessionEvent η} (hevent : event ∈ parsed.events) :
    Text.trim event.name = event.name := by
  obtain ⟨token, htoken, hname, -⟩ := exists_token_of_parse h hevent
  rw [← hname]
  exact EventToken.trim_name_of_mem_ofExpression htoken

/-- Where the empty name is refused, no event has a blank name. -/
theorem trim_name_ne_nil_of_parse (hrefused : ¬ ∃ attr, (resolver.resolve []).1 = .ok attr)
    (h : session.parse expression resolver = (.ok (), parsed, after)) {event : SessionEvent η}
    (hevent : event ∈ parsed.events) : Text.trim event.name ≠ [] := by
  intro hblank
  obtain ⟨token, htoken, hname, hresolved⟩ := exists_token_of_parse h hevent
  rw [← hname] at hblank
  rw [EventToken.name_eq_nil_of_mem htoken hblank] at hresolved
  exact hrefused hresolved

/-- Where the empty name is refused, an expression of blank names is, and the program goes on. -/
theorem parse_refused_of_blank (hrefused : ¬ ∃ attr, (resolver.resolve []).1 = .ok attr)
    (hallowed : session.refusal? .parse = none)
    (hall : ∀ token ∈ EventToken.ofExpression expression, Text.trim token.name = []) :
    ∃ e, (session.parse expression resolver).1 = .error e ∧ e.isFatal = false ∧
      (session.parse expression resolver).2.1 = session := by
  have hparsed := parsedByName resolver hallowed expression
  cases htokens : EventToken.ofExpression expression with
  | nil =>
    have hresult := hparsed.error_of_nil htokens
    exact ⟨_, hresult, rfl, parse_of_result_error hresult⟩
  | cons token tokens =>
    have hmem : token ∈ EventToken.ofExpression expression := by
      rw [htokens]
      exact List.mem_cons_self
    have hname := EventToken.name_eq_nil_of_mem hmem (hall token hmem)
    have hrejected : resolver.Rejects token.name (.eventNotFound []) := by
      rw [hname]
      exact .unresolved (Resolver.resolve_blank_of_refused hrefused)
    have hresult := hparsed.error [] token tokens _ htokens (fun _ h => nomatch h) hrejected
    exact ⟨_, hresult, rfl, parse_of_result_error hresult⟩

/-- Where the empty name is resolved, a group without events is parsed, unless the program stops. -/
theorem parse_emptyGroup (hresolved : ∃ attr, (resolver.resolve []).1 = .ok attr)
    (hallowed : session.refusal? .parse = none) {e : Error}
    (he : (session.parse emptyGroup resolver).1 = .error e) : e.isFatal = true := by
  have hparsed := parsedByName resolver hallowed emptyGroup
  rw [ofExpression_emptyGroup] at hparsed
  obtain ⟨attr, hattr⟩ := hresolved
  cases hjudged : resolver.loaded.isUncore [] with
  | ok uncore =>
    have haccepted : resolver.Accepts [] := ⟨⟨attr, hattr⟩, uncore, hjudged⟩
    rw [hparsed.ok_iff.mpr ⟨List.cons_ne_nil _ _, by simpa using haccepted⟩] at he
    cases he
  | error fault =>
    have hresult := hparsed.error [] _ [] fault rfl (fun _ h => nomatch h) (.unjudged hattr hjudged)
    obtain rfl := Sysfs.eq_noRoom_of_isUncore hjudged
    obtain rfl := Except.error.inj (hresult.symm.trans he)
    rfl

end Session

/-- **Where blank names are refused.**  Every event of a parsed session has a trimmed name.  That
none of them is blank, whatever the expression, and that an expression of blank names alone is
refused by an error that does not stop the program, holds exactly where the catalog gives a blank name
no attribute and the files describe no PMU of the cores. -/
theorem blank_names_refused_iff (resolver : Resolver) {session : Session η}
    (hstate : session.state = .closed ∨ session.state = .parsed) :
    (∀ expression parsed after, session.parse expression resolver = (.ok (), parsed, after) →
      ∀ event ∈ parsed.events, Text.trim event.name = event.name) ∧
    (((∀ expression parsed after, session.parse expression resolver = (.ok (), parsed, after) →
        ∀ event ∈ parsed.events, Text.trim event.name ≠ []) ∧
      ∀ expression, (∀ token ∈ EventToken.ofExpression expression, Text.trim token.name = []) →
        ∃ e, (session.parse expression resolver).1 = .error e ∧ e.isFatal = false ∧
          (session.parse expression resolver).2.1 = session) ↔
      resolver.blankInCatalog? = none ∧
        resolver.sysfs.pmuType? CatalogEvent.coreMark = none) := by
  have hallowed : session.refusal? .parse = none := by
    rw [refusal?_eq_none_iff]
    simpa [SessionOperation.allowedIn] using hstate
  refine ⟨fun _ _ _ h _ hevent => Session.trim_name_of_parse h hevent, ?_, ?_⟩
  · rintro ⟨-, hrefused⟩
    by_contra hcond
    obtain ⟨e, he, hgoesOn, -⟩ := hrefused emptyGroup trim_name_of_mem_emptyGroup
    have hresolved := Resolver.exists_resolve_blank_iff.mpr hcond
    rw [Session.parse_emptyGroup hresolved hallowed he] at hgoesOn
    cases hgoesOn
  · intro hcond
    have hrefused : ¬ ∃ attr, (resolver.resolve []).1 = .ok attr :=
      fun hresolved => Resolver.exists_resolve_blank_iff.mp hresolved hcond
    exact ⟨fun _ _ _ h _ hevent => Session.trim_name_ne_nil_of_parse hrefused h hevent,
      fun _ hall => Session.parse_refused_of_blank hrefused hallowed hall⟩

namespace Example

/-- A PMU of the cores, of which nothing but the type id is described. -/
def coreTypeFiles : FileTree :=
  ({} : FileTree).write "/sys/devices/cpu/type".toList (.text ['4'])

/-- A resolver without a catalog that finds this PMU. -/
def coreResolver : Resolver := ⟨⟨Sysfs.defaultRoot, coreTypeFiles⟩, {}⟩

end Example

open Example in
theorem blank_names_refused_iff_bare :
    (newSession.state = .closed ∧ bareResolver.blankInCatalog? = none ∧
      bareResolver.sysfs.pmuType? CatalogEvent.coreMark = none) ∧
    ∃ e, (newSession.parse emptyGroup bareResolver).1 = .error e ∧ e.isFatal = false ∧
      (newSession.parse emptyGroup bareResolver).2.1 = newSession := by
  have hcond : bareResolver.blankInCatalog? = none ∧
      bareResolver.sysfs.pmuType? CatalogEvent.coreMark = none := ⟨rfl, rfl⟩
  have hstate : newSession.state = .closed ∨ newSession.state = .parsed := Or.inl rfl
  obtain ⟨-, hiff⟩ := blank_names_refused_iff bareResolver hstate
  exact ⟨⟨rfl, hcond⟩, (hiff.mpr hcond).2 emptyGroup trim_name_of_mem_emptyGroup⟩

open Example in
/-- A group without events is parsed where there is a PMU of the cores: its event has no name and
counts the configuration 0 of that PMU. -/
theorem emptyGroup_parsed :
    ∃ parsed after, newSession.parse emptyGroup coreResolver = (.ok (), parsed, after) ∧
      parsed.state = .parsed ∧
      parsed.events.map SessionEvent.token = [⟨[], true, true⟩] ∧
      parsed.events.map SessionEvent.attr = [{ Attribute.raw with pmuType := 4 }] :=
  ⟨_, _, rfl, rfl, rfl, rfl⟩

end HardwareCounters
