/-
# The PMU of an event that is counted once

Whether an event is counted once for all processors is found out by a lookup of its own, after the
event has been resolved.  It judges an event of the catalog by the PMU of the catalog, and any other
name by itself.  Resolving has more ways than that: a name that the catalog does not settle may be a
raw code, an event of the cores, or a generic event, and then its attribute has nothing to do with the
PMU by which it is judged.

* `Resolver.judgedPmu`: the PMU by which a name is judged;
* `Resolver.ByName` and `lookUp_cases`: where the attribute of a name without slashes comes from;
* `uncore_events_placed`: an event that is counted once belongs to the directory by which it was
  judged if the catalog gave its attribute, and `uncore_events_misplaced` are three that do not.
-/
import HardwareCounters.Proofs.Descriptor.Placement
import HardwareCounters.Proofs.Resolver.Record
import HardwareCounters.Proofs.Session.BlankNames
import HardwareCounters.Proofs.Sysfs.Found

namespace HardwareCounters

variable {η : Type}

/-! ## 1. Where an attribute comes from -/

namespace Resolver

variable {s : Sysfs} {catalog : Catalog} {name : Text} {attr : Attribute}

/-- The ways in which a name without slashes gets an attribute that is not that of the catalog. -/
inductive ByName (s : Sysfs) (name : Text) (attr : Attribute) : Prop
  /-- The name is a raw code. -/
  | raw {code qualifiers : Text} (hparse : Descriptor.parse? name = some (.raw code qualifiers))
      (htype : attr.pmuType = Attribute.rawType)
  /-- The name is an alias or a list of terms of the cores' PMU. -/
  | cores {directory : Text}
      (hresolve : Descriptor.resolve s (pmuEvent CatalogEvent.coreMark name) = .ok attr)
      (hid : s.pmuType? CatalogEvent.coreMark = some (attr.pmuType, directory))
  /-- The name is that of a generic event. -/
  | generic (hfind : GenericEvent.find? name = some attr)

theorem firstResolved?_pair (s : Sysfs) (first second : Text) :
    firstResolved? s [first, second] =
      (Descriptor.resolve s first).toOption.or (Descriptor.resolve s second).toOption := by
  rw [firstResolved?, List.findSome?_cons, List.findSome?_singleton]
  cases Descriptor.resolve s first with
  | error e => rfl
  | ok attr => rfl

/-- What the candidates behind the catalog give. -/
theorem byName_of_lookUp (hslash : '/' ∉ name)
    (hnone : firstResolved? s (catalogDescriptor? catalog name).toList = none)
    (h : lookUp s catalog name = .ok attr) : ByName s name attr := by
  have hplain : Descriptor.Plain CatalogEvent.coreMark :=
    Descriptor.plain_iff.mpr ⟨by decide, by decide⟩
  rw [lookUp, descriptors, firstResolved?_append, hnone, Option.none_or, firstResolved?_pair] at h
  cases hname : Descriptor.resolve s name with
  | ok found =>
    rw [hname] at h
    cases h
    obtain ⟨⟨code, qualifiers, hparse⟩, htype⟩ := Descriptor.pmuType_of_slash_not_mem hslash hname
    exact .raw hparse htype
  | error e =>
    rw [hname] at h
    cases hcores : Descriptor.resolve s (pmuEvent CatalogEvent.coreMark name) with
    | ok found =>
      rw [hcores] at h
      cases h
      obtain ⟨directory, hid⟩ := Descriptor.exists_pmuType_of_resolve (by decide) hplain hcores
      exact .cores hcores hid
    | error e =>
      rw [hcores] at h
      cases hgeneric : GenericEvent.find? name with
      | none => simp [Except.toOption, hgeneric] at h
      | some found =>
        simp only [Except.toOption, Option.or_none, hgeneric, Except.ok.injEq] at h
        subst h
        exact .generic hgeneric

/-- **Where an attribute comes from.**  The attribute of a name without slashes is that of the catalog,
or the catalog gives none and the name itself does. -/
theorem lookUp_cases (hslash : '/' ∉ name) (h : lookUp s catalog name = .ok attr) :
    (∃ event, catalog.find? name = some event ∧
      Descriptor.resolve s (pmuEvent event.pmu (encodingOf event)) = .ok attr) ∨
    ((∀ event, catalog.find? name = some event →
        ∃ e, Descriptor.resolve s (pmuEvent event.pmu (encodingOf event)) = .error e) ∧
      ByName s name attr) := by
  cases hfind : catalog.find? name with
  | none =>
    refine Or.inr ⟨fun _ hnone => (nomatch hnone), byName_of_lookUp hslash ?_ h⟩
    rw [firstResolved?_toList, catalogDescriptor?, hfind]
    rfl
  | some event =>
    cases hresolve : Descriptor.resolve s (pmuEvent event.pmu (encodingOf event)) with
    | ok found =>
      rw [lookUp_of_find? hfind hresolve] at h
      cases h
      exact Or.inl ⟨event, rfl, hresolve⟩
    | error e =>
      refine Or.inr ⟨?_, byName_of_lookUp hslash ?_ h⟩
      · rintro other heq
        cases heq
        exact ⟨e, hresolve⟩
      · rw [firstResolved?_toList, catalogDescriptor?, hfind, Option.map_some, Option.bind_some,
          hresolve]
        rfl

/-! ## 2. The flag -/

/-- The PMU by which a name is judged: that of the event of the catalog, or else the name itself. -/
def judgedPmu (resolver : Resolver) (name : Text) : Text :=
  ((resolver.loaded.catalog.find? name).map CatalogEvent.pmu).getD name

def judgedDirectory (resolver : Resolver) (name : Text) : Text :=
  resolver.sysfs.directoryOf (resolver.judgedPmu name)

/-- **The flag.**  A name is counted once if it has no slash and the processors of the directory by
which it is judged are processor 0 alone. -/
theorem isUncore_iff (resolver : Resolver) (htrim : Text.trim name = name) :
    resolver.loaded.isUncore name = .ok true ↔
      '/' ∉ name ∧ resolver.judgedPmu name ≠ [] ∧
        resolver.sysfs.cpumask? (resolver.judgedDirectory name) = .ok (some [0]) := by
  have hpmu : ((resolver.loaded.catalog.find? name).map CatalogEvent.pmu).getD (Text.trim name) =
      resolver.judgedPmu name := by
    rw [htrim, judgedPmu]
  have hsysfs : resolver.loaded.sysfs = resolver.sysfs := rfl
  simp only [isUncore, Sysfs.isUncore, htrim, hsysfs]
  rw [htrim] at hpmu
  rw [hpmu, judgedDirectory]
  by_cases hnot : '/' ∈ name ∨ resolver.judgedPmu name = []
  · rw [if_pos hnot]
    simp only [Except.ok.injEq, Bool.false_eq_true, false_iff, not_and_or, not_not]
    exact hnot.imp id Or.inl
  · obtain ⟨hslash, hne⟩ := not_or.mp hnot
    rw [if_neg hnot]
    cases resolver.sysfs.cpumask? (resolver.sysfs.directoryOf (resolver.judgedPmu name)) with
    | error e => simp [Except.map]
    | ok cpus? => simp [Except.map, hslash, hne]

end Resolver

/-! ## 3. Parsed events -/

/-- The events of a parsed session are those that its names get on their own. -/
theorem Session.exists_eventOf_of_parse {session parsed : Session η} {expression : Text}
    {resolver after : Resolver} (h : session.parse expression resolver = (.ok (), parsed, after))
    {event : SessionEvent η} (hevent : event ∈ parsed.events) :
    ∃ token ∈ EventToken.ofExpression expression, resolver.eventOf token = .ok event := by
  have hallowed := (exists_events_of_parse h).1
  have hresult : (session.parse expression resolver).1 = .ok () := by rw [h]
  obtain ⟨events, hparsed, hmap⟩ := (parsedByName resolver hallowed expression).events hresult
  rw [h] at hparsed
  have hevents : parsed.events = events := congrArg Session.events hparsed
  rw [hevents] at hevent
  have hmem : (.ok event : Except Error (SessionEvent η)) ∈ events.map .ok :=
    List.mem_map_of_mem hevent
  rw [hmap] at hmem
  exact List.mem_map.mp hmem

/-- **The PMU of an event that is counted once.**  Whatever the files, the catalog and the expression:
the name of an event with the flag has no slash, and the directory by which it is judged, that of its
PMU in the catalog or else of the name itself, has processor 0 alone.  If the catalog gives the event
its attribute, the type in the attribute is that of this very directory, unless the PMU is spelled
with slashes or colons.  Otherwise the attribute comes from the name as a raw code, as an event of the
cores or as a generic event. -/
theorem uncore_events_placed {session parsed : Session η} {expression : Text}
    {resolver after : Resolver} (h : session.parse expression resolver = (.ok (), parsed, after))
    {event : SessionEvent η} (hevent : event ∈ parsed.events) (huncore : event.uncore = true) :
    '/' ∉ event.name ∧ resolver.judgedPmu event.name ≠ [] ∧
    resolver.sysfs.cpumask? (resolver.judgedDirectory event.name) = .ok (some [0]) ∧
    ((∃ found, resolver.loaded.catalog.find? event.name = some found ∧
        Descriptor.resolve resolver.sysfs (pmuEvent found.pmu (Resolver.encodingOf found)) =
          .ok event.attr ∧
        (Descriptor.Plain found.pmu → resolver.sysfs.pmuType? found.pmu =
          some (event.attr.pmuType, resolver.judgedDirectory event.name))) ∨
      ((∀ found, resolver.loaded.catalog.find? event.name = some found →
          ∃ e, Descriptor.resolve resolver.sysfs
            (pmuEvent found.pmu (Resolver.encodingOf found)) = .error e) ∧
        Resolver.ByName resolver.sysfs event.name event.attr)) := by
  obtain ⟨token, htoken, heventOf⟩ := Session.exists_eventOf_of_parse h hevent
  obtain ⟨attr, uncore, hresolve, hjudge, rfl⟩ := Resolver.eventOf_eq_ok_iff.mp heventOf
  obtain rfl : uncore = true := huncore
  have htrim := EventToken.trim_name_of_mem_ofExpression htoken
  obtain ⟨hslash, hne, hmask⟩ := (resolver.isUncore_iff htrim).mp hjudge
  have hlookUp : Resolver.lookUp resolver.sysfs resolver.loaded.catalog token.name = .ok attr := by
    rw [← htrim]
    exact hresolve
  refine ⟨hslash, hne, hmask, ?_⟩
  refine (Resolver.lookUp_cases hslash hlookUp).imp ?_ id
  rintro ⟨found, hfind, hfound⟩
  refine ⟨found, hfind, hfound, fun hplain => ?_⟩
  -- Resolving looked for the PMU under the name by which the event is judged.
  have hjudged : resolver.judgedPmu token.name = found.pmu := by
    rw [Resolver.judgedPmu, hfind]
    rfl
  obtain ⟨directory, hid⟩ := Descriptor.exists_pmuType_of_resolve (hjudged ▸ hne) hplain hfound
  have hdirectory : resolver.judgedDirectory token.name = directory := by
    rw [Resolver.judgedDirectory, hjudged, Sysfs.directoryOf, hid]
    rfl
  exact hdirectory ▸ hid

namespace Example

/-- The PMU of the cores with two aliases, and two PMUs for processor 0 alone.  The name of one of them
is spelled like a raw code. -/
def uncoreFiles : FileTree :=
  [("/sys/cpu/type", "4"), ("/sys/cpu/events/cbox", "config=1"), ("/sys/cpu/events/b", "config=2"),
    ("/sys/uncore_cbox_0/type", "7"), ("/sys/uncore_cbox_0/cpumask", "0"), ("/sys/r1:u/type", "9"),
    ("/sys/r1:u/cpumask", "0")].foldl
      (fun files (path, text) => files.write path.toList (.text text.toList)) {}

/-- Events of these PMUs.  The encoding of one of them is no list of terms that its PMU knows. -/
def uncoreEvents : List CatalogEvent :=
  [{ name := "a".toList, encoded := "config=3".toList, pmu := "r1:u".toList },
    { name := "b".toList, encoded := "zz".toList, pmu := "cbox".toList },
    { name := "c".toList, encoded := "config=3".toList, pmu := "cbox".toList }]

def uncoreResolver : Resolver := ⟨⟨"/sys".toList, uncoreFiles⟩, uncoreEvents.foldl Catalog.insert {}⟩

/-- The session that has been parsed with them from an expression. -/
def uncoreSession (expression : String) : Session Nat :=
  (newSession.parse expression.toList uncoreResolver).2.1

/-- Whether the events of a session are counted once, and the types of their PMUs. -/
def flagsAndTypes (session : Session Nat) : List (Bool × BitVec 32) :=
  session.events.map fun event => (event.uncore, event.attr.pmuType)

theorem mem_uncoreDirectories {name : FileName} {id : BitVec 32}
    (h : uncoreResolver.sysfs.typeOf? name.text = some id) :
    name.text ∈ ["cpu", "uncore_cbox_0", "r1:u"].map String.toList := by
  have hpath : Sysfs.pathOf name.text Sysfs.typeFile ⟨"/sys".toList, uncoreFiles⟩ =
      "/sys".toList ++ '/' :: (name.text ++ '/' :: Sysfs.typeFile) := by
    rw [(plainRoot_sys uncoreFiles).pathOf_name name (by decide), FileTree.joinPath,
      if_neg (name.head?_ne_slash _)]
    rfl
  rw [Sysfs.typeOf?, Sysfs.read?, uncoreResolver, hpath] at h
  obtain ⟨t, ht, -⟩ := Option.bind_eq_some_iff.mp h
  obtain ⟨_, hread, -⟩ := FileTree.readTrimmed?_eq_some_iff.mp ht
  obtain ⟨-, place, hwalk, hfound, -⟩ :=
    FileTree.entryAt_eq_ok_iff.mp (FileTree.read_eq_ok_iff.mp hread)
  obtain rfl : place = [⟨"sys".toList, by decide⟩, name, Sysfs.typeName] := by
    rw [FileTree.eq_foldl_of_walk hwalk, PathStep.ofPath_append, PathStep.ofPath_append,
      PathStep.ofPath_name]
    rfl
  have hall : ∀ e ∈ uncoreFiles.entries, e.1.length = 3 →
      ∀ name ∈ e.1[1]?, name.text ∈ ["cpu", "uncore_cbox_0", "r1:u"].map String.toList := by
    decide +kernel
  exact hall _ (Association.mem_of_get? hfound) rfl name rfl

end Example

open Example in
theorem uncore_events_placed_counted :
    ∃ event : SessionEvent Nat, event.uncore = true ∧ event.attr.pmuType = 7 ∧
      uncoreResolver.sysfs.cpumask? (uncoreResolver.judgedDirectory event.name) =
        .ok (some [0]) := by
  have hparse : newSession.parse "c".toList uncoreResolver =
      (.ok (), uncoreSession "c", (newSession.parse "c".toList uncoreResolver).2.2) := rfl
  have hevents : flagsAndTypes (uncoreSession "c") = [(true, 7)] := by decide +kernel
  have hmem : (true, 7) ∈ flagsAndTypes (uncoreSession "c") := by
    rw [hevents]
    exact List.mem_singleton_self _
  obtain ⟨event, hevent, hpair⟩ := List.mem_map.mp hmem
  have huncore : event.uncore = true := congrArg Prod.fst hpair
  obtain ⟨-, -, hmask, -⟩ := uncore_events_placed hparse hevent huncore
  exact ⟨event, huncore, congrArg Prod.snd hpair, hmask⟩

open Example in
/-- A name that is judged by itself and is an event of the cores, an event of the catalog whose PMU is
spelled like a raw code, and one that the catalog does not resolve: all three are counted once, and no
PMU of the type in their attributes is one for processor 0 alone. -/
theorem uncore_events_misplaced :
    (newSession.parse "cbox;a;b".toList uncoreResolver).1 = .ok () ∧
      flagsAndTypes (uncoreSession "cbox;a;b") = [(true, 4), (true, 4), (true, 4)] ∧
      ∀ directory : FileName, uncoreResolver.sysfs.typeOf? directory.text = some 4 →
        uncoreResolver.sysfs.cpumask? directory.text ≠ .ok (some [0]) := by
  have hall : ∀ directory ∈ ["cpu", "uncore_cbox_0", "r1:u"].map String.toList,
      uncoreResolver.sysfs.typeOf? directory = some 4 →
        uncoreResolver.sysfs.cpumask? directory ≠ .ok (some [0]) := by
    decide +kernel
  exact ⟨rfl, by decide +kernel, fun _ h => hall _ (mem_uncoreDirectories h) h⟩

end HardwareCounters
