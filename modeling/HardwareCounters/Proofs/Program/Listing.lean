/-
# What the listing shows

The listing prints three kinds of lines: for events of the catalog, for aliases of PMUs, and for generic
events.  A pattern restricts the first kind only.  The aliases are found by a search of the file system,
which is given, so of them it is said only that every line is that of an alias; of the others none is
missing.

* `Listing.Wanted`: what the first argument asks for;
* `Listing.Shows`: what a line stands for;
* `Listing.run_shows`: a run fails before it prints anything, or prints these lines.
-/
import HardwareCounters.Program.Listing
import HardwareCounters.Proofs.Catalog.Listings
import HardwareCounters.Proofs.Pattern.Scanning
import HardwareCounters.Proofs.Sysfs.Found

namespace HardwareCounters

/-! ## 1. Names that are searched for -/

/-- **A search by name** finds the events of the catalog in whose names the pattern occurs. -/
theorem Catalog.mem_findByName_iff {catalog : Catalog} {t : Text} {events : List CatalogEvent}
    (h : catalog.findByName t = .ok events) (event : CatalogEvent) :
    event ∈ events ↔
      event ∈ catalog.stored ∧
        ∃ pattern, Pattern.parse? t = some pattern ∧ pattern.OccursIn event.name := by
  rw [findByName] at h
  split at h
  · cases h
  · rename_i pattern hpattern
    obtain rfl := Except.ok.inj h
    rw [filterEvents, EventTable.filterEvents, List.mem_mergeSort, List.mem_filter]
    simp [hpattern, Pattern.finds_iff, stored, EventTable.stored]

theorem Catalog.Made.mem_walk_iff {catalog : Catalog} (h : catalog.Made) (entry : Text × Text) :
    entry ∈ catalog.walk ↔ ∃ event ∈ catalog.stored, (event.key, event.descriptor) = entry := by
  have hperm := (EventTable.listed_walk h.entriesKeyed h.nodup_keys).perm
  rw [walk, hperm.mem_iff, List.mem_map]
  rfl

theorem GenericEvent.mem_names_iff (name : Text) :
    name ∈ names ↔ ∃ attr, find? name = some attr := by
  rw [names, List.mem_mergeSort, find?, ← Option.isSome_iff_exists, List.lookup_isSome_iff]
  simp only [List.mem_map, beq_iff_eq, @eq_comm _ name]

namespace Listing

variable {s : Sysfs} {catalog : Catalog} {argument? : Option Text}

/-- The event is one of those that the first argument asks for: a pattern that occurs in its name, or
nothing. -/
def Wanted (argument? : Option Text) (event : CatalogEvent) : Prop :=
  ∀ argument, argument? = some argument →
    ∃ pattern, Pattern.parse? argument = some pattern ∧ pattern.OccursIn event.name

/-- The line for an event of the catalog.  Without a pattern it has the key of the event. -/
def catalogLine (argument? : Option Text) (event : CatalogEvent) : Text :=
  arrowLine (if argument? = none then event.key else event.name) event.descriptor

/-- What a line stands for. -/
inductive Shows (s : Sysfs) (catalog : Catalog) (argument? : Option Text) : Text → Prop
  | ofCatalog {event : CatalogEvent} (h : event ∈ catalog.stored) (hwanted : Wanted argument? event) :
      Shows s catalog argument? (catalogLine argument? event)
  | ofAlias {directory name : FileName} {terms : Text}
      (h : s.alias? directory.text name.text = some terms) :
      Shows s catalog argument?
        (arrowLine (pmuEvent directory.text name.text) (pmuEvent directory.text terms))
  | ofGeneric {name : Text} {attr : Attribute} (h : GenericEvent.find? name = some attr) :
      Shows s catalog argument? (name ++ " [generic]".toList)

/-- The report shows what is there: each line stands for something, none is missing for an event of the
catalog that is asked for, and if the run ends well none is missing for a generic event. -/
structure Shown (s : Sysfs) (catalog : Catalog) (argument? : Option Text) (report : Report) : Prop where
  shows_of_mem : ∀ line ∈ report.printed, Shows s catalog argument? line
  catalogLine_mem : ∀ event ∈ catalog.stored, Wanted argument? event →
    catalogLine argument? event ∈ report.printed
  generic_mem : report.result = .ok () → ∀ name attr, GenericEvent.find? name = some attr →
    name ++ " [generic]".toList ∈ report.printed

/-- The lines for the events of a catalog are those of the events that are asked for. -/
theorem mem_catalogLines_iff (h : catalog.Made) {lines : List Text}
    (hlines : catalogLines catalog argument? = .ok lines) (line : Text) :
    line ∈ lines ↔
      ∃ event ∈ catalog.stored, Wanted argument? event ∧ catalogLine argument? event = line := by
  cases argument? with
  | none =>
    obtain rfl := Except.ok.inj hlines
    simp only [List.mem_map, h.mem_walk_iff, catalogLine, Wanted]
    constructor
    · rintro ⟨_, ⟨event, hevent, rfl⟩, rfl⟩
      exact ⟨event, hevent, (fun _ hargument => nomatch hargument), rfl⟩
    · rintro ⟨event, hevent, -, rfl⟩
      exact ⟨_, ⟨event, hevent, rfl⟩, rfl⟩
  | some argument =>
    rw [catalogLines] at hlines
    cases hfound : catalog.findByName argument with
    | error e =>
      rw [hfound] at hlines
      cases hlines
    | ok events =>
      rw [hfound] at hlines
      obtain rfl := Except.ok.inj hlines
      simp only [List.mem_map, Catalog.mem_findByName_iff hfound, catalogLine, Wanted,
        Option.some.injEq, forall_eq', and_assoc]
      rfl

theorem shows_of_mem_kernelLines {glob : Glob} (hglob : glob.Sound) (hroot : s.PlainRoot)
    {events : List KernelEvent} (hevents : s.kernelEvents glob = .ok events) {line : Text}
    (hline : line ∈ kernelLines events) : Shows s catalog argument? line := by
  obtain ⟨event, hevent, rfl⟩ := List.mem_map.mp hline
  obtain ⟨directory, name, terms, hpmu, halias, hname, hterms⟩ :=
    hroot.exists_alias?_of_mem_kernelEvents hglob hevents hevent
  rw [hpmu] at halias
  rw [hname, hterms, hpmu]
  exact .ofAlias halias

theorem mem_genericLines_iff (line : Text) :
    line ∈ genericLines ↔
      ∃ name attr, GenericEvent.find? name = some attr ∧ name ++ " [generic]".toList = line := by
  simp only [genericLines, List.mem_map, GenericEvent.mem_names_iff, exists_and_right]

/-- **What a run shows.**  A run fails before it prints anything, or it has loaded the catalog of the
machine and shows what is there, even if the search for aliases fails afterwards. -/
theorem run_shows {glob : Glob} (hglob : glob.Sound) (hroot : s.PlainRoot) (arguments : List Text)
    (searchPath? : Option Text) :
    (∃ e, run glob s arguments searchPath? = .failed e) ∨
    ∃ source n catalog, CatalogSource.ofSearchPath s.files searchPath? = .ok source ∧
      (Catalog.ofSource source).load s.files = (.ok n, catalog) ∧
      Shown s catalog arguments.head? (run glob s arguments searchPath?) := by
  rw [run]
  split
  · exact Or.inl ⟨_, rfl⟩
  · rename_i source hsource
    split
    · exact Or.inl ⟨_, rfl⟩
    · rename_i n catalog hload
      split
      · exact Or.inl ⟨_, rfl⟩
      · rename_i lines hlines
        refine Or.inr ⟨source, n, catalog, hsource, hload, ?_⟩
        have hmade : ((Catalog.ofSource source).load s.files).2.Made :=
          (Catalog.Made.ofSource source).load s.files
        rw [hload] at hmade
        have hcatalog := mem_catalogLines_iff hmade hlines
        have hshows : ∀ line ∈ lines, Shows s catalog arguments.head? line := by
          intro line hline
          obtain ⟨event, hevent, hwanted, rfl⟩ := (hcatalog line).mp hline
          exact .ofCatalog hevent hwanted
        have hall : ∀ event ∈ catalog.stored, Wanted arguments.head? event →
            catalogLine arguments.head? event ∈ lines :=
          fun event hevent hwanted => (hcatalog _).mpr ⟨event, hevent, hwanted, rfl⟩
        split
        · exact ⟨hshows, hall, fun hok => by cases hok⟩
        · rename_i events hevents
          refine ⟨fun line hline => ?_, fun event hevent hwanted => ?_, fun _ name attr hname => ?_⟩
          · simp only [List.mem_append] at hline
            rcases hline with (hline | hline) | hline
            · exact hshows line hline
            · exact shows_of_mem_kernelLines hglob hroot hevents hline
            · obtain ⟨name, attr, hname, rfl⟩ := (mem_genericLines_iff line).mp hline
              exact .ofGeneric hname
          · exact List.mem_append_left _ (List.mem_append_left _ (hall event hevent hwanted))
          · exact List.mem_append_right _ ((mem_genericLines_iff _).mpr ⟨name, attr, hname, rfl⟩)

end Listing

end HardwareCounters
