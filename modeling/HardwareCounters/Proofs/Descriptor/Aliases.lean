/-
# Aliases and the terms that they stand for

The kernel publishes an event under an alias and says which terms it stands for.  An event is listed
in both forms, `<pmu>/<alias>/` and `<pmu>/<terms>/`.  The first is resolved by looking up the alias
and applying its terms without further aliases, the second by applying the terms with aliases.  Where
the first succeeds, no alias was missing, and the two do the same.

* `Sysfs.Unmistakable`: an alias that is read as an alias and can be spelled out;
* `Term.apply_alias`: an alias does what its terms do;
* `resolve_event_of_resolve_name`: both forms of a listed event stand for one attribute.
-/
import HardwareCounters.Proofs.Descriptor.Spelling
import HardwareCounters.Proofs.Sysfs.Found
import HardwareCounters.Proofs.Term.Failing
import HardwareCounters.Proofs.Term.Listing

namespace HardwareCounters

/-- The spelling of an event determines its terms. -/
theorem pmuEvent_inj {pmu terms others : Text} (h : pmuEvent pmu terms = pmuEvent pmu others) :
    terms = others := by
  rw [pmuEvent, pmuEvent, List.append_left_inj, List.append_right_inj] at h
  exact (List.cons.inj h).2

/-- The PMU can be found by its name, the name of an alias is read as that of an alias, and the terms
that it stands for may stand in a descriptor. -/
structure Sysfs.Unmistakable (s : Sysfs) (pmu name terms : Text) : Prop where
  typed : (s.typeOf? pmu).isSome
  colon_not_mem_pmu : ':' ∉ pmu
  not_reserved : name ∉ Term.reservedKeys
  no_format : s.format? pmu name = none
  separator_not_mem_name : ∀ c ∈ [',', '=', ':'], c ∉ name
  trim_name : Text.trim name = name
  separator_not_mem_terms : ∀ c ∈ ['/', ':'], c ∉ terms

variable {s : Sysfs} {pmu name terms : Text} {attr : Attribute}

namespace Term

/-- The name of an alias is read as a term without a value. -/
theorem parseList?_name (h : s.Unmistakable pmu name terms) (hne : name ≠ []) :
    parseList? name = some [⟨name, none⟩] := by
  have hspelled : ∀ term ∈ [(⟨name, none⟩ : Term)], term.Spelled := by
    intro term hterm
    rw [List.mem_singleton.mp hterm]
    constructor
    · exact hne
    · exact h.trim_name
    · exact h.separator_not_mem_name '=' (by decide)
    · exact h.separator_not_mem_name ',' (by decide)
    · rintro _ ⟨⟩
  exact parseList?_listing hspelled

theorem apply_alias (h : s.Unmistakable pmu name terms) (hne : name ≠ [])
    (halias : s.alias? pmu name = some terms) (attr : Attribute) :
    apply s pmu name attr = applyExpansion s pmu terms attr := by
  have hlooked : LookedUp ⟨name, none⟩ 1 := ⟨h.not_reserved, rfl⟩
  rw [apply, applyText, parseList?_name h hne]
  exact (applyEach_singleton _ _ _).trans (hlooked.applyOne_alias h.no_format halias attr)

end Term

/-- **Both forms of a listed event.**  If the form with the alias stands for an attribute, the form
with the terms that the alias stands for does so too.  The aliases are found by any search that finds
paths as its pattern says, from a root that is no pattern itself. -/
theorem resolve_event_of_resolve_name {glob : Glob} (hglob : glob.Sound) (hroot : s.PlainRoot)
    {events : List KernelEvent} (hevents : s.kernelEvents glob = .ok events) {event : KernelEvent}
    (hevent : event ∈ events) (hname : event.name = pmuEvent event.pmu name)
    (hterms : event.event = pmuEvent event.pmu terms) (h : s.Unmistakable event.pmu name terms)
    (hattr : Descriptor.resolve s event.name = .ok attr) :
    Descriptor.resolve s event.event = .ok attr := by
  obtain ⟨directory, file, expansion, hpmu, halias, hfile, hexpansion⟩ :=
    hroot.exists_alias?_of_mem_kernelEvents hglob hevents hevent
  obtain rfl : name = file.text := pmuEvent_inj (hname.symm.trans hfile)
  obtain rfl : terms = expansion := pmuEvent_inj (hterms.symm.trans hexpansion)
  obtain ⟨id, htype⟩ := Option.isSome_iff_exists.mp h.typed
  have hne : event.pmu ≠ [] := hpmu ▸ directory.proper.1
  have hplain : Descriptor.Plain event.pmu := by
    rw [Descriptor.plain_iff]
    exact ⟨hpmu ▸ directory.proper.2.2.2, h.colon_not_mem_pmu⟩
  have hplainName : Descriptor.Plain file.text := by
    rw [Descriptor.plain_iff]
    exact ⟨file.proper.2.2.2, h.separator_not_mem_name ':' (by decide)⟩
  have hplainTerms : Descriptor.Plain terms := by
    rw [Descriptor.plain_iff]
    exact ⟨h.separator_not_mem_terms '/' (by decide), h.separator_not_mem_terms ':' (by decide)⟩
  have hfound := Sysfs.pmuType?_of_typeOf? htype
  rw [hname, Descriptor.resolve_pmuEvent_eq_ok_iff hne hplain hplainName hfound,
    Term.apply_alias h file.proper.1 halias] at hattr
  rw [hterms, Descriptor.resolve_pmuEvent_eq_ok_iff hne hplain hplainTerms hfound]
  exact Term.applyText_keptBy (Term.applyOne_keptBy s event.pmu _) hattr

namespace Example

/-- A PMU with two fields and an alias. -/
def missFiles : FileTree :=
  (((({} : FileTree).write "/sys/cpu/type".toList (.text "4".toList)).write
    "/sys/cpu/format/event".toList (.text "config:0-7".toList)).write
    "/sys/cpu/format/umask".toList (.text "config:8-15".toList)).write
    "/sys/cpu/events/llc-miss".toList (.text "event=0x2e,umask=0x41\n".toList)

def missSysfs : Sysfs := ⟨"/sys".toList, missFiles⟩

/-- The two forms of the event of that alias. -/
def missEvent : KernelEvent :=
  ⟨"cpu/llc-miss/".toList, "cpu/event=0x2e,umask=0x41/".toList, "cpu".toList⟩

end Example

open Example in
theorem resolve_event_of_resolve_name_llcMiss :
    missSysfs.kernelEvents FileTree.search = .ok [missEvent] ∧
      Descriptor.resolve missSysfs "cpu/event=0x2e,umask=0x41/".toList =
        .ok { pmuType := 4, config := 0x412e } := by
  have hevents : missSysfs.kernelEvents FileTree.search = .ok [missEvent] := by decide +kernel
  have hclear : missSysfs.Unmistakable "cpu".toList "llc-miss".toList
      "event=0x2e,umask=0x41".toList := by
    constructor
    · decide +kernel
    · simp
    · decide
    · decide +kernel
    · simp
    · rfl
    · simp
  exact ⟨hevents, resolve_event_of_resolve_name FileTree.search_sound (plainRoot_sys missFiles) hevents
    (List.mem_singleton_self missEvent) rfl rfl hclear rfl⟩

end HardwareCounters
