/-
# Resolving leaves no trace

The first name that is resolved may load the catalog, fail to load it, or load one without events,
and a later name finds the catalog as it was left.  This makes no difference to any answer: after a
load there is nothing more to load, except where it changed nothing.

* `Catalog.ensureLoaded_settled`: loading on demand settles the catalog or leaves it as it was, so
  that `Resolver.loaded_loaded` holds;
* `resolveAll_eq_map`: every name of a sequence gets the answer that it gets as the first one.
* `resolve_independent` also compares two sequences of names.
-/
import HardwareCounters.Resolver

namespace HardwareCounters

namespace Catalog

/-! ## 1. Loading on demand -/

/-- A load that succeeds replaces the events and nothing else. -/
theorem exists_events_of_loadSource_ok {catalog loaded : Catalog} {files : FileTree} {n : Nat}
    (h : catalog.loadSource files = (.ok n, loaded)) :
    ∃ events, loaded = { catalog with events } := by
  rw [loadSource] at h
  split at h
  · cases (Prod.mk.inj h).1
  · split at h
    · cases (Prod.mk.inj h).1
    · rw [loadFiles] at h
      split at h
      · cases (Prod.mk.inj h).1
      · exact ⟨_, (Prod.mk.inj h).2.symm⟩

/-- The catalog is loaded when it is asked for the next time. -/
def Unsettled (catalog : Catalog) : Prop :=
  catalog.events.isEmpty = true ∧ catalog.loadFailed = false

theorem ensureLoaded_of_not_unsettled {catalog : Catalog} (h : ¬ catalog.Unsettled)
    (files : FileTree) : catalog.ensureLoaded files = (.ok (), catalog) := if_neg h

/-- **Loading on demand settles a catalog.**  Afterwards it has events or has failed to load, or it
is as it was, because it was settled or its files hold no events. -/
theorem ensureLoaded_settled (catalog : Catalog) (files : FileTree) :
    (catalog.ensureLoaded files).2 = catalog ∨ ¬ (catalog.ensureLoaded files).2.Unsettled := by
  rw [ensureLoaded, load]
  split
  · rename_i hunsettled
    obtain ⟨hempty, hfailed⟩ := hunsettled
    rcases hload : catalog.loadSource files with ⟨e | n, loaded⟩
    · exact Or.inr fun h => nomatch h.2
    · obtain ⟨events, rfl⟩ := exists_events_of_loadSource_ok hload
      cases events with
      | nil =>
        -- A load without events is repeated each time, but changes nothing.
        left
        obtain ⟨source?, loadFailed, events⟩ := catalog
        rw [List.isEmpty_iff] at hempty
        subst hempty hfailed
        rfl
      | cons event events => exact Or.inr fun h => nomatch h.1
  · exact Or.inl rfl

/-- A catalog that has been loaded on demand is not changed by doing so again. -/
theorem ensureLoaded_ensureLoaded (catalog : Catalog) (files : FileTree) :
    ((catalog.ensureLoaded files).2.ensureLoaded files).2 = (catalog.ensureLoaded files).2 := by
  rcases catalog.ensureLoaded_settled files with hsame | hsettled
  · rw [hsame, hsame]
  · rw [ensureLoaded_of_not_unsettled hsettled]

end Catalog

namespace Resolver

/-! ## 2. Sequences of names -/

/-- Resolves names one after another. -/
def resolveAll (resolver : Resolver) : List Text → List (Except Error Attribute) × Resolver
  | [] => ([], resolver)
  | name :: names =>
    match resolver.resolve name with
    | (result, resolver) =>
      match resolver.resolveAll names with
      | (results, resolver) => (result :: results, resolver)

theorem loaded_loaded (resolver : Resolver) : resolver.loaded.loaded = resolver.loaded :=
  congrArg (fun catalog => { resolver with catalog }) <|
    resolver.catalog.ensureLoaded_ensureLoaded resolver.sysfs.files

/-- **One step.**  After any name has been resolved, every name gets the answer that it got
before. -/
theorem resolve_after (resolver : Resolver) (first name : Text) :
    ((resolver.resolve first).2.resolve name).1 = (resolver.resolve name).1 := by
  have hafter : (resolver.resolve first).2 = resolver.loaded := rfl
  rw [hafter, resolve, resolve, loaded_loaded]

/-- **A run.**  Every name of a sequence gets the answer that it gets as the first one. -/
theorem resolveAll_eq_map (resolver : Resolver) (names : List Text) :
    (resolver.resolveAll names).1 = names.map fun name => (resolver.resolve name).1 := by
  induction names generalizing resolver with
  | nil => rfl
  | cons first names ih =>
    have hrest := ih (resolver.resolve first).2
    rw [List.map_cons, resolveAll]
    refine congrArg ((resolver.resolve first).1 :: ·) (hrest.trans ?_)
    exact List.map_congr_left fun name _ => resolver.resolve_after first name

/-- **Resolving leaves no trace.**  With any catalog, each name of a sequence gets the answer that
it gets as the first one.  So a name that occurs in two sequences, or twice in one, gets the same
answer at both places, whatever comes before it. -/
theorem resolve_independent (resolver : Resolver) (names : List Text) :
    (resolver.resolveAll names).1 = names.map (fun name => (resolver.resolve name).1) ∧
    ∀ (others : List Text) (i j : Nat), names[i]? = others[j]? →
      (resolver.resolveAll names).1[i]? = (resolver.resolveAll others).1[j]? := by
  refine ⟨resolver.resolveAll_eq_map names, fun others i j hname => ?_⟩
  rw [resolveAll_eq_map, resolveAll_eq_map, List.getElem?_map, List.getElem?_map, hname]

end Resolver

end HardwareCounters
