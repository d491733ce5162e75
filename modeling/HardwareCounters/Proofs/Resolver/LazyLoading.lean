/-
# Loading on demand

A catalog that is empty is loaded when it is asked for, and a failure of that is remembered, so that
it is reported once and not again at every name.  What is remembered is one flag.  It is written by
the loads of the source alone, neither by insertions nor by loads of given files, and read only while
the catalog is empty, and between any two calls the files may have changed.

* `CatalogCall` are the calls that change a catalog, each with the files that it finds;
* `FailurePending`: a load of the source has failed, and none was asked for since;
* `loadFailed_after` and `loadFailed_afterAll`: the flag after one call and after a run says whether
  a failure is pending;
* `loading_on_demand`: what loading on demand does after any run.
-/
import HardwareCounters.Proofs.Resolver.Repetition

namespace HardwareCounters

/-! ## 1. Calls -/

/-- A call that may change a catalog.  Each finds the files as they are at its time. -/
inductive CatalogCall where
  | insert (event : CatalogEvent)
  | loadFiles (files : FileTree) (paths : List Text)
  | load (files : FileTree)
  | ensureLoaded (files : FileTree)
  /-- A name is resolved, which loads the catalog on demand. -/
  | resolve (s : Sysfs) (name : Text)

namespace Catalog

/-- The catalog after a call, whether that succeeds or fails. -/
def after (catalog : Catalog) : CatalogCall → Catalog
  | .insert event => catalog.insert event
  | .loadFiles files paths => (catalog.loadFiles files paths).2
  | .load files => (catalog.load files).2
  | .ensureLoaded files => (catalog.ensureLoaded files).2
  | .resolve s name => ((⟨s, catalog⟩ : Resolver).resolve name).2.catalog

/-- The catalog after calls. -/
def afterAll (catalog : Catalog) (calls : List CatalogCall) : Catalog := calls.foldl after catalog

/-- The call loads the catalog from its source, and that fails. -/
def FailsToLoad (catalog : Catalog) : CatalogCall → Prop
  | .insert _ | .loadFiles _ _ => False
  | .load files => ∃ e, (catalog.load files).1 = .error e
  | .ensureLoaded files | .resolve ⟨_, files⟩ _ => ∃ e, (catalog.ensureLoaded files).1 = .error e

/-- During the calls a load from the source has failed, on demand or not, and after it none was asked
for. -/
inductive FailurePending : Catalog → List CatalogCall → Prop
  | failed {catalog : Catalog} {call : CatalogCall} {calls : List CatalogCall}
      (h : catalog.FailsToLoad call) (hnone : ∀ files, .load files ∉ calls) :
      FailurePending catalog (call :: calls)
  | later {catalog : Catalog} {call : CatalogCall} {calls : List CatalogCall}
      (h : FailurePending (catalog.after call) calls) : FailurePending catalog (call :: calls)

variable {catalog : Catalog}

/-! ## 2. What is remembered -/

theorem loadFailed_loadFiles (catalog : Catalog) (files : FileTree) (paths : List Text) :
    (catalog.loadFiles files paths).2.loadFailed = catalog.loadFailed := by
  rw [loadFiles]
  split <;> rfl

theorem loadFailed_load (catalog : Catalog) (files : FileTree) :
    (catalog.load files).2.loadFailed = true ↔ ∃ e, (catalog.load files).1 = .error e := by
  rw [load]
  split
  · simp
  · simp

/-- An unsettled catalog is loaded. -/
theorem ensureLoaded_of_unsettled (h : catalog.Unsettled) (files : FileTree) :
    catalog.ensureLoaded files =
      ((catalog.load files).1.map fun _ => (), (catalog.load files).2) := by
  obtain ⟨hempty, hfailed⟩ := h
  rw [ensureLoaded, if_pos ⟨hempty, hfailed⟩]
  split
  · rename_i heq
    rw [heq]
    rfl
  · rename_i heq
    rw [heq]
    rfl

theorem loadFailed_ensureLoaded (catalog : Catalog) (files : FileTree) :
    (catalog.ensureLoaded files).2.loadFailed = true ↔
      (∃ e, (catalog.ensureLoaded files).1 = .error e) ∨ catalog.loadFailed = true := by
  by_cases h : catalog.Unsettled
  · rw [ensureLoaded_of_unsettled h, loadFailed_load]
    have hfailed : catalog.loadFailed = false := h.2
    cases (catalog.load files).1 <;> simp [Except.map, hfailed]
  · rw [ensureLoaded_of_not_unsettled h]
    simp

/-- **One call.**  Afterwards a failure is remembered that this call met, or one from before, unless
the call is a load. -/
theorem loadFailed_after (catalog : Catalog) (call : CatalogCall) :
    (catalog.after call).loadFailed = true ↔
      catalog.FailsToLoad call ∨ catalog.loadFailed = true ∧ ∀ files, call ≠ .load files := by
  cases call with
  | insert event => simp [after, FailsToLoad, insert]
  | loadFiles files paths => simp [after, FailsToLoad, loadFailed_loadFiles]
  | load files => simp [after, FailsToLoad, loadFailed_load]
  | ensureLoaded files => simp [after, FailsToLoad, loadFailed_ensureLoaded]
  | resolve s name =>
    have hcatalog : catalog.after (.resolve s name) = (catalog.ensureLoaded s.files).2 := rfl
    rw [hcatalog, loadFailed_ensureLoaded]
    simp [FailsToLoad]

theorem not_failurePending_nil (catalog : Catalog) : ¬ FailurePending catalog [] := nofun

theorem failurePending_cons_iff {call : CatalogCall} {calls : List CatalogCall} :
    FailurePending catalog (call :: calls) ↔
      (catalog.FailsToLoad call ∧ ∀ files, .load files ∉ calls) ∨
        FailurePending (catalog.after call) calls := by
  constructor
  · intro h
    cases h with
    | failed h hnone => exact Or.inl ⟨h, hnone⟩
    | later h => exact Or.inr h
  · rintro (⟨h, hnone⟩ | h)
    · exact .failed h hnone
    · exact .later h

/-- **A run.**  Afterwards a failure is remembered just if one is pending, or one was remembered from
before and no load was asked for. -/
theorem loadFailed_afterAll (catalog : Catalog) (calls : List CatalogCall) :
    (catalog.afterAll calls).loadFailed = true ↔
      FailurePending catalog calls ∨
        catalog.loadFailed = true ∧ ∀ files, .load files ∉ calls := by
  induction calls generalizing catalog with
  | nil => simp [afterAll, not_failurePending_nil]
  | cons call calls ih =>
    have hnone : (∀ files, .load files ∉ call :: calls) ↔
        (∀ files, call ≠ .load files) ∧ ∀ files, .load files ∉ calls := by
      simp only [List.mem_cons, not_or, forall_and, ne_comm]
    have hstep : catalog.afterAll (call :: calls) = (catalog.after call).afterAll calls := rfl
    rw [hstep, ih, loadFailed_after, failurePending_cons_iff, hnone, or_and_right, and_assoc,
      or_left_comm, or_assoc]

/-! ## 3. What is loaded -/

/-- Nothing is loaded on demand, whatever the files are: asking for that succeeds and changes
nothing, and names are resolved with the catalog as it is. -/
structure LoadsNoMore (catalog : Catalog) : Prop where
  ensureLoaded_eq : ∀ files, catalog.ensureLoaded files = (.ok (), catalog)
  resolve_eq : ∀ s name, (⟨s, catalog⟩ : Resolver).resolve name =
    (Resolver.lookUp s catalog (Text.trim name), ⟨s, catalog⟩)

theorem loadsNoMore_of_not_unsettled (h : ¬ catalog.Unsettled) : catalog.LoadsNoMore where
  ensureLoaded_eq := ensureLoaded_of_not_unsettled h
  resolve_eq s name := by
    rw [Resolver.resolve, Resolver.loaded, ensureLoaded_of_not_unsettled h]

/-- **Loading on demand.**  Take any catalog and any calls, with the files changed at will between
them.  While a failure is pending, nothing more is loaded on demand, and the same holds of every
catalog that has events, wherever they came from.  A catalog without events that remembered no
failure at first, and for which none is pending, is loaded on demand just as it would be by a load:
with the same success or failure, and with the same catalog as a result. -/
theorem loading_on_demand (first : Catalog) (calls : List CatalogCall) :
    (FailurePending first calls → (first.afterAll calls).LoadsNoMore) ∧
    ((first.afterAll calls).events ≠ [] → (first.afterAll calls).LoadsNoMore) ∧
    (first.loadFailed = false → ¬ FailurePending first calls →
      (first.afterAll calls).events = [] → ∀ files,
        (first.afterAll calls).ensureLoaded files =
          (((first.afterAll calls).load files).1.map fun _ => (),
            ((first.afterAll calls).load files).2)) := by
  have hflag := loadFailed_afterAll first calls
  refine ⟨fun hpending => ?_, fun hne => ?_, fun hfirst hpending hempty => ?_⟩
  · have hfailed := hflag.mpr (Or.inl hpending)
    refine loadsNoMore_of_not_unsettled fun hunsettled => ?_
    rw [hunsettled.2] at hfailed
    cases hfailed
  · exact loadsNoMore_of_not_unsettled fun hunsettled => hne (List.isEmpty_iff.mp hunsettled.1)
  · have hfailed : (first.afterAll calls).loadFailed = false := by
      rw [Bool.eq_false_iff, ne_eq, hflag, hfirst]
      simp [hpending]
    exact ensureLoaded_of_unsettled ⟨List.isEmpty_iff.mpr hempty, hfailed⟩

end Catalog

namespace Example

/-- A catalog whose files are looked for in one directory. -/
def missedCatalog : Catalog := .ofSource ⟨["/events".toList], ⟨"V".toList, 6, 1, 0⟩⟩

/-- The files of that catalog, with one event. -/
def writtenFiles : FileTree :=
  (({} : FileTree).write "/events/V-6-1-core.json".toList
    (.text "[\x7b\"EventName\":\"a.b\"\x7d]".toList)).write
    "/events/V-6-1-uncore.json".toList (.text "[]".toList)

/-- The catalog is asked for before there are files, and again when they have been written. -/
def missedCalls : List CatalogCall :=
  [.ensureLoaded {}, .loadFiles {} ["/a.json".toList], .resolve ⟨"/sys".toList, writtenFiles⟩ ['a']]

end Example

set_option maxRecDepth 8000 in
open Example in
theorem Catalog.loading_on_demand_missed :
    missedCatalog.FailurePending missedCalls ∧
    (missedCatalog.afterAll missedCalls).ensureLoaded writtenFiles =
      (.ok (), missedCatalog.afterAll missedCalls) ∧
    (missedCatalog.afterAll missedCalls).size = 0 ∧
    missedCatalog.ensureLoaded writtenFiles =
      ((missedCatalog.load writtenFiles).1.map fun _ => (), (missedCatalog.load writtenFiles).2) ∧
    (missedCatalog.load writtenFiles).2.size = 1 := by
  have hpending : missedCatalog.FailurePending missedCalls :=
    .failed ⟨_, rfl⟩ (by simp)
  obtain ⟨hsettled, -, -⟩ := loading_on_demand missedCatalog missedCalls
  obtain ⟨-, -, hloads⟩ := loading_on_demand missedCatalog []
  exact ⟨hpending, (hsettled hpending).ensureLoaded_eq writtenFiles, rfl,
    hloads rfl (not_failurePending_nil _) rfl writtenFiles, rfl⟩

end HardwareCounters
