/-
# The number of processors

Counters are opened on all processors up to the last one that is online, so there are one more of them
than the number of the last one.  That number is read as a word, and it may be the largest word, behind
which there is no other: the program then stops at the sum.  It stops before, at the list, if there is
no room for the processors that are named.  Every other list gives a number above all processors that it
names, and where no list names a processor the number is one that is known otherwise.

* `ListsOnline`: the file holds a list that names a processor, and `ListsOnline.exists_last`: its last;
* `cpuCount_positive_iff`: the number in each of these cases, and when there is one;
* `lastWord_online_uncounted`: a list that names a processor and gives no number.
-/
import HardwareCounters.Proofs.CpuList.Language

namespace HardwareCounters

namespace Sysfs

/-! ## 1. The last processor -/

/-- The file of the processors that are online holds the text, which is a list that names some. -/
structure ListsOnline (s : Sysfs) (t : Text) : Prop where
  read_eq : s.files.read s.onlinePath = .ok t
  wellFormed : CpuList.WellFormed t
  exists_names : ∃ cpu, CpuList.Names t cpu

section Last

variable {s : Sysfs} {t : Text} {cpus : List Nat} {last : Nat}

/-- The last element of an increasing list is its greatest one. -/
theorem isGreatest_of_getLast? (hsorted : cpus.Pairwise (· < ·)) (h : cpus.getLast? = some last) :
    IsGreatest {cpu | cpu ∈ cpus} last := by
  obtain ⟨front, rfl⟩ := List.getLast?_eq_some_iff.mp h
  have hlast : last ∈ [last] := List.mem_singleton_self last
  refine ⟨List.mem_append_right front hlast, fun cpu hcpu => ?_⟩
  rcases List.mem_append.mp hcpu with hfront | hcpu
  · exact ((List.pairwise_append.mp hsorted).2.2 cpu hfront last hlast).le
  · exact (List.mem_singleton.mp hcpu).le

/-- **The last processor that is online** is the greatest one that the list names. -/
theorem ListsOnline.exists_last (h : s.ListsOnline t) (hroom : ¬ CpuList.Crowded t) :
    ∃ cpus last, IsGreatest {cpu | CpuList.Names t cpu} last ∧
      s.listAt s.onlinePath = .ok (some cpus) ∧ cpus.getLast? = some last := by
  obtain ⟨cpus, hread⟩ := CpuList.exists_read_iff.mpr ⟨h.wellFormed, hroom⟩
  obtain ⟨cpu, hcpu⟩ := h.exists_names
  have hne : cpus ≠ [] := List.ne_nil_of_mem ((CpuList.mem_iff_names_of_read hread).mpr hcpu)
  have hlast := List.getLast?_eq_some_getLast hne
  have hsame : {cpu | cpu ∈ cpus} = {cpu | CpuList.Names t cpu} :=
    Set.ext fun cpu => CpuList.mem_iff_names_of_read hread
  refine ⟨cpus, cpus.getLast hne, ?_, (listAt_eq_some_iff hne).mpr ⟨t, h.read_eq, hread⟩, hlast⟩
  rw [← hsame]
  exact isGreatest_of_getLast? (CpuList.pairwise_of_read hread) hlast

theorem exists_listsOnline (hlist : s.listAt s.onlinePath = .ok (some cpus)) (hne : cpus ≠ []) :
    ∃ t, s.ListsOnline t := by
  obtain ⟨t, ht, hread⟩ := (listAt_eq_some_iff hne).mp hlist
  obtain ⟨hwell, -⟩ := CpuList.exists_read_iff.mp ⟨cpus, hread⟩
  obtain ⟨cpu, hcpu⟩ := List.exists_mem_of_ne_nil cpus hne
  exact ⟨t, ht, hwell, cpu, (CpuList.mem_iff_names_of_read hread).mp hcpu⟩

end Last

/-! ## 2. The sum -/

/-- The largest word, and so the largest number that a processor can have. -/
def lastWord : Nat := 2 ^ 64 - 1

section Count

variable {s : Sysfs} {t : Text} {fallback last : Nat} {cpus : List Nat}

theorem cpuCount_of_listAt (hlist : s.listAt s.onlinePath = .ok (some cpus))
    (hlast : cpus.getLast? = some last) (fallback : Nat) :
    s.cpuCount fallback =
      if last + 1 < Numeral.limit64 then .ok (last + 1) else .error .noCount := by
  rw [cpuCount, hlist]
  simp only [Option.bind_some, hlast]

/-- There is always a processor. -/
theorem one_le_of_cpuCount {n : Nat} (h : s.cpuCount fallback = .ok n) (hfallback : 1 ≤ fallback) :
    1 ≤ n := by
  rw [cpuCount] at h
  split at h
  · cases h
  · split at h
    · exact Except.ok.inj h ▸ hfallback
    · split at h
      · exact Except.ok.inj h ▸ Nat.le_add_left 1 _
      · cases h

/-- **Where there is no room** for the list, the program stops. -/
theorem cpuCount_of_crowded (ht : s.files.read s.onlinePath = .ok t) (hcrowded : CpuList.Crowded t)
    (fallback : Nat) : s.cpuCount fallback = .error .noRoom := by
  rw [cpuCount, listAt_eq_error_iff.mpr ⟨rfl, t, ht, hcrowded⟩]

/-- **Without a list** the number is the one that is known otherwise. -/
theorem cpuCount_of_not_listed (h : ∀ t, ¬ s.ListsOnline t)
    (hroom : ∀ t, s.files.read s.onlinePath = .ok t → ¬ CpuList.Crowded t) :
    s.cpuCount fallback = .ok fallback := by
  rw [cpuCount]
  cases hlist : s.listAt s.onlinePath with
  | error e =>
    obtain ⟨-, t, ht, hcrowded⟩ := listAt_eq_error_iff.mp hlist
    exact absurd hcrowded (hroom t ht)
  | ok cpus? =>
    cases cpus? with
    | none => rfl
    | some cpus =>
      have hnil : cpus = [] := by
        by_contra hne
        obtain ⟨t, ht⟩ := exists_listsOnline hlist hne
        exact h t ht
      rw [hnil]
      rfl

/-- **Below the largest word** the number is one more than that of the last processor. -/
theorem ListsOnline.cpuCount_of_not_names (h : s.ListsOnline t) (hroom : ¬ CpuList.Crowded t)
    (hword : ¬ CpuList.Names t lastWord) (fallback : Nat) :
    ∃ last, IsGreatest {cpu | CpuList.Names t cpu} last ∧ s.cpuCount fallback = .ok (last + 1) := by
  obtain ⟨cpus, last, hgreatest, hlist, hlast⟩ := h.exists_last hroom
  refine ⟨last, hgreatest, ?_⟩
  have hfits : last + 1 < Numeral.limit64 := by
    have hne : last ≠ lastWord := fun heq => hword (heq ▸ hgreatest.1)
    have hlt : last < 2 ^ 64 := hgreatest.1.lt
    simp only [lastWord] at hne
    simp only [Numeral.limit64]
    omega
  rw [cpuCount_of_listAt hlist hlast, if_pos hfits]

/-- **At the largest word** there is no sum. -/
theorem ListsOnline.cpuCount_of_names (h : s.ListsOnline t) (hroom : ¬ CpuList.Crowded t)
    (hword : CpuList.Names t lastWord) (fallback : Nat) :
    s.cpuCount fallback = .error .noCount := by
  obtain ⟨cpus, last, hgreatest, hlist, hlast⟩ := h.exists_last hroom
  have hover : ¬ last + 1 < Numeral.limit64 := by
    have hle : lastWord ≤ last := hgreatest.2 hword
    simp only [lastWord] at hle
    simp only [Numeral.limit64]
    omega
  rw [cpuCount_of_listAt hlist hlast, if_neg hover]

/-- **There is a number of processors, and a positive one,** unless the list of those that are online is
crowded or names the largest word.  Take any files, and any positive number that is known otherwise.
Where the file of this list is missing, is no list or names no processor, that number is the answer.  A
list that does not name the largest word gives one more than the greatest processor that it names.  One
that names it stops the program at the sum, and one that names more processors than a list can hold
stops it before. -/
theorem cpuCount_positive_iff (s : Sysfs) (hfallback : 1 ≤ fallback) :
    ((∀ t, ¬ s.ListsOnline t) →
      (∀ t, s.files.read s.onlinePath = .ok t → ¬ CpuList.Crowded t) →
      s.cpuCount fallback = .ok fallback) ∧
    (∀ t, s.ListsOnline t → ¬ CpuList.Crowded t → ¬ CpuList.Names t lastWord →
      ∃ last, IsGreatest {cpu | CpuList.Names t cpu} last ∧
        s.cpuCount fallback = .ok (last + 1)) ∧
    (∀ t, s.ListsOnline t → ¬ CpuList.Crowded t → CpuList.Names t lastWord →
      s.cpuCount fallback = .error .noCount) ∧
    (∀ t, s.files.read s.onlinePath = .ok t → CpuList.Crowded t →
      s.cpuCount fallback = .error .noRoom) ∧
    ((∃ count, s.cpuCount fallback = .ok count ∧ 1 ≤ count) ↔
      ∀ t, s.files.read s.onlinePath = .ok t →
        ¬ CpuList.Crowded t ∧ (CpuList.WellFormed t → ¬ CpuList.Names t lastWord)) := by
  refine ⟨cpuCount_of_not_listed,
    fun _ h hroom hword => h.cpuCount_of_not_names hroom hword fallback,
    fun _ h hroom hword => h.cpuCount_of_names hroom hword fallback,
    fun _ ht hcrowded => cpuCount_of_crowded ht hcrowded fallback, ?_⟩
  constructor
  · rintro ⟨count, hcount, -⟩ t ht
    have hroom : ¬ CpuList.Crowded t := fun hcrowded => by
      rw [cpuCount_of_crowded ht hcrowded] at hcount
      cases hcount
    refine ⟨hroom, fun hwell hword => ?_⟩
    have hlisted : s.ListsOnline t := ⟨ht, hwell, lastWord, hword⟩
    rw [hlisted.cpuCount_of_names hroom hword] at hcount
    cases hcount
  · intro hfile
    by_cases hlisted : ∃ t, s.ListsOnline t
    · obtain ⟨t, h⟩ := hlisted
      obtain ⟨hroom, hword⟩ := hfile t h.read_eq
      obtain ⟨last, -, hcount⟩ := h.cpuCount_of_not_names hroom (hword h.wellFormed) fallback
      exact ⟨last + 1, hcount, Nat.succ_pos last⟩
    · refine ⟨fallback, ?_, hfallback⟩
      exact cpuCount_of_not_listed (not_exists.mp hlisted) fun t ht => (hfile t ht).1

end Count

end Sysfs

namespace Example

/-- The files of a machine with a list of the processors that are online. -/
def onlineSysfs (list : String) : Sysfs :=
  ⟨"/sys".toList, ({} : FileTree).write "/sys/system/cpu/online".toList (.text list.toList)⟩

/-- The largest word in digits. -/
def lastWordList : String := "18446744073709551615"

theorem read_onlineSysfs (list : String) :
    (onlineSysfs list).files.read (onlineSysfs list).onlinePath = .ok list.toList :=
  rfl

theorem listsOnline_onlineSysfs {list : String} {cpus : List Nat}
    (hread : CpuList.read list.toList = .ok cpus) (hne : cpus ≠ []) :
    (onlineSysfs list).ListsOnline list.toList ∧ ¬ CpuList.Crowded list.toList := by
  obtain ⟨cpu, hcpu⟩ := List.exists_mem_of_ne_nil cpus hne
  obtain ⟨hwell, hroom⟩ := CpuList.exists_read_iff.mp ⟨cpus, hread⟩
  exact ⟨⟨read_onlineSysfs list, hwell, cpu, (CpuList.mem_iff_names_of_read hread).mp hcpu⟩, hroom⟩

theorem read_lastWordList : CpuList.read lastWordList.toList = .ok [Sysfs.lastWord] :=
  @CpuList.read_of_readParts _ _ [Sysfs.lastWord] rfl (by decide) (by decide) (by decide)

theorem names_lastWordList : CpuList.Names lastWordList.toList Sysfs.lastWord :=
  (CpuList.mem_iff_names_of_read read_lastWordList).mp (List.mem_singleton_self _)

theorem listsOnline_lastWordList :
    (onlineSysfs lastWordList).ListsOnline lastWordList.toList ∧
      ¬ CpuList.Crowded lastWordList.toList :=
  listsOnline_onlineSysfs read_lastWordList (List.cons_ne_nil _ _)

end Example

open Example in
theorem Sysfs.cpuCount_positive_iff_online :
    ((onlineSysfs "8,0-3\n").ListsOnline "8,0-3\n".toList ∧
      ∃ last, IsGreatest {cpu | CpuList.Names "8,0-3\n".toList cpu} last ∧
        (onlineSysfs "8,0-3\n").cpuCount 1 = .ok (last + 1)) ∧
    (onlineSysfs ", \n").cpuCount 1 = .ok 1 ∧
    ((onlineSysfs lastWordList).ListsOnline lastWordList.toList ∧
      (onlineSysfs lastWordList).cpuCount 1 = .error .noCount) := by
  have hranges : CpuList.read "8,0-3\n".toList = .ok [0, 1, 2, 3, 8] :=
    @CpuList.read_of_readParts _ _ [8, 0, 1, 2, 3] rfl (by decide) (by decide) (by decide)
  obtain ⟨hlisted, hroom⟩ := listsOnline_onlineSysfs hranges (List.cons_ne_nil _ _)
  have hbelow : ¬ CpuList.Names "8,0-3\n".toList lastWord := by
    rw [← CpuList.mem_iff_names_of_read hranges]
    decide
  have hblank : CpuList.read ", \n".toList = .ok [] :=
    @CpuList.read_of_readParts _ _ [] rfl .nil (List.nil_subset _) (List.nil_subset _)
  have hfile : ∀ t, (onlineSysfs ", \n").files.read (onlineSysfs ", \n").onlinePath = .ok t →
      ", \n".toList = t := fun t ht => Except.ok.inj ((read_onlineSysfs ", \n").symm.trans ht)
  have hone : 1 ≤ 1 := Nat.le_refl 1
  obtain ⟨-, hcounted, -, -, -⟩ := cpuCount_positive_iff (onlineSysfs "8,0-3\n") hone
  obtain ⟨hfallback, -, -, -, -⟩ := cpuCount_positive_iff (onlineSysfs ", \n") hone
  obtain ⟨-, -, hover, -, -⟩ := cpuCount_positive_iff (onlineSysfs lastWordList) hone
  refine ⟨⟨hlisted, hcounted _ hlisted hroom hbelow⟩, hfallback ?_ ?_, listsOnline_lastWordList.1,
    hover _ listsOnline_lastWordList.1 listsOnline_lastWordList.2 names_lastWordList⟩
  · rintro t ⟨ht, -, cpu, hcpu⟩
    obtain rfl := hfile t ht
    exact List.not_mem_nil ((CpuList.mem_iff_names_of_read hblank).mpr hcpu)
  · intro t ht
    obtain rfl := hfile t ht
    exact (CpuList.exists_read_iff.mp ⟨[], hblank⟩).2

open Example in
/-- A list of one processor, the largest word, gives no number of processors. -/
theorem Sysfs.lastWord_online_uncounted :
    (onlineSysfs lastWordList).ListsOnline lastWordList.toList ∧
      CpuList.Names lastWordList.toList lastWord ∧
      (onlineSysfs lastWordList).cpuCount 1 = .error .noCount := by
  obtain ⟨hlisted, hroom⟩ := listsOnline_lastWordList
  exact ⟨hlisted, names_lastWordList, hlisted.cpuCount_of_names hroom names_lastWordList 1⟩

end HardwareCounters
