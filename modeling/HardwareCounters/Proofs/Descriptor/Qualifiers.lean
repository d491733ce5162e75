/-
# Qualifiers

The letters behind the colon of a descriptor are applied one after another, but all that counts is how
often each of them occurs: the level of precision counts up to 3, a flag that is set stays set, and
other letters do nothing.  Whatever the letters are, also slashes and further colons, they do not change
how the text in front of the colon is read.

* `Attribute.applyQualifiers_eq`: what letters do to any attribute, and `applyQualifiers?_eq` where a
  checked sum of bytes would fail;
* `Attribute.Unqualified.applyQualifiers_eq`: what they do to one without qualifiers;
* `Descriptor.resolve_append_colon`: a descriptor with qualifiers is resolved as without, and then the
  qualifiers are applied;
* `Descriptor.resolve_qualified`: what qualifiers add to the attribute of a descriptor.
-/
import HardwareCounters.Proofs.Descriptor.Language
import HardwareCounters.Proofs.Descriptor.Placement
import Mathlib.Logic.Function.Iterate

namespace HardwareCounters

namespace Attribute

variable {attr other : Attribute} {letters more : Text}

/-! ## 1. The letters of a text -/

/-- The letters with a meaning. -/
def qualifierLetters : Text := "pkuh".toList

/-- **The letters of a text** act by how often they occur. -/
theorem applyQualifiers_eq (attr : Attribute) (letters : Text) :
    attr.applyQualifiers letters = { attr with
      precise := raisePrecise^[letters.count 'p'] attr.precise
      excludeUser := attr.excludeUser || decide ('k' ∈ letters)
      excludeKernel := attr.excludeKernel || decide ('u' ∈ letters)
      excludeGuest := attr.excludeGuest || decide ('h' ∈ letters) } := by
  induction letters generalizing attr with
  | nil => simp [applyQualifiers]
  | cons letter letters ih =>
    have hstep : attr.applyQualifiers (letter :: letters) =
        (attr.applyQualifier letter).applyQualifiers letters := rfl
    rw [hstep, ih, applyQualifier]
    -- Every letter with a meaning acts on a part of the attribute of its own.
    by_cases hp : letter = 'p'
    · simp [hp, Function.iterate_succ_apply]
    by_cases hk : letter = 'k'
    · simp [hk]
    by_cases hu : letter = 'u'
    · simp [hu]
    by_cases hh : letter = 'h'
    · simp [hh]
    simp [hp, hk, hu, hh, Ne.symm hk, Ne.symm hu, Ne.symm hh]

/-- The order of the letters does not matter. -/
theorem applyQualifiers_perm (h : letters.Perm more) (attr : Attribute) :
    attr.applyQualifiers letters = attr.applyQualifiers more := by
  simp only [applyQualifiers_eq, h.count_eq, h.mem_iff]

/-- Letters without a meaning do nothing. -/
theorem applyQualifiers_filter (attr : Attribute) (letters : Text) :
    attr.applyQualifiers (letters.filter (· ∈ qualifierLetters)) =
      attr.applyQualifiers letters := by
  have hcount : (letters.filter (· ∈ qualifierLetters)).count 'p' = letters.count 'p' :=
    List.count_filter (by decide)
  have hmem : ∀ c ∈ qualifierLetters, c ∈ letters.filter (· ∈ qualifierLetters) ↔ c ∈ letters := by
    intro c hc
    simp [hc]
  simp only [applyQualifiers_eq, hcount, hmem 'k' (by decide), hmem 'u' (by decide),
    hmem 'h' (by decide)]

/-! ## 2. The level of precision -/

theorem raisePrecise_ne_last (level : BitVec 8) : raisePrecise level ≠ 255 := by
  rw [raisePrecise]
  split
  · rename_i hle
    intro hlast
    rw [hlast] at hle
    exact absurd hle (by decide)
  · decide

theorem precise_applyQualifier (attr : Attribute) {letter : Char} (h : letter ≠ 'p') :
    (attr.applyQualifier letter).precise = attr.precise := by
  rw [applyQualifier, if_neg h]
  split
  · rfl
  · split
    · rfl
    · split
      · rfl
      · rfl

/-- **The checked sum** fails for the last level alone: whatever level a letter has found, the next one
is found again. -/
theorem applyQualifiers?_eq (attr : Attribute) (letters : Text) :
    attr.applyQualifiers? letters =
      if 'p' ∈ letters ∧ attr.precise = 255 then none else some (attr.applyQualifiers letters) := by
  induction letters generalizing attr with
  | nil => simp [applyQualifiers?, applyQualifiers]
  | cons letter letters ih =>
    have hstep : attr.applyQualifiers (letter :: letters) =
        (attr.applyQualifier letter).applyQualifiers letters := rfl
    rw [applyQualifiers?, ih, hstep]
    by_cases hp : letter = 'p'
    · subst hp
      have hnext : (attr.applyQualifier 'p').precise ≠ 255 := raisePrecise_ne_last attr.precise
      have hmore : ¬ ('p' ∈ letters ∧ (attr.applyQualifier 'p').precise = 255) :=
        fun h => hnext h.2
      simp only [hmore, if_false, true_and, List.mem_cons, true_or]
    · simp [hp, Ne.symm hp, precise_applyQualifier attr hp]

theorem raisePrecise_ofNat (n : Nat) :
    raisePrecise (BitVec.ofNat 8 (min 3 n)) = BitVec.ofNat 8 (min 3 (n + 1)) := by
  rcases Nat.lt_or_ge n 3 with hlt | hge
  · have hall : ∀ n < 3, raisePrecise (BitVec.ofNat 8 (min 3 n)) =
        BitVec.ofNat 8 (min 3 (n + 1)) := by
      decide
    exact hall n hlt
  · rw [Nat.min_eq_left hge, Nat.min_eq_left (Nat.le_succ_of_le hge)]
    rfl

/-- From the lowest level, the level of precision is counted up to 3. -/
theorem iterate_raisePrecise (n : Nat) : raisePrecise^[n] 0 = BitVec.ofNat 8 (min 3 n) := by
  induction n with
  | zero => rfl
  | succ n ih => rw [Function.iterate_succ_apply', ih, raisePrecise_ofNat]

/-! ## 3. Attributes without qualifiers -/

/-- Nothing that a letter could leave out is left out, and the level of precision is the lowest. -/
structure Unqualified (attr : Attribute) : Prop where
  precise_eq : attr.precise = 0
  excludeUser_eq : attr.excludeUser = false
  excludeKernel_eq : attr.excludeKernel = false
  excludeGuest_eq : attr.excludeGuest = false

theorem Unqualified.applyQualifiers_eq (h : attr.Unqualified) (letters : Text) :
    attr.applyQualifiers letters = { attr with
      precise := BitVec.ofNat 8 (min 3 (letters.count 'p'))
      excludeUser := decide ('k' ∈ letters)
      excludeKernel := decide ('u' ∈ letters)
      excludeGuest := decide ('h' ∈ letters) } := by
  rw [Attribute.applyQualifiers_eq, h.precise_eq, h.excludeUser_eq, h.excludeKernel_eq,
    h.excludeGuest_eq, iterate_raisePrecise]
  simp

/-- Terms neither qualify an attribute nor take qualifiers from it. -/
theorem Unqualified.of_withoutSettings_eq (h : other.Unqualified)
    (hsame : attr.withoutSettings = other.withoutSettings) : attr.Unqualified where
  precise_eq := (congrArg precise hsame).trans h.precise_eq
  excludeUser_eq := (congrArg excludeUser hsame).trans h.excludeUser_eq
  excludeKernel_eq := (congrArg excludeKernel hsame).trans h.excludeKernel_eq
  excludeGuest_eq := (congrArg excludeGuest hsame).trans h.excludeGuest_eq

end Attribute

namespace Descriptor

variable {s : Sysfs} {t body letters : Text} {attr : Attribute}

/-! ## 4. Descriptors with qualifiers -/

/-- The text in front of the first colon is known, and so is whether there is a colon. -/
theorem append_ending_inj {qualifiers? other? : Option Text} (hbody : ':' ∉ body) (ht : ':' ∉ t)
    (h : body ++ ending qualifiers? = t ++ ending other?) : body = t ∧ qualifiers? = other? := by
  have hrun : ∀ {u : Text} (rest? : Option Text), ':' ∉ u →
      Text.Run (· != ':') u (ending rest?) :=
    fun _ hu => Text.run_of_not_mem hu fun _ hc => eq_colon_of_mem_head?_ending hc
  obtain ⟨hsame, hending⟩ := (hrun qualifiers? hbody).unique (hrun other? ht) h
  exact ⟨hsame, ending_injective hending⟩

theorem RawForm.colon_not_mem_body (form : RawForm) : ':' ∉ form.body := by
  have hmarks : ∀ mark ∈ hexMarks, ':' ∉ mark := by decide
  have hdigits : ':' ∉ form.digits := fun hmem => absurd (form.digits_hex ':' hmem) (by decide)
  simp [body, hmarks form.mark form.mark_mem, hdigits]

theorem PmuForm.colon_not_mem_body (form : PmuForm) : ':' ∉ form.body := by
  have hslash : ∀ present, ':' ∉ Text.charIf '/' present := by decide
  simp [body, hslash, (plain_iff.mp form.name_plain).2, (plain_iff.mp form.terms_plain).2]

/-- The event with other qualifiers, or with none. -/
def RawForm.endedBy (form : RawForm) (qualifiers? : Option Text) : RawForm :=
  { form with qualifiers? := qualifiers? }

/-- The event with other qualifiers, or with none. -/
def PmuForm.endedBy (form : PmuForm) (qualifiers? : Option Text) : PmuForm :=
  { form with qualifiers? := qualifiers? }

/-- Qualifiers do not make a raw event of a text, nor do they keep it from being one. -/
theorem exists_rawForm_iff (ht : ':' ∉ t) (qualifiers? : Option Text) :
    (∃ form : RawForm, form.text = t ++ ending qualifiers?) ↔ ∃ form : RawForm, form.body = t := by
  constructor
  · rintro ⟨form, htext⟩
    exact ⟨form, (append_ending_inj form.colon_not_mem_body ht htext).1⟩
  · rintro ⟨form, rfl⟩
    exact ⟨form.endedBy qualifiers?, rfl⟩

/-- Qualifiers do not make the event of a PMU of a text, nor do they keep it from being one. -/
theorem exists_pmuForm_iff (ht : ':' ∉ t) (qualifiers? : Option Text) :
    (∃ form : PmuForm, form.text = t ++ ending qualifiers?) ↔ ∃ form : PmuForm, form.body = t := by
  constructor
  · rintro ⟨form, htext⟩
    exact ⟨form, (append_ending_inj form.colon_not_mem_body ht htext).1⟩
  · rintro ⟨form, rfl⟩
    exact ⟨form.endedBy qualifiers?, rfl⟩

theorem RawForm.resolve_append (form : RawForm) (s : Sysfs) (qualifiers? : Option Text) :
    resolve s (form.body ++ ending qualifiers?) =
      if form.value < Numeral.limit64 then
        .ok ({ Attribute.raw with config := BitVec.ofNat 64 form.value }.applyQualifiers
          (qualifiers?.getD []))
      else .error (.number .tooLarge) :=
  (form.endedBy qualifiers?).resolve_text s

theorem PmuForm.resolve_append_of_unknown (form : PmuForm) (h : s.pmuType? form.name = none)
    (qualifiers? : Option Text) :
    resolve s (form.body ++ ending qualifiers?) = .error (.unknownPmu form.name) :=
  (form.endedBy qualifiers?).resolve_text_of_unknown h

theorem PmuForm.resolve_append (form : PmuForm) {id : BitVec 32} {directory : Text}
    (h : s.pmuType? form.name = some (id, directory)) (qualifiers? : Option Text) :
    resolve s (form.body ++ ending qualifiers?) =
      (Term.apply s directory form.terms { Attribute.raw with pmuType := id }).1.map fun _ =>
        (Term.apply s directory form.terms { Attribute.raw with pmuType := id }).2.applyQualifiers
          (qualifiers?.getD []) :=
  (form.endedBy qualifiers?).resolve_text h

/-- A text without a colon has no qualifiers, so it is in one of the forms without an ending. -/
theorem body_cases (s : Sysfs) (ht : ':' ∉ t) :
    (∃ form : RawForm, form.body = t) ∨
      (∃ form : PmuForm, form.body = t ∧
        ∃ id directory, s.pmuType? form.name = some (id, directory)) ∨
        ∃ e, ∀ qualifiers?, resolve s (t ++ ending qualifiers?) = .error e := by
  by_cases hraw : ∃ form : RawForm, form.body = t
  · exact Or.inl hraw
  by_cases hpmu : ∃ form : PmuForm, form.body = t
  · obtain ⟨form, rfl⟩ := hpmu
    cases hid : s.pmuType? form.name with
    | none => exact Or.inr (Or.inr ⟨_, form.resolve_append_of_unknown hid⟩)
    | some found => exact Or.inr (Or.inl ⟨form, rfl, found.1, found.2, hid⟩)
  · exact Or.inr (Or.inr ⟨_, fun qualifiers? => resolve_of_not_written
      (by rwa [exists_rawForm_iff ht]) (by rwa [exists_pmuForm_iff ht])⟩)

/-- **Qualifiers are applied at the end.**  A descriptor with qualifiers is resolved as without, and
where that succeeds the qualifiers are applied. -/
theorem resolve_append_colon (s : Sysfs) (ht : ':' ∉ t) (letters : Text) :
    resolve s (t ++ ':' :: letters) = (resolve s t).map (·.applyQualifiers letters) := by
  have hplain : t ++ ending none = t := List.append_nil t
  have hending : ':' :: letters = ending (some letters) := rfl
  rw [hending]
  nth_rewrite 2 [← hplain]
  rcases body_cases s ht with ⟨form, rfl⟩ | ⟨form, rfl, id, directory, hid⟩ | ⟨e, he⟩
  · rw [form.resolve_append, form.resolve_append]
    split
    · rfl
    · rfl
  · rw [form.resolve_append hid, form.resolve_append hid]
    rcases Term.apply s directory form.terms { Attribute.raw with pmuType := id } with
      ⟨_ | _, reached⟩
    · rfl
    · rfl
  · rw [he, he]
    rfl

/-- The attribute of a descriptor without a colon carries no qualifiers. -/
theorem unqualified_of_resolve (ht : ':' ∉ t) (h : resolve s t = .ok attr) : attr.Unqualified := by
  have hplain : t ++ ending none = t := List.append_nil t
  rw [← hplain] at h
  rcases body_cases s ht with ⟨form, rfl⟩ | ⟨form, rfl, id, directory, hid⟩ | ⟨e, he⟩
  · rw [form.resolve_append] at h
    split at h
    · cases h
      exact ⟨rfl, rfl, rfl, rfl⟩
    · cases h
  · rw [form.resolve_append hid] at h
    have hsame := Term.withoutSettings_apply s directory form.terms
      { Attribute.raw with pmuType := id }
    rcases hreached : Term.apply s directory form.terms { Attribute.raw with pmuType := id } with
      ⟨_ | _, reached⟩
    · rw [hreached] at h
      cases h
    · rw [hreached] at h hsame
      cases h
      exact Attribute.Unqualified.of_withoutSettings_eq ⟨rfl, rfl, rfl, rfl⟩ hsame
  · rw [he] at h
    cases h

/-- **Qualifiers only add flags.**  Let a descriptor without a colon be resolved.  Then with any
qualifiers it is resolved to the same attribute, except that the letters `k`, `u` and `h` leave the
user, the kernel and guests out of the count, and that the level of precision is the number of the
letters `p`, but not more than 3.  So the order of the letters does not matter, letters without a
meaning do nothing, and qualifiers can be applied one text after another. -/
theorem resolve_qualified (ht : ':' ∉ t) (h : resolve s t = .ok attr) :
    (∀ letters, resolve s (t ++ ':' :: letters) = .ok { attr with
      precise := BitVec.ofNat 8 (min 3 (letters.count 'p'))
      excludeUser := decide ('k' ∈ letters)
      excludeKernel := decide ('u' ∈ letters)
      excludeGuest := decide ('h' ∈ letters) }) ∧
    (∀ letters other : Text, letters.Perm other →
      resolve s (t ++ ':' :: letters) = resolve s (t ++ ':' :: other)) ∧
    (∀ letters : Text, resolve s (t ++ ':' :: letters.filter (· ∈ Attribute.qualifierLetters)) =
      resolve s (t ++ ':' :: letters)) ∧
    (∀ (any : Attribute) (first second : Text),
      any.applyQualifiers (first ++ second) = (any.applyQualifiers first).applyQualifiers second) ∧
    ∀ first second : Text, resolve s (t ++ ':' :: (first ++ second)) =
      .ok ((attr.applyQualifiers first).applyQualifiers second) := by
  have hunqualified := unqualified_of_resolve ht h
  have happly : ∀ letters,
      resolve s (t ++ ':' :: letters) = .ok (attr.applyQualifiers letters) := by
    intro letters
    rw [resolve_append_colon s ht, h]
    rfl
  refine ⟨?_, ?_, ?_, Attribute.applyQualifiers_append, ?_⟩
  · intro letters
    rw [happly, hunqualified.applyQualifiers_eq]
  · intro letters other hperm
    rw [happly, happly, Attribute.applyQualifiers_perm hperm]
  · intro letters
    rw [happly, happly, Attribute.applyQualifiers_filter]
  · intro first second
    rw [happly, Attribute.applyQualifiers_append]

end Descriptor

open Example in
theorem Descriptor.resolve_qualified_bothForms :
    (resolve soleFieldSysfs "cpu/event=0x3c/".toList =
        .ok { Attribute.raw with config := 0x3c } ∧
      resolve soleFieldSysfs "cpu/event=0x3c/:pk/x:p\npp".toList =
        .ok { Attribute.raw with config := 0x3c, precise := 3, excludeUser := true }) ∧
    (resolve soleFieldSysfs "r1c0".toList = .ok { Attribute.raw with config := 0x1c0 } ∧
      resolve soleFieldSysfs "r1c0:hup/".toList =
        .ok { Attribute.raw with
          config := 0x1c0, precise := 1, excludeKernel := true, excludeGuest := true } ∧
      resolve soleFieldSysfs "r1c0:/puh".toList = resolve soleFieldSysfs "r1c0:hup/".toList) := by
  have hpmu : resolve soleFieldSysfs "cpu/event=0x3c/".toList =
      .ok { Attribute.raw with config := 0x3c } := rfl
  have hraw : resolve soleFieldSysfs "r1c0".toList =
      .ok { Attribute.raw with config := 0x1c0 } := rfl
  obtain ⟨hqualified, -⟩ := resolve_qualified (by decide) hpmu
  obtain ⟨hqualifiedRaw, hperm, -⟩ := resolve_qualified (by decide) hraw
  exact ⟨⟨hpmu, hqualified "pk/x:p\npp".toList⟩, hraw, hqualifiedRaw "hup/".toList,
    hperm "/puh".toList "hup/".toList (by decide)⟩

end HardwareCounters
