/-
# Descriptors that are spelled out

A PMU and terms that hold neither slashes nor colons, written as `<pmu>/<terms>/`, are read as that
PMU and those terms.  That they could also be a raw code is excluded by the slash: behind the digits
of a raw code stands nothing or a colon.

* `Descriptor.parse?_pmuEvent_eq` reads the name of the PMU, whatever the terms are;
* `Descriptor.parse?_pmuEvent` reads the spelling;
* `Descriptor.resolve_pmu_eq_ok_iff` and `resolve_pmu_eq_error_iff` resolve the event of a PMU by
  applying its terms.
-/
import HardwareCounters.Descriptor
import HardwareCounters.Proofs.Text.Joining

namespace HardwareCounters

namespace Descriptor

/-! ## 1. Plain texts -/

/-- A text may be the name of a PMU or a list of terms. -/
def Plain (t : Text) : Prop := ∀ c ∈ t, isPlain c = true

instance (t : Text) : Decidable (Plain t) :=
  inferInstanceAs (Decidable (∀ c ∈ t, isPlain c = true))

theorem plain_iff {t : Text} : Plain t ↔ '/' ∉ t ∧ ':' ∉ t := by
  constructor
  · intro h
    constructor
    · intro hmem
      cases h '/' hmem
    · intro hmem
      cases h ':' hmem
  · rintro ⟨hslash, hcolon⟩ c hc
    have h1 : c ≠ '/' := fun heq => hslash (heq ▸ hc)
    have h2 : c ≠ ':' := fun heq => hcolon (heq ▸ hc)
    simp [isPlain, h1, h2]

/-- What is joined from plain texts is plain. -/
theorem plain_joinWith {sep : Text} {pieces : List Text} (hsep : Plain sep)
    (h : ∀ piece ∈ pieces, Plain piece) : Plain (Text.joinWith sep pieces) := by
  intro c hc
  rcases Text.mem_joinWith hc with hc | ⟨piece, hpiece, hc⟩
  · exact hsep c hc
  · exact h piece hpiece c hc

/-! ## 2. Reading what is spelled out -/

/-- In front of a slash digits end at a character that is no colon. -/
theorem qualifiers?_dropWhile {t : Text} (h : Plain t) (rest : Text) :
    qualifiers? ((t ++ '/' :: rest).dropWhile isHexDigit) = none := by
  induction t with
  | nil => rfl
  | cons c t ih =>
    rw [List.cons_append, List.dropWhile_cons]
    split
    · exact ih fun d hd => h d (List.mem_cons_of_mem c hd)
    · have hc : c ≠ ':' := by
        rintro rfl
        cases h ':' List.mem_cons_self
      rw [qualifiers?.eq_def]
      split
      · rename_i heq
        cases heq
      · rename_i heq
        exact absurd (List.cons.inj heq).1 hc
      · rfl

/-- What follows the mark of a hexadecimal number holds no new characters. -/
theorem exists_dropHexMark {t : Text} (h : Plain t) (rest : Text) :
    ∃ u, Plain u ∧ dropHexMark (t ++ '/' :: rest) = u ++ '/' :: rest := by
  rcases t with _ | ⟨c, _ | ⟨d, t⟩⟩
  · exact ⟨[], h, rfl⟩
  · refine ⟨[c], h, ?_⟩
    rw [dropHexMark.eq_def]
    split <;> simp_all
  · have hrest : Plain t := fun x hx => h x (by simp [hx])
    rw [dropHexMark.eq_def]
    split
    · rename_i heq
      simp only [List.cons_append, List.cons.injEq] at heq
      obtain ⟨-, -, rfl⟩ := heq
      exact ⟨t, hrest, rfl⟩
    · rename_i heq
      simp only [List.cons_append, List.cons.injEq] at heq
      obtain ⟨-, -, rfl⟩ := heq
      exact ⟨t, hrest, rfl⟩
    · exact ⟨c :: d :: t, h, rfl⟩

/-- What is read as a raw event is one, and its code is a text of hexadecimal digits. -/
theorem exists_code_of_raw? {t : Text} {descriptor : Descriptor} (h : raw? t = some descriptor) :
    ∃ code qualifiers, descriptor = .raw code qualifiers ∧ code ≠ [] ∧
      ∀ c ∈ code, isHexDigit c = true := by
  rw [raw?.eq_def] at h
  split at h
  · simp only at h
    split at h
    · cases h
    · rename_i hne
      obtain ⟨letters, -, rfl⟩ := Option.map_eq_some_iff.mp h
      exact ⟨_, letters, rfl, hne, fun c hc => List.mem_takeWhile_imp hc⟩
  · cases h

/-- No text with a slash behind a plain text is a raw code. -/
theorem raw?_eq_none {t : Text} (h : Plain t) (rest : Text) : raw? (t ++ '/' :: rest) = none := by
  cases t with
  | nil => rfl
  | cons c t =>
    have hrest : Plain t := fun x hx => h x (List.mem_cons_of_mem c hx)
    obtain ⟨u, hu, hmark⟩ := exists_dropHexMark hrest rest
    rw [List.cons_append, raw?.eq_def]
    split
    · rename_i heq
      obtain ⟨-, rfl⟩ := List.cons.inj heq
      simp only [hmark, qualifiers?_dropWhile hu]
      split <;> rfl
    · rfl

theorem takeWhile_isPlain {t : Text} (h : Plain t) (rest : Text) :
    (t ++ '/' :: rest).takeWhile isPlain = t := by
  rw [List.takeWhile_append_of_pos h, List.takeWhile_cons_of_neg (by decide), List.append_nil]

theorem dropWhile_isPlain {t : Text} (h : Plain t) (rest : Text) :
    (t ++ '/' :: rest).dropWhile isPlain = '/' :: rest := by
  rw [List.dropWhile_append_of_pos h, List.dropWhile_cons_of_neg (by decide)]

/-- **The name of a PMU is read as it is**, whatever the terms are. -/
theorem parse?_pmuEvent_eq {pmu : Text} (hne : pmu ≠ []) (hpmu : Plain pmu) (terms : Text) :
    parse? (pmuEvent pmu terms) =
      (qualifiers? (dropSlash ((terms ++ ['/']).dropWhile isPlain))).map
        (.pmu pmu ((terms ++ ['/']).takeWhile isPlain)) := by
  obtain ⟨c, rest, rfl⟩ := List.exists_cons_of_ne_nil hne
  have hslash : dropSlash (pmuEvent (c :: rest) terms) = pmuEvent (c :: rest) terms := by
    have hc : c ≠ '/' := by
      rintro rfl
      cases hpmu '/' List.mem_cons_self
    rw [pmuEvent, List.cons_append, List.cons_append, dropSlash.eq_def]
    split
    · rename_i heq
      exact absurd (List.cons.inj heq).1 hc
    · rfl
  have hevent : pmuEvent (c :: rest) terms = (c :: rest) ++ '/' :: (terms ++ '/' :: []) := by
    simp [pmuEvent]
  have hraw : raw? (pmuEvent (c :: rest) terms) = none := by
    rw [hevent]
    exact raw?_eq_none hpmu _
  have hname : (pmuEvent (c :: rest) terms).takeWhile isPlain = c :: rest := by
    rw [hevent]
    exact takeWhile_isPlain hpmu _
  have hbehind : (pmuEvent (c :: rest) terms).dropWhile isPlain = '/' :: (terms ++ ['/']) := by
    rw [hevent]
    exact dropWhile_isPlain hpmu _
  simp only [parse?, hraw, pmu?, hslash, hname, hbehind]

/-- **Spelling and reading.**  A PMU and terms that are spelled out are read as what they are. -/
theorem parse?_pmuEvent {pmu terms : Text} (hne : pmu ≠ []) (hpmu : Plain pmu)
    (hterms : Plain terms) : parse? (pmuEvent pmu terms) = some (.pmu pmu terms []) := by
  rw [parse?_pmuEvent_eq hne hpmu, takeWhile_isPlain hterms, dropWhile_isPlain hterms]
  rfl

/-! ## 3. Resolving what has been read -/

section Resolving

variable {s : Sysfs} {t pmu name terms qualifiers directory : Text} {id : BitVec 32}
  {attr : Attribute} {e : Error}

/-- The event of a PMU is resolved by applying its terms and then its qualifiers. -/
theorem resolve_pmu_eq_ok_iff (hparse : parse? t = some (.pmu name terms qualifiers))
    (hid : s.pmuType? name = some (id, directory)) :
    resolve s t = .ok attr ↔
      ∃ reached, Term.apply s directory terms { Attribute.raw with pmuType := id } =
        (.ok (), reached) ∧ reached.applyQualifiers qualifiers = attr := by
  simp only [resolve, hparse, toAttribute, hid]
  rcases Term.apply s directory terms { Attribute.raw with pmuType := id } with ⟨_ | _, reached⟩
  · simp
  · simp

/-- The event of a PMU fails as its terms do. -/
theorem resolve_pmu_eq_error_iff (hparse : parse? t = some (.pmu name terms qualifiers))
    (hid : s.pmuType? name = some (id, directory)) :
    resolve s t = .error e ↔
      (Term.apply s directory terms { Attribute.raw with pmuType := id }).1 = .error e := by
  simp only [resolve, hparse, toAttribute, hid]
  rcases Term.apply s directory terms { Attribute.raw with pmuType := id } with ⟨_ | _, reached⟩
  · simp
  · simp

theorem resolve_pmu_of_unknown (hparse : parse? t = some (.pmu name terms qualifiers))
    (hid : s.pmuType? name = none) : resolve s t = .error (.unknownPmu name) := by
  simp only [resolve, hparse, toAttribute, hid]

/-- A descriptor that is spelled out is resolved by applying its terms. -/
theorem resolve_pmuEvent_eq_ok_iff (hne : pmu ≠ []) (hpmu : Plain pmu) (hterms : Plain terms)
    (hid : s.pmuType? pmu = some (id, directory)) :
    resolve s (pmuEvent pmu terms) = .ok attr ↔
      Term.apply s directory terms { Attribute.raw with pmuType := id } = (.ok (), attr) := by
  rw [resolve_pmu_eq_ok_iff (parse?_pmuEvent hne hpmu hterms) hid]
  simp [Attribute.applyQualifiers]

theorem resolve_pmuEvent (hne : pmu ≠ []) (hpmu : Plain pmu) (hterms : Plain terms)
    (hid : s.pmuType? pmu = some (id, directory))
    (happly : Term.apply s directory terms { Attribute.raw with pmuType := id } = (.ok (), attr)) :
    resolve s (pmuEvent pmu terms) = .ok attr :=
  (resolve_pmuEvent_eq_ok_iff hne hpmu hterms hid).mpr happly

end Resolving

end Descriptor

end HardwareCounters
