/-
# The names of processors

A catalog is found by a name that joins the vendor and two or three numbers with dashes.  The vendor is
any text and may hold dashes and digits itself, so a name is read from its end: no number is written
with a dash, and the last dashes are those of the name.

* `modelId_inj` and `fullId_inj`: what a name determines;
* `names_identify`: no two processors share a name with a stepping.
-/
import HardwareCounters.CpuId
import HardwareCounters.Proofs.Numeral.Notation
import HardwareCounters.Proofs.Text.Runs

namespace HardwareCounters

/-! ## 1. Numbers without dashes -/

theorem Numeral.noDigit_dash : Numeral.NoDigit '-' := Numeral.noDigit_of_outside (by decide)

theorem Numeral.dash_not_mem_decimal (n : Nat) : '-' ∉ Numeral.decimal n := by
  intro hmem
  exact not_noDigit_of_mem_toDigits (by decide) (by decide) hmem noDigit_dash

theorem Numeral.dash_not_mem_hexUpper (n : Nat) : '-' ∉ Numeral.hexUpper n :=
  not_mem_of_readDigits noDigit_dash
    (readDigits_toUpper_toDigits (by decide) (by decide) (Nat.lt_succ_self n))

namespace CpuId

variable {cpu other : CpuId}

/-! ## 2. What a name determines -/

/-- The vendor and the family in front of the model. -/
theorem modelId_eq (cpu : CpuId) :
    cpu.modelId = (cpu.vendor ++ '-' :: Numeral.decimal cpu.family) ++
      '-' :: Numeral.hexUpper cpu.model := by
  simp [modelId]

theorem vendor_family_inj :
    cpu.vendor ++ '-' :: Numeral.decimal cpu.family =
        other.vendor ++ '-' :: Numeral.decimal other.family ↔
      cpu.vendor = other.vendor ∧ cpu.family = other.family := by
  rw [Text.append_cons_inj (Numeral.dash_not_mem_decimal _) (Numeral.dash_not_mem_decimal _),
    Numeral.decimal_inj]

/-- **Without a stepping** a name determines all but the stepping. -/
theorem modelId_inj :
    cpu.modelId = other.modelId ↔
      cpu.vendor = other.vendor ∧ cpu.family = other.family ∧ cpu.model = other.model := by
  rw [modelId_eq, modelId_eq,
    Text.append_cons_inj (Numeral.dash_not_mem_hexUpper _) (Numeral.dash_not_mem_hexUpper _),
    vendor_family_inj, Numeral.hexUpper_inj, and_assoc]

/-- **With a stepping** a name determines the processor. -/
theorem fullId_inj : cpu.fullId = other.fullId ↔ cpu = other := by
  rw [fullId, fullId,
    Text.append_cons_inj (Numeral.dash_not_mem_hexUpper _) (Numeral.dash_not_mem_hexUpper _),
    modelId_inj, Numeral.hexUpper_inj]
  constructor
  · rintro ⟨⟨hvendor, hfamily, hmodel⟩, hstepping⟩
    cases cpu
    cases other
    simp only [mk.injEq]
    exact ⟨hvendor, hfamily, hmodel, hstepping⟩
  · rintro rfl
    exact ⟨⟨rfl, rfl, rfl⟩, rfl⟩

/-- **Names identify processors.**  Processors with the same name with a stepping are the same, whatever
their vendors are, and so are those for which the same names are looked for; processors with the same
name without a stepping have the same vendor, family and model. -/
theorem names_identify (cpu other : CpuId) :
    (cpu.fullId = other.fullId ↔ cpu = other) ∧
    (cpu.modelId = other.modelId ↔
      cpu.vendor = other.vendor ∧ cpu.family = other.family ∧ cpu.model = other.model) ∧
    (cpu.candidates = other.candidates ↔ cpu = other) := by
  refine ⟨fullId_inj, modelId_inj, fun h => ?_, congrArg candidates⟩
  exact fullId_inj.mp (List.cons.inj h).1

end CpuId

end HardwareCounters
