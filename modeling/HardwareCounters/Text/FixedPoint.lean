/-
# Numbers with a fixed number of places

A floating point number is shown with a fixed number of decimal places: its exact value is rounded
to the nearest such number, and a value halfway between two goes to the even one.
-/
import HardwareCounters.Numeral

namespace HardwareCounters

namespace FixedPoint

/-! ## 1. Rounding -/

/-- The whole number nearest to a quotient.  Of two that are equally near it is the even one. -/
def roundDiv (n d : Nat) : Nat :=
  let q := n / d
  let r := n % d
  if 2 * r < d then q
  else if d < 2 * r then q + 1
  else if q % 2 = 0 then q
  else q + 1

/-! ## 2. Digits -/

def digits (places units : Nat) : Text :=
  let unit := Nat.pow 10 places
  let whole := Numeral.decimal (units / unit)
  let part := Numeral.decimal (units % unit)
  whole ++ '.' :: (List.replicate (places - part.length) '0' ++ part)

/-- The number `m * 2 ^ e`, where `e` is the exponent less 1075, in units of the last place. -/
def units (places m exponent : Nat) : Nat :=
  let scaled := m * Nat.pow 10 places
  if 1075 ≤ exponent then scaled <<< (exponent - 1075)
  else roundDiv scaled (1 <<< (1075 - exponent))

/-- The bit above the fraction, which a number carries unless its exponent is 0. -/
def hiddenBit : Nat := 0x10000000000000

/-- A finite floating point number with a fixed number of places. -/
def render (places : Nat) (x : Float) : Text :=
  let bits := x.toBits.toNat
  let fraction := bits % hiddenBit
  let exponent := bits / hiddenBit % 0x800
  let sign := if bits < 0x8000000000000000 then [] else ['-']
  let value :=
    if exponent = 0 then units places fraction 1 else units places (hiddenBit + fraction) exponent
  sign ++ digits places value

end FixedPoint

end HardwareCounters
