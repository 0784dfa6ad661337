/-!
# Double precision numbers

Numbers with 53 binary digits, calculated with exactly: a value is a whole number times a power of
two, and every operation rounds the exact result to the nearest number of this form, of two equally
near ones to the even. What is too large has no value; what is too small becomes zero.

A decimal number is read in a simple way that rounds more than once: its digits as a whole number,
then the power of ten, then their product or quotient.
-/

namespace TypeLineage

/-- A double precision number without a sign. -/
structure Double where
  /-- The binary digits as a whole number, below the power of two with exponent 53. -/
  mantissa : Nat
  /-- The exponent of the power of two that the digits are multiplied by. -/
  exponent : Int
  deriving DecidableEq, Repr

namespace Double

/-- The least exponent. -/
def leastExponent : Int := -1074

/-- The greatest exponent. -/
def greatestExponent : Int := 971

/-- The number of binary digits. -/
def precision : Nat := 53

/-- Zero. -/
def zero : Double := ⟨0, leastExponent⟩

/-- The quotient rounded to a whole number, a half to the even neighbour. -/
def roundDiv (numerator denominator : Nat) : Nat :=
  let quotient := numerator / denominator
  let rest := 2 * (numerator % denominator)
  if rest < denominator then quotient
  else if denominator < rest then quotient + 1
  else quotient + quotient % 2

/-- The quotient of two numbers, the first one times a power of two, as numerator and denominator. -/
def scaled (numerator denominator : Nat) (exponent : Int) : Nat × Nat :=
  (numerator <<< exponent.toNat, denominator <<< (-exponent).toNat)

/-- The exponent with which a positive quotient has the full number of binary digits, or the least
one. -/
def exponentOf (numerator denominator : Nat) : Int :=
  let guess : Int := numerator.log2 - denominator.log2 - (precision - 1 : Nat)
  let (n, d) := scaled numerator denominator (-guess)
  max leastExponent (if n < d <<< (precision - 1) then guess - 1 else guess)

/-- The number nearest to a quotient, unless it is too large. -/
def ofQuotient? (numerator denominator : Nat) : Option Double :=
  if numerator = 0 then some zero
  else
    let exponent := exponentOf numerator denominator
    let (n, d) := scaled numerator denominator (-exponent)
    let mantissa := roundDiv n d
    let rounded : Double :=
      if mantissa = 1 <<< precision then ⟨1 <<< (precision - 1), exponent + 1⟩ else ⟨mantissa, exponent⟩
    if rounded.exponent ≤ greatestExponent then some rounded else none

/-- The number nearest to a whole number. -/
def ofNat? (n : Nat) : Option Double :=
  ofQuotient? n 1

/-- The product of two numbers, rounded. -/
def mul? (a b : Double) : Option Double :=
  let (n, d) := scaled (a.mantissa * b.mantissa) 1 (a.exponent + b.exponent)
  ofQuotient? n d

/-- The quotient of two numbers, rounded. -/
def div? (a b : Double) : Option Double :=
  let (n, d) := scaled a.mantissa b.mantissa (a.exponent - b.exponent)
  ofQuotient? n d

/-- A power of ten. -/
def powerOfTen (exponent : Nat) : Nat :=
  Nat.pow 10 exponent

/-- The greatest exponent of a power of ten that is multiplied or divided by at once. -/
def greatestPower : Nat := 308

/-- Multiplies by a power of ten, in steps if it is a small one. After three of them nothing is
left of any number. -/
def timesPowerOfTen? : Nat → Double → Int → Option Double
  | 0, _, _ => some zero
  | steps + 1, number, exponent =>
    if exponent.natAbs ≤ greatestPower then do
      let power ← ofNat? (powerOfTen exponent.natAbs)
      if 0 ≤ exponent then number.mul? power else number.div? power
    else if number.mantissa = 0 then some zero
    else if 0 ≤ exponent then none
    else do
      let power ← ofNat? (powerOfTen greatestPower)
      let number ← number.div? power
      timesPowerOfTen? steps number (exponent + greatestPower)

/-- The number that decimal digits and an exponent stand for. -/
def ofDecimal? (digits : Nat) (exponent : Int) : Option Double := do
  let number ← ofNat? digits
  timesPowerOfTen? 4 number exponent

end Double

end TypeLineage
