import TypeLineage.Json.Double

/-!
# Shortest decimals

Of the decimal numbers that are nearer to a double precision number than to any other, the text of
the number is one with the fewest digits, and of those the nearest.

## The model

The numbers that round to a given one fill an interval; its ends belong to it if the mantissa is
even. Quarters of the last binary digit measure it, since below a power of two it is only half as
wide. On the grid of the multiples of a power of ten only the two neighbours of the number can be
the nearest in the interval, so these are tried, from the coarsest grid to finer ones.
-/

namespace TypeLineage.Double

/-- A decimal number: digits as a whole number, and the exponent of the power of ten. -/
structure Decimal where
  /-- The digits. -/
  digits : Nat
  /-- The exponent of the power of ten. -/
  exponent : Int
  deriving DecidableEq, Repr

/-- The lower end of the interval, in quarters of the last binary digit. -/
def lowerEnd (number : Double) : Nat :=
  if number.mantissa = 1 <<< (precision - 1) ∧ leastExponent < number.exponent then
    4 * number.mantissa - 1
  else 4 * number.mantissa - 2

/-- The upper end of the interval, in quarters of the last binary digit. -/
def upperEnd (number : Double) : Nat :=
  4 * number.mantissa + 2

/-- A decimal on the grid of a power of ten that rounds to the number, if there is one. Points of
the grid are measured by `step` and quarters by `quarter`, in a common unit. -/
def onGrid? (number : Double) (exponent : Int) : Option Nat :=
  let quarters := number.exponent - 2
  let step := powerOfTen exponent.toNat <<< (-quarters).toNat
  let quarter := powerOfTen (-exponent).toNat <<< quarters.toNat
  let value := 4 * number.mantissa * quarter
  let isInside (digits : Nat) : Bool :=
    let point := digits * step
    let low := number.lowerEnd * quarter
    let high := number.upperEnd * quarter
    if number.mantissa % 2 = 0 then low ≤ point && point ≤ high else low < point && point < high
  let below := value / step
  let above := below + 1
  match isInside below, isInside above with
  | false, false => none
  | true, false => some below
  | false, true => some above
  | true, true =>
    let toBelow := value - below * step
    let toAbove := above * step - value
    if toBelow < toAbove then some below
    else if toAbove < toBelow then some above
    else if below % 2 = 0 then some below else some above

/-- The exponent of the coarsest grid that is tried. -/
def coarsest : Int := 310

/-- The shortest decimal. -/
def shortest (number : Double) : Decimal :=
  ((List.range 660).findSome? fun (n : Nat) =>
    let exponent := coarsest - n
    (number.onGrid? exponent).map fun digits => ⟨digits, exponent⟩).getD ⟨0, 0⟩

/-- Some zeros. -/
def zeros (count : Int) : String :=
  String.ofList (List.replicate count.toNat '0')

/-- The text of a decimal: with a point as long as it stands within sixteen digits or behind at most
four zeros, and with an exponent beyond. -/
def Decimal.text (decimal : Decimal) : String :=
  let digits := toString decimal.digits
  let point : Int := digits.length + decimal.exponent
  let head (count : Nat) : String := String.ofList (digits.toList.take count)
  let tail (count : Nat) : String := String.ofList (digits.toList.drop count)
  if 0 ≤ decimal.exponent ∧ point ≤ 16 then digits ++ zeros decimal.exponent ++ ".0"
  else if 0 < point ∧ point ≤ 16 then head point.toNat ++ "." ++ tail point.toNat
  else if -5 < point ∧ point ≤ 0 then "0." ++ zeros (-point) ++ digits
  else if digits.length = 1 then digits ++ "e" ++ toString (point - 1)
  else head 1 ++ "." ++ tail 1 ++ "e" ++ toString (point - 1)

/-- The text of a number. -/
def text (number : Double) : String :=
  if number.mantissa = 0 then "0.0" else number.shortest.text

end TypeLineage.Double
