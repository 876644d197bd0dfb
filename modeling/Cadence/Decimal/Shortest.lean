import Cadence.Decimal.Double
import Cadence.Decimal.Style

/-!
The shortest decimal text of a double. Of the grids of 1, 2, ... 17 digits the first one with a point
that rounds to the double decides the number of digits; of two such points the nearer is taken.
-/

namespace Cadence.Decimal

/-- A positive number as a quotient, with the reals around it that round to it. The bounds share the
denominator; they belong to the interval when the mantissa is even. -/
structure Interval where
  value : Nat
  low : Nat
  high : Nat
  unit : Nat
  closed : Bool

/-- Below a power of two the neighbour is only half as far. -/
def Interval.ofDouble (mantissa : Nat) (exponent : Int) : Interval :=
  let scale := if 0 ≤ exponent - 2 then Nat.pow 2 (exponent - 2).toNat else 1
  let gap := if mantissa = Nat.pow 2 52 && exponent ≠ -1074 then 1 else 2
  { value := 4 * mantissa * scale
    low := (4 * mantissa - gap) * scale
    high := (4 * mantissa + 2) * scale
    unit := if 0 ≤ exponent - 2 then 1 else Nat.pow 2 (exponent - 2).natAbs
    closed := mantissa % 2 = 0 }

def leadExponent (numerator denominator : Nat) : Int :=
  if denominator ≤ numerator then (Nat.toDigits 10 (numerator / denominator)).length - 1
  else
    let lead := (Nat.toDigits 10 (denominator / numerator)).length - 1
    if denominator ≤ numerator * Nat.pow 10 lead then -lead else -(lead + 1 : Int)

/-- Factors that turn the comparison of `point * 10 ^ step` with `number / unit` into one of whole
numbers: `point * left` with `number * right`. -/
def gridFactors (step : Int) (unit : Nat) : Nat × Nat :=
  if 0 ≤ step then (Nat.pow 10 step.toNat * unit, 1) else (unit, Nat.pow 10 step.natAbs)

def Interval.holds (interval : Interval) (factors : Nat × Nat) (point : Nat) : Bool :=
  let scaled := point * factors.1
  if interval.closed then interval.low * factors.2 ≤ scaled && scaled ≤ interval.high * factors.2
  else interval.low * factors.2 < scaled && scaled < interval.high * factors.2

def Interval.onGrid? (interval : Interval) (step : Int) : Option Nat :=
  let factors := gridFactors step interval.unit
  let exact := interval.value * factors.2
  let below := exact / factors.1
  let above := below + 1
  match interval.holds factors below, interval.holds factors above with
  | false, false => none
  | true, false => some below
  | false, true => some above
  | true, true =>
      let toBelow := exact - below * factors.1
      let toAbove := above * factors.1 - exact
      if toBelow < toAbove then some below
      else if toAbove < toBelow then some above
      else if below % 2 = 0 then some below else some above

def shortestDigits (mantissa : Nat) (exponent : Int) : Nat × Int :=
  let interval := Interval.ofDouble mantissa exponent
  let lead := leadExponent interval.value interval.unit
  let found := (List.range 17).findSome? fun (extra : Nat) =>
    (interval.onGrid? (lead - extra)).map fun point => (point, lead - extra)
  match found with
  | some (digits, step) => dropZeros 20 digits step
  | none => (mantissa, exponent)

def shortestChars (x : Float) : List Char :=
  match Reading.ofFloat x with
  | .notANumber => ['n', 'a', 'n']
  | .infinite negative => (if negative then ['-'] else []) ++ ['i', 'n', 'f']
  | .finite negative mantissa exponent =>
      let written :=
        if mantissa = 0 then Style.value.write 0 0
        else
          let digits := shortestDigits mantissa exponent
          Style.value.write digits.1 digits.2
      if negative then '-' :: written else written

def shortest (x : Float) : String :=
  String.ofList (shortestChars x)

end Cadence.Decimal
