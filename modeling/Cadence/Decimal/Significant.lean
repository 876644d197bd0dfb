import Cadence.Decimal.Shortest

namespace Cadence.Decimal

def roundHalfEven (numerator denominator : Nat) : Nat :=
  let below := numerator / denominator
  let twice := 2 * (numerator % denominator)
  if twice < denominator then below
  else if denominator < twice then below + 1
  else below + below % 2

def significantDigits (mantissa : Nat) (exponent : Int) : Nat × Int :=
  let numerator := if 0 ≤ exponent then mantissa * Nat.pow 2 exponent.toNat else mantissa
  let denominator := if 0 ≤ exponent then 1 else Nat.pow 2 exponent.natAbs
  let step := leadExponent numerator denominator - 5
  let factors := gridFactors step denominator
  dropZeros 20 (roundHalfEven (numerator * factors.2) factors.1) step

def significant (x : Float) : String :=
  String.ofList <|
    match Reading.ofFloat x with
    | .notANumber => ['n', 'a', 'n']
    | .infinite negative => (if negative then ['-'] else []) ++ ['i', 'n', 'f']
    | .finite negative mantissa exponent =>
        let written :=
          if mantissa = 0 then Style.table.write 0 0
          else
            let digits := significantDigits mantissa exponent
            Style.table.write digits.1 digits.2
        if negative then '-' :: written else written

end Cadence.Decimal
