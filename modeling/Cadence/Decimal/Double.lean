namespace Cadence.Decimal

inductive Reading
  | notANumber
  | infinite (negative : Bool)
  | finite (negative : Bool) (mantissa : Nat) (exponent : Int)
deriving DecidableEq, Repr

def Reading.ofFloat (x : Float) : Reading :=
  let bits : Nat := x.toBits.toNat
  let negative := decide (bits / Nat.pow 2 63 % 2 = 1)
  let field : Nat := bits / Nat.pow 2 52 % Nat.pow 2 11
  let fraction : Nat := bits % Nat.pow 2 52
  if field = Nat.pow 2 11 - 1 then
    if fraction = 0 then .infinite negative else .notANumber
  else if field = 0 then .finite negative fraction (-1074)
  else .finite negative (Nat.pow 2 52 + fraction) ((field : Int) - 1075)

def infinity : Float := Float.ofBits 0x7ff0000000000000

def withSign (negative : Bool) (x : Float) : Float :=
  if negative then -x else x

/-- The double nearest to `digits * 10 ^ exponent`. Beyond the range of doubles only the size of the
number matters, and the power of ten is not formed. -/
def nearest (digits : Nat) (exponent : Int) : Float :=
  let magnitude := (Nat.toDigits 10 digits).length + exponent
  if digits = 0 then 0
  else if 400 < magnitude then infinity
  else if magnitude < -400 then 0
  else Float.ofScientific digits (exponent < 0) exponent.natAbs

def ofWhole? (n : Int) : Option Float :=
  let x := nearest n.natAbs 0
  if x = infinity then none else some (withSign (n < 0) x)

def Reading.isWhole (reading : Reading) (n : Int) : Bool :=
  match reading with
  | .finite negative mantissa exponent =>
      let size :=
        if 0 ≤ exponent then n.natAbs = mantissa * Nat.pow 2 exponent.toNat
        else n.natAbs * Nat.pow 2 exponent.natAbs = mantissa
      size && (n = 0 || (negative = decide (n < 0)))
  | _ => false

end Cadence.Decimal
