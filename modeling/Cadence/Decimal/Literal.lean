import Cadence.Decimal.Double
import Cadence.Text.Digit

namespace Cadence.Decimal
open Text

def wholeLimit : Nat := 4300

/-- Too much for a text: a whole number with too many digits, in a text that is read or in one to be
written, or a value to be written that is nested too deep. -/
inductive Oversize
  | read (digits : Nat)
  | write
  | nested
deriving DecidableEq, Repr

def Oversize.message : Oversize → String
  | .read digits =>
      s!"Exceeds the limit (4300 digits) for integer string conversion: value has {digits} digits; " ++
        "use sys.set_int_max_str_digits() to increase the limit"
  | .write =>
      "Exceeds the limit (4300 digits) for integer string conversion; " ++
        "use sys.set_int_max_str_digits() to increase the limit"
  | .nested => "maximum recursion depth exceeded while getting the repr of an object"

structure Literal where
  negative : Bool
  whole : List Nat
  fraction : Option (List Nat)
  exponent : Option (Bool × List Nat)
deriving DecidableEq, Repr

def takeSign : List Char → Bool × List Char
  | '-' :: rest => (true, rest)
  | '+' :: rest => (false, rest)
  | text => (false, text)

def takeFraction (digit? : Char → Option Nat) : List Char → Option (List Nat) × List Char
  | '.' :: rest =>
      let taken := takeDigits digit? rest
      (some taken.1, taken.2)
  | text => (none, text)

def readExponent? (digit? : Char → Option Nat) : List Char → Option (Option (Bool × List Nat))
  | [] => some none
  | c :: rest =>
      if c = 'e' || c = 'E' then
        let signed := takeSign rest
        let taken := takeDigits digit? signed.2
        if taken.1.isEmpty || !taken.2.isEmpty then none else some (some (signed.1, taken.1))
      else none

def Literal.read? (digit? : Char → Option Nat) (text : List Char) : Option Literal :=
  let signed := takeSign text
  let whole := takeDigits digit? signed.2
  let fraction := takeFraction digit? whole.2
  if whole.1.isEmpty && (fraction.1.getD []).isEmpty then none
  else (readExponent? digit? fraction.2).map fun exponent =>
    ⟨signed.1, whole.1, fraction.1, exponent⟩

def Literal.isWhole (literal : Literal) : Bool :=
  literal.fraction.isNone && literal.exponent.isNone

def wholeOfDigits (negative : Bool) (digits : List Nat) : Except Oversize Int :=
  if wholeLimit < digits.length then .error (.read digits.length)
  else .ok (if negative then -(ofDigits digits : Int) else ofDigits digits)

def Literal.scale (literal : Literal) : Int :=
  match literal.exponent with
  | none => 0
  | some (negative, digits) => if negative then -(ofDigits digits : Int) else ofDigits digits

def Literal.toFloat (literal : Literal) : Float :=
  let fraction := literal.fraction.getD []
  withSign literal.negative
    (nearest (ofDigits (literal.whole ++ fraction)) (literal.scale - fraction.length))

def writeWhole (n : Int) : Except Oversize String :=
  if wholeLimit < (Nat.toDigits 10 n.natAbs).length then .error .write else .ok (toString n)

end Cadence.Decimal
