import Cadence.Decimal.Literal
import Cadence.Host

/-!
Reading JSON texts. The last of several members of one name gives the value and the first one the
place. A number without a point and an exponent is whole; the words `NaN`, `Infinity` and
`-Infinity` are numbers too. There are limits to the digits of a whole number and, by the host, to
the levels of nesting.
-/

namespace Cadence.Json
open Decimal Text

variable [Host]

inductive Excess
  | digits (cause : Oversize)
  | listLevels
  | mapLevels
deriving DecidableEq, Repr

def depthMessage (kind : String) : String :=
  "maximum recursion depth exceeded while decoding a JSON " ++ kind ++ " from a unicode string"

def Excess.message : Excess → String
  | .digits cause => cause.message
  | .listLevels => depthMessage "array"
  | .mapLevels => depthMessage "object"

inductive ReadError
  | malformed
  | beyond (excess : Excess)
deriving DecidableEq, Repr

def isGap (c : Char) : Bool :=
  c = ' ' || c = '\t' || c = '\n' || c = '\r'

def skipGaps (text : List Char) : List Char :=
  text.dropWhile isGap

def hexUnit? (a b c d : Char) : Option Nat := do
  return (((← hexDigit? a) * 16 + (← hexDigit? b)) * 16 + (← hexDigit? c)) * 16 + (← hexDigit? d)

def simpleEscape? (c : Char) : Option Nat :=
  match c with
  | '"' => some 0x22
  | '\\' => some 0x5c
  | '/' => some 0x2f
  | 'b' => some 0x8
  | 'f' => some 0xc
  | 'n' => some 0xa
  | 'r' => some 0xd
  | 't' => some 0x9
  | _ => none

def readUnits : List Char → Option (List Nat × List Char)
  | [] => none
  | '"' :: rest => some ([], rest)
  | '\\' :: 'u' :: a :: b :: c :: d :: rest => do
      let unit ← hexUnit? a b c d
      let read ← readUnits rest
      return (unit :: read.1, read.2)
  | '\\' :: c :: rest => do
      let unit ← simpleEscape? c
      let read ← readUnits rest
      return (unit :: read.1, read.2)
  | c :: rest =>
      if c = '\\' || c.toNat < 0x20 then none
      else (readUnits rest).map fun read => (c.toNat :: read.1, read.2)

def isHigh (unit : Nat) : Bool := 0xd800 ≤ unit && unit < 0xdc00

def isLow (unit : Nat) : Bool := 0xdc00 ≤ unit && unit < 0xe000

/-- A surrogate that has no partner is no character, and the host puts another one in its place. -/
def unitChar (unit : Nat) : Char :=
  if isHigh unit || isLow unit then Host.halfPair unit else Char.ofNat unit

def joinUnits : List Nat → List Char
  | [] => []
  | [unit] => [unitChar unit]
  | high :: low :: rest =>
      if isHigh high && isLow low then
        Char.ofNat (0x10000 + (high - 0xd800) * 0x400 + (low - 0xdc00)) :: joinUnits rest
      else unitChar high :: joinUnits (low :: rest)

def readText (text : List Char) : Except ReadError (String × List Char) :=
  match readUnits text with
  | some (units, rest) => .ok (String.ofList (joinUnits units), rest)
  | none => .error .malformed

def takeWhole : List Char → List Nat × List Char
  | '0' :: rest => ([0], rest)
  | text => takeDigits asciiDigit? text

def takePoint : List Char → Option (List Nat) × List Char
  | '.' :: rest =>
      let taken := takeDigits asciiDigit? rest
      if taken.1.isEmpty then (none, '.' :: rest) else (some taken.1, taken.2)
  | text => (none, text)

def takeExponent : List Char → Option (Bool × List Nat) × List Char
  | [] => (none, [])
  | c :: rest =>
      if c = 'e' || c = 'E' then
        let signed := takeSign rest
        let taken := takeDigits asciiDigit? signed.2
        if taken.1.isEmpty then (none, c :: rest) else (some (signed.1, taken.1), taken.2)
      else (none, c :: rest)

def readNumber (negative : Bool) (text : List Char) : Except ReadError (Value × List Char) :=
  let whole := takeWhole text
  let fraction := takePoint whole.2
  let exponent := takeExponent fraction.2
  let literal : Literal := ⟨negative, whole.1, fraction.1, exponent.1⟩
  if whole.1.isEmpty then .error .malformed
  else if literal.isWhole then
    match wholeOfDigits negative whole.1 with
    | .ok n => .ok (.whole n, exponent.2)
    | .error cause => .error (.beyond (.digits cause))
  else .ok (.float literal.toFloat, exponent.2)

def readScalar : List Char → Except ReadError (Value × List Char)
  | '"' :: rest => (readText rest).map fun read => (.text read.1, read.2)
  | 'n' :: 'u' :: 'l' :: 'l' :: rest => .ok (.null, rest)
  | 't' :: 'r' :: 'u' :: 'e' :: rest => .ok (.bool true, rest)
  | 'f' :: 'a' :: 'l' :: 's' :: 'e' :: rest => .ok (.bool false, rest)
  | 'N' :: 'a' :: 'N' :: rest => .ok (.float (0 / 0), rest)
  | 'I' :: 'n' :: 'f' :: 'i' :: 'n' :: 'i' :: 't' :: 'y' :: rest => .ok (.float infinity, rest)
  | '-' :: 'I' :: 'n' :: 'f' :: 'i' :: 'n' :: 'i' :: 't' :: 'y' :: rest =>
      .ok (.float (-infinity), rest)
  | '-' :: rest => readNumber true rest
  | text => readNumber false text

mutual

def readValue (level : Nat) : Nat → List Char → Except ReadError (Value × List Char)
  | 0, _ => .error .malformed
  | fuel + 1, '[' :: rest =>
      if Host.jsonLevels ≤ level then .error (.beyond .listLevels)
      else
        match skipGaps rest with
        | ']' :: after => .ok (.list [], after)
        | items => (readItems (level + 1) fuel items).map fun read => (.list read.1, read.2)
  | fuel + 1, '\x7b' :: rest =>
      if Host.jsonLevels ≤ level then .error (.beyond .mapLevels)
      else
        match skipGaps rest with
        | '\x7d' :: after => .ok (.map [], after)
        | members => readMembers (level + 1) fuel members []
  | _ + 1, text => readScalar text

def readItems (level : Nat) : Nat → List Char → Except ReadError (List Value × List Char)
  | 0, _ => .error .malformed
  | fuel + 1, text => do
      let (item, rest) ← readValue level fuel text
      match skipGaps rest with
      | ']' :: after => return ([item], after)
      | ',' :: after =>
          let (items, rest) ← readItems level fuel (skipGaps after)
          return (item :: items, rest)
      | _ => .error .malformed

def readMembers (level : Nat) :
    Nat → List Char → List (Value × Value) → Except ReadError (Value × List Char)
  | fuel + 1, '"' :: text, members => do
      let (name, rest) ← readText text
      match skipGaps rest with
      | ':' :: after =>
          let (value, rest) ← readValue level fuel (skipGaps after)
          let members := Value.insert members (.text name) value
          match skipGaps rest with
          | '\x7d' :: after => return (.map members, after)
          | ',' :: after => readMembers level fuel (skipGaps after) members
          | _ => .error .malformed
      | _ => .error .malformed
  | _, _, _ => .error .malformed

end

/-- Reads a whole text. Each level of nesting takes two steps and at least one character. -/
def read (text : String) : Except ReadError Value := do
  let chars := text.toList
  let (value, rest) ← readValue 0 (2 * chars.length + 2) (skipGaps chars)
  if (skipGaps rest).isEmpty then return value else .error .malformed

end Cadence.Json
