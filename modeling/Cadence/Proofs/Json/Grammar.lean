import Cadence.Json.Read
import Cadence.Proofs.Value.Entries

/-!
The grammar of JSON texts. A part of a text begins at one place and ends at another one; a place is
given by the text that follows it. There are limits to the digits of a whole number and to the levels
of nesting.
-/

namespace Cadence.Json
open Decimal Text

inductive Gap : List Char → List Char → Prop
  | none (text : List Char) : Gap text text
  | more {c : Char} {text rest : List Char} (blank : isGap c = true) (later : Gap text rest) :
      Gap (c :: text) rest

/-! ## Numbers -/

inductive Digits : List Nat → List Char → List Char → Prop
  | none (text : List Char) : Digits [] text text
  | more {c : Char} {d : Nat} {digits : List Nat} {text rest : List Char}
      (digit : asciiDigit? c = some d) (later : Digits digits text rest) :
      Digits (d :: digits) (c :: text) rest

inductive Whole : List Nat → List Char → List Char → Prop
  | zero (rest : List Char) : Whole [0] ('0' :: rest) rest
  | digits {c : Char} {d : Nat} {digits : List Nat} {text rest : List Char} (present : c ≠ '0')
      (digit : asciiDigit? c = some d) (later : Digits digits text rest) :
      Whole (d :: digits) (c :: text) rest

inductive Fraction : Option (List Nat) → List Char → List Char → Prop
  | none (text : List Char) : Fraction none text text
  | digits {digits : List Nat} {text rest : List Char} (present : digits ≠ [])
      (spelled : Digits digits text rest) : Fraction (some digits) ('.' :: text) rest

inductive Sign : Bool → List Char → List Char → Prop
  | none (text : List Char) : Sign false text text
  | plus (text : List Char) : Sign false ('+' :: text) text
  | minus (text : List Char) : Sign true ('-' :: text) text

inductive Exponent : Option (Bool × List Nat) → List Char → List Char → Prop
  | none (text : List Char) : Exponent none text text
  | digits {c : Char} {negative : Bool} {digits : List Nat} {text unsigned rest : List Char}
      (mark : c = 'e' ∨ c = 'E') (sign : Sign negative text unsigned) (present : digits ≠ [])
      (spelled : Digits digits unsigned rest) : Exponent (some (negative, digits)) (c :: text) rest

inductive Minus : Bool → List Char → List Char → Prop
  | none (text : List Char) : Minus false text text
  | minus (text : List Char) : Minus true ('-' :: text) text

inductive Numeral : Literal → List Char → List Char → Prop
  | parts {negative : Bool} {whole : List Nat} {fraction : Option (List Nat)}
      {exponent : Option (Bool × List Nat)} {text unsigned point mark rest : List Char}
      (minus : Minus negative text unsigned) (before : Whole whole unsigned point)
      (behind : Fraction fraction point mark) (scale : Exponent exponent mark rest) :
      Numeral ⟨negative, whole, fraction, exponent⟩ text rest

/-! ## Texts -/

inductive Quoted : List Nat → List Char → List Char → Prop
  | close (rest : List Char) : Quoted [] ('"' :: rest) rest
  | plain {c : Char} {units : List Nat} {text rest : List Char} (noQuote : c ≠ '"')
      (noEscape : c ≠ '\\') (printed : 0x20 ≤ c.toNat) (later : Quoted units text rest) :
      Quoted (c.toNat :: units) (c :: text) rest
  | escape {c : Char} {unit : Nat} {units : List Nat} {text rest : List Char}
      (stands : simpleEscape? c = some unit) (later : Quoted units text rest) :
      Quoted (unit :: units) ('\\' :: c :: text) rest
  | code {a b c d : Char} {unit : Nat} {units : List Nat} {text rest : List Char}
      (stands : hexUnit? a b c d = some unit) (later : Quoted units text rest) :
      Quoted (unit :: units) ('\\' :: 'u' :: a :: b :: c :: d :: text) rest

def words : List (List Char × Value) :=
  [(['n', 'u', 'l', 'l'], .null), (['t', 'r', 'u', 'e'], .bool true),
    (['f', 'a', 'l', 's', 'e'], .bool false), (['N', 'a', 'N'], .float (0 / 0)),
    (['I', 'n', 'f', 'i', 'n', 'i', 't', 'y'], .float infinity),
    (['-', 'I', 'n', 'f', 'i', 'n', 'i', 't', 'y'], .float (-infinity))]

/-! ## Values -/

variable [Host]

inductive Scalar (limit : Nat) : Value → List Char → List Char → Prop
  | word {word : List Char} {value : Value} (known : (word, value) ∈ words) (rest : List Char) :
      Scalar limit value (word ++ rest) rest
  | text {units : List Nat} {text rest : List Char} (quoted : Quoted units text rest) :
      Scalar limit (.text (String.ofList (joinUnits units))) ('"' :: text) rest
  | whole {negative : Bool} {digits : List Nat} {text rest : List Char}
      (numeral : Numeral ⟨negative, digits, none, none⟩ text rest) (short : digits.length ≤ limit) :
      Scalar limit (.whole (if negative then -(ofDigits digits : Int) else ofDigits digits)) text rest
  | float {literal : Literal} {text rest : List Char} (numeral : Numeral literal text rest)
      (parted : literal.isWhole = false) : Scalar limit (.float literal.toFloat) text rest

inductive Part
  | value (value : Value)
  | items (items : List Value)
  | member (name : String) (value : Value)
  | members (members : List (String × Value))

inductive Spells (limit : Nat) : Nat → Part → List Char → List Char → Prop
  | scalar {levels : Nat} {value : Value} {text rest : List Char}
      (scalar : Scalar limit value text rest) : Spells limit levels (.value value) text rest
  | noItems {levels : Nat} {text rest : List Char} (gap : Gap text (']' :: rest)) :
      Spells limit (levels + 1) (.value (.list [])) ('[' :: text) rest
  | list {levels : Nat} {items : List Value} {text first last rest : List Char}
      (gap : Gap text first) (inside : Spells limit levels (.items items) first last)
      (close : Gap last (']' :: rest)) :
      Spells limit (levels + 1) (.value (.list items)) ('[' :: text) rest
  | noMembers {levels : Nat} {text rest : List Char} (gap : Gap text ('\x7d' :: rest)) :
      Spells limit (levels + 1) (.value (.map [])) ('\x7b' :: text) rest
  | map {levels : Nat} {members : List (String × Value)} {text first last rest : List Char}
      (gap : Gap text first) (inside : Spells limit levels (.members members) first last)
      (close : Gap last ('\x7d' :: rest)) :
      Spells limit (levels + 1) (.value (.map (Value.collect members))) ('\x7b' :: text) rest
  | item {levels : Nat} {item : Value} {text rest : List Char}
      (only : Spells limit levels (.value item) text rest) :
      Spells limit levels (.items [item]) text rest
  | items {levels : Nat} {item : Value} {items : List Value} {text more behind next rest : List Char}
      (first : Spells limit levels (.value item) text more) (comma : Gap more (',' :: behind))
      (gap : Gap behind next) (others : Spells limit levels (.items items) next rest) :
      Spells limit levels (.items (item :: items)) text rest
  | member {levels : Nat} {units : List Nat} {value : Value} {text more behind next rest : List Char}
      (name : Quoted units text more) (colon : Gap more (':' :: behind)) (gap : Gap behind next)
      (spelled : Spells limit levels (.value value) next rest) :
      Spells limit levels (.member (String.ofList (joinUnits units)) value) ('"' :: text) rest
  | lastMember {levels : Nat} {name : String} {value : Value} {text rest : List Char}
      (only : Spells limit levels (.member name value) text rest) :
      Spells limit levels (.members [(name, value)]) text rest
  | members {levels : Nat} {name : String} {value : Value} {members : List (String × Value)}
      {text more behind next rest : List Char}
      (first : Spells limit levels (.member name value) text more) (comma : Gap more (',' :: behind))
      (gap : Gap behind next) (others : Spells limit levels (.members members) next rest) :
      Spells limit levels (.members ((name, value) :: members)) text rest

def Document (limit levels : Nat) (value : Value) (text : List Char) : Prop :=
  ∃ first last, Gap text first ∧ Spells limit levels (.value value) first last ∧ Gap last []

/-! ## Beyond the limits -/

/-- A place where a whole number does not go on, nor becomes one with a fraction or an exponent. -/
structure Alone (text : List Char) : Prop where
  digits : ∀ digits rest, Digits digits text rest → digits = []
  fraction : ∀ fraction rest, Fraction fraction text rest → fraction = none
  exponent : ∀ exponent rest, Exponent exponent text rest → exponent = none

inductive Kind
  | value
  | items
  | members

/-- A text runs beyond a limit, after parts that are within the limits and well spelled. What follows
may be anything. -/
inductive Overruns (limit : Nat) : Nat → Kind → List Char → Prop
  | digits {levels : Nat} {negative : Bool} {digits : List Nat} {text unsigned rest : List Char}
      (minus : Minus negative text unsigned) (whole : Whole digits unsigned rest) (alone : Alone rest)
      (long : limit < digits.length) : Overruns limit levels .value text
  | listLevels (text : List Char) : Overruns limit 0 .value ('[' :: text)
  | mapLevels (text : List Char) : Overruns limit 0 .value ('\x7b' :: text)
  | list {levels : Nat} {text first : List Char} (gap : Gap text first)
      (inside : Overruns limit levels .items first) : Overruns limit (levels + 1) .value ('[' :: text)
  | map {levels : Nat} {text first : List Char} (gap : Gap text first)
      (inside : Overruns limit levels .members first) :
      Overruns limit (levels + 1) .value ('\x7b' :: text)
  | item {levels : Nat} {text : List Char} (here : Overruns limit levels .value text) :
      Overruns limit levels .items text
  | items {levels : Nat} {item : Value} {text more behind next : List Char}
      (first : Spells limit levels (.value item) text more) (comma : Gap more (',' :: behind))
      (gap : Gap behind next) (later : Overruns limit levels .items next) :
      Overruns limit levels .items text
  | member {levels : Nat} {units : List Nat} {text more behind next : List Char}
      (name : Quoted units text more) (colon : Gap more (':' :: behind)) (gap : Gap behind next)
      (here : Overruns limit levels .value next) : Overruns limit levels .members ('"' :: text)
  | members {levels : Nat} {name : String} {value : Value} {text more behind next : List Char}
      (first : Spells limit levels (.member name value) text more) (comma : Gap more (',' :: behind))
      (gap : Gap behind next) (later : Overruns limit levels .members next) :
      Overruns limit levels .members text

def Overlong (limit levels : Nat) (text : List Char) : Prop :=
  ∃ first, Gap text first ∧ Overruns limit levels .value first

end Cadence.Json
