import Cadence.Decimal.Literal
import Cadence.Text.Blank
import Cadence.Value.Basic

namespace Cadence.Definition
open Decimal Text

inductive Fault
  | missing
  | notText
  | notDecodable
  | emptyText
  | notNumber
  | notNumeral
  | notPositive
  | negative
  | notWhole
  | notList
  | emptyList
  | notMap (model : String)
  | notLevel
  | notFormat
  | notFile
deriving DecidableEq, Repr

def Fault.message : Fault → String
  | .missing => "Field required"
  | .notText => "Input should be a valid string"
  | .notDecodable => "Input should be a valid string, unable to parse raw data as a unicode string"
  | .emptyText => "String should have at least 1 character"
  | .notNumber => "Input should be a valid number"
  | .notNumeral => "Input should be a valid number, unable to parse string as a number"
  | .notPositive => "Input should be greater than 0"
  | .negative => "Input should be greater than or equal to 0"
  | .notWhole => "Input should be a valid integer"
  | .notList => "Input should be a valid list"
  | .emptyList => "List should have at least 1 item after validation, not 0"
  | .notMap model => "Input should be a valid dictionary or instance of " ++ model
  | .notLevel => "Input should be 'debug', 'info', 'warning', 'error' or 'critical'"
  | .notFormat => "Input should be 'json' or 'console'"
  | .notFile => "Input is not a valid path for <class 'pathlib.Path'>"

structure Complaint where
  place : List String
  fault : Fault
deriving DecidableEq, Repr

def Complaint.location (complaint : Complaint) : String :=
  ".".intercalate complaint.place

def Complaint.message (complaint : Complaint) : String :=
  if complaint.location.isEmpty then complaint.fault.message
  else complaint.location ++ ": " ++ complaint.fault.message

def Complaint.within (name : String) (complaint : Complaint) : Complaint :=
  { complaint with place := name :: complaint.place }

/-- A checked part of a definition, or all complaints about it in order. -/
abbrev Checked (α : Type) := Except (List Complaint) α

def Checked.apply {α β : Type} (first : Checked (α → β)) (second : Checked α) : Checked β :=
  match first, second with
  | .ok f, .ok x => .ok (f x)
  | .ok _, .error complaints => .error complaints
  | .error complaints, .ok _ => .error complaints
  | .error complaints, .error others => .error (complaints ++ others)

def Checked.within {α : Type} (name : String) (checked : Checked α) : Checked α :=
  checked.mapError (·.map (Complaint.within name))

abbrev Check (α : Type) := Value → Except Fault α

def Check.named {α : Type} (check : Check α) (name : String) (value : Value) : Checked α :=
  (check value).mapError fun fault => [⟨[name], fault⟩]

abbrev Entries := List (Value × Value)

def required {α : Type} (entries : Entries) (name : String) (check : Check α) : Checked α :=
  match Value.lookup entries name with
  | none => .error [⟨[name], .missing⟩]
  | some value => check.named name value

def optional {α : Type} (entries : Entries) (name : String) (check : Check α) (default : α) :
    Checked α :=
  match Value.lookup entries name with
  | none => .ok default
  | some value => check.named name value

def decodeUtf8? (data : List UInt8) : Option String :=
  String.fromUTF8? ⟨data.toArray⟩

def text : Check String
  | .text s => .ok s
  | .bytes data =>
      match decodeUtf8? data with
      | some s => .ok s
      | none => .error .notDecodable
  | _ => .error .notText

def nonEmptyText : Check String := fun value => do
  let s ← text value
  if s.isEmpty then throw .emptyText else return s

def textOrNull : Check (Option String)
  | .null => .ok none
  | value => (text value).map some

def word? (word : List Char) : Option Float :=
  let lower := word.map Char.toLower
  if lower = "inf".toList || lower = "infinity".toList then some infinity
  else if lower = "nan".toList then some (0 / 0)
  else none

def numeral? (chars : List Char) : Option Float :=
  let signed := takeSign chars
  match word? signed.2 with
  | some x => some (withSign signed.1 x)
  | none => (Literal.read? asciiDigit? chars).map Literal.toFloat

def hasDoubleUnderscore : List Char → Bool
  | '_' :: '_' :: _ => true
  | _ :: rest => hasDoubleUnderscore rest
  | [] => false

def withoutUnderscores? (chars : List Char) : Option (List Char) :=
  if chars.head? = some '_' || chars.getLast? = some '_' || hasDoubleUnderscore chars then none
  else some (chars.filter (· ≠ '_'))

/-- A numeral that may have blanks around it, or underscores inside, but not both. -/
def numberOfText (s : String) : Except Fault Float :=
  let parted := (withoutUnderscores? s.toList).bind numeral?
  match numeral? (trim isSpace s.toList) <|> parted with
  | some x => .ok x
  | none => .error .notNumeral

def number : Check Float
  | .float x => .ok x
  | .bool truth => .ok (if truth then 1 else 0)
  | .whole n =>
      match ofWhole? n with
      | some x => .ok x
      | none => .error .notNumber
  | .text s => numberOfText s
  | .bytes data =>
      match decodeUtf8? data with
      | some s => numberOfText s
      | none => .error .notNumeral
  | _ => .error .notNumber

def positiveNumber : Check Float := fun value => do
  let x ← number value
  if 0 < x then return x else throw .notPositive

def countingNumber : Check Float := fun value => do
  let x ← number value
  if 0 ≤ x then return x else throw .negative

def count : Check Int
  | .whole n => if 0 ≤ n then .ok n else .error .negative
  | _ => .error .notWhole

def list : Check (List Value)
  | .list items => .ok items
  | _ => .error .notList

def map (model : String) : Check Entries
  | .map entries => .ok entries
  | _ => .error (.notMap model)

end Cadence.Definition
