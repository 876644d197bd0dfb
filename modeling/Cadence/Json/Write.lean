import Cadence.Decimal.Shortest
import Cadence.Text.Digit
import Cadence.Value.Basic

namespace Cadence.Json
open Text

def escapeUnit (unit : Nat) : List Char :=
  '\\' :: 'u' :: hex 4 unit

def escapeChar (c : Char) : List Char :=
  if c = '"' || c = '\\' then ['\\', c]
  else if c = '\n' then ['\\', 'n']
  else if c = '\r' then ['\\', 'r']
  else if c = '\t' then ['\\', 't']
  else if c.toNat = 0x8 then ['\\', 'b']
  else if c.toNat = 0xc then ['\\', 'f']
  else if 0x20 ≤ c.toNat && c.toNat < 0x7f then [c]
  else if c.toNat < 0x10000 then escapeUnit c.toNat
  else
    let offset := c.toNat - 0x10000
    escapeUnit (0xd800 + offset / 0x400) ++ escapeUnit (0xdc00 + offset % 0x400)

def writeText (s : String) : String :=
  String.ofList ('"' :: s.toList.flatMap escapeChar ++ ['"'])

def newLine (level : Nat) : String :=
  "\n" ++ String.ofList (List.replicate (2 * level) ' ')

def block (level : Nat) (opening closing : String) (parts : List String) : String :=
  if parts.isEmpty then opening ++ closing
  else
    opening ++ newLine (level + 1) ++ ("," ++ newLine (level + 1)).intercalate parts ++
      newLine level ++ closing

mutual

def writeAt (level : Nat) : Value → String
  | .null => "null"
  | .bool truth => if truth then "true" else "false"
  | .whole n => toString n
  | .float x => Decimal.shortest x
  | .text s => writeText s
  | .bytes _ => "null"
  | .list items => block level "[" "]" (writeItems (level + 1) items)
  | .map entries => block level "\x7b" "\x7d" (writeEntries (level + 1) entries)
  | .object _ => "null"

def writeItems (level : Nat) : List Value → List String
  | [] => []
  | item :: rest => writeAt level item :: writeItems level rest

def writeEntries (level : Nat) : List (Value × Value) → List String
  | [] => []
  | (key, value) :: rest =>
      (writeAt level key ++ ": " ++ writeAt level value) :: writeEntries level rest

end

/-- The text of a value. Bytes and objects have none and are written as null. -/
def write (value : Value) : String :=
  writeAt 0 value

end Cadence.Json
