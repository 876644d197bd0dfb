import Cadence.Decimal.Literal
import Cadence.Decimal.Shortest
import Cadence.Host
import Cadence.Text.Quoted

namespace Cadence.Value
open Decimal Text

variable [Host]

mutual

/-- The text of a value with quotes around texts, if so many lists and maps may follow inside each
other. -/
def quotedWithin (levels : Nat) : Value → Except Oversize String
  | .null => .ok "None"
  | .bool truth => .ok (if truth then "True" else "False")
  | .whole n => writeWhole n
  | .float x => .ok (shortest x)
  | .text s => .ok (quoted s)
  | .bytes data => .ok (quotedBytes data)
  | .list items => (quotedItems levels items).map fun parts => "[" ++ ", ".intercalate parts ++ "]"
  | .map entries =>
      (quotedEntries levels entries).map fun parts =>
        "\x7b" ++ ", ".intercalate parts ++ "\x7d"
  | .object attributes => .ok (Host.objectText attributes)

def quotedItems : Nat → List Value → Except Oversize (List String)
  | _, [] => .ok []
  | 0, _ :: _ => .error .nested
  | levels + 1, item :: rest => do
      let first ← quotedWithin levels item
      return first :: (← quotedItems (levels + 1) rest)

def quotedEntries : Nat → List (Value × Value) → Except Oversize (List String)
  | _, [] => .ok []
  | 0, _ :: _ => .error .nested
  | levels + 1, (key, value) :: rest => do
      let name ← quotedWithin levels key
      let content ← quotedWithin levels value
      return (name ++ ": " ++ content) :: (← quotedEntries (levels + 1) rest)

end

def quotedText : Value → Except Oversize String := quotedWithin Host.textLevels

def plainText : Value → Except Oversize String
  | .text s => .ok s
  | value => quotedText value

def kindName : Value → String
  | .null => "NoneType"
  | .bool _ => "bool"
  | .whole _ => "int"
  | .float _ => "float"
  | .text _ => "str"
  | .bytes _ => "bytes"
  | .list _ => "list"
  | .map _ => "dict"
  | .object _ => "object"

end Cadence.Value
