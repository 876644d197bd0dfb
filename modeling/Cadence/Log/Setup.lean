import Cadence.Log.Record
import Cadence.Text.Capital
import Cadence.Value.Text

namespace Cadence.Log
open Decimal Text

variable [Host]

/-- The task that is bound to a log goes into each record that names none itself. -/
def inject (task : Option String) (fields : Fields) : Fields :=
  match task with
  | none => fields
  | some name =>
      if fields.any fun field => field.1 = "task" then fields else fields ++ [("task", .text name)]

inductive Threshold
  | everything
  | atLeast (level : Level)
deriving DecidableEq, Repr

namespace Threshold

def name : Threshold → String
  | .everything => "NOTSET"
  | .atLeast level => level.name.toUpper

def ofName? (name : String) : Option Threshold :=
  if name = "NOTSET" then some .everything
  else if name = "WARN" then some (.atLeast .warning)
  else if name = "FATAL" then some (.atLeast .critical)
  else (Level.all.find? fun level => level.name.toUpper = name).map .atLeast

def rank : Level → Nat
  | .debug => 1
  | .info => 2
  | .warning => 3
  | .error => 4
  | .critical => 5

def admits : Threshold → Level → Bool
  | .everything, _ => true
  | .atLeast least, level => rank least ≤ rank level

end Threshold

inductive Format
  | json
  | console
deriving DecidableEq, Repr

def Format.name : Format → String
  | .json => "json"
  | .console => "console"

def Format.ofName? (name : String) : Option Format :=
  if name = "json" then some .json else if name = "console" then some .console else none

structure Setup where
  threshold : Threshold
  format : Format
  hasFile : Bool
deriving DecidableEq, Repr

structure UnknownLevel where
  name : String
deriving DecidableEq, Repr

def UnknownLevel.message (error : UnknownLevel) : String :=
  "Unknown level: " ++ quoted error.name

namespace Setup

/-- Levels are named in any case; a format that is not known is the console's. -/
def ofNames (level : String) (format : String) (hasFile : Bool) : Except UnknownLevel Setup :=
  match Threshold.ofName? (capitals level) with
  | some threshold => .ok ⟨threshold, (Format.ofName? format).getD .console, hasFile⟩
  | none => .error ⟨capitals level⟩

def handlers (setup : Setup) : Nat := if setup.hasFile then 2 else 1

end Setup

def padded (width : Nat) (text : String) : String :=
  text ++ String.ofList (List.replicate (width - text.length) ' ')

def needsQuotes (c : Char) : Bool :=
  c = ' ' || c = '\t' || c = '=' || c = '\r' || c = '\n' || c = '"' || c = '\''

def consoleValue (value : Value) : Except Oversize String :=
  match value with
  | .text s => .ok (if s.toList.any needsQuotes then quoted s else s)
  | value => value.quotedText

def loggerName (name : String) : String := if name.isEmpty then "root" else name

def setField (name : String) (value : Value) (fields : Fields) : Fields :=
  fields.filter (·.1 ≠ name) ++ [(name, value)]

def placedFields : List String :=
  ["level", "logger", "logger_name", "stack", "exception", "exc_info"]

def textField? (fields : Fields) (name : String) : Option String :=
  match fields.lookup name with
  | some (.text text) => some text
  | _ => none

def rule : String := "\n\n" ++ String.ofList (List.replicate 79 '=') ++ "\n"

def consoleTail (fields : Fields) : String :=
  let exception := textField? fields "exception"
  let hasException := exception.isSome || (fields.lookup "exc_info").any fun value => !value.isEmpty
  let stack := (textField? fields "stack").map fun text =>
    "\n" ++ text ++ if hasException then rule else ""
  stack.getD "" ++ (exception.map ("\n" ++ ·)).getD ""

def consoleLine (logger : String) (record : Record) : Except Oversize String := do
  let origin ← ((record.fields.lookup "logger_name").toList).mapM fun value => do
    return "[" ++ (← value.plainText) ++ "]"
  let own := record.fields.filter fun field => !placedFields.contains field.1
  let sorted := own.mergeSort fun a b => decide (a.1 ≤ b.1)
  let shown ← sorted.mapM fun field => do return field.1 ++ "=" ++ (← consoleValue field.2)
  return " ".intercalate
    (["[" ++ padded 9 record.level.name ++ "]", padded 30 record.event, "[" ++ logger ++ "]"] ++
      origin ++ shown) ++ consoleTail record.fields

def jsonName : Value → Except Oversize String
  | .null => .ok "null"
  | .bool truth => .ok (if truth then "true" else "false")
  | key => key.plainText

mutual

def jsonValue : Value → Except Oversize Value
  | .bytes data => .ok (.text (quotedBytes data))
  | .list items => (jsonItems items).map .list
  | .map entries => (jsonEntries entries).map .map
  | value => .ok value

def jsonItems : List Value → Except Oversize (List Value)
  | [] => .ok []
  | item :: rest => do
      let first ← jsonValue item
      return first :: (← jsonItems rest)

def jsonEntries : List (Value × Value) → Except Oversize (List (Value × Value))
  | [] => .ok []
  | (key, value) :: rest => do
      let name ← jsonName key
      let content ← jsonValue value
      return (.text name, content) :: (← jsonEntries rest)

end

def jsonRecord (logger : String) (record : Record) : Except Oversize Value :=
  let fields := setField "level" (.text record.level.name) record.fields
  jsonValue (.record (("event", .text record.event) :: setField "logger" (.text logger) fields))

def Format.write (format : Format) (logger : String) (record : Record) : Except Oversize Value :=
  match format with
  | .json => jsonRecord logger record
  | .console => (consoleLine logger record).map .text

/-- The fields of a record when it is written; its time and its call stack are taken anew and are not
kept. -/
def keptFields (task : Option String) (fields : Fields) : Fields :=
  inject task (fields.filter fun field => field.1 ≠ "timestamp" && field.1 ≠ "stack_info")

inductive Entry
  | bind (task : Option String)
  | make (record : Record)

def Setup.write (setup : Setup) (logger : String) (task : Option String) :
    List Entry → Except Oversize (List Value)
  | [] => .ok []
  | .bind task :: rest => setup.write logger task rest
  | .make record :: rest =>
      if setup.threshold.admits record.level then do
        let kept := { record with fields := keptFields task record.fields }
        let written ← setup.format.write (loggerName logger) kept
        return written :: (← setup.write logger task rest)
      else setup.write logger task rest

end Cadence.Log
