import Cadence.Json.Read
import Cadence.Settings.Files

namespace Cadence.Settings
open Definition

variable [Host]

abbrev Environment := List (String × String)

def after? : List Char → List Char → Option (List Char)
  | [], text => some text
  | _, [] => none
  | c :: opening, d :: text => if c = d then after? opening text else none

/-- The small letter of a capital. Of the capitals beyond ASCII only the kelvin sign has a small
letter within it, and no name of a block or a field goes beyond ASCII. -/
def smallLetter (c : Char) : Char :=
  if c = '\u212a' then 'k' else c.toLower

def put (env : Environment) (name text : String) : Environment :=
  match env with
  | [] => [(name, text)]
  | entry :: rest =>
      if entry.1 = name then (name, text) :: rest else entry :: put rest name text

/-- Of variables whose names differ in case only the last one counts. -/
def lowerCase (env : Environment) : Environment :=
  env.foldl (fun found entry => put found (entry.1.map smallLetter) entry.2) []

def variableRoot : String := "process_scheduler_"

def route? (block name : String) : Option (List String × String) := do
  let rest ← after? (variableRoot ++ block ++ "__").toList name.toList
  let names := (Text.nestedNames rest).map String.ofList
  return (names.dropLast, ← names.getLast?)

def fieldsOf (block : String) (env : Environment) : Entries :=
  env.foldl
    (fun entries entry =>
      match route? block entry.1 with
      | some (names, last) => assign names last (.text entry.2) entries
      | none => entries) []

def renameFields (known : List String) (entries : Entries) : Entries :=
  entries.foldl
    (fun renamed entry =>
      match entry.1 with
      | .text name =>
          Value.insert renamed (.text ((known.find? fun field => field = name.map smallLetter).getD name))
            entry.2
      | key => Value.insert renamed key entry.2) []

def loggingNames : List String := ["level", "format", "file"]

def schedulerNames : List String := ["on_message", "off_message", "linger_seconds"]

def blocks : List (String × List String) :=
  [("logging", loggingNames), ("scheduler", schedulerNames), ("tasks", [])]

inductive VariableError
  | notJson (block : String)
  | beyond (excess : Json.Excess)
deriving DecidableEq, Repr

def VariableError.message : VariableError → String
  | .notJson block =>
      "error parsing value for field \"" ++ block ++ "\" from source \"EnvSettingsSource\""
  | .beyond excess => excess.message

def variableError (block : String) : Json.ReadError → VariableError
  | .malformed | .beyond (.digits _) => .notJson block
  | .beyond excess => .beyond excess

def blockOf? (env : Environment) (block : String) (known : List String) :
    Except VariableError (Option Value) :=
  let fields := fieldsOf block env
  match env.lookup (variableRoot ++ block) with
  | none => .ok (if fields.isEmpty then none else some (.map (renameFields known fields)))
  | some text =>
      match Json.read text with
      | .error error => .error (variableError block error)
      | .ok .null => .ok none
      | .ok (.map entries) => .ok (some (.map (renameFields known (overlayEntries entries fields))))
      | .ok value => .ok (some value)

def layerFrom (env : Environment) :
    List (String × List String) → Except VariableError Entries
  | [] => .ok []
  | (block, known) :: rest => do
      let found ← blockOf? env block known
      let others ← layerFrom env rest
      return (found.map fun value => (Value.text block, value)).toList ++ others

def Environment.layer (env : Environment) : Except VariableError Entries :=
  layerFrom (lowerCase env) blocks

end Cadence.Settings
