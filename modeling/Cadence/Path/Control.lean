import Cadence.Path.Scalar
import Cadence.Task

namespace Cadence.Path
open Decimal

variable [Host]

inductive Use
  | control
  | activity
deriving DecidableEq, Repr

def Use.complaint : Use → String
  | .control => "invalid 'controlPath' property"
  | .activity => "invalid activity control 'path' property"

inductive ReadError
  | malformed (use : Use) (text : Option String)
  | oversize (cause : Oversize)
deriving DecidableEq, Repr

def verbatim (text : List Char) : Value := .text (String.ofList text)

def scalarValue (text : List Char) : Except ReadError Value :=
  (scalar text).mapError .oversize

def controlPatterns : List Pattern :=
  [⟨.notification, 1⟩, ⟨.notification, 0⟩, ⟨.switch, 1⟩, ⟨.switch, 0⟩]

def activityPatterns : List Pattern :=
  [⟨.notification, 2⟩, ⟨.notification, 1⟩, ⟨.notification, 0⟩, ⟨.switch, 2⟩, ⟨.switch, 0⟩]

/-- Reads a control path. The kind is that of the form; a switch without a value fires on 1. -/
def readControl (text : Option String) : Except ReadError Trigger :=
  match firstMatch? controlPatterns text with
  | none => .error (.malformed .control text)
  | some (pattern, path, values) =>
      match pattern.kind, values.head? with
      | .notification, state => .ok ⟨.notification, path, state.map verbatim⟩
      | .switch, none => .ok ⟨.switch, path, some (.whole 1)⟩
      | .switch, some value => do return ⟨.switch, path, some (← scalarValue value)⟩

/-- Reads an activity path. The kind is that of the path. A notification starts as `normal` unless
it has a state of its own, and a switch goes from 1 to 0 unless it has two values of its own. -/
def readActivity (text : Option String) : Except ReadError Drive :=
  match firstMatch? activityPatterns text with
  | none => .error (.malformed .activity text)
  | some (_, path, values) =>
      match Kind.of path, values with
      | .notification, [] => .ok ⟨path, .text "normal", none⟩
      | .notification, [on] => .ok ⟨path, verbatim on, none⟩
      | .notification, on :: off :: _ => .ok ⟨path, verbatim on, some (verbatim off)⟩
      | .switch, [] => .ok ⟨path, .whole 1, some (.whole 0)⟩
      | .switch, on :: off :: _ => do
          return ⟨path, ← scalarValue on, some (← scalarValue off)⟩
      -- No form of a switch has a single value.
      | .switch, [_] => .error (.malformed .activity text)

end Cadence.Path

namespace Cadence
open Decimal

variable [Host]

def Trigger.write (trigger : Trigger) : Except Oversize String :=
  match trigger.on with
  | none => .ok trigger.path
  | some on => on.plainText.map fun text => trigger.path ++ ":" ++ text

def Drive.write (drive : Drive) : Except Oversize String := do
  let on ← drive.on.plainText
  match drive.off with
  | none => return drive.path ++ ":" ++ on
  | some off => return drive.path ++ ":" ++ on ++ ":" ++ (← off.plainText)

end Cadence
