import Cadence.Definition.Field
import Cadence.Path.Control
import Cadence.Problem

namespace Cadence.Definition
open Decimal Cadence.Path

structure ActivityDefinition where
  label : Option String
  path : String
  duration : Float
  delay : Float
  cycles : Int

structure TaskDefinition where
  name : String
  controlPath : String
  activities : List ActivityDefinition

def checkActivity (value : Value) : Checked ActivityDefinition :=
  match map "ActivityConfig" value with
  | .error fault => .error [⟨[], fault⟩]
  | .ok entries =>
      ((((Checked.apply (.ok ActivityDefinition.mk) (optional entries "name" textOrNull none)).apply
        (required entries "path" nonEmptyText)).apply
        (required entries "duration" positiveNumber)).apply
        (optional entries "delay" countingNumber 0)).apply
        (optional entries "repeat" count 1)

def checkActivities (index : Nat) : List Value → Checked (List ActivityDefinition)
  | [] => .ok []
  | value :: rest =>
      (Checked.apply (.ok List.cons) ((checkActivity value).within (toString index))).apply
        (checkActivities (index + 1) rest)

def activitiesField (entries : Entries) : Checked (List ActivityDefinition) :=
  match required entries "activities" list with
  | .error complaints => .error complaints
  | .ok [] => .error [⟨["activities"], .emptyList⟩]
  | .ok items => (checkActivities 0 items).within "activities"

/-- The names a control path may go by; the first one that is there counts. -/
def controlPathNames : List String := ["controlPath", "controlpath", "control_path"]

def controlPathField (entries : Entries) : Checked String :=
  let name := (controlPathNames.find? fun name => (Value.lookup entries name).isSome).getD
    "controlPath"
  required entries name nonEmptyText

def checkTask (entries : Entries) : Checked TaskDefinition :=
  ((Checked.apply (.ok TaskDefinition.mk) (required entries "name" nonEmptyText)).apply
    (controlPathField entries)).apply (activitiesField entries)

def shownName? : Value → Option String
  | .map entries =>
      match Value.lookup entries "name" with
      | some (.text name) => if name.isEmpty then none else some name
      | _ => none
  | _ => none

/-- A definition is rejected for a problem of its own, or not read at all because of a number that
is too long. -/
inductive Rejection
  | invalid (problem : Problem)
  | oversize (cause : Oversize)

def rejectPath (task : String) : ReadError → Rejection
  | .malformed use text => .invalid (.path use.complaint text (some task))
  | .oversize cause => .oversize cause

def buildActivities (task : String) (index : Nat) :
    List ActivityDefinition → Except Rejection (List Activity)
  | [] => .ok []
  | definition :: rest => do
      let drive ← (readActivity (some definition.path)).mapError (rejectPath task)
      let activity : Activity :=
        { drive with
          name := activityName task definition.label index
          duration := definition.duration
          delay := definition.delay
          cycles := definition.cycles }
      return activity :: (← buildActivities task (index + 1) rest)

def TaskDefinition.build (definition : TaskDefinition) : Except Rejection Task := do
  let trigger ← (readControl (some definition.controlPath)).mapError (rejectPath definition.name)
  let activities ← buildActivities definition.name 0 definition.activities
  return ⟨definition.name, definition.controlPath, trigger, activities⟩

def task (raw : Value) : Except Rejection Task :=
  match raw with
  | .map entries =>
      match checkTask entries with
      | .error complaints =>
          .error (.invalid (.configuration
            ("; ".intercalate (complaints.map Complaint.message)) (shownName? raw)))
      | .ok definition => definition.build
  | _ => .error (.invalid (.configuration "task definition is not a mapping" none))

end Cadence.Definition
