import Cadence.Path.Grammar
import Cadence.Value.Text

namespace Cadence
open Cadence.Path

/-- What starts and stops a task. Only a notification trigger may lack a value; it then fires on any
notification that is there. -/
structure Trigger where
  kind : Kind
  path : String
  on : Option Value

/-- What an activity does to its path. Only a notification may lack an off value; it is then
cancelled. -/
structure Drive where
  path : String
  on : Value
  off : Option Value

def Drive.kind (drive : Drive) : Kind := Kind.of drive.path

/-- One timed on/off step, repeated for a number of cycles; 0 cycles repeat for ever. -/
structure Activity extends Drive where
  name : String
  duration : Float
  delay : Float
  cycles : Int

structure Task where
  name : String
  controlPath : String
  trigger : Trigger
  activities : List Activity

inductive Command
  | start
  | stop
deriving DecidableEq, Repr

def Command.name : Command → String
  | .start => "start"
  | .stop => "stop"

def Command.ofName? (name : String) : Option Command :=
  if name = "start" then some .start else if name = "stop" then some .stop else none

inductive Switching
  | on
  | off
deriving DecidableEq, Repr

def Switching.name : Switching → String
  | .on => "on"
  | .off => "off"

def sameOption : Option Value → Option Value → Bool
  | none, none => true
  | some x, some y => x.same y
  | _, _ => false

def Trigger.same (a b : Trigger) : Bool :=
  a.kind = b.kind && a.path = b.path && sameOption a.on b.on

def Activity.same (a b : Activity) : Bool :=
  a.path = b.path && a.on.same b.on && sameOption a.off b.off && a.duration == b.duration &&
    a.delay == b.delay && a.cycles = b.cycles

/-- The name of the activity at an index: its label stands between the task and the index. -/
def activityName (task : String) (label : Option String) (index : Int) : String :=
  task ++ "[" ++ label.getD "activity" ++ "-" ++ toString index ++ "]"

end Cadence
