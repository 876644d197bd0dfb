import Cadence.Decimal.Significant
import Cadence.Path.Control
import Cadence.Roster
import Cadence.Text.Markup

namespace Cadence.CommandLine
open Decimal Text

variable [Host]

structure Column where
  header : String
  style : Option String
  isRight : Bool
deriving DecidableEq, Repr

structure Table where
  title : String
  columns : List Column
  rows : List (List String)
deriving DecidableEq, Repr

inductive Shown
  | line (markup : String)
  | table (table : Table)
  | code (language text : String)
deriving DecidableEq, Repr

def styled (style text : String) : Shown :=
  .line ("[" ++ style ++ "]" ++ text ++ "[/" ++ style ++ "]")

def taskColumns : List Column :=
  [⟨"Task", some "cyan", false⟩, ⟨"Trigger", none, false⟩, ⟨"Activity", none, false⟩,
    ⟨"Output", none, false⟩, ⟨"Delay", none, true⟩, ⟨"Duration", none, true⟩,
    ⟨"Repeat", none, true⟩]

def triggerCell (trigger : Trigger) : Except Oversize String :=
  let path := trigger.kind.name ++ " " ++ trigger.path
  match trigger.on with
  | none => .ok path
  | some on => on.plainText.map fun text => path ++ " == " ++ text

def secondsCell (seconds : Float) : String := significant seconds ++ "s"

def cyclesCell (cycles : Int) : Except Oversize String :=
  if cycles = 0 then .ok "forever" else writeWhole cycles

def activityRow (task trigger : String) (activity : Activity) : Except Oversize (List String) := do
  let output ← activity.toDrive.write
  let cycles ← cyclesCell activity.cycles
  return [escapeMarkup task, escapeMarkup trigger, escapeMarkup activity.name,
    escapeMarkup output, secondsCell activity.delay, secondsCell activity.duration, cycles]

def taskRows (task : Task) : Except Oversize (List (List String)) := do
  let trigger ← triggerCell task.trigger
  match task.activities with
  | [] => return []
  | first :: others =>
      let row ← activityRow task.name trigger first
      return row :: (← others.mapM (activityRow "" ""))

def taskTable (tasks : List Task) : Except Oversize Table := do
  return ⟨"Scheduled Tasks", taskColumns, (← tasks.mapM taskRows).flatten⟩

def showRoster (roster : Roster) : Except Oversize (List Shown) := do
  let table ← taskTable roster.tasks
  let dropped := roster.dropped.map fun drop => styled "yellow" (escapeMarkup drop.message)
  if roster.tasks.isEmpty then
    return dropped ++ [styled "red" "Configuration includes no valid tasks."]
  else
    let counts := s!"{roster.tasks.length} valid task(s), {roster.dropped.length} dropped."
    return .table table :: dropped ++ [styled "green" counts]

end Cadence.CommandLine
