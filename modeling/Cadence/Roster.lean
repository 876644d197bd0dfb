import Cadence.Definition.Task
import Cadence.Log.Record

namespace Cadence
open Decimal Definition

structure Drop where
  label : String
  reason : String
deriving DecidableEq, Repr

def Drop.message (drop : Drop) : String :=
  "dropping task '" ++ drop.label ++ "' with invalid configuration (" ++ drop.reason ++ ")"

def Drop.record (drop : Drop) : Log.Record :=
  ⟨"task_dropped", .warning, [("task", .text drop.label), ("reason", .text drop.reason)]⟩

structure Roster where
  tasks : List Task
  dropped : List Drop

namespace Roster

def empty : Roster := ⟨[], []⟩

def names (roster : Roster) : List String := roster.tasks.map Task.name

def keep (roster : Roster) (task : Task) : Roster :=
  { roster with tasks := roster.tasks ++ [task] }

def discard (roster : Roster) (position : Nat) (problem : Problem) : Roster :=
  let shown := problem.task?.getD ""
  let label := if shown.isEmpty then s!"<task #{position}>" else shown
  { roster with dropped := roster.dropped ++ [⟨label, problem.reason?.getD ""⟩] }

def add (roster : Roster) (position : Nat) (raw : Value) : Except Oversize Roster :=
  match Definition.task raw with
  | .ok task =>
      if roster.names.contains task.name then
        .ok (roster.discard position (.configuration "duplicate task name" (some task.name)))
      else .ok (roster.keep task)
  | .error (.invalid problem) => .ok (roster.discard position problem)
  | .error (.oversize cause) => .error cause

/-- Reading comes to a halt at a number that is too long, after some definitions were dropped. -/
structure Halt where
  cause : Oversize
  dropped : List Drop
deriving DecidableEq, Repr

def addAll (roster : Roster) (position : Nat) : List Value → Except Halt Roster
  | [] => .ok roster
  | raw :: rest =>
      match roster.add position raw with
      | .error cause => .error ⟨cause, roster.dropped⟩
      | .ok roster => roster.addAll (position + 1) rest

def ofList (raws : List Value) : Except Halt Roster :=
  empty.addAll 0 raws

inductive ReadError
  | notIterable (kind : String)
  | halted (halt : Halt)
deriving DecidableEq, Repr

def ReadError.message : ReadError → String
  | .notIterable kind => "'" ++ kind ++ "' object is not iterable"
  | .halted halt => halt.cause.message

def ReadError.dropped : ReadError → List Drop
  | .notIterable _ => []
  | .halted halt => halt.dropped

def ofValue (raw : Value) : Except ReadError Roster :=
  match raw.items? with
  | some raws => (ofList raws).mapError .halted
  | none => if raw.isEmpty then .ok empty else .error (.notIterable raw.kindName)

end Roster
end Cadence
