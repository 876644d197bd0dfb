import Cadence.Task

namespace Cadence
open Decimal

variable [Host]

inductive Trouble
  | general
  | configuration
  | path
  | trigger
deriving DecidableEq, Repr

namespace Trouble

def name : Trouble → String
  | .general => "SchedulerError"
  | .configuration => "ConfigurationError"
  | .path => "ControlPathError"
  | .trigger => "UnrecognizedTriggerValue"

def all : List Trouble := [.general, .configuration, .path, .trigger]

def ofName? (name : String) : Option Trouble := all.find? fun trouble => trouble.name = name

def lineage : Trouble → List Trouble
  | .general => [.general]
  | .configuration => [.configuration, .general]
  | .path => [.path, .configuration, .general]
  | .trigger => [.trigger, .general]

def parts : Trouble → List String
  | .general => ["message"]
  | .configuration => ["reason"]
  | .path => ["path"]
  | .trigger => ["task_name", "value"]

def extraParts : Trouble → Nat
  | .trigger => 0
  | _ => 1

end Trouble

structure Account where
  trouble : Trouble
  message : Value
  context : Value
  attributes : List (String × Value)

namespace Account

def general (message context : Value) : Account :=
  ⟨.general, message, if context.isEmpty then .map [] else context, []⟩

def configuration (reason task : Value) : Account :=
  ⟨.configuration, reason, .record [("task", task), ("reason", reason)],
    [("reason", reason), ("task_name", task)]⟩

def path (path reason task : Value) : Except Oversize Account := do
  let told := Value.text ((← reason.plainText) ++ " (" ++ (← path.quotedText) ++ ")")
  return ⟨.path, told, .record [("task", task), ("reason", told), ("path", path)],
    [("reason", told), ("task_name", task), ("path", path)]⟩

def trigger (task value : Value) : Except Oversize Account := do
  let shown ← value.quotedText
  let name ← task.plainText
  return ⟨.trigger, .text ("Ignoring invalid trigger value " ++ shown ++ " for task '" ++ name ++ "'"),
    .record [("task", task), ("value", value)], [("task_name", task), ("value", value)]⟩

def pathReason : Value := .text "invalid control path"

def ofParts? : Trouble → List Value → Option (Except Oversize Account)
  | .general, [message] => some (.ok (general message .null))
  | .general, [message, context] => some (.ok (general message context))
  | .configuration, [reason] => some (.ok (configuration reason .null))
  | .configuration, [reason, task] => some (.ok (configuration reason task))
  | .path, [text] => some (path text pathReason .null)
  | .path, [text, reason] => some (path text reason .null)
  | .trigger, [task, value] => some (trigger task value)
  | _, _ => none

def text (account : Account) : Except Oversize String := account.message.plainText

def written (account : Account) : Except Oversize String := do
  let message ← account.message.quotedText
  let context ← account.context.plainText
  return account.trouble.name ++ "(" ++ message ++ ", context=" ++ context ++ ")"

end Account

inductive Problem
  | configuration (reason : String) (task : Option String)
  | path (reason : String) (text : Option String) (task : Option String)
  | trigger (task : String) (value : Value)

namespace Problem

def quotedOption : Option String → String
  | none => "None"
  | some text => Text.quoted text

def pathReason (reason : String) (text : Option String) : String :=
  reason ++ " (" ++ quotedOption text ++ ")"

def reason? : Problem → Option String
  | .configuration reason _ => some reason
  | .path reason text _ => some (pathReason reason text)
  | .trigger .. => none

def task? : Problem → Option String
  | .configuration _ task => task
  | .path _ _ task => task
  | .trigger task _ => some task

def account : Problem → Except Oversize Account
  | .configuration reason task => .ok (.configuration (.text reason) (.ofText? task))
  | .path reason text task => Account.path (.ofText? text) (.text reason) (.ofText? task)
  | .trigger task value => Account.trigger (.text task) value

def message (problem : Problem) : Except Oversize String := do
  (← problem.account).text

end Problem
end Cadence
