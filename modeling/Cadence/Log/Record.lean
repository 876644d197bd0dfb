import Cadence.Value.Basic

namespace Cadence.Log

inductive Level
  | debug
  | info
  | warning
  | error
  | critical
deriving DecidableEq, Repr

def Level.name : Level → String
  | .debug => "debug"
  | .info => "info"
  | .warning => "warning"
  | .error => "error"
  | .critical => "critical"

def Level.all : List Level := [.debug, .info, .warning, .error, .critical]

def Level.ofName? (name : String) : Option Level := all.find? fun level => level.name = name

abbrev Fields := List (String × Value)

structure Record where
  event : String
  level : Level
  fields : Fields

def Record.ofName? (name event : String) (fields : Fields) : Option Record :=
  if name = "warn" then some ⟨event, .warning, fields⟩
  else if name = "fatal" then some ⟨event, .critical, fields⟩
  else if name = "exception" then
    some ⟨event, .error,
      if (fields.lookup "exc_info").isSome then fields else fields ++ [("exc_info", .bool true)]⟩
  else (Level.ofName? name).map fun level => ⟨event, level, fields⟩

def Record.toValue (record : Record) : Value :=
  .record ([("event", .text record.event), ("log_level", .text record.level.name)] ++ record.fields)

end Cadence.Log
