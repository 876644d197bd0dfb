import Cadence.Definition.Field
import Cadence.Log.Setup
import Cadence.Outlet
import Cadence.Text.Fields

namespace Cadence
open Definition

structure Settings.Logging where
  level : Log.Level
  format : Log.Format
  file : Option String
deriving DecidableEq, Repr

structure Settings.Scheduler where
  onMessage : String
  offMessage : String
  linger : Float

structure Settings where
  logging : Settings.Logging
  scheduler : Settings.Scheduler
  tasks : List Value

namespace Settings

def Logging.default : Logging := ⟨.info, .console, none⟩

def Scheduler.default : Scheduler := ⟨Outlet.onMessageDefault, Outlet.offMessageDefault, 0⟩

def default : Settings := ⟨.default, .default, []⟩

def level : Check Log.Level
  | .text name => (Log.Level.ofName? name).elim (.error .notLevel) .ok
  | _ => .error .notLevel

def format : Check Log.Format
  | .text name => (Log.Format.ofName? name).elim (.error .notFormat) .ok
  | _ => .error .notFormat

def file : Check (Option String)
  | .null => .ok none
  | .text name => .ok (some (Text.fileName name))
  | _ => .error .notFile

def block {α : Type} (model : String) (fields : Entries → Checked α) (value : Value) :
    Checked α :=
  match map model value with
  | .error fault => .error [⟨[], fault⟩]
  | .ok entries => fields entries

def loggingFields (entries : Entries) : Checked Logging :=
  ((Checked.apply (.ok Logging.mk) (optional entries "level" level .info)).apply
    (optional entries "format" format .console)).apply (optional entries "file" file none)

def schedulerFields (entries : Entries) : Checked Scheduler :=
  ((Checked.apply (.ok Scheduler.mk)
    (optional entries "on_message" text Outlet.onMessageDefault)).apply
    (optional entries "off_message" text Outlet.offMessageDefault)).apply
    (optional entries "linger_seconds" countingNumber 0)

def optionalBlock {α : Type} (entries : Entries) (name : String) (check : Value → Checked α)
    (default : α) : Checked α :=
  match Value.lookup entries name with
  | none => .ok default
  | some value => (check value).within name

def ofEntries (entries : Entries) : Checked Settings :=
  ((Checked.apply (.ok Settings.mk)
    (optionalBlock entries "logging" (block "LoggingConfig" loggingFields) .default)).apply
    (optionalBlock entries "scheduler" (block "SchedulerConfig" schedulerFields) .default)).apply
    (optional entries "tasks" list [])

end Settings
end Cadence
