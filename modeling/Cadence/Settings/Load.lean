import Cadence.Settings.Basic
import Cadence.Settings.Library

namespace Cadence.Settings
open Definition

inductive LoadError
  | file (error : FileError)
  | badName
  | variable (error : VariableError)
  | invalid (complaints : List Complaint)
deriving DecidableEq, Repr

def LoadError.message : LoadError → String
  | .file error => error.message
  | .badName => "keywords must be strings"
  | .variable error => error.message
  | .invalid complaints => "; ".intercalate (complaints.map Complaint.message)

def isText : Value → Bool
  | .text _ => true
  | _ => false

def ofBlocks (library : Library) (env : Environment) (blocks : Entries) :
    Except LoadError Settings := do
  if blocks.all fun entry => isText entry.1 then
    let gathered ← (library.gather env blocks).mapError .variable
    (ofEntries gathered).mapError .invalid
  else throw .badName

/-- Loads settings from files, the least important first, and the environment. -/
def load (library : Library) (env : Environment) (files : List Found) :
    Except LoadError Settings := do
  ofBlocks library env (← (addFiles [] files).mapError .file)

inductive Demand
  | get
  | replace (blocks : Entries)

/-- Meets a demand, and tells whether the settings were in use before. Settings are loaded when they
are first asked for. -/
def demand (library : Library) (env : Environment) (files : List Found)
    (current : Option Settings) : Demand → Except LoadError (Settings × Bool)
  | .get =>
      match current with
      | some settings => .ok (settings, true)
      | none => (load library env files).map fun settings => (settings, false)
  | .replace blocks => (ofBlocks library env blocks).map fun settings => (settings, false)

end Cadence.Settings
