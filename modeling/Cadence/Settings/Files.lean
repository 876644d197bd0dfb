import Cadence.Place
import Cadence.Settings.Layer
import Cadence.Value.Text

namespace Cadence.Settings
open Definition Text

inductive Found
  | content (value : Value)
  | blocked (obstacle : Obstacle) (name : String)

def findFile? (files : Files) (name : String) : Option Found :=
  match files.read name with
  | .ok content => some (.content content)
  | .error obstacle =>
      if obstacle.isAbsence then none else some (.blocked obstacle (fileName name))

inductive FileError
  | blocked (obstacle : Obstacle) (name : String)
  | notIterable (kind : String)
  | notSequence (index : Nat)
  | wrongLength (index length : Nat)
  | unhashable (kind : String)
deriving DecidableEq, Repr

def FileError.message : FileError → String
  | .blocked obstacle name => obstacle.message name
  | .notIterable kind => "'" ++ kind ++ "' object is not iterable"
  | .notSequence index =>
      s!"cannot convert dictionary update sequence element #{index} to a sequence"
  | .wrongLength index length =>
      s!"dictionary update sequence element #{index} has length {length}; 2 is required"
  | .unhashable kind => "unhashable type: '" ++ kind ++ "'"

def isHashable : Value → Bool
  | .list _ | .map _ => false
  | _ => true

def addPairs (blocks : Entries) (index : Nat) : List Value → Except FileError Entries
  | [] => .ok blocks
  | item :: rest =>
      match item.items? with
      | none => .error (.notSequence index)
      | some [key, value] =>
          if isHashable key then addPairs (Value.insert blocks key value) (index + 1) rest
          else .error (.unhashable key.kindName)
      | some items => .error (.wrongLength index items.length)

def addBlocks (blocks : Entries) (entries : Entries) : Entries :=
  entries.foldl (fun blocks entry => Value.insert blocks entry.1 entry.2) blocks

def addFile (blocks : Entries) : Found → Except FileError Entries
  | .blocked obstacle name => .error (.blocked obstacle name)
  | .content (.map entries) => .ok (addBlocks blocks entries)
  | .content value =>
      if value.isEmpty then .ok blocks
      else
        match value.items? with
        | none => .error (.notIterable value.kindName)
        | some items => addPairs blocks 0 items

def addFiles (blocks : Entries) : List Found → Except FileError Entries
  | [] => .ok blocks
  | file :: rest => do addFiles (← addFile blocks file) rest

end Cadence.Settings
