import Cadence.Text.Fields
import Cadence.Text.Quoted
import Cadence.Value.Basic

namespace Cadence
open Text

inductive Base
  | root
  | above (levels : Nat)
deriving DecidableEq, Repr

structure Place where
  base : Base
  steps : List String
deriving DecidableEq, Repr

def Base.up : Base → Base
  | .root => .root
  | .above levels => .above (levels + 1)

namespace Place

def up (place : Place) : Place :=
  match place.steps with
  | [] => ⟨place.base.up, []⟩
  | _ :: outer => ⟨place.base, outer⟩

def step (place : Place) (name : String) : Place :=
  if name = ".." then place.up else ⟨place.base, name :: place.steps⟩

def start (name : String) : Place :=
  ⟨if name.toList.head? = some '/' then .root else .above 0, []⟩

def ofName (name : String) : Place := (fileSteps name).foldl step (start name)

def name (place : Place) : String :=
  let way := "/".intercalate place.steps.reverse
  match place.base with
  | .root => "/" ++ way
  | .above levels => fileName (String.join (List.replicate levels "../") ++ way)

def isBelow (place directory : Place) : Bool :=
  place.base = directory.base && place ≠ directory && directory.steps.isSuffixOf place.steps

@[simp] theorem up_step {place : Place} {name : String} (named : name ≠ "..") :
    (place.step name).up = place := by
  simp [step, named, up]

end Place

inductive Obstacle
  | missing
  | notDirectory
  | directory
  | overlong
  | embeddedNull
deriving DecidableEq, Repr

def Obstacle.message (name : String) : Obstacle → String
  | .missing => "[Errno 2] No such file or directory: " ++ quoted name
  | .notDirectory => "[Errno 20] Not a directory: " ++ quoted name
  | .directory => "[Errno 21] Is a directory: " ++ quoted name
  | .overlong => "[Errno 36] File name too long: " ++ quoted name
  | .embeddedNull => "embedded null byte"

def Obstacle.isAbsence : Obstacle → Bool
  | .missing | .notDirectory | .embeddedNull => true
  | .directory | .overlong => false

structure Files where
  contents : List (Place × Value)
  directories : List Place

def stepLimit : Nat := 255

def nameLimit : Nat := 4095

namespace Files

def ofNames (contents : List (String × Value)) (directories : List String) : Files :=
  ⟨contents.map fun file => (.ofName file.1, file.2), directories.map .ofName⟩

def content? (files : Files) (place : Place) : Option Value :=
  files.contents.lookup place

def isDirectory (files : Files) (place : Place) : Bool :=
  place.steps.isEmpty || files.directories.contains place ||
    files.contents.any fun file => file.1.isBelow place

def walk (files : Files) : Place → List String → Except Obstacle Place
  | place, [] => .ok place
  | place, name :: rest =>
      if files.isDirectory place then
        if stepLimit < name.utf8ByteSize then .error .overlong
        else files.walk (place.step name) rest
      else if (files.content? place).isSome then .error .notDirectory
      else .error .missing

def reach (files : Files) (name : String) : Except Obstacle Place :=
  if name.toList.contains '\x00' then .error .embeddedNull
  else if nameLimit < (fileName name).utf8ByteSize then .error .overlong
  else files.walk (.start name) (fileSteps name)

def target (files : Files) (name : String) : Except Obstacle Place := do
  let place ← files.reach name
  if files.isDirectory place then throw .directory else return place

def read (files : Files) (name : String) : Except Obstacle Value := do
  let place ← files.target name
  match files.content? place with
  | some content => return content
  | none => throw .missing

end Files
end Cadence
