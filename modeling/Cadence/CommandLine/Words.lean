import Cadence.CommandLine.Usage
import Cadence.Text.Likeness

namespace Cadence.CommandLine
open Text

structure Parameter where
  long : String
  short : Option Char
  hasValue : Bool
deriving DecidableEq, Repr

def help : Parameter := ⟨"--help", none, false⟩

structure Form where
  parameters : List Parameter
  interspersed : Bool
deriving DecidableEq, Repr

structure Given where
  options : List (String × String)
  rest : List String
deriving DecidableEq, Repr

def Given.addOption (long value : String) (given : Given) : Given :=
  { given with options := (long, value) :: given.options }

def Given.addWord (word : String) (given : Given) : Given :=
  { given with rest := word :: given.rest }

inductive Word
  | plain
  | endOfOptions
  | complete (long value : String)
  | open (long used : String)
  | wrong (mistake : Mistake)

def splitValue (word : List Char) : List Char × Option (List Char) :=
  match word.dropWhile (· ≠ '=') with
  | [] => (word, none)
  | _ :: value => (word.takeWhile (· ≠ '='), some value)

def Form.longNames (form : Form) : List String := form.parameters.map (·.long)

def Form.similar (form : Form) (name : String) : List String :=
  (closeTo name form.longNames).mergeSort fun a b => decide (a ≤ b)

def Parameter.longWord (parameter : Parameter) : Option (List Char) → Word
  | none =>
      if parameter.hasValue then .open parameter.long parameter.long
      else .complete parameter.long ""
  | some value =>
      if parameter.hasValue then .complete parameter.long (String.ofList value)
      else .wrong (.takesNoValue parameter.long)

def Form.shortWord (form : Form) (letter : Char) (value : List Char) : Word :=
  let used := String.ofList ['-', letter]
  match form.parameters.find? fun parameter => parameter.short = some letter with
  | none => .wrong (.noOption used [])
  | some parameter =>
      if value.isEmpty then .open parameter.long used
      else .complete parameter.long (String.ofList value)

def Form.word (form : Form) (word : String) : Word :=
  match word.toList with
  | ['-', '-'] => .endOfOptions
  | '-' :: letter :: rest =>
      let (name, value) := splitValue word.toList
      let name := String.ofList name
      match form.parameters.find? fun parameter => parameter.long = name with
      | some parameter => parameter.longWord value
      | none =>
          if letter = '-' then .wrong (.noOption name (form.similar name))
          else form.shortWord letter rest
  | _ => .plain

structure Break where
  mistake : Mistake
  after : List String
deriving DecidableEq, Repr

def Form.read (form : Form) : List String → Except Break Given
  | [] => .ok ⟨[], []⟩
  | word :: rest =>
      match form.word word with
      | .wrong mistake => .error ⟨mistake, rest⟩
      | .endOfOptions => .ok ⟨[], rest⟩
      | .complete long value => (form.read rest).map (Given.addOption long value)
      | .plain =>
          if form.interspersed then (form.read rest).map (Given.addWord word)
          else .ok ⟨[], word :: rest⟩
      | .open long used =>
          match rest with
          | [] => .error ⟨.noValue used, []⟩
          | value :: rest => (form.read rest).map (Given.addOption long value)

def Given.value? (given : Given) (parameter : Parameter) : Option String :=
  given.options.reverse.lookup parameter.long

def Given.has (given : Given) (parameter : Parameter) : Bool :=
  given.options.any fun option => option.1 = parameter.long

end Cadence.CommandLine
