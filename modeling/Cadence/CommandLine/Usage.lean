import Cadence.Definition.Field
import Cadence.Text.Quoted

namespace Cadence.CommandLine
open Definition Text

inductive Mistake
  | noOption (name : String) (similar : List String)
  | noValue (option : String)
  | takesNoValue (option : String)
  | noCommand
  | unknownCommand (name : String)
  | noArgument (name : String)
  | extraArguments (words : List String)
  | badValue (option : String) (fault : Fault)
deriving DecidableEq, Repr

structure UsageError where
  mistake : Mistake
  commands : List String
deriving DecidableEq, Repr

def Mistake.alone (mistake : Mistake) : UsageError := ⟨mistake, []⟩

def isControl (c : Char) : Bool :=
  c.toNat < 0x20 || (0x7f ≤ c.toNat && c.toNat < 0xa0)

def visible (word : String) : String :=
  String.ofList (word.toList.flatMap fun c =>
    if isControl c then '\\' :: 'x' :: hex 2 c.toNat else [c])

def Mistake.message : Mistake → String
  | .noOption name _ => "No such option: " ++ visible name
  | .noValue option => "Option " ++ quoted option ++ " requires an argument."
  | .takesNoValue option => "Option " ++ quoted option ++ " does not take a value."
  | .noCommand => "Missing command."
  | .unknownCommand name => "No such command " ++ quoted name ++ "."
  | .noArgument name => "Missing argument '" ++ name ++ "'."
  | .extraArguments words =>
      "Got unexpected extra argument(s) (" ++ " ".intercalate (words.map visible) ++ ")"
  | .badValue option fault => "Invalid value for '" ++ option ++ "': " ++ fault.message

def commandHint : List String → String
  | [] => ""
  | names => " Did you mean " ++ ", ".intercalate (names.map quoted) ++ "?"

def optionHint : List String → String
  | [] => ""
  | names => " (Possible options: " ++ ", ".intercalate names ++ ")"

def Mistake.similar : Mistake → List String
  | .noOption _ similar => similar
  | _ => []

def fullStop (sentence : String) : String :=
  String.ofList (sentence.toList.reverse.dropWhile (· = '.')).reverse ++ "."

def UsageError.message (error : UsageError) : String :=
  let sentence := error.mistake.message
  (if error.commands.isEmpty then sentence else fullStop sentence ++ commandHint error.commands) ++
    optionHint error.mistake.similar

end Cadence.CommandLine
