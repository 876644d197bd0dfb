import Cadence.CommandLine.Words

namespace Cadence.CommandLine
open Definition Text

inductive Request
  | help
  | validate (file : String)
  | schema (output : Option String)
  | run (file : String) (linger : Option Float) (level : Option String)

def outputOption : Parameter := ⟨"--output", some 'o', true⟩

def lingerOption : Parameter := ⟨"--linger", none, true⟩

def levelOption : Parameter := ⟨"--log-level", none, true⟩

def completionOptions : List Parameter :=
  [⟨"--install-completion", none, false⟩, ⟨"--show-completion", none, false⟩]

def groupForm (parameters : List Parameter) : Form := ⟨parameters ++ [help], false⟩

def commandForm (parameters : List Parameter) : Form := ⟨parameters ++ [help], true⟩

abbrev Reader := List String → Except UsageError Request

def readCommand (parameters : List Parameter) (request : Given → Except Mistake Request) : Reader :=
  fun words => do
    let given ← ((commandForm parameters).read words).mapError fun found => found.mistake.alone
    if given.has help then return .help else (request given).mapError Mistake.alone

def configFile : String := "CONFIG_FILE"

def Given.onlyArgument (given : Given) (name : String) : Except Mistake String :=
  match given.rest with
  | [] => .error (.noArgument name)
  | [word] => .ok word
  | _ :: extra => .error (.extraArguments extra)

def Given.noArguments (given : Given) : Except Mistake Unit :=
  if given.rest.isEmpty then .ok () else .error (.extraArguments given.rest)

def readValidate : Reader :=
  readCommand [] fun given => (given.onlyArgument configFile).map .validate

def readSchema : Reader :=
  readCommand [outputOption] fun given => do
    given.noArguments
    return .schema (given.value? outputOption)

def lingerOf (given : Given) : Except Mistake (Option Float) :=
  match given.value? lingerOption with
  | none => .ok none
  | some word =>
      match numberOfText word with
      | .ok seconds => .ok (some seconds)
      | .error fault => .error (.badValue lingerOption.long fault)

def readRun : Reader :=
  readCommand [lingerOption, levelOption] fun given => do
    let linger ← lingerOf given
    let file ← given.onlyArgument configFile
    return .run file linger (given.value? levelOption)

def meant (names : List String) : List String → List String
  | [] => []
  | word :: _ => closeTo word names

/-- Reads words whose first one names no command: they may be options after all. Otherwise the
command may have been meant that is like the first word that is left. -/
def readUnknown (form : Form) (names : List String) (name : String) (words : List String) :
    Except UsageError Request :=
  match form.read words with
  | .error found => .error ⟨found.mistake, meant names found.after⟩
  | .ok given =>
      if given.options.isEmpty then .error ⟨.unknownCommand name, meant names given.rest⟩
      else .ok .help

def readGroup (parameters : List Parameter) (commands : List (String × Reader)) : Reader :=
  fun words => do
    let form := groupForm parameters
    let given ← (form.read words).mapError fun found => found.mistake.alone
    if !given.options.isEmpty then return .help
    else
      match given.rest with
      | [] => .error (Mistake.alone .noCommand)
      | name :: rest =>
          match commands.lookup name with
          | some reader => reader rest
          | none => readUnknown form (commands.map (·.1)) name given.rest

def readConfig : Reader := readGroup [] [("validate", readValidate), ("schema", readSchema)]

def readDaemon : Reader := readGroup [] [("run", readRun)]

def Request.read (words : List String) : Except UsageError Request :=
  if words.isEmpty then .ok .help
  else readGroup completionOptions [("config", readConfig), ("daemon", readDaemon)] words

end Cadence.CommandLine
