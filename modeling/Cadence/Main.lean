import Cadence.About
import Cadence.CommandLine.Perform
import Cadence.Log.Sink

namespace Cadence.Main
open CommandLine

def standingFiles (home : String) : List String :=
  ["/etc/process-scheduler/config.yaml", home ++ "/.process-scheduler/config.yaml"]

def contentOf? (file : String) : IO (Option Value) :=
  try
    let text ← IO.FS.readFile file
    return some ((Json.read text).toOption.getD (.text text))
  catch _ => return none

def variableNames : List String :=
  Settings.blocks.flatMap fun block =>
    let name := (Settings.variableRoot ++ block.1).toUpper
    name :: block.2.map fun field => name ++ "__" ++ field.toUpper

def readEnvironment : IO Settings.Environment := do
  let found ← variableNames.mapM fun name => do return (name, ← IO.getEnv name)
  return found.filterMap fun entry => entry.2.map fun text => (entry.1, text)

def fileOf? : Request → Option String
  | .validate file => some file
  | .run file _ _ => some file
  | .schema output => output
  | .help => none

def isDirectory (name : String) : IO Bool := do
  try
    discard <| IO.FS.realPath (name ++ "/.")
    return true
  catch _ => return false

def wayTo (file : String) : List String :=
  let steps := Text.fileSteps file
  let root := if file.startsWith "/" then "/" else ""
  (List.range (steps.length + 1)).map fun n =>
    Text.fileName (root ++ "/".intercalate (steps.take n))

def filesAround (request : Request) : IO Files := do
  let named := (fileOf? request).toList
  let contents ← named.filterMapM fun file => do
    return (← contentOf? file).map fun value => (file, value)
  let directories ← (named.flatMap wayTo).filterM isDirectory
  return .ofNames contents directories

def surroundings (request : Request) : IO Surroundings := do
  let home := (← IO.getEnv "HOME").getD ""
  let standing ← (standingFiles home).filterMapM contentOf?
  return ⟨← readEnvironment, standing.map .content, ← filesAround request, []⟩

def showTable (table : Table) : String :=
  "\n".intercalate (table.title :: " | ".intercalate (table.columns.map (·.header)) ::
    table.rows.map fun row => " | ".intercalate row)

def showOn : Shown → String
  | .line markup => markup
  | .table table => showTable table
  | .code _ text => text

def failureText : Failure → String
  | .usage error => error.message
  | .load error => error.message
  | .oversize cause => cause.message
  | .served (.beyond excess) => excess.message
  | .served (.definitions cause) => cause.message
  | .served .interrupted => "interrupted"
  | .blocked obstacle file => obstacle.message file
  | .endless => "no end in sight"

def fail (failure : Failure) : IO UInt32 := do
  IO.eprintln (failureText failure)
  return 1

def act : Act → IO Unit
  | .shown shown => IO.println (showOn shown)
  | .written place text => IO.FS.writeFile place.name text
  | .configured _ => pure ()
  | .served _ => pure ()

def finish (result : Result) : IO UInt32 := do
  result.acts.forM act
  match result.ending with
  | .ok code => return code.toUInt32
  | .error failure => fail failure

def log (setup : Log.Setup) (record : Log.Record) : IO Unit :=
  match setup.write "process_scheduler" none [.make record] with
  | .ok written => written.forM fun
      | .text line => IO.eprintln line
      | value => IO.eprintln (Json.write value)
  | .error _ => pure ()

def sink (setup : Log.Setup) (report : Log.Report) : IO Unit :=
  (Log.Sink.empty.take report).reports.forM (log setup)

def invalidRecord (line : String) : Log.Record :=
  ⟨"input_line_invalid", .warning, [("line", .text line)]⟩

def tell (setup : Log.Setup) (reports : List Daemon.Report) : IO Unit := do
  (Daemon.printed reports).forM IO.println
  reports.forM fun
    | .effect (.status text) => sink setup (.status text)
    | .effect (.diagnostic text) => sink setup (.diagnostic text)
    | .effect (.logged record) => log setup record
    | .invalid line => log setup (invalidRecord line)
    | _ => pure ()

structure Live where
  controller : Controller
  published : Nat
  status : String
  clock : Nat

def step (setup : Log.Setup) (live : Live) (items : List Daemon.Item) : IO (Live × Daemon.Ending) := do
  let fed := Daemon.feed live.published items live.controller
  tell setup fed.reports
  let published :=
    match fed.state.ending with
    | .closed number => number
    | _ => live.published
  let status := Daemon.statusOf fed.reports
  return (⟨fed.state.controller, published, if status.isEmpty then live.status else status,
    live.clock⟩, fed.state.ending)

def catchUp (setup : Log.Setup) (live : Live) : IO Live := do
  let now ← IO.monoMsNow
  let seconds := (now - live.clock).toFloat / 1000
  let (live, _) ← step setup { live with clock := now } [.wait seconds]
  return live

def pause : UInt32 := 10

abbrev Inbox := IO.Ref (Option String)

def listen (input : IO.FS.Stream) (inbox : Inbox) : IO Unit := do
  inbox.set none
  discard <| IO.asTask do
    let line ← input.getLine
    inbox.set (some line)

partial def attend (setup : Log.Setup) (input : IO.FS.Stream) (inbox : Inbox) (live : Live) :
    IO (Live × Daemon.Ending) := do
  IO.sleep pause
  let live ← catchUp setup live
  match ← inbox.get with
  | none => attend setup input inbox live
  | some line =>
      if line.isEmpty then return (live, .closed live.published)
      else
        match ← step setup live [.line line] with
        | (live, .closed _) => do
            listen input inbox
            attend setup input inbox live
        | (live, ending) => return (live, ending)

partial def lingerUntil (setup : Log.Setup) (ending : Nat) (live : Live) : IO Live := do
  if (← IO.monoMsNow) < ending then
    IO.sleep pause
    lingerUntil setup ending (← catchUp setup live)
  else return live

def runDaemon (setup : Log.Setup) (settings : Settings) (roster : Roster) (seconds : Float) :
    IO UInt32 := do
  tell setup (Daemon.reportDropped roster.dropped)
  let started := Daemon.run (Controller.idle roster.tasks (outletOf settings)).start
  tell setup started.reports
  let input ← IO.getStdin
  let live : Live := ⟨started.state, 0, Daemon.statusOf started.reports, ← IO.monoMsNow⟩
  let inbox ← IO.mkRef none
  listen input inbox
  let (live, ending) ← attend setup input inbox live
  let live ←
    match ending with
    | .closed _ => lingerUntil setup (live.clock + (seconds * 1000).toUInt64.toNat) live
    | _ => pure live
  match Daemon.stop live.controller with
  | none => fail .endless
  | some stopped => do
      tell setup stopped.reports
      finish ⟨(conclude (Daemon.result ending [.effect (.status live.status)])).1,
        (conclude (Daemon.result ending [])).2⟩

def runFile (found : Surroundings) (file : String) (linger : Option Float)
    (level : Option String) : IO UInt32 := do
  match Settings.findFile? found.files file with
  | none => finish (fileNotFound file)
  | some content =>
      match loadSettings found content with
      | .error failure => fail failure
      | .ok settings =>
          let level := (level.filter (!·.isEmpty)).getD settings.logging.level.name
          match Log.Setup.ofNames level settings.logging.format.name false,
              Roster.ofList settings.tasks with
          | .error error, _ => do
              IO.eprintln error.message
              return 1
          | _, .error halt => fail (.oversize halt.cause)
          | .ok setup, .ok roster =>
              runDaemon setup settings roster (linger.getD settings.scheduler.linger)

def start (words : List String) : IO UInt32 := do
  match Request.read words with
  | .error error => do
      IO.eprintln error.message
      return 2
  | .ok .help => do
      IO.println (About.identifier ++ " " ++ About.version ++ ": " ++ About.summary)
      return 0
  | .ok (.run file linger level) =>
      runFile (← surroundings (.run file linger level)) file linger level
  | .ok request => finish (request.perform (← surroundings request))

end Cadence.Main

def main (words : List String) : IO UInt32 :=
  Cadence.Main.start words
