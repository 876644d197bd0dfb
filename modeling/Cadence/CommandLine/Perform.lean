import Cadence.CommandLine.Request
import Cadence.CommandLine.Screen
import Cadence.Daemon.Serve
import Cadence.Definition.Schema
import Cadence.Settings.Load

namespace Cadence.CommandLine
open Decimal

variable [Host]

structure Surroundings where
  environment : Settings.Environment
  standing : List Settings.Found
  files : Files
  input : List Daemon.Item

structure LogRequest where
  level : String
  format : Log.Format
  file : Option String
deriving DecidableEq, Repr

inductive Failure
  | usage (error : UsageError)
  | load (error : Settings.LoadError)
  | oversize (cause : Oversize)
  | served (failure : Daemon.Failure)
  | blocked (obstacle : Obstacle) (file : String)
  | endless

inductive Act
  | shown (shown : Shown)
  | configured (request : LogRequest)
  | written (place : Place) (text : String)
  | served (reports : List Daemon.Report)

structure Result where
  acts : List Act
  ending : Except Failure Nat

def Result.failed (failure : Failure) : Result := ⟨[], .error failure⟩

def fileNotFound (file : String) : Result :=
  ⟨[.shown (styled "red" ("Config file not found: " ++ Text.fileName file))], .ok 1⟩

def loadSettings (surroundings : Surroundings) (found : Settings.Found) :
    Except Failure Settings :=
  (Settings.load Settings.standard surroundings.environment
    (surroundings.standing ++ [found])).mapError .load

def validateTasks (settings : Settings) : Result :=
  let shown := do
    let roster ← (Roster.ofList settings.tasks).mapError Roster.Halt.cause
    return ((← showRoster roster), roster.tasks.isEmpty)
  match shown with
  | .error cause => .failed (.oversize cause)
  | .ok (lines, isEmpty) => ⟨lines.map .shown, .ok (if isEmpty then 1 else 0)⟩

def writeSchema (surroundings : Surroundings) (output : Option String) : Result :=
  match output.filter (!·.isEmpty) with
  | none => ⟨[.shown (.code "JSON" Definition.Schema.text)], .ok 0⟩
  | some file =>
      match surroundings.files.target file with
      | .error obstacle => .failed (.blocked obstacle (Text.fileName file))
      | .ok place =>
          ⟨[.written place Definition.Schema.text,
            .shown (styled "green" ("Schema written to " ++ file))], .ok 0⟩

def conclude (final : Except Daemon.Failure String) : List Act × Except Failure Nat :=
  match final with
  | .ok status => ([.shown (styled "bold" status)], .ok 0)
  | .error .interrupted => ([.shown (styled "yellow" "Interrupted.")], .ok 130)
  | .error failure => ([], .error (.served failure))

def outletOf (settings : Settings) : Outlet :=
  ⟨settings.scheduler.onMessage, settings.scheduler.offMessage, [], 0⟩

def runTasks (surroundings : Surroundings) (settings : Settings) (linger : Option Float)
    (level : Option String) : Result :=
  let level := (level.filter (!·.isEmpty)).getD settings.logging.level.name
  let configured : Act := .configured ⟨level, settings.logging.format, settings.logging.file⟩
  let seconds := linger.getD settings.scheduler.linger
  match Daemon.serve (.list settings.tasks) (outletOf settings) surroundings.input seconds with
  | none => ⟨[configured], .error .endless⟩
  | some served =>
      let (acts, ending) := conclude served.state.final
      ⟨configured :: .served served.reports :: acts, ending⟩

def withFile (surroundings : Surroundings) (file : String) (next : Settings → Result) : Result :=
  match Settings.findFile? surroundings.files file with
  | none => fileNotFound file
  | some found =>
      match loadSettings surroundings found with
      | .error failure => .failed failure
      | .ok settings => next settings

def Request.perform (surroundings : Surroundings) : Request → Result
  | .help => ⟨[], .ok 0⟩
  | .validate file => withFile surroundings file validateTasks
  | .schema output => writeSchema surroundings output
  | .run file linger level =>
      withFile surroundings file fun settings => runTasks surroundings settings linger level

def perform (surroundings : Surroundings) (words : List String) : Result :=
  match Request.read words with
  | .error error => .failed (.usage error)
  | .ok request => request.perform surroundings

end Cadence.CommandLine
