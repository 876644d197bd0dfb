import Cadence.Bus.Basic
import Cadence.Problem
import Cadence.Station

/-!
The controller binds a station to each task, lets the stations read the bus, and reports which tasks
are active. Stations share nothing but the bus and the clock.
-/

namespace Cadence
open Decimal

variable [Host]

structure Controller where
  tasks : List Task
  outlet : Outlet
  started : Bool
  stations : List Station
  /-- The tasks whose triggers are on, in the order in which they went on. -/
  active : List String
  bus : Bus String Signal
  now : Instant
  /-- What timers belong to, in the order in which they were armed. -/
  agenda : List Owner
  alarm : Option Instant

namespace Controller

structure Refusal where
  names : List String
deriving DecidableEq, Repr

def Refusal.message (refusal : Refusal) : String :=
  "task names must be unique: [" ++ ", ".intercalate (refusal.names.map Text.quoted) ++ "]"

def idle (tasks : List Task) (outlet : Outlet) : Controller :=
  ⟨tasks, outlet, false, [], [], .empty, .start, [], none⟩

def create (tasks : List Task) (outlet : Outlet) : Except Refusal Controller :=
  let names := tasks.map Task.name
  if names.Nodup then .ok (idle tasks outlet) else .error ⟨names⟩

def standingBy : String := "Standing by"

def noTasks : String := "Stopped: configuration includes no valid tasks"

def status (c : Controller) : String :=
  if c.tasks.isEmpty then noTasks
  else if c.active.isEmpty then standingBy
  else "Operating: " ++ ",".intercalate c.active

def station? (name : String) (c : Controller) : Option Station :=
  c.stations.find? fun s => s.name = name

def setStation (station : Station) (c : Controller) : Controller :=
  { c with stations := c.stations.map fun s => if s.name = station.name then station else s }

def arm (agenda : List Owner) : Effect → List Owner
  | .armed owner => agenda.filter (· ≠ owner) ++ [owner]
  | _ => agenda

def visit (step : Station → Outcome Station Effect) (name : String) (c : Controller) :
    Outcome Controller Effect :=
  match c.station? name with
  | none => .still c
  | some station =>
      let taken := step station
      ⟨{ c.setStation taken.state with agenda := taken.reports.foldl arm c.agenda }, taken.reports⟩

def activate (name : String) (c : Controller) : Controller :=
  if c.active.contains name then c else { c with active := c.active ++ [name] }

def deactivate (name : String) (c : Controller) : Controller :=
  { c with active := c.active.filter (· ≠ name) }

def reportStatus (c : Controller) : Outcome Controller Effect := ⟨c, [.status c.status]⟩

def note (task : Task) (finding : Finding) (c : Controller) : Outcome Controller Effect :=
  match finding with
  | .changed true => (c.activate task.name).reportStatus
  | .changed false => (c.deactivate task.name).reportStatus
  | .finished => .still { c with bus := c.bus.close task.name }
  | .failed text =>
      let record : Log.Record := ⟨"trigger_stream_failed", .error,
        [("task", .text task.name), ("path", .text task.trigger.path), ("error", .text text)]⟩
      let diagnostic :=
        "trigger stream for task '" ++ task.name ++ "' failed (" ++ text ++ "); stopping task"
      (Outcome.mk { c with bus := c.bus.close task.name } [.logged record, .diagnostic diagnostic]).andThen
        fun c => (c.deactivate task.name).reportStatus

def readFeed (name : String) (c : Controller) : Outcome Controller Effect :=
  match c.station? name with
  | none => .still c
  | some station =>
      let signals := c.bus.queued name
      let read := station.read signals
      Outcome.each (note station.task) read.reports
        { c.setStation read.state with bus := c.bus.take name signals.length }

def obey (name : String) (c : Controller) : Outcome Controller Effect :=
  c.visit (Station.obey c.now) name

def dispatch (name : String) (c : Controller) : Outcome Controller Effect :=
  c.visit (Station.dispatch c.outlet c.now) name

/-- Stations that have something to do: first all feeds are read, then all commands are taken up,
and then all events are put out. -/
def settle (names : List String) (c : Controller) : Outcome Controller Effect :=
  ((Outcome.each readFeed names c).andThen (Outcome.each obey names)).andThen
    (Outcome.each dispatch names)

def subscribe (task : Task) (c : Controller) : Controller :=
  { c with bus := c.bus.subscribe task.name task.trigger.path }

def schedulingText : List Task → String
  | [task] => "scheduling task '" ++ task.name ++ "'"
  | tasks => s!"scheduling {tasks.length} tasks"

def start (c : Controller) : Outcome Controller Effect :=
  if c.started then .still c
  else if c.tasks.isEmpty then ⟨{ c with started := true }, [.status noTasks]⟩
  else
    (Outcome.mk { c with started := true, stations := c.tasks.map Station.fresh }
      [.diagnostic (schedulingText c.tasks), .status standingBy]).andThen
        (Outcome.each (fun task c => (c.subscribe task).settle [task.name]) c.tasks)

def publishAll : List (String × Signal) → Controller → Controller × List String
  | [], c => (c, [])
  | (path, signal) :: rest, c =>
      let later := publishAll rest { c with bus := c.bus.publish path signal }
      (later.1, c.bus.idleReaders path ++ later.2)

/-- Signals that come in together: the stations that they wake settle in the order in which they
were woken. -/
def publish (signals : List (String × Signal)) (c : Controller) : Outcome Controller Effect :=
  let published := publishAll signals c
  published.1.settle published.2

inductive StepError
  | noStation (name : String)
  | oversize (cause : Oversize)
  | endless
deriving DecidableEq, Repr

/-- A trigger value from elsewhere than the feed: 1 is on and 0 is off, anything else is ignored. -/
def trigger (name : String) (value : Value) (c : Controller) :
    Except StepError (Outcome Controller Effect) :=
  let turn (station : Station) (on : Bool) : Outcome Controller Effect :=
    ((c.setStation (station.enqueue (Command.ofState on))).note station.task (.changed on)).andThen
      (settle [name])
  match c.station? name with
  | none => .error (.noStation name)
  | some station =>
      if value.same (.whole 1) then .ok (turn station true)
      else if value.same (.whole 0) then .ok (turn station false)
      else do
        let shown ← value.quotedText.mapError .oversize
        let message ← (Problem.trigger name value).message.mapError .oversize
        return ⟨c, [.diagnostic message,
          .logged ⟨"trigger_value_ignored", .warning,
            [("task", .text name), ("value", .text shown)]⟩]⟩

end Controller
end Cadence
