import Cadence.Outlet
import Cadence.Trigger.Feed

/-!
A station runs one task: the findings of its feed become commands, its sequencer turns commands and
time into events, and the events are put out one after the other. A call that takes time holds back
the events behind it, but not the sequencer.
-/

namespace Cadence

variable [Host]

inductive Owner
  | sequencer (task : String)
  | call (task : String)
  | alarm
deriving DecidableEq, Repr

inductive Effect
  | status (text : String)
  | diagnostic (text : String)
  | commanded (task : String) (command : Command)
  | happened (task : String) (event : Event) (time : Instant)
  | called (task : String) (call : Call) (time : Instant)
  | logged (record : Log.Record)
  | armed (owner : Owner)

structure Attempt where
  effects : List Effect
  answer : Except String Unit

/-- A refusal is handled where it is caught and goes no further. -/
def Attempt.caught (attempt : Attempt) (handler : String → List Effect) : List Effect :=
  match attempt.answer with
  | .ok () => attempt.effects
  | .error text => attempt.effects ++ handler text

structure Station where
  task : Task
  isOn : Bool
  sequencer : Sequencer
  commands : List Command
  outbox : List Event
  inFlight : Option (Event × Instant)

namespace Station

def fresh (task : Task) : Station :=
  ⟨task, false, .idle task.name task.activities, [], [], none⟩

def name (s : Station) : String := s.task.name

def isQuiet (s : Station) : Bool := s.outbox.isEmpty && s.inFlight.isNone

def enqueue (command : Command) (s : Station) : Station :=
  { s with commands := s.commands ++ [command] }

def read (signals : List Signal) (s : Station) : Outcome Station Finding :=
  let found := s.task.trigger.findings s.isOn signals
  ⟨{ s with
      isOn := found.1
      commands := s.commands ++ found.2.filterMap Finding.command? }, found.2⟩

def eventOf? : Notice → Option Event
  | .emitted event _ => some event
  | _ => none

def effectOf? (task : String) : Notice → Option Effect
  | .emitted event time => some (.happened task event time)
  | .armed _ => some (.armed (.sequencer task))
  | .logged record => some (.logged record)
  | .breached _ => none

def absorb (step : Outcome Sequencer Notice) (s : Station) : Outcome Station Effect :=
  ⟨{ s with
      sequencer := step.state
      outbox := s.outbox ++ step.reports.filterMap eventOf? },
    step.reports.filterMap (effectOf? s.name)⟩

def handle (now : Instant) (command : Command) (s : Station) : Outcome Station Effect :=
  s.absorb (s.sequencer.handle now command)

def obey (now : Instant) (s : Station) : Outcome Station Effect :=
  Outcome.each
    (fun command s => (Outcome.mk s [.commanded s.name command]).andThen (handle now command))
    s.commands { s with commands := [] }

def fire (s : Station) : Outcome Station Effect := s.absorb s.sequencer.fire

def attempt (outlet : Outlet) (now : Instant) (event : Event) (s : Station) : Attempt :=
  ⟨[.called s.name (outlet.call event) now], outlet.answer event⟩

def put (outlet : Outlet) (now : Instant) (event : Event) (s : Station) : List Effect :=
  (s.attempt outlet now event).caught fun text => [.logged (Outlet.failure event text)]

def putFirst (outlet : Outlet) (now : Instant) (event : Event) (s : Station) :
    Outcome Station Effect :=
  ⟨{ s with outbox := s.outbox.tail },
    .diagnostic (outlet.announcement event) :: s.put outlet now event⟩

/-- Puts out the events that wait. If calls take time only the first one gets on its way. -/
def dispatch (outlet : Outlet) (now : Instant) (s : Station) : Outcome Station Effect :=
  match s.inFlight, s.outbox with
  | some _, _ => .still s
  | none, [] => .still s
  | none, event :: rest =>
      if outlet.isDelayed then
        ⟨{ s with outbox := rest, inFlight := some (event, now.after outlet.delay) },
          [.diagnostic (outlet.announcement event), .armed (.call s.name)]⟩
      else
        Outcome.each (putFirst outlet now) (event :: rest) s

def arrive (outlet : Outlet) (s : Station) : Outcome Station Effect :=
  match s.inFlight with
  | none => .still s
  | some (event, due) => ⟨{ s with inFlight := none }, s.put outlet due event⟩

def due? (s : Station) : Owner → Option Instant
  | .sequencer _ => s.sequencer.timer.map (·.due)
  | .call _ => s.inFlight.map (·.2)
  | .alarm => none

end Station
end Cadence
