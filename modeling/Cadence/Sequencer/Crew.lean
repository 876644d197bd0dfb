import Cadence.Sequencer.Basic

/-!
A sequencer on a clock, with a queue of commands and workers that take them. A command wakes the
worker that has waited longest; a worker that is awake takes all commands that are there. A worker
that is dismissed stops the sequencer on its way out.
-/

namespace Cadence

structure Crew where
  sequencer : Sequencer
  now : Instant
  pending : List Command
  waiting : List Nat
  hired : Nat

namespace Crew

inductive Report
  | taken (worker : Nat) (command : Command)
  | notice (notice : Notice)

def create (task : String) (activities : List Activity) : Except Breach Crew :=
  (Sequencer.create task activities).map fun sequencer => ⟨sequencer, .start, [], [], 0⟩

def run (step : Sequencer → Outcome Sequencer Notice) (crew : Crew) : Outcome Crew Report :=
  let outcome := step crew.sequencer
  ⟨{ crew with sequencer := outcome.state }, outcome.reports.map .notice⟩

def handle (command : Command) (crew : Crew) : Outcome Crew Report :=
  crew.run (Sequencer.handle crew.now command)

def refuse (value : Value) (crew : Crew) : Outcome Crew Report :=
  ⟨crew, [.notice (.breached (.unknownCommand value))]⟩

def take (worker : Nat) (command : Command) (crew : Crew) : Outcome Crew Report :=
  (Outcome.mk crew [.taken worker command]).andThen (handle command)

/-- Each pending command has woken one waiting worker, as long as there were any. The first of them
takes all commands; all of them then wait again, behind the others. -/
def settle (crew : Crew) : Outcome Crew Report :=
  match crew.waiting with
  | [] => .still crew
  | worker :: _ =>
      let woken := crew.pending.length
      let waiting := crew.waiting.drop woken ++ crew.waiting.take woken
      Outcome.each (take worker) crew.pending { crew with pending := [], waiting := waiting }

def enqueue (command : Command) (crew : Crew) : Crew :=
  { crew with pending := crew.pending ++ [command] }

def submit (oneByOne : Bool) (commands : List Command) (crew : Crew) : Outcome Crew Report :=
  if oneByOne then Outcome.each (fun command crew => (crew.enqueue command).settle) commands crew
  else { crew with pending := crew.pending ++ commands }.settle

def hire (crew : Crew) : Outcome Crew Report :=
  { crew with waiting := crew.waiting ++ [crew.hired], hired := crew.hired + 1 }.settle

def dismiss (crew : Crew) : Outcome Crew Report :=
  match crew.waiting.min? with
  | none => .still crew
  | some oldest => handle .stop { crew with waiting := crew.waiting.erase oldest }

def fireBy? (target : Instant) (crew : Crew) : Option (Outcome Crew Report) :=
  match crew.sequencer.timer with
  | none => none
  | some timer =>
      if timer.due.isBy target then some ({ crew with now := timer.due }.run Sequencer.fire)
      else none

def fireAll (target : Instant) : Nat → Crew → Outcome Crew Report
  | 0, crew => .still crew
  | fuel + 1, crew =>
      match crew.fireBy? target with
      | none => .still crew
      | some outcome => outcome.andThen (fireAll target fuel)

def arriveAt (target : Instant) (crew : Crew) : Crew :=
  if (crew.fireBy? target).isSome then crew else { crew with now := target }

def advance (seconds : Float) (crew : Crew) : Outcome Crew Report :=
  let target := crew.now.after seconds
  (fireAll target patience crew).andThen fun crew => .still (crew.arriveAt target)

inductive Step
  | handle (command : Command)
  | refuse (value : Value)
  | submit (oneByOne : Bool) (commands : List Command)
  | hire
  | dismiss
  | advance (seconds : Float)

def step : Step → Crew → Outcome Crew Report
  | .handle command => handle command
  | .refuse value => refuse value
  | .submit oneByOne commands => submit oneByOne commands
  | .hire => hire
  | .dismiss => dismiss
  | .advance seconds => advance seconds

end Crew
end Cadence
