import Cadence.Instant
import Cadence.Log.Record
import Cadence.Outcome
import Cadence.Task

/-!
The sequencer of a task runs its activities cycle by cycle. It waits for the delay of an activity,
switches it on, waits for its duration and switches it off; then comes the next cycle of the same
activity, or the next activity, or the end of the run. A stop ends a run at once and switches off
what is on.
-/

namespace Cadence

variable [Host]

inductive Phase
  | idle
  | delaying
  | active
deriving DecidableEq, Repr

def Phase.name : Phase → String
  | .idle => "idle"
  | .delaying => "delaying"
  | .active => "active"

structure Position where
  phase : Phase
  index : Nat
  cycle : Nat
deriving DecidableEq, Repr

def Position.rest : Position := ⟨.idle, 0, 0⟩

inductive Wait
  | delay
  | duration
deriving DecidableEq, Repr

structure Timer where
  wait : Wait
  due : Instant
deriving DecidableEq

structure Event where
  switching : Switching
  index : Nat
  activity : Activity

inductive Breach
  | noActivities
  | duration (activity : String)
  | delay (activity : String)
  | cycles (activity : String)
  | unknownCommand (value : Value)
  | timerPending
  | delayElapsed (phase : Phase)
  | durationElapsed (phase : Phase)
  | noActivity (index : Nat)

def Breach.message : Breach → Except Decimal.Oversize String
  | .noActivities => .ok "a sequencer needs at least one activity"
  | .duration activity => .ok (activity ++ ": duration must be positive")
  | .delay activity => .ok (activity ++ ": delay must not be negative")
  | .cycles activity => .ok (activity ++ ": repeat must not be negative")
  | .unknownCommand value => value.quotedText.map fun text => "unknown sequencer command: " ++ text
  | .timerPending => .ok "a sequencer holds at most one pending timer"
  | .delayElapsed phase => .ok ("delay timer fired in " ++ phase.name)
  | .durationElapsed phase => .ok ("duration timer fired in " ++ phase.name)
  | .noActivity index => .ok s!"there is no activity at index {index}"

inductive Notice
  | emitted (event : Event) (time : Instant)
  | armed (timer : Timer)
  | logged (record : Log.Record)
  | breached (breach : Breach)

structure Sequencer where
  task : String
  activities : List Activity
  position : Position
  timer : Option Timer
  completed : Nat

namespace Sequencer

def breach? (activity : Activity) : Option Breach :=
  if ¬0 < activity.duration then some (.duration activity.name)
  else if ¬0 ≤ activity.delay then some (.delay activity.name)
  else if activity.cycles < 0 then some (.cycles activity.name)
  else none

def idle (task : String) (activities : List Activity) : Sequencer :=
  ⟨task, activities, .rest, none, 0⟩

def create (task : String) (activities : List Activity) : Except Breach Sequencer :=
  if activities.isEmpty then .error .noActivities
  else
    match activities.findSome? breach? with
    | some breach => .error breach
    | none => .ok (idle task activities)

def isIdle (s : Sequencer) : Bool := s.position.phase = .idle

def current? (s : Sequencer) : Option Activity :=
  if s.isIdle then none else s.activities[s.position.index]?

def debug (s : Sequencer) (event : String) (fields : List (String × Value)) : Notice :=
  .logged ⟨event, .debug, ("task", .text s.task) :: fields⟩

def arm (timer : Timer) (s : Sequencer) : Outcome Sequencer Notice :=
  match s.timer with
  | none => ⟨{ s with timer := some timer }, [.armed timer]⟩
  | some _ => ⟨s, [.breached .timerPending]⟩

def activate (now : Instant) (index cycle : Nat) (s : Sequencer) : Outcome Sequencer Notice :=
  match s.activities[index]? with
  | none => ⟨s, [.breached (.noActivity index)]⟩
  | some activity =>
      (Outcome.mk { s with position := ⟨.active, index, cycle⟩ }
        [.emitted ⟨.on, index, activity⟩ now]).andThen
          (arm ⟨.duration, now.after activity.duration⟩)

def enter (now : Instant) (index cycle : Nat) (s : Sequencer) : Outcome Sequencer Notice :=
  match s.activities[index]? with
  | none => ⟨s, [.breached (.noActivity index)]⟩
  | some activity =>
      if 0 < activity.delay then
        arm ⟨.delay, now.after activity.delay⟩ { s with position := ⟨.delaying, index, cycle⟩ }
      else activate now index cycle s

def start (now : Instant) (s : Sequencer) : Outcome Sequencer Notice :=
  if s.isIdle then (Outcome.mk s [s.debug "sequencer_started" []]).andThen (enter now 0 0)
  else ⟨s, [s.debug "sequencer_start_ignored" [("phase", .text s.position.phase.name)]]⟩

def stop (now : Instant) (s : Sequencer) : Outcome Sequencer Notice :=
  if s.isIdle then .still s
  else
    let off :=
      if s.position.phase = .active then
        match s.activities[s.position.index]? with
        | some activity => [.emitted ⟨.off, s.position.index, activity⟩ now]
        | none => [.breached (.noActivity s.position.index)]
      else []
    ⟨{ s with position := .rest, timer := none },
      off ++ [s.debug "sequencer_stopped"
        [("phase", .text s.position.phase.name), ("index", .whole s.position.index),
          ("repeat_count", .whole s.position.cycle)]]⟩

def handle (now : Instant) (command : Command) : Sequencer → Outcome Sequencer Notice :=
  match command with
  | .start => start now
  | .stop => stop now

def proceed (now : Instant) (activity : Activity) (s : Sequencer) : Outcome Sequencer Notice :=
  let position := s.position
  if activity.cycles = 0 || (position.cycle + 1 : Int) < activity.cycles then
    enter now position.index (position.cycle + 1) s
  else if position.index + 1 < s.activities.length then enter now (position.index + 1) 0 s
  else
    ⟨{ s with position := .rest, completed := s.completed + 1 },
      [s.debug "sequencer_completed" []]⟩

def delayElapsed (now : Instant) (s : Sequencer) : Outcome Sequencer Notice :=
  if s.position.phase = .delaying then activate now s.position.index s.position.cycle s
  else ⟨s, [.breached (.delayElapsed s.position.phase)]⟩

def durationElapsed (now : Instant) (s : Sequencer) : Outcome Sequencer Notice :=
  if s.position.phase = .active then
    match s.activities[s.position.index]? with
    | none => ⟨s, [.breached (.noActivity s.position.index)]⟩
    | some activity =>
        (Outcome.mk s [.emitted ⟨.off, s.position.index, activity⟩ now]).andThen
          (proceed now activity)
  else ⟨s, [.breached (.durationElapsed s.position.phase)]⟩

def fire (s : Sequencer) : Outcome Sequencer Notice :=
  match s.timer with
  | none => .still s
  | some timer =>
      match timer.wait with
      | .delay => delayElapsed timer.due { s with timer := none }
      | .duration => durationElapsed timer.due { s with timer := none }

end Sequencer
end Cadence
