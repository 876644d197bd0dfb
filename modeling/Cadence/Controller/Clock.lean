import Cadence.Controller.Basic

/-!
The clock of a controller. Timers fire in the order in which they are due, and those due together in
the order in which they were armed; the clock then stands at the time the timer was due. This is a
choice among the orders that event loops leave open: they may as well fire timers that are due
together in another order, or all of them before anything that waited for the first goes on.
-/

namespace Cadence

variable [Host]

def Outcome.followedBy {σ ε : Type} (first : Outcome σ ε) (next : σ → Option (Outcome σ ε)) :
    Option (Outcome σ ε) :=
  (next first.state).map fun second => ⟨second.state, first.reports ++ second.reports⟩

namespace Controller

def due? (c : Controller) : Owner → Option Instant
  | .alarm => c.alarm
  | .sequencer name => (c.station? name).bind fun s => s.due? (.sequencer name)
  | .call name => (c.station? name).bind fun s => s.due? (.call name)

def earliest? : List (Owner × Instant) → Option (Owner × Instant)
  | [] => none
  | timer :: rest =>
      match earliest? rest with
      | none => some timer
      | some other => if timer.2 ≤ other.2 then some timer else some other

def timers (c : Controller) : List (Owner × Instant) :=
  c.agenda.filterMap fun owner => (c.due? owner).map fun due => (owner, due)

def next? (c : Controller) : Option (Owner × Instant) := earliest? c.timers

def fire (owner : Owner) (due : Instant) (c : Controller) : Outcome Controller Effect :=
  let c := { c with now := due }
  match owner with
  | .alarm => .still { c with alarm := none }
  | .sequencer name => (c.visit Station.fire name).andThen (dispatch name)
  | .call name => (c.visit (Station.arrive c.outlet) name).andThen (dispatch name)

def nextBy? (target : Instant) (c : Controller) : Option (Owner × Instant) :=
  c.next?.filter fun timer => timer.2.isBy target

def fireBy (target : Instant) : Nat → Controller → Outcome Controller Effect
  | 0, c => .still c
  | fuel + 1, c =>
      match c.nextBy? target with
      | none => .still c
      | some (owner, due) => (c.fire owner due).andThen (fireBy target fuel)

/-- The clock gets to a time, unless there is no end to the timers due before it. -/
def arriveAt (target : Instant) (c : Controller) : Controller :=
  if (c.nextBy? target).isSome then c else { c with now := target }

def advance (seconds : Float) (c : Controller) : Outcome Controller Effect :=
  let target := c.now.after seconds
  (fireBy target patience c).andThen fun c => .still (c.arriveAt target)

def wait (isOver : Controller → Bool) : Nat → Controller → Option (Outcome Controller Effect)
  | 0, c => if isOver c then some (.still c) else none
  | fuel + 1, c =>
      if isOver c then some (.still c)
      else
        match c.next? with
        | none => none
        | some (owner, due) => (c.fire owner due).followedBy (wait isOver fuel)

def isQuiet (name : String) (c : Controller) : Bool := (c.station? name).all Station.isQuiet

/-- Takes a station off the bus, stops its sequencer and waits until all its events are put out. -/
def release (name : String) (c : Controller) : Option (Outcome Controller Effect) :=
  (({ c with bus := c.bus.close name }.visit (Station.handle c.now .stop) name).andThen
    (dispatch name)).followedBy (wait (isQuiet name) patience)

def releaseAll : List String → Controller → Option (Outcome Controller Effect)
  | [], c => some (.still c)
  | name :: rest, c => (c.release name).bind fun outcome => outcome.followedBy (releaseAll rest)

/-- Stops all tasks one after the other. There is no outcome if the calls that are still on their
way never come to an end. -/
def stop (c : Controller) : Option (Outcome Controller Effect) :=
  if c.started then
    (releaseAll (c.stations.map Station.name) c).map fun outcome =>
      outcome.andThen fun c =>
        .still { c with started := false, stations := [], active := [], agenda := [] }
  else some (.still c)

/-- Lets a stretch of time pass that ends together with a timer armed at its start. -/
def linger (seconds : Float) (c : Controller) : Option (Outcome Controller Effect) :=
  wait (fun c => c.alarm.isNone) patience
    { c with
      alarm := some (c.now.after seconds)
      agenda := c.agenda.filter (· ≠ .alarm) ++ [.alarm] }

inductive Step
  | start
  | stop
  | publish (signals : List (String × Signal))
  | advance (seconds : Float)
  | trigger (task : String) (value : Value)

def step : Step → Controller → Except StepError (Outcome Controller Effect)
  | .start, c => .ok c.start
  | .stop, c => (c.stop).elim (.error .endless) .ok
  | .publish signals, c => .ok (c.publish signals)
  | .advance seconds, c => .ok (c.advance seconds)
  | .trigger task value, c => c.trigger task value

end Controller
end Cadence
