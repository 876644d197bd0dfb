import Cadence.Bus.Basic
import Cadence.Outcome
import Cadence.Value.Basic

namespace Cadence.Bus

inductive Stage
  | unopened
  | open (waiting : Bool)
  | ended
deriving DecidableEq, Repr

structure Stream where
  path : String
  stage : Stage
deriving DecidableEq, Repr

structure Streams where
  bus : Bus String Value
  streams : List (String × Stream)

inductive Delivery
  | value (v : Value)
  | finished
  | cancelled

inductive Request
  | publish (path : String) (value : Value)
  | open (name path : String)
  | next (name : String)
  | cancel (name : String)
  | close (name : String)
  | last (path : String)
  | count (path : String)

inductive Reply
  | last (value : Value)
  | count (number : Nat)
  | busy

def Reply.busyMessage : String := "aclose(): asynchronous generator is already running"

inductive Report
  | reply (reply : Reply)
  | delivered (name : String) (delivery : Delivery)

namespace Streams

def empty : Streams := ⟨.empty, []⟩

def stage? (name : String) (all : Streams) : Option Stage :=
  (all.streams.lookup name).map (·.stage)

def setStage (name : String) (stage : Stage) (all : Streams) : Streams :=
  { all with
    streams := all.streams.map fun entry =>
      if entry.1 = name then (name, { entry.2 with stage := stage }) else entry }

def make (name path : String) (all : Streams) : Streams where
  bus := all.bus.close name
  streams := all.streams.filter (·.1 ≠ name) ++ [(name, ⟨path, .unopened⟩)]

def read (name : String) (all : Streams) : Outcome Streams Report :=
  match all.bus.queued name with
  | [] => .still (all.setStage name (.open true))
  | value :: _ =>
      ⟨{ all with bus := all.bus.take name 1 }.setStage name (.open false),
        [.delivered name (.value value)]⟩

def subscribe (name : String) (all : Streams) : Streams :=
  match all.streams.lookup name with
  | some stream => { all with bus := all.bus.subscribe name stream.path }
  | none => all

def next (name : String) (all : Streams) : Outcome Streams Report :=
  match all.stage? name with
  | some .unopened => (all.subscribe name).read name
  | some (.open false) => all.read name
  | some (.open true) => .still all
  | some .ended => ⟨all, [.delivered name .finished]⟩
  | none => .still all

def finish (name : String) (all : Streams) : Streams :=
  { all with bus := all.bus.close name }.setStage name .ended

def cancel (name : String) (all : Streams) : Outcome Streams Report :=
  match all.stage? name with
  | some (.open true) => ⟨all.finish name, [.delivered name .cancelled]⟩
  | _ => .still all

def close (name : String) (all : Streams) : Outcome Streams Report :=
  match all.stage? name with
  | some (.open true) => ⟨all, [.reply .busy]⟩
  | some .ended | none => .still all
  | some _ => .still (all.finish name)

def waiting (all : Streams) : List String :=
  (all.streams.filter fun entry => entry.2.stage = .open true).map (·.1)

def publish (path : String) (value : Value) (all : Streams) : Outcome Streams Report :=
  Outcome.each read all.waiting { all with bus := all.bus.publish path value }

def step : Request → Streams → Outcome Streams Report
  | .publish path value, all => all.publish path value
  | .open name path, all => .still (all.make name path)
  | .next name, all => all.next name
  | .cancel name, all => all.cancel name
  | .close name, all => all.close name
  | .last path, all => ⟨all, [.reply (.last ((all.bus.last? path).getD .null))]⟩
  | .count path, all => ⟨all, [.reply (.count (all.bus.count path))]⟩

end Streams
end Cadence.Bus
