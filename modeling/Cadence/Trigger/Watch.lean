import Cadence.Outcome
import Cadence.Trigger.Feed

namespace Cadence.Trigger

inductive Ending
  | finished
  | failed (text : String)
  | refused (failure : Failure)
  | left
deriving DecidableEq, Repr

structure Watch where
  last : Bool
  read : Nat
  ending : Option Ending

namespace Watch

inductive Doing
  | opened (path : String)
  | changed (index : Nat) (state : Bool)
  | closed
  | ended (ending : Ending)
deriving DecidableEq, Repr

def fresh : Watch := ⟨false, 0, none⟩

def finish (ending : Ending) (watch : Watch) : Outcome Watch Doing :=
  ⟨{ watch with ending := some ending }, [.closed, .ended ending]⟩

variable [Host]

def hear (trigger : Trigger) (signal : Signal) (watch : Watch) : Outcome Watch Doing :=
  match signal with
  | .finish => watch.finish .finished
  | .failure text => watch.finish (.failed text)
  | .value payload =>
      match trigger.edge? watch.last payload with
      | .error failure => watch.finish (.refused failure)
      | .ok none => .still { watch with read := watch.read + 1 }
      | .ok (some state) =>
          ⟨{ watch with last := state, read := watch.read + 1 }, [.changed watch.read state]⟩

end Watch

structure Watched where
  trigger : Trigger
  watches : List Watch

namespace Watched
open Watch

structure Report where
  watch : Nat
  doing : Doing
deriving DecidableEq, Repr

inductive Step
  | watch
  | hand (watch : Nat) (signal : Signal)
  | leave (watch : Nat)

def visit (step : Watch → Outcome Watch Doing) (place : Nat) (w : Watched) :
    Outcome Watched Report :=
  match w.watches[place]? with
  | some watch =>
      if watch.ending.isNone then
        let taken := step watch
        ⟨{ w with watches := w.watches.set place taken.state }, taken.reports.map (⟨place, ·⟩)⟩
      else .still w
  | none => .still w

def begin (w : Watched) : Outcome Watched Report :=
  ⟨{ w with watches := w.watches ++ [fresh] }, [⟨w.watches.length, .opened w.trigger.path⟩]⟩

variable [Host]

def step : Step → Watched → Outcome Watched Report
  | .watch, w => w.begin
  | .hand place signal, w => w.visit (hear w.trigger signal) place
  | .leave place, w => w.visit (finish .left) place

def run : List Step → Watched → Outcome Watched Report := Outcome.each step

end Watched
end Cadence.Trigger
