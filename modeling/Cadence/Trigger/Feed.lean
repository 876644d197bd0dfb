import Cadence.Trigger.Edge

namespace Cadence

variable [Host]

inductive Signal
  | value (v : Value)
  | failure (text : String)
  | finish

inductive Finding
  | changed (on : Bool)
  | failed (text : String)
  | finished
deriving DecidableEq, Repr

def Command.ofState (on : Bool) : Command := if on then .start else .stop

def Finding.command? : Finding → Option Command
  | .changed on => some (Command.ofState on)
  | .failed _ => some .stop
  | .finished => none

def Trigger.findings (trigger : Trigger) (last : Bool) : List Signal → Bool × List Finding
  | [] => (last, [])
  | .failure text :: _ => (last, [.failed text])
  | .finish :: _ => (last, [.finished])
  | .value payload :: rest =>
      match trigger.edge? last payload with
      | .error failure => (last, [.failed failure.message])
      | .ok none => findings trigger last rest
      | .ok (some state) =>
          let later := findings trigger state rest
          (later.1, .changed state :: later.2)

end Cadence
