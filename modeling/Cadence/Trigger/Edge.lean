import Cadence.Trigger.Evaluate

namespace Cadence.Trigger

variable [Host]

def edge? (trigger : Trigger) (last : Bool) (payload : Value) : Except Failure (Option Bool) :=
  (trigger.evaluate payload).map fun state => if state = last then none else some state

/-- The changes in a stream, each with the index of its payload; an evaluation that fails ends the
stream. -/
def edgesFrom (trigger : Trigger) (index : Nat) (last : Bool) :
    List Value → List (Nat × Bool) × Option Failure
  | [] => ([], none)
  | payload :: rest =>
      match trigger.edge? last payload with
      | .error failure => ([], some failure)
      | .ok none => edgesFrom trigger (index + 1) last rest
      | .ok (some state) =>
          let later := edgesFrom trigger (index + 1) state rest
          ((index, state) :: later.1, later.2)

def edges (trigger : Trigger) (payloads : List Value) : List (Nat × Bool) × Option Failure :=
  edgesFrom trigger 0 false payloads

end Cadence.Trigger
