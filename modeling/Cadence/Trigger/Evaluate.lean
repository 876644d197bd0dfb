import Cadence.Task

namespace Cadence.Trigger
open Decimal Cadence.Path

variable [Host]

inductive Failure
  | noValue
  | oversize (cause : Oversize)
deriving DecidableEq, Repr

def Failure.message : Failure → String
  | .noValue => "switch triggers always carry an on value"
  | .oversize cause => cause.message

def stateOf : Value → Value
  | .map entries => (Value.lookup entries "state").getD .null
  | .object attributes => (attributes.lookup "state").getD .null
  | _ => .null

/-- Observed and configured values match when they are equal or have the same text. -/
def valuesMatch (observed expected : Value) : Except Oversize Bool :=
  match observed with
  | .null => .ok false
  | _ =>
      if observed.same expected then .ok true
      else do
        let seen ← observed.plainText
        let wanted ← expected.plainText
        return seen = wanted

def evaluate (trigger : Trigger) (payload : Value) : Except Failure Bool :=
  match trigger.kind, trigger.on with
  | .notification, none =>
      match payload with
      | .null => .ok false
      | _ => .ok true
  | .notification, some on => (valuesMatch (stateOf payload) on).mapError .oversize
  | .switch, some on => (valuesMatch payload on).mapError .oversize
  | .switch, none => .error .noValue

end Cadence.Trigger
