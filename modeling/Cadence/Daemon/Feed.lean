import Cadence.Controller.Clock
import Cadence.Daemon.Line

namespace Cadence.Daemon

variable [Host]
inductive Item
  | line (text : String)
  | wait (seconds : Float)
  | interrupt

inductive Report
  | effect (effect : Effect)
  | reading
  | invalid (line : String)
  | closed (published : Nat)

/-- How the input came to an end: it is over after a number of signals, or was interrupted, or a line
goes beyond a limit. -/
inductive Ending
  | closed (published : Nat)
  | interrupted
  | beyond (excess : Json.Excess)
deriving DecidableEq, Repr

structure Fed where
  controller : Controller
  ending : Ending

def run (outcome : Outcome Controller Effect) : Outcome Controller Report :=
  ⟨outcome.state, outcome.reports.map .effect⟩

def finish (ending : Ending) (c : Controller) : Outcome Fed Report := .still ⟨c, ending⟩

def after (first : Outcome Controller Report) (next : Controller → Outcome Fed Report) :
    Outcome Fed Report :=
  let second := next first.state
  ⟨second.state, first.reports ++ second.reports⟩

def feed (published : Nat) : List Item → Controller → Outcome Fed Report
  | [], c => after ⟨c, [.reading]⟩ (finish (.closed published))
  | .wait seconds :: rest, c => after (run (c.advance seconds)) (feed published rest)
  | .interrupt :: _, c => after ⟨c, [.reading]⟩ (finish .interrupted)
  | .line text :: rest, c =>
      after ⟨c, [.reading]⟩ fun c =>
        match Line.read text with
        | .error excess => finish (.beyond excess) c
        | .ok .blank => feed published rest c
        | .ok (.invalid line) => after ⟨c, [.invalid line]⟩ (feed published rest)
        | .ok (.signal path value) =>
            after (run (c.publish [(path, .value value)])) (feed (published + 1) rest)

end Cadence.Daemon
