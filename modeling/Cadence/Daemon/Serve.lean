import Cadence.Daemon.Feed
import Cadence.Roster

namespace Cadence.Daemon

variable [Host]
inductive Failure
  | interrupted
  | beyond (excess : Json.Excess)
  | definitions (cause : Roster.ReadError)
deriving DecidableEq, Repr

structure Served where
  final : Except Failure String
  clock : Instant

def statusOf (reports : List Report) : String :=
  (reports.reverse.findSome? fun
    | .effect (.status text) => some text
    | _ => none).getD ""

def linger (seconds : Float) (c : Controller) : Option (Outcome Controller Report) :=
  if 0 < seconds then (c.linger seconds).map run else some (.still c)

def close (seconds : Float) (fed : Fed) : Option (Outcome Controller Report) :=
  match fed.ending with
  | .closed published => (linger seconds fed.controller).map fun outcome =>
      ⟨outcome.state, .closed published :: outcome.reports⟩
  | _ => some (.still fed.controller)

def stop (c : Controller) : Option (Outcome Controller Report) := c.stop.map run

def result (ending : Ending) (reports : List Report) : Except Failure String :=
  match ending with
  | .closed _ => .ok (statusOf reports)
  | .interrupted => .error .interrupted
  | .beyond excess => .error (.beyond excess)

def serveTasks (tasks : List Task) (outlet : Outlet) (items : List Item) (seconds : Float) :
    Option (Outcome Served Report) := do
  let started := run (Controller.idle tasks outlet).start
  let fed := feed 0 items started.state
  let closed ← close seconds fed.state
  let stopped ← stop closed.state
  let reports := started.reports ++ fed.reports ++ closed.reports ++ stopped.reports
  return ⟨⟨result fed.state.ending reports, stopped.state.now⟩, reports⟩

def reportDropped (dropped : List Drop) : List Report :=
  dropped.map fun drop => .effect (.diagnostic drop.message)

/-- Serves raw definitions, after a diagnostic for each one that is dropped. There is no outcome if
the tasks never come to an end. -/
def serve (definitions : Value) (outlet : Outlet) (items : List Item) (seconds : Float) :
    Option (Outcome Served Report) :=
  match Roster.ofValue definitions with
  | .error cause => some ⟨⟨.error (.definitions cause), .start⟩, reportDropped cause.dropped⟩
  | .ok roster =>
      (serveTasks roster.tasks outlet items seconds).map fun served =>
        ⟨served.state, reportDropped roster.dropped ++ served.reports⟩

def stretches : List Report → List (List Report)
  | [] => [[]]
  | .reading :: rest => [] :: stretches rest
  | report :: rest =>
      match stretches rest with
      | [] => [[report]]
      | first :: others => (report :: first) :: others

def printed (reports : List Report) : List String :=
  reports.filterMap fun
    | .effect (.called _ call _) => call.markup.toOption
    | _ => none

end Cadence.Daemon
