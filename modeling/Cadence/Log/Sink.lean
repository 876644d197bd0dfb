import Cadence.Log.Record
import Cadence.Outcome

namespace Cadence.Log

structure Sink where
  status : String
  diagnostics : List String
deriving DecidableEq, Repr

inductive Report
  | status (text : String)
  | diagnostic (text : String)
deriving DecidableEq, Repr

namespace Sink

def empty : Sink := ⟨"", []⟩

def take (report : Report) (sink : Sink) : Outcome Sink Record :=
  match report with
  | .status text => ⟨{ sink with status := text }, [⟨"status", .info, [("status", .text text)]⟩]⟩
  | .diagnostic text =>
      ⟨{ sink with diagnostics := sink.diagnostics ++ [text] },
        [⟨"diagnostic", .debug, [("message", .text text)]⟩]⟩

end Sink
end Cadence.Log
