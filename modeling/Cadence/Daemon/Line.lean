import Cadence.Json.Read
import Cadence.Text.Blank

namespace Cadence.Daemon
open Text

variable [Host]

inductive Line
  | blank
  | signal (path : String) (value : Value)
  | invalid (text : String)

def signal? : Value → Option (String × Value)
  | .map entries =>
      match Value.lookup entries "path" with
      | some (.text path) => some (path, (Value.lookup entries "value").getD .null)
      | _ => none
  | _ => none

def Line.read (text : String) : Except Json.Excess Line :=
  let text := strip text
  if text.isEmpty then .ok .blank
  else
    match Json.read text with
    | .error (.beyond excess) => .error excess
    | .error .malformed => .ok (.invalid text)
    | .ok value =>
        match signal? value with
        | some (path, value) => .ok (.signal path value)
        | none => .ok (.invalid text)

end Cadence.Daemon
