import Cadence.Decimal.Literal
import Cadence.Value.Basic

namespace Cadence.Path
open Decimal Text

def dropLineEnd : List Char → List Char
  | [] => []
  | ['\n'] => []
  | c :: rest => c :: dropLineEnd rest

/-- A number if the text reads as one, with digits of any script, and else the text. -/
def scalar (text : List Char) : Except Oversize Value :=
  match Literal.read? digit? (dropLineEnd text) with
  | none => .ok (.text (String.ofList text))
  | some literal =>
      if literal.isWhole then (wholeOfDigits literal.negative literal.whole).map .whole
      else .ok (.float literal.toFloat)

end Cadence.Path
