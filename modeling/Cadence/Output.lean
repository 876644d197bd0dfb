import Cadence.Text.Markup
import Cadence.Value.Text

namespace Cadence
open Decimal Text

variable [Host]

inductive Call
  | write (path : String) (value : Value)
  | notify (path : String) (state : Value) (message : String)
  | cancel (path : String)

namespace Call

def method : Call → String
  | .write .. => "write"
  | .notify .. => "notify"
  | .cancel _ => "cancel_notification"

def path : Call → String
  | .write path _ => path
  | .notify path _ _ => path
  | .cancel path => path

def value : Call → Value
  | .write _ value => value
  | .notify _ state _ => state
  | .cancel _ => .null

def message : Call → String
  | .notify _ _ message => message
  | _ => ""

def markup : Call → Except Oversize String
  | .write path value =>
      value.plainText.map fun text =>
        "[cyan]write[/cyan] " ++ escapeMarkup path ++ " = [bold]" ++ escapeMarkup text ++ "[/bold]"
  | .notify path state message =>
      state.plainText.map fun text =>
        "[magenta]notify[/magenta] " ++ escapeMarkup path ++ " state=[bold]" ++ escapeMarkup text ++
          "[/bold]" ++ (if message.isEmpty then "" else " (" ++ escapeMarkup message ++ ")")
  | .cancel path => .ok ("[yellow]cancel[/yellow] " ++ escapeMarkup path)

end Call

structure Panel where
  values : List (String × Value)
  notifications : List (String × Value)

namespace Panel

def empty : Panel := ⟨[], []⟩

def set (path : String) (value : Value) (entries : List (String × Value)) : List (String × Value) :=
  entries.filter (·.1 ≠ path) ++ [(path, value)]

def record (panel : Panel) : Call → Panel
  | .write path value => { panel with values := set path value panel.values }
  | .notify path state _ => { panel with notifications := set path state panel.notifications }
  | .cancel path =>
      { panel with notifications := panel.notifications.filter (·.1 ≠ path) }

def ofCalls (calls : List Call) : Panel := calls.foldl record empty

end Panel
end Cadence
