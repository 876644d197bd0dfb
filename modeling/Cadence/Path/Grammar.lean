import Cadence.Text.Blank
import Cadence.Text.Fields

/-!
The grammar of paths. A path is a row of non-empty names joined by single points; a path text is a
path and the values behind it, each after a colon. Values are not empty and hold no colon. The forms
of a grammar are tried one after the other.
-/

namespace Cadence.Path
open Text

inductive Kind
  | switch
  | notification
deriving DecidableEq, Repr

def Kind.name : Kind → String
  | .switch => "switch"
  | .notification => "notification"

def Kind.ofName? (name : String) : Option Kind :=
  if name = "switch" then some .switch
  else if name = "notification" then some .notification
  else none

def notificationRoot : List Char := "notifications.".toList

def Kind.of (path : String) : Kind :=
  if notificationRoot.isPrefixOf path.toList then .notification else .switch

def isNameChar (c : Char) : Bool :=
  c.isAlphanum || c = '_' || c = '-'

def isPath (text : List Char) : Bool :=
  (fields '.' text).all fun name => !name.isEmpty && name.all isNameChar

structure Pattern where
  kind : Kind
  values : Nat
deriving DecidableEq, Repr

/-- A pattern of notifications asks for a path behind their root; one of switches takes any path. -/
def Pattern.takes (pattern : Pattern) (path : List Char) : Bool :=
  match pattern.kind with
  | .notification =>
      notificationRoot.isPrefixOf path && isPath (path.drop notificationRoot.length)
  | .switch => isPath path

def Pattern.match? (pattern : Pattern) (text : List Char) : Option (String × List (List Char)) :=
  match fields ':' text with
  | [] => none
  | path :: values =>
      if pattern.takes path && values.length == pattern.values && values.all (!·.isEmpty) then
        some (String.ofList path, values)
      else none

def firstMatch? (patterns : List Pattern) (text : Option String) :
    Option (Pattern × String × List (List Char)) :=
  let plain := trim isBlank (text.getD "").toList
  patterns.findSome? fun pattern => (pattern.match? plain).map (pattern, ·)

end Cadence.Path
