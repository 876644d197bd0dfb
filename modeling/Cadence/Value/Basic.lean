import Cadence.Decimal.Double

/-!
The values that hosts report and configurations hold. Tuples, sets, generators, instances of models
and objects with an equality or entries of their own are outside this domain.
-/

namespace Cadence

/-- An `object` is of a kind of the host, with attributes but no equality or entries: no other value
equals it, and the host decides how it is shown. -/
inductive Value where
  | null
  | bool (truth : Bool)
  | whole (n : Int)
  | float (x : Float)
  | text (s : String)
  | bytes (data : List UInt8)
  | list (items : List Value)
  | map (entries : List (Value × Value))
  | object (attributes : List (String × Value))
deriving Inhabited

namespace Value
open Decimal

def whole? : Value → Option Int
  | .bool truth => some (if truth then 1 else 0)
  | .whole n => some n
  | _ => none

mutual

/-- Equality: numbers by what they stand for, lists in order, maps in any order. -/
def same : Value → Value → Bool
  | .null, .null => true
  | .text s, .text t => s = t
  | .bytes s, .bytes t => s = t
  | .list xs, .list ys => sameItems xs ys
  | .map xs, .map ys => xs.length = ys.length && containedIn xs ys
  | .float x, .float y => x == y
  | .float x, other => other.whole?.any (Reading.ofFloat x).isWhole
  | value, .float y => value.whole?.any (Reading.ofFloat y).isWhole
  | value, other => value.whole?.any fun n => other.whole? = some n

def sameItems : List Value → List Value → Bool
  | [], [] => true
  | x :: xs, y :: ys => same x y && sameItems xs ys
  | _, _ => false

def containedIn : List (Value × Value) → List (Value × Value) → Bool
  | [], _ => true
  | (key, value) :: rest, entries =>
      (entries.find? fun entry => same key entry.1).any (fun entry => same value entry.2) &&
        containedIn rest entries

end

def lookup (entries : List (Value × Value)) (key : String) : Option Value :=
  (entries.find? fun entry =>
    match entry.1 with
    | .text name => name = key
    | _ => false).map (·.2)

def insert (entries : List (Value × Value)) (key value : Value) : List (Value × Value) :=
  match entries with
  | [] => [(key, value)]
  | entry :: rest =>
      if key.same entry.1 then (entry.1, value) :: rest else entry :: insert rest key value

def record (fields : List (String × Value)) : Value :=
  .map (fields.map fun field => (.text field.1, field.2))

/-- What counts as nothing: null, false, zero, and whatever is empty. -/
def isEmpty : Value → Bool
  | .null => true
  | .bool truth => !truth
  | .whole n => n = 0
  | .float x => x == 0
  | .text s => s.isEmpty
  | .bytes data => data.isEmpty
  | .list items => items.isEmpty
  | .map entries => entries.isEmpty
  | .object _ => false

def items? : Value → Option (List Value)
  | .list items => some items
  | .text s => some (s.toList.map fun c => .text (String.singleton c))
  | .bytes data => some (data.map fun byte => .whole byte.toNat)
  | .map entries => some (entries.map (·.1))
  | _ => none

def ofText? : Option String → Value
  | none => .null
  | some s => .text s

end Value
end Cadence
