import Cadence.Settings.Environment

/-!
The library that settings are made with. It reads the environment and lays what it is given over it;
but names that are options of its own are no blocks.
-/

namespace Cadence.Settings
open Definition

structure Library where
  isOption : String → Bool
  gather : Environment → Entries → Except VariableError Entries

def isOption (name : String) : Bool := name.toList.head? = some '_'

def isBlock (entry : Value × Value) : Bool :=
  match entry.1 with
  | .text name => !isOption name
  | _ => true

def Environment.rerooted (root : String) (env : Environment) : Environment :=
  (lowerCase env).filterMap fun entry =>
    (after? (root.map smallLetter).toList entry.1.toList).map fun rest =>
      (variableRoot ++ String.ofList rest, entry.2)

def Environment.seen (env : Environment) (given : Entries) : Environment :=
  match Value.lookup given "_env_prefix" with
  | some (.text root) => env.rerooted root
  | _ => env

/-- The library as it comes. The option for the names of variables is the only one that is followed. -/
def standard [Host] : Library where
  isOption := isOption
  gather env given :=
    (env.seen given).layer.map fun under => overlayEntries under (given.filter isBlock)

end Cadence.Settings
