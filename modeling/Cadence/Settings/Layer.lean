import Cadence.Definition.Field

namespace Cadence.Settings
open Definition

def entry? (entries : Entries) (key : Value) : Option Value :=
  (entries.find? fun entry => key.same entry.1).map (·.2)

mutual

def overlay (under : Value) : Value → Value
  | .map entries =>
      match under with
      | .map below => .map (overlayEntries below entries)
      | _ => .map entries
  | value => value

def overlayEntries (below : Entries) : Entries → Entries
  | [] => below
  | (key, value) :: rest =>
      let laid :=
        match entry? below key with
        | some under => overlay under value
        | none => value
      overlayEntries (Value.insert below key laid) rest

end

/-- Sets a value in nested maps. What stands in the way and is no map stays. -/
def assign (names : List String) (last : String) (value : Value) (entries : Entries) : Entries :=
  match names with
  | [] => Value.insert entries (.text last) value
  | name :: names =>
      match Value.lookup entries name with
      | none => Value.insert entries (.text name) (.map (assign names last value []))
      | some (.map inner) => Value.insert entries (.text name) (.map (assign names last value inner))
      | some _ => entries

end Cadence.Settings
