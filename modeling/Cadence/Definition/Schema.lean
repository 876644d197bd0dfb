import Cadence.Json.Write

namespace Cadence.Definition.Schema

def number (n : Int) : Value := .whole n

def field (kind title : String) (limits : List (String × Value)) : Value :=
  .record (limits ++ [("title", .text title), ("type", .text kind)])

def ofType (kind : String) : Value := .record [("type", .text kind)]

def label : Value :=
  .record [("anyOf", .list [ofType "string", ofType "null"]), ("default", .null),
    ("title", .text "Activity name")]

def listOf (definition title : String) (limits : List (String × Value)) : Value :=
  field "array" title
    (("items", .record [("$ref", .text ("#/$defs/" ++ definition))]) :: limits)

def model (title description : String) (fields : List (String × Value)) (needed : List String) :
    Value :=
  .record ([("description", .text description), ("properties", .record fields)] ++
    (if needed.isEmpty then [] else [("required", .list (needed.map .text))]) ++
    [("title", .text title), ("type", .text "object")])

def activity : Value :=
  model "ActivityConfig" "One activity as written in the configuration file."
    [("name", label),
      ("path", field "string" "Process control path" [("minLength", number 1)]),
      ("duration", field "number" "Activity duration in seconds" [("exclusiveMinimum", number 0)]),
      ("delay", field "number" "Delay start by this many seconds"
        [("default", number 0), ("minimum", number 0)]),
      ("repeat", field "integer" "How many times to repeat (0 says forever)"
        [("default", number 1), ("minimum", number 0)])]
    ["path", "duration"]

def task : Value :=
  model "TaskConfig" "One task as written in the configuration file."
    [("name", field "string" "Schedule task name" [("minLength", number 1)]),
      ("controlPath", field "string" "Path which starts and stops this task"
        [("minLength", number 1)]),
      ("activities", listOf "ActivityConfig" "Activities making up the schedule task"
        [("minItems", number 1)])]
    ["name", "controlPath", "activities"]

def configuration : Value :=
  let body := model "ScheduleConfig" "Top-level configuration block."
    [("tasks", listOf "TaskConfig" "Schedule tasks" [])] []
  match body with
  | .map entries =>
      .map ((.text "$defs", .record [("ActivityConfig", activity), ("TaskConfig", task)]) :: entries)
  | other => other

def text : String := Json.write configuration

end Cadence.Definition.Schema
