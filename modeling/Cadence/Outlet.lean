import Cadence.Log.Record
import Cadence.Output
import Cadence.Sequencer.Basic

/-!
The outlet of the scheduler turns events into calls. Some calls fail, and calls may take time; what
is called does not depend on either.
-/

namespace Cadence
open Cadence.Path

variable [Host]

structure Outlet where
  onMessage : String
  offMessage : String
  faults : List (String × String)
  delay : Float

namespace Outlet

def onMessageDefault : String := "Scheduler ON event"

def offMessageDefault : String := "Scheduler OFF event"

def isDelayed (outlet : Outlet) : Bool := 0 < outlet.delay

def call (outlet : Outlet) (event : Event) : Call :=
  let activity := event.activity
  match event.switching, activity.kind, activity.off with
  | .on, .notification, _ => .notify activity.path activity.on outlet.onMessage
  | .on, .switch, _ => .write activity.path activity.on
  | .off, .notification, some off => .notify activity.path off outlet.offMessage
  | .off, .notification, none => .cancel activity.path
  | .off, .switch, off => .write activity.path (off.getD .null)

def shown (value : Value) : String :=
  match value.plainText with
  | .ok text => text
  | .error cause => cause.message

def purpose : Call → String
  | .write path value => "setting '" ++ path ++ "' to '" ++ shown value ++ "'"
  | .notify path state _ => "issuing '" ++ shown state ++ "' notification on '" ++ path ++ "'"
  | .cancel path => "cancelling notification on '" ++ path ++ "'"

def announcement (outlet : Outlet) (event : Event) : String :=
  (match event.switching with
    | .on => "starting activity '"
    | .off => "stopping activity '") ++
    event.activity.name ++ "' (" ++ purpose (outlet.call event) ++ ")"

def answer (outlet : Outlet) (event : Event) : Except String Unit :=
  match outlet.faults.lookup event.activity.path with
  | some text => .error text
  | none => .ok ()

def failure (event : Event) (text : String) : Log.Record :=
  ⟨"output_failed", .error,
    [("activity", .text event.activity.name), ("event_kind", .text event.switching.name),
      ("path", .text event.activity.path), ("error", .text text)]⟩

end Outlet
end Cadence
