import Cadence.Proofs.Controller.Drain
import Cadence.Proofs.Definition.Drives
import Mathlib.Data.List.Forall2

namespace Cadence
open Cadence.Path Effect Sequencer

inductive Asks (outlet : Outlet) : Event → Call → Prop
  | notifyOn {event : Event} (switching : event.switching = .on)
      (kind : event.activity.kind = .notification) :
      Asks outlet event (.notify event.activity.path event.activity.on outlet.onMessage)
  | writeOn {event : Event} (switching : event.switching = .on)
      (kind : event.activity.kind = .switch) :
      Asks outlet event (.write event.activity.path event.activity.on)
  | notifyOff {event : Event} {off : Value} (switching : event.switching = .off)
      (kind : event.activity.kind = .notification) (value : event.activity.off = some off) :
      Asks outlet event (.notify event.activity.path off outlet.offMessage)
  | cancel {event : Event} (switching : event.switching = .off)
      (kind : event.activity.kind = .notification) (value : event.activity.off = none) :
      Asks outlet event (.cancel event.activity.path)
  | writeOff {event : Event} {off : Value} (switching : event.switching = .off)
      (kind : event.activity.kind = .switch) (value : event.activity.off = some off) :
      Asks outlet event (.write event.activity.path off)

variable {outlet : Outlet} {event : Event}

theorem asks_call (complete : event.activity.toDrive.Complete) :
    Asks outlet event (outlet.call event) := by
  cases switching : event.switching with
  | on =>
      cases kind : event.activity.kind with
      | switch =>
          have call : outlet.call event = .write event.activity.path event.activity.on := by
            simp [Outlet.call, switching, kind]
          rw [call]
          exact .writeOn switching kind
      | notification =>
          have call : outlet.call event =
              .notify event.activity.path event.activity.on outlet.onMessage := by
            simp [Outlet.call, switching, kind]
          rw [call]
          exact .notifyOn switching kind
  | off =>
      cases kind : event.activity.kind with
      | switch =>
          obtain ⟨off, value, -⟩ := complete.off kind
          have call : outlet.call event = .write event.activity.path off := by
            simp [Outlet.call, switching, kind, value]
          rw [call]
          exact .writeOff switching kind value
      | notification =>
          cases value : event.activity.off with
          | none =>
              have call : outlet.call event = .cancel event.activity.path := by
                simp [Outlet.call, switching, kind, value]
              rw [call]
              exact .cancel switching kind value
          | some off =>
              have call : outlet.call event =
                  .notify event.activity.path off outlet.offMessage := by
                simp [Outlet.call, switching, kind, value]
              rw [call]
              exact .notifyOff switching kind value

theorem Asks.ne_write_null {path : String} {call : Call} (asks : Asks outlet event call)
    (complete : event.activity.toDrive.Complete) : call ≠ .write path .null := by
  cases asks with
  | notifyOn _ _ => simp
  | writeOn _ _ =>
      intro same
      exact complete.on (Call.write.inj same).2
  | notifyOff _ _ _ => simp
  | cancel _ _ _ => simp
  | writeOff _ kind value =>
      intro same
      obtain ⟨off, found, notNull⟩ := complete.off kind
      rw [value] at found
      obtain rfl := Option.some.inj found
      exact notNull (Call.write.inj same).2

theorem asks_calls {events : List Event}
    (complete : ∀ event ∈ events, event.activity.toDrive.Complete) :
    List.Forall₂ (Asks outlet) events (events.map outlet.call) := by
  rw [List.forall₂_map_right_iff, List.forall₂_same]
  intro event member
  exact asks_call (complete event member)

theorem activity_mem {task : Task} {turns : List Turn} {event : Event}
    (turnsOf : ∀ turn ∈ turns, turn.IsOf task.activities) (member : event ∈ paired turns) :
    event.activity ∈ task.activities := by
  obtain ⟨turn, among, rfl | rfl⟩ := turn_of_mem_paired member
  · exact List.mem_of_getElem? (turnsOf turn among)
  · exact List.mem_of_getElem? (turnsOf turn among)

theorem unpaired_activity_mem {s : Sequencer} {event : Event} (member : event ∈ s.unpaired) :
    event.activity ∈ s.activities := by
  simp only [unpaired, turn?] at member
  split at member
  · cases found : s.activities[s.position.index]? with
    | none => simp [found] at member
    | some activity =>
        rw [found] at member
        obtain rfl : event = Turn.on (s.position.index, activity) := by simpa using member
        exact List.mem_of_getElem? found
  · simp at member

namespace Controller
variable {c : Controller} {task : Task} {history seen : List Effect}

theorem Booked.station (booked : c.Booked history) (among : task ∈ c.tasks) :
    (∃ s ∈ c.stations, s.task = task) ∨ task.name ∉ c.stations.map Station.name := by
  by_cases named : task.name ∈ c.stations.map Station.name
  · left
    obtain ⟨s, member, same⟩ := List.mem_map.mp named
    exact ⟨s, member, List.inj_on_of_nodup_map booked.distinct (booked.task_mem member) among same⟩
  · exact .inr named

theorem Booked.faithful (booked : c.Booked history) (among : task ∈ c.tasks) :
    Faithful c.outlet task.name history := by
  rcases booked.station among with ⟨s, member, rfl⟩ | missing
  · exact (booked.accounts s member).faithful
  · exact (booked.balanced task among missing).faithful

theorem Booked.activity_mem (booked : c.Booked history) (among : task ∈ c.tasks) {event : Event}
    (recorded : event ∈ events task.name history) : event.activity ∈ task.activities := by
  rcases booked.station among with ⟨s, member, rfl⟩ | missing
  · have accounts := booked.accounts s member
    obtain ⟨turns, of, split⟩ := accounts.turns
    rw [show events s.task.name history = _ from split] at recorded
    rcases List.mem_append.mp recorded with past | on
    · exact Cadence.activity_mem of past
    · rw [← accounts.activities]
      exact unpaired_activity_mem on
  · obtain ⟨turns, of, split, -⟩ := (booked.balanced task among missing).turns
    rw [split] at recorded
    exact Cadence.activity_mem of recorded

theorem Booked.called (booked : c.Booked history) (drained : c.Drained)
    (undelayed : c.outlet.isDelayed = false) (among : task ∈ c.tasks) :
    calls task.name history = (events task.name history).map c.outlet.call := by
  rcases booked.station among with ⟨s, member, rfl⟩ | missing
  · obtain ⟨put, recorded, called⟩ := (booked.accounts s member).put
    rw [drained undelayed s member, List.append_nil] at recorded
    rw [show events s.task.name history = put from recorded]
    exact called
  · obtain ⟨turns, -, split, called⟩ := (booked.balanced task among missing).turns
    rw [split]
    exact called

/-- At any time the calls for a task have asked for a first part of its events, one by one, and at
the end of a step for all of them if calls take no time; nothing is ever written without a value. -/
structure Delivered (outlet : Outlet) (task : String) (history : List Effect) : Prop where
  inOrder : ∀ seen, seen <+: history → ∃ n,
    List.Forall₂ (Asks outlet) ((events task seen).take n) (calls task seen)
  whole : outlet.isDelayed = false → List.Forall₂ (Asks outlet) (events task history) (calls task history)
  valued : ∀ path, .write path .null ∉ calls task history

section
variable [Host]

theorem events_delivered {tasks : List Task} {outlet : Outlet} {fresh : Controller}
    (created : create tasks outlet = .ok fresh)
    (normalized : ∀ task ∈ tasks, ∃ raw, Definition.task raw = .ok task) (steps : List Step)
    (among : task ∈ tasks) : Delivered outlet task.name (run steps fresh).reports := by
  have booked := created_booked created steps
  have drained := created_drained created steps
  obtain ⟨tasksAre, outletIs⟩ := created_serves created steps
  have among' : task ∈ (run steps fresh).state.tasks := tasksAre ▸ among
  have faithful := booked.faithful among'
  rw [outletIs] at faithful
  -- Only for activities that were read from a definition is there a value to write.
  have complete : ∀ event ∈ events task.name (run steps fresh).reports,
      event.activity.toDrive.Complete := by
    intro event recorded
    obtain ⟨raw, read⟩ := normalized task among
    exact Definition.task_complete read event.activity (booked.activity_mem among' recorded)
  refine ⟨?_, ?_, ?_⟩
  · intro seen start
    have called := List.prefix_iff_eq_take.mp (faithful seen start)
    refine ⟨(calls task.name seen).length, ?_⟩
    rw [← List.map_take] at called
    conv => rhs; rw [called]
    apply asks_calls
    intro event member
    exact complete event ((start.filterMap (event? task.name)).subset (List.mem_of_mem_take member))
  · intro undelayed
    have called := booked.called drained (outletIs ▸ undelayed) among'
    rw [called, outletIs]
    exact asks_calls complete
  · intro path member
    obtain ⟨event, recorded, call⟩ : ∃ event ∈ events task.name (run steps fresh).reports,
        outlet.call event = .write path .null :=
      List.mem_map.mp ((faithful _ (List.prefix_refl _)).subset member)
    exact (asks_call (complete event recorded)).ne_write_null (complete event recorded) call

end

def eveningDefinition : Value :=
  .map [(.text "name", .text "evening"), (.text "controlPath", .text "switches.deck"),
    (.text "activities", .list [
      .map [(.text "path", .text "switches.lamp"), (.text "duration", .whole 2),
        (.text "delay", .float 1), (.text "repeat", .whole 2)],
      .map [(.text "name", .text "fan"), (.text "path", .text "switches.fan:3:0"),
        (.text "duration", .float 0.5), (.text "repeat", .whole 0)]])]

theorem evening_delivered :
    let fresh := idle [evening] sluggish
    let steps : List Step := [.start, .publish [("switches.deck", .value (.whole 1))], .advance 6.5,
      .publish [("switches.deck", .value (.whole 0))], .advance 1]
    create [evening] sluggish = .ok fresh ∧ Definition.task eveningDefinition = .ok evening ∧
      Delivered sluggish "evening" (run steps fresh).reports := by
  intro fresh steps
  have created : create [evening] sluggish = .ok fresh := rfl
  have read : Definition.task eveningDefinition = .ok evening := rfl
  have normalized : ∀ task ∈ [evening], ∃ raw, Definition.task raw = .ok task := by
    intro task member
    rw [List.mem_singleton.mp member]
    exact ⟨eveningDefinition, read⟩
  exact ⟨created, read, events_delivered created normalized steps (List.mem_singleton.mpr rfl)⟩

end Controller
end Cadence
