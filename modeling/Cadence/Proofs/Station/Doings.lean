import Cadence.Proofs.Sequencer.Begins
import Cadence.Proofs.Station.Ledger

namespace Cadence
open Sequencer

namespace Effect

def doing? (task : String) : Effect → Option Doing
  | .commanded name command => if name = task then some (.told command) else none
  | .happened name event time => if name = task then some (.emitted event time) else none
  | _ => none

def command? (task : String) : Effect → Option Command
  | .commanded name command => if name = task then some command else none
  | _ => none

def doings (task : String) (history : List Effect) : List Doing := history.filterMap (doing? task)

def told (task : String) (history : List Effect) : List Command :=
  history.filterMap (command? task)

@[simp] theorem doings_append (task : String) (history effects : List Effect) :
    doings task (history ++ effects) = doings task history ++ doings task effects :=
  List.filterMap_append

@[simp] theorem told_append (task : String) (history effects : List Effect) :
    told task (history ++ effects) = told task history ++ told task effects :=
  List.filterMap_append

theorem doings_foreign {task : String} {effects : List Effect}
    (foreign : ∀ effect ∈ effects, effect.task? ≠ some task) : doings task effects = [] := by
  apply List.filterMap_eq_nil_iff.mpr
  intro effect member
  cases effect with
  | commanded other command =>
      have different : other ≠ task := by simpa [task?] using foreign _ member
      simp [doing?, different]
  | happened other event time =>
      have different : other ≠ task := by simpa [task?] using foreign _ member
      simp [doing?, different]
  | _ => rfl

theorem told_eq_doings (task : String) (history : List Effect) :
    told task history = (doings task history).filterMap Doing.command? := by
  rw [told, doings, List.filterMap_filterMap]
  apply List.filterMap_congr
  intro effect _
  cases effect with
  | commanded name command => by_cases own : name = task <;> simp [command?, doing?, own, Doing.command?]
  | happened name event time => by_cases own : name = task <;> simp [command?, doing?, own, Doing.command?]
  | _ => rfl

theorem told_of_doings {task : String} {history : List Effect}
    (silent : doings task history = []) : told task history = [] := by
  rw [told_eq_doings, silent]
  rfl

end Effect

open Effect

namespace Station
variable {outlet : Outlet} {s t : Station} {effects : List Effect} {now : Instant}

structure Plays (s t : Station) (effects : List Effect) : Prop where
  task : t.task = s.task
  isOn : t.isOn = s.isOn
  taken : told s.name effects ++ t.commands = s.commands
  moves : ∃ moves, t.sequencer = (play moves s.sequencer).state ∧
    doings s.name effects = trace moves s.sequencer

theorem Plays.still (task : t.task = s.task) (isOn : t.isOn = s.isOn)
    (left : t.commands = s.commands) (sequencer : t.sequencer = s.sequencer)
    (silent : doings s.name effects = []) : Plays s t effects := by
  refine ⟨task, isOn, ?_, [], sequencer, silent⟩
  rw [told_of_doings silent, List.nil_append]
  exact left

theorem doings_effects (name : String) (notices : List Notice) :
    doings name (notices.filterMap (effectOf? name)) =
      (happenings notices).map fun happening => .emitted happening.1 happening.2 := by
  induction notices with
  | nil => rfl
  | cons notice rest ih =>
      cases notice with
      | emitted event time => simpa [effectOf?, doings, doing?, happenings] using ih
      | _ => exact ih

theorem fire_plays (s : Station) : Plays s s.fire.state s.fire.reports := by
  have traced : doings s.name s.fire.reports = trace [.fire] s.sequencer := by
    rw [fire, absorb, doings_effects]
    simp [trace, Move.doings, Move.command?, Move.take]
  refine ⟨rfl, rfl, ?_, [.fire], rfl, traced⟩
  rw [told_eq_doings, traced, commandsOf_trace]
  rfl

theorem comply_doings (now : Instant) (command : Command) (s : Station) :
    doings s.name (s.comply now command).reports = (Move.handle command now).doings s.sequencer := by
  have begins : doings s.name [.commanded s.name command] = [.told command] := by
    simp [doings, doing?]
  rw [comply, Outcome.andThen_reports, doings_append, begins, handle, absorb, doings_effects]
  rfl

theorem each_comply_doings (now : Instant) (commands : List Command) (s : Station) :
    let outcome := Outcome.each (comply now) commands s
    let moves := commands.map fun command => .handle command now
    outcome.state.task = s.task ∧ outcome.state.isOn = s.isOn ∧
      outcome.state.commands = s.commands ∧
      outcome.state.sequencer = (play moves s.sequencer).state ∧
      doings s.name outcome.reports = trace moves s.sequencer := by
  induction commands generalizing s with
  | nil => exact ⟨rfl, rfl, rfl, rfl, rfl⟩
  | cons command rest ih =>
      obtain ⟨task, isOn, left, sequencer, traced⟩ := ih (s.comply now command).state
      refine ⟨task, isOn, left, sequencer, ?_⟩
      rw [Outcome.each_cons, Outcome.andThen_reports, doings_append, comply_doings]
      exact congrArg ((Move.handle command now).doings s.sequencer ++ ·) traced

theorem obey_plays (now : Instant) (s : Station) : Plays s (s.obey now).state (s.obey now).reports := by
  obtain ⟨task, isOn, left, sequencer, traced⟩ :=
    each_comply_doings now s.commands { s with commands := [] }
  refine ⟨task, isOn, ?_, _, sequencer, traced⟩
  have emptied : (s.obey now).state.commands = [] := left
  have orders : commandsOf (s.commands.map fun command => .handle command now) = s.commands := by
    simp [commandsOf, List.filterMap_map, Function.comp_def, Move.command?]
  have handled : doings s.name (s.obey now).reports = _ := traced
  rw [emptied, List.append_nil, told_eq_doings, handled, commandsOf_trace, orders]

theorem doings_put (event : Event) : doings s.name (s.put outlet now event) = [] := by
  cases fault : outlet.faults.lookup event.activity.path <;> simp [put_eq, fault, doings, doing?]

theorem doings_announced [Host] (waiting : List Event) :
    doings s.name (s.announced outlet now waiting) = [] := by
  induction waiting with
  | nil => rfl
  | cons event rest ih =>
      rw [announced, List.flatMap_cons, doings_append]
      change doings s.name (s.put outlet now event) ++ doings s.name (s.announced outlet now rest) = []
      rw [doings_put, ih, List.append_nil]

theorem dispatch_doings [Host] (outlet : Outlet) (now : Instant) (s : Station) :
    doings s.name (s.dispatch outlet now).reports = [] := by
  have split := dispatches outlet now s
  generalize s.dispatch outlet now = outcome at split ⊢
  cases split with
  | nothing held => rfl
  | begins delayed free outbox => rfl
  | empties undelayed free filled => exact doings_announced _

theorem dispatch_plays [Host] (outlet : Outlet) (now : Instant) (s : Station) :
    Plays s (s.dispatch outlet now).state (s.dispatch outlet now).reports := by
  have silent := dispatch_doings outlet now s
  have split := dispatches outlet now s
  generalize s.dispatch outlet now = outcome at split silent ⊢
  cases split with
  | nothing held => exact .still rfl rfl rfl rfl silent
  | begins delayed free outbox => exact .still rfl rfl rfl rfl silent
  | empties undelayed free filled => exact .still rfl rfl rfl rfl silent

theorem arrive_doings (outlet : Outlet) (s : Station) :
    doings s.name (s.arrive outlet).reports = [] := by
  unfold arrive
  split
  · rfl
  · exact doings_put _

theorem arrive_plays (outlet : Outlet) (s : Station) :
    Plays s (s.arrive outlet).state (s.arrive outlet).reports := by
  have silent := arrive_doings outlet s
  revert silent
  unfold arrive
  split
  · exact .still rfl rfl rfl rfl
  · exact .still rfl rfl rfl rfl

end Station
end Cadence
