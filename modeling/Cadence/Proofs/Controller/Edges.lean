import Cadence.Proofs.Controller.Heeding
import Cadence.Proofs.Roster.Admission

namespace Cadence
open Outcome Effect Sequencer

namespace Sequencer
variable {s : Sequencer} {moves : List Move}

def emissions (moves : List Move) (s : Sequencer) : List Doing :=
  (happenings (play moves s).reports).map fun happening => .emitted happening.1 happening.2

theorem emissions_append (moves more : List Move) (s : Sequencer) :
    emissions (moves ++ more) s = emissions moves s ++ emissions more (play moves s).state := by
  rw [emissions, play, Outcome.each_append, andThen_reports, happenings_append, List.map_append]
  rfl

theorem begins_unstarted (poised : s.Poised) (unstarted : ∀ now, .handle .start now ∉ moves) :
    begins moves s = 0 := by
  induction moves generalizing s with
  | nil => rfl
  | cons move rest ih =>
      have later := ih (take_leads move poised).poised fun now among => unstarted now (by simp [among])
      have still : ¬(s.isIdle = true ∧ (move.take s).state.isIdle = false) := by
        rintro ⟨idle, busy⟩
        obtain ⟨now, rfl⟩ := begun_by_start poised idle busy
        exact unstarted now (by simp)
      rw [begins, if_neg still, later]

end Sequencer

namespace Station
variable {outlet : Outlet} {s t : Station} {effects : List Effect}

structure Winds (s t : Station) (effects : List Effect) : Prop where
  task : t.task = s.task
  moves : ∃ moves, (∀ now, .handle .start now ∉ moves) ∧
    t.sequencer = (play moves s.sequencer).state ∧ doings s.name effects = emissions moves s.sequencer

theorem fire_winds (s : Station) : Winds s s.fire.state s.fire.reports := by
  refine ⟨rfl, [.fire], by simp, rfl, ?_⟩
  rw [fire, absorb, doings_effects]
  simp [emissions, play, Move.take]

theorem handle_winds (now : Instant) (s : Station) :
    Winds s (s.handle now .stop).state (s.handle now .stop).reports := by
  refine ⟨rfl, [.handle .stop now], by simp, rfl, ?_⟩
  rw [handle, absorb, doings_effects]
  simp [emissions, play, Move.take]

variable [Host]

theorem dispatch_winds (outlet : Outlet) (now : Instant) (s : Station) :
    Winds s (s.dispatch outlet now).state (s.dispatch outlet now).reports :=
  ⟨(dispatch_plays outlet now s).task, [], by simp, dispatch_sequencer outlet now s,
    dispatch_doings outlet now s⟩

omit [Host] in
theorem arrive_winds (outlet : Outlet) (s : Station) :
    Winds s (s.arrive outlet).state (s.arrive outlet).reports :=
  ⟨(arrive_plays outlet s).task, [], by simp, arrive_sequencer outlet s, arrive_doings outlet s⟩

end Station

namespace Controller
variable {c d : Controller} {s t : Station} {task : Task} {name : String}
  {past history effects : List Effect} {heard : String → List Signal}

/-! ## While a stop lasts -/

def Winding (name : String) (s : Sequencer) (c : Controller) (history : List Effect) : Prop :=
  ∀ t ∈ c.stations, t.name = name → ∃ moves, (∀ now, .handle .start now ∉ moves) ∧
    t.sequencer = (play moves s).state ∧ doings name history = emissions moves s

theorem visit_winding {step : Controller → Station → Outcome Station Effect} {origin : Sequencer}
    (reaches : ∀ (c : Controller) (s : Station),
      s.Reaches c.outlet (step c s).state (step c s).reports)
    (winds : ∀ (c : Controller) (s : Station), s.Winds (step c s).state (step c s).reports)
    (other : String) : Keeps (Winding name origin) fun c => c.visit (step c) other := by
  apply visit_keeps
  intro c history old found winding t member same
  rcases mem_setStation member with rfl | ⟨among, different⟩
  · have task := (winds c old).task
    have own : old.name = name := (congrArg Task.name task).symm.trans same
    obtain ⟨moves, unstarted, sequencer, emitted⟩ := winding old (station?_some found).1 own
    obtain ⟨later, unstarted', sequencer', emitted'⟩ := (winds c old).moves
    refine ⟨moves ++ later, ?_, ?_, ?_⟩
    · intro now among
      exact (List.mem_append.mp among).elim (unstarted now) (unstarted' now)
    · rw [play_append, ← sequencer]
      exact sequencer'
    · rw [doings_append, emissions_append, emitted, ← sequencer, ← emitted', own]
  · obtain ⟨moves, unstarted, sequencer, emitted⟩ := winding t among same
    have silent : doings name (step c old).reports = [] := by
      apply doings_foreign
      intro effect part about
      have own := (reaches c old).own effect part name about
      exact different (same.trans (own.trans (reaches c old).name.symm))
    exact ⟨moves, unstarted, sequencer, by rw [doings_append, silent, List.append_nil, emitted]⟩

section
variable [Host]

theorem winding_steady (name : String) (origin : Sequencer) : Steady (Winding name origin) where
  clock _ _ _ _ winding := winding
  fire := visit_winding (fun _ _ => Station.fire_reaches) fun _ => Station.fire_winds
  arrive := visit_winding (fun _ _ => Station.arrive_reaches) fun c => Station.arrive_winds c.outlet
  dispatch :=
    visit_winding (fun _ _ => Station.dispatch_reaches) fun c => Station.dispatch_winds c.outlet c.now

theorem releaseAll_winding {names : List String} {outcome : Outcome Controller Effect}
    {origin : Sequencer} (released : releaseAll names c = some outcome)
    (winding : Winding name origin c history) :
    Winding name origin outcome.state (history ++ outcome.reports) := by
  refine releaseAll_keeps ?_ history released winding
  intro c history other outcome released winding
  refine ((winding_steady name origin).release ?_ ?_ history released winding).1
  · exact fun _ _ _ winding => winding
  · exact visit_winding (fun _ _ => Station.handle_reaches .stop) fun c => Station.handle_winds c.now

theorem stop_winding {last : Outcome Controller Effect} (booked : c.Booked history)
    (started : c.started = true) (stopped : c.stop = some last) (member : s ∈ c.stations) :
    ∃ moves, doings s.name last.reports = emissions moves s.sequencer ∧
      begins moves s.sequencer = 0 := by
  obtain ⟨released, all, -, reports⟩ := stop_started started stopped
  have fresh : Winding s.name s.sequencer c [] := by
    intro t among same
    obtain rfl := List.inj_on_of_nodup_map booked.names among member same
    exact ⟨[], by simp, rfl, rfl⟩
  have winding := releaseAll_winding all fresh
  have names : released.state.stations.map Station.name = c.stations.map Station.name :=
    congrArg Fixed.names (releaseAll_fixed all)
  have named : s.name ∈ released.state.stations.map Station.name :=
    names ▸ List.mem_map_of_mem member
  obtain ⟨t, among, same⟩ := List.mem_map.mp named
  obtain ⟨moves, unstarted, -, emitted⟩ := winding t among same
  rw [List.nil_append] at emitted
  exact ⟨moves, reports ▸ emitted, begins_unstarted (booked.accounts s member).poised unstarted⟩

/-! ## From a start to a stop -/

structure Prompted (task : Task) (signals : List Signal) (s : Sequencer) (history : List Effect) :
    Prop where
  orders : told task.name history =
    (Trigger.changes false (task.trigger.states signals)).map Command.ofState ++
      if task.trigger.fails signals then [.stop] else []
  first : (told task.name history).head? = some .stop →
    told task.name history = [.stop] ∧ task.trigger.fails signals = true
  turns : (told task.name history).IsChain Command.Precedes
  moves : ∃ moves, s = (play moves task.sequencer).state ∧
    doings task.name history = trace moves task.sequencer ∧
    (∀ before now after, moves = before ++ .handle .start now :: after →
      (play before task.sequencer).state.isIdle = true ∧
        let entered := ((play before task.sequencer).state.start now).state
        entered.isIdle = false ∧ entered.position.index = 0 ∧ entered.position.cycle = 0) ∧
    (∀ before move after, moves = before ++ move :: after →
      (play before task.sequencer).state.isIdle = true →
      (move.take (play before task.sequencer).state).state.isIdle = false →
      ∃ now, move = .handle .start now) ∧
    begins moves task.sequencer = Trigger.rises false (task.trigger.states signals)

theorem prompted {signals : List Signal} {s : Sequencer} (present : task.activities ≠ [])
    (orders : told task.name history = task.trigger.orders false signals)
    (moves : ∃ moves, s = (play moves task.sequencer).state ∧
      doings task.name history = trace moves task.sequencer) :
    Prompted task signals s history := by
  obtain ⟨moves, sequencer, traced⟩ := moves
  have poised : task.sequencer.Poised := poised_idle _ _
  have chain := task.trigger.orders_chain false signals
  have commands : commandsOf moves = task.trigger.orders false signals := by
    rw [← orders, told_eq_doings, traced, commandsOf_trace]
  rw [← commands] at chain
  refine ⟨orders.trans Trigger.orders_eq, ?_, ?_, moves, sequencer, traced, ?_, ?_, ?_⟩
  · rw [orders]
    exact Trigger.orders_first
  · rw [orders]
    exact task.trigger.orders_chain false signals
  · rintro before now after rfl
    have idle := start_finds_idle chain poised rfl
    have leads := play_leads before poised
    exact ⟨idle, start_enters now leads.poised idle (leads.activities ▸ present)⟩
  · rintro before move after rfl idle busy
    exact begun_by_start (play_leads before poised).poised idle busy
  · rw [begins_eq_count poised rfl present chain, commands, Trigger.count_orders]

theorem told_settled (heeding : Heeding [] heard past c history)
    (settled : Settled [] heard past c history) (started : c.started = true) (among : task ∈ c.tasks) :
    ∃ s ∈ c.stations, s.task = task ∧
      told task.name history = task.trigger.orders false (heard task.trigger.path) ∧
      ∃ moves, s.sequencer = (play moves task.sequencer).state ∧
        doings task.name history = trace moves task.sequencer := by
  obtain ⟨s, member, rfl⟩ := heeding.attuned.booked.station_of_started started among
  obtain ⟨moves, -, orders⟩ := heeding.heeds s member
  have empty : c.bus.queued s.name = [] := by
    by_cases read : s.name ∈ c.bus.readers
    · obtain ⟨subscription, listens, same⟩ := List.mem_map.mp read
      rw [← same, Bus.queued_of_mem heeding.attuned.readers listens]
      exact settled.unread subscription listens
    · exact Bus.queued_of_notMem read
  have told := orders (by simp)
  rw [settled.idle s member (by simp), empty, List.append_nil] at told
  have nothing : s.task.trigger.orders s.isOn [] = [] := rfl
  rw [nothing, List.append_nil] at told
  exact ⟨s, member, rfl, told, moves⟩

/-- Each rising edge of the trigger has begun a run of its own. While the trigger stays on no other
begins, also if the task has come to its end, and none begins while the controller stops. -/
def BeginsOnEdges (task : Task) (signals : List Signal) (outcome : Outcome Controller Effect) : Prop :=
  ∃ s ∈ outcome.state.stations, s.task = task ∧
    Prompted task signals s.sequencer outcome.reports ∧
    (∀ more, task.trigger.IsOn signals →
      (∀ signal ∈ Bus.published task.trigger.path more, task.trigger.reads? signal = some true) →
      told task.name (outcome.state.publish more).reports = []) ∧
    ∀ last, outcome.state.stop = some last → told task.name last.reports = [] ∧
      ∃ moves, doings task.name last.reports = emissions moves s.sequencer ∧
        begins moves s.sequencer = 0

theorem runs_begin_on_edges {tasks : List Task} {outlet : Outlet} {fresh : Controller}
    (created : create tasks outlet = .ok fresh)
    (normalized : ∀ task ∈ tasks, ∃ raw, Definition.task raw = .ok task) (earlier : List Step)
    (resting : (run earlier fresh).state.started = false) (beats : List Beat)
    (among : task ∈ tasks) :
    let before := (run earlier fresh).state
    BeginsOnEdges task
      ((before.bus.last? task.trigger.path).toList ++
        Bus.published task.trigger.path (beats.flatMap Beat.signals))
      (run (.start :: beats.map Beat.step) before) := by
  intro before
  let outcome := run (.start :: beats.map Beat.step) before
  let heard := fun path =>
    (before.bus.last? path).toList ++ Bus.published path (beats.flatMap Beat.signals)
  obtain ⟨tasksAre, outletIs⟩ := created_serves created earlier
  have nonempty : before.tasks ≠ [] := tasksAre ▸ List.ne_nil_of_mem among
  have booked := created_booked created earlier
  have listed := created_listed created earlier
  have heeding : Heeding [] heard (run earlier fresh).reports outcome.state outcome.reports :=
    beats_heeding beats (start_heeding booked listed resting nonempty)
  have settled : Settled [] heard (run earlier fresh).reports outcome.state outcome.reports :=
    beats_settled beats (start_settled booked listed resting nonempty)
  have sameTasks : outcome.state.tasks = tasks :=
    ((serves_stepwise tasks outlet).run _ before [] ⟨tasksAre, outletIs⟩).1
  have started : outcome.state.started = true := beats_started beats (start_started before)
  obtain ⟨raw, read⟩ := normalized task among
  have present := (Definition.task_admissible read).present
  obtain ⟨s, member, same, orders, moves⟩ :=
    told_settled heeding settled started (sameTasks ▸ among)
  refine ⟨s, member, same, prompted present orders moves, ?_, ?_⟩
  · intro more isOn repeated
    -- Values that repeat an on order nothing, and a settled task is told what is ordered.
    have shape := publish_shape more outcome.state
    have started' := (congrArg Shape.started shape).trans started
    have tasks' := (congrArg Shape.tasks shape).trans sameTasks
    obtain ⟨-, -, -, later, -⟩ := told_settled (publish_heeding more heeding)
      (publish_settled more settled) started' (tasks' ▸ among)
    have held : task.trigger.orders false
        (heard task.trigger.path ++ Bus.published task.trigger.path more) =
          task.trigger.orders false (heard task.trigger.path) :=
      Trigger.orders_held isOn repeated
    rw [held, told_append, orders] at later
    exact List.append_right_eq_self.mp later
  · intro last stopped
    subst same
    obtain ⟨moves, emitted, unbegun⟩ := stop_winding heeding.attuned.booked started stopped member
    have untold : told s.name last.reports = [] := by
      rw [told_eq_doings, emitted, emissions]
      simp [Doing.command?]
    exact ⟨untold, moves, emitted, unbegun⟩

end

def nightDefinition : Value :=
  .map [(.text "name", .text "night"), (.text "controlPath", .text "switches.mast"),
    (.text "activities", .list [
      .map [(.text "path", .text "switches.lamp:9:0"), (.text "duration", .whole 3)]])]

theorem night_begins_twice :
    let fresh := idle [night] sluggish
    let earlier : List Step := [.start, .publish [("switches.mast", .value (.whole 1))], .stop,
      .publish [("switches.mast", .value (.whole 0))]]
    let beats : List Beat := [.publish [("switches.mast", .value (.whole 1))], .advance 4,
      .publish [("switches.mast", .value (.float 1)), ("switches.mast", .value (.whole 0)),
        ("switches.mast", .value (.whole 1))],
      .advance 1, .publish [("switches.mast", .failure "lost"), ("switches.mast", .value (.whole 1))]]
    let before := (run earlier fresh).state
    let outcome := run (.start :: beats.map Beat.step) before
    create [night] sluggish = .ok fresh ∧ Definition.task nightDefinition = .ok night ∧
      before.started = false ∧ told "night" outcome.reports = [.start, .stop, .start, .stop] ∧
      BeginsOnEdges night
        ((before.bus.last? night.trigger.path).toList ++
          Bus.published night.trigger.path (beats.flatMap Beat.signals)) outcome := by
  intro fresh earlier beats before outcome
  have created : create [night] sluggish = .ok fresh := rfl
  have read : Definition.task nightDefinition = .ok night := rfl
  have normalized : ∀ task ∈ [night], ∃ raw, Definition.task raw = .ok task := by
    intro task member
    rw [List.mem_singleton.mp member]
    exact ⟨nightDefinition, read⟩
  have resting : before.started = false := by decide +kernel
  have told : told "night" outcome.reports = [.start, .stop, .start, .stop] := by decide +kernel
  have begun := runs_begin_on_edges created normalized earlier resting beats
    (List.mem_singleton.mpr rfl)
  exact ⟨created, read, resting, told, begun⟩

end Controller
end Cadence
