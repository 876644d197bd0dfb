import Cadence.Proofs.Daemon.Feeding
import Cadence.Proofs.Roster.Sorting

namespace Cadence

theorem Trigger.isOn_values [Host] {trigger : Trigger} {values : List Value} :
    trigger.IsOn (values.map .value) ↔
      (∀ value ∈ values, ∃ on, trigger.evaluate value = .ok on) ∧
        ∃ value, values.getLast? = some value ∧ trigger.evaluate value = .ok true := by
  have whole : heard (values.map .value) = values.map .value := by
    induction values with
    | nil => rfl
    | cons value rest ih => exact congrArg (.value value :: ·) ih
  have reads (value : Value) (on : Bool) :
      trigger.reads? (.value value) = some on ↔ trigger.evaluate value = .ok on := by
    cases read : trigger.evaluate value <;> simp [reads?, read, Except.toOption]
  simp [IsOn, whole, Option.isSome_iff_exists, reads, Option.bind_eq_some_iff]

open Sequencer Effect

namespace Daemon
open Controller

section
variable [Host]

structure Tells (tasks : List Task) (items : List Item) (c : Controller) (text : String) : Prop where
  unmanned : tasks = [] → text = "Stopped: configuration includes no valid tasks"
  manned : tasks ≠ [] → text = c.status ∧
    text = if c.active = [] then "Standing by" else "Operating: " ++ ",".intercalate c.active
  nodup : c.active.Nodup
  /-- A task is active if all values on its path can be evaluated, and the last one is on. -/
  active : ∀ name, name ∈ c.active ↔ ∃ task ∈ tasks, task.name = name ∧
    (∀ value ∈ Bus.published task.trigger.path (readings items),
      ∃ on, task.trigger.evaluate value = .ok on) ∧
    ∃ value, (Bus.published task.trigger.path (readings items)).getLast? = some value ∧
      task.trigger.evaluate value = .ok true

structure WoundUp (tasks : List Task) (outlet : Outlet) (items : List Item) (seconds : Float)
    (served : Outcome Served Report) : Prop where
  paired : ∀ task ∈ tasks, ∃ turns : List Turn, (∀ turn ∈ turns, turn.IsOf task.activities) ∧
    calls task.name (effects served.reports) = (paired turns).map outlet.call
  others : ∀ name, name ∉ tasks.map Task.name → calls name (effects served.reports) = []
  followed : ∀ before name call time after,
    effects served.reports = before ++ .called name call time :: after →
    ∃ task ∈ tasks, task.name = name ∧ ∃ turn : Turn, turn.IsOf task.activities ∧
      (call = outlet.call turn.off ∨
        call = outlet.call turn.on ∧ outlet.call turn.off ∈ driven call.path after)
  off : ∀ path call, (driven path (effects served.reports)).getLast? = some call →
    ∃ task ∈ tasks, ∃ turn : Turn, turn.IsOf task.activities ∧ turn.2.path = path ∧
      call = outlet.call turn.off
  stopped : ∃ closed last,
    close seconds (feed 0 items (idle tasks outlet).start.state).state = some closed ∧
    closed.state.stop = some last ∧ last.state.bus.subscriptions = [] ∧
    ∀ text, served.state.final = .ok text → Tells tasks items closed.state text

variable {tasks : List Task} {outlet : Outlet} {items : List Item} {seconds : Float}

/-! ## Until the input is over -/

theorem unread_lines {c : Controller} (unread : c.bus.subscriptions = []) (beats : List Beat) :
    statuses (Controller.run (beats.map Beat.step) c).reports = [] := by
  induction beats generalizing c with
  | nil => rfl
  | cons beat rest ih =>
      rw [List.map_cons, run_cons, Outcome.andThen_reports, statuses_append]
      cases beat with
      | publish signals =>
          obtain ⟨still, carried⟩ := publish_unread signals unread
          rw [Beat.step, perform_publish, still]
          exact ih carried
      | advance seconds =>
          have quiet : statuses (c.advance seconds).reports = [] :=
            (lines_steady []).timely.advance seconds c [] rfl
          have bus := congrArg Fixed.bus (advance_fixed seconds c)
          rw [Beat.step, perform_advance, quiet]
          exact ih ((congrArg Bus.subscriptions bus).trans unread)

def inputRun (tasks : List Task) (outlet : Outlet) (items : List Item) : Outcome Controller Effect :=
  Controller.run (.start :: (beats items).map Beat.step) (idle tasks outlet)

theorem inputRun_eq (tasks : List Task) (outlet : Outlet) (items : List Item) :
    let fed := feed 0 items (idle tasks outlet).start.state
    (inputRun tasks outlet items).state = fed.state.controller ∧
      (inputRun tasks outlet items).reports =
        (idle tasks outlet).start.reports ++ effects fed.reports := by
  obtain ⟨state, reports⟩ := feed_beats 0 items (idle tasks outlet).start.state
  exact ⟨state.symm, congrArg _ reports.symm⟩

omit [Host] in
theorem idle_created (distinct : (tasks.map Task.name).Nodup) (outlet : Outlet) :
    Controller.create tasks outlet = .ok (idle tasks outlet) := by
  simp [Controller.create, distinct]

theorem inputRun_manned (distinct : (tasks.map Task.name).Nodup) (outlet : Outlet)
    (items : List Item) :
    let outcome := inputRun tasks outlet items
    outcome.state.tasks = tasks ∧ outcome.state.stations.map Station.task = tasks ∧
      ∀ name ∈ outcome.state.active, ∃ s ∈ outcome.state.stations, s.name = name := by
  intro outcome
  have created := idle_created distinct outlet
  have tasksAre : outcome.state.tasks = tasks := (created_serves created _).1
  have begun : outcome.state.started = true := beats_started (beats items) (start_started _)
  have booked : outcome.state.Booked outcome.reports := created_booked created _
  refine ⟨tasksAre, ?_, ?_⟩
  · rw [booked.manned, begun, tasksAre]
    rfl
  · intro name among
    exact List.mem_map.mp ((created_listed created _).active name among)

theorem unmanned_tells (outlet : Outlet) (items : List Item) :
    let outcome := inputRun [] outlet items
    (statuses outcome.reports).getLast? = some outcome.state.status ∧
      Tells [] items outcome.state outcome.state.status := by
  intro outcome
  obtain ⟨tasksAre, manned, named⟩ := @inputRun_manned _ [] List.nodup_nil outlet items
  have unmanned : outcome.state.stations = [] := List.map_eq_nil_iff.mp manned
  have inactive : outcome.state.active = [] := by
    apply List.eq_nil_iff_forall_not_mem.mpr
    intro name among
    obtain ⟨s, member, -⟩ := named name among
    rw [show _ = [] from unmanned] at member
    cases member
  have standing : outcome.state.status = noTasks := by
    rw [Controller.status, show outcome.state.tasks = [] from tasksAre]
    rfl
  have line : statuses outcome.reports = [noTasks] := congrArg _ (unread_lines rfl (beats items))
  refine ⟨?_, fun _ => standing, fun manned => absurd rfl manned, ?_, ?_⟩
  · rw [line, standing]
    rfl
  · simp [inactive]
  · simp [inactive]

theorem manned_tells (distinct : (tasks.map Task.name).Nodup) (nonempty : tasks ≠ [])
    (outlet : Outlet) (items : List Item) :
    let outcome := inputRun tasks outlet items
    (statuses outcome.reports).getLast? = some outcome.state.status ∧
      Tells tasks items outcome.state outcome.state.status := by
  intro outcome
  obtain ⟨tasksAre, manned, named⟩ := inputRun_manned distinct outlet items
  have listed := created_listed (idle_created distinct outlet) []
  have started := start_settled (idle_booked distinct outlet) listed rfl nonempty
  have settled := beats_settled (beats items) started
  have heardOf (path : String) : [] ++ Bus.published path ((beats items).flatMap Beat.signals) =
      (Bus.published path (readings items)).map .value := by
    rw [List.nil_append, published_beats]
  have active (s : Station) (member : s ∈ outcome.state.stations) :
      s.name ∈ outcome.state.active ↔ s.task.trigger.IsOn
        ((Bus.published s.task.trigger.path (readings items)).map .value) := by
    rw [← heardOf]
    exact (settled.attuned.follows s member).active settled.unread
  refine ⟨settled.attuned.line, fun none => absurd none nonempty,
    fun _ => ⟨rfl, status_eq (tasksAre ▸ nonempty)⟩, settled.attuned.nodup, ?_⟩
  intro name
  simp only [← Trigger.isOn_values]
  constructor
  · intro among
    obtain ⟨s, member, rfl⟩ := named name among
    exact ⟨s.task, manned ▸ List.mem_map_of_mem member, rfl, (active s member).mp among⟩
  · rintro ⟨task, among, rfl, isOn⟩
    rw [← manned] at among
    obtain ⟨s, member, rfl⟩ := List.mem_map.mp among
    exact (active s member).mpr isOn

theorem inputRun_tells (distinct : (tasks.map Task.name).Nodup) (outlet : Outlet) (items : List Item) :
    let outcome := inputRun tasks outlet items
    (statuses outcome.reports).getLast? = some outcome.state.status ∧
      Tells tasks items outcome.state outcome.state.status := by
  by_cases none : tasks = []
  · subst none
    exact unmanned_tells outlet items
  · exact manned_tells distinct none outlet items

/-! ## When all is over -/

omit [Host] in
theorem result_eq_ok {ending : Ending} {reports : List Report} {text : String}
    (returned : result ending reports = .ok text) : text = statusOf reports := by
  cases ending with
  | closed published => exact (Except.ok.inj returned).symm
  | interrupted | beyond => cases returned

omit [Host] in
theorem effects_dropped (dropped : List Drop) :
    effects (reportDropped dropped) = dropped.map fun drop => .diagnostic drop.message := by
  simp [effects, reportDropped, List.filterMap_map]

omit [Host] in
theorem behind_dropped (dropped : List Drop) (history : List Effect) :
    (∀ name, calls name (effects (reportDropped dropped) ++ history) = calls name history) ∧
    ∀ path, driven path (effects (reportDropped dropped) ++ history) = driven path history := by
  simp [effects_dropped, calls, driven, List.filterMap_append, List.filterMap_map, call?, driven?,
    Function.comp_def]

structure Lingered (tasks : List Task) (outlet : Outlet) (items : List Item) (c : Controller)
    (history : List Effect) : Prop where
  booked : c.Booked history
  listed : c.Listed history
  started : c.started = true
  serves : c.tasks = tasks ∧ c.outlet = outlet
  line : (statuses history).getLast? = some c.status
  tells : Tells tasks items c c.status

theorem Lingered.of_fixed {c d : Controller} {history effects : List Effect}
    (lingered : Lingered tasks outlet items c history) (same : d.fixed = c.fixed)
    (booked : d.Booked (history ++ effects)) (silent : statuses effects = []) :
    Lingered tasks outlet items d (history ++ effects) := by
  obtain ⟨-, listed, started, ⟨tasksAre, outletIs⟩, line, tells⟩ := lingered
  have listed' : d.fixed.Listed := same ▸ listed
  simp only [fixed, Fixed.mk.injEq] at same
  obtain ⟨tasks, outlet, started', -, active, -⟩ := same
  have status : d.status = c.status := by simp only [Controller.status, tasks, active]
  refine ⟨booked, listed', started'.trans started, ⟨tasks.trans tasksAre, outlet.trans outletIs⟩,
    ?_, ?_⟩
  · rw [statuses_append, silent, List.append_nil, status]
    exact line
  · rw [status]
    exact ⟨tells.unmanned, fun manned => ⟨status.symm, active ▸ (tells.manned manned).2⟩,
      active ▸ tells.nodup, active ▸ tells.active⟩

theorem inputRun_lingered (distinct : (tasks.map Task.name).Nodup) (outlet : Outlet)
    (items : List Item) :
    Lingered tasks outlet items (inputRun tasks outlet items).state
      (inputRun tasks outlet items).reports := by
  have created := idle_created distinct outlet
  obtain ⟨line, tells⟩ := inputRun_tells distinct outlet items
  exact ⟨created_booked created _, created_listed created _,
    beats_started (beats items) (start_started _), created_serves created _, line, tells⟩

theorem serveTasks_lingered {served : Outcome Served Report}
    (distinct : (tasks.map Task.name).Nodup)
    (serves : serveTasks tasks outlet items seconds = some served) :
    ∃ (closed : Outcome Controller Report) (last : Outcome Controller Effect)
      (history : List Effect),
      close seconds (feed 0 items (idle tasks outlet).start.state).state = some closed ∧
      closed.state.stop = some last ∧ effects served.reports = history ++ last.reports ∧
      Lingered tasks outlet items closed.state history ∧
      ∀ text, served.state.final = .ok text → text = statusOf served.reports := by
  obtain ⟨closed, last, closes, stops, reports, final⟩ := serveTasks_phases serves
  obtain ⟨fedState, fedReports⟩ := inputRun_eq tasks outlet items
  let outcome := inputRun tasks outlet items
  have fed := inputRun_lingered distinct outlet items
  have fedBooked := fed.booked
  rw [fedState] at fedBooked
  -- While the tasks linger, time goes by, which changes neither the roll nor the status.
  have booked := close_keeps
    ⟨booked_steady.timely, fun _ _ _ booked => booked.same rfl rfl rfl rfl⟩ _ closes fedBooked
  have sameFixed : closed.state.fixed = outcome.state.fixed :=
    close_keeps ⟨(steady_fixed (· = outcome.state.fixed)).timely, fun _ _ _ same => same⟩ [] closes
      (congrArg Controller.fixed fedState.symm)
  have silent : statuses (effects closed.reports) = [] :=
    close_keeps ⟨(lines_steady []).timely, fun _ _ _ same => same⟩ [] closes rfl
  refine ⟨closed, last, outcome.reports ++ effects closed.reports, closes, stops, ?_,
    fed.of_fixed sameFixed booked silent, ?_⟩
  · rw [reports, ← fedReports]
  · intro text returned
    rw [final] at returned
    exact result_eq_ok returned

omit [Host] in
theorem ofValue_distinct {definitions : Value} {roster : Roster}
    (read : Roster.ofValue definitions = .ok roster) : (roster.tasks.map Task.name).Nodup := by
  unfold Roster.ofValue at read
  split at read
  · next raws _ =>
      cases made : Roster.ofList raws with
      | error halt => simp [made, Except.mapError] at read
      | ok other =>
          obtain rfl : other = roster := by simpa [made, Except.mapError] using read
          obtain ⟨_, sorting⟩ := Roster.ofList_sorting made
          exact sorting.distinct
  · split at read
    · obtain rfl := Except.ok.inj read
      exact List.nodup_nil
    · cases read

omit [Host] in
theorem followed {history before after : List Effect} {name : String} {call : Call} {time : Instant}
    (paired : ∀ task ∈ tasks, ∃ turns : List Turn, (∀ turn ∈ turns, turn.IsOf task.activities) ∧
      calls task.name history = (paired turns).map outlet.call)
    (others : ∀ name, name ∉ tasks.map Task.name → calls name history = [])
    (split : history = before ++ .called name call time :: after) :
    ∃ task ∈ tasks, task.name = name ∧ ∃ turn : Turn, turn.IsOf task.activities ∧
      (call = outlet.call turn.off ∨
        call = outlet.call turn.on ∧ outlet.call turn.off ∈ driven call.path after) := by
  have made : calls name history = calls name before ++ call :: calls name after := by
    rw [split, calls_append]
    simp [calls, call?]
  have known : name ∈ tasks.map Task.name := by
    by_contra unknown
    rw [others name unknown] at made
    simp at made
  obtain ⟨task, among, rfl⟩ := List.mem_map.mp known
  obtain ⟨turns, member, called⟩ := paired task among
  obtain ⟨turn, of, off | ⟨on, later⟩⟩ := on_or_off (called.symm.trans made)
  · exact ⟨task, among, rfl, turn, member turn of, .inl off⟩
  · have path : (outlet.call turn.off).path = call.path := by
      rw [on, Outlet.call_path, Outlet.call_path]
      rfl
    exact ⟨task, among, rfl, turn, member turn of, .inr ⟨on, path ▸ driven_of_called later⟩⟩

theorem serveTasks_winds_up {served : Outcome Served Report} (dropped : List Drop)
    (distinct : (tasks.map Task.name).Nodup)
    (serves : serveTasks tasks outlet items seconds = some served) :
    WoundUp tasks outlet items seconds
      ⟨served.state, reportDropped dropped ++ served.reports⟩ := by
  obtain ⟨closed, last, history, closes, stops, whole, lingered, returns⟩ :=
    serveTasks_lingered distinct serves
  obtain ⟨booked, listed, started, ⟨tasksAre, outletIs⟩, line, tells⟩ := lingered
  have shut := shutdown started booked listed stops
  have stopped := stop_booked stops booked
  -- Nothing is called while dropped definitions are reported.
  obtain ⟨sameCalls, sameDriven⟩ := behind_dropped dropped (history ++ last.reports)
  rw [tasksAre, outletIs] at shut
  have full : effects (reportDropped dropped ++ served.reports) =
      effects (reportDropped dropped) ++ (history ++ last.reports) := by
    rw [effects_append, whole]
  have paired : ∀ task ∈ tasks, ∃ turns : List Turn,
      (∀ turn ∈ turns, turn.IsOf task.activities) ∧
        calls task.name (effects (reportDropped dropped ++ served.reports)) =
          (paired turns).map outlet.call := by
    intro task among
    obtain ⟨turns, member, -, called⟩ := shut.paired task among
    exact ⟨turns, member, by rw [full, sameCalls, called]⟩
  have others : ∀ name, name ∉ tasks.map Task.name →
      calls name (effects (reportDropped dropped ++ served.reports)) = [] := by
    intro name unknown
    have lastTasks : last.state.tasks = tasks :=
      ((serves_stepwise tasks outlet).stop _ history _ stops ⟨tasksAre, outletIs⟩).1
    rw [full, sameCalls]
    exact stopped.known name (lastTasks ▸ unknown)
  refine ⟨paired, others, fun _ _ _ _ _ => followed paired others, ?_, closed, last, closes, stops,
    shut.unread, ?_⟩
  · intro path call isLast
    refine shut.off path call ?_
    rwa [← sameDriven, ← full]
  · intro text returned
    have standing : text = closed.state.status := by
      rw [returns text returned, statusOf_eq, whole, statuses_append, stop_lines stops,
        List.append_nil, line]
      rfl
    rw [standing]
    exact tells

theorem close_hurried (hurried : ¬ 0 < seconds) (fed : Fed) :
    ∃ closed, close seconds fed = some closed ∧ closed.state = fed.controller := by
  unfold close
  split
  · exact ⟨_, by simp [linger, hurried]; rfl, rfl⟩
  · exact ⟨_, rfl, rfl⟩

theorem serveTasks_ends (distinct : (tasks.map Task.name).Nodup) (undelayed : outlet.isDelayed = false)
    (hurried : ¬ 0 < seconds) (items : List Item) :
    ∃ served, serveTasks tasks outlet items seconds = some served := by
  obtain ⟨closed, closes, state⟩ :=
    close_hurried hurried (feed 0 items (idle tasks outlet).start.state).state
  rw [← (inputRun_eq tasks outlet items).1] at state
  have fed := inputRun_lingered distinct outlet items
  have undelayed' : (inputRun tasks outlet items).state.outlet.isDelayed = false := by
    rw [fed.serves.2]
    exact undelayed
  have stops : ∃ last, closed.state.stop = some last := by
    obtain ⟨released, all, -⟩ := releaseAll_at_once fed.booked undelayed'
      (closed.state.stations.map Station.name)
    rw [← state] at all
    unfold Controller.stop
    split
    · exact ⟨_, by rw [all]; rfl⟩
    · exact ⟨_, rfl⟩
  obtain ⟨last, stops⟩ := stops
  have stopped : stop closed.state = some (run last) := by rw [stop, stops]; rfl
  exact ⟨_, Option.bind_eq_some_iff.mpr ⟨closed, closes,
    Option.bind_eq_some_iff.mpr ⟨_, stopped, rfl⟩⟩⟩

/-- Serving leaves nothing on, and comes to an end if calls take no time and the tasks are given none
after the input. -/
theorem serve_leaves_nothing_on {definitions : Value} {roster : Roster}
    (read : Roster.ofValue definitions = .ok roster) (outlet : Outlet) (items : List Item)
    (seconds : Float) :
    (∀ served, serve definitions outlet items seconds = some served →
      WoundUp roster.tasks outlet items seconds served) ∧
    (outlet.isDelayed = false → ¬ 0 < seconds →
      ∃ served, serve definitions outlet items seconds = some served) := by
  have distinct := ofValue_distinct read
  refine ⟨?_, ?_⟩
  · intro served serves
    simp only [serve, read, Option.map_eq_some_iff] at serves
    obtain ⟨served, serves, rfl⟩ := serves
    exact serveTasks_winds_up roster.dropped distinct serves
  · intro undelayed hurried
    obtain ⟨served, serves⟩ := serveTasks_ends distinct undelayed hurried items
    exact ⟨_, by simp [serve, read, serves]; rfl⟩

end

def deckDefinitions : Value :=
  .list [.map [(.text "name", .text "deck"), (.text "controlPath", .text "switches.deck"),
    (.text "activities", .list [.map [(.text "path", .text "switches.lamp"),
      (.text "duration", .whole 2)]])], .text "mast"]

theorem deck_wound_up :
    let items : List Item := [.line "\x7b\"path\": \"switches.deck\", \"value\": 1\x7d", .wait 0.5,
      .line " ", .line "deck"]
    let outlet : Outlet := ⟨"on", "off", [], 0⟩
    ∃ roster, Roster.ofValue deckDefinitions = .ok roster ∧ roster.names = ["deck"] ∧
      (∃ served, serve deckDefinitions outlet items 2 = some served ∧
        served.state.final = .ok "Operating: deck" ∧ WoundUp roster.tasks outlet items 2 served) ∧
      outlet.isDelayed = false ∧ ¬ (0 : Float) < 0 ∧
      ∃ served, serve deckDefinitions outlet items 0 = some served := by
  intro items outlet
  have names : (Roster.ofValue deckDefinitions).map Roster.names = .ok ["deck"] := by
    decide +kernel
  have final : (serve deckDefinitions outlet items 2).map (·.state.final) =
      some (.ok "Operating: deck") := by decide +kernel
  have undelayed : outlet.isDelayed = false := by decide +kernel
  have hurried : ¬ (0 : Float) < 0 := by decide +kernel
  cases read : Roster.ofValue deckDefinitions with
  | error cause => simp [read, Except.map] at names
  | ok roster =>
      rw [read] at names
      obtain ⟨served, serves, status⟩ := Option.map_eq_some_iff.mp final
      exact ⟨roster, rfl, Except.ok.inj names,
        ⟨served, serves, status, (serve_leaves_nothing_on read outlet items 2).1 served serves⟩,
        undelayed, hurried, (serve_leaves_nothing_on read outlet items 0).2 undelayed hurried⟩

end Daemon
end Cadence
