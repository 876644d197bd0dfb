import Cadence.Proofs.Controller.Order

namespace Cadence.Controller
open Outcome Effect

variable {c : Controller} {name : String} {past history : List Effect}
  {heard : String → List Signal}

section
variable [Host]

theorem drawn_last (s : Station) (bus : Bus String Signal) : (drawn s bus).last = bus.last := by
  unfold drawn
  dsimp only
  split <;> rfl

theorem settle_last (names : List String) (c : Controller) :
    (c.settle names).state.bus.last = c.bus.last := by
  have visits (step : Controller → Station → Outcome Station Effect) (name : String) :
      Keeps (fun (d : Controller) (_ : List Effect) => d.bus.last = c.bus.last)
        fun d => d.visit (step d) name := by
    intro d _ same
    have bus := congrArg Fixed.bus (visit_fixed (step d) name d)
    exact (congrArg Bus.last bus).trans same
  have reads (name : String) :
      Keeps (fun (d : Controller) (_ : List Effect) => d.bus.last = c.bus.last) (readFeed name) := by
    intro d _ same
    cases found : d.station? name with
    | none => simpa [readFeed, found] using same
    | some s =>
        rw [readFeed_eq found]
        exact (drawn_last s d.bus).trans same
  exact settle_keeps (fun name _ => reads name) (fun name _ => visits _ name)
    (fun name _ => visits _ name) c [] rfl

theorem man_settled (booked : c.Booked past) (listed : c.Listed past) (resting : c.started = false)
    (nonempty : c.tasks ≠ []) (heard : String → List Signal) :
    Settled (c.tasks.map Task.name) heard past
      { c with started := true, stations := c.tasks.map Station.fresh }
      [.diagnostic (schedulingText c.tasks), .status standingBy] := by
  obtain ⟨-, unread, inactive⟩ := Listed.resting_empty listed resting
  have fresh (s : Station) (member : s ∈ c.tasks.map Station.fresh) :
      ∃ task ∈ c.tasks, s = .fresh task := by
    obtain ⟨task, among, rfl⟩ := List.mem_map.mp member
    exact ⟨task, among, rfl⟩
  refine ⟨⟨?_, man_listed listed resting, ?_, ?_, ?_, ?_, ?_⟩, ?_, ?_, ?_⟩
  · exact booked.man resting _ (by simp [Effect.task?])
  · simp [Bus.readers, unread]
  · simp [inactive]
  · have standing : ({ c with started := true, stations := c.tasks.map Station.fresh } :
        Controller).status = standingBy := by
      simp [status, nonempty, inactive]
    rw [standing]
    rfl
  · intro s member
    obtain ⟨task, among, rfl⟩ := fresh s member
    refine .fresh (List.mem_map_of_mem among) ?_ rfl ?_
    · simp [Bus.readers, unread]
    · simp [inactive]
  · intro s member willRun
    obtain ⟨task, -, rfl⟩ := fresh s member
    rcases willRun with told | ⟨-, busy⟩
    · cases told
    · cases busy
  · simp [Ordered, Recent, inactive]
  · simp [unread]
  · intro s member _
    obtain ⟨task, -, rfl⟩ := fresh s member
    rfl

theorem subscribes_keep (invariant : List String → Controller → List Effect → Prop)
    {tasks rest : List Task} {last : List (String × Signal)} (distinct : (tasks.map Task.name).Nodup)
    (settles : ∀ task rest d history, task ∈ d.tasks → task.name ∉ rest →
      task.name ∈ d.stations.map Station.name → d.bus.last = last →
      invariant (task.name :: rest) d history →
      invariant rest ((d.subscribe task).settle [task.name]).state
        (history ++ ((d.subscribe task).settle [task.name]).reports))
    (split : ∃ done, tasks = done ++ rest) (sameTasks : c.tasks = tasks)
    (names : c.stations.map Station.name = tasks.map Task.name) (sameLast : c.bus.last = last)
    (holds : invariant (rest.map Task.name) c history) :
    let outcome := Outcome.each (fun task c => (c.subscribe task).settle [task.name]) rest c
    invariant [] outcome.state (history ++ outcome.reports) := by
  induction rest generalizing c history with
  | nil => simpa using holds
  | cons task rest ih =>
      obtain ⟨done, whole⟩ := split
      have among : task ∈ tasks := by simp [whole]
      -- Names are distinct, so that no station behind this one has its name.
      have later : task.name ∉ rest.map Task.name := by
        rw [whole, List.map_append, List.map_cons] at distinct
        exact (List.nodup_cons.mp (List.nodup_append.mp distinct).2.1).1
      have named : task.name ∈ c.stations.map Station.name := by
        rw [names]
        exact List.mem_map_of_mem among
      have holds' := settles task _ c history (sameTasks ▸ among) later named sameLast holds
      have shape : ((c.subscribe task).settle [task.name]).state.shape = c.shape :=
        settle_shape [task.name] (c.subscribe task)
      have tasks' := (congrArg Shape.tasks shape).trans sameTasks
      have names' := (congrArg Shape.names shape).trans names
      have last' := (settle_last [task.name] (c.subscribe task)).trans sameLast
      have all := ih ⟨done ++ [task], by simp [whole]⟩ tasks' names' last' holds'
      dsimp only at all ⊢
      rw [each_cons, andThen_reports, ← List.append_assoc]
      exact all

theorem subscribe_settled {task : Task} {rest : List String} (among : task ∈ c.tasks)
    (later : task.name ∉ rest) (named : task.name ∈ c.stations.map Station.name)
    (replayed : heard task.trigger.path = (c.bus.last? task.trigger.path).toList)
    (settled : Settled (task.name :: rest) heard past c history) :
    Settled rest heard past ((c.subscribe task).settle [task.name]).state
      (history ++ ((c.subscribe task).settle [task.name]).reports) := by
  have subscribed := subscribe_attuned settled.attuned among later named replayed
  have reading : Reading rest heard past [] [task.name] (c.subscribe task) history := by
    refine ⟨subscribed, settled.ordered, ?_, fun s member _ => settled.idle s member (by simp)⟩
    intro subscription member other
    rcases List.mem_append.mp member with old | new
    · exact settled.unread subscription old
    · rw [List.mem_singleton.mp new] at other
      exact absurd (List.mem_singleton.mpr rfl) other
  exact settle_settled (List.nodup_singleton task.name) reading

theorem start_settled (booked : c.Booked past) (listed : c.Listed past) (resting : c.started = false)
    (nonempty : c.tasks ≠ []) :
    Settled [] (fun path => (c.bus.last? path).toList) past c.start.state c.start.reports := by
  let replay := fun path => (c.bus.last? path).toList
  have manned := man_settled booked listed resting nonempty replay
  rw [start_fresh resting nonempty]
  refine subscribes_keep (fun rest => Settled rest replay past) booked.distinct ?_ ⟨[], rfl⟩ rfl ?_ rfl manned
  · intro task rest d history among later named sameLast settled
    refine subscribe_settled among later named ?_ settled
    rw [Bus.last?, sameLast]
    rfl
  · simp [Station.fresh, Station.name, Function.comp_def]

inductive Beat
  | publish (signals : List (String × Signal))
  | advance (seconds : Float)

def Beat.step : Beat → Step
  | .publish signals => .publish signals
  | .advance seconds => .advance seconds

def Beat.signals : Beat → List (String × Signal)
  | .publish signals => signals
  | .advance _ => []

theorem beats_keep (invariant : (String → List Signal) → Controller → List Effect → Prop)
    (publishes : ∀ heard signals c history, invariant heard c history →
      invariant (fun path => heard path ++ Bus.published path signals) (c.publish signals).state
        (history ++ (c.publish signals).reports))
    (advances : ∀ heard seconds, Keeps (invariant heard) (Controller.advance seconds))
    (beats : List Beat) (holds : invariant heard c history) :
    invariant (fun path => heard path ++ Bus.published path (beats.flatMap Beat.signals))
      (run (beats.map Beat.step) c).state (history ++ (run (beats.map Beat.step) c).reports) := by
  induction beats generalizing c history heard with
  | nil => simpa [run] using holds
  | cons beat rest ih =>
      rw [List.map_cons, run_cons, andThen_state, andThen_reports, ← List.append_assoc]
      cases beat with
      | publish signals =>
          have later := ih (publishes heard signals c history holds)
          rw [Beat.step, perform_publish]
          simpa [Beat.signals, List.append_assoc] using later
      | advance seconds =>
          have later := ih (advances heard seconds c history holds)
          rw [Beat.step, perform_advance]
          simpa [Beat.signals] using later

theorem beats_settled (beats : List Beat) (settled : Settled [] heard past c history) :
    Settled [] (fun path => heard path ++ Bus.published path (beats.flatMap Beat.signals)) past
      (run (beats.map Beat.step) c).state (history ++ (run (beats.map Beat.step) c).reports) :=
  beats_keep (fun heard => Settled [] heard past)
    (fun _ signals _ _ => publish_settled signals) (fun _ => advance_settled) beats settled

theorem start_started (c : Controller) : c.start.state.started = true := by
  let isStarted (d : Controller) (_ : List Effect) : Prop := d.started = true
  have kept : isStarted c.start.state ([] ++ c.start.reports) := by
    refine start_keeps id (fun _ _ => rfl) (fun _ _ => rfl) ?_
    intro _ task _ d _ started
    exact (congrArg Shape.started (settle_shape [task.name] (d.subscribe task))).trans started
  exact kept

theorem beat_shape (beat : Beat) (c : Controller) : (perform beat.step c).state.shape = c.shape := by
  cases beat with
  | publish signals => exact publish_shape signals c
  | advance seconds => exact shape_of_fixed (advance_fixed seconds c)

theorem beats_started (beats : List Beat) (started : c.started = true) :
    (run (beats.map Beat.step) c).state.started = true := by
  induction beats generalizing c with
  | nil => exact started
  | cons beat rest ih =>
      rw [List.map_cons, run_cons, andThen_state]
      exact ih ((congrArg Shape.started (beat_shape beat c)).trans started)

theorem Follows.active {s : Station} (follows : Follows [] heard c s)
    (unread : ∀ subscription ∈ c.bus.subscriptions, subscription.queue = []) :
    s.name ∈ c.active ↔ s.task.trigger.IsOn (heard s.task.trigger.path) := by
  rw [Trigger.isOn_iff]
  cases follows with
  | fresh waits _ _ _ => cases waits
  | closed _ _ _ mirrors => exact mirrors
  | listens _ member _ _ split _ state mirrors =>
      rw [split, unread _ member, List.append_nil, state]
      exact mirrors

omit [Host] in
theorem status_eq (nonempty : c.tasks ≠ []) :
    c.status = if c.active = [] then "Standing by"
      else "Operating: " ++ ",".intercalate c.active := by
  simp [status, standingBy, nonempty]

/-- The roll and the status are exact: active are the tasks whose triggers are on, in the order of
their last starts, also when their activities have come to an end, and the status tells them. -/
structure Exact (tasks : List Task) (heard : String → List Signal) (c : Controller)
    (history : List Effect) : Prop where
  nodup : c.active.Nodup
  active : ∀ name, name ∈ c.active ↔
    ∃ task ∈ tasks, task.name = name ∧ task.trigger.IsOn (heard task.trigger.path)
  order : c.active = (starts history).dedup.filter (· ∈ c.active)
  lasting : ∀ seconds, (c.advance seconds).state.active = c.active
  manned : c.stations.map Station.task = tasks
  running : ∀ s ∈ c.stations, s.sequencer.isIdle = false → s.name ∈ c.active
  reported : (statuses history).getLast? = some c.status
  status : c.status =
    if c.active = [] then "Standing by" else "Operating: " ++ ",".intercalate c.active

theorem roll_exact {tasks : List Task} {outlet : Outlet} {fresh : Controller}
    (created : create tasks outlet = .ok fresh) (nonempty : tasks ≠ []) (earlier : List Step)
    (resting : (run earlier fresh).state.started = false) (beats : List Beat) :
    let before := (run earlier fresh).state
    let outcome := run (.start :: beats.map Beat.step) before
    Exact tasks
      (fun path => (before.bus.last? path).toList ++ Bus.published path (beats.flatMap Beat.signals))
      outcome.state outcome.reports := by
  intro before outcome
  let heard := fun path =>
    (before.bus.last? path).toList ++ Bus.published path (beats.flatMap Beat.signals)
  obtain ⟨tasksAre, outletIs⟩ := created_serves created earlier
  have started := start_settled (created_booked created earlier) (created_listed created earlier)
    resting (tasksAre ▸ nonempty)
  have settled : Settled [] heard (run earlier fresh).reports outcome.state outcome.reports :=
    beats_settled beats started
  have sameTasks : outcome.state.tasks = tasks :=
    ((serves_stepwise tasks outlet).run _ before [] ⟨tasksAre, outletIs⟩).1
  have begun : outcome.state.started = true := beats_started beats (start_started before)
  have manned : outcome.state.stations.map Station.task = tasks := by
    rw [settled.attuned.booked.manned, begun, sameTasks]
    rfl
  have active (s : Station) (member : s ∈ outcome.state.stations) :
      s.name ∈ outcome.state.active ↔ s.task.trigger.IsOn (heard s.task.trigger.path) :=
    (settled.attuned.follows s member).active settled.unread
  refine ⟨settled.attuned.nodup, ?_, ?_, ?_, manned, ?_, settled.attuned.line, ?_⟩
  · intro name
    constructor
    · intro listed
      obtain ⟨s, member, rfl⟩ := List.mem_map.mp (settled.attuned.listed.active name listed)
      exact ⟨s.task, manned ▸ List.mem_map_of_mem member, rfl, (active s member).mp listed⟩
    · rintro ⟨task, among, rfl, isOn⟩
      rw [← manned] at among
      obtain ⟨s, member, rfl⟩ := List.mem_map.mp among
      exact (active s member).mpr isOn
  · have ordered := settled.ordered
    rw [Ordered, List.flatMap_nil, List.append_nil] at ordered
    exact ordered
  · intro seconds
    exact congrArg Fixed.active (advance_fixed seconds outcome.state)
  · intro s member busy
    exact settled.attuned.runs s member (.inr ⟨settled.idle s member (by simp), busy⟩)
  · exact status_eq (sameTasks ▸ nonempty)

end

theorem evening_and_night_exact :
    let fresh := idle [evening, night] sluggish
    let earlier : List Step := [.start, .publish [("switches.deck", .value (.whole 1))], .stop]
    let beats : List Beat := [.publish [("switches.mast", .value (.whole 1))], .advance 1,
      .publish [("switches.deck", .value (.whole 0)), ("switches.deck", .value (.whole 1))],
      .advance 4.5]
    let before := (run earlier fresh).state
    let outcome := run (.start :: beats.map Beat.step) before
    create [evening, night] sluggish = .ok fresh ∧ before.started = false ∧
      outcome.state.active = ["night", "evening"] ∧
      Exact [evening, night]
        (fun path =>
          (before.bus.last? path).toList ++ Bus.published path (beats.flatMap Beat.signals))
        outcome.state outcome.reports := by
  intro fresh earlier beats before outcome
  have created : create [evening, night] sluggish = .ok fresh := rfl
  have resting : before.started = false := by decide +kernel
  have active : outcome.state.active = ["night", "evening"] := by decide +kernel
  exact ⟨created, resting, active, roll_exact created (by simp) earlier resting beats⟩

end Cadence.Controller
