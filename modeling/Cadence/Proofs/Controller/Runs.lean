import Cadence.Proofs.Controller.Release
import Cadence.Proofs.Controller.Roll

namespace Cadence.Controller
open Outcome

def perform [Host] (step : Step) (c : Controller) : Outcome Controller Effect :=
  match c.step step with
  | .ok outcome => outcome
  | .error _ => .still c

def run [Host] : List Step → Controller → Outcome Controller Effect := Outcome.each perform

@[simp] theorem run_cons [Host] (step : Step) (steps : List Step) (c : Controller) :
    run (step :: steps) c = (perform step c).andThen (run steps) := rfl

theorem perform_publish [Host] (signals : List (String × Signal)) (c : Controller) :
    perform (.publish signals) c = c.publish signals := rfl

theorem perform_advance [Host] (seconds : Float) (c : Controller) :
    perform (.advance seconds) c = c.advance seconds := rfl

theorem stop_of_step [Host] {c : Controller} {outcome : Outcome Controller Effect}
    (taken : c.step .stop = .ok outcome) : c.stop = some outcome := by
  simp only [step] at taken
  cases stopped : c.stop with
  | none => simp [stopped] at taken
  | some last =>
      rw [stopped] at taken
      exact congrArg some (Except.ok.inj taken)

variable {c d : Controller} {s : Station} {name : String} {history : List Effect}

structure Stepwise [Host] (invariant : Controller → List Effect → Prop) : Prop where
  start : Keeps invariant Controller.start
  stop : ∀ c history outcome, c.stop = some outcome → invariant c history →
    invariant outcome.state (history ++ outcome.reports)
  publish : ∀ signals, Keeps invariant (Controller.publish signals)
  advance : ∀ seconds, Keeps invariant (Controller.advance seconds)
  turn : ∀ c history s on, s ∈ c.stations → invariant c history →
    invariant (turn s.name s on c).state (history ++ (turn s.name s on c).reports)
  ignore : ∀ c history effects, (∀ effect ∈ effects, effect.task? = none) → invariant c history →
    invariant c (history ++ effects)

namespace Stepwise
variable {invariant : Controller → List Effect → Prop}

theorem perform [Host] (stepwise : Stepwise invariant) (step : Step) :
    Keeps invariant (Controller.perform step) := by
  intro c history holds
  unfold Controller.perform
  cases taken : c.step step with
  | error cause => exact keeps_still c history holds
  | ok outcome =>
      cases step with
      | start =>
          obtain rfl := Except.ok.inj taken
          exact stepwise.start c history holds
      | stop => exact stepwise.stop c history outcome (stop_of_step taken) holds
      | publish signals =>
          obtain rfl := Except.ok.inj taken
          exact stepwise.publish signals c history holds
      | advance seconds =>
          obtain rfl := Except.ok.inj taken
          exact stepwise.advance seconds c history holds
      | trigger task value =>
          obtain ⟨s, found, ⟨on, rfl⟩ | ⟨same, silent⟩⟩ := trigger_cases taken
          · obtain ⟨member, rfl⟩ := station?_some found
            exact stepwise.turn c history s on member holds
          · dsimp only
            rw [same]
            exact stepwise.ignore c history outcome.reports silent holds

theorem run [Host] (stepwise : Stepwise invariant) (steps : List Step) :
    Keeps invariant (Controller.run steps) :=
  Keeps.each fun step _ => stepwise.perform step

end Stepwise

theorem create_eq {tasks : List Task} {outlet : Outlet} (created : create tasks outlet = .ok c) :
    (tasks.map Task.name).Nodup ∧ c = idle tasks outlet := by
  unfold create at created
  dsimp only at created
  split at created
  · next distinct => exact ⟨distinct, (Except.ok.inj created).symm⟩
  · cases created

theorem idle_booked {tasks : List Task} (distinct : (tasks.map Task.name).Nodup) (outlet : Outlet) :
    (idle tasks outlet).Booked [] := by
  refine ⟨distinct, rfl, by simp [idle], ?_, fun _ _ => rfl⟩
  intro task _ _
  refine ⟨?_, [], by simp, rfl, rfl⟩
  intro seen start
  rw [List.prefix_nil.mp start]
  exact List.prefix_refl []

theorem booked_stepwise [Host] : Stepwise Booked where
  start := start_booked
  stop _ _ _ stopped booked := stop_booked stopped booked
  publish := publish_booked
  advance := booked_steady.timely.advance
  turn _ _ _ _ member booked := turn_booked member booked
  ignore _ _ _ silent booked := booked.quiet rfl rfl rfl rfl silent

theorem created_booked [Host] {tasks : List Task} {outlet : Outlet}
    (created : create tasks outlet = .ok c) (steps : List Step) :
    (run steps c).state.Booked (run steps c).reports := by
  obtain ⟨distinct, rfl⟩ := create_eq created
  exact booked_stepwise.run steps _ _ (idle_booked distinct outlet)

/-- Readers on the bus and names on the roll are names of stations, and there are no stations before
a start. -/
structure Fixed.Listed (fixed : Fixed) : Prop where
  readers : ∀ subscription ∈ fixed.bus.subscriptions, subscription.reader ∈ fixed.names
  active : ∀ name ∈ fixed.active, name ∈ fixed.names
  resting : fixed.started = false → fixed.names = []

def Listed (c : Controller) (_ : List Effect) : Prop := c.fixed.Listed

theorem noted_listed {task : Task} (findings : List Finding) (listed : c.Listed history)
    (known : task.name ∈ c.stations.map Station.name) : (c.noted task findings).Listed history := by
  obtain ⟨readers, active, resting⟩ := listed
  refine ⟨?_, ?_, resting⟩
  · intro subscription among
    simp only [fixed, noted] at among
    split at among
    · exact readers subscription (List.mem_filter.mp among).1
    · exact readers subscription among
  · intro other among
    by_cases same : other = task.name
    · exact same ▸ known
    · exact active other ((mem_marks same).mp among)

theorem readFeed_listed [Host] (name : String) : Keeps Listed (readFeed name) := by
  intro c history listed
  cases found : c.station? name with
  | none => simpa [readFeed, found] using listed
  | some s =>
      obtain ⟨readers, active, resting⟩ := listed
      have known : s.name ∈ c.stations.map Station.name :=
        List.mem_map_of_mem (station?_some found).1
      unfold Listed
      rw [readFeed_state found]
      refine @noted_listed _ [] _ _ ⟨?_, ?_, ?_⟩ ?_
      · intro subscription among
        obtain ⟨old, member, rfl⟩ := List.mem_map.mp among
        simp only [fixed, setStation_names]
        split <;> exact readers old member
      · intro name among
        simp only [fixed, setStation_names]
        exact active name among
      · intro rests
        simp only [fixed, setStation_names]
        exact resting rests
      · rw [setStation_names]
        exact known

theorem visit_listed (step : Controller → Station → Outcome Station Effect) (name : String) :
    Keeps Listed fun c => c.visit (step c) name := by
  intro c history listed
  unfold Listed at listed ⊢
  rwa [visit_fixed]

theorem settle_listed [Host] (names : List String) : Keeps Listed (settle names) :=
  settle_keeps (fun name _ => readFeed_listed name) (fun name _ => visit_listed _ name)
    (fun name _ => visit_listed _ name)

theorem subscribe_listed {task : Task} (listed : c.Listed history)
    (known : task.name ∈ c.stations.map Station.name) : (c.subscribe task).Listed history := by
  refine ⟨?_, listed.active, listed.resting⟩
  intro subscription among
  rcases List.mem_append.mp among with old | new
  · exact listed.readers subscription old
  · rw [List.mem_singleton.mp new]
    exact known

theorem Listed.resting_empty (listed : c.Listed history) (resting : c.started = false) :
    c.stations = [] ∧ c.bus.subscriptions = [] ∧ c.active = [] := by
  have unnamed : c.stations.map Station.name = [] := listed.resting resting
  refine ⟨by simpa using unnamed, ?_, ?_⟩
  · apply List.eq_nil_iff_forall_not_mem.mpr
    intro subscription among
    have named : subscription.reader ∈ c.stations.map Station.name :=
      listed.readers subscription among
    rw [unnamed] at named
    cases named
  · apply List.eq_nil_iff_forall_not_mem.mpr
    intro name among
    have named : name ∈ c.stations.map Station.name := listed.active name among
    rw [unnamed] at named
    cases named

theorem man_listed (listed : c.Listed history) (resting : c.started = false) :
    ({ c with started := true, stations := c.tasks.map Station.fresh } : Controller).Listed
      history := by
  obtain ⟨-, unread, inactive⟩ := Listed.resting_empty listed resting
  refine ⟨?_, ?_, ?_⟩
  · simp [fixed, unread]
  · simp [fixed, inactive]
  · simp [fixed]

theorem start_listed [Host] : Keeps Listed start := by
  intro c history listed
  let invariant (d : Controller) (history' : List Effect) : Prop :=
    d.Listed history' ∧ (c.started = false → d.shape.names = c.tasks.map Task.name)
  have kept : invariant c.start.state (history ++ c.start.reports) := by
    refine start_keeps ?_ ?_ ?_ ?_
    · intro already
      exact ⟨listed, by simp [already]⟩
    · intro resting empty
      obtain ⟨unmanned, -, -⟩ := Listed.resting_empty listed resting
      refine ⟨⟨listed.readers, listed.active, by simp [fixed]⟩, fun _ => ?_⟩
      simp [shape, unmanned, empty]
    · intro resting _
      refine ⟨man_listed listed resting, fun _ => ?_⟩
      simp [shape, Station.fresh, Station.name, Function.comp_def]
    · rintro resting task among d history' ⟨listed', names⟩
      have known : task.name ∈ d.stations.map Station.name := by
        rw [show d.stations.map Station.name = c.tasks.map Task.name from names resting]
        exact List.mem_map_of_mem among
      refine ⟨settle_listed [task.name] _ history' (subscribe_listed listed' known), ?_⟩
      rw [settle_shape]
      exact names
  exact kept.1

theorem carry_listed (signals : List (String × Signal)) (listed : c.Listed history) :
    ({ c with bus := c.bus.carry signals } : Controller).Listed history := by
  refine ⟨?_, listed.active, listed.resting⟩
  intro subscription among
  have read : subscription.reader ∈ (c.bus.carry signals).readers := List.mem_map_of_mem among
  rw [Bus.carry_readers] at read
  obtain ⟨old, member, same⟩ := List.mem_map.mp read
  rw [← same]
  exact listed.readers old member

theorem publish_listed [Host] (signals : List (String × Signal)) : Keeps Listed
    (publish signals) := by
  intro c history listed
  rw [publish_eq]
  exact settle_listed _ _ history (carry_listed signals listed)

theorem enqueue_listed {on : Bool} (member : s ∈ c.stations) (listed : c.Listed history) :
    ((c.setStation (s.enqueue (Command.ofState on))).note s.task (.changed on)).state.Listed
      history := by
  have known : s.task.name ∈ c.stations.map Station.name := List.mem_map_of_mem member
  have queued : (c.setStation (s.enqueue (Command.ofState on))).Listed history := by
    unfold Listed
    rw [setStation_fixed]
    exact listed
  rw [note_state]
  exact noted_listed [.changed on] queued (by rwa [setStation_names])

theorem turn_listed [Host] {on : Bool} (member : s ∈ c.stations) (listed : c.Listed history) :
    (turn s.name s on c).state.Listed (history ++ (turn s.name s on c).reports) := by
  rw [turn, andThen_state, andThen_reports, ← List.append_assoc]
  exact settle_listed [s.name] _ _ (enqueue_listed member listed)

theorem stop_listed [Host] {outcome : Outcome Controller Effect} (stopped : c.stop = some outcome)
    (listed : c.Listed history) : outcome.state.Listed (history ++ outcome.reports) := by
  refine stop_keeps ?_ stopped listed
  intro released _ all
  have bus := releaseAll_subscriptions all
  refine ⟨?_, by simp [fixed], by simp [fixed]⟩
  intro subscription among
  simp only [fixed, bus, List.mem_filter, decide_eq_true_eq] at among
  exact absurd (listed.readers subscription among.1) among.2

theorem listed_stepwise [Host] : Stepwise Listed where
  start := start_listed
  stop _ _ _ stopped listed := stop_listed stopped listed
  publish := publish_listed
  advance seconds c _ listed := by
    unfold Listed
    rw [advance_fixed]
    exact listed
  turn _ _ _ _ member listed := turn_listed member listed
  ignore _ _ _ _ listed := listed

theorem created_listed [Host] {tasks : List Task} {outlet : Outlet}
    (created : create tasks outlet = .ok c) (steps : List Step) :
    (run steps c).state.Listed (run steps c).reports := by
  obtain ⟨-, rfl⟩ := create_eq created
  have fresh : (idle tasks outlet).Listed [] :=
    ⟨by simp [fixed, idle, Bus.empty], by simp [fixed, idle], by simp [fixed, idle]⟩
  exact listed_stepwise.run steps _ [] fresh

def Serves (tasks : List Task) (outlet : Outlet) (c : Controller) (_ : List Effect) : Prop :=
  c.tasks = tasks ∧ c.outlet = outlet

theorem serves_of_shape {tasks : List Task} {outlet : Outlet} (serves : Serves tasks outlet c history)
    (same : d.shape = c.shape) : Serves tasks outlet d history := by
  simp only [shape, Shape.mk.injEq] at same
  exact ⟨same.1.trans serves.1, same.2.1.trans serves.2⟩

@[simp] theorem publish_shape [Host] (signals : List (String × Signal)) (c : Controller) :
    (c.publish signals).state.shape = c.shape := by
  rw [publish_eq, settle_shape]
  rfl

theorem turn_shape [Host] (name : String) (s : Station) (on : Bool) (c : Controller) :
    (turn name s on c).state.shape = c.shape := by
  rw [turn, andThen_state, note_state, settle_shape]
  exact setStation_shape _ c

theorem serves_stepwise [Host] (tasks : List Task) (outlet : Outlet) :
    Stepwise (Serves tasks outlet) where
  start c history serves := by
    refine start_keeps (fun _ => serves) (fun _ _ => serves) (fun _ _ => serves) ?_
    intro _ task _ d history' serves'
    exact serves_of_shape (c := d.subscribe task) serves' (settle_shape _ _)
  stop c history outcome stopped serves := by
    refine stop_keeps ?_ stopped serves
    intro released _ all
    have same := releaseAll_fixed all
    exact ⟨(congrArg Fixed.tasks same).trans serves.1, (congrArg Fixed.outlet same).trans serves.2⟩
  publish signals c _ serves := serves_of_shape serves (publish_shape signals c)
  advance seconds c _ serves := serves_of_shape serves (shape_of_fixed (advance_fixed seconds c))
  turn c _ s on _ serves := serves_of_shape serves (turn_shape s.name s on c)
  ignore _ _ _ _ serves := serves

theorem created_serves [Host] {tasks : List Task} {outlet : Outlet}
    (created : create tasks outlet = .ok c) (steps : List Step) :
    (run steps c).state.tasks = tasks ∧ (run steps c).state.outlet = outlet := by
  obtain ⟨-, rfl⟩ := create_eq created
  exact (serves_stepwise tasks outlet).run steps (idle tasks outlet) [] ⟨rfl, rfl⟩

/-! ## Two tasks that share a lamp, and an outlet that takes time and fails at the fan -/

def evening : Task :=
  ⟨"evening", "switches.deck", ⟨.switch, "switches.deck", some (.whole 1)⟩,
    [Sequencer.lamp, Sequencer.fan]⟩

def night : Task :=
  ⟨"night", "switches.mast", ⟨.switch, "switches.mast", some (.whole 1)⟩,
    [{ path := "switches.lamp", on := .whole 9, off := some (.whole 0), name := "night[activity-0]"
       duration := 3, delay := 0, cycles := 1 }]⟩

def sluggish : Outlet := ⟨"on", "off", [("switches.fan", "no answer")], 0.25⟩

end Cadence.Controller
