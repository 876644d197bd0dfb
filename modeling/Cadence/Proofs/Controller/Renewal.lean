import Cadence.Proofs.Controller.Activity
import Cadence.Proofs.Controller.Apart
import Cadence.Proofs.Controller.Shutdown

namespace Cadence.Controller
open Outcome

variable {c : Controller} {name : String} {history : List Effect}

def Step.signals : Step → List (String × Signal)
  | .publish signals => signals
  | _ => []

/-! ## What a bus keeps -/

section
variable [Host]

theorem start_last (c : Controller) : c.start.state.bus.last = c.bus.last := by
  let keepsLast (d : Controller) (_ : List Effect) : Prop := d.bus.last = c.bus.last
  have kept : keepsLast c.start.state ([] ++ c.start.reports) := by
    refine start_keeps (fun _ => rfl) (fun _ _ => rfl) (fun _ _ => rfl) ?_
    intro _ task _ d _ same
    exact (settle_last [task.name] (d.subscribe task)).trans same
  exact kept

theorem stop_last {last : Outcome Controller Effect} (stopped : c.stop = some last) :
    last.state.bus.last = c.bus.last := by
  have closes (names : List String) (bus : Bus String Signal) :
      (names.foldl (fun bus name => bus.close name) bus).last = bus.last := by
    induction names generalizing bus with
    | nil => rfl
    | cons name rest ih => exact ih (bus.close name)
  let keepsLast (d : Controller) (_ : List Effect) : Prop := d.bus.last = c.bus.last
  have kept : keepsLast last.state ([] ++ last.reports) := by
    refine stop_keeps ?_ stopped (rfl : keepsLast c [])
    intro released _ all
    exact (congrArg (·.bus.last) (releaseAll_fixed all)).trans (closes _ c.bus)
  exact kept

theorem turn_last (name : String) (s : Station) (on : Bool) (c : Controller) :
    (turn name s on c).state.bus.last = c.bus.last := by
  rw [turn, andThen_state, settle_last, note_state]
  cases on <;> rfl

theorem perform_last (step : Step) (c : Controller) :
    (perform step c).state.bus.last = (c.bus.carry step.signals).last := by
  cases step with
  | start => exact start_last c
  | publish signals => rw [perform_publish, publish_eq, settle_last]; rfl
  | advance seconds => exact congrArg (·.bus.last) (advance_fixed seconds c)
  | stop =>
      cases stopped : c.stop with
      | none => simp [perform, Controller.step, stopped, Step.signals, Bus.carry]
      | some last =>
          simp only [perform, Controller.step, stopped, Option.elim_some]
          exact stop_last stopped
  | trigger task value =>
      unfold perform
      cases taken : c.step (.trigger task value) with
      | error cause => rfl
      | ok outcome =>
          obtain ⟨s, -, ⟨on, rfl⟩ | ⟨same, -⟩⟩ := trigger_cases taken
          · exact turn_last task s on c
          · exact congrArg (·.bus.last) same

theorem run_last (steps : List Step) (c : Controller) :
    (run steps c).state.bus.last = (c.bus.carry (steps.flatMap Step.signals)).last := by
  induction steps generalizing c with
  | nil => rfl
  | cons step rest ih =>
      rw [run_cons, andThen_state, ih, List.flatMap_cons, Bus.carry, Bus.carry, List.foldl_append]
      exact Bus.carry_last _ (perform_last step c)

/-! ## What a stop leaves of a run -/

theorem advance_calm (calm : c.alarm = none) (seconds : Float) :
    (c.advance seconds).state.alarm = none := by
  have fires (target : Instant) (fuel : Nat) (d : Controller) (calm : d.alarm = none) :
      (fireBy target fuel d).state.alarm = none := by
    induction fuel generalizing d with
    | zero => exact calm
    | succ fuel ih =>
        cases next : d.nextBy? target with
        | none => simpa [fireBy, next] using calm
        | some timer =>
            simp only [fireBy, next, andThen_state]
            exact ih _ (fire_calm calm timer.1 timer.2)
  have fired := fires (c.now.after seconds) patience c calm
  rw [advance, andThen_state, still_state, arriveAt]
  split <;> exact fired

theorem wait_calm {isOver : Controller → Bool} {fuel : Nat} {waited : Outcome Controller Effect}
    (waits : wait isOver fuel c = some waited) (calm : c.alarm = none) :
    waited.state.alarm = none := by
  induction fuel generalizing c waited with
  | zero =>
      simp only [wait, Option.ite_none_right_eq_some, Option.some.injEq] at waits
      exact waits.2 ▸ calm
  | succ fuel ih =>
      simp only [wait] at waits
      split at waits
      · exact Option.some.inj waits ▸ calm
      · cases next : c.next? with
        | none => simp [next] at waits
        | some timer =>
            simp only [next, followedBy, Option.map_eq_some_iff] at waits
            obtain ⟨later, waits', rfl⟩ := waits
            have calmLater : later.state.alarm = none :=
              ih waits' (fire_calm calm timer.1 timer.2)
            exact calmLater

theorem release_calm {released : Outcome Controller Effect} (releases : c.release name = some released)
    (calm : c.alarm = none) : released.state.alarm = none := by
  rw [release_eq, followedBy, Option.map_eq_some_iff] at releases
  obtain ⟨waited, waits, rfl⟩ := releases
  have halted : (c.halt name).state.alarm = none := by
    rw [halt, andThen_state, Controller.dispatch, visit_alarm, visit_alarm]
    exact calm
  have calmLater : waited.state.alarm = none := wait_calm waits halted
  exact calmLater

def Calm (c : Controller) (_ : List Effect) : Prop := c.alarm = none

theorem calm_stepwise : Stepwise Calm where
  start c _ calm := by
    refine start_keeps (fun _ => calm) (fun _ _ => calm) (fun _ _ => calm) ?_
    intro _ task _ d _ calm'
    exact (settle_alarm [task.name] (d.subscribe task)).trans calm'
  stop c history outcome stopped calm := by
    refine stop_keeps ?_ stopped calm
    intro released _ all
    have kept : Calm released.state (history ++ released.reports) :=
      releaseAll_keeps (fun _ _ _ _ => release_calm) history all calm
    exact kept
  publish signals c _ calm := by
    rw [publish_eq]
    exact (settle_alarm _ _).trans calm
  advance seconds c _ calm := advance_calm calm seconds
  turn c _ s on _ calm := by
    have noted : ((c.setStation (s.enqueue (Command.ofState on))).note s.task
        (.changed on)).state.alarm = c.alarm := by
      rw [note_state]
      rfl
    exact ((settle_alarm _ _).trans noted).trans calm
  ignore _ _ _ _ calm := calm

structure Timeless (c : Controller) (history : List Effect) : Prop where
  listed : c.Listed history
  agenda : c.started = false → c.agenda = []

omit [Host] in
theorem Timeless.silent (timeless : c.Timeless history) (resting : c.started = false) :
    c.Silent := by
  obtain ⟨unmanned, unread, -⟩ := Listed.resting_empty timeless.listed resting
  exact ⟨resting, unmanned, unread, timeless.agenda resting⟩

theorem Timeless.agenda_of_shape (timeless : c.Timeless history) (step : Step)
    (unstarted : step ≠ .start) (same : (perform step c).state.shape = c.shape)
    (resting : (perform step c).state.started = false) : (perform step c).state.agenda = [] := by
  have resting' : c.started = false := (congrArg Shape.started same).symm.trans resting
  exact (perform_silent (timeless.silent resting') unstarted).1.agenda

theorem timeless_stepwise : Stepwise Timeless where
  start c history timeless := by
    refine ⟨start_listed c history timeless.listed, ?_⟩
    intro resting
    rw [start_started] at resting
    cases resting
  stop c history outcome stopped timeless := by
    refine ⟨stop_listed stopped timeless.listed, ?_⟩
    let rests (d : Controller) (_ : List Effect) : Prop := d.started = false → d.agenda = []
    have kept : rests outcome.state (history ++ outcome.reports) :=
      stop_keeps (fun _ _ _ _ => rfl) stopped timeless.agenda
    exact kept
  publish signals c history timeless :=
    ⟨publish_listed signals c history timeless.listed,
      timeless.agenda_of_shape (.publish signals) (by simp) (publish_shape signals c)⟩
  advance seconds c history timeless :=
    ⟨listed_stepwise.advance seconds c history timeless.listed,
      timeless.agenda_of_shape (.advance seconds) (by simp)
        (shape_of_fixed (advance_fixed seconds c))⟩
  turn c history s on member timeless := by
    refine ⟨turn_listed member timeless.listed, ?_⟩
    intro resting
    have resting' : c.started = false :=
      (congrArg Shape.started (turn_shape s.name s on c)).symm.trans resting
    rw [(timeless.silent resting').unmanned] at member
    cases member
  ignore _ _ _ silent timeless := ⟨timeless.listed, timeless.agenda⟩

def placed (bus : Bus String Signal) (now : Instant) (c : Controller) : Controller :=
  { c with bus := bus, now := now }

omit [Host] in
theorem Silent.eq_placed {tasks : List Task} {outlet : Outlet} {bus : Bus String Signal}
    (silent : c.Silent) (tasksAre : c.tasks = tasks) (outletIs : c.outlet = outlet)
    (inactive : c.active = []) (calm : c.alarm = none) (last : c.bus.last = bus.last)
    (unread : bus.subscriptions = []) : c = (idle tasks outlet).placed bus c.now := by
  have sameBus : c.bus = bus := congrArg₂ Bus.mk last (silent.unread.trans unread.symm)
  calc
    c = ⟨c.tasks, c.outlet, c.started, c.stations, c.active, c.bus, c.now, c.agenda, c.alarm⟩ := rfl
    _ = (idle tasks outlet).placed bus c.now := by
      rw [tasksAre, outletIs, silent.resting, silent.unmanned, inactive, sameBus, silent.agenda, calm]
      rfl

/-- At rest nothing is left of a run but the time and what the bus has carried. -/
theorem resting_placed {tasks : List Task} {outlet : Outlet} {fresh : Controller}
    (created : create tasks outlet = .ok fresh) (steps : List Step)
    (resting : (run steps fresh).state.started = false) :
    (run steps fresh).state =
      fresh.placed (Bus.empty.carry (steps.flatMap Step.signals)) (run steps fresh).state.now := by
  obtain ⟨tasksAre, outletIs⟩ := created_serves created steps
  have listed := created_listed created steps
  obtain ⟨-, rfl⟩ := create_eq created
  have timeless := timeless_stepwise.run steps (idle tasks outlet) []
    ⟨created_listed created [], fun _ => rfl⟩
  exact (timeless.silent resting).eq_placed tasksAre outletIs
    (Listed.resting_empty listed resting).2.2 (calm_stepwise.run steps (idle tasks outlet) [] rfl)
    (run_last steps (idle tasks outlet)) (by simp [Bus.carry_subscriptions, Bus.empty])

theorem stop_rests {last : Outcome Controller Effect} (stopped : c.stop = some last) :
    last.state.started = false := by
  cases started : c.started with
  | false =>
      rw [stop_resting started] at stopped
      obtain rfl := Option.some.inj stopped
      exact started
  | true =>
      obtain ⟨released, -, state, -⟩ := stop_started started stopped
      rw [state]

/-- Behind a stop everything goes on as it does for a controller that was created just then and put on
a bus with the same signals, of which it is given the last of each path. Wherever that leads, a second
start does nothing, and nor does a second stop. -/
theorem stop_renews {tasks : List Task} {outlet : Outlet} {fresh : Controller}
    (created : create tasks outlet = .ok fresh) (steps : List Step)
    {last : Outcome Controller Effect} (stopped : (run steps fresh).state.stop = some last) :
    let signals := steps.flatMap Step.signals
    let again := fresh.placed (Bus.empty.carry signals) last.state.now
    again.bus.subscriptions = [] ∧
      (∀ path, again.bus.last? path = (Bus.published path signals).getLast?) ∧
      ∀ later, run later last.state = run later again ∧
        ((run later again).state.started = true →
          (run later again).state.start = .still (run later again).state) ∧
        ((run later again).state.started = false →
          (run later again).state.stop = some (.still (run later again).state)) := by
  intro signals again
  -- With the stop as its last step, the history is one that ends at rest.
  have ended : (run (steps ++ [.stop]) fresh).state = last.state := by
    rw [run, each_append, andThen_state, ← run, run_cons, andThen_state]
    simp only [perform, Controller.step, stopped, Option.elim_some]
    rfl
  have carried : (steps ++ [Step.stop]).flatMap Step.signals = signals := by
    simp [signals, List.flatMap_append, Step.signals]
  have placed := resting_placed created (steps ++ [Step.stop]) (ended ▸ stop_rests stopped)
  rw [ended, carried] at placed
  refine ⟨by simp [again, Controller.placed, Bus.carry_subscriptions, Bus.empty], ?_, ?_⟩
  · intro path
    simp only [again, Controller.placed, Bus.last?_carry]
    exact Option.or_none
  · intro later
    refine ⟨congrArg (run later) placed, ?_, stop_resting⟩
    intro started
    simp [start, started]

end

theorem evening_renewed :
    let fresh := idle [evening, night] sluggish
    let steps : List Step := [.publish [("switches.deck", .value (.whole 1))], .start, .start,
      .advance 1.5, .publish [("switches.mast", .value (.whole 1)), ("switches.deck", .failure "lost")],
      .advance 0.125, .stop, .stop, .publish [("switches.deck", .value (.whole 1))], .start,
      .advance 1.25]
    let signals := steps.flatMap Step.signals
    create [evening, night] sluggish = .ok fresh ∧
      (run steps fresh).state.active = ["evening", "night"] ∧
      ∃ last, (run steps fresh).state.stop = some last ∧
        let again := fresh.placed (Bus.empty.carry signals) last.state.now
        (run [.start] again).state.active = ["evening", "night"] ∧
        again.bus.subscriptions = [] ∧
        (∀ path, again.bus.last? path = (Bus.published path signals).getLast?) ∧
        ∀ later, run later last.state = run later again ∧
          ((run later again).state.started = true →
            (run later again).state.start = .still (run later again).state) ∧
          ((run later again).state.started = false →
            (run later again).state.stop = some (.still (run later again).state)) := by
  intro fresh steps signals
  have created : create [evening, night] sluggish = .ok fresh := rfl
  have active : (run steps fresh).state.active = ["evening", "night"] := by decide +kernel
  have stops : ((run steps fresh).state.stop.all fun last =>
      (run [.start] (fresh.placed (Bus.empty.carry signals) last.state.now)).state.active =
        ["evening", "night"]) = true := by decide +kernel
  have ends : (run steps fresh).state.stop.isSome = true := by decide +kernel
  obtain ⟨last, stopped⟩ := Option.isSome_iff_exists.mp ends
  simp only [stopped, Option.all_some, decide_eq_true_eq] at stops
  exact ⟨created, active, last, stopped, stops, stop_renews created steps stopped⟩

end Cadence.Controller
