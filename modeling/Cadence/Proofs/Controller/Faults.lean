import Cadence.Proofs.Controller.Runs

namespace Cadence
open Outcome

def Outlet.reliable (outlet : Outlet) : Outlet := { outlet with faults := [] }

namespace Effect

def isFailure : Effect → Bool
  | .logged record => record.event = "output_failed"
  | _ => false

def withoutFailures (history : List Effect) : List Effect := history.filter (!·.isFailure)

@[simp] theorem withoutFailures_append (history effects : List Effect) :
    withoutFailures (history ++ effects) = withoutFailures history ++ withoutFailures effects :=
  List.filter_append ..

end Effect

open Effect

namespace Station
variable {s : Station} {outlet : Outlet} {now : Instant} {event : Event}

theorem put_withoutFailures :
    withoutFailures (s.put outlet now event) = [.called s.name (outlet.call event) now] := by
  cases fault : outlet.faults.lookup event.activity.path with
  | none => simp [put_eq, fault, withoutFailures, isFailure, Outlet.failure]
  | some text => simp [put_eq, fault, withoutFailures, isFailure, Outlet.failure]

theorem announced_withoutFailures [Host] (events : List Event) :
    withoutFailures (s.announced outlet now events) =
      events.flatMap fun event =>
        [.diagnostic (outlet.announcement event), .called s.name (outlet.call event) now] := by
  induction events with
  | nil => rfl
  | cons event rest ih =>
      rw [announced, List.flatMap_cons, withoutFailures_append, ← announced, ih, List.flatMap_cons]
      congr 1
      exact congrArg (Effect.diagnostic (outlet.announcement event) :: ·) put_withoutFailures

theorem dispatch_reliable [Host] (outlet : Outlet) (now : Instant) (s : Station) :
    (s.dispatch outlet.reliable now).state = (s.dispatch outlet now).state ∧
      withoutFailures (s.dispatch outlet.reliable now).reports =
        withoutFailures (s.dispatch outlet now).reports := by
  rw [dispatch_eq, dispatch_eq]
  cases s.inFlight with
  | some call => exact ⟨rfl, rfl⟩
  | none =>
      cases s.outbox with
      | nil => exact ⟨rfl, rfl⟩
      | cons event rest =>
          have delayed : outlet.reliable.isDelayed = outlet.isDelayed := rfl
          simp only [delayed]
          split
          · exact ⟨rfl, rfl⟩
          · refine ⟨rfl, ?_⟩
            change withoutFailures (s.announced outlet.reliable now _) =
              withoutFailures (s.announced outlet now _)
            rw [announced_withoutFailures, announced_withoutFailures]
            rfl

theorem arrive_reliable (outlet : Outlet) (s : Station) :
    (s.arrive outlet.reliable).state = (s.arrive outlet).state ∧
      withoutFailures (s.arrive outlet.reliable).reports =
        withoutFailures (s.arrive outlet).reports := by
  unfold arrive
  cases s.inFlight with
  | none => exact ⟨rfl, rfl⟩
  | some call =>
      refine ⟨rfl, ?_⟩
      rw [put_withoutFailures, put_withoutFailures]
      rfl

end Station

namespace Controller

variable {c : Controller} {o p : Outcome Controller Effect} {name : String}
  {step next : Controller → Outcome Controller Effect}

def reliable (c : Controller) : Controller := { c with outlet := c.outlet.reliable }

/-- What came of a step, and of the same step on an outlet whose calls never fail: everything but the
records of failures is the same. -/
structure Unhurt (o p : Outcome Controller Effect) : Prop where
  state : p.state = o.state.reliable
  reports : withoutFailures p.reports = withoutFailures o.reports

def Immune (step : Controller → Outcome Controller Effect) : Prop :=
  ∀ c, Unhurt (step c) (step c.reliable)

theorem Immune.of_eq
    (same : ∀ c, step c.reliable = ⟨(step c).state.reliable, (step c).reports⟩) : Immune step :=
  fun c => ⟨by rw [same], by rw [same]⟩

theorem immune_still : Immune still := .of_eq fun _ => rfl

theorem Unhurt.andThen (first : Unhurt o p) (immune : Immune next) :
    Unhurt (o.andThen next) (p.andThen next) := by
  have second := immune o.state
  rw [← first.state] at second
  exact ⟨second.state, by simp only [andThen_reports, withoutFailures_append, first.reports,
    second.reports]⟩

theorem Immune.andThen (first : Immune step) (second : Immune next) :
    Immune fun c => (step c).andThen next :=
  fun c => (first c).andThen second

theorem Immune.each {α : Type} {step : α → Controller → Outcome Controller Effect} {items : List α}
    (immune : ∀ item ∈ items, Immune (step item)) : Immune (Outcome.each step items) := by
  induction items with
  | nil => exact immune_still
  | cons item rest ih =>
      exact (immune item (by simp)).andThen (ih fun other among => immune other (by simp [among]))

/-! ## Stations -/

theorem arm_withoutFailures (agenda : List Owner) (effects : List Effect) :
    (withoutFailures effects).foldl arm agenda = effects.foldl arm agenda := by
  induction effects generalizing agenda with
  | nil => rfl
  | cons effect rest ih =>
      by_cases failure : effect.isFailure = true
      · have ignored : arm agenda effect = agenda := by cases effect <;> simp_all [arm, isFailure]
        have dropped : withoutFailures (effect :: rest) = withoutFailures rest := by
          simp [withoutFailures, failure]
        rw [dropped, ih, List.foldl_cons, ignored]
      · have kept : withoutFailures (effect :: rest) = effect :: withoutFailures rest := by
          simp [withoutFailures, failure]
        rw [kept, List.foldl_cons, ih, List.foldl_cons]

theorem visit_immune {step : Controller → Station → Outcome Station Effect}
    (same : ∀ c s, (step c.reliable s).state = (step c s).state ∧
      withoutFailures (step c.reliable s).reports = withoutFailures (step c s).reports) :
    Immune fun c => c.visit (step c) name := by
  intro c
  dsimp only
  cases found : c.station? name with
  | none =>
      have missing : c.reliable.station? name = none := found
      rw [visit_missing _ found, visit_missing _ missing]
      exact immune_still c
  | some s =>
      have found' : c.reliable.station? name = some s := found
      obtain ⟨state, reports⟩ := same c s
      rw [visit_found _ found, visit_found _ found']
      refine ⟨?_, reports⟩
      have agenda : (step c.reliable s).reports.foldl arm c.reliable.agenda =
          (step c s).reports.foldl arm c.agenda := by
        rw [← arm_withoutFailures, reports, arm_withoutFailures]
        rfl
      dsimp only
      rw [agenda, state]
      rfl

theorem obey_immune (name : String) : Immune (obey name) :=
  visit_immune fun _ _ => ⟨rfl, rfl⟩

theorem dispatch_immune [Host] (name : String) : Immune (dispatch name) :=
  visit_immune fun c => Station.dispatch_reliable c.outlet c.now

theorem note_immune (task : Task) (finding : Finding) : Immune (note task finding) := by
  apply Immune.of_eq
  intro c
  cases finding with
  | changed on =>
      cases on with
      | false => rfl
      | true =>
          have active : c.reliable.activate task.name = (c.activate task.name).reliable := by
            rw [activate, activate, apply_ite reliable]
            rfl
          simp only [note, active]
          rfl
  | finished => rfl
  | failed text => rfl

theorem readFeed_immune [Host] (name : String) : Immune (readFeed name) := by
  intro c
  cases found : c.station? name with
  | none =>
      have missing : c.reliable.station? name = none := found
      simp only [readFeed, found, missing]
      exact immune_still c
  | some s =>
      have found' : c.reliable.station? name = some s := found
      have notes : Immune (Outcome.each (note s.task) (s.read (c.bus.queued name)).reports) :=
        Immune.each fun finding _ => note_immune s.task finding
      simp only [readFeed, found, found']
      exact notes { c.setStation (s.read (c.bus.queued name)).state with
        bus := c.bus.take name (c.bus.queued name).length }

theorem settle_immune [Host] (names : List String) : Immune (settle names) :=
  ((Immune.each fun name _ => readFeed_immune name).andThen
    (Immune.each fun name _ => obey_immune name)).andThen
      (Immune.each fun name _ => dispatch_immune name)

/-! ## The clock -/

theorem fire_immune [Host] (owner : Owner) (due : Instant) : Immune (fire owner due) := by
  intro c
  cases owner with
  | alarm => exact ⟨rfl, rfl⟩
  | sequencer name =>
      have fires : Immune (visit Station.fire name) := visit_immune fun _ _ => ⟨rfl, rfl⟩
      exact fires.andThen (dispatch_immune name) { c with now := due }
  | call name =>
      have arrives : Immune fun c => c.visit (Station.arrive c.outlet) name :=
        visit_immune fun c => Station.arrive_reliable c.outlet
      exact arrives.andThen (dispatch_immune name) { c with now := due }

theorem next?_reliable (c : Controller) : c.reliable.next? = c.next? := by
  have due (owner : Owner) : c.reliable.due? owner = c.due? owner := by cases owner <;> rfl
  simp only [next?, timers, due]
  rfl

theorem nextBy?_reliable (target : Instant) (c : Controller) :
    c.reliable.nextBy? target = c.nextBy? target := by
  rw [nextBy?, next?_reliable, nextBy?]

theorem fireBy_immune [Host] (target : Instant) (fuel : Nat) : Immune (fireBy target fuel) := by
  induction fuel with
  | zero => exact immune_still
  | succ fuel ih =>
      intro c
      cases next : c.nextBy? target with
      | none =>
          simp only [fireBy, nextBy?_reliable, next]
          exact immune_still c
      | some timer =>
          simp only [fireBy, nextBy?_reliable, next]
          exact (fire_immune timer.1 timer.2).andThen ih c

theorem advance_immune [Host] (seconds : Float) : Immune (advance seconds) := by
  intro c
  let target := c.now.after seconds
  have arrives : Immune fun c => .still (c.arriveAt target) := by
    apply Immune.of_eq
    intro c
    rw [arriveAt, arriveAt, nextBy?_reliable]
    split <;> rfl
  exact (fireBy_immune target patience).andThen arrives c

/-! ## Stops -/

section both
variable {α β : Type} {r : α → α → Prop} {q : β → β → Prop} {one other : Option α}

theorem rel_map {f g : α → β} (both : Option.Rel r one other)
    (maps : ∀ x y, r x y → q (f x) (g y)) : Option.Rel q (one.map f) (other.map g) := by
  cases both with
  | none => exact .none
  | some related => exact .some (maps _ _ related)

theorem rel_bind {f g : α → Option β} (both : Option.Rel r one other)
    (binds : ∀ x y, r x y → Option.Rel q (f x) (g y)) :
    Option.Rel q (one.bind f) (other.bind g) := by
  cases both with
  | none => exact .none
  | some related => exact binds _ _ related

end both

theorem followedBy_unhurt {next : Controller → Option (Outcome Controller Effect)}
    (first : Unhurt o p) (immune : ∀ c, Option.Rel Unhurt (next c) (next c.reliable)) :
    Option.Rel Unhurt (o.followedBy next) (p.followedBy next) := by
  have second := immune o.state
  rw [← first.state] at second
  apply rel_map second
  intro later later' unhurt
  exact ⟨unhurt.state, by simp only [withoutFailures_append, first.reports, unhurt.reports]⟩

theorem wait_immune [Host] {isOver : Controller → Bool}
    (same : ∀ c : Controller, isOver c.reliable = isOver c) (fuel : Nat) (c : Controller) :
    Option.Rel Unhurt (wait isOver fuel c) (wait isOver fuel c.reliable) := by
  induction fuel generalizing c with
  | zero =>
      simp only [wait, same]
      split
      · exact .some (immune_still c)
      · exact .none
  | succ fuel ih =>
      -- The next timer is the same in both waits, so that they end together or go on together.
      simp only [wait, same, next?_reliable]
      split
      · exact .some (immune_still c)
      · cases c.next? with
        | none => exact .none
        | some timer => exact followedBy_unhurt (fire_immune timer.1 timer.2 c) ih

theorem release_immune [Host] (name : String) (c : Controller) :
    Option.Rel Unhurt (c.release name) (c.reliable.release name) := by
  have halts : Immune fun c => c.visit (Station.handle c.now .stop) name :=
    visit_immune fun _ _ => ⟨rfl, rfl⟩
  have halted : Unhurt (c.halt name) (c.reliable.halt name) :=
    halts.andThen (dispatch_immune name) { c with bus := c.bus.close name }
  rw [release_eq, release_eq]
  exact followedBy_unhurt halted (wait_immune (fun _ => rfl) patience)

theorem releaseAll_immune [Host] (names : List String) (c : Controller) :
    Option.Rel Unhurt (releaseAll names c) (releaseAll names c.reliable) := by
  induction names generalizing c with
  | nil => exact .some (immune_still c)
  | cons name rest ih =>
      apply rel_bind (release_immune name c)
      intro released released' unhurt
      exact followedBy_unhurt unhurt ih

theorem stop_immune [Host] (c : Controller) : Option.Rel Unhurt c.stop c.reliable.stop := by
  have names : c.reliable.stations.map Station.name = c.stations.map Station.name := rfl
  have started : c.reliable.started = c.started := rfl
  have gives : Immune fun c =>
      .still { c with started := false, stations := [], active := [], agenda := [] } :=
    .of_eq fun _ => rfl
  rw [stop, stop, started, names]
  split
  · apply rel_map (releaseAll_immune (c.stations.map Station.name) c)
    intro released released' unhurt
    exact unhurt.andThen gives
  · exact .some (immune_still c)

/-! ## Runs -/

theorem start_immune [Host] : Immune start := by
  intro c
  have started : c.reliable.started = c.started := rfl
  have tasks : c.reliable.tasks = c.tasks := rfl
  have engages : Immune (Outcome.each (fun task c => (c.subscribe task).settle [task.name]) c.tasks) :=
    Immune.each fun task _ d => settle_immune [task.name] (d.subscribe task)
  rw [start, start, started, tasks]
  split
  · exact immune_still c
  · split
    · exact ⟨rfl, rfl⟩
    · exact Unhurt.andThen ⟨rfl, rfl⟩ engages

theorem publish_immune [Host] (signals : List (String × Signal)) : Immune (publish signals) := by
  intro c
  rw [publish_eq, publish_eq]
  exact settle_immune _ { c with bus := c.bus.carry signals }

theorem turn_immune [Host] (name : String) (s : Station) (on : Bool) : Immune (turn name s on) :=
  fun c => (note_immune s.task (.changed on)).andThen (settle_immune [name])
    (c.setStation (s.enqueue (Command.ofState on)))

theorem perform_immune [Host] (step : Step) : Immune (perform step) := by
  intro c
  cases step with
  | start => exact start_immune c
  | publish signals => exact publish_immune signals c
  | advance seconds => exact advance_immune seconds c
  | stop =>
      have stops := stop_immune c
      simp only [perform, Controller.step]
      generalize c.stop = last, c.reliable.stop = last' at stops
      cases stops with
      | none => exact immune_still c
      | some unhurt => exact unhurt
  | trigger task value =>
      cases found : c.station? task with
      | none =>
          have missing : c.reliable.station? task = none := found
          simp only [perform, Controller.step, trigger, found, missing]
          exact immune_still c
      | some s =>
          have found' : c.reliable.station? task = some s := found
          simp only [perform, Controller.step, trigger, found, found']
          by_cases one : value.same (.whole 1) = true
          · simp only [one, if_true]
            exact turn_immune task s true c
          · by_cases zero : value.same (.whole 0) = true
            · simp only [one, zero, if_true]
              exact turn_immune task s false c
            · simp only [one, zero]
              cases shown : value.quotedText with
              | error cause => exact immune_still c
              | ok text =>
                  cases told : (Problem.trigger task value).message with
                  | error cause => exact immune_still c
                  | ok message => exact ⟨rfl, rfl⟩

theorem run_immune [Host] (steps : List Step) : Immune (run steps) :=
  Immune.each fun step _ => perform_immune step

/-- It makes no difference to a run which calls fail, nor to a stop behind it. -/
theorem failures_change_nothing [Host] {tasks : List Task} {outlet : Outlet} {fresh : Controller}
    (created : create tasks outlet = .ok fresh) (steps : List Step) :
    create tasks outlet.reliable = .ok fresh.reliable ∧
      Unhurt (run steps fresh) (run steps fresh.reliable) ∧
      Option.Rel (fun last other => Unhurt last other ∧ other.state.now = last.state.now)
        (run steps fresh).state.stop (run steps fresh.reliable).state.stop := by
  obtain ⟨distinct, rfl⟩ := create_eq created
  have unhurt := run_immune steps (idle tasks outlet)
  refine ⟨?_, unhurt, ?_⟩
  · simp only [create, distinct, if_true]
    rfl
  · have stops := stop_immune (run steps (idle tasks outlet)).state
    rw [← unhurt.state] at stops
    generalize (run steps (idle tasks outlet)).state.stop = last,
      (run steps (idle tasks outlet).reliable).state.stop = last' at stops
    cases stops with
    | none => exact .none
    | some stopped => exact .some ⟨stopped, by rw [stopped.state]; rfl⟩

theorem evening_fan_fails :
    let fresh := idle [evening, night] sluggish
    let steps : List Step := [.publish [("switches.deck", .value (.whole 1))], .start, .advance 6.5,
      .publish [("switches.mast", .value (.whole 1)), ("switches.deck", .failure "lost")],
      .advance 0.5, .publish [("switches.deck", .value (.whole 1))], .stop, .start, .advance 7]
    let outcome := run steps fresh
    create [evening, night] sluggish = .ok fresh ∧
      (outcome.reports.filter Effect.isFailure).length = 7 ∧
      outcome.state.stop.isSome = true ∧
      create [evening, night] sluggish.reliable = .ok fresh.reliable ∧
      Unhurt outcome (run steps fresh.reliable) ∧
      Option.Rel (fun last other => Unhurt last other ∧ other.state.now = last.state.now)
        outcome.state.stop (run steps fresh.reliable).state.stop := by
  intro fresh steps outcome
  have created : create [evening, night] sluggish = .ok fresh := rfl
  have failures : (outcome.reports.filter Effect.isFailure).length = 7 := by decide +kernel
  have stops : outcome.state.stop.isSome = true := by decide +kernel
  exact ⟨created, failures, stops, failures_change_nothing created steps⟩

end Controller
end Cadence
