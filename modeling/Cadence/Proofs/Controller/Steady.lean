import Cadence.Controller.Clock
import Cadence.Proofs.Keeps

namespace Cadence.Controller
open Outcome

variable {c : Controller} {s t : Station} {name : String}

theorem station?_some (found : c.station? name = some s) : s ∈ c.stations ∧ s.name = name :=
  ⟨List.mem_of_find?_eq_some found, by simpa using List.find?_some found⟩

theorem station?_none (missing : c.station? name = none) : name ∉ c.stations.map Station.name := by
  simpa [station?] using missing

theorem mem_setStation (member : s ∈ (c.setStation t).stations) :
    s = t ∨ s ∈ c.stations ∧ s.name ≠ t.name := by
  obtain ⟨old, among, rfl⟩ := List.mem_map.mp member
  split
  · exact .inl rfl
  · next different => exact .inr ⟨among, different⟩

@[simp] theorem setStation_names (c : Controller) (t : Station) :
    (c.setStation t).stations.map Station.name = c.stations.map Station.name := by
  simp only [setStation, List.map_map]
  apply List.map_congr_left
  intro old _
  by_cases same : old.name = t.name <;> simp [same]

theorem station?_setStation (c : Controller) (t : Station) (name : String) :
    (c.setStation t).station? name =
      (c.station? name).map fun s => if s.name = t.name then t else s := by
  have unchanged : (fun s : Station => decide (s.name = name)) ∘
      (fun s => if s.name = t.name then t else s) = fun s => decide (s.name = name) := by
    funext s
    by_cases same : s.name = t.name <;> simp [same]
  simp only [station?, setStation, List.find?_map, unchanged]

theorem station?_setStation_self (found : c.station? t.name = some s) :
    (c.setStation t).station? t.name = some t := by
  simp [station?_setStation, found, (station?_some found).2]

theorem station?_setStation_other (different : name ≠ t.name) :
    (c.setStation t).station? name = c.station? name := by
  rw [station?_setStation]
  cases found : c.station? name with
  | none => rfl
  | some s => simp [(station?_some found).2, different]

theorem visit_missing (step : Station → Outcome Station Effect) (missing : c.station? name = none) :
    c.visit step name = .still c := by
  simp [visit, missing]

theorem visit_found (step : Station → Outcome Station Effect) (found : c.station? name = some s) :
    c.visit step name =
      ⟨{ c.setStation (step s).state with agenda := (step s).reports.foldl arm c.agenda },
        (step s).reports⟩ := by
  simp [visit, found]

theorem visit_keeps {invariant : Controller → List Effect → Prop}
    {step : Controller → Station → Outcome Station Effect}
    (keeps : ∀ c history s, c.station? name = some s → invariant c history →
      invariant { c.setStation (step c s).state with
        agenda := (step c s).reports.foldl arm c.agenda } (history ++ (step c s).reports)) :
    Keeps invariant fun c => c.visit (step c) name := by
  intro c history holds
  dsimp only
  cases found : c.station? name with
  | none =>
      rw [visit_missing _ found]
      exact keeps_still c history holds
  | some s =>
      rw [visit_found _ found]
      exact keeps c history s found holds

variable [Host]

structure Timely (invariant : Controller → List Effect → Prop) : Prop where
  clock : ∀ c history now alarm, invariant c history →
    invariant { c with now := now, alarm := alarm } history
  fires : ∀ owner due, Keeps invariant (Controller.fire owner due)

namespace Timely
variable {invariant : Controller → List Effect → Prop}

theorem fireBy (timely : Timely invariant) (target : Instant) (fuel : Nat) :
    Keeps invariant (Controller.fireBy target fuel) := by
  induction fuel with
  | zero => exact keeps_still
  | succ fuel ih =>
      intro c history holds
      cases next : c.nextBy? target with
      | none => simpa [Controller.fireBy, next] using holds
      | some timer =>
          simp only [Controller.fireBy, next]
          exact ((timely.fires timer.1 timer.2).andThen ih) c history holds

theorem arriveAt (timely : Timely invariant) {history : List Effect} (target : Instant)
    (holds : invariant c history) : invariant (c.arriveAt target) history := by
  unfold Controller.arriveAt
  split
  · exact holds
  · exact timely.clock c history target c.alarm holds

theorem advance (timely : Timely invariant) (seconds : Float) :
    Keeps invariant (Controller.advance seconds) := by
  intro c history holds
  have fired := timely.fireBy (c.now.after seconds) patience c history holds
  simpa [Controller.advance] using timely.arriveAt (c.now.after seconds) fired

theorem wait (timely : Timely invariant) {isOver : Controller → Bool} {fuel : Nat}
    {outcome : Outcome Controller Effect} (history : List Effect)
    (waited : Controller.wait isOver fuel c = some outcome) (holds : invariant c history) :
    invariant outcome.state (history ++ outcome.reports) ∧ isOver outcome.state = true := by
  induction fuel generalizing c history outcome with
  | zero =>
      simp only [Controller.wait] at waited
      split at waited
      · next ended =>
          obtain rfl := Option.some.inj waited
          exact ⟨by simpa using holds, ended⟩
      · cases waited
  | succ fuel ih =>
      simp only [Controller.wait] at waited
      split at waited
      · next ended =>
          obtain rfl := Option.some.inj waited
          exact ⟨by simpa using holds, ended⟩
      · cases next : c.next? with
        | none => simp [next] at waited
        | some timer =>
            simp only [next, followedBy, Option.map_eq_some_iff] at waited
            obtain ⟨later, waited', rfl⟩ := waited
            have fired := timely.fires timer.1 timer.2 c history holds
            obtain ⟨holds', ended⟩ := ih _ waited' fired
            exact ⟨by simpa [List.append_assoc] using holds', ended⟩

end Timely

structure Steady (invariant : Controller → List Effect → Prop) : Prop where
  clock : ∀ c history now alarm, invariant c history →
    invariant { c with now := now, alarm := alarm } history
  fire : ∀ name, Keeps invariant (visit Station.fire name)
  arrive : ∀ name, Keeps invariant fun c => c.visit (Station.arrive c.outlet) name
  dispatch : ∀ name, Keeps invariant (dispatch name)

namespace Steady
variable {invariant : Controller → List Effect → Prop}

theorem timely (steady : Steady invariant) : Timely invariant where
  clock := steady.clock
  fires := by
    intro owner due c history holds
    cases owner with
    | alarm => simpa [Controller.fire] using steady.clock c history due none holds
    | sequencer name =>
        exact (steady.fire name).andThen (steady.dispatch name) _ _
          (steady.clock c history due c.alarm holds)
    | call name =>
        exact (steady.arrive name).andThen (steady.dispatch name) _ _
          (steady.clock c history due c.alarm holds)

theorem release (steady : Steady invariant)
    (close : ∀ c history name, invariant c history →
      invariant { c with bus := c.bus.close name } history)
    (halt : ∀ name, Keeps invariant fun c => c.visit (Station.handle c.now .stop) name)
    {outcome : Outcome Controller Effect} (history : List Effect)
    (released : c.release name = some outcome) (holds : invariant c history) :
    invariant outcome.state (history ++ outcome.reports) ∧ isQuiet name outcome.state = true := by
  simp only [Controller.release, followedBy, Option.map_eq_some_iff] at released
  obtain ⟨later, waited, rfl⟩ := released
  have halted := (halt name).andThen (steady.dispatch name) _ _ (close c history name holds)
  obtain ⟨holds', quiet⟩ := steady.timely.wait _ waited halted
  exact ⟨by simpa [List.append_assoc] using holds', quiet⟩

end Steady

structure Fixed where
  tasks : List Task
  outlet : Outlet
  started : Bool
  names : List String
  active : List String
  bus : Bus String Signal

def fixed (c : Controller) : Fixed :=
  ⟨c.tasks, c.outlet, c.started, c.stations.map Station.name, c.active, c.bus⟩

omit [Host] in
@[simp] theorem setStation_fixed (t : Station) (c : Controller) :
    (c.setStation t).fixed = c.fixed := by
  simp only [fixed, setStation_names]
  rfl

omit [Host] in
@[simp] theorem visit_fixed (step : Station → Outcome Station Effect) (name : String)
    (c : Controller) : (c.visit step name).state.fixed = c.fixed := by
  cases found : c.station? name with
  | none => rw [visit_missing step found]; rfl
  | some s =>
      rw [visit_found step found]
      exact setStation_fixed (step s).state c

omit [Host] in
theorem visit_now (step : Station → Outcome Station Effect) (name : String) (c : Controller) :
    (c.visit step name).state.now = c.now := by
  cases found : c.station? name with
  | none => rw [visit_missing step found]; rfl
  | some s => rw [visit_found step found]; rfl

theorem steady_fixed (property : Fixed → Prop) : Steady fun c _ => property c.fixed where
  clock _ _ _ _ holds := holds
  fire name c _ holds := by simpa using holds
  arrive name c _ holds := by simpa using holds
  dispatch name c _ holds := by simpa [Controller.dispatch] using holds

@[simp] theorem advance_fixed (seconds : Float) (c : Controller) :
    (c.advance seconds).state.fixed = c.fixed :=
  (steady_fixed (· = c.fixed)).timely.advance seconds c [] rfl

theorem settle_keeps {invariant : Controller → List Effect → Prop} {names : List String}
    (read : ∀ name ∈ names, Keeps invariant (readFeed name))
    (obey : ∀ name ∈ names, Keeps invariant (obey name))
    (dispatch : ∀ name ∈ names, Keeps invariant (dispatch name)) :
    Keeps invariant (settle names) :=
  ((Keeps.each read).andThen (Keeps.each obey)).andThen (Keeps.each dispatch)

theorem start_fresh (resting : c.started = false) (nonempty : c.tasks ≠ []) :
    c.start =
      (Outcome.mk { c with started := true, stations := c.tasks.map Station.fresh }
        [.diagnostic (schedulingText c.tasks), .status standingBy]).andThen
          (Outcome.each (fun task c => (c.subscribe task).settle [task.name]) c.tasks) := by
  simp [start, resting, nonempty]

theorem start_keeps {invariant : Controller → List Effect → Prop} {history : List Effect}
    (already : c.started = true → invariant c history)
    (bare : c.started = false → c.tasks = [] →
      invariant { c with started := true } (history ++ [.status noTasks]))
    (manned : c.started = false → c.tasks ≠ [] →
      invariant { c with started := true, stations := c.tasks.map Station.fresh }
        (history ++ [.diagnostic (schedulingText c.tasks), .status standingBy]))
    (settles : c.started = false → ∀ task ∈ c.tasks,
      Keeps invariant fun d => (d.subscribe task).settle [task.name]) :
    invariant c.start.state (history ++ c.start.reports) := by
  cases started : c.started with
  | true =>
      have still : c.start = .still c := by simp [start, started]
      rw [still]
      exact keeps_still c history (already started)
  | false =>
      by_cases empty : c.tasks = []
      · have begins : c.start = ⟨{ c with started := true }, [.status noTasks]⟩ := by
          simp [start, started, empty]
        rw [begins]
        exact bare started empty
      · rw [start_fresh started empty, andThen_reports, ← List.append_assoc]
        exact Keeps.each (settles started) _ _ (manned started empty)

end Cadence.Controller
