import Cadence.Proofs.Controller.Runs

namespace Cadence.Controller
open Outcome

variable {c d : Controller} {s : Station} {name : String} {names : List String}
  {history : List Effect}

def Spares (names : List String) (step : Controller → Outcome Controller Effect) : Prop :=
  ∀ c, ∀ s ∈ (step c).state.stations, s.name ∉ names → s ∈ c.stations

theorem visit_spares {step : Controller → Station → Outcome Station Effect}
    (reaches : ∀ (c : Controller) (s : Station),
      s.Reaches c.outlet (step c s).state (step c s).reports) (name : String) :
    Spares [name] fun c => c.visit (step c) name := by
  intro c s member different
  dsimp only at member
  cases found : c.station? name with
  | none => rwa [visit_missing _ found] at member
  | some old =>
      rw [visit_found _ found] at member
      rcases mem_setStation member with rfl | ⟨among, -⟩
      · have named : (step c old).state.name = name :=
          (reaches c old).name.trans (station?_some found).2
        exact absurd (List.mem_singleton.mpr named) different
      · exact among

variable [Host]

theorem readFeed_spares (name : String) : Spares [name] (readFeed name) := by
  intro c s member different
  cases found : c.station? name with
  | none => simpa [readFeed, found] using member
  | some old =>
      rw [readFeed_state found] at member
      rcases mem_setStation member with rfl | ⟨among, -⟩
      · exact absurd (List.mem_singleton.mpr (station?_some found).2) different
      · exact among

omit [Host] in
theorem Spares.andThen {first second : Controller → Outcome Controller Effect}
    (one : Spares names first) (two : Spares names second) :
    Spares names fun c => (first c).andThen second :=
  fun c s member outside => one c s (two _ s member outside) outside

omit [Host] in
theorem Spares.each {step : String → Controller → Outcome Controller Effect}
    (spares : ∀ name, Spares [name] (step name)) (names : List String) :
    Spares names (Outcome.each step names) := by
  induction names with
  | nil => exact fun c s member _ => member
  | cons name rest ih =>
      intro c s member outside
      simp only [List.mem_cons, not_or] at outside
      exact spares name c s (ih _ s member outside.2) (by simpa using outside.1)

theorem settle_spares (names : List String) : Spares names (settle names) :=
  ((Spares.each readFeed_spares names).andThen
    (Spares.each (visit_spares fun _ _ => Station.obey_reaches) names)).andThen
      (Spares.each (visit_spares fun _ _ => Station.dispatch_reaches) names)

def Flowing (c : Controller) (_ : List Effect) : Prop := ∀ s ∈ c.stations, s.Flows

theorem dispatch_flowsAt (name : String) (c : Controller) :
    (c.dispatch name).state.At name Station.Flows :=
  visit_makes (fun _ => Station.dispatch_reaches)
    (fun s _ => Station.dispatch_flows c.outlet c.now s) name

theorem flowsAt_dispatch (name other : String) (c : Controller) (flows : c.At other Station.Flows) :
    (c.dispatch name).state.At other Station.Flows :=
  visit_at (fun _ _ => Station.dispatch_reaches)
    (fun c s _ => Station.dispatch_flows c.outlet c.now s) name other c [] flows

theorem settle_flowing (others : ∀ s ∈ c.stations, s.name ∉ names → s.Flows) :
    (c.settle names).state.Flowing history := by
  intro s member
  by_cases among : s.name ∈ names
  · exact each_makes dispatch_flowsAt flowsAt_dispatch names _ s.name (.inl among) s member rfl
  · exact others s (settle_spares names c s member among) among

theorem flowing_timely : Timely Flowing where
  clock _ _ _ _ flowing := flowing
  fires owner due c history flowing := by
    have dispatched (step : Controller → Station → Outcome Station Effect)
        (reaches : ∀ (c : Controller) (s : Station),
          s.Reaches c.outlet (step c s).state (step c s).reports) (name : String) (d : Controller)
        (flowing : d.Flowing history) :
        ((d.visit (step d) name).andThen (dispatch name)).state.Flowing history := by
      intro s member
      by_cases own : s.name = name
      · exact dispatch_flowsAt name _ s member own
      · have outside : s.name ∉ [name] := by simpa using own
        have before := visit_spares (fun _ _ => Station.dispatch_reaches) name _ s member outside
        exact flowing s (visit_spares reaches name d s before outside)
    cases owner with
    | alarm => exact flowing
    | sequencer name =>
        exact dispatched (fun _ => Station.fire) (fun _ _ => Station.fire_reaches) name
          { c with now := due } flowing
    | call name =>
        exact dispatched (fun c => Station.arrive c.outlet) (fun _ _ => Station.arrive_reaches) name
          { c with now := due } flowing

theorem flowing_stepwise : Stepwise Flowing where
  start c history flowing := by
    refine start_keeps (fun _ => flowing) (fun _ _ => flowing) ?_ ?_
    · intro _ _ s member
      obtain ⟨task, -, rfl⟩ := List.mem_map.mp member
      exact fun _ => rfl
    · intro _ task _ d history' flowing'
      exact settle_flowing fun s member _ => flowing' s member
  stop c history outcome stopped flowing := by
    refine stop_keeps ?_ stopped flowing
    intro released started all s member
    cases member
  publish signals c history flowing := by
    rw [publish_eq]
    exact settle_flowing fun s member _ => flowing s member
  advance seconds := flowing_timely.advance seconds
  turn c history s on member flowing := by
    rw [turn, andThen_state]
    refine settle_flowing fun t among outside => ?_
    rw [note_state] at among
    rcases mem_setStation among with rfl | ⟨old, -⟩
    · exact absurd (List.mem_singleton.mpr rfl) outside
    · exact flowing t old
  ignore _ _ _ _ flowing := flowing

theorem created_flowing {tasks : List Task} {outlet : Outlet}
    (created : create tasks outlet = .ok c) (steps : List Step) :
    (run steps c).state.Flowing (run steps c).reports := by
  obtain ⟨-, rfl⟩ := create_eq created
  exact flowing_stepwise.run steps _ [] (by simp [Flowing, idle])

def Drained (c : Controller) : Prop :=
  c.outlet.isDelayed = false → ∀ s ∈ c.stations, s.waiting = []

theorem created_drained {tasks : List Task} {outlet : Outlet}
    (created : create tasks outlet = .ok c) (steps : List Step) : (run steps c).state.Drained := by
  intro undelayed s member
  have free := ((created_booked created steps).accounts s member).undelayed undelayed
  have outbox := created_flowing created steps s member free
  simp [Station.waiting, free, outbox]

end Cadence.Controller
