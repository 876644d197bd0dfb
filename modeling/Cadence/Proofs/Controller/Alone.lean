import Cadence.Proofs.Controller.Agreement
import Cadence.Proofs.Controller.Timers

namespace Cadence.Controller
open Outcome Effect

variable {name : String} {c d : Controller} {owner : Owner} {due target : Instant}

structure Alone (name : String) (c : Controller) : Prop where
  names : ∀ other ∈ c.shape.names, other = name
  alarm : c.alarm = none

theorem due?_own (same : c.view name = d.view name) (own : owner.task? = some name) :
    c.due? owner = d.due? owner := by
  have station := view_station same
  cases owner with
  | alarm => cases own
  | sequencer other =>
      obtain rfl := Option.some.inj own
      simp only [due?, station]
  | call other =>
      obtain rfl := Option.some.inj own
      simp only [due?, station]

theorem Alone.due?_other (alone : c.Alone name) (foreign : owner.task? ≠ some name) :
    c.due? owner = none := by
  have unmanned {other : String} (different : other ≠ name) : c.station? other = none := by
    cases found : c.station? other with
    | none => rfl
    | some s =>
        obtain ⟨member, rfl⟩ := station?_some found
        exact absurd (alone.names s.name (List.mem_map_of_mem member)) different
  cases owner with
  | alarm => exact alone.alarm
  | sequencer other => simp [due?, unmanned fun same => foreign (congrArg some same)]
  | call other => simp [due?, unmanned fun same => foreign (congrArg some same)]

theorem timers_filter (name : String) (c : Controller) :
    c.timers.filter (fun timer => timer.1.task? = some name) =
      (c.agenda.filter fun owner => owner.task? = some name).filterMap fun owner =>
        (c.due? owner).map fun due => (owner, due) := by
  rw [timers, List.filter_filterMap, List.filterMap_filter]
  apply List.filterMap_congr
  intro owner _
  cases c.due? owner with
  | none => simp
  | some due => by_cases own : owner.task? = some name <;> simp [own, Option.filter]

theorem timers_alone (alone : d.Alone name) (same : c.view name = d.view name) :
    d.timers = c.timers.filter fun timer => timer.1.task? = some name := by
  have agenda : c.agenda.filter (fun owner => owner.task? = some name) =
      d.agenda.filter fun owner => owner.task? = some name := congrArg View.timers same
  have all : d.timers = d.timers.filter fun timer => timer.1.task? = some name := by
    symm
    apply List.filter_eq_self.mpr
    intro timer among
    obtain ⟨owner, -, made⟩ := List.mem_filterMap.mp among
    obtain ⟨due, isDue, rfl⟩ := Option.map_eq_some_iff.mp made
    by_cases own : owner.task? = some name
    · simp [own]
    · rw [alone.due?_other own] at isDue
      cases isDue
  rw [all, timers_filter, timers_filter, agenda]
  apply List.filterMap_congr
  intro owner among
  rw [due?_own same (by simpa using (List.mem_filter.mp among).2)]

theorem nextBy?_own (alone : d.Alone name) (same : c.view name = d.view name)
    (next : c.nextBy? target = some (owner, due)) (own : owner.task? = some name) :
    d.nextBy? target = some (owner, due) := by
  obtain ⟨foremost, come⟩ := nextBy?_eq_some.mp next
  refine nextBy?_eq_some.mpr ⟨?_, come⟩
  rw [timers_alone alone same]
  exact foremost.filter (by simpa using own)

theorem nextBy?_none (alone : d.Alone name) (same : c.view name = d.view name)
    (past : c.nextBy? target = none) : d.nextBy? target = none := by
  rw [nextBy?_eq_none] at past ⊢
  intro timer among
  rw [timers_alone alone same] at among
  exact past timer (List.mem_filter.mp among).1

/-! ## Stretches of time -/

variable [Host]

theorem fire_other (foreign : owner.task? ≠ some name) (due : Instant) (c : Controller) :
    (c.fire owner due).state.view name = c.view name ∧ own name (c.fire owner due).reports = [] := by
  cases owner with
  | alarm => exact ⟨rfl, rfl⟩
  | sequencer other =>
      have different : other ≠ name := fun same => foreign (congrArg some same)
      have fires : Ignores name (visit Station.fire other) :=
        visit_other (fun _ _ => Station.fire_reaches) (fun _ _ _ => Station.armed_absorbed) different
      obtain ⟨view, -, silent⟩ := fires.andThen (dispatch_other different) { c with now := due }
      exact ⟨view, silent⟩
  | call other =>
      have different : other ≠ name := fun same => foreign (congrArg some same)
      have arrives : Ignores name fun c => c.visit (Station.arrive c.outlet) other :=
        visit_other (fun _ _ => Station.arrive_reaches)
          (fun _ _ _ armed => (Station.armed_arrived armed).elim) different
      obtain ⟨view, -, silent⟩ := arrives.andThen (dispatch_other different) { c with now := due }
      exact ⟨view, silent⟩

theorem fire_own (isOwn : owner.task? = some name) (due : Instant)
    (same : c.view name = d.view name) : Agree name (c.fire owner due) (d.fire owner due) := by
  cases owner with
  | alarm => cases isOwn
  | sequencer other =>
      obtain rfl := Option.some.inj isOwn
      have fires : Agrees other (visit Station.fire other) (visit Station.fire other) :=
        visit_agrees fun _ _ _ _ => rfl
      exact fires.andThen dispatch_agrees { c with now := due } { d with now := due } same rfl
  | call other =>
      obtain rfl := Option.some.inj isOwn
      have arrives : Agrees other (fun c => c.visit (Station.arrive c.outlet) other)
          fun c => c.visit (Station.arrive c.outlet) other :=
        visit_agrees fun _ _ outlet _ => by rw [outlet]
      exact arrives.andThen dispatch_agrees { c with now := due } { d with now := due } same rfl

omit [Host] in
@[simp] theorem visit_alarm (step : Station → Outcome Station Effect) (name : String)
    (c : Controller) : (c.visit step name).state.alarm = c.alarm := by
  cases found : c.station? name with
  | none => rw [visit_missing step found]; rfl
  | some s => rw [visit_found step found]; rfl

theorem fire_shape (owner : Owner) (due : Instant) (c : Controller) :
    (c.fire owner due).state.shape = c.shape :=
  shape_of_fixed ((steady_fixed (· = c.fixed)).timely.fires owner due c [] rfl)

theorem fire_calm (calm : c.alarm = none) (owner : Owner) (due : Instant) :
    (c.fire owner due).state.alarm = none := by
  cases owner with
  | alarm => rfl
  | sequencer other => simpa [fire, Controller.dispatch] using calm
  | call other => simpa [fire, Controller.dispatch] using calm

theorem Alone.fire (alone : c.Alone name) (owner : Owner) (due : Instant) :
    (c.fire owner due).state.Alone name := by
  refine ⟨?_, ?_⟩
  · rw [fire_shape]
    exact alone.names
  · exact fire_calm alone.alarm owner due

theorem fireBy_past {fuel : Nat} (past : c.nextBy? target = none) :
    fireBy target fuel c = .still c := by
  cases fuel with
  | zero => rfl
  | succ fuel => simp [fireBy, past]

theorem fireBy_more {fuel limit : Nat} (past : (fireBy target fuel c).state.nextBy? target = none)
    (more : fuel ≤ limit) : fireBy target limit c = fireBy target fuel c := by
  induction fuel generalizing c limit with
  | zero => exact fireBy_past past
  | succ fuel ih =>
      cases next : c.nextBy? target with
      | none => rw [fireBy_past next, fireBy_past next]
      | some timer =>
          cases limit with
          | zero => exact absurd more (by omega)
          | succ limit =>
              simp only [fireBy, next, andThen_state] at past ⊢
              simp only [andThen, ih past (by omega : fuel ≤ limit)]

/-- A stretch of time among other tasks and the same stretch alone: timers of other tasks that fire in
between are left out. -/
theorem fireBy_alone (fuel : Nat) (alone : d.Alone name) (same : c.view name = d.view name) :
    ∃ fewer, fewer ≤ fuel ∧
      (fireBy target fuel c).state.view name = (fireBy target fewer d).state.view name ∧
      own name (fireBy target fuel c).reports = own name (fireBy target fewer d).reports ∧
      (fireBy target fewer d).state.Alone name := by
  induction fuel generalizing c d with
  | zero => exact ⟨0, Nat.le_refl 0, same, rfl, alone⟩
  | succ fuel ih =>
      cases next : c.nextBy? target with
      | none =>
          rw [fireBy_past next]
          exact ⟨0, Nat.zero_le _, same, rfl, alone⟩
      | some timer =>
          obtain ⟨owner, due⟩ := timer
          simp only [fireBy, next, andThen_state, andThen_reports, own_append]
          by_cases isOwn : owner.task? = some name
          · have agree := fire_own isOwn due same
            obtain ⟨fewer, within, view, own, alone'⟩ := ih (alone.fire owner due) agree.view
            have nextAlone := nextBy?_own alone same next isOwn
            refine ⟨fewer + 1, by omega, ?_⟩
            simp only [fireBy, nextAlone, andThen_state, andThen_reports, own_append]
            exact ⟨view, by rw [agree.own, own], alone'⟩
          · obtain ⟨kept, silent⟩ := fire_other isOwn due c
            obtain ⟨fewer, within, view, own, alone'⟩ := ih alone (kept.trans same)
            exact ⟨fewer, by omega, view, by rw [silent, List.nil_append, own], alone'⟩

end Cadence.Controller
