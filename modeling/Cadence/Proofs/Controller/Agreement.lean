import Cadence.Proofs.Controller.View

namespace Cadence.Controller
open Outcome Effect

variable {name : String} {c d : Controller} {s t : Station} {o p q : Outcome Controller Effect}

structure Agree (name : String) (o p : Outcome Controller Effect) : Prop where
  view : o.state.view name = p.state.view name
  now : o.state.now = p.state.now
  own : own name o.reports = own name p.reports

theorem Agree.symm (agree : Agree name o p) : Agree name p o :=
  ⟨agree.view.symm, agree.now.symm, agree.own.symm⟩

theorem Agree.trans (first : Agree name o p) (second : Agree name p q) : Agree name o q :=
  ⟨first.view.trans second.view, first.now.trans second.now, first.own.trans second.own⟩

def Agrees (name : String) (step next : Controller → Outcome Controller Effect) : Prop :=
  ∀ c d, c.view name = d.view name → c.now = d.now → Agree name (step c) (next d)

section runs
variable {step next step' next' : Controller → Outcome Controller Effect}

theorem Agree.andThen (first : Agree name o p)
    (second : Agree name (next o.state) (next' p.state)) :
    Agree name (o.andThen next) (p.andThen next') :=
  ⟨second.view, second.now, by simp [first.own, second.own]⟩

theorem Agrees.andThen (first : Agrees name step step') (second : Agrees name next next') :
    Agrees name (fun c => (step c).andThen next) fun c => (step' c).andThen next' := by
  intro c d view now
  have one := first c d view now
  exact one.andThen (second _ _ one.view one.now)

variable {α : Type} {key : α → String} {item : α → Controller → Outcome Controller Effect}

theorem each_filter (agrees : ∀ a, key a = name → Agrees name (item a) (item a))
    (ignores : ∀ a, key a ≠ name → Ignores name (item a)) (items : List α) :
    Agrees name (Outcome.each item items)
      (Outcome.each item (items.filter fun a => key a = name)) := by
  induction items with
  | nil => exact fun c d view now => ⟨view, now, rfl⟩
  | cons a rest ih =>
      by_cases same : key a = name
      · rw [List.filter_cons_of_pos (by simpa using same)]
        exact (agrees a same).andThen ih
      · rw [List.filter_cons_of_neg (by simpa using same)]
        intro c d view now
        obtain ⟨kept, nowKept, silent⟩ := ignores a same c
        have later := ih _ d (kept.trans view) (nowKept.trans now)
        exact ⟨later.view, later.now, by simp [silent, later.own]⟩

theorem each_agrees {items others : List α}
    (agrees : ∀ a, key a = name → Agrees name (item a) (item a))
    (ignores : ∀ a, key a ≠ name → Ignores name (item a))
    (same : items.filter (fun a => key a = name) = others.filter fun a => key a = name) :
    Agrees name (Outcome.each item items) (Outcome.each item others) := by
  intro c d view now
  have one := each_filter agrees ignores items c d view now
  have other := each_filter agrees ignores others d d rfl rfl
  rw [same] at one
  exact one.trans other.symm

end runs

/-! ## Steps of a task -/

theorem arm_same {effects : List Effect} {agenda other : List Owner}
    (same : agenda.filter (fun owner => owner.task? = some name) =
      other.filter fun owner => owner.task? = some name) :
    (effects.foldl arm agenda).filter (fun owner => owner.task? = some name) =
      (effects.foldl arm other).filter fun owner => owner.task? = some name := by
  induction effects generalizing agenda other with
  | nil => exact same
  | cons effect rest ih =>
      apply ih
      cases effect with
      | armed owner =>
          have swap (row : List Owner) : (row.filter (· ≠ owner)).filter
              (fun owner => owner.task? = some name) =
                (row.filter fun owner => owner.task? = some name).filter (· ≠ owner) := by
            simp only [List.filter_filter, Bool.and_comm]
          simp only [arm, List.filter_append, swap, same]
      | _ => exact same

theorem setStation_view (same : c.view name = d.view name) (t : Station) :
    (c.setStation t).view name = (d.setStation t).view name := by
  simp only [view, View.mk.injEq] at same
  obtain ⟨station, outlet, timers, bus, isActive⟩ := same
  simp only [view, station?_setStation, station, View.mk.injEq, true_and]
  exact ⟨outlet, timers, bus, isActive⟩

theorem visit_agrees {step : Controller → Station → Outcome Station Effect}
    (depends : ∀ c d : Controller, c.outlet = d.outlet → c.now = d.now → step c = step d) :
    Agrees name (fun c => c.visit (step c) name) fun c => c.visit (step c) name := by
  intro c d same now
  have station := view_station same
  have steps : step c = step d := depends c d (congrArg View.outlet same) now
  dsimp only
  rw [steps]
  cases found : d.station? name with
  | none =>
      rw [found] at station
      rw [visit_missing _ found, visit_missing _ station]
      exact ⟨same, now, rfl⟩
  | some s =>
      rw [found] at station
      rw [visit_found _ found, visit_found _ station]
      refine ⟨?_, now, rfl⟩
      have kept := setStation_view same (step d s).state
      simp only [view, View.mk.injEq] at kept ⊢
      obtain ⟨station', outlet, timers, rest⟩ := kept
      exact ⟨station', outlet, arm_same timers, rest⟩

theorem obey_agrees : Agrees name (obey name) (obey name) :=
  visit_agrees fun _ _ _ now => by rw [now]

variable [Host]

theorem dispatch_agrees : Agrees name (dispatch name) (dispatch name) :=
  visit_agrees fun _ _ outlet now => by rw [outlet, now]

omit [Host] in
theorem mem_marks_congr {active others : List String} (findings : List Finding)
    (same : name ∈ active ↔ name ∈ others) :
    name ∈ marks name findings active ↔ name ∈ marks name findings others := by
  induction findings generalizing active others with
  | nil => exact same
  | cons finding rest ih =>
      apply ih
      cases finding with
      | changed on =>
          cases on with
          | false => simp [mark]
          | true => by_cases held : name ∈ active <;> simp [mark, held, ← same]
      | failed text => simp [mark]
      | finished => exact same

theorem readFeed_agrees : Agrees name (readFeed name) (readFeed name) := by
  intro c d same now
  refine ⟨?_, by simp only [readFeed_now, now], by simp only [readFeed_own]⟩
  have station := view_station same
  cases found : d.station? name with
  | none =>
      rw [found] at station
      simpa [readFeed, found, station] using same
  | some s =>
      rw [found] at station
      obtain rfl := (station?_some found).2
      have bus : c.bus.of s.name = d.bus.of s.name := congrArg View.bus same
      have signals : c.bus.queued s.name = d.bus.queued s.name := by
        rw [← Bus.queued_of, bus, Bus.queued_of]
      have active : c.active.contains s.name = d.active.contains s.name :=
        congrArg View.isActive same
      rw [Bool.eq_iff_iff, List.contains_iff_mem, List.contains_iff_mem] at active
      have kept := setStation_view same (s.read (d.bus.queued s.name)).state
      rw [readFeed_eq found, readFeed_eq station, signals]
      simp only [view, View.mk.injEq] at kept ⊢
      refine ⟨kept.1, kept.2.1, kept.2.2.1, ?_, ?_⟩
      · rw [drawn_of, drawn_of, bus]
      · rw [Bool.eq_iff_iff, List.contains_iff_mem, List.contains_iff_mem]
        exact mem_marks_congr _ active

theorem settle_agrees {names others : List String}
    (same : names.filter (fun other => other = name) = others.filter fun other => other = name) :
    Agrees name (settle names) (settle others) := by
  refine ((each_agrees ?_ ?_ same).andThen (each_agrees ?_ ?_ same)).andThen
    (each_agrees ?_ ?_ same)
  · rintro other rfl
    exact readFeed_agrees
  · exact fun other different => readFeed_other different
  · rintro other rfl
    exact obey_agrees
  · exact fun other different => obey_other different
  · rintro other rfl
    exact dispatch_agrees
  · exact fun other different => dispatch_other different

theorem publish_agrees (signals : List (String × Signal)) :
    Agrees name (publish signals) (publish signals) := by
  intro c d same now
  have bus : c.bus.of name = d.bus.of name := congrArg View.bus same
  have woken : (Bus.woken signals c.bus).filter (fun other => other = name) =
      (Bus.woken signals d.bus).filter fun other => other = name := by
    rw [Bus.woken_of, Bus.woken_of, bus]
  rw [publish_eq, publish_eq]
  refine settle_agrees woken _ _ ?_ now
  simp only [view, View.mk.injEq] at same ⊢
  refine ⟨same.1, same.2.1, same.2.2.1, ?_, same.2.2.2.2⟩
  rw [Bus.of_carry, Bus.of_carry, bus]

/-! ## Start -/

def engage (task : Task) (c : Controller) : Outcome Controller Effect :=
  (c.subscribe task).settle [task.name]

theorem engage_agrees {task : Task} (own : task.name = name) : Agrees name (engage task) (engage task) := by
  subst own
  intro c d same now
  have bus : c.bus.of task.name = d.bus.of task.name := congrArg View.bus same
  refine settle_agrees rfl _ _ ?_ now
  simp only [view, View.mk.injEq] at same ⊢
  refine ⟨same.1, same.2.1, same.2.2.1, ?_, same.2.2.2.2⟩
  rw [subscribe, subscribe, Bus.of_subscribe, Bus.of_subscribe, bus]

theorem engage_other {task : Task} (different : task.name ≠ name) : Ignores name (engage task) := by
  intro c
  have settled : Ignores name (settle [task.name]) := settle_other (by simpa using different)
  obtain ⟨kept, now, silent⟩ := settled (c.subscribe task)
  refine ⟨kept.trans ?_, now, silent⟩
  simp only [view, View.mk.injEq]
  exact ⟨rfl, rfl, rfl, Bus.of_subscribe_other different _ _, rfl⟩

end Cadence.Controller
