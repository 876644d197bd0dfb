import Cadence.Proofs.Bus.Readers
import Cadence.Proofs.Controller.Activity

namespace Cadence
open Outcome Effect

def Owner.task? : Owner → Option String
  | .sequencer task | .call task => some task
  | .alarm => none

namespace Effect

def own (task : String) (effects : List Effect) : List Effect :=
  effects.filter fun effect => effect.task? = some task

@[simp] theorem own_append (task : String) (history effects : List Effect) :
    own task (history ++ effects) = own task history ++ own task effects :=
  List.filter_append _ _

theorem own_foreign {task : String} {effects : List Effect}
    (foreign : ∀ effect ∈ effects, effect.task? ≠ some task) : own task effects = [] := by
  simpa [own] using foreign

end Effect

namespace Station
variable {outlet : Outlet} {now : Instant} {s : Station} {owner : Owner}

theorem armed_absorbed {step : Outcome Sequencer Notice}
    (armed : .armed owner ∈ (s.absorb step).reports) : owner.task? = some s.name := by
  obtain ⟨notice, -, made⟩ := List.mem_filterMap.mp armed
  cases notice <;> simp only [effectOf?, Option.some.injEq, reduceCtorEq, Effect.armed.injEq] at made
  subst made
  rfl

theorem armed_put {event : Event} : .armed owner ∉ s.put outlet now event := by
  simp [put_eq]

theorem armed_arrived (armed : .armed owner ∈ (s.arrive outlet).reports) : False := by
  unfold arrive at armed
  split at armed
  · cases armed
  · exact armed_put armed

theorem armed_dispatched [Host] (armed : .armed owner ∈ (s.dispatch outlet now).reports) :
    owner.task? = some s.name := by
  rw [dispatch_eq] at armed
  split at armed
  · cases armed
  · cases armed
  · split at armed
    · simp only [List.mem_cons, List.not_mem_nil, or_false, reduceCtorEq, false_or,
        Effect.armed.injEq] at armed
      subst armed
      rfl
    · obtain ⟨event, -, among⟩ := List.mem_flatMap.mp armed
      rcases List.mem_cons.mp among with other | putting
      · cases other
      · exact absurd putting armed_put

theorem armed_complied (commands : List Command)
    (armed : .armed owner ∈ (Outcome.each (comply now) commands s).reports) :
    owner.task? = some s.name := by
  induction commands generalizing s with
  | nil => cases armed
  | cons command rest ih =>
      rcases List.mem_append.mp armed with first | later
      · rcases List.mem_cons.mp first with other | absorbed
        · cases other
        · exact armed_absorbed absorbed
      · exact ih (s := (s.comply now command).state) later

theorem armed_obeyed (armed : .armed owner ∈ (s.obey now).reports) : owner.task? = some s.name :=
  armed_complied (s := { s with commands := [] }) s.commands armed

end Station

namespace Controller

variable {name other : String} {c d : Controller} {s t : Station}

structure View where
  station : Option Station
  outlet : Outlet
  timers : List Owner
  bus : Bus String Signal
  isActive : Bool

def view (name : String) (c : Controller) : View where
  station := c.station? name
  outlet := c.outlet
  timers := c.agenda.filter fun owner => owner.task? = some name
  bus := c.bus.of name
  isActive := c.active.contains name

theorem view_station (same : c.view name = d.view name) : c.station? name = d.station? name :=
  congrArg View.station same

/-! ## Steps of one task in the view of another -/

def Ignores (name : String) (step : Controller → Outcome Controller Effect) : Prop :=
  ∀ c, (step c).state.view name = c.view name ∧ (step c).state.now = c.now ∧
    own name (step c).reports = []

theorem Ignores.andThen {step next : Controller → Outcome Controller Effect}
    (first : Ignores name step) (second : Ignores name next) :
    Ignores name fun c => (step c).andThen next := by
  intro c
  obtain ⟨view, now, own⟩ := first c
  obtain ⟨view', now', own'⟩ := second (step c).state
  exact ⟨view'.trans view, now'.trans now, by simp [own, own']⟩

theorem Ignores.each {α : Type} {step : α → Controller → Outcome Controller Effect}
    {items : List α} (ignores : ∀ item ∈ items, Ignores name (step item)) :
    Ignores name (Outcome.each step items) := by
  induction items with
  | nil => exact fun c => ⟨rfl, rfl, rfl⟩
  | cons item rest ih =>
      exact (ignores item (by simp)).andThen (ih fun other among => ignores other (by simp [among]))

theorem arm_other {effects : List Effect} {agenda : List Owner}
    (foreign : ∀ owner, .armed owner ∈ effects → owner.task? ≠ some name) :
    (effects.foldl arm agenda).filter (fun owner => owner.task? = some name) =
      agenda.filter fun owner => owner.task? = some name := by
  induction effects generalizing agenda with
  | nil => rfl
  | cons effect rest ih =>
      rw [List.foldl_cons, ih fun owner among => foreign owner (List.mem_cons_of_mem _ among)]
      cases effect with
      | armed owner =>
          have apart := foreign owner List.mem_cons_self
          have gone : [owner].filter (fun owner => owner.task? = some name) = [] := by simp [apart]
          rw [arm, List.filter_append, gone, List.append_nil, List.filter_filter]
          apply List.filter_congr
          intro entry _
          by_cases same : entry = owner
          · simp [same, apart]
          · simp [same]
      | _ => rfl

theorem setStation_view_other (different : t.name ≠ name) :
    (c.setStation t).view name = c.view name := by
  simp only [view, station?_setStation_other (Ne.symm different)]
  rfl

theorem visit_other {step : Controller → Station → Outcome Station Effect}
    (reaches : ∀ (c : Controller) (s : Station),
      s.Reaches c.outlet (step c s).state (step c s).reports)
    (arms : ∀ (c : Controller) (s : Station) (owner : Owner),
      .armed owner ∈ (step c s).reports → owner.task? = some s.name)
    (different : other ≠ name) : Ignores name fun c => c.visit (step c) other := by
  intro c
  dsimp only
  cases found : c.station? other with
  | none =>
      rw [visit_missing _ found]
      exact ⟨rfl, rfl, rfl⟩
  | some s =>
      have named : s.name = other := (station?_some found).2
      have reached := reaches c s
      refine ⟨?_, visit_now _ other c, ?_⟩
      · rw [visit_found _ found]
        have apart : (step c s).state.name ≠ name := by rwa [reached.name, named]
        have kept := setStation_view_other (c := c) apart
        simp only [view, View.mk.injEq] at kept ⊢
        refine ⟨kept.1, kept.2.1, ?_, kept.2.2.2⟩
        apply arm_other
        intro owner armed about
        rw [arms c s owner armed, named] at about
        exact different (Option.some.inj about)
      · rw [visit_found _ found]
        apply own_foreign
        intro effect member about
        exact different (named.symm.trans (reached.own effect member name about).symm)

theorem note_own (task : Task) (finding : Finding) (c : Controller) :
    own name (c.note task finding).reports = [] := by
  cases finding with
  | changed on => cases on <;> rfl
  | failed text => rfl
  | finished => rfl

theorem readFeed_own [Host] (name other : String) (c : Controller) :
    own name (c.readFeed other).reports = [] := by
  cases found : c.station? other with
  | none => simp [readFeed, found, own]
  | some s =>
      have silent (findings : List Finding) (d : Controller) :
          own name (Outcome.each (note s.task) findings d).reports = [] := by
        induction findings generalizing d with
        | nil => rfl
        | cons finding rest ih => rw [each_cons, andThen_reports, own_append, note_own, ih]; rfl
      simp only [readFeed, found]
      exact silent _ _

theorem readFeed_now [Host] (name : String) (c : Controller) :
    (c.readFeed name).state.now = c.now := by
  cases found : c.station? name with
  | none => simp [readFeed, found]
  | some s => rw [readFeed_eq found]; rfl

theorem drawn_of [Host] (bus : Bus String Signal) (s : Station) :
    (drawn s bus).of s.name = drawn s (bus.of s.name) := by
  simp only [drawn, Bus.queued_of]
  split
  · rw [Bus.of_close, Bus.of_take]
  · rw [Bus.of_take]

theorem drawn_of_other [Host] (different : s.name ≠ name) (bus : Bus String Signal) :
    (drawn s bus).of name = bus.of name := by
  simp only [drawn]
  split
  · rw [Bus.of_close_other different, Bus.of_take_other different]
  · rw [Bus.of_take_other different]

theorem readFeed_other [Host] (different : other ≠ name) : Ignores name (readFeed other) := by
  intro c
  refine ⟨?_, readFeed_now other c, readFeed_own name other c⟩
  cases found : c.station? other with
  | none => simp [readFeed, found]
  | some s =>
      have apart : s.name ≠ name := by rwa [(station?_some found).2]
      have kept := setStation_view_other (c := c) (t := (s.read (c.bus.queued s.name)).state) apart
      rw [readFeed_eq found]
      simp only [view, View.mk.injEq] at kept ⊢
      refine ⟨kept.1, kept.2.1, kept.2.2.1, drawn_of_other apart c.bus, ?_⟩
      rw [Bool.eq_iff_iff, List.contains_iff_mem, List.contains_iff_mem]
      exact mem_marks (Ne.symm apart)

theorem obey_other (different : other ≠ name) : Ignores name (obey other) :=
  visit_other (fun _ _ => Station.obey_reaches) (fun _ _ _ => Station.armed_obeyed) different

theorem dispatch_other [Host] (different : other ≠ name) : Ignores name (dispatch other) :=
  visit_other (fun _ _ => Station.dispatch_reaches) (fun _ _ _ => Station.armed_dispatched) different

theorem settle_other [Host] {names : List String} (different : ∀ other ∈ names, other ≠ name) :
    Ignores name (settle names) :=
  ((Ignores.each fun other among => readFeed_other (different other among)).andThen
    (Ignores.each fun other among => obey_other (different other among))).andThen
      (Ignores.each fun other among => dispatch_other (different other among))

end Controller
end Cadence
