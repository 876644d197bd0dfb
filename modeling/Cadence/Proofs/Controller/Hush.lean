import Cadence.Proofs.Bus.Telling
import Cadence.Proofs.Controller.Agreement
import Cadence.Proofs.Controller.Release

namespace Cadence
open Outcome Effect

namespace Station

def hushed (s : Station) : Station := { s with isOn := false, commands := [] }

def Numb (step : Station → Outcome Station Effect) : Prop :=
  ∀ s, step s.hushed = ⟨(step s).state.hushed, (step s).reports⟩

theorem absorb_numb (step : Sequencer → Outcome Sequencer Notice) :
    Numb fun s => s.absorb (step s.sequencer) := fun _ => rfl

theorem dispatch_numb [Host] (outlet : Outlet) (now : Instant) : Numb (dispatch outlet now) := by
  intro s
  have flying : s.hushed.inFlight = s.inFlight := rfl
  have outbox : s.hushed.outbox = s.outbox := rfl
  rw [dispatch_eq, dispatch_eq, flying, outbox]
  cases s.inFlight with
  | some call => rfl
  | none =>
      cases s.outbox with
      | nil => rfl
      | cons event rest => cases outlet.isDelayed <;> rfl

theorem arrive_numb (outlet : Outlet) : Numb (arrive outlet) := by
  intro s
  have flying : s.hushed.inFlight = s.inFlight := rfl
  unfold arrive
  rw [flying]
  cases s.inFlight <;> rfl

theorem complies_numb (now : Instant) (commands : List Command) :
    Numb (Outcome.each (comply now) commands) := by
  induction commands with
  | nil => exact fun _ => rfl
  | cons command rest ih =>
      intro s
      have first : s.hushed.comply now command =
          ⟨(s.comply now command).state.hushed, (s.comply now command).reports⟩ := rfl
      rw [each_cons, each_cons, first, andThen, ih]
      rfl

end Station

namespace Controller

variable {name other : String} {c d : Controller} {s t : Station}

def muffle (name : String) (s : Station) : Station := if s.name = name then s.hushed else s

def hush (name : String) (c : Controller) : Controller :=
  { c with stations := c.stations.map (muffle name), bus := c.bus.close name }

@[simp] theorem muffle_name (name : String) (s : Station) : (muffle name s).name = s.name := by
  unfold muffle
  split <;> rfl

theorem muffle_own (own : s.name = name) : muffle name s = s.hushed := if_pos own

theorem muffle_other (different : s.name ≠ name) : muffle name s = s := if_neg different

theorem station?_hush (name other : String) (c : Controller) :
    (c.hush name).station? other = (c.station? other).map (muffle name) := by
  simp only [station?, hush, List.find?_map, Function.comp_def, muffle_name]

theorem station?_hush_other (different : other ≠ name) (c : Controller) :
    (c.hush name).station? other = c.station? other := by
  rw [station?_hush]
  cases found : c.station? other with
  | none => rfl
  | some s =>
      have apart : s.name ≠ name := by rwa [(station?_some found).2]
      rw [Option.map_some, muffle_other apart]

theorem setStation_hush (name : String) (t : Station) (c : Controller) :
    (c.hush name).setStation (muffle name t) = (c.setStation t).hush name := by
  have same : (c.stations.map (muffle name)).map
      (fun s => if s.name = (muffle name t).name then muffle name t else s) =
        (c.stations.map fun s => if s.name = t.name then t else s).map (muffle name) := by
    rw [List.map_map, List.map_map]
    apply List.map_congr_left
    intro s _
    by_cases equal : s.name = t.name <;> simp [equal]
  simp only [setStation, hush, same]

/-! ## Steps that do not hear -/

def Blind (name : String) (step : Controller → Outcome Controller Effect) : Prop :=
  ∀ c, step (c.hush name) = ⟨(step c).state.hush name, (step c).reports⟩

structure Alike (name : String) (o p : Outcome Controller Effect) : Prop where
  state : o.state.hush name = p.state.hush name
  reports : o.reports = p.reports

section blind
variable {step next : Controller → Outcome Controller Effect}

theorem Blind.alike (blind : Blind name step) (same : c.hush name = d.hush name) :
    Alike name (step c) (step d) := by
  have one := blind c
  rw [same, blind d] at one
  exact ⟨(congrArg Outcome.state one).symm, (congrArg Outcome.reports one).symm⟩

theorem blind_still : Blind name still := fun _ => rfl

theorem Blind.andThen (first : Blind name step) (second : Blind name next) :
    Blind name fun c => (step c).andThen next := by
  intro c
  simp only [Outcome.andThen, first c, second (step c).state]

theorem Blind.each {α : Type} {step : α → Controller → Outcome Controller Effect} {items : List α}
    (blind : ∀ item ∈ items, Blind name (step item)) : Blind name (Outcome.each step items) := by
  induction items with
  | nil => exact blind_still
  | cons item rest ih =>
      exact (blind item (by simp)).andThen (ih fun other among => blind other (by simp [among]))

end blind

theorem visit_blind {step : Controller → Station → Outcome Station Effect}
    (depends : ∀ c : Controller, step (c.hush name) = step c)
    (names : ∀ (c : Controller) (s : Station), (step c s).state.name = s.name)
    (numb : other = name → ∀ c, Station.Numb (step c)) :
    Blind name fun c => c.visit (step c) other := by
  intro c
  dsimp only
  rw [depends]
  cases found : c.station? other with
  | none =>
      have missing : (c.hush name).station? other = none := by rw [station?_hush, found]; rfl
      rw [visit_missing _ found, visit_missing _ missing]
      rfl
  | some s =>
      have hushed : (c.hush name).station? other = some (muffle name s) := by
        rw [station?_hush, found]
        rfl
      -- The station of the task has to be numb, and any other is left as it is.
      have muffled : step c (muffle name s) =
          ⟨muffle name (step c s).state, (step c s).reports⟩ := by
        by_cases own : s.name = name
        · rw [muffle_own own, muffle_own ((names c s).trans own)]
          exact numb ((station?_some found).2.symm.trans own) c s
        · rw [muffle_other own, muffle_other ((names c s).symm ▸ own)]
      rw [visit_found _ hushed, visit_found _ found, muffled]
      dsimp only
      rw [setStation_hush]
      rfl

theorem obey_blind (different : other ≠ name) : Blind name (obey other) :=
  visit_blind (fun _ => rfl)
    (fun c s => (Station.obey_reaches : s.Reaches c.outlet (s.obey c.now).state _).name)
    fun own => absurd own different

theorem dispatch_blind [Host] (name other : String) : Blind name (dispatch other) :=
  visit_blind (fun _ => rfl) (fun _ _ => Station.dispatch_reaches.name)
    fun _ c => Station.dispatch_numb c.outlet c.now

theorem note_blind (name : String) (task : Task) (finding : Finding) :
    Blind name (note task finding) := by
  intro c
  cases finding with
  | changed on =>
      cases on with
      | false => rfl
      | true =>
          have active : (c.hush name).activate task.name = (c.activate task.name).hush name := by
            rw [activate, activate, apply_ite (hush name)]
            rfl
          simp only [note, active]
          rfl
  | finished => simp [note, hush, still, Bus.close_comm]
  | failed text => simp [note, hush, Outcome.andThen, Bus.close_comm, deactivate, reportStatus, status]

theorem readFeed_blind [Host] (different : other ≠ name) : Blind name (readFeed other) := by
  intro c
  cases found : c.station? other with
  | none =>
      have missing : (c.hush name).station? other = none := by
        rw [station?_hush_other different, found]
      simp only [readFeed, found, missing]
      rfl
  | some s =>
      have found' : (c.hush name).station? other = some s := by
        rw [station?_hush_other different, found]
      have queued : (c.hush name).bus.queued other = c.bus.queued other :=
        Bus.queued_close_other different c.bus
      have apart : (s.read (c.bus.queued other)).state.name ≠ name := by
        rwa [show (s.read (c.bus.queued other)).state.name = other from (station?_some found).2]
      -- What the station reads is neither from the reader nor for the station that is hushed.
      have taken : ({ (c.hush name).setStation (s.read (c.bus.queued other)).state with
            bus := (c.hush name).bus.take other (c.bus.queued other).length } : Controller) =
          ({ c.setStation (s.read (c.bus.queued other)).state with
            bus := c.bus.take other (c.bus.queued other).length } : Controller).hush name := by
        have set := setStation_hush name (s.read (c.bus.queued other)).state c
        rw [muffle_other apart] at set
        rw [set]
        simp only [hush, Bus.close_take_other]
      simp only [readFeed, found, found', queued, taken]
      exact Blind.each (fun finding _ => note_blind name s.task finding) _

theorem settle_blind [Host] {names : List String} (others : ∀ other ∈ names, other ≠ name) :
    Blind name (settle names) :=
  ((Blind.each fun other among => readFeed_blind (others other among)).andThen
    (Blind.each fun other among => obey_blind (others other among))).andThen
      (Blind.each fun other _ => dispatch_blind name other)

theorem engage_blind [Host] {task : Task} (different : task.name ≠ name) : Blind name
    (engage task) := by
  intro c
  have subscribed : (c.hush name).subscribe task = (c.subscribe task).hush name := by
    simp only [subscribe, hush, Bus.close_subscribe_other different]
  rw [engage, subscribed]
  exact settle_blind (by simpa using different) (c.subscribe task)

/-! ## The clock -/

theorem due?_hush (name : String) (c : Controller) (owner : Owner) :
    (c.hush name).due? owner = c.due? owner := by
  have timed (s : Station) (owner : Owner) : (muffle name s).due? owner = s.due? owner := by
    unfold muffle
    split <;> rfl
  have bound (other : String) (owner : Owner) :
      ((c.hush name).station? other).bind (fun s => s.due? owner) =
        (c.station? other).bind fun s => s.due? owner := by
    rw [station?_hush]
    cases c.station? other with
    | none => rfl
    | some s => exact timed s owner
  cases owner with
  | alarm => rfl
  | sequencer other => exact bound other _
  | call other => exact bound other _

theorem next?_hush (name : String) (c : Controller) : (c.hush name).next? = c.next? := by
  have timers : (c.hush name).timers = c.timers := by
    simp only [timers, due?_hush]
    rfl
  rw [next?, timers, next?]

theorem fire_blind [Host] (name : String) (owner : Owner) (due : Instant) :
    Blind name (fire owner due) := by
  intro c
  cases owner with
  | alarm => rfl
  | sequencer other =>
      have fires : Blind name (visit Station.fire other) :=
        visit_blind (fun _ => rfl) (fun _ _ => rfl) fun _ _ => Station.absorb_numb Sequencer.fire
      exact fires.andThen (dispatch_blind name other) { c with now := due }
  | call other =>
      have arrives : Blind name fun c => c.visit (Station.arrive c.outlet) other :=
        visit_blind (fun _ => rfl) (fun _ _ => Station.arrive_reaches.name)
          fun _ c => Station.arrive_numb c.outlet
      exact arrives.andThen (dispatch_blind name other) { c with now := due }

theorem nextBy?_hush (name : String) (target : Instant) (c : Controller) :
    (c.hush name).nextBy? target = c.nextBy? target := by
  rw [nextBy?, next?_hush, nextBy?]

theorem fireBy_blind [Host] (name : String) (target : Instant) (fuel : Nat) :
    Blind name (fireBy target fuel) := by
  induction fuel with
  | zero => exact blind_still
  | succ fuel ih =>
      intro c
      cases next : c.nextBy? target with
      | none => simp only [fireBy, nextBy?_hush, next]; rfl
      | some timer =>
          simp only [fireBy, nextBy?_hush, next]
          exact ((fire_blind name timer.1 timer.2).andThen ih) c

theorem advance_blind [Host] (name : String) (seconds : Float) : Blind name (advance seconds) := by
  intro c
  let target := c.now.after seconds
  have arrives : Blind name fun c => .still (c.arriveAt target) := by
    intro c
    dsimp only
    rw [arriveAt, arriveAt, nextBy?_hush]
    split <;> rfl
  exact ((fireBy_blind name target patience).andThen arrives) c

/-! ## Stops -/

theorem wait_hush [Host] {isOver : Controller → Bool}
    (same : ∀ c : Controller, isOver (c.hush name) = isOver c) (fuel : Nat) (c : Controller) :
    wait isOver fuel (c.hush name) =
      (wait isOver fuel c).map fun waited => ⟨waited.state.hush name, waited.reports⟩ := by
  induction fuel generalizing c with
  | zero =>
      simp only [wait, same]
      split <;> rfl
  | succ fuel ih =>
      simp only [wait, same, next?_hush]
      split
      · rfl
      · cases c.next? with
        | none => rfl
        | some timer =>
            simp only [followedBy, fire_blind name timer.1 timer.2 c, ih, Option.map_map]
            rfl

theorem release_hush [Host] (name other : String) (c : Controller) :
    (c.hush name).release other =
      (c.release other).map fun released => ⟨released.state.hush name, released.reports⟩ := by
  have closed : ({ c.hush name with bus := (c.hush name).bus.close other } : Controller) =
      ({ c with bus := c.bus.close other } : Controller).hush name := by
    simp only [hush, Bus.close_comm]
  have stops : Blind name fun c => c.visit (Station.handle c.now .stop) other :=
    visit_blind (fun _ => rfl) (fun _ _ => rfl)
      fun _ c => Station.absorb_numb (Sequencer.handle c.now .stop)
  have halts : (c.hush name).halt other =
      ⟨(c.halt other).state.hush name, (c.halt other).reports⟩ := by
    rw [halt, closed]
    exact (stops.andThen (dispatch_blind name other)) _
  have quiet (d : Controller) : isQuiet other (d.hush name) = isQuiet other d := by
    rw [isQuiet, station?_hush, isQuiet]
    cases d.station? other with
    | none => rfl
    | some s =>
        simp only [Option.map_some, Option.all_some, muffle]
        split <;> rfl
  rw [release_eq, halts, followedBy, wait_hush quiet, release_eq, followedBy, Option.map_map,
    Option.map_map]
  rfl

theorem releaseAll_hush [Host] (name : String) (names : List String) (c : Controller) :
    releaseAll names (c.hush name) =
      (releaseAll names c).map fun released => ⟨released.state.hush name, released.reports⟩ := by
  induction names generalizing c with
  | nil => rfl
  | cons other rest ih =>
      rw [releaseAll, release_hush, releaseAll]
      cases c.release other with
      | none => rfl
      | some released =>
          simp only [Option.map_some, Option.bind_some, followedBy, ih, Option.map_map]
          rfl

theorem stop_hush [Host] (started : c.started = true)
    (manned : name ∈ c.stations.map Station.name) : (c.hush name).stop = c.stop := by
  have names : (c.hush name).stations.map Station.name = c.stations.map Station.name := by
    simp [hush, Function.comp_def]
  have started' : (c.hush name).started = true := started
  rw [stop, stop, if_pos started', if_pos started, names, releaseAll_hush]
  cases all : releaseAll (c.stations.map Station.name) c with
  | none => rfl
  | some released =>
      -- The reader is taken off the bus with its station.
      have bus : released.state.bus =
          (c.stations.map Station.name).foldl (fun bus name => bus.close name) c.bus :=
        congrArg Fixed.bus (releaseAll_fixed all)
      have unread : released.state.bus.close name = released.state.bus := by
        have subscriptions := foldl_close_subscriptions (c.stations.map Station.name) c.bus
        rw [← bus] at subscriptions
        unfold Bus.close
        congr 1
        apply List.filter_eq_self.mpr
        intro subscription member
        rw [subscriptions] at member
        simp only [List.mem_filter, decide_eq_true_eq] at member ⊢
        rintro rfl
        exact member.2 manned
      simp only [Option.map_some, hush, unread]
      rfl

end Controller
end Cadence
