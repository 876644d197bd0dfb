import Cadence.Proofs.Controller.Activity
import Cadence.Proofs.Controller.Drain
import Cadence.Proofs.Station.Doings

namespace Cadence
open Outcome Effect

namespace Station

theorem obey_commands (now : Instant) (s : Station) : (s.obey now).state.commands = [] :=
  (each_comply_doings now s.commands { s with commands := [] }).2.2.1

theorem arrive_commands (outlet : Outlet) (s : Station) :
    (s.arrive outlet).state.commands = s.commands := by
  unfold arrive
  split <;> rfl

end Station

namespace Controller
variable {c d : Controller} {s : Station} {name : String} {names : List String}
  {history : List Effect}

structure Lull (c : Controller) (history : List Effect) : Prop where
  booked : c.Booked history
  listed : c.Listed history
  readers : c.bus.readers.Nodup
  read : ∀ subscription ∈ c.bus.subscriptions, subscription.queue = []
  obeyed : ∀ s ∈ c.stations, s.commands = []

variable [Host]

theorem readFeed_read {rest : List String} (listed : c.Listed history) (readers : c.bus.readers.Nodup)
    (others : ∀ subscription ∈ c.bus.subscriptions, subscription.reader ∉ name :: rest →
      subscription.queue = []) :
    (c.readFeed name).state.bus.readers.Nodup ∧
      ∀ subscription ∈ (c.readFeed name).state.bus.subscriptions, subscription.reader ∉ rest →
        subscription.queue = [] := by
  cases found : c.station? name with
  | none =>
      have still : c.readFeed name = .still c := by simp [readFeed, found]
      rw [still]
      refine ⟨readers, fun subscription member outside => others subscription member ?_⟩
      have known : subscription.reader ∈ c.stations.map Station.name :=
        listed.readers subscription member
      simp only [List.mem_cons, not_or]
      exact ⟨fun same => station?_none found (same ▸ known), outside⟩
  | some s =>
      obtain rfl := (station?_some found).2
      rw [readFeed_eq found]
      exact ⟨drawn_readers_nodup readers, drawn_unread readers others⟩

theorem reads_read (listed : c.Listed history) (readers : c.bus.readers.Nodup)
    (others : ∀ subscription ∈ c.bus.subscriptions, subscription.reader ∉ names →
      subscription.queue = []) :
    (Outcome.each readFeed names c).state.bus.readers.Nodup ∧
      ∀ subscription ∈ (Outcome.each readFeed names c).state.bus.subscriptions,
        subscription.queue = [] := by
  induction names generalizing c history with
  | nil => exact ⟨readers, fun subscription member => others subscription member (by simp)⟩
  | cons name rest ih =>
      obtain ⟨readers', others'⟩ := readFeed_read listed readers others
      exact ih (readFeed_listed name c history listed) readers' others'

omit [Host] in
theorem visits_bus {step : Controller → Station → Outcome Station Effect} (names : List String)
    (c : Controller) :
    (Outcome.each (fun name c => c.visit (step c) name) names c).state.bus = c.bus := by
  have keeps (name : String) : Keeps (fun (d : Controller) (_ : List Effect) => d.bus = c.bus)
      fun d => d.visit (step d) name :=
    fun d _ same => (congrArg Fixed.bus (visit_fixed (step d) name d)).trans same
  exact Keeps.each (fun name (_ : name ∈ names) => keeps name) c [] rfl

theorem settle_obeyed (others : ∀ s ∈ c.stations, s.name ∉ names → s.commands = []) :
    ∀ s ∈ (c.settle names).state.stations, s.commands = [] := by
  intro s member
  by_cases among : s.name ∈ names
  · let free (name : String) (d : Controller) : Prop := d.At name fun s => s.commands = []
    let read := Outcome.each readFeed names c
    have made : free s.name (Outcome.each obey names read.state).state := by
      refine each_makes (fun name d => ?_) (fun name other d obeyed => ?_) names read.state s.name
        (.inl among)
      · exact visit_makes (fun _ => Station.obey_reaches) (fun s _ => s.obey_commands d.now) name
      · exact visit_at (fun _ _ => Station.obey_reaches) (fun _ s _ => s.obey_commands _) name
          other d [] obeyed
    have kept := Keeps.each (fun name (_ : name ∈ names) =>
      visit_at (fun _ _ => Station.dispatch_reaches)
        (fun c s obeyed => (Station.dispatch_commands c.outlet c.now s).trans obeyed) name s.name) _ []
          made
    exact kept s member rfl
  · exact others s (settle_spares names c s member among) among

theorem settle_lull (booked : c.Booked history) (listed : c.Listed history)
    (readers : c.bus.readers.Nodup)
    (read : ∀ subscription ∈ c.bus.subscriptions, subscription.reader ∉ names →
      subscription.queue = [])
    (obeyed : ∀ s ∈ c.stations, s.name ∉ names → s.commands = []) :
    (c.settle names).state.Lull (history ++ (c.settle names).reports) := by
  obtain ⟨readers', read'⟩ := reads_read listed readers read
  have bus : (c.settle names).state.bus = (Outcome.each readFeed names c).state.bus :=
    (visits_bus names _).trans (visits_bus names _)
  exact ⟨settle_booked names c history booked, settle_listed names c history listed,
    bus ▸ readers', bus ▸ read', settle_obeyed obeyed⟩

omit [Host] in
theorem visit_lull {step : Controller → Station → Outcome Station Effect}
    (reaches : ∀ (c : Controller) (s : Station),
      s.Reaches c.outlet (step c s).state (step c s).reports)
    (keeps : ∀ (c : Controller) (s : Station), (step c s).state.commands = s.commands)
    (name : String) : Keeps Lull fun c => c.visit (step c) name := by
  intro c history lull
  have bus : (c.visit (step c) name).state.bus = c.bus :=
    congrArg Fixed.bus (visit_fixed (step c) name c)
  refine ⟨visit_booked reaches name c history lull.booked,
    visit_listed step name c history lull.listed, ?_, ?_, ?_⟩
  · rw [bus]
    exact lull.readers
  · rw [bus]
    exact lull.read
  · intro s member
    have kept := visit_at reaches (fun c s free => (keeps c s).trans free) name s.name c []
      fun t among _ => lull.obeyed t among
    exact kept s member rfl

theorem lull_steady : Steady Lull where
  clock c history now alarm lull :=
    ⟨booked_steady.clock c history now alarm lull.booked, lull.listed, lull.readers, lull.read,
      lull.obeyed⟩
  fire := visit_lull (fun _ _ => Station.fire_reaches) fun _ _ => rfl
  arrive := visit_lull (fun _ _ => Station.arrive_reaches) fun c => Station.arrive_commands c.outlet
  dispatch := visit_lull (fun _ _ => Station.dispatch_reaches)
    fun c => Station.dispatch_commands c.outlet c.now

theorem start_lull : Keeps Lull start := by
  intro c history lull
  by_cases fresh : c.started = false ∧ c.tasks ≠ []
  · obtain ⟨resting, nonempty⟩ := fresh
    have settled := start_settled lull.booked lull.listed resting nonempty
    exact ⟨settled.attuned.booked, settled.attuned.listed, settled.attuned.readers, settled.unread,
      fun s member => settled.idle s member (by simp)⟩
  · refine start_keeps (fun _ => lull) ?_ ?_ ?_
    · intro resting empty
      exact ⟨bare_booked lull.booked resting empty,
        ⟨lull.listed.readers, lull.listed.active, nofun⟩, lull.readers, lull.read, lull.obeyed⟩
    · intro resting nonempty
      exact absurd ⟨resting, nonempty⟩ fresh
    · intro resting task among
      exact absurd ⟨resting, List.ne_nil_of_mem among⟩ fresh

theorem publish_lull (signals : List (String × Signal)) : Keeps Lull (publish signals) := by
  intro c history lull
  rw [publish_eq]
  refine settle_lull (lull.booked.same rfl rfl rfl rfl) (carry_listed signals lull.listed) ?_
    (fun _ member asleep => Bus.carry_asleep lull.read member asleep)
    fun s member _ => lull.obeyed s member
  rw [Bus.carry_readers]
  exact lull.readers

theorem turn_lull {on : Bool} (member : s ∈ c.stations) (lull : c.Lull history) :
    (turn s.name s on c).state.Lull (history ++ (turn s.name s on c).reports) := by
  have booked := note_booked s.task (.changed on) _ _ (enqueue_booked on member lull.booked)
  have bus : ((c.setStation (s.enqueue (Command.ofState on))).note s.task (.changed on)).state.bus =
      c.bus := by
    rw [note_state]
    simp [noted, Finding.closes, setStation]
  rw [turn, andThen_state, andThen_reports, ← List.append_assoc]
  refine settle_lull booked (enqueue_listed member lull.listed) ?_ ?_ ?_
  · rw [bus]
    exact lull.readers
  · intro subscription among _
    rw [bus] at among
    exact lull.read subscription among
  · intro t among outside
    rw [note_state] at among
    rcases mem_setStation among with rfl | ⟨old, -⟩
    · exact absurd (List.mem_singleton.mpr rfl) outside
    · exact lull.obeyed t old

theorem stop_lull {outcome : Outcome Controller Effect} (stopped : c.stop = some outcome)
    (lull : c.Lull history) : outcome.state.Lull (history ++ outcome.reports) := by
  let quiet (d : Controller) (_ : List Effect) : Prop := d.bus.readers.Nodup ∧
    (∀ subscription ∈ d.bus.subscriptions, subscription.queue = []) ∧
      ∀ s ∈ d.stations, s.commands = []
  have kept : quiet outcome.state (history ++ outcome.reports) := by
    refine stop_keeps ?_ stopped ⟨lull.readers, lull.read, lull.obeyed⟩
    intro released _ all
    have left : released.state.bus.subscriptions.Sublist c.bus.subscriptions := by
      rw [releaseAll_subscriptions all]
      exact List.filter_sublist
    refine ⟨lull.readers.sublist (left.map _), ?_, ?_⟩
    · exact fun subscription among => lull.read subscription (left.subset among)
    · exact fun s member => absurd member List.not_mem_nil
  exact ⟨stop_booked stopped lull.booked, stop_listed stopped lull.listed, kept.1, kept.2.1, kept.2.2⟩

theorem lull_stepwise : Stepwise Lull where
  start := start_lull
  stop _ _ _ stopped lull := stop_lull stopped lull
  publish := publish_lull
  advance := lull_steady.timely.advance
  turn _ _ _ _ member lull := turn_lull member lull
  ignore _ _ _ silent lull :=
    ⟨booked_stepwise.ignore _ _ _ silent lull.booked, lull.listed, lull.readers, lull.read,
      lull.obeyed⟩

theorem created_lull {tasks : List Task} {outlet : Outlet}
    (created : create tasks outlet = .ok c) (steps : List Step) :
    (run steps c).state.Lull (run steps c).reports := by
  have booked := created_booked created []
  have listed := created_listed created []
  obtain ⟨-, rfl⟩ := create_eq created
  exact lull_stepwise.run steps _ []
    ⟨booked, listed, List.nodup_nil, by simp [idle, Bus.empty], by simp [idle]⟩

end Controller
end Cadence
