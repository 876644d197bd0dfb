import Cadence.Proofs.Controller.Books

namespace Cadence
open Outcome Sequencer Effect

namespace Station
variable {s : Station}

structure Halted (s : Station) : Prop where
  idle : s.sequencer.isIdle = true
  free : s.sequencer.timer = none

structure Finished (s : Station) : Prop extends s.Halted where
  empty : s.waiting = []

structure Lasting [Host] (property : Station → Prop) : Prop where
  fire : ∀ s, property s → property s.fire.state
  arrive : ∀ outlet s, property s → property (s.arrive outlet).state
  dispatch : ∀ outlet now s, property s → property (s.dispatch outlet now).state

theorem absorb_still (s : Station) : s.absorb (.still s.sequencer) = .still s := by
  simp [absorb, Outcome.still]

theorem fire_halted (halted : s.Halted) : s.fire = .still s := by
  have rests : s.sequencer.fire = .still s.sequencer := by simp [Sequencer.fire, halted.free]
  rw [fire, rests, absorb_still]

theorem arrive_sequencer (outlet : Outlet) (s : Station) :
    (s.arrive outlet).state.sequencer = s.sequencer := by
  unfold arrive
  split <;> rfl

theorem dispatch_sequencer [Host] (outlet : Outlet) (now : Instant) (s : Station) :
    (s.dispatch outlet now).state.sequencer = s.sequencer := by
  have split := dispatches outlet now s
  generalize s.dispatch outlet now = outcome at split ⊢
  cases split <;> rfl

theorem halted_lasting [Host] : Lasting Halted where
  fire s halted := by rwa [fire_halted halted]
  arrive outlet s halted := by
    have same := arrive_sequencer outlet s
    exact ⟨same ▸ halted.idle, same ▸ halted.free⟩
  dispatch outlet now s halted := by
    have same := dispatch_sequencer outlet now s
    exact ⟨same ▸ halted.idle, same ▸ halted.free⟩

theorem Finished.parts (finished : s.Finished) : s.inFlight = none ∧ s.outbox = [] := by
  simpa [waiting] using finished.empty

theorem finished_lasting [Host] : Lasting Finished where
  fire s finished := by rwa [fire_halted finished.toHalted]
  arrive outlet s finished := by
    have still : s.arrive outlet = .still s := by simp [arrive, finished.parts.1]
    rwa [still]
  dispatch outlet now s finished := by
    have still : s.dispatch outlet now = .still s := by simp [dispatch, finished.parts]
    rwa [still]

theorem stop_finished (now : Instant) (finished : s.Finished) :
    (s.handle now .stop).state.Finished := by
  have rests : s.sequencer.handle now .stop = .still s.sequencer := by
    simp [Sequencer.handle, stop, finished.idle]
  rwa [handle, rests, absorb_still]

theorem stop_halted (now : Instant) (poised : s.sequencer.Poised) :
    (s.handle now .stop).state.Halted := by
  have state := (stop_rest now poised).1
  have sequencer : (s.handle now .stop).state.sequencer = (s.sequencer.stop now).state := rfl
  refine ⟨?_, ?_⟩
  · rw [sequencer, state]
    rfl
  · rw [sequencer, state]

theorem isQuiet_iff : s.isQuiet = true ↔ s.waiting = [] := by
  simp [isQuiet, waiting, and_comm]

end Station

namespace Controller
variable {c : Controller} {s : Station} {name : String} {history : List Effect}

def At (name : String) (property : Station → Prop) (c : Controller) : Prop :=
  ∀ s ∈ c.stations, s.name = name → property s

theorem visit_at {property : Station → Prop}
    {step : Controller → Station → Outcome Station Effect}
    (reaches : ∀ (c : Controller) (s : Station),
      s.Reaches c.outlet (step c s).state (step c s).reports)
    (keeps : ∀ c s, property s → property (step c s).state) (name other : String) :
    Keeps (fun (c : Controller) (_ : List Effect) => c.At other property)
      fun c => c.visit (step c) name := by
  apply visit_keeps
  intro c history old found holds s member same
  rcases mem_setStation member with rfl | ⟨among, -⟩
  · have named : old.name = other := (reaches c old).name.symm.trans same
    exact keeps c old (holds old (station?_some found).1 named)
  · exact holds s among same

theorem visit_makes {property : Station → Prop} {step : Station → Outcome Station Effect}
    (reaches : ∀ s : Station, s.Reaches c.outlet (step s).state (step s).reports)
    (makes : ∀ s ∈ c.stations, property (step s).state) (name : String) :
    (c.visit step name).state.At name property := by
  cases found : c.station? name with
  | none =>
      rw [visit_missing _ found]
      intro s member same
      exact absurd (same ▸ List.mem_map_of_mem member) (station?_none found)
  | some old =>
      rw [visit_found _ found]
      obtain ⟨among, itsName⟩ := station?_some found
      intro s member same
      rcases mem_setStation member with rfl | ⟨-, different⟩
      · exact makes old among
      · exact absurd (same.trans ((reaches old).name.trans itsName).symm) different

theorem steady_at [Host] {property : Station → Prop} (lasting : Station.Lasting property)
    (name : String) : Steady fun (c : Controller) (_ : List Effect) => c.At name property where
  clock _ _ _ _ holds := holds
  fire other := visit_at (fun _ _ => Station.fire_reaches) (fun _ => lasting.fire) other name
  arrive other := visit_at (fun _ _ => Station.arrive_reaches) (fun c => lasting.arrive c.outlet) other name
  dispatch other :=
    visit_at (fun _ _ => Station.dispatch_reaches) (fun c => lasting.dispatch c.outlet c.now) other name

theorem release_booked [Host] {outcome : Outcome Controller Effect}
    (released : c.release name = some outcome) (booked : c.Booked history) :
    outcome.state.Booked (history ++ outcome.reports) := by
  refine (booked_steady.release ?_ ?_ history released booked).1
  · intro c history name booked
    exact booked.same rfl rfl rfl rfl
  · exact visit_booked fun _ _ => Station.handle_reaches .stop

def halt [Host] (name : String) (c : Controller) : Outcome Controller Effect :=
  ({ c with bus := c.bus.close name }.visit (Station.handle c.now .stop) name).andThen (dispatch name)

theorem release_eq [Host] (name : String) (c : Controller) :
    c.release name = (c.halt name).followedBy (wait (isQuiet name) patience) := rfl

theorem halt_halted [Host] (booked : c.Booked history) (name : String) :
    (c.halt name).state.At name Station.Halted := by
  have stopped : ({ c with bus := c.bus.close name }.visit (Station.handle c.now .stop) name).state.At
      name Station.Halted := by
    refine visit_makes (fun _ => Station.handle_reaches .stop) ?_ name
    intro s member
    exact Station.stop_halted c.now (booked.accounts s member).poised
  exact (steady_at Station.halted_lasting name).dispatch name _ [] stopped

theorem release_finished [Host] {outcome : Outcome Controller Effect}
    (released : c.release name = some outcome) (booked : c.Booked history) :
    outcome.state.At name Station.Finished := by
  have later := release_booked released booked
  rw [release_eq, followedBy, Option.map_eq_some_iff] at released
  obtain ⟨waited, isOver, rfl⟩ := released
  -- While its events are put out the station stays halted, so that nothing new can be emitted.
  obtain ⟨halted, quiet⟩ :=
    (steady_at Station.halted_lasting name).timely.wait [] isOver (halt_halted booked name)
  intro s member same
  have found : waited.state.station? name = some s := same ▸ station?_of_mem later.names member
  have empty : s.isQuiet = true := by simpa [isQuiet, found] using quiet
  exact ⟨halted s member same, Station.isQuiet_iff.mp empty⟩

theorem releaseAll_cons [Host] {rest : List String} {outcome : Outcome Controller Effect}
    (released : releaseAll (name :: rest) c = some outcome) :
    ∃ first later, c.release name = some first ∧ releaseAll rest first.state = some later ∧
      outcome.state = later.state ∧ outcome.reports = first.reports ++ later.reports := by
  simp only [releaseAll, followedBy, Option.bind_eq_some_iff, Option.map_eq_some_iff] at released
  obtain ⟨first, releases, later, follows, rfl⟩ := released
  exact ⟨first, later, releases, follows, rfl, rfl⟩

theorem releaseAll_keeps [Host] {invariant : Controller → List Effect → Prop}
    (keeps : ∀ c history name outcome, c.release name = some outcome → invariant c history →
      invariant outcome.state (history ++ outcome.reports))
    {names : List String} {outcome : Outcome Controller Effect} (history : List Effect)
    (released : releaseAll names c = some outcome) (holds : invariant c history) :
    invariant outcome.state (history ++ outcome.reports) := by
  induction names generalizing c history outcome with
  | nil =>
      obtain rfl := Option.some.inj released
      simpa using holds
  | cons name rest ih =>
      obtain ⟨first, later, releases, follows, state, reports⟩ := releaseAll_cons released
      rw [state, reports, ← List.append_assoc]
      exact ih _ follows (keeps c history name first releases holds)

theorem halt_fixed [Host] (name : String) (c : Controller) :
    (c.halt name).state.fixed = { c.fixed with bus := c.bus.close name } := by
  rw [halt, andThen_state, Controller.dispatch, visit_fixed, visit_fixed]
  rfl

theorem release_fixed [Host] {outcome : Outcome Controller Effect}
    (released : c.release name = some outcome) :
    outcome.state.fixed = { c.fixed with bus := c.bus.close name } := by
  rw [release_eq, followedBy, Option.map_eq_some_iff] at released
  obtain ⟨waited, isOver, rfl⟩ := released
  exact ((steady_fixed (· = { c.fixed with bus := c.bus.close name })).timely.wait [] isOver
    (halt_fixed name c)).1

theorem release_lasting [Host] {outcome : Outcome Controller Effect} (other : String)
    (released : c.release name = some outcome) (finished : c.At other Station.Finished) :
    outcome.state.At other Station.Finished := by
  refine ((steady_at Station.finished_lasting other).release ?_ ?_ [] released finished).1
  · intro c _ name holds
    exact holds
  · exact fun name => visit_at (fun _ _ => Station.handle_reaches .stop)
      (fun c _ => Station.stop_finished c.now) name other

section all
variable {names : List String} {outcome : Outcome Controller Effect}

theorem releaseAll_booked [Host] (released : releaseAll names c = some outcome)
    (booked : c.Booked history) : outcome.state.Booked (history ++ outcome.reports) :=
  releaseAll_keeps (fun _ _ _ _ => release_booked) history released booked

theorem releaseAll_finished [Host] (released : releaseAll names c = some outcome)
    (booked : c.Booked history)
    (member : name ∈ names) : outcome.state.At name Station.Finished := by
  induction names generalizing c history outcome with
  | nil => cases member
  | cons head rest ih =>
      obtain ⟨first, later, releases, follows, state, -⟩ := releaseAll_cons released
      rw [state]
      -- A station that is finished stays so while the stations behind it are released.
      rcases List.mem_cons.mp member with rfl | among
      · exact releaseAll_keeps (fun _ _ _ _ => release_lasting name) [] follows
          (release_finished releases booked)
      · exact ih follows (release_booked releases booked) among

theorem releaseAll_fixed [Host] (released : releaseAll names c = some outcome) :
    outcome.state.fixed =
      { c.fixed with bus := names.foldl (fun bus name => bus.close name) c.bus } := by
  induction names generalizing c outcome with
  | nil =>
      obtain rfl := Option.some.inj released
      rfl
  | cons name rest ih =>
      obtain ⟨first, later, releases, follows, state, -⟩ := releaseAll_cons released
      have fixedFirst := release_fixed releases
      have sameBus : first.state.bus = c.bus.close name := congrArg Fixed.bus fixedFirst
      rw [state, ih follows, fixedFirst, sameBus]
      rfl

theorem foldl_close_subscriptions (names : List String) (bus : Bus String Signal) :
    (names.foldl (fun bus name => bus.close name) bus).subscriptions =
      bus.subscriptions.filter (·.reader ∉ names) := by
  induction names generalizing bus with
  | nil => simp
  | cons name rest ih =>
      rw [List.foldl_cons, ih]
      simp only [Bus.close, List.filter_filter]
      apply List.filter_congr
      intro subscription _
      simp [Bool.and_comm]

end all

theorem releaseAll_subscriptions [Host] (released : releaseAll names c = some outcome) :
    outcome.state.bus.subscriptions = c.bus.subscriptions.filter (·.reader ∉ names) := by
  rw [← foldl_close_subscriptions]
  exact congrArg (·.bus.subscriptions) (releaseAll_fixed released)

theorem wait_over [Host] {isOver : Controller → Bool} (ended : isOver c = true) (fuel : Nat) :
    wait isOver fuel c = some (.still c) := by
  cases fuel <;> simp [wait, ended]

theorem stopped_booked (booked : c.Booked history) (name : String) :
    let stopped := { c with bus := c.bus.close name }.visit (Station.handle c.now .stop) name
    stopped.state.Booked (history ++ stopped.reports) := by
  have closed : ({ c with bus := c.bus.close name } : Controller).Booked history :=
    booked.same rfl rfl rfl rfl
  have stops : Keeps Booked fun c => c.visit (Station.handle c.now .stop) name :=
    visit_booked (fun _ _ => Station.handle_reaches .stop) name
  exact stops _ _ closed

theorem halt_booked [Host] (booked : c.Booked history) (name : String) :
    (c.halt name).state.Booked (history ++ (c.halt name).reports) := by
  rw [halt, andThen_reports, ← List.append_assoc]
  exact booked_steady.dispatch name _ _ (stopped_booked booked name)

theorem dispatch_empty [Host] (booked : c.Booked history) (undelayed : c.outlet.isDelayed = false)
    (name : String) : (c.dispatch name).state.At name fun s => s.waiting = [] := by
  refine visit_makes (fun _ => Station.dispatch_reaches) ?_ name
  intro s member
  exact Station.dispatch_empties undelayed ((booked.accounts s member).undelayed undelayed)

theorem halt_quiet [Host] (booked : c.Booked history) (undelayed : c.outlet.isDelayed = false)
    (name : String) : isQuiet name (c.halt name).state = true := by
  have stopped := stopped_booked booked name
  generalize outcomeIs : { c with bus := c.bus.close name }.visit (Station.handle c.now .stop) name =
    outcome at stopped
  have outlet : outcome.state.outlet = c.outlet := by
    rw [← outcomeIs]
    exact congrArg Fixed.outlet (visit_fixed _ _ _)
  have empty := dispatch_empty stopped (outlet ▸ undelayed) name
  have halted : (c.halt name).state = (outcome.state.dispatch name).state := by
    rw [← outcomeIs]
    rfl
  rw [halted, isQuiet]
  cases found : (outcome.state.dispatch name).state.station? name with
  | none => rfl
  | some s =>
      obtain ⟨member, same⟩ := station?_some found
      exact Station.isQuiet_iff.mpr (empty s member same)

theorem release_at_once [Host] (booked : c.Booked history) (undelayed : c.outlet.isDelayed = false)
    (name : String) : c.release name = some (c.halt name) := by
  simp [release_eq, followedBy, wait_over (halt_quiet booked undelayed name)]

theorem releaseAll_at_once [Host] (booked : c.Booked history)
    (undelayed : c.outlet.isDelayed = false) (names : List String) :
    ∃ outcome, releaseAll names c = some outcome ∧ outcome.state.now = c.now := by
  induction names generalizing c history with
  | nil => exact ⟨.still c, rfl, rfl⟩
  | cons name rest ih =>
      have outlet : (c.halt name).state.outlet = c.outlet := congrArg Fixed.outlet (halt_fixed name c)
      obtain ⟨later, follows, now⟩ := ih (halt_booked booked name) (outlet ▸ undelayed)
      refine ⟨⟨later.state, (c.halt name).reports ++ later.reports⟩, ?_, ?_⟩
      · simp [releaseAll, release_at_once booked undelayed name, followedBy, follows]
      · rw [now, halt, andThen_state, Controller.dispatch, visit_now, visit_now]

theorem stop_resting [Host] (resting : c.started = false) : c.stop = some (.still c) := by
  simp [stop, resting]

section stop
variable {outcome : Outcome Controller Effect}

theorem stop_started [Host] (started : c.started = true) (stopped : c.stop = some outcome) :
    ∃ released, releaseAll (c.stations.map Station.name) c = some released ∧
      outcome.state =
        { released.state with started := false, stations := [], active := [], agenda := [] } ∧
      outcome.reports = released.reports := by
  simp only [stop, started, if_true, Option.map_eq_some_iff] at stopped
  obtain ⟨released, all, rfl⟩ := stopped
  exact ⟨released, all, rfl, by simp⟩

theorem stop_keeps [Host] {invariant : Controller → List Effect → Prop}
    (gives : ∀ released, c.started = true →
      releaseAll (c.stations.map Station.name) c = some released →
      invariant { released.state with started := false, stations := [], active := [], agenda := [] }
        (history ++ released.reports))
    (stopped : c.stop = some outcome) (holds : invariant c history) :
    invariant outcome.state (history ++ outcome.reports) := by
  cases started : c.started with
  | false =>
      rw [stop_resting started] at stopped
      obtain rfl := Option.some.inj stopped
      exact keeps_still c history holds
  | true =>
      obtain ⟨released, all, state, reports⟩ := stop_started started stopped
      rw [state, reports]
      exact gives released started all

theorem Booked.give (booked : c.Booked history) (started : c.started = true)
    (finished : ∀ s ∈ c.stations, s.Finished) :
    ({ c with started := false, stations := [], active := [], agenda := [] } : Controller).Booked
      history := by
  refine ⟨booked.distinct, by simp, by simp, ?_, booked.known⟩
  intro task among _
  obtain ⟨s, member, rfl⟩ := booked.station_of_started started among
  exact (booked.accounts s member).balanced (finished s member).idle (finished s member).empty

theorem releaseAll_over [Host] {released : Outcome Controller Effect} (started : c.started = true)
    (all : releaseAll (c.stations.map Station.name) c = some released) (booked : c.Booked history) :
    released.state.started = true ∧ ∀ s ∈ released.state.stations, s.Finished := by
  have same := releaseAll_fixed all
  have names : released.state.stations.map Station.name = c.stations.map Station.name :=
    congrArg Fixed.names same
  refine ⟨(congrArg Fixed.started same).trans started, ?_⟩
  intro s member
  exact releaseAll_finished all booked (names ▸ List.mem_map_of_mem member) s member rfl

theorem give_booked [Host] {released : Outcome Controller Effect} (started : c.started = true)
    (all : releaseAll (c.stations.map Station.name) c = some released) (booked : c.Booked history) :
    ({ released.state with started := false, stations := [], active := [], agenda := [] } :
      Controller).Booked (history ++ released.reports) := by
  obtain ⟨started', finished⟩ := releaseAll_over started all booked
  exact (releaseAll_booked all booked).give started' finished

theorem stop_booked [Host] (stopped : c.stop = some outcome) (booked : c.Booked history) :
    outcome.state.Booked (history ++ outcome.reports) :=
  stop_keeps (fun _ started all => give_booked started all booked) stopped booked

end stop

end Controller
end Cadence
