import Cadence.Proofs.Controller.Alone
import Cadence.Proofs.Controller.Shutdown

/-!
A stop on which other things intrude. While its stations are released one after the other, signals
come in for those that still listen and timers fire, several at a time and in any order.
-/

namespace Cadence.Controller
open Outcome Effect Sequencer

variable {c : Controller} {name : String} {names : List String} {history : List Effect}
  {property : Station → Prop}

inductive Intrusion
  | publish (signals : List (String × Signal))
  | fire (owner : Owner)

/-- What intrudes on the release of a station: while its feed is still read, while its sequencer is
not stopped yet, and while its last events are put out. -/
structure Pauses where
  reading : List Intrusion
  closed : List Intrusion
  stopped : List Intrusion

def Pauses.timers (owners : List Owner) : Pauses := ⟨[], [], owners.map .fire⟩

variable [Host]

def intrude : Intrusion → Controller → Outcome Controller Effect
  | .publish signals, c => c.publish signals
  | .fire owner, c =>
      match c.due? owner with
      | none => .still c
      | some due => c.fire owner due

def quell (name : String) (c : Controller) : Outcome Controller Effect :=
  (c.visit (Station.handle c.now .stop) name).andThen (dispatch name)

def unplug (pauses : Pauses) (name : String) (c : Controller) : Outcome Controller Effect :=
  (Outcome.each intrude pauses.reading c).andThen fun c =>
    (Outcome.still { c with bus := c.bus.close name }).andThen (Outcome.each intrude pauses.closed)

/-- There is no outcome unless in the end all events of the station are put out. -/
def releaseAmid (pauses : Pauses) (name : String) (c : Controller) :
    Option (Outcome Controller Effect) :=
  let outcome := ((c.unplug pauses name).andThen (quell name)).andThen
    (Outcome.each intrude pauses.stopped)
  if isQuiet name outcome.state then some outcome else none

def releaseAllAmid (pauses : String → Pauses) :
    List String → Controller → Option (Outcome Controller Effect)
  | [], c => some (.still c)
  | name :: rest, c =>
      (c.releaseAmid (pauses name) name).bind fun outcome =>
        outcome.followedBy (releaseAllAmid pauses rest)

def stopAmid (pauses : String → Pauses) (c : Controller) : Option (Outcome Controller Effect) :=
  if c.started then
    (releaseAllAmid pauses (c.stations.map Station.name) c).map fun outcome =>
      ⟨{ outcome.state with started := false, stations := [], active := [], agenda := [] },
        outcome.reports⟩
  else some (.still c)

/-! ## A station off the bus -/

structure Sealed (name : String) (property : Station → Prop) (c : Controller) : Prop where
  holds : c.At name property
  unread : name ∉ c.bus.readers

theorem publish_sealed (signals : List (String × Signal)) (booked : c.Booked history)
    (isSealed : c.Sealed name property) : (c.publish signals).state.Sealed name property := by
  have deaf : name ∉ (c.bus.carry signals).readers := by
    rw [Bus.carry_readers]
    exact isSealed.unread
  have asleep : ∀ other ∈ Bus.woken signals c.bus, other ≠ name := by
    rintro other awake rfl
    exact isSealed.unread (Bus.readers_of_woken awake)
  have booked' := publish_booked signals c history booked
  rw [publish_eq] at booked' ⊢
  obtain ⟨view, -, -⟩ := settle_other asleep { c with bus := c.bus.carry signals }
  refine ⟨?_, ?_⟩
  · intro s member same
    have found := station?_of_mem booked'.names member
    rw [same, view_station view] at found
    obtain ⟨among, named⟩ := station?_some found
    exact isSealed.holds s among named
  · apply Bus.unread_of
    have none : ((c.bus.carry signals).of name).subscriptions = [] := by
      apply List.filter_eq_nil_iff.mpr
      intro subscription among reads
      exact deaf (of_decide_eq_true reads ▸ List.mem_map_of_mem among)
    exact (congrArg (·.bus.subscriptions) view).trans none

omit [Host] in
theorem Sealed.of_fixed {d : Controller} (isSealed : c.Sealed name property)
    (holds : d.At name property) (same : d.fixed = c.fixed) : d.Sealed name property := by
  have bus : d.bus = c.bus := congrArg Fixed.bus same
  exact ⟨holds, bus ▸ isSealed.unread⟩

/-! ## What intrusions keep -/

theorem intrude_keeps {invariant : Controller → List Effect → Prop}
    (publishes : ∀ signals, Keeps invariant (publish signals))
    (fires : ∀ owner due, Keeps invariant (fire owner due)) (intrusion : Intrusion) :
    Keeps invariant (intrude intrusion) := by
  cases intrusion with
  | publish signals => exact publishes signals
  | fire owner =>
      intro c history holds
      cases pending : c.due? owner with
      | none => simpa [intrude, pending] using holds
      | some due =>
          simp only [intrude, pending]
          exact fires owner due c history holds

theorem intrude_booked : ∀ intrusion, Keeps Booked (intrude intrusion) :=
  intrude_keeps publish_booked booked_steady.timely.fires

theorem intrude_listed : ∀ intrusion, Keeps Listed (intrude intrusion) :=
  intrude_keeps publish_listed (steady_fixed Fixed.Listed).timely.fires

theorem intrude_sealed (lasting : Station.Lasting property) :
    ∀ intrusion, Keeps (fun c history => c.Booked history ∧ c.Sealed name property)
      (intrude intrusion) := by
  refine intrude_keeps ?_ ?_
  · intro signals c history both
    exact ⟨publish_booked signals c history both.1, publish_sealed signals both.1 both.2⟩
  · intro owner due c history both
    have holds := (steady_at lasting name).timely.fires owner due c [] both.2.holds
    have same := (steady_fixed (· = c.fixed)).timely.fires owner due c [] rfl
    exact ⟨booked_steady.timely.fires owner due c history both.1, both.2.of_fixed holds same⟩

structure Cleared (names : List String) (c : Controller) (history : List Effect) : Prop where
  booked : c.Booked history
  listed : c.Listed history
  done : ∀ name ∈ names, c.Sealed name Station.Finished

theorem intrude_cleared (intrusion : Intrusion) : Keeps (Cleared names) (intrude intrusion) := by
  intro c history cleared
  refine ⟨intrude_booked intrusion c history cleared.booked,
    intrude_listed intrusion c history cleared.listed, ?_⟩
  intro name among
  exact (intrude_sealed Station.finished_lasting intrusion c history
    ⟨cleared.booked, cleared.done name among⟩).2

omit [Host] in
theorem close_cleared (name : String) (cleared : c.Cleared names history) :
    ({ c with bus := c.bus.close name } : Controller).Cleared names history := by
  refine ⟨cleared.booked.same rfl rfl rfl rfl, ?_, ?_⟩
  · refine ⟨?_, cleared.listed.active, cleared.listed.resting⟩
    intro subscription among
    exact cleared.listed.readers subscription (List.mem_filter.mp among).1
  · intro other among
    refine ⟨(cleared.done other among).holds, ?_⟩
    intro reads
    obtain ⟨subscription, stays, rfl⟩ := List.mem_map.mp reads
    exact (cleared.done _ among).unread (List.mem_map_of_mem (List.mem_filter.mp stays).1)

omit [Host] in
theorem unread_close (name : String) (bus : Bus String Signal) : name ∉ (bus.close name).readers := by
  intro reads
  obtain ⟨subscription, stays, named⟩ := List.mem_map.mp reads
  simpa [named] using (List.mem_filter.mp stays).2

theorem quell_fixed (name : String) (c : Controller) : (c.quell name).state.fixed = c.fixed := by
  rw [quell, andThen_state, Controller.dispatch, visit_fixed, visit_fixed]

theorem quell_cleared (name : String) : Keeps (Cleared names) (quell name) := by
  intro c history cleared
  have stops : Keeps Booked fun c => c.visit (Station.handle c.now .stop) name :=
    visit_booked (fun _ _ => Station.handle_reaches .stop) name
  refine ⟨(stops.andThen (booked_steady.dispatch name)) c history cleared.booked, ?_, ?_⟩
  · unfold Listed
    rw [quell_fixed]
    exact cleared.listed
  · intro other among
    have stays : Keeps (fun (c : Controller) (_ : List Effect) => c.At other Station.Finished)
        fun c => c.visit (Station.handle c.now .stop) name :=
      visit_at (fun _ _ => Station.handle_reaches .stop) (fun c _ => Station.stop_finished c.now)
        name other
    have holds := (stays.andThen ((steady_at Station.finished_lasting other).dispatch name)) c []
      (cleared.done other among).holds
    exact (cleared.done other among).of_fixed holds (quell_fixed name c)

theorem quell_halted (booked : c.Booked history) (unread : name ∉ c.bus.readers) :
    (c.quell name).state.Sealed name Station.Halted := by
  have stopped : (c.visit (Station.handle c.now .stop) name).state.At name Station.Halted := by
    refine visit_makes (fun _ => Station.handle_reaches .stop) ?_ name
    intro s member
    exact Station.stop_halted c.now (booked.accounts s member).poised
  have bus : (c.quell name).state.bus = c.bus := congrArg Fixed.bus (quell_fixed name c)
  exact ⟨(steady_at Station.halted_lasting name).dispatch name _ [] stopped, bus ▸ unread⟩

theorem quell_finished (booked : c.Booked history) (undelayed : c.outlet.isDelayed = false)
    (unread : name ∉ c.bus.readers) : (c.quell name).state.Sealed name Station.Finished := by
  obtain ⟨halted, unread'⟩ := quell_halted booked unread
  have stopped : (c.visit (Station.handle c.now .stop) name).state.Booked _ :=
    visit_booked (fun _ _ => Station.handle_reaches .stop) name c history booked
  have outlet : (c.visit (Station.handle c.now .stop) name).state.outlet = c.outlet :=
    congrArg Fixed.outlet (visit_fixed _ name c)
  have empty := dispatch_empty stopped (outlet ▸ undelayed) name
  exact ⟨fun s member same => ⟨halted s member same, empty s member same⟩, unread'⟩

/-! ## Releases -/

structure Releasing (names : List String) (name : String) (property : Station → Prop)
    (c : Controller) (history : List Effect) : Prop extends c.Cleared names history where
  isSealed : c.Sealed name property

theorem intrusions_releasing (lasting : Station.Lasting property) (intrusions : List Intrusion) :
    Keeps (Releasing names name property) (Outcome.each intrude intrusions) := by
  refine Keeps.each fun intrusion _ c history releasing => ?_
  exact ⟨intrude_cleared intrusion c history releasing.toCleared,
    (intrude_sealed lasting intrusion c history ⟨releasing.booked, releasing.isSealed⟩).2⟩

theorem unplug_releasing (pauses : Pauses) (name : String) (cleared : c.Cleared names history) :
    (c.unplug pauses name).state.Releasing names name (fun _ => True)
      (history ++ (c.unplug pauses name).reports) := by
  have idle : Station.Lasting fun _ => True :=
    ⟨fun _ _ => trivial, fun _ _ _ => trivial, fun _ _ _ _ => trivial⟩
  have read : (Outcome.each intrude pauses.reading c).state.Cleared names
      (history ++ (Outcome.each intrude pauses.reading c).reports) :=
    Keeps.each (fun intrusion _ => intrude_cleared intrusion) c history cleared
  have closed : Releasing names name (fun _ => True) _ _ :=
    ⟨close_cleared name read, fun _ _ _ => trivial, unread_close name _⟩
  have waited := intrusions_releasing idle pauses.closed _ _ closed
  simpa [unplug, List.append_assoc] using waited

omit [Host] in
theorem Sealed.quiet (isSealed : c.Sealed name Station.Finished) : isQuiet name c = true := by
  rw [isQuiet]
  cases found : c.station? name with
  | none => rfl
  | some s =>
      obtain ⟨member, same⟩ := station?_some found
      exact Station.isQuiet_iff.mpr (isSealed.holds s member same).empty

omit [Host] in
theorem Sealed.finished (isSealed : c.Sealed name Station.Halted) (booked : c.Booked history)
    (quiet : isQuiet name c = true) : c.Sealed name Station.Finished := by
  refine ⟨?_, isSealed.unread⟩
  intro s member same
  have found := same ▸ station?_of_mem booked.names member
  have empty : s.isQuiet = true := by simpa [isQuiet, found] using quiet
  exact ⟨isSealed.holds s member same, Station.isQuiet_iff.mp empty⟩

theorem releaseAmid_cleared {pauses : Pauses} {outcome : Outcome Controller Effect}
    (released : c.releaseAmid pauses name = some outcome) (cleared : c.Cleared names history) :
    outcome.state.Cleared (name :: names) (history ++ outcome.reports) := by
  simp only [releaseAmid, Option.ite_none_right_eq_some, Option.some.injEq] at released
  obtain ⟨quiet, rfl⟩ := released
  have unplugged := unplug_releasing pauses name cleared
  -- The sequencer is stopped, and nothing that intrudes can start it again.
  have quelled : Releasing names name Station.Halted _ _ :=
    ⟨quell_cleared name _ _ unplugged.toCleared,
      quell_halted unplugged.booked unplugged.isSealed.unread⟩
  have ended := intrusions_releasing Station.halted_lasting pauses.stopped _ _ quelled
  simp only [andThen_reports, ← List.append_assoc]
  refine ⟨ended.booked, ended.listed, ?_⟩
  intro other among
  rcases List.mem_cons.mp among with rfl | before
  · exact ended.isSealed.finished ended.booked quiet
  · exact ended.done other before

theorem intrusions_shape (intrusions : List Intrusion) (c : Controller) :
    (Outcome.each intrude intrusions c).state.shape = c.shape := by
  let shaped (d : Controller) (_ : List Effect) : Prop := d.shape = c.shape
  have passes : Keeps shaped (Outcome.each intrude intrusions) := by
    refine Keeps.each fun intrusion _ => intrude_keeps ?_ ?_ intrusion
    · intro signals d _ same
      exact (publish_shape signals d).trans same
    · intro owner due d _ same
      exact (fire_shape owner due d).trans same
  exact passes c [] rfl

theorem unplug_shape (pauses : Pauses) (name : String) (c : Controller) :
    (c.unplug pauses name).state.shape = c.shape :=
  (intrusions_shape pauses.closed _).trans (intrusions_shape pauses.reading c)

theorem releaseAmid_shape {pauses : Pauses} {outcome : Outcome Controller Effect}
    (released : c.releaseAmid pauses name = some outcome) : outcome.state.shape = c.shape := by
  simp only [releaseAmid, Option.ite_none_right_eq_some, Option.some.injEq] at released
  obtain ⟨-, rfl⟩ := released
  have quelled := shape_of_fixed (quell_fixed name (c.unplug pauses name).state)
  exact ((intrusions_shape pauses.stopped _).trans quelled).trans (unplug_shape pauses name c)

theorem releaseAmid_prompt (pauses : Pauses) (name : String) (cleared : c.Cleared names history)
    (undelayed : c.outlet.isDelayed = false) : ∃ outcome, c.releaseAmid pauses name = some outcome := by
  have unplugged := unplug_releasing pauses name cleared
  have outlet : (c.unplug pauses name).state.outlet = c.outlet :=
    congrArg Shape.outlet (unplug_shape pauses name c)
  have quelled : Releasing names name Station.Finished _ _ :=
    ⟨quell_cleared name _ _ unplugged.toCleared,
      quell_finished unplugged.booked (outlet ▸ undelayed) unplugged.isSealed.unread⟩
  have ended := intrusions_releasing Station.finished_lasting pauses.stopped _ _ quelled
  exact ⟨_, if_pos ended.isSealed.quiet⟩

theorem releaseAllAmid_prompt (pauses : String → Pauses) (rest : List String)
    (cleared : c.Cleared names history) (undelayed : c.outlet.isDelayed = false) :
    ∃ outcome, releaseAllAmid pauses rest c = some outcome := by
  induction rest generalizing c history names with
  | nil => exact ⟨.still c, rfl⟩
  | cons name rest ih =>
      obtain ⟨first, releases⟩ := releaseAmid_prompt (pauses name) name cleared undelayed
      have outlet : first.state.outlet = c.outlet := congrArg Shape.outlet (releaseAmid_shape releases)
      obtain ⟨later, follows⟩ := ih (releaseAmid_cleared releases cleared) (outlet ▸ undelayed)
      simp only [releaseAllAmid, releases, Option.bind_some, followedBy, follows, Option.map_some]
      exact ⟨_, rfl⟩

theorem releaseAllAmid_cleared {pauses : String → Pauses} {rest : List String}
    {outcome : Outcome Controller Effect} (released : releaseAllAmid pauses rest c = some outcome)
    (cleared : c.Cleared names history) :
    outcome.state.Cleared (rest.reverse ++ names) (history ++ outcome.reports) ∧
      outcome.state.shape = c.shape := by
  induction rest generalizing c history names outcome with
  | nil =>
      obtain rfl := Option.some.inj released
      exact ⟨by simpa using cleared, rfl⟩
  | cons name rest ih =>
      simp only [releaseAllAmid, followedBy, Option.bind_eq_some_iff, Option.map_eq_some_iff] at released
      obtain ⟨first, releases, later, follows, rfl⟩ := released
      obtain ⟨done, shape⟩ := ih follows (releaseAmid_cleared releases cleared)
      refine ⟨?_, shape.trans (releaseAmid_shape releases)⟩
      simpa [List.append_assoc] using done

/-! ## Stops on which nothing but time intrudes -/

omit [Host] in
theorem due?_of_next {owner : Owner} {due : Instant} (next : c.next? = some (owner, due)) :
    c.due? owner = some due := by
  obtain ⟨front, back, split, -⟩ := earliest?_foremost next
  have pending : (owner, due) ∈ c.timers := split ▸ by simp
  simp only [timers, List.mem_filterMap, Option.map_eq_some_iff, Prod.mk.injEq] at pending
  obtain ⟨armed, -, time, found, rfl, rfl⟩ := pending
  exact found

theorem wait_fires {isOver : Controller → Bool} {fuel : Nat} {outcome : Outcome Controller Effect}
    (waited : wait isOver fuel c = some outcome) :
    isOver outcome.state = true ∧
      ∃ owners : List Owner, Outcome.each intrude (owners.map .fire) c = outcome := by
  induction fuel generalizing c outcome with
  | zero =>
      simp only [wait, Option.ite_none_right_eq_some, Option.some.injEq] at waited
      obtain ⟨ended, rfl⟩ := waited
      exact ⟨ended, [], rfl⟩
  | succ fuel ih =>
      simp only [wait] at waited
      split at waited
      · next ended =>
          obtain rfl := Option.some.inj waited
          exact ⟨ended, [], rfl⟩
      · split at waited
        · cases waited
        · next owner due next =>
            simp only [followedBy, Option.map_eq_some_iff] at waited
            obtain ⟨later, waits, rfl⟩ := waited
            obtain ⟨ended, owners, fires⟩ := ih waits
            refine ⟨ended, owner :: owners, ?_⟩
            rw [List.map_cons, each_cons, intrude, due?_of_next next, andThen, fires]

theorem release_amid {outcome : Outcome Controller Effect} (released : c.release name = some outcome) :
    ∃ owners : List Owner, c.releaseAmid (.timers owners) name = some outcome := by
  rw [release_eq, followedBy, Option.map_eq_some_iff] at released
  obtain ⟨waited, waits, rfl⟩ := released
  obtain ⟨ended, owners, fires⟩ := wait_fires waits
  refine ⟨owners, ?_⟩
  have whole : ((c.unplug (.timers owners) name).andThen (quell name)).andThen
      (Outcome.each intrude (Pauses.timers owners).stopped) =
      ⟨waited.state, (c.halt name).reports ++ waited.reports⟩ := by
    change (c.halt name).andThen (Outcome.each intrude (owners.map .fire)) = _
    simp only [andThen, fires]
  rw [releaseAmid, whole, if_pos ended]

theorem releaseAllAmid_congr {pauses other : String → Pauses} {rest : List String}
    (same : ∀ name ∈ rest, pauses name = other name) :
    releaseAllAmid pauses rest = releaseAllAmid other rest := by
  induction rest with
  | nil => rfl
  | cons name rest ih =>
      funext c
      rw [releaseAllAmid, releaseAllAmid, same name (by simp),
        ih fun later among => same later (by simp [among])]

theorem releaseAll_amid {rest : List String} (distinct : rest.Nodup)
    {outcome : Outcome Controller Effect} (released : releaseAll rest c = some outcome) :
    ∃ owners : String → List Owner,
      releaseAllAmid (fun name => .timers (owners name)) rest c = some outcome := by
  induction rest generalizing c outcome with
  | nil => exact ⟨fun _ => [], released⟩
  | cons name rest ih =>
      obtain ⟨first, later, releases, follows, state, reports⟩ := releaseAll_cons released
      obtain ⟨missing, distinct⟩ := List.nodup_cons.mp distinct
      obtain ⟨owners, amid⟩ := release_amid releases
      obtain ⟨others, amidOthers⟩ := ih distinct follows
      refine ⟨fun other => if other = name then owners else others other, ?_⟩
      have unchanged : releaseAllAmid (fun other =>
          .timers (if other = name then owners else others other)) rest =
          releaseAllAmid (fun other => .timers (others other)) rest := by
        apply releaseAllAmid_congr
        intro other among
        rw [if_neg (ne_of_mem_of_not_mem among missing)]
      simp only [releaseAllAmid, if_true, amid, Option.bind_some, followedBy, unchanged, amidOthers,
        Option.map_some, ← state, ← reports]

/-- A stop on which nothing intrudes is one on which timers fire while events are put out. -/
theorem stop_amid (booked : c.Booked history) {last : Outcome Controller Effect}
    (stopped : c.stop = some last) :
    ∃ owners : String → List Owner, c.stopAmid (fun name => .timers (owners name)) = some last := by
  cases started : c.started with
  | false =>
      rw [stop_resting started] at stopped
      exact ⟨fun _ => [], by simpa [stopAmid, started] using stopped⟩
  | true =>
      obtain ⟨released, all, state, reports⟩ := stop_started started stopped
      obtain ⟨owners, amid⟩ := releaseAll_amid booked.names all
      refine ⟨owners, ?_⟩
      rw [stopAmid, if_pos started, amid, Option.map_some, ← state, ← reports]

/-! ## Stops -/

structure Over (tasks : List Task) (outlet : Outlet) (past : List Effect)
    (last : Outcome Controller Effect) : Prop where
  paired : ∀ task ∈ tasks, ∃ turns : List Turn, (∀ turn ∈ turns, turn.IsOf task.activities) ∧
    events task.name (past ++ last.reports) = paired turns ∧
    calls task.name (past ++ last.reports) = (paired turns).map outlet.call
  off : ∀ path call, (driven path (past ++ last.reports)).getLast? = some call →
    ∃ task ∈ tasks, ∃ turn : Turn, turn.IsOf task.activities ∧ turn.2.path = path ∧
      call = outlet.call turn.off
  unread : last.state.bus.subscriptions = []
  inactive : last.state.active = []
  silent : ∀ later : List Step, .start ∉ later → (run later last.state).reports = []

/-- A stop leaves nothing on and nothing running, whatever intrudes on it, and it comes to an end if
calls take no time. -/
theorem intruded_stop_leaves_nothing_on {tasks : List Task} {outlet : Outlet} {fresh : Controller}
    (created : create tasks outlet = .ok fresh) (steps : List Step)
    (started : (run steps fresh).state.started = true) (pauses : String → Pauses) :
    (∀ last, (run steps fresh).state.stopAmid pauses = some last →
      Over tasks outlet (run steps fresh).reports last) ∧
    (outlet.isDelayed = false → ∃ last, (run steps fresh).state.stopAmid pauses = some last) := by
  have booked := created_booked created steps
  have listed := created_listed created steps
  obtain ⟨tasksAre, outletIs⟩ := created_serves created steps
  generalize (run steps fresh).state = c at *
  generalize (run steps fresh).reports = history at *
  have bare : c.Cleared [] history := ⟨booked, listed, by simp⟩
  simp only [stopAmid, started, if_true, Option.map_eq_some_iff]
  constructor
  · rintro last ⟨released, all, rfl⟩
    obtain ⟨cleared, shape⟩ := releaseAllAmid_cleared all bare
    simp only [Controller.shape, Shape.mk.injEq] at shape
    obtain ⟨tasks', outlet', started', names⟩ := shape
    have finished : ∀ s ∈ released.state.stations, s.Finished := by
      intro s member
      have among : s.name ∈ c.stations.map Station.name := names ▸ List.mem_map_of_mem member
      exact (cleared.done s.name (by simpa using among)).holds s member rfl
    have unread : released.state.bus.subscriptions = [] := by
      apply List.eq_nil_iff_forall_not_mem.mpr
      intro subscription among
      have known : subscription.reader ∈ c.stations.map Station.name :=
        names ▸ cleared.listed.readers subscription among
      exact (cleared.done subscription.reader (by simpa using known)).unread
        (List.mem_map_of_mem among)
    have booked' := cleared.booked.give (started'.trans started) finished
    refine ⟨booked'.turns rfl (tasks'.trans tasksAre) (outlet'.trans outletIs), ?_, unread, rfl, ?_⟩
    · intro path call isLast
      exact stop_off booked' rfl (tasks'.trans tasksAre) (outlet'.trans outletIs) isLast
    · intro later unstarted
      have silent : Silent { released.state with
          started := false, stations := [], active := [], agenda := [] } := ⟨rfl, rfl, unread, rfl⟩
      exact run_silent silent unstarted
  · intro undelayed
    obtain ⟨released, all⟩ :=
      releaseAllAmid_prompt pauses (c.stations.map Station.name) bare (outletIs ▸ undelayed)
    exact ⟨_, released, all, rfl⟩

end Cadence.Controller
