import Cadence.Proofs.Controller.Edges
import Cadence.Proofs.Controller.Mended
import Cadence.Proofs.Controller.Shutdown

namespace Cadence.Controller
open Outcome Effect Sequencer

variable {c d : Controller} {s t : Station} {task : Task} {name : String}
  {past history effects : List Effect} {heard : String → List Signal}

/-! ## Off for good -/

structure Retired (name : String) (c : Controller) (history : List Effect) : Prop where
  halted : c.At name Station.Halted
  unread : name ∉ c.bus.readers
  silent : doings name history = []

theorem visit_retired {step : Controller → Station → Outcome Station Effect} {other : String}
    (reaches : ∀ (c : Controller) (s : Station),
      s.Reaches c.outlet (step c s).state (step c s).reports)
    (rests : other = name → ∀ (c : Controller) (s : Station), s.Halted →
      (step c s).state.Halted ∧ doings s.name (step c s).reports = []) :
    Keeps (Retired name) fun c => c.visit (step c) other := by
  apply visit_keeps
  intro c history old found retired
  obtain ⟨among, itsName⟩ := station?_some found
  have named := (reaches c old).name
  refine ⟨?_, retired.unread, ?_⟩
  · intro s member same
    rcases mem_setStation member with rfl | ⟨before, -⟩
    · have own : old.name = name := named.symm.trans same
      exact (rests (itsName ▸ own) c old (retired.halted old among own)).1
    · exact retired.halted s before same
  · rw [doings_append, retired.silent, List.nil_append]
    by_cases own : old.name = name
    · rw [← own]
      exact (rests (itsName ▸ own) c old (retired.halted old among own)).2
    · apply doings_foreign
      intro effect part about
      exact own ((reaches c old).own effect part name about).symm

section
variable [Host]

theorem retired_steady (name : String) : Steady (Retired name) where
  clock _ _ _ _ retired := ⟨retired.halted, retired.unread, retired.silent⟩
  fire other := visit_retired (fun _ _ => Station.fire_reaches) fun _ _ s halted => by
    rw [Station.fire_halted halted]
    exact ⟨halted, rfl⟩
  arrive other := visit_retired (fun _ _ => Station.arrive_reaches) fun _ c s halted =>
    ⟨Station.halted_lasting.arrive c.outlet s halted, Station.arrive_doings c.outlet s⟩
  dispatch other := visit_retired (fun _ _ => Station.dispatch_reaches) fun _ c s halted =>
    ⟨Station.halted_lasting.dispatch c.outlet c.now s halted, Station.dispatch_doings c.outlet c.now s⟩

theorem readFeed_retired {other : String} (different : other ≠ name) :
    Keeps (Retired name) (readFeed other) := by
  intro c history retired
  have silent : doings name (history ++ (c.readFeed other).reports) = [] := by
    rw [doings_append, retired.silent, readFeed_doings]
    rfl
  cases found : c.station? other with
  | none =>
      have still : c.readFeed other = .still c := by simp [readFeed, found]
      rw [still] at silent ⊢
      exact ⟨retired.halted, retired.unread, silent⟩
  | some old =>
      refine ⟨?_, ?_, silent⟩
      · intro s member same
        rw [readFeed_eq found] at member
        rcases mem_setStation member with rfl | ⟨before, -⟩
        · exact absurd ((station?_some found).2.symm.trans same) different
        · exact retired.halted s before same
      · rw [readFeed_eq found]
        exact fun read => retired.unread (mem_drawn_readers read)

theorem publish_retired (signals : List (String × Signal)) :
    Keeps (Retired name) (publish signals) := by
  intro c history retired
  have others : ∀ other ∈ Bus.woken signals c.bus, other ≠ name := by
    rintro other awake rfl
    exact retired.unread (Bus.readers_of_woken awake)
  have carried : Retired name { c with bus := c.bus.carry signals } history :=
    ⟨retired.halted, by rw [Bus.carry_readers]; exact retired.unread, retired.silent⟩
  rw [publish_eq]
  refine settle_keeps (fun other awake => readFeed_retired (others other awake)) ?_
    (fun other _ => (retired_steady name).dispatch other) _ _ carried
  intro other awake
  exact visit_retired (fun _ _ => Station.obey_reaches) fun own => absurd own (others other awake)

theorem beats_retired (beats : List Beat) (retired : Retired name c []) :
    doings name (run (beats.map Beat.step) c).reports = [] :=
  (@beats_keep c [] (fun _ => []) _ (fun _ => Retired name)
    (fun _ signals => publish_retired signals)
    (fun _ => (retired_steady name).timely.advance) beats retired).silent

structure OffForGood (tasks : List Task) (outlet : Outlet) (task : Task) (past : List Effect)
    (outcome : Outcome Controller Effect) : Prop where
  rests : ∃ s ∈ outcome.state.stations, s.task = task ∧ s.sequencer.isIdle = true ∧
    s.sequencer.timer = none
  inactive : task.name ∉ outcome.state.active
  reported : (statuses outcome.reports).getLast? = some outcome.state.status
  unread : ∀ subscription ∈ outcome.state.bus.subscriptions, subscription.reader ≠ task.name
  turns : ∃ turns : List Turn, (∀ turn ∈ turns, turn.IsOf task.activities) ∧
    events task.name (past ++ outcome.reports) = paired turns
  lasting : ∀ more : List Beat,
    doings task.name (run (more.map Beat.step) outcome.state).reports = []
  shutdown : ∀ last, outcome.state.stop = some last →
    Shutdown tasks outlet outcome.state (past ++ outcome.reports) last
  prompt : outlet.isDelayed = false →
    ∃ last, outcome.state.stop = some last ∧ last.state.now = outcome.state.now

theorem settled_off {outcome : Outcome Controller Effect}
    (settled : Settled [] heard past outcome.state outcome.reports)
    (started : outcome.state.started = true) (among : task ∈ outcome.state.tasks)
    (failed : task.trigger.fails (heard task.trigger.path) = true) :
    OffForGood outcome.state.tasks outcome.state.outlet task past outcome := by
  have booked := settled.attuned.booked
  obtain ⟨s, member, rfl⟩ := booked.station_of_started started among
  obtain ⟨closed, held⟩ := Trigger.closed_of_fails false failed
  have accounts := booked.accounts s member
  have inactive : s.name ∉ outcome.state.active := by
    rw [(settled.attuned.follows s member).active settled.unread, Trigger.isOn_iff, held]
    exact nofun
  have idle := settled_rests settled member inactive
  have free := (accounts.poised.rest idle).2
  have unread := settled_closed settled member closed
  have halted : outcome.state.At s.name Station.Halted := by
    intro t among same
    obtain rfl := List.inj_on_of_nodup_map booked.names among member same
    exact ⟨idle, free⟩
  obtain ⟨turns, member', recorded⟩ := accounts.turns
  rw [unpaired_idle idle, List.append_nil] at recorded
  refine ⟨⟨s, member, rfl, idle, free⟩, inactive, settled.attuned.line, ?_,
    ⟨turns, member', recorded⟩, ?_, ?_, ?_⟩
  · intro subscription among reader
    exact unread (List.mem_map.mpr ⟨subscription, among, reader⟩)
  · intro more
    exact beats_retired more ⟨halted, unread, rfl⟩
  · intro last stopped
    have listed : outcome.state.Listed (past ++ outcome.reports) := settled.attuned.listed
    exact shutdown started booked listed stopped
  · intro undelayed
    obtain ⟨released, all, now⟩ :=
      releaseAll_at_once booked undelayed (outcome.state.stations.map Station.name)
    simp only [stop, started, if_true, all, Option.map_some, Option.some.injEq, exists_eq_left']
    exact now

/-! ## As if its trigger had gone off -/

structure SameCourse (o p : Outcome Controller Effect) : Prop where
  sequencers : o.state.stations.map Station.sequencer = p.state.stations.map Station.sequencer
  deeds : deeds o.reports = deeds p.reports
  active : o.state.active = p.state.active
  status : o.state.status = p.state.status
  now : o.state.now = p.state.now
  stop : o.state.stop = p.state.stop

theorem Twins.sameCourse {o p : Outcome Controller Effect} (twins : Twins name o p)
    (started : o.state.started = true) (manned : name ∈ o.state.stations.map Station.name) :
    SameCourse o p := by
  have same := twins.state
  have view {α : Type} (f : Station → α) (keeps : ∀ s, f (muffle name s) = f s) (c : Controller) :
      (c.hush name).stations.map f = c.stations.map f := by
    simp [hush, Function.comp_def, keeps]
  have startedSame := congrArg Controller.started same
  have started' : p.state.started = true := startedSame.symm.trans started
  have active := congrArg Controller.active same
  have status := congrArg Controller.status same
  have now := congrArg Controller.now same
  have names : p.state.stations.map Station.name = o.state.stations.map Station.name := by
    rw [← view _ (muffle_name name), ← same, view _ (muffle_name name)]
  have sequencer (s : Station) : (muffle name s).sequencer = s.sequencer := by
    unfold muffle
    split <;> rfl
  refine ⟨?_, twins.deeds, active, status, now, ?_⟩
  · rw [← view _ sequencer, same, view _ sequencer]
  · rw [← stop_hush started manned, same, stop_hush started' (names ▸ manned)]

/-- A feed that fails puts its task off for good, in the same course as a value that evaluates to 0. -/
structure FailsAsOff (tasks : List Task) (outlet : Outlet) (task : Task) (signals : List Signal)
    (past : List Effect) (beats : List Beat) (before : Controller) : Prop where
  off : OffForGood tasks outlet task past (run (.start :: beats.map Beat.step) before)
  possible : (task.trigger.kind = .switch → task.trigger.on ≠ none) →
    task.trigger.evaluate .null = .ok false
  same : ∀ zero, task.trigger.evaluate zero = .ok false →
    SameCourse (run (.start :: beats.map Beat.step) before) (mendedRun task zero beats before) ∧
      task.trigger.states (task.trigger.mend zero signals) = task.trigger.states signals ++ [false] ∧
      task.trigger.fails (task.trigger.mend zero signals) = false

theorem failing_feed_goes_off {tasks : List Task} {outlet : Outlet} {fresh : Controller}
    (created : create tasks outlet = .ok fresh) (earlier : List Step)
    (resting : (run earlier fresh).state.started = false) (beats : List Beat) (among : task ∈ tasks)
    (failed : task.trigger.fails
      (((run earlier fresh).state.bus.last? task.trigger.path).toList ++
        Bus.published task.trigger.path (beats.flatMap Beat.signals)) = true) :
    FailsAsOff tasks outlet task
      (((run earlier fresh).state.bus.last? task.trigger.path).toList ++
        Bus.published task.trigger.path (beats.flatMap Beat.signals))
      (run earlier fresh).reports beats (run earlier fresh).state := by
  let before := (run earlier fresh).state
  let outcome := run (.start :: beats.map Beat.step) before
  let heard := fun path =>
    (before.bus.last? path).toList ++ Bus.published path (beats.flatMap Beat.signals)
  have booked := created_booked created earlier
  have listed := created_listed created earlier
  have serves := created_serves created earlier
  have among' : task ∈ before.tasks := serves.1 ▸ among
  have settled : Settled [] heard (run earlier fresh).reports outcome.state outcome.reports :=
    beats_settled beats (start_settled booked listed resting (List.ne_nil_of_mem among'))
  obtain ⟨sameTasks, sameOutlet⟩ : outcome.state.tasks = tasks ∧ outcome.state.outlet = outlet :=
    (serves_stepwise tasks outlet).run _ before [] serves
  have started : outcome.state.started = true := beats_started beats (start_started before)
  have off := settled_off settled started (sameTasks ▸ among) failed
  rw [sameTasks, sameOutlet] at off
  refine ⟨off, Trigger.evaluate_null, ?_⟩
  intro zero zeroes
  obtain ⟨s, member, same⟩ := settled.attuned.booked.station_of_started started (sameTasks ▸ among)
  have manned : task.name ∈ outcome.state.stations.map Station.name :=
    same ▸ List.mem_map_of_mem member
  have twins := (run_mends booked listed resting among' zeroes beats).twins
  exact ⟨twins.sameCourse started manned, Trigger.states_mend zeroes failed⟩

end

theorem evening_fails_as_off :
    let fresh := idle [evening, night] sluggish
    let earlier : List Step := [.start, .publish [("switches.deck", .value (.whole 1))], .stop]
    let beats : List Beat := [.publish [("switches.mast", .value (.whole 1))], .advance 1.5,
      .publish [("switches.mast", .value (.whole 0)), ("switches.deck", .failure "lost"),
        ("switches.deck", .value (.whole 0)), ("switches.deck", .value (.whole 1))],
      .advance 0.5, .publish [("switches.deck", .value (.whole 1))], .advance 2]
    let before := (run earlier fresh).state
    let signals := (before.bus.last? evening.trigger.path).toList ++
      Bus.published evening.trigger.path (beats.flatMap Beat.signals)
    let outcome := run (.start :: beats.map Beat.step) before
    create [evening, night] sluggish = .ok fresh ∧ before.started = false ∧
      evening.trigger.fails signals = true ∧ told "evening" outcome.reports = [.start, .stop] ∧
      (events "evening" outcome.reports).length = 2 ∧
      evening.trigger.evaluate (.whole 0) = .ok false ∧
      FailsAsOff [evening, night] sluggish evening signals (run earlier fresh).reports beats before := by
  intro fresh earlier beats before signals outcome
  have created : create [evening, night] sluggish = .ok fresh := rfl
  have resting : before.started = false := by decide +kernel
  have failed : evening.trigger.fails signals = true := by decide +kernel
  have told : told "evening" outcome.reports = [.start, .stop] := by decide +kernel
  have switched : (events "evening" outcome.reports).length = 2 := by decide +kernel
  have zero : evening.trigger.evaluate (.whole 0) = .ok false := by decide +kernel
  exact ⟨created, resting, failed, told, switched, zero,
    failing_feed_goes_off created earlier resting beats (List.mem_cons_self ..) failed⟩

end Cadence.Controller
