import Cadence.Proofs.Controller.View
import Cadence.Proofs.Station.Doings

namespace Cadence
open Outcome Effect Sequencer

def Task.sequencer (task : Task) : Sequencer := .idle task.name task.activities

namespace Controller
variable {c d : Controller} {s t : Station} {task : Task} {name : String}
  {past history effects : List Effect} {pending : List String} {heard : String → List Signal}

variable [Host]

theorem drawn_queued_self {bus : Bus String Signal} (nodup : bus.readers.Nodup) :
    (drawn s bus).queued s.name = [] := by
  by_cases read : s.name ∈ (drawn s bus).readers
  · obtain ⟨subscription, member, same⟩ := List.mem_map.mp read
    obtain ⟨old, among, reader, queue⟩ := mem_drawn member
    have own : old.reader = s.name := reader.trans same
    rw [← same, Bus.queued_of_mem (drawn_readers_nodup nodup) member, queue, if_pos own, ← own,
      Bus.queued_of_mem nodup among, List.drop_length]
  · exact Bus.queued_of_notMem read

/-- A sequencer has made the moves that are on record, and what it has been told, is about to be told
and will be told for the signals in the queue is what the signals on the path order. -/
structure Heeds (pending : List String) (heard : String → List Signal) (c : Controller)
    (history : List Effect) (s : Station) : Prop where
  moves : ∃ moves, s.sequencer = (play moves s.task.sequencer).state ∧
    doings s.name history = trace moves s.task.sequencer
  waits : s.name ∈ pending → told s.name history = [] ∧ s.commands = []
  orders : s.name ∉ pending →
    told s.name history ++ s.commands ++ s.task.trigger.orders s.isOn (c.bus.queued s.name) =
      s.task.trigger.orders false (heard s.task.trigger.path)

theorem Heeds.plays (heeds : Heeds pending heard c history s) (plays : s.Plays t effects)
    (bus : d.bus = c.bus) : Heeds pending heard d (history ++ effects) t := by
  have name : t.name = s.name := congrArg Task.name plays.task
  obtain ⟨moves, sequencer, traced⟩ := heeds.moves
  obtain ⟨later, sequencer', traced'⟩ := plays.moves
  refine ⟨⟨moves ++ later, ?_, ?_⟩, ?_, ?_⟩
  · rw [plays.task, play_append, ← sequencer]
    exact sequencer'
  · rw [plays.task, name, trace_append, doings_append, traced, traced', ← sequencer]
  · intro waits
    obtain ⟨untold, none⟩ := heeds.waits (name ▸ waits)
    have taken := plays.taken
    rw [none, List.append_eq_nil_iff] at taken
    rw [name, told_append, untold, taken.1]
    exact ⟨rfl, taken.2⟩
  · intro begun
    rw [name] at begun ⊢
    rw [told_append, List.append_assoc (told s.name history), plays.taken, plays.isOn, plays.task,
      bus]
    exact heeds.orders begun

theorem Heeds.apart (heeds : Heeds pending heard c history s) (silent : doings s.name effects = [])
    (queued : d.bus.queued s.name = c.bus.queued s.name) :
    Heeds pending heard d (history ++ effects) s := by
  have untold := told_of_doings silent
  refine ⟨?_, ?_, ?_⟩
  · rw [doings_append, silent, List.append_nil]
    exact heeds.moves
  · rw [told_append, untold, List.append_nil]
    exact heeds.waits
  · rw [told_append, untold, List.append_nil, queued]
    exact heeds.orders

theorem Heeds.read (heeds : Heeds pending heard c history s) (silent : doings s.name effects = [])
    (emptied : d.bus.queued s.name = []) (unread : s.name ∈ pending → c.bus.queued s.name = []) :
    Heeds pending heard d (history ++ effects) (s.read (c.bus.queued s.name)).state := by
  have name : (s.read (c.bus.queued s.name)).state.name = s.name := rfl
  have untold := told_of_doings silent
  have commands : (s.read (c.bus.queued s.name)).state.commands =
      s.commands ++ s.task.trigger.orders s.isOn (c.bus.queued s.name) := rfl
  refine ⟨?_, ?_, ?_⟩
  · rw [name, doings_append, silent, List.append_nil]
    exact heeds.moves
  · intro waits
    obtain ⟨before, none⟩ := heeds.waits waits
    rw [name, told_append, before, untold, commands, none, unread waits]
    exact ⟨rfl, rfl⟩
  · intro begun
    have orders := heeds.orders begun
    rw [List.append_assoc] at orders
    rw [name, told_append, untold, List.append_nil, commands, emptied, orders]
    exact List.append_nil _

structure Heeding (pending : List String) (heard : String → List Signal) (past : List Effect)
    (c : Controller) (history : List Effect) : Prop where
  attuned : Attuned pending heard past c history
  heeds : ∀ s ∈ c.stations, Heeds pending heard c history s

theorem visit_heeding {step : Controller → Station → Outcome Station Effect}
    (reaches : ∀ (c : Controller) (s : Station),
      s.Reaches c.outlet (step c s).state (step c s).reports)
    (tame : ∀ (c : Controller) (s : Station), s.sequencer.Poised →
      s.Tame (step c s).state (step c s).reports)
    (plays : ∀ (c : Controller) (s : Station), s.Plays (step c s).state (step c s).reports)
    (name : String) : Keeps (Heeding pending heard past) fun c => c.visit (step c) name := by
  apply visit_keeps
  intro c history old found heeding
  have attuned := visit_attuned reaches tame name c history heeding.attuned
  dsimp only at attuned
  rw [visit_found _ found] at attuned
  refine ⟨attuned, ?_⟩
  intro s member
  have among := (station?_some found).1
  rcases mem_setStation member with rfl | ⟨other, different⟩
  · exact (heeding.heeds old among).plays (plays c old) rfl
  · refine (heeding.heeds s other).apart (doings_foreign ?_) rfl
    intro effect part about
    have own := (reaches c old).own effect part s.name about
    exact different (own.trans (reaches c old).name.symm)

omit [Host] in
theorem note_doings (task : Task) (findings : List Finding) (c : Controller) :
    doings name (Outcome.each (note task) findings c).reports = [] := by
  induction findings generalizing c with
  | nil => rfl
  | cons finding rest ih =>
      have one : doings name (c.note task finding).reports = [] := by
        cases finding with
        | changed on => cases on <;> rfl
        | failed text => rfl
        | finished => rfl
      rw [each_cons, andThen_reports, doings_append, one, ih]
      rfl

theorem readFeed_doings (name other : String) (c : Controller) :
    doings name (c.readFeed other).reports = [] := by
  cases found : c.station? other with
  | none => simp [readFeed, found, doings]
  | some s =>
      simp only [readFeed, found]
      exact note_doings s.task _ _

theorem readFeed_heeding (name : String) : Keeps (Heeding pending heard past) (readFeed name) := by
  intro c history heeding
  have attuned := readFeed_attuned name c history heeding.attuned
  refine ⟨attuned, ?_⟩
  cases found : c.station? name with
  | none => simpa [readFeed, found] using heeding.heeds
  | some old =>
      have among := (station?_some found).1
      have nodup := heeding.attuned.readers
      intro s member
      have silent := readFeed_doings s.name name c
      rw [readFeed_eq found] at member
      rcases mem_setStation member with rfl | ⟨other, different⟩
      · have heeds := heeding.heeds old among
        have emptied : (c.readFeed name).state.bus.queued old.name = [] := by
          rw [readFeed_eq found]
          exact drawn_queued_self nodup
        refine heeds.read silent emptied fun waits => ?_
        exact Bus.queued_of_notMem (heeding.attuned.unread among waits)
      · refine (heeding.heeds s other).apart silent ?_
        rw [readFeed_eq found]
        exact Bus.queued_congr (drawn_of_other (Ne.symm different) c.bus)

theorem settle_heeding (names : List String) :
    Keeps (Heeding pending heard past) (settle names) :=
  settle_keeps (fun name _ => readFeed_heeding name)
    (fun name _ => visit_heeding (fun _ _ => Station.obey_reaches)
      (fun c _ => Station.obey_tame c.now) (fun c => Station.obey_plays c.now) name)
    (fun name _ => visit_heeding (fun _ _ => Station.dispatch_reaches)
      (fun c s _ => Station.dispatch_tame c.outlet c.now s)
      (fun c => Station.dispatch_plays c.outlet c.now) name)

theorem heeding_steady : Steady (Heeding pending heard past) where
  clock _ _ now alarm heeding :=
    ⟨heeding.attuned.clock now alarm, fun s member =>
      ⟨(heeding.heeds s member).moves, (heeding.heeds s member).waits,
        (heeding.heeds s member).orders⟩⟩
  fire := visit_heeding (fun _ _ => Station.fire_reaches) (fun _ _ => Station.fire_tame)
    fun _ => Station.fire_plays
  arrive := visit_heeding (fun _ _ => Station.arrive_reaches)
    (fun c s _ => Station.arrive_tame c.outlet s) fun c => Station.arrive_plays c.outlet
  dispatch := visit_heeding (fun _ _ => Station.dispatch_reaches)
    (fun c s _ => Station.dispatch_tame c.outlet c.now s)
    fun c => Station.dispatch_plays c.outlet c.now

theorem subscribe_heeding {rest : List String} (among : task ∈ c.tasks) (later : task.name ∉ rest)
    (named : task.name ∈ c.stations.map Station.name)
    (replayed : heard task.trigger.path = (c.bus.last? task.trigger.path).toList)
    (heeding : Heeding (task.name :: rest) heard past c history) :
    Heeding rest heard past (c.subscribe task) history := by
  refine ⟨subscribe_attuned heeding.attuned among later named replayed, ?_⟩
  intro s member
  obtain ⟨moves, waits, orders⟩ := heeding.heeds s member
  by_cases own : s.name = task.name
  · have listed : s.name ∈ task.name :: rest := by simp [own]
    obtain ⟨untold, none⟩ := waits listed
    have same : s.task = task :=
      List.inj_on_of_nodup_map heeding.attuned.booked.distinct
        (heeding.attuned.booked.task_mem member) among own
    have queued : (c.subscribe task).bus.queued s.name = (c.bus.last? task.trigger.path).toList := by
      have unread := heeding.attuned.unread member listed
      rw [own] at unread ⊢
      exact Bus.queued_subscribe unread
    refine ⟨moves, fun waits => absurd (own ▸ waits) later, fun _ => ?_⟩
    rw [untold, none, queued, same, replayed]
    cases heeding.attuned.follows s member with
    | fresh _ _ off _ => rw [off]; rfl
    | listens begun _ _ _ _ _ _ _ => exact absurd listed begun
    | closed begun _ _ _ => exact absurd listed begun
  · have queued : (c.subscribe task).bus.queued s.name = c.bus.queued s.name :=
      Bus.queued_congr (Bus.of_subscribe_other (Ne.symm own) _ c.bus)
    refine ⟨moves, fun among => waits (List.mem_cons_of_mem _ among), fun begun => ?_⟩
    rw [queued]
    exact orders (by simp [own, begun])

theorem carry_heeding (signals : List (String × Signal))
    (heeding : Heeding [] heard past c history) :
    Heeding [] (fun path => heard path ++ Bus.published path signals) past
      { c with bus := c.bus.carry signals } history := by
  refine ⟨carry_attuned signals heeding.attuned, ?_⟩
  intro s member
  obtain ⟨moves, -, orders⟩ := heeding.heeds s member
  refine ⟨moves, nofun, fun _ => ?_⟩
  have before := orders (by simp)
  cases heeding.attuned.follows s member with
  | fresh waits _ _ _ => cases waits
  | @listens subscription seen _ among reader path split stillOpen state _ =>
      have queued := Bus.queued_of_mem heeding.attuned.readers among
      have filled := Bus.queued_carry signals heeding.attuned.readers among
      rw [reader] at queued filled
      -- The feed is closed by what waits in the queue if it is closed by all that was heard.
      have closes : s.task.trigger.closed (heard s.task.trigger.path) =
          s.task.trigger.closed subscription.queue := by
        rw [split, Trigger.closed_append, stillOpen, Bool.false_or]
      have held : s.task.trigger.hold false (heard s.task.trigger.path) =
          s.task.trigger.hold s.isOn subscription.queue := by
        rw [split, Trigger.hold_append stillOpen, state]
      rw [queued] at before filled
      rw [filled, path, Trigger.orders_append, Trigger.orders_append, ← List.append_assoc, before,
        closes, held]
  | closed _ unread isClosed _ =>
      have unread' : s.name ∉ (c.bus.carry signals).readers := by rwa [Bus.carry_readers]
      rw [Bus.queued_of_notMem unread] at before
      rw [Bus.queued_of_notMem unread', before, Trigger.orders_append, isClosed, if_pos rfl,
        List.append_nil]

theorem publish_heeding (signals : List (String × Signal))
    (heeding : Heeding [] heard past c history) :
    Heeding [] (fun path => heard path ++ Bus.published path signals) past
      (c.publish signals).state (history ++ (c.publish signals).reports) := by
  rw [publish_eq]
  exact settle_heeding _ _ _ (carry_heeding signals heeding)

theorem start_heeding (booked : c.Booked past) (listed : c.Listed past) (resting : c.started = false)
    (nonempty : c.tasks ≠ []) :
    Heeding [] (fun path => (c.bus.last? path).toList) past c.start.state c.start.reports := by
  let replay := fun path => (c.bus.last? path).toList
  have manned := man_settled booked listed resting nonempty replay
  rw [start_fresh resting nonempty]
  refine subscribes_keep (fun rest => Heeding rest replay past) booked.distinct ?_ ⟨[], rfl⟩ rfl ?_
    rfl ⟨manned.attuned, ?_⟩
  · intro task rest d history among later named sameLast heeding
    have replayed : replay task.trigger.path = (d.bus.last? task.trigger.path).toList := by
      rw [Bus.last?, sameLast]
      rfl
    exact settle_heeding _ _ _ (subscribe_heeding among later named replayed heeding)
  · simp [Station.fresh, Station.name, Function.comp_def]
  · intro s member
    obtain ⟨task, among, rfl⟩ := List.mem_map.mp member
    have listed : (Station.fresh task).name ∈ c.tasks.map Task.name := List.mem_map_of_mem among
    exact ⟨⟨[], rfl, rfl⟩, fun _ => ⟨rfl, rfl⟩, fun begun => absurd listed begun⟩

theorem beats_heeding (beats : List Beat) (heeding : Heeding [] heard past c history) :
    Heeding [] (fun path => heard path ++ Bus.published path (beats.flatMap Beat.signals)) past
      (run (beats.map Beat.step) c).state (history ++ (run (beats.map Beat.step) c).reports) :=
  beats_keep (fun heard => Heeding [] heard past) (fun _ signals _ _ => publish_heeding signals)
    (fun _ => heeding_steady.timely.advance) beats heeding

end Controller
end Cadence
