import Cadence.Proofs.Bus.Queues
import Cadence.Proofs.Controller.Steady
import Cadence.Proofs.Station.Ledger

/-!
The books of a controller. A started controller has one station for each of its tasks, and the books
of all stations are in order; tasks without a station have nothing under way.
-/

namespace Cadence.Controller
open Outcome Effect

structure Booked (c : Controller) (history : List Effect) : Prop where
  distinct : (c.tasks.map Task.name).Nodup
  manned : c.stations.map Station.task = if c.started then c.tasks else []
  accounts : ∀ s ∈ c.stations, s.Accounts c.outlet history
  balanced : ∀ task ∈ c.tasks, task.name ∉ c.stations.map Station.name →
    Balanced c.outlet task history
  known : ∀ name, name ∉ c.tasks.map Task.name → calls name history = []

variable {c d : Controller} {s t : Station} {name : String} {history effects : List Effect}

theorem names_eq_tasks (c : Controller) :
    c.stations.map Station.name = (c.stations.map Station.task).map Task.name := by
  rw [List.map_map]
  rfl

theorem Booked.task_mem (booked : c.Booked history) (member : s ∈ c.stations) :
    s.task ∈ c.tasks := by
  have among : s.task ∈ c.stations.map Station.task := List.mem_map_of_mem member
  rw [booked.manned] at among
  split at among
  · exact among
  · cases among

theorem Booked.station_of_started (booked : c.Booked history) (started : c.started = true)
    {task : Task} (among : task ∈ c.tasks) : ∃ s ∈ c.stations, s.task = task := by
  have manned : task ∈ c.stations.map Station.task := by
    rw [booked.manned, started]
    exact among
  exact List.mem_map.mp manned

theorem Booked.names (booked : c.Booked history) : (c.stations.map Station.name).Nodup := by
  rw [names_eq_tasks, booked.manned]
  split
  · exact booked.distinct
  · exact List.nodup_nil

theorem station?_of_mem (names : (c.stations.map Station.name).Nodup) (member : s ∈ c.stations) :
    c.station? s.name = some s := by
  cases found : c.station? s.name with
  | none => exact absurd (List.mem_map_of_mem member) (station?_none found)
  | some t =>
      obtain ⟨among, same⟩ := station?_some found
      rw [List.inj_on_of_nodup_map names among member same]

theorem setStation_tasks (names : (c.stations.map Station.name).Nodup) (member : s ∈ c.stations)
    (task : t.task = s.task) :
    (c.setStation t).stations.map Station.task = c.stations.map Station.task := by
  simp only [setStation, List.map_map]
  apply List.map_congr_left
  intro old among
  by_cases same : old.name = t.name
  · have equal : old = s :=
      List.inj_on_of_nodup_map names among member (same.trans (congrArg Task.name task))
    simp [equal, task, show s.name = t.name from (congrArg Task.name task).symm]
  · simp [same]

theorem Booked.unmanned (booked : c.Booked history) (resting : c.started = false) :
    c.stations = [] := by
  have manned := booked.manned
  rw [resting] at manned
  simpa using manned

theorem Booked.foreign_task (booked : c.Booked history) {task : Task} (among : task ∈ c.tasks)
    (missing : task.name ∉ c.stations.map Station.name)
    (foreign : ∀ effect ∈ effects, effect.task? ≠ some task.name) :
    Balanced c.outlet task (history ++ effects) :=
  (booked.balanced task among missing).append (events_foreign foreign) (calls_foreign foreign)

theorem Booked.quiet (booked : c.Booked history) (tasks : d.tasks = c.tasks)
    (outlet : d.outlet = c.outlet) (started : d.started = c.started)
    (stations : d.stations = c.stations) (silent : ∀ effect ∈ effects, effect.task? = none) :
    d.Booked (history ++ effects) := by
  have foreign (task : String) : ∀ effect ∈ effects, effect.task? ≠ some task := by
    intro effect member
    simp [silent effect member]
  refine ⟨tasks ▸ booked.distinct, by rw [stations, started, tasks]; exact booked.manned, ?_, ?_, ?_⟩
  · intro s member
    rw [stations] at member
    rw [outlet]
    exact (booked.accounts s member).append (events_foreign (foreign _)) (calls_foreign (foreign _))
  · intro task among missing
    rw [tasks] at among
    rw [stations] at missing
    rw [outlet]
    exact booked.foreign_task among missing (foreign _)
  · intro name unknown
    rw [tasks] at unknown
    rw [calls_append, booked.known name unknown, calls_foreign (foreign _), List.append_nil]

theorem Booked.same (booked : c.Booked history) (tasks : d.tasks = c.tasks)
    (outlet : d.outlet = c.outlet) (started : d.started = c.started)
    (stations : d.stations = c.stations) : d.Booked history := by
  have nothing : ∀ effect ∈ ([] : List Effect), effect.task? = none := by simp
  simpa using booked.quiet tasks outlet started stations nothing

theorem Booked.update (booked : c.Booked history) (tasks : d.tasks = c.tasks)
    (outlet : d.outlet = c.outlet) (started : d.started = c.started) (member : s ∈ c.stations)
    (stations : d.stations = (c.setStation t).stations)
    (reaches : s.Reaches c.outlet t effects) : d.Booked (history ++ effects) := by
  have foreign (task : String) (different : task ≠ s.name) :
      ∀ effect ∈ effects, effect.task? ≠ some task := by
    intro effect part about
    exact different (reaches.own effect part task about)
  refine ⟨tasks ▸ booked.distinct, ?_, ?_, ?_, ?_⟩
  · rw [stations, started, tasks, setStation_tasks booked.names member reaches.task]
    exact booked.manned
  · intro other among
    rw [stations] at among
    rw [outlet]
    rcases mem_setStation among with rfl | ⟨old, different⟩
    · exact reaches.accounts history (booked.accounts s member)
    · have apart := foreign other.name (reaches.name ▸ different)
      exact (booked.accounts other old).append (events_foreign apart) (calls_foreign apart)
  · intro task among missing
    rw [tasks] at among
    rw [stations, setStation_names] at missing
    rw [outlet]
    refine booked.foreign_task among missing (foreign task.name ?_)
    rintro same
    exact missing (same ▸ List.mem_map_of_mem member)
  · intro name unknown
    rw [tasks] at unknown
    have different : name ≠ s.name := by
      rintro rfl
      exact unknown (List.mem_map_of_mem (booked.task_mem member))
    rw [calls_append, booked.known name unknown, calls_foreign (foreign name different),
      List.append_nil]

theorem visit_booked {step : Controller → Station → Outcome Station Effect}
    (reaches : ∀ (c : Controller) (s : Station),
      s.Reaches c.outlet (step c s).state (step c s).reports) (name : String) :
    Keeps Booked fun c => c.visit (step c) name := by
  apply visit_keeps
  intro c history s found booked
  exact booked.update rfl rfl rfl (station?_some found).1 rfl (reaches c s)

theorem booked_steady [Host] : Steady Booked where
  clock c history now alarm booked := by
    exact booked.same rfl rfl rfl rfl
  fire := visit_booked fun _ _ => Station.fire_reaches
  arrive := visit_booked fun _ _ => Station.arrive_reaches
  dispatch := visit_booked fun _ _ => Station.dispatch_reaches

theorem note_booked (task : Task) (finding : Finding) : Keeps Booked (note task finding) := by
  intro c history booked
  cases finding with
  | changed on =>
      cases on with
      | false => exact booked.quiet rfl rfl rfl rfl (by simp [note, reportStatus, Effect.task?])
      | true =>
          have kept (d : Controller) (active : d = c ∨ d = { c with active := c.active ++ [task.name] }) :
              (d.reportStatus).state.Booked (history ++ (d.reportStatus).reports) := by
            rcases active with rfl | rfl
            all_goals exact booked.quiet rfl rfl rfl rfl (by simp [reportStatus, Effect.task?])
          apply kept
          unfold activate
          split
          · exact .inl rfl
          · exact .inr rfl
  | finished => exact booked.quiet rfl rfl rfl rfl (by simp [note])
  | failed text =>
      exact booked.quiet rfl rfl rfl rfl (by simp [note, reportStatus, Effect.task?])

theorem readFeed_booked [Host] (name : String) : Keeps Booked (readFeed name) := by
  intro c history booked
  cases found : c.station? name with
  | none => simpa [readFeed, found] using booked
  | some s =>
      simp only [readFeed, found]
      apply Keeps.each fun finding _ => note_booked s.task finding
      have read : s.Reaches c.outlet (s.read (c.bus.queued name)).state [] :=
        .silent rfl rfl rfl rfl (by simp) rfl rfl
      simpa using booked.update (d := { c.setStation (s.read (c.bus.queued name)).state with
        bus := c.bus.take name (c.bus.queued name).length }) rfl rfl rfl
        (station?_some found).1 rfl read

theorem obey_booked (name : String) : Keeps Booked (obey name) :=
  visit_booked (fun _ _ => Station.obey_reaches) name

theorem settle_booked [Host] (names : List String) : Keeps Booked (settle names) :=
  settle_keeps (fun name _ => readFeed_booked name) (fun name _ => obey_booked name)
    (fun name _ => booked_steady.dispatch name)

theorem Booked.man (booked : c.Booked history) (resting : c.started = false)
    (effects : List Effect) (silent : ∀ effect ∈ effects, effect.task? = none) :
    ({ c with started := true, stations := c.tasks.map Station.fresh } : Controller).Booked
      (history ++ effects) := by
  have foreign (task : String) : ∀ effect ∈ effects, effect.task? ≠ some task := by
    intro effect member
    simp [silent effect member]
  have balanced (task : Task) (among : task ∈ c.tasks) :
      Balanced c.outlet task (history ++ effects) :=
    booked.foreign_task among (by simp [booked.unmanned resting]) (foreign task.name)
  refine ⟨booked.distinct, ?_, ?_, ?_, ?_⟩
  · simp [Function.comp_def, Station.fresh]
  · intro s member
    obtain ⟨task, among, rfl⟩ := List.mem_map.mp member
    exact Station.fresh_accounts (balanced task among)
  · intro task among _
    exact balanced task among
  · intro name unknown
    rw [calls_append, booked.known name unknown, calls_foreign (foreign name), List.append_nil]

theorem subscribe_booked (task : Task) (booked : c.Booked history) :
    (c.subscribe task).Booked history := by
  exact booked.same rfl rfl rfl rfl

theorem bare_booked (booked : c.Booked history) (resting : c.started = false)
    (empty : c.tasks = []) :
    ({ c with started := true } : Controller).Booked (history ++ [.status noTasks]) := by
  have manned := booked.man resting [.status noTasks] (by simp [Effect.task?])
  simpa [empty, booked.unmanned resting] using manned

theorem start_booked [Host] : Keeps Booked start := by
  intro c history booked
  refine start_keeps (fun _ => booked) (fun resting empty => bare_booked booked resting empty) ?_ ?_
  · intro resting _
    exact booked.man resting _ (by simp [Effect.task?])
  · intro _ task _ d history' booked'
    exact settle_booked [task.name] _ history' (subscribe_booked task booked')

theorem publishAll_eq (signals : List (String × Signal)) (c : Controller) :
    publishAll signals c = ({ c with bus := c.bus.carry signals }, Bus.woken signals c.bus) := by
  induction signals generalizing c with
  | nil => rfl
  | cons signal rest ih =>
      simp only [publishAll, ih]
      rfl

theorem publish_eq [Host] (signals : List (String × Signal)) (c : Controller) :
    c.publish signals =
      ({ c with bus := c.bus.carry signals } : Controller).settle (Bus.woken signals c.bus) := by
  rw [publish, publishAll_eq]

theorem publish_booked [Host] (signals : List (String × Signal)) : Keeps Booked
    (publish signals) := by
  intro c history booked
  rw [publish_eq]
  apply settle_booked
  exact booked.same rfl rfl rfl rfl

def turn [Host] (name : String) (s : Station) (on : Bool) (c : Controller) :
    Outcome Controller Effect :=
  ((c.setStation (s.enqueue (Command.ofState on))).note s.task (.changed on)).andThen (settle [name])

theorem enqueue_booked (on : Bool) (member : s ∈ c.stations) (booked : c.Booked history) :
    (c.setStation (s.enqueue (Command.ofState on))).Booked history := by
  have queued : s.Reaches c.outlet (s.enqueue (Command.ofState on)) [] :=
    .silent rfl rfl rfl rfl (by simp) rfl rfl
  have updated := booked.update (d := c.setStation (s.enqueue (Command.ofState on)))
    rfl rfl rfl member rfl queued
  rwa [List.append_nil] at updated

theorem turn_booked [Host] {on : Bool} (member : s ∈ c.stations) (booked : c.Booked history) :
    (turn name s on c).state.Booked (history ++ (turn name s on c).reports) :=
  ((note_booked s.task (.changed on)).andThen (settle_booked [name])) _ _
    (enqueue_booked on member booked)

theorem trigger_cases [Host] {value : Value} {outcome : Outcome Controller Effect}
    (taken : c.trigger name value = .ok outcome) :
    ∃ s, c.station? name = some s ∧ ((∃ on, outcome = turn name s on c) ∨
      outcome.state = c ∧ ∀ effect ∈ outcome.reports, effect.task? = none) := by
  unfold trigger at taken
  dsimp only at taken
  split at taken
  · cases taken
  · next s found =>
      refine ⟨s, found, ?_⟩
      split at taken
      · exact .inl ⟨true, (Except.ok.inj taken).symm⟩
      · split at taken
        · exact .inl ⟨false, (Except.ok.inj taken).symm⟩
        · simp only [bind, Except.bind] at taken
          split at taken
          · cases taken
          · split at taken
            · cases taken
            · obtain rfl := Except.ok.inj taken
              exact .inr ⟨rfl, by simp [Effect.task?]⟩

end Cadence.Controller
