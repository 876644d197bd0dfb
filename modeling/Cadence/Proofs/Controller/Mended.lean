import Cadence.Proofs.Controller.Apart
import Cadence.Proofs.Controller.Twins

/-!
A run in which the feed of one task does not fail. It is the run of the controller but for what that
task reads: up to the value that fails it reads what comes in, that value puts its trigger off, and
nothing more comes in for it. All that is done in the two runs is the same.
-/

namespace Cadence.Controller
open Outcome Effect

def tell (name : String) (own : List Signal) (c : Controller) : Controller :=
  { c with bus := c.bus.tell name own }

variable [Host]

def publishFor (task : Task) (own : List Signal) (signals : List (String × Signal))
    (c : Controller) : Outcome Controller Effect :=
  (({ c with bus := c.bus.carry signals } : Controller).tell task.name own).settle
    ((Bus.woken signals c.bus).filter fun name => name ≠ task.name || !own.isEmpty)

def engageFor (task : Task) (own : List Signal) (other : Task) (c : Controller) :
    Outcome Controller Effect :=
  if other.name = task.name then ((c.subscribe other).tell other.name own).settle [other.name]
  else engage other c

def startFor (task : Task) (own : List Signal) (c : Controller) : Outcome Controller Effect :=
  (Outcome.mk c.manned [.diagnostic (schedulingText c.tasks), .status standingBy]).andThen
    (Outcome.each (engageFor task own) c.tasks)

def beatsFor (task : Task) (zero : Value) : List Signal → List Beat → Controller →
    Outcome Controller Effect
  | _, [], c => .still c
  | heard, .advance seconds :: rest, c => (c.advance seconds).andThen (beatsFor task zero heard rest)
  | heard, .publish signals :: rest, c =>
      let share := Bus.published task.trigger.path signals
      (c.publishFor task (task.trigger.mendBehind zero heard share) signals).andThen
        (beatsFor task zero (heard ++ share) rest)

/-- A start and what happens after it, where in place of the value at which the feed of a task fails
there is one that puts its trigger off. -/
def mendedRun (task : Task) (zero : Value) (beats : List Beat) (c : Controller) :
    Outcome Controller Effect :=
  let replay := (c.bus.last? task.trigger.path).toList
  (c.startFor task (task.trigger.mend zero replay)).andThen (beatsFor task zero replay beats)

variable {c d : Controller} {s : Station} {task : Task} {zero : Value}
  {past history : List Effect} {heard : String → List Signal} {signals : List (String × Signal)}

omit [Host] in
theorem tell_hush (name : String) (own : List Signal) (c : Controller) :
    (c.tell name own).hush name = c.hush name := by
  simp only [hush, tell, Bus.close_tell]

/-! ## Settled stations -/

section settled
variable (settled : Settled [] heard past c history) (member : s ∈ c.stations)
include settled member

theorem settled_closed (isClosed : s.task.trigger.closed (heard s.task.trigger.path) = true) :
    s.name ∉ c.bus.readers := by
  cases settled.attuned.follows s member with
  | fresh waits _ _ _ => cases waits
  | closed _ unread _ _ => exact unread
  | listens _ among _ _ split stillOpen _ _ =>
      rw [split, settled.unread _ among, List.append_nil, stillOpen] at isClosed
      cases isClosed

theorem settled_open (stillOpen : s.task.trigger.closed (heard s.task.trigger.path) = false) :
    ∃ subscription ∈ c.bus.subscriptions, subscription.reader = s.name ∧
      subscription.path = s.task.trigger.path ∧ (s.name ∈ c.active ↔ s.isOn = true) := by
  cases settled.attuned.follows s member with
  | fresh waits _ _ _ => cases waits
  | closed _ _ isClosed _ => simp [stillOpen] at isClosed
  | listens _ among reader path _ _ _ mirrors => exact ⟨_, among, reader, path, mirrors⟩

theorem settled_rests (inactive : s.name ∉ c.active) : s.sequencer.isIdle = true := by
  by_contra busy
  exact inactive (settled.attuned.runs s member
    (.inr ⟨settled.idle s member (by simp), by simpa using busy⟩))

/-! ## Signals that come in -/

theorem settled_waits (zero : Value)
    (whole : s.task.trigger.fails (heard s.task.trigger.path ++
      Bus.published s.task.trigger.path signals) = false) :
    ∀ subscription ∈ c.bus.subscriptions, subscription.reader = s.name →
      Bus.published subscription.path signals =
        s.task.trigger.mend zero (Bus.published s.task.trigger.path signals) := by
  intro subscription among reader
  rw [Trigger.fails_append, Bool.or_eq_false_iff] at whole
  -- A task whose feed is closed has no subscription that anything could wait in.
  cases closes : s.task.trigger.closed (heard s.task.trigger.path) with
  | true =>
      have unread := settled_closed settled member closes
      exact absurd (reader ▸ List.mem_map_of_mem among) unread
  | false =>
      obtain ⟨other, among', reader', path, -⟩ := settled_open settled member closes
      obtain rfl := Bus.eq_of_reader settled.attuned.readers among' among
        (reader'.trans reader.symm)
      have holds : s.task.trigger.fails (Bus.published s.task.trigger.path signals) = false := by
        simpa [closes] using whole.2
      rw [path, Trigger.mend_eq_self holds]

theorem publishFor_whole (zero : Value)
    (whole : s.task.trigger.fails (heard s.task.trigger.path ++
      Bus.published s.task.trigger.path signals) = false) :
    c.publishFor s.task (s.task.trigger.mendBehind zero (heard s.task.trigger.path)
      (Bus.published s.task.trigger.path signals)) signals = c.publish signals := by
  have waits := settled_waits settled member zero whole
  rw [Trigger.fails_append, Bool.or_eq_false_iff] at whole
  rw [Trigger.mendBehind, if_neg (by simp [whole.1])]
  generalize s.task.trigger.mend zero (Bus.published s.task.trigger.path signals) = own at waits ⊢
  have told : (c.bus.carry signals).tell s.name own = c.bus.carry signals := by
    apply Bus.tell_same
    intro filled carried reader
    rw [Bus.carry_subscriptions] at carried
    obtain ⟨subscription, among, rfl⟩ := List.mem_map.mp carried
    rw [settled.unread subscription among, List.nil_append]
    exact waits subscription among reader
  have woken : (Bus.woken signals c.bus).filter (fun name => name ≠ s.name || !own.isEmpty) =
      Bus.woken signals c.bus := by
    apply List.filter_eq_self.mpr
    intro name awake
    obtain ⟨subscription, among, rfl, -, fills⟩ := Bus.mem_woken.mp awake
    by_cases reader : subscription.reader = s.name
    · rw [waits subscription among reader] at fills
      simpa [reader] using fills
    · simp [reader]
  rw [publish_eq, publishFor]
  simp only [tell]
  rw [show s.task.name = s.name from rfl, told, woken]

theorem publish_failed (failed : s.task.trigger.fails (heard s.task.trigger.path) = true)
    (same : c.hush s.name = d.hush s.name) :
    Alike s.name (c.publish signals) (d.publishFor s.task [] signals) := by
  have unread := settled_closed settled member (Trigger.closed_of_fails false failed).1
  have others : ∀ name ∈ Bus.woken signals c.bus, name ≠ s.name := by
    rintro name awake rfl
    exact unread (Bus.readers_of_woken awake)
  obtain ⟨-, -, -, bus⟩ := hush_shared same
  -- The others are woken by the same signals, and the task is not woken in either run.
  have woken : (Bus.woken signals d.bus).filter
      (fun name => name ≠ s.task.name || !([] : List Signal).isEmpty) = Bus.woken signals c.bus := by
    simp only [List.isEmpty_nil, Bool.not_true, Bool.or_false]
    rw [show s.task.name = s.name from rfl, Bus.woken_close, ← bus, ← Bus.woken_close]
    exact List.filter_eq_self.mpr fun name among => by simpa using others name among
  have carried : ({ c with bus := c.bus.carry signals } : Controller).hush s.name =
      ({ d with bus := d.bus.carry signals } : Controller).hush s.name := by
    change { c.hush s.name with bus := (c.bus.carry signals).close s.name } =
      { d.hush s.name with bus := (d.bus.carry signals).close s.name }
    rw [same, Bus.close_carry, Bus.close_carry, bus]
  rw [publish_eq, publishFor, woken]
  exact (settle_blind others).alike (carried.trans (tell_hush s.name [] _).symm)

theorem publish_failing (off : s.task.trigger.evaluate zero = .ok false)
    (before : s.task.trigger.fails (heard s.task.trigger.path) = false)
    (failed : s.task.trigger.fails (heard s.task.trigger.path ++
      Bus.published s.task.trigger.path signals) = true) :
    Twins s.name (c.publish signals) (c.publishFor s.task (s.task.trigger.mend zero
      (Bus.published s.task.trigger.path signals)) signals) := by
  rw [Trigger.fails_append, before, Bool.false_or, Bool.and_eq_true, Bool.not_eq_true'] at failed
  obtain ⟨stillOpen, failed⟩ := failed
  obtain ⟨subscription, among, reader, path, mirrors⟩ := settled_open settled member stillOpen
  have empty := settled.unread subscription among
  have found := station?_of_mem settled.attuned.booked.names member
  have fills : Bus.published subscription.path signals ≠ [] := by
    intro nothing
    rw [← path, nothing] at failed
    cases failed
  have woken : s.name ∈ Bus.woken signals c.bus :=
    Bus.mem_woken.mpr ⟨subscription, among, reader, empty, fills⟩
  have queued : (c.bus.carry signals).queued s.name = Bus.published s.task.trigger.path signals := by
    rw [← reader, Bus.queued_carry signals settled.attuned.readers among,
      Bus.queued_of_mem settled.attuned.readers among, empty, path, List.nil_append]
  have read : s.name ∈ (c.bus.carry signals).readers := by
    rw [Bus.carry_readers, ← reader]
    exact List.mem_map_of_mem among
  -- The value in place of the failure wakes the station as well.
  have all : (Bus.woken signals c.bus).filter (fun name => name ≠ s.task.name ||
      !(s.task.trigger.mend zero (Bus.published s.task.trigger.path signals)).isEmpty) =
        Bus.woken signals c.bus := by
    simp [Trigger.mend_ne_nil zero failed]
  rw [publish_eq, publishFor, all]
  refine settle_twins off failed (Bus.woken_nodup settled.attuned.readers) woken
    (settled.idle s member (by simp)) (settled.attuned.booked.accounts s member).poised ?_
    ⟨(tell_hush s.name _ _).symm, view_reads.mpr ⟨found, queued, mirrors⟩,
      view_reads.mpr ⟨found, Bus.queued_tell read, mirrors⟩⟩
  intro isOff
  exact settled_rests settled member (by simp [mirrors, isOff])

end settled

/-! ## Runs -/

structure Mends (task : Task) (signals : List Signal) (o p : Outcome Controller Effect) : Prop where
  whole : task.trigger.fails signals = false → o = p
  twins : Twins task.name o p

theorem Mends.andThen {before more : List Signal} {o p : Outcome Controller Effect}
    {next next' : Controller → Outcome Controller Effect} (first : Mends task before o p)
    (second : Mends task (before ++ more) (next o.state) (next' p.state)) :
    Mends task (before ++ more) (o.andThen next) (p.andThen next') := by
  refine ⟨fun whole => ?_, first.twins.andThen second.twins⟩
  have holds := whole
  rw [Trigger.fails_append, Bool.or_eq_false_iff] at holds
  have later := second.whole whole
  rw [first.whole holds.1] at later ⊢
  simp only [Outcome.andThen, later]

section beats
variable (settled : Settled [] heard past c history) (started : c.started = true)
  (among : task ∈ c.tasks) (off : task.trigger.evaluate zero = .ok false)
  (equal : task.trigger.fails (heard task.trigger.path) = false → c = d)
  (same : c.hush task.name = d.hush task.name)
include settled started among off equal same

theorem publish_mends (signals : List (String × Signal)) :
    Mends task (heard task.trigger.path ++ Bus.published task.trigger.path signals)
      (c.publish signals) (d.publishFor task (task.trigger.mendBehind zero
        (heard task.trigger.path) (Bus.published task.trigger.path signals)) signals) := by
  obtain ⟨s, member, rfl⟩ := settled.attuned.booked.station_of_started started among
  cases before : s.task.trigger.fails (heard s.task.trigger.path) with
  | true =>
      rw [Trigger.mendBehind, if_pos before]
      refine ⟨?_, (publish_failed settled member before same).twins⟩
      simp [Trigger.fails_append, before]
  | false =>
      obtain rfl := equal before
      cases failed : s.task.trigger.fails (heard s.task.trigger.path ++
          Bus.published s.task.trigger.path signals) with
      | true =>
          rw [Trigger.mendBehind, if_neg (by simp [before])]
          exact ⟨by simp [failed], publish_failing settled member off before failed⟩
      | false =>
          rw [publishFor_whole settled member zero failed]
          exact ⟨fun _ => rfl, .refl _ _⟩

theorem beats_mends (beats : List Beat) :
    Mends task (heard task.trigger.path ++
        Bus.published task.trigger.path (beats.flatMap Beat.signals))
      (run (beats.map Beat.step) c) (beatsFor task zero (heard task.trigger.path) beats d) := by
  -- Up to the failure the two controllers are equal, and from then on they are equal when hushed.
  induction beats generalizing c d history heard with
  | nil =>
      refine ⟨fun whole => ?_, same, rfl⟩
      rw [equal (by simpa using whole)]
      rfl
  | cons beat rest ih =>
      have shape := beat_shape beat c
      have started' : (perform beat.step c).state.started = true :=
        (congrArg Shape.started shape).trans started
      have tasks : (perform beat.step c).state.tasks = c.tasks := congrArg Shape.tasks shape
      have among' : task ∈ (perform beat.step c).state.tasks := tasks ▸ among
      rw [List.map_cons, run_cons, List.flatMap_cons]
      cases beat with
      | advance seconds =>
          have alike := (advance_blind task.name seconds).alike same
          have first : Mends task (heard task.trigger.path) (c.advance seconds) (d.advance seconds) :=
            ⟨fun whole => by rw [equal whole], alike.twins⟩
          exact first.andThen (ih (advance_settled seconds c history settled) started' among'
            (fun whole => by rw [← first.whole whole]) alike.state)
      | publish signals =>
          have first := publish_mends settled started among off equal same signals
          have later := ih (publish_settled signals settled) started' among'
            (fun whole => by rw [← first.whole whole]) first.twins.state
          rw [Bus.published_append, ← List.append_assoc]
          exact first.andThen later

end beats

/-! ## Starts -/

theorem start_split (booked : c.Booked past) (resting : c.started = false) (among : task ∈ c.tasks) :
    ∃ (first : Outcome Controller Effect) (rest : List Task),
      first.state.view task.name = { c.view task.name with station := some (.fresh task) } ∧
      (∀ other ∈ rest, other.name ≠ task.name) ∧
      (c.start = first.andThen fun d => (engage task d).andThen (Outcome.each engage rest)) ∧
      ∀ own, c.startFor task own =
        first.andThen fun d => (engageFor task own task d).andThen (Outcome.each engage rest) := by
  have distinct := booked.distinct
  have viewed := manned_view distinct among
  have nonempty := List.ne_nil_of_mem among
  -- The others cannot tell the two starts apart, so both go the same way up to the task.
  obtain ⟨before, after, tasks⟩ := List.append_of_mem among
  rw [tasks, List.map_append, List.map_cons, List.nodup_middle] at distinct
  have apart := (List.nodup_cons.mp distinct).1
  rw [List.mem_append, not_or] at apart
  have early : ∀ other ∈ before, other.name ≠ task.name :=
    fun other member same => apart.1 (same ▸ List.mem_map_of_mem member)
  have late : ∀ other ∈ after, other.name ≠ task.name :=
    fun other member same => apart.2 (same ▸ List.mem_map_of_mem member)
  have usual (own : List Signal) {others : List Task}
      (different : ∀ other ∈ others, other.name ≠ task.name) :
      Outcome.each (engageFor task own) others = Outcome.each engage others := by
    apply each_congr
    intro other member
    funext d
    exact if_neg (different other member)
  let manned : Outcome Controller Effect :=
    ⟨c.manned, [.diagnostic (schedulingText c.tasks), .status standingBy]⟩
  refine ⟨manned.andThen (Outcome.each engage before), after, ?_, late, ?_, ?_⟩
  · have unseen : Ignores task.name (Outcome.each engage before) :=
      Ignores.each fun other member => engage_other (early other member)
    exact (unseen c.manned).1.trans viewed
  · have start : c.start = manned.andThen (Outcome.each engage c.tasks) := start_fresh resting nonempty
    rw [start, tasks, each_split]
  · intro own
    have start : c.startFor task own = manned.andThen (Outcome.each (engageFor task own) c.tasks) := rfl
    rw [start, tasks, each_split, usual own early, usual own late]

section start
variable (found : d.station? task.name = some (.fresh task)) (idle : task.name ∉ d.active)
  (silent : task.name ∉ d.bus.readers) (off : task.trigger.evaluate zero = .ok false)
include found idle silent off

theorem engage_mends :
    let replay := (d.bus.last? task.trigger.path).toList
    Mends task replay (engage task d) (engageFor task (task.trigger.mend zero replay) task d) := by
  intro replay
  have mended : engageFor task (task.trigger.mend zero replay) task d =
      ((d.subscribe task).tell task.name (task.trigger.mend zero replay)).settle [task.name] :=
    if_pos rfl
  rw [mended, engage]
  cases failed : task.trigger.fails replay with
  | false =>
      have told : (d.subscribe task).tell task.name replay = d.subscribe task :=
        congrArg (fun bus => { d with bus := bus }) (Bus.tell_subscribe silent)
      rw [Trigger.mend_eq_self failed, told]
      exact ⟨fun _ => rfl, .refl _ _⟩
  | true =>
      refine ⟨by simp [failed], ?_⟩
      have mirrors : task.name ∈ d.active ↔ (Station.fresh task).isOn = true := by
        simp [idle, Station.fresh]
      have queued : (d.subscribe task).bus.queued task.name = replay := Bus.queued_subscribe silent
      have read : task.name ∈ (d.subscribe task).bus.readers := by
        simp [subscribe, Bus.subscribe, Bus.readers]
      exact settle_twins (s := .fresh task) off failed (List.nodup_singleton _) (by simp) rfl
        (Sequencer.poised_idle _ _) (fun _ => rfl)
        ⟨(tell_hush task.name _ _).symm, view_reads.mpr ⟨found, queued, mirrors⟩,
          view_reads.mpr ⟨found, Bus.queued_tell read, mirrors⟩⟩

end start

theorem start_mends (booked : c.Booked past) (listed : c.Listed past) (resting : c.started = false)
    (among : task ∈ c.tasks) (off : task.trigger.evaluate zero = .ok false) :
    let replay := (c.bus.last? task.trigger.path).toList
    Mends task replay c.start (c.startFor task (task.trigger.mend zero replay)) := by
  intro replay
  obtain ⟨-, unread, inactive⟩ := Listed.resting_empty listed resting
  obtain ⟨first, rest, viewed, late, start, startFor⟩ := start_split booked resting among
  have found : first.state.station? task.name = some (.fresh task) := congrArg View.station viewed
  have bus : first.state.bus.of task.name = c.bus.of task.name := congrArg View.bus viewed
  have idle : task.name ∉ first.state.active := by
    have active : first.state.active.contains task.name = c.active.contains task.name :=
      congrArg View.isActive viewed
    simpa [inactive] using active
  have silent : task.name ∉ first.state.bus.readers := by
    apply Bus.unread_of
    rw [bus, Bus.of, unread]
    rfl
  have last := congrArg Bus.last bus
  change first.state.bus.last = c.bus.last at last
  have mends := engage_mends found idle silent off
  rw [Bus.last?, last, ← Bus.last?] at mends
  have others : Blind task.name (Outcome.each engage rest) :=
    Blind.each fun other member => engage_blind (late other member)
  rw [start, startFor]
  refine ⟨fun holds => ?_,
    (Twins.refl _ first).andThen (mends.twins.andThen (others.alike mends.twins.state).twins)⟩
  simp only [Outcome.andThen, mends.whole holds]
  rfl

theorem run_mends (booked : c.Booked past) (listed : c.Listed past) (resting : c.started = false)
    (among : task ∈ c.tasks) (off : task.trigger.evaluate zero = .ok false) (beats : List Beat) :
    Mends task ((c.bus.last? task.trigger.path).toList ++
        Bus.published task.trigger.path (beats.flatMap Beat.signals))
      (run (.start :: beats.map Beat.step) c) (mendedRun task zero beats c) := by
  have first := start_mends booked listed resting among off
  have settled := start_settled booked listed resting (List.ne_nil_of_mem among)
  have tasks : c.start.state.tasks = c.tasks :=
    ((serves_stepwise c.tasks c.outlet).start c [] ⟨rfl, rfl⟩).1
  exact first.andThen (beats_mends settled (start_started c) (tasks ▸ among) off
    (fun whole => by rw [← first.whole whole]) first.twins.state beats)

end Cadence.Controller
