import Cadence.Proofs.Sequencer.Pairs

/-!
The timetable of a run. The cycles of all activities are numbered through, and each has two entries:
one switches the activity on, its delay after the cycle before, and one switches it off, its duration
later. A run puts out the entries in order, its timer is due when the next one is, and the run is over
after the last one.
-/

namespace Cadence.Sequencer

structure Cycle where
  index : Nat
  number : Nat
  activity : Activity

def cycleFrom? (index : Nat) : List Activity → Nat → Option Cycle
  | [], _ => none
  | activity :: rest, n =>
      if activity.cycles = 0 ∨ (n : Int) < activity.cycles then some ⟨index, n, activity⟩
      else cycleFrom? (index + 1) rest (n - activity.cycles.toNat)

namespace Cycle

def waits (cycle : Cycle) : Bool := 0 < cycle.activity.delay

def onAt (cycle : Cycle) (ready : Instant) : Instant :=
  if cycle.waits then ready.after cycle.activity.delay else ready

def offAt (cycle : Cycle) (ready : Instant) : Instant :=
  (cycle.onAt ready).after cycle.activity.duration

def turn (cycle : Cycle) : Turn := (cycle.index, cycle.activity)

end Cycle

structure Entry where
  event : Event
  time : Instant
  waits : Bool

def Entry.happening (entry : Entry) : Event × Instant := (entry.event, entry.time)

structure Timetable where
  activities : List Activity
  start : Instant

namespace Timetable

def cycle? (table : Timetable) (n : Nat) : Option Cycle := cycleFrom? 0 table.activities n

def readyAt (table : Timetable) : Nat → Instant
  | 0 => table.start
  | n + 1 => (table.cycle? n).elim (table.readyAt n) fun cycle => cycle.offAt (table.readyAt n)

/-- The n-th entry: each cycle has one that goes on and one that goes off. -/
def nth? (table : Timetable) (n : Nat) : Option Entry :=
  (table.cycle? (n / 2)).map fun cycle =>
    if n % 2 = 0 then ⟨cycle.turn.on, cycle.onAt (table.readyAt (n / 2)), cycle.waits⟩
    else ⟨cycle.turn.off, cycle.offAt (table.readyAt (n / 2)), true⟩

def first (table : Timetable) (n : Nat) : List Entry := (List.range n).filterMap table.nth?

end Timetable

/-- Moves of one run: there is no stop among them, and the run is not over before any of them. -/
def Underway : Sequencer → List Move → Prop
  | _, [] => True
  | s, move :: rest =>
      s.isIdle = false ∧ move.isStop = false ∧ Underway (move.take s).state rest

instance decideUnderway : (s : Sequencer) → (moves : List Move) → Decidable (Underway s moves)
  | _, [] => .isTrue trivial
  | s, move :: rest =>
      have := decideUnderway (move.take s).state rest
      inferInstanceAs (Decidable (_ ∧ _ ∧ _))

def closing? (now : Instant) (last : Event × Instant) : Option (Event × Instant) :=
  if last.1.switching = .on then some (⟨.off, last.1.index, last.1.activity⟩, now) else none

/-! ## Cycles -/

theorem cycleFrom?_found {activities : List Activity} {index n : Nat} {cycle : Cycle}
    (row : cycleFrom? index activities n = some cycle) :
    index ≤ cycle.index ∧ activities[cycle.index - index]? = some cycle.activity := by
  induction activities generalizing index n with
  | nil => simp [cycleFrom?] at row
  | cons activity rest ih =>
      simp only [cycleFrom?] at row
      split at row
      · obtain rfl := Option.some.inj row
        simp
      · obtain ⟨le, found⟩ := ih row
        have later : cycle.index - index = (cycle.index - (index + 1)) + 1 := by omega
        refine ⟨by omega, ?_⟩
        rw [later, List.getElem?_cons_succ]
        exact found

theorem cycleFrom?_zero {activities : List Activity} (counted : ∀ a ∈ activities, 0 ≤ a.cycles)
    (index : Nat) : cycleFrom? index activities 0 = activities.head?.map (⟨index, 0, ·⟩) := by
  cases activities with
  | nil => rfl
  | cons activity rest =>
      have count := counted activity (by simp)
      have runs : activity.cycles = 0 ∨ ((0 : Nat) : Int) < activity.cycles := by omega
      rw [cycleFrom?, if_pos runs]
      rfl

theorem cycleFrom?_succ {activities : List Activity} (counted : ∀ a ∈ activities, 0 ≤ a.cycles)
    {index n : Nat} {cycle : Cycle} (row : cycleFrom? index activities n = some cycle) :
    cycleFrom? index activities (n + 1) =
      if cycle.activity.cycles = 0 ∨ ((cycle.number + 1 : Nat) : Int) < cycle.activity.cycles then
        some { cycle with number := cycle.number + 1 }
      else (activities[cycle.index + 1 - index]?).map (⟨cycle.index + 1, 0, ·⟩) := by
  induction activities generalizing index n with
  | nil => simp [cycleFrom?] at row
  | cons activity rest ih =>
      have counted' : ∀ a ∈ rest, 0 ≤ a.cycles := fun a among => counted a (by simp [among])
      simp only [cycleFrom?] at row
      split at row
      · next within =>
          obtain rfl := Option.some.inj row
          by_cases more : activity.cycles = 0 ∨ ((n + 1 : Nat) : Int) < activity.cycles
          · rw [cycleFrom?, if_pos more, if_pos more]
          · have last : n + 1 - activity.cycles.toNat = 0 := by omega
            rw [cycleFrom?, if_neg more, if_neg more, last, cycleFrom?_zero counted',
              List.head?_eq_getElem?]
            simp
      · next beyond =>
          have beyond' : ¬(activity.cycles = 0 ∨ ((n + 1 : Nat) : Int) < activity.cycles) := by omega
          have count := counted activity (by simp)
          have shifted : n + 1 - activity.cycles.toNat = n - activity.cycles.toNat + 1 := by omega
          have le := (cycleFrom?_found row).1
          have later : cycle.index + 1 - index = (cycle.index + 1 - (index + 1)) + 1 := by omega
          rw [cycleFrom?, if_neg beyond', shifted, ih counted' row, later, List.getElem?_cons_succ]

theorem counted_of_create {task : String} {activities : List Activity} {s : Sequencer}
    (created : create task activities = .ok s) :
    s = idle task activities ∧ activities ≠ [] ∧ ∀ a ∈ activities, 0 ≤ a.cycles := by
  unfold create at created
  split at created
  · cases created
  · next present =>
      split at created
      · cases created
      · next sound =>
          refine ⟨(Except.ok.inj created).symm, by simpa using present, ?_⟩
          intro activity member
          have fine := List.findSome?_eq_none_iff.mp sound activity member
          unfold breach? at fine
          split at fine
          · cases fine
          · split at fine
            · cases fine
            · split at fine
              · cases fine
              · omega

/-! ## Entries -/

namespace Timetable
variable {table : Timetable} {n : Nat} {cycle : Cycle}

theorem first_succ (table : Timetable) (n : Nat) :
    table.first (n + 1) = table.first n ++ (table.nth? n).toList := by
  cases row : table.nth? n <;> simp [first, List.range_succ, row]

theorem nth?_on (row : table.cycle? n = some cycle) :
    table.nth? (2 * n) = some ⟨cycle.turn.on, cycle.onAt (table.readyAt n), cycle.waits⟩ := by
  have half : 2 * n / 2 = n := by omega
  simp [nth?, half, row]

theorem nth?_off (row : table.cycle? n = some cycle) :
    table.nth? (2 * n + 1) = some ⟨cycle.turn.off, cycle.offAt (table.readyAt n), true⟩ := by
  have half : (2 * n + 1) / 2 = n := by omega
  simp [nth?, half, row]

theorem nth?_none (row : table.cycle? n = none) : table.nth? (2 * n) = none := by
  have half : 2 * n / 2 = n := by omega
  simp [nth?, half, row]

theorem readyAt_succ (row : table.cycle? n = some cycle) :
    table.readyAt (n + 1) = cycle.offAt (table.readyAt n) := by
  simp [readyAt, row]

structure Puts (table : Timetable) (n m timers : Nat) (notices : List Notice) : Prop where
  events : (table.first m).map Entry.happening =
    (table.first n).map Entry.happening ++ happenings notices
  waits : (table.first m).countP (·.waits) = (table.first n).countP (·.waits) + timers

theorem Puts.none (quiet : happenings notices = []) : Puts table n n 0 notices :=
  ⟨by simp [quiet], rfl⟩

theorem Puts.one {entry : Entry} (notices : List Notice) (row : table.nth? n = some entry)
    (events : happenings notices = [entry.happening]) :
    Puts table n (n + 1) (if entry.waits then 1 else 0) notices := by
  constructor
  · simp [first_succ, row, events]
  · simp [first_succ, row, List.countP_cons]

theorem Puts.append {m k timers more : Nat} {notices later : List Notice}
    (first : Puts table n m timers notices) (second : Puts table m k more later) :
    Puts table n k (timers + more) (notices ++ later) := by
  constructor
  · rw [second.events, first.events, happenings_append, List.append_assoc]
  · rw [second.waits, first.waits, Nat.add_assoc]

end Timetable

/-! ## Runs -/

inductive Stage (table : Timetable) (s : Sequencer) : Nat → Prop
  | delaying {k : Nat} {cycle : Cycle} (row : table.cycle? k = some cycle) (waits : cycle.waits)
      (position : s.position = ⟨.delaying, cycle.index, cycle.number⟩)
      (timer : s.timer = some ⟨.delay, cycle.onAt (table.readyAt k)⟩) : Stage table s (2 * k)
  | active {k : Nat} {cycle : Cycle} (row : table.cycle? k = some cycle)
      (position : s.position = ⟨.active, cycle.index, cycle.number⟩)
      (timer : s.timer = some ⟨.duration, cycle.offAt (table.readyAt k)⟩) : Stage table s (2 * k + 1)
  | ended {k : Nat} (row : table.cycle? k = none) (position : s.position = .rest)
      (free : s.timer = none) : Stage table s (2 * k)

def begun (s : Sequencer) : Nat := s.completed + if s.isIdle then 0 else 1

section stages
variable {table : Timetable} {s : Sequencer} {n k : Nat} {cycle : Cycle}

theorem Cycle.found (row : table.cycle? k = some cycle) :
    table.activities[cycle.index]? = some cycle.activity := (cycleFrom?_found row).2

theorem enter_stage (activities : s.activities = table.activities) (free : s.timer = none)
    (row : table.cycle? k = some cycle) :
    let outcome := enter (table.readyAt k) cycle.index cycle.number s
    (∃ m, Stage table outcome.state m ∧ table.Puts (2 * k) m 0 outcome.reports) ∧
      outcome.state.activities = table.activities ∧ outcome.state.isIdle = false ∧
      outcome.state.completed = s.completed := by
  have found : s.activities[cycle.index]? = some cycle.activity := activities ▸ Cycle.found row
  by_cases waits : 0 < cycle.activity.delay
  · have onAt : cycle.onAt (table.readyAt k) = (table.readyAt k).after cycle.activity.delay := by
      simp [Cycle.onAt, Cycle.waits, waits]
    rw [enter_waiting found free waits]
    exact ⟨⟨_, .delaying row (by simpa [Cycle.waits] using waits) rfl (by rw [onAt]; rfl), .none rfl⟩,
      activities, rfl, rfl⟩
  · have onAt : cycle.onAt (table.readyAt k) = table.readyAt k := by
      simp [Cycle.onAt, Cycle.waits, waits]
    have put := Timetable.Puts.one
      [.emitted ⟨.on, cycle.index, cycle.activity⟩ (table.readyAt k),
        .armed ⟨.duration, (table.readyAt k).after cycle.activity.duration⟩]
      (Timetable.nth?_on row) (by simp [Entry.happening, onAt, Cycle.turn, Turn.on])
    rw [enter_at_once found free waits]
    refine ⟨⟨_, .active row rfl (by rw [Cycle.offAt, onAt]; rfl), ?_⟩, activities, rfl, rfl⟩
    simpa [Cycle.waits, waits] using put

theorem proceed_stage (counted : ∀ a ∈ table.activities, 0 ≤ a.cycles)
    (activities : s.activities = table.activities) (free : s.timer = none)
    (row : table.cycle? k = some cycle)
    (position : s.position = ⟨.active, cycle.index, cycle.number⟩) :
    let outcome := proceed (table.readyAt (k + 1)) cycle.activity s
    (∃ m, Stage table outcome.state m ∧ table.Puts (2 * (k + 1)) m 0 outcome.reports) ∧
      outcome.state.activities = table.activities ∧ outcome.state.begun = s.completed + 1 := by
  have next := cycleFrom?_succ counted row
  unfold proceed
  simp only [position]
  split
  · next more =>
      have more' : cycle.activity.cycles = 0 ∨
          ((cycle.number + 1 : Nat) : Int) < cycle.activity.cycles := by simpa using more
      rw [if_pos more'] at next
      obtain ⟨stage, activities', busy, completed⟩ := enter_stage activities free next
      exact ⟨stage, activities', by simp [begun, busy, completed]⟩
  · next done =>
      have done' : ¬(cycle.activity.cycles = 0 ∨
          ((cycle.number + 1 : Nat) : Int) < cycle.activity.cycles) := by simpa using done
      rw [if_neg done'] at next
      split
      · next more =>
          rw [activities] at more
          simp only [Nat.sub_zero, List.getElem?_eq_getElem more, Option.map_some] at next
          obtain ⟨stage, activities', busy, completed⟩ := enter_stage activities free next
          exact ⟨stage, activities', by simp [begun, busy, completed]⟩
      · next last =>
          have missing := List.getElem?_eq_none (Nat.le_of_not_lt last)
          rw [activities] at missing
          simp only [Nat.sub_zero, missing, Option.map_none] at next
          exact ⟨⟨_, .ended next rfl free, .none rfl⟩, activities, rfl⟩

theorem Stage.busy_row (stage : Stage table s n) (busy : s.isIdle = false) :
    (∃ k cycle, n = 2 * k ∧ table.cycle? k = some cycle ∧ cycle.waits ∧
      s.position = ⟨.delaying, cycle.index, cycle.number⟩ ∧
      s.timer = some ⟨.delay, cycle.onAt (table.readyAt k)⟩) ∨
    (∃ k cycle, n = 2 * k + 1 ∧ table.cycle? k = some cycle ∧
      s.position = ⟨.active, cycle.index, cycle.number⟩ ∧
      s.timer = some ⟨.duration, cycle.offAt (table.readyAt k)⟩) := by
  cases stage with
  | delaying row waits position timer => exact .inl ⟨_, _, rfl, row, waits, position, timer⟩
  | active row position timer => exact .inr ⟨_, _, rfl, row, position, timer⟩
  | ended row position free => simp [isIdle, position, Position.rest] at busy

theorem fire_stage (counted : ∀ a ∈ table.activities, 0 ≤ a.cycles)
    (activities : s.activities = table.activities) (stage : Stage table s n)
    (busy : s.isIdle = false) :
    (∃ m, Stage table s.fire.state m ∧ table.Puts n m 1 s.fire.reports) ∧
      s.fire.state.activities = table.activities ∧ s.fire.state.begun = s.begun := by
  have begins : s.begun = s.completed + 1 := by simp [begun, busy]
  rcases stage.busy_row busy with ⟨k, cycle, rfl, row, waits, position, timer⟩ |
    ⟨k, cycle, rfl, row, position, timer⟩
  -- The timer has come for an activity to go on.
  · have found : ({ s with timer := none } : Sequencer).activities[cycle.index]? =
        some cycle.activity := activities ▸ Cycle.found row
    have fired : s.fire = activate (cycle.onAt (table.readyAt k)) cycle.index cycle.number
        { s with timer := none } := by
      simp [fire, timer, delayElapsed, position]
    have put := Timetable.Puts.one
      [.emitted ⟨.on, cycle.index, cycle.activity⟩ (cycle.onAt (table.readyAt k)),
        .armed ⟨.duration, cycle.offAt (table.readyAt k)⟩]
      (Timetable.nth?_on row) (by simp [Entry.happening, Cycle.turn, Turn.on])
    rw [fired, activate_free found rfl, begins]
    refine ⟨⟨_, .active row rfl rfl, ?_⟩, activities, rfl⟩
    simpa [waits, Cycle.offAt] using put
  -- The timer has come for an activity to go off.
  · have found : s.activities[cycle.index]? = some cycle.activity := activities ▸ Cycle.found row
    have fired : s.fire =
        (Outcome.mk { s with timer := none }
          [.emitted ⟨.off, cycle.index, cycle.activity⟩ (table.readyAt (k + 1))]).andThen
            (proceed (table.readyAt (k + 1)) cycle.activity) := by
      simp [fire, timer, durationElapsed, position, found, Timetable.readyAt_succ row]
    have put := Timetable.Puts.one
      [.emitted ⟨.off, cycle.index, cycle.activity⟩ (table.readyAt (k + 1))]
      (Timetable.nth?_off row)
      (by simp [Entry.happening, Timetable.readyAt_succ row, Cycle.turn, Turn.off])
    obtain ⟨⟨m, stage', puts⟩, activities', begun'⟩ :=
      proceed_stage (s := { s with timer := none }) counted activities rfl row position
    rw [fired, begins]
    exact ⟨⟨m, stage', put.append puts⟩, activities', begun'⟩

theorem take_stage (counted : ∀ a ∈ table.activities, 0 ≤ a.cycles)
    (activities : s.activities = table.activities) (stage : Stage table s n)
    (busy : s.isIdle = false) {move : Move} (unstopped : move.isStop = false) :
    (∃ m, Stage table (move.take s).state m ∧
      table.Puts n m (if move.isFire then 1 else 0) (move.take s).reports) ∧
      (move.take s).state.activities = table.activities ∧ (move.take s).state.begun = s.begun := by
  match move with
  | .fire => exact fire_stage counted activities stage busy
  | .handle .start now =>
      have ignored : Move.take (.handle .start now) s =
          ⟨s, [s.debug "sequencer_start_ignored" [("phase", .text s.position.phase.name)]]⟩ := by
        simp [Move.take, handle, start, busy]
      rw [ignored]
      exact ⟨⟨n, stage, .none rfl⟩, activities, rfl⟩
  | .handle .stop now => cases unstopped

theorem play_stage (counted : ∀ a ∈ table.activities, 0 ≤ a.cycles) (moves : List Move)
    (activities : s.activities = table.activities) (stage : Stage table s n)
    (underway : Underway s moves) :
    (∃ m, Stage table (play moves s).state m ∧
      table.Puts n m (moves.countP (·.isFire)) (play moves s).reports) ∧
      (play moves s).state.begun = s.begun := by
  induction moves generalizing s n with
  | nil => exact ⟨⟨n, stage, .none rfl⟩, rfl⟩
  | cons move rest ih =>
      obtain ⟨busy, unstopped, later⟩ := underway
      obtain ⟨⟨m, stage', puts⟩, activities', begun'⟩ :=
        take_stage counted activities stage busy unstopped
      obtain ⟨⟨last, stage'', puts'⟩, begun''⟩ := ih activities' stage' later
      rw [play_cons]
      refine ⟨⟨last, stage'', ?_⟩, begun''.trans begun'⟩
      rw [List.countP_cons, Nat.add_comm]
      exact puts.append puts'

theorem Stage.next (stage : Stage table s n) :
    match table.nth? n with
    | some entry =>
        entry.waits ∧ s.timer.map (·.due) = some entry.time ∧ s.isIdle = false
    | none => s.timer = none ∧ s.isIdle = true := by
  cases stage with
  | delaying row waits position timer =>
      rw [Timetable.nth?_on row]
      exact ⟨waits, by rw [timer]; rfl, by simp [isIdle, position]⟩
  | active row position timer =>
      rw [Timetable.nth?_off row]
      exact ⟨rfl, by rw [timer]; rfl, by simp [isIdle, position]⟩
  | ended row position free =>
      rw [Timetable.nth?_none row]
      exact ⟨free, by simp [isIdle, position, Position.rest]⟩

theorem start_stage (counted : ∀ a ∈ table.activities, 0 ≤ a.cycles)
    (present : table.activities ≠ []) (activities : s.activities = table.activities)
    (position : s.position = .rest) (free : s.timer = none) :
    (∃ m, Stage table (s.start table.start).state m ∧
      table.Puts 0 m 0 (s.start table.start).reports) ∧
      (s.start table.start).state.activities = table.activities ∧
      (s.start table.start).state.isIdle = false ∧
      (s.start table.start).state.completed = s.completed := by
  obtain ⟨activity, rest, list⟩ := List.exists_cons_of_ne_nil present
  have row : table.cycle? 0 = some ⟨0, 0, activity⟩ := by
    rw [Timetable.cycle?, cycleFrom?_zero counted, list]
    rfl
  have begins : s.start table.start =
      (Outcome.mk s [s.debug "sequencer_started" []]).andThen (enter (table.readyAt 0) 0 0) := by
    simp [start, isIdle, position, Position.rest, Timetable.readyAt]
  obtain ⟨⟨m, stage, puts⟩, activities', busy, completed⟩ := enter_stage activities free row
  rw [begins]
  exact ⟨⟨m, stage, (Timetable.Puts.none rfl).append puts⟩, activities', busy, completed⟩

end stages

theorem stop_closing {s : Sequencer} (poised : s.Poised) {events : List (Event × Instant)}
    {turns : List Turn} (split : events.map (·.1) = paired turns ++ s.unpaired) (now : Instant) :
    happenings (s.stop now).reports = (events.getLast?.bind (closing? now)).toList := by
  rw [(stop_rest now poised).2]
  have last := congrArg List.getLast? split
  rw [List.getLast?_map] at last
  -- The last event is an on just if a turn is under way.
  cases held : s.turn? with
  | some turn =>
      simp only [unpaired, held, Option.toList_some, List.map_cons, List.map_nil,
        List.getLast?_append, List.getLast?_singleton, Option.some_or] at last
      obtain ⟨final, equal, event⟩ := Option.map_eq_some_iff.mp last
      simp [equal, closing?, event, Turn.on, Turn.off]
  | none =>
      simp only [unpaired, held, Option.toList_none, List.map_nil, List.append_nil] at last
      rcases List.eq_nil_or_concat turns with rfl | ⟨before, turn, rfl⟩
      · have empty : events.getLast? = none := by simpa using last
        simp [empty]
      · simp only [List.concat_eq_append, paired_append, paired_singleton, List.getLast?_append,
          List.getLast?_cons_cons, List.getLast?_singleton, Option.some_or] at last
        obtain ⟨final, equal, event⟩ := Option.map_eq_some_iff.mp last
        simp [equal, closing?, event, Turn.off]

/-- A run has put out the first entries of its timetable, as many as its timer has come for; the
timer waits for the next entry, and behind the last one the run is over and counted. A stop only adds
the end of an activity that is on. -/
structure Timetable.Kept (table : Timetable) (before : Sequencer) (fires : Nat)
    (run : Outcome Sequencer Notice) : Prop where
  progress : ∃ n, happenings run.reports = (table.first n).map Entry.happening ∧
    (table.first n).countP (·.waits) = fires ∧
    match table.nth? n with
    | some entry => entry.waits ∧ run.state.timer.map (·.due) = some entry.time ∧
        run.state.isIdle = false ∧ run.state.completed = before.completed
    | none => run.state.timer = none ∧ run.state.isIdle = true ∧
        run.state.completed = before.completed + 1
  stop : ∀ time, happenings (run.state.stop time).reports =
      ((happenings run.reports).getLast?.bind (closing? time)).toList ∧
    (run.state.stop time).state.timer = none ∧ (run.state.stop time).state.isIdle = true ∧
    (run.state.stop time).state.completed = run.state.completed

theorem run_eq_timetable {task : String} {activities : List Activity} {fresh : Sequencer}
    (created : create task activities = .ok fresh) (past : List Move) (now : Instant)
    (moves : List Move) (resting : (play past fresh).state.isIdle = true)
    (underway : Underway ((play past fresh).state.start now).state moves) :
    let before := (play past fresh).state
    Timetable.Kept ⟨activities, now⟩ before (moves.countP (·.isFire))
      (play (.handle .start now :: moves) before) := by
  intro before
  let run := play (.handle .start now :: moves) before
  let table : Timetable := ⟨activities, now⟩
  obtain ⟨rfl, present, counted⟩ := counted_of_create created
  have led := play_leads past (poised_idle task activities)
  obtain ⟨position, free⟩ := led.poised.rest resting
  have sameActivities : before.activities = table.activities := led.activities
  obtain ⟨⟨n, stage, puts⟩, activities', busy, completed⟩ :=
    start_stage counted present sameActivities position free
  obtain ⟨⟨m, stage', puts'⟩, begun'⟩ := play_stage counted moves activities' stage underway
  -- The start puts out the entries up to the n-th, and the moves those from there to the m-th.
  have whole : table.Puts 0 m (moves.countP (·.isFire)) run.reports := by
    have joined := puts.append puts'
    rwa [Nat.zero_add] at joined
  have counts : run.state.begun = before.completed + 1 :=
    begun'.trans (by simp [begun, busy, completed, before])
  constructor
  · refine ⟨m, by simpa [Timetable.first] using whole.events.symm,
      by simpa [Timetable.first] using whole.waits, ?_⟩
    change match table.nth? m with
      | some entry => _
      | none => _
    have next := stage'.next
    cases ahead : table.nth? m with
    | some entry =>
        rw [ahead] at next
        obtain ⟨waits, due, busy'⟩ := next
        have same : run.state.completed = before.completed := by
          simpa [begun, show run.state.isIdle = false from busy'] using counts
        exact ⟨waits, due, busy', same⟩
    | none =>
        rw [ahead] at next
        obtain ⟨free', idle⟩ := next
        have more : run.state.completed = before.completed + 1 := by
          simpa [begun, show run.state.isIdle = true from idle] using counts
        exact ⟨free', idle, more⟩
  · intro time
    have walked := play_leads (.handle .start now :: moves) led.poised
    obtain ⟨turns, -, split⟩ := walked.turns
    rw [unpaired_idle resting, List.nil_append] at split
    refine ⟨stop_closing walked.poised split time, ?_⟩
    rw [(stop_rest time walked.poised).1]
    exact ⟨rfl, rfl, rfl⟩

theorem lamp_and_fan_kept :
    let fresh := idle "evening" [lamp, fan]
    let past : List Move := [.handle .start .start, .fire, .handle .stop ⟨1.25⟩]
    let moves : List Move := [.fire, .fire, .handle .start ⟨9⟩, .fire, .fire, .fire]
    create "evening" [lamp, fan] = .ok fresh ∧ (play past fresh).state.isIdle = true ∧
      Underway ((play past fresh).state.start ⟨5⟩).state moves ∧
      Timetable.Kept ⟨[lamp, fan], ⟨5⟩⟩ (play past fresh).state 5
        (play (.handle .start ⟨5⟩ :: moves) (play past fresh).state) := by
  intro fresh past moves
  have created : create "evening" [lamp, fan] = .ok fresh := rfl
  have resting : (play past fresh).state.isIdle = true := by decide +kernel
  have underway : Underway ((play past fresh).state.start ⟨5⟩).state moves := by decide +kernel
  exact ⟨created, resting, underway, run_eq_timetable created past ⟨5⟩ moves resting underway⟩

end Cadence.Sequencer
