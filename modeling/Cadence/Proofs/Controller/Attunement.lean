import Cadence.Proofs.Controller.Runs

/-!
How stations follow the signals on their paths. What a station has read of the signals on its path
tells whether its task is active, a task runs only while it is active, and the last status that was
reported is the status of the controller.
-/

namespace Cadence.Controller
open Outcome Effect

variable {c d : Controller} {s t : Station} {task : Task} {name : String}
  {past history : List Effect} {pending : List String} {heard : String → List Signal}

variable [Host]

/-- How a station follows the signals on its path: it has not begun to read, it reads them one after
the other, or its feed is closed. -/
inductive Follows (pending : List String) (heard : String → List Signal) (c : Controller)
    (s : Station) : Prop
  | fresh (waits : s.name ∈ pending) (unread : s.name ∉ c.bus.readers) (off : s.isOn = false)
      (inactive : s.name ∉ c.active)
  | listens {subscription : Subscription String Signal} {seen : List Signal}
      (begun : s.name ∉ pending) (member : subscription ∈ c.bus.subscriptions)
      (reader : subscription.reader = s.name) (path : subscription.path = s.task.trigger.path)
      (split : heard s.task.trigger.path = seen ++ subscription.queue)
      (stillOpen : s.task.trigger.closed seen = false)
      (state : s.task.trigger.hold false seen = s.isOn)
      (mirrors : s.name ∈ c.active ↔ s.isOn = true)
  | closed (begun : s.name ∉ pending) (unread : s.name ∉ c.bus.readers)
      (isClosed : s.task.trigger.closed (heard s.task.trigger.path) = true)
      (mirrors : s.name ∈ c.active ↔ s.task.trigger.hold false (heard s.task.trigger.path) = true)

theorem Follows.congr (follows : Follows pending heard c s) (task : t.task = s.task)
    (isOn : t.isOn = s.isOn) (bus : d.bus = c.bus) (active : d.active = c.active) :
    Follows pending heard d t := by
  have name : t.name = s.name := congrArg Task.name task
  cases follows with
  | fresh waits unread off inactive =>
      refine .fresh ?_ ?_ (isOn.trans off) ?_
      · rwa [name]
      · rwa [name, bus]
      · rwa [name, active]
  | listens begun member reader path split stillOpen state mirrors =>
      rw [← bus] at member
      rw [← task] at path split stillOpen state
      refine .listens ?_ member ?_ path split stillOpen ?_ ?_
      · rwa [name]
      · rwa [name]
      · rwa [isOn]
      · rwa [name, active, isOn]
  | closed begun unread isClosed mirrors =>
      refine .closed ?_ ?_ ?_ ?_
      · rwa [name]
      · rwa [name, bus]
      · rwa [task]
      · rwa [name, active, task]

structure Attuned (pending : List String) (heard : String → List Signal) (past : List Effect)
    (c : Controller) (history : List Effect) : Prop where
  booked : c.Booked (past ++ history)
  listed : c.Listed history
  readers : c.bus.readers.Nodup
  nodup : c.active.Nodup
  line : (statuses history).getLast? = some c.status
  follows : ∀ s ∈ c.stations, Follows pending heard c s
  runs : ∀ s ∈ c.stations, s.WillRun → s.name ∈ c.active

theorem Attuned.clock (attuned : Attuned pending heard past c history) (now : Instant)
    (alarm : Option Instant) :
    Attuned pending heard past { c with now := now, alarm := alarm } history := by
  obtain ⟨booked, listed, readers, nodup, line, follows, runs⟩ := attuned
  have booked' := booked_steady.clock c _ now alarm booked
  refine ⟨booked', listed, readers, nodup, line, ?_, runs⟩
  intro s member
  exact (follows s member).congr rfl rfl rfl rfl

theorem Attuned.unread (attuned : Attuned pending heard past c history) (member : s ∈ c.stations)
    (waits : s.name ∈ pending) : s.name ∉ c.bus.readers := by
  cases attuned.follows s member with
  | fresh _ unread _ _ => exact unread
  | listens begun _ _ _ _ _ _ _ => exact absurd waits begun
  | closed begun _ _ _ => exact absurd waits begun

theorem visit_attuned {step : Controller → Station → Outcome Station Effect}
    (reaches : ∀ (c : Controller) (s : Station),
      s.Reaches c.outlet (step c s).state (step c s).reports)
    (tame : ∀ (c : Controller) (s : Station), s.sequencer.Poised →
      s.Tame (step c s).state (step c s).reports) (name : String) :
    Keeps (Attuned pending heard past) fun c => c.visit (step c) name := by
  apply visit_keeps
  intro c history old found attuned
  have booked := visit_booked reaches name c _ attuned.booked
  have listed := visit_listed step name c history attuned.listed
  dsimp only at booked listed
  rw [visit_found _ found] at booked listed
  have among := (station?_some found).1
  have tamed := tame c old (attuned.booked.accounts old among).poised
  refine ⟨?_, listed, attuned.readers, attuned.nodup, ?_, ?_, ?_⟩
  · rwa [← List.append_assoc]
  · rw [statuses_append, tamed.statuses, List.append_nil]
    exact attuned.line
  · intro s member
    rcases mem_setStation member with rfl | ⟨other, -⟩
    · exact (attuned.follows old among).congr tamed.task tamed.isOn rfl rfl
    · exact (attuned.follows s other).congr rfl rfl rfl rfl
  · intro s member willRun
    rcases mem_setStation member with rfl | ⟨other, -⟩
    · have active := attuned.runs old among (tamed.runs willRun)
      rwa [(reaches c old).name]
    · exact attuned.runs s other willRun

omit [Host] in
theorem note_line (task : Task) (finding : Finding) :
    Keeps (fun c history => (statuses history).getLast? = some c.status) (note task finding) := by
  intro c history line
  have told (d : Controller) (effects : List Effect) (last : statuses effects = [d.status]) :
      (statuses (history ++ effects)).getLast? = some d.status := by
    rw [statuses_append, last, List.getLast?_concat]
  cases finding with
  | changed on =>
      cases on with
      | false => exact told (c.deactivate task.name) _ rfl
      | true => exact told (c.activate task.name) _ rfl
  | failed text =>
      exact told (c.note task (.failed text)).state (c.note task (.failed text)).reports rfl
  | finished =>
      have same : (c.note task .finished).state.status = c.status := rfl
      rw [same]
      simpa [note] using line

omit [Host] in
theorem notes_starts (task : Task) (findings : List Finding) (c : Controller) :
    starts (Outcome.each (note task) findings c).reports = [] := by
  induction findings generalizing c with
  | nil => rfl
  | cons finding rest ih =>
      have one : starts (c.note task finding).reports = [] := by
        cases finding with
        | changed on => cases on <;> rfl
        | failed text => rfl
        | finished => rfl
      rw [each_cons, andThen_reports, starts_append, one, ih]
      rfl

theorem Follows.alternates (follows : Follows pending heard c s) (readers : c.bus.readers.Nodup) :
    ∃ on last, Trigger.Alternates on (s.read (c.bus.queued s.name)).reports last ∧
      (s.name ∈ c.active ↔ on = true) := by
  have nothing (unread : s.name ∉ c.bus.readers) :
      ∃ on last, Trigger.Alternates on (s.read (c.bus.queued s.name)).reports last ∧
        (s.name ∈ c.active ↔ on = true) := by
    rw [Bus.queued_of_notMem unread]
    exact ⟨decide (s.name ∈ c.active), _, .quiet, by simp⟩
  cases follows with
  | fresh _ unread _ _ => exact nothing unread
  | closed _ unread _ _ => exact nothing unread
  | listens _ member reader _ _ _ _ mirrors =>
      rw [← reader, Bus.queued_of_mem readers member]
      rw [← reader] at mirrors
      exact ⟨s.isOn, _, s.task.trigger.findings_alternate s.isOn _, mirrors⟩

def drawn (s : Station) (bus : Bus String Signal) : Bus String Signal :=
  let signals := bus.queued s.name
  let taken := bus.take s.name signals.length
  if s.task.trigger.closed signals then taken.close s.name else taken

theorem readFeed_eq (found : c.station? name = some s) :
    (c.readFeed name).state =
      { c.setStation (s.read (c.bus.queued s.name)).state with
        active := marks s.name (s.read (c.bus.queued s.name)).reports c.active
        bus := drawn s c.bus } := by
  have same := (station?_some found).2
  rw [readFeed_state found, ← same]
  have closes : (s.read (c.bus.queued s.name)).reports.any Finding.closes =
      s.task.trigger.closed (c.bus.queued s.name) := s.task.trigger.findings_closes s.isOn _
  simp only [noted, closes]
  rfl

theorem readFeed_station (found : c.station? s.name = some s) :
    (c.readFeed s.name).state.station? s.name = some (s.read (c.bus.queued s.name)).state := by
  rw [readFeed_eq found]
  exact station?_setStation_self (t := (s.read (c.bus.queued s.name)).state) found

theorem mem_drawn {bus : Bus String Signal} {subscription : Subscription String Signal}
    (member : subscription ∈ (drawn s bus).subscriptions) :
    ∃ old ∈ bus.subscriptions, old.reader = subscription.reader ∧
      subscription.queue = if old.reader = s.name then old.queue.drop (bus.queued s.name).length
        else old.queue := by
  have taken : subscription ∈ (bus.take s.name (bus.queued s.name).length).subscriptions := by
    unfold drawn at member
    dsimp only at member
    split at member
    · exact (Bus.mem_close.mp member).1
    · exact member
  obtain ⟨old, among, reader, -, queue⟩ := Bus.mem_take taken
  exact ⟨old, among, reader, queue⟩

theorem mem_drawn_readers {bus : Bus String Signal} (member : name ∈ (drawn s bus).readers) :
    name ∈ bus.readers := by
  obtain ⟨subscription, among, rfl⟩ := List.mem_map.mp member
  obtain ⟨old, before, reader, -⟩ := mem_drawn among
  exact List.mem_map.mpr ⟨old, before, reader⟩

theorem drawn_readers_nodup {bus : Bus String Signal} (nodup : bus.readers.Nodup) :
    (drawn s bus).readers.Nodup := by
  unfold drawn
  dsimp only
  rw [← Bus.take_readers s.name (bus.queued s.name).length bus] at nodup
  split
  · exact nodup.sublist (List.filter_sublist.map _)
  · exact nodup

theorem drawn_other {bus : Bus String Signal} {subscription : Subscription String Signal}
    (member : subscription ∈ bus.subscriptions) (other : subscription.reader ≠ s.name) :
    subscription ∈ (drawn s bus).subscriptions := by
  have taken : subscription ∈ (bus.take s.name (bus.queued s.name).length).subscriptions :=
    List.mem_map.mpr ⟨subscription, member, by simp [other]⟩
  unfold drawn
  dsimp only
  split
  · exact Bus.mem_close.mpr ⟨taken, other⟩
  · exact taken

theorem drawn_open {bus : Bus String Signal} {subscription : Subscription String Signal}
    (nodup : bus.readers.Nodup) (member : subscription ∈ bus.subscriptions)
    (reader : subscription.reader = s.name)
    (stillOpen : s.task.trigger.closed subscription.queue = false) :
    { subscription with queue := [] } ∈ (drawn s bus).subscriptions := by
  have queued : bus.queued s.name = subscription.queue := reader ▸ Bus.queued_of_mem nodup member
  unfold drawn
  simp only [queued, stillOpen, if_false, Bool.false_eq_true]
  exact List.mem_map.mpr ⟨subscription, member, by simp [reader]⟩

theorem drawn_closed {bus : Bus String Signal}
    (isClosed : s.task.trigger.closed (bus.queued s.name) = true) :
    s.name ∉ (drawn s bus).readers := by
  unfold drawn
  simp only [isClosed, if_true]
  intro read
  obtain ⟨subscription, member, same⟩ := List.mem_map.mp read
  exact (Bus.mem_close.mp member).2 same

theorem readFeed_follows_self (found : c.station? name = some s) (readers : c.bus.readers.Nodup)
    (follows : Follows pending heard c s) :
    Follows pending heard (c.readFeed name).state (s.read (c.bus.queued s.name)).state := by
  have mirrors' := follows.alternates readers
  rw [readFeed_eq found]
  cases follows with
  | fresh waits unread off inactive =>
      have nothing : s.read (c.bus.queued s.name) = ⟨s, []⟩ := by
        rw [Bus.queued_of_notMem unread]
        simp [Station.read, Trigger.findings]
      rw [nothing]
      refine .fresh waits ?_ off inactive
      intro read
      exact unread (mem_drawn_readers read)
  | closed begun unread isClosed mirrors =>
      have nothing : s.read (c.bus.queued s.name) = ⟨s, []⟩ := by
        rw [Bus.queued_of_notMem unread]
        simp [Station.read, Trigger.findings]
      rw [nothing]
      refine .closed begun ?_ isClosed mirrors
      intro read
      exact unread (mem_drawn_readers read)
  | @listens subscription seen begun member reader path split stillOpen state mirrors =>
      have queued : c.bus.queued s.name = subscription.queue :=
        reader ▸ Bus.queued_of_mem readers member
      have held : s.task.trigger.hold false (heard s.task.trigger.path) =
          s.task.trigger.hold s.isOn subscription.queue := by
        rw [split, Trigger.hold_append stillOpen, state]
      have active : s.name ∈ marks s.name (s.read (c.bus.queued s.name)).reports c.active ↔
          s.task.trigger.hold s.isOn subscription.queue = true := by
        rw [queued]
        exact mem_marks_self (s.task.trigger.findings_alternate s.isOn subscription.queue) mirrors
      -- The feed goes on with an empty queue, unless one of the signals has closed it.
      cases closes : s.task.trigger.closed subscription.queue with
      | true =>
          refine .closed begun ?_ ?_ ?_
          · exact drawn_closed (queued ▸ closes)
          · change s.task.trigger.closed (heard s.task.trigger.path) = true
            rw [split, Trigger.closed_append, closes, Bool.or_true]
          · change s.name ∈ marks s.name _ c.active ↔
              s.task.trigger.hold false (heard s.task.trigger.path) = true
            rw [held]
            exact active
      | false =>
          have isOn : (s.read (c.bus.queued s.name)).state.isOn =
              s.task.trigger.hold s.isOn subscription.queue := by
            rw [queued]
            exact Trigger.findings_state closes
          have whole : heard s.task.trigger.path = (seen ++ subscription.queue) ++ [] :=
            split.trans (List.append_nil _).symm
          refine .listens begun (drawn_open readers member reader closes) reader path whole ?_ ?_ ?_
          · change s.task.trigger.closed (seen ++ subscription.queue) = false
            rw [Trigger.closed_append, stillOpen, closes]
            rfl
          · rw [isOn]
            exact split ▸ held
          · rw [isOn]
            exact active

theorem readFeed_follows_other (found : c.station? name = some s) (other : t.name ≠ s.name)
    (follows : Follows pending heard c t) : Follows pending heard (c.readFeed name).state t := by
  rw [readFeed_eq found]
  cases follows with
  | fresh waits unread off inactive =>
      refine .fresh waits ?_ off ?_
      · exact fun read => unread (mem_drawn_readers read)
      · exact fun active => inactive ((mem_marks other).mp active)
  | listens begun member reader path split stillOpen state mirrors =>
      refine .listens begun (drawn_other member (reader ▸ other)) reader path split stillOpen state ?_
      exact (mem_marks other).trans mirrors
  | closed begun unread isClosed mirrors =>
      refine .closed begun ?_ isClosed ?_
      · exact fun read => unread (mem_drawn_readers read)
      · exact (mem_marks other).trans mirrors

theorem readFeed_runs {signals : List Signal} {on last : Bool}
    (alternates : Trigger.Alternates on (s.read signals).reports last)
    (mirrors : s.name ∈ c.active ↔ on = true) (runs : s.WillRun → s.name ∈ c.active)
    (willRun : (s.read signals).state.WillRun) :
    s.name ∈ marks s.name (s.read signals).reports c.active := by
  rw [mem_marks_self alternates mirrors]
  have command := alternates.command
  have commands : (s.read signals).state.commands =
      s.commands ++ (s.read signals).reports.filterMap Finding.command? := rfl
  -- The last command is a new one, or else all is as it was before.
  cases new : ((s.read signals).reports.filterMap Finding.command?).getLast? with
  | some final =>
      rw [new, Option.getD_some] at command
      rcases willRun with told | ⟨none, -⟩
      · rw [commands, List.getLast?_append, new] at told
        obtain rfl : final = .start := Option.some.inj told
        cases last with
        | true => rfl
        | false => cases command
      · rw [commands, List.append_eq_nil_iff] at none
        simp [none.2] at new
  | none =>
      have nothing : (s.read signals).reports.filterMap Finding.command? = [] :=
        List.getLast?_eq_none_iff.mp new
      rw [nothing, List.append_nil] at commands
      have before : s.WillRun := by
        rcases willRun with told | ⟨none, busy⟩
        · exact .inl (commands ▸ told)
        · exact .inr ⟨commands ▸ none, busy⟩
      rw [new, Option.getD_none] at command
      have isOn : on = true := mirrors.mp (runs before)
      cases last with
      | true => rfl
      | false =>
          rw [isOn] at command
          cases command

theorem readFeed_line (name : String) :
    Keeps (fun c history => (statuses history).getLast? = some c.status) (readFeed name) := by
  intro c history line
  cases found : c.station? name with
  | none => simpa [readFeed, found] using line
  | some s =>
      simp only [readFeed, found]
      exact Keeps.each (fun finding _ => note_line s.task finding) _ history line

theorem readFeed_attuned (name : String) : Keeps (Attuned pending heard past) (readFeed name) := by
  intro c history attuned
  have booked := readFeed_booked name c _ attuned.booked
  have listed := readFeed_listed name c history attuned.listed
  have line := readFeed_line name c history attuned.line
  cases found : c.station? name with
  | none => simpa [readFeed, found] using attuned
  | some s =>
      have among := (station?_some found).1
      obtain ⟨on, last, alternates, mirrors⟩ :=
        (attuned.follows s among).alternates attuned.readers
      have others (t : Station) (member : t ∈ (c.readFeed name).state.stations) :
          t = (s.read (c.bus.queued s.name)).state ∨ t ∈ c.stations ∧ t.name ≠ s.name := by
        rw [readFeed_eq found] at member
        exact mem_setStation member
      refine ⟨?_, listed, ?_, ?_, line, ?_, ?_⟩
      · rwa [← List.append_assoc]
      · rw [readFeed_eq found]
        exact drawn_readers_nodup attuned.readers
      · rw [readFeed_eq found]
        exact marks_nodup attuned.nodup
      · intro t member
        rcases others t member with rfl | ⟨old, different⟩
        · exact readFeed_follows_self found attuned.readers (attuned.follows s among)
        · exact readFeed_follows_other found different (attuned.follows t old)
      · intro t member willRun
        rw [readFeed_eq found]
        rcases others t member with rfl | ⟨old, different⟩
        · exact readFeed_runs alternates mirrors (attuned.runs s among) willRun
        · exact (mem_marks different).mpr (attuned.runs t old willRun)

theorem subscribe_attuned {rest : List String}
    (attuned : Attuned (task.name :: rest) heard past c history) (among : task ∈ c.tasks)
    (later : task.name ∉ rest) (named : task.name ∈ c.stations.map Station.name)
    (replayed : heard task.trigger.path = (c.bus.last? task.trigger.path).toList) :
    Attuned rest heard past (c.subscribe task) history := by
  have unread : task.name ∉ c.bus.readers := by
    obtain ⟨s, member, same⟩ := List.mem_map.mp named
    rw [← same]
    exact attuned.unread member (by simp [same])
  have readers : (c.subscribe task).bus.readers = c.bus.readers ++ [task.name] := by
    simp [subscribe, Bus.subscribe, Bus.readers]
  refine ⟨subscribe_booked task attuned.booked, subscribe_listed attuned.listed named, ?_,
    attuned.nodup, attuned.line, ?_, attuned.runs⟩
  · rw [readers]
    simpa using attuned.readers.concat unread
  -- Only the station that is subscribed goes on; nothing comes in for the others.
  · intro s member
    by_cases own : s.name = task.name
    · have same : s.task = task :=
        List.inj_on_of_nodup_map attuned.booked.distinct (attuned.booked.task_mem member) among own
      cases attuned.follows s member with
      | fresh _ _ off inactive =>
          have subscribed : ⟨task.name, task.trigger.path, (c.bus.last? task.trigger.path).toList⟩ ∈
              (c.subscribe task).bus.subscriptions :=
            List.mem_append_right _ (List.mem_singleton.mpr rfl)
          have whole : heard s.task.trigger.path = [] ++ (c.bus.last? task.trigger.path).toList := by
            rw [same]
            exact replayed
          refine .listens (own ▸ later) subscribed own.symm ?_ whole rfl off.symm ?_
          · rw [same]
          · rw [off]
            exact ⟨fun active => absurd active inactive, fun wrong => by cases wrong⟩
      | listens begun _ _ _ _ _ _ _ => exact absurd (by simp [own]) begun
      | closed begun _ _ _ => exact absurd (by simp [own]) begun
    · cases attuned.follows s member with
      | fresh waits unread off inactive =>
          refine .fresh ?_ ?_ off inactive
          · simpa [own] using waits
          · rw [readers]
            simp [unread, own]
      | listens begun member reader path split stillOpen state mirrors =>
          refine .listens ?_ (List.mem_append_left _ member) reader path split stillOpen state mirrors
          exact fun waits => begun (List.mem_cons_of_mem _ waits)
      | closed begun unread isClosed mirrors =>
          refine .closed ?_ ?_ isClosed mirrors
          · exact fun waits => begun (List.mem_cons_of_mem _ waits)
          · rw [readers]
            simp [unread, own]

theorem carry_attuned (signals : List (String × Signal))
    (attuned : Attuned pending heard past c history) :
    Attuned pending (fun path => heard path ++ Bus.published path signals) past
      { c with bus := c.bus.carry signals } history := by
  have readers : (c.bus.carry signals).readers = c.bus.readers := Bus.carry_readers signals c.bus
  refine ⟨attuned.booked.same rfl rfl rfl rfl, carry_listed signals attuned.listed,
    readers ▸ attuned.readers, attuned.nodup, attuned.line, ?_, attuned.runs⟩
  · intro s member
    cases attuned.follows s member with
    | fresh waits unread off inactive => exact .fresh waits (readers ▸ unread) off inactive
    | @listens subscription seen begun member reader path split stillOpen state mirrors =>
        have filled : { subscription with
            queue := subscription.queue ++ Bus.published subscription.path signals } ∈
              (c.bus.carry signals).subscriptions := by
          rw [Bus.carry_subscriptions]
          exact List.mem_map_of_mem member
        have whole : heard s.task.trigger.path ++ Bus.published s.task.trigger.path signals =
            seen ++ (subscription.queue ++ Bus.published subscription.path signals) := by
          rw [split, path, List.append_assoc]
        exact .listens begun filled reader path whole stillOpen state mirrors
    | closed begun unread isClosed mirrors =>
        refine .closed begun (readers ▸ unread) ?_ ?_
        · rw [Trigger.closed_append, isClosed, Bool.true_or]
        · rw [Trigger.hold_closed isClosed]
          exact mirrors

end Cadence.Controller
