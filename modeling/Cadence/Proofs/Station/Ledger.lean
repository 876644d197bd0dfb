import Cadence.Proofs.Sequencer.Pairs
import Cadence.Station

namespace Cadence
open Sequencer

namespace Effect

def task? : Effect → Option String
  | .commanded task _ | .happened task _ _ | .called task _ _ => some task
  | _ => none

def event? (task : String) : Effect → Option Event
  | .happened name event _ => if name = task then some event else none
  | _ => none

def call? (task : String) : Effect → Option Call
  | .called name call _ => if name = task then some call else none
  | _ => none

def events (task : String) (history : List Effect) : List Event := history.filterMap (event? task)

def calls (task : String) (history : List Effect) : List Call := history.filterMap (call? task)

@[simp] theorem events_append (task : String) (history effects : List Effect) :
    events task (history ++ effects) = events task history ++ events task effects :=
  List.filterMap_append

@[simp] theorem calls_append (task : String) (history effects : List Effect) :
    calls task (history ++ effects) = calls task history ++ calls task effects :=
  List.filterMap_append

theorem events_foreign {task : String} {effects : List Effect}
    (foreign : ∀ effect ∈ effects, effect.task? ≠ some task) : events task effects = [] := by
  apply List.filterMap_eq_nil_iff.mpr
  intro effect member
  cases effect with
  | happened other event time =>
      have different : other ≠ task := by simpa [task?] using foreign _ member
      simp [event?, different]
  | _ => rfl

theorem calls_foreign {task : String} {effects : List Effect}
    (foreign : ∀ effect ∈ effects, effect.task? ≠ some task) : calls task effects = [] := by
  apply List.filterMap_eq_nil_iff.mpr
  intro effect member
  cases effect with
  | called other call time =>
      have different : other ≠ task := by simpa [task?] using foreign _ member
      simp [call?, different]
  | _ => rfl

end Effect

open Effect

def Faithful (outlet : Outlet) (task : String) (history : List Effect) : Prop :=
  ∀ seen, seen <+: history → calls task seen <+: (events task seen).map outlet.call

namespace Faithful
variable {outlet : Outlet} {task : String} {history effects : List Effect}

theorem prefix_append_cases {seen : List Effect} (start : seen <+: history ++ effects) :
    seen <+: history ∨ ∃ more, more <+: effects ∧ seen = history ++ more := by
  obtain ⟨rest, equal⟩ := start
  rcases List.append_eq_append_iff.mp equal with ⟨between, whole, -⟩ | ⟨more, longer, whole⟩
  · exact .inl ⟨between, whole.symm⟩
  · exact .inr ⟨more, ⟨rest, whole.symm⟩, longer⟩

theorem append_events (faithful : Faithful outlet task history) (none : calls task effects = []) :
    Faithful outlet task (history ++ effects) := by
  intro seen start
  rcases prefix_append_cases start with within | ⟨more, part, rfl⟩
  · exact faithful seen within
  · have silent : calls task more = [] :=
      List.prefix_nil.mp (none ▸ part.filterMap (call? task))
    rw [calls_append, silent, List.append_nil, events_append, List.map_append]
    exact (faithful history (List.prefix_refl _)).trans (List.prefix_append _ _)

theorem append_calls (faithful : Faithful outlet task history) (none : events task effects = [])
    (covered : calls task (history ++ effects) <+: (events task history).map outlet.call) :
    Faithful outlet task (history ++ effects) := by
  intro seen start
  rcases prefix_append_cases start with within | ⟨more, part, rfl⟩
  · exact faithful seen within
  · have silent : events task more = [] :=
      List.prefix_nil.mp (none ▸ part.filterMap (event? task))
    rw [events_append, silent, List.append_nil, calls_append]
    rw [calls_append] at covered
    exact (List.prefix_append_right_inj _ |>.mpr (part.filterMap (call? task))).trans covered

end Faithful

/-- The books of a task that has nothing under way: all its turns are over, and all events are called
for. -/
structure Balanced (outlet : Outlet) (task : Task) (history : List Effect) : Prop where
  faithful : Faithful outlet task.name history
  turns : ∃ turns : List Turn, (∀ turn ∈ turns, turn.IsOf task.activities) ∧
    events task.name history = paired turns ∧
    calls task.name history = (paired turns).map outlet.call

theorem Balanced.append {outlet : Outlet} {task : Task} {history effects : List Effect}
    (balanced : Balanced outlet task history) (eventless : events task.name effects = [])
    (callless : calls task.name effects = []) : Balanced outlet task (history ++ effects) := by
  obtain ⟨turns, member, recorded, called⟩ := balanced.turns
  refine ⟨balanced.faithful.append_events callless, turns, member, ?_, ?_⟩
  · rw [events_append, eventless, List.append_nil]
    exact recorded
  · rw [calls_append, callless, List.append_nil]
    exact called

namespace Station

def waiting (s : Station) : List Event := (s.inFlight.map (·.1)).toList ++ s.outbox

structure Accounts (outlet : Outlet) (s : Station) (history : List Effect) : Prop where
  poised : s.sequencer.Poised
  activities : s.sequencer.activities = s.task.activities
  faithful : Faithful outlet s.name history
  put : ∃ put : List Event, events s.name history = put ++ s.waiting ∧
    calls s.name history = put.map outlet.call
  turns : ∃ turns : List Turn, (∀ turn ∈ turns, turn.IsOf s.task.activities) ∧
    events s.name history = paired turns ++ s.sequencer.unpaired
  undelayed : outlet.isDelayed = false → s.inFlight = none

/-- How a station gets to a state: its effects are its own, and its books stay in order. -/
structure Reaches (outlet : Outlet) (s t : Station) (effects : List Effect) : Prop where
  task : t.task = s.task
  own : ∀ effect ∈ effects, ∀ name, effect.task? = some name → name = s.name
  accounts : ∀ history, s.Accounts outlet history → t.Accounts outlet (history ++ effects)

variable {outlet : Outlet} {s t u : Station} {effects more : List Effect} {now : Instant}

theorem Reaches.name (reaches : Reaches outlet s t effects) : t.name = s.name :=
  congrArg Task.name reaches.task

theorem Reaches.refl : Reaches outlet s s [] :=
  ⟨rfl, by simp, fun history accounts => by simpa using accounts⟩

theorem Reaches.trans (first : Reaches outlet s t effects) (second : Reaches outlet t u more) :
    Reaches outlet s u (effects ++ more) := by
  refine ⟨second.task.trans first.task, ?_, ?_⟩
  · intro effect member name about
    rcases List.mem_append.mp member with early | late
    · exact first.own effect early name about
    · exact (second.own effect late name about).trans first.name
  · intro history accounts
    rw [← List.append_assoc]
    exact second.accounts _ (first.accounts _ accounts)

@[simp] theorem fresh_name (task : Task) : (fresh task).name = task.name := rfl

theorem fresh_accounts {task : Task} {history : List Effect}
    (balanced : Balanced outlet task history) : (fresh task).Accounts outlet history := by
  obtain ⟨turns, member, events, calls⟩ := balanced.turns
  refine ⟨poised_idle _ _, rfl, balanced.faithful, ⟨paired turns, ?_, calls⟩, ⟨turns, member, ?_⟩,
    fun _ => rfl⟩
  · rw [fresh_name, events]
    exact (List.append_nil _).symm
  · rw [fresh_name, unpaired_idle (s := (fresh task).sequencer) rfl, List.append_nil]
    exact events

theorem Accounts.balanced {history : List Effect} (accounts : s.Accounts outlet history)
    (idle : s.sequencer.isIdle = true) (quiet : s.waiting = []) :
    Balanced outlet s.task history := by
  obtain ⟨put, events, calls⟩ := accounts.put
  obtain ⟨turns, member, split⟩ := accounts.turns
  rw [quiet, List.append_nil] at events
  rw [unpaired_idle idle, List.append_nil] at split
  refine ⟨accounts.faithful, turns, member, split, ?_⟩
  rw [← split, events]
  exact calls

@[simp] theorem events_effects (name : String) (notices : List Notice) :
    events name (notices.filterMap (effectOf? name)) = eventsOf notices := by
  induction notices with
  | nil => rfl
  | cons notice rest ih =>
      cases notice with
      | emitted event time => simpa [effectOf?, events, event?, eventsOf] using ih
      | _ => exact ih

@[simp] theorem calls_effects (name other : String) (notices : List Notice) :
    calls other (notices.filterMap (effectOf? name)) = [] := by
  induction notices with
  | nil => rfl
  | cons notice rest ih => cases notice <;> exact ih

theorem filterMap_eventOf? (notices : List Notice) :
    notices.filterMap eventOf? = eventsOf notices := by
  induction notices with
  | nil => rfl
  | cons notice rest ih =>
      cases notice with
      | emitted event time => exact congrArg (event :: ·) ih
      | _ => exact ih

theorem effects_own (name : String) (notices : List Notice) :
    ∀ effect ∈ notices.filterMap (effectOf? name), ∀ other, effect.task? = some other →
      other = name := by
  intro effect member other about
  obtain ⟨notice, -, made⟩ := List.mem_filterMap.mp member
  cases notice <;> simp only [effectOf?, Option.some.injEq, reduceCtorEq] at made
  all_goals
    subst made
    simp_all [Effect.task?]

theorem absorb_reaches {step : Outcome Sequencer Notice}
    (led : s.sequencer.Poised → Leads s.sequencer step.state (eventsOf step.reports)) :
    Reaches outlet s (s.absorb step).state (s.absorb step).reports := by
  refine ⟨rfl, effects_own _ _, ?_⟩
  intro history accounts
  have leads := led accounts.poised
  -- New events stand behind all others both on record and in the outbox.
  obtain ⟨put, recorded, called⟩ := accounts.put
  obtain ⟨turns, member, split⟩ := accounts.turns
  obtain ⟨later, member', split'⟩ := leads.turns
  refine ⟨leads.poised, leads.activities.trans accounts.activities,
    accounts.faithful.append_events (calls_effects _ _ _), ⟨put, ?_, ?_⟩, ⟨turns ++ later, ?_, ?_⟩,
    accounts.undelayed⟩
  · change events s.name (history ++ step.reports.filterMap (effectOf? s.name)) = _
    rw [events_append, events_effects, recorded]
    simp [absorb, waiting, filterMap_eventOf?]
  · change calls s.name (history ++ step.reports.filterMap (effectOf? s.name)) = _
    rw [calls_append, calls_effects, called, List.append_nil]
  · intro turn among
    rcases List.mem_append.mp among with early | late
    · exact member turn early
    · have found := member' turn late
      rw [accounts.activities] at found
      exact found
  · change events s.name (history ++ step.reports.filterMap (effectOf? s.name)) = _
    rw [events_append, events_effects, split, List.append_assoc, split', paired_append,
      List.append_assoc]
    rfl

theorem handle_reaches (command : Command) :
    Reaches outlet s (s.handle now command).state (s.handle now command).reports :=
  absorb_reaches (handle_leads command)

theorem fire_reaches : Reaches outlet s s.fire.state s.fire.reports := absorb_reaches fire_leads

theorem Accounts.putting {history : List Effect} (accounts : s.Accounts outlet history)
    (done : List Event) (task : t.task = s.task)
    (sequencer : t.sequencer = s.sequencer) (waiting : s.waiting = done ++ t.waiting)
    (undelayed : outlet.isDelayed = false → s.inFlight = none → t.inFlight = none)
    (eventless : events s.name effects = [])
    (called : calls s.name effects = done.map outlet.call) :
    t.Accounts outlet (history ++ effects) := by
  have sameName : t.name = s.name := congrArg Task.name task
  obtain ⟨put, recorded, called'⟩ := accounts.put
  obtain ⟨turns, member, split⟩ := accounts.turns
  rw [waiting, ← List.append_assoc] at recorded
  have callsNow : calls s.name (history ++ effects) = (put ++ done).map outlet.call := by
    rw [calls_append, called', called, List.map_append]
  have eventsNow : events s.name (history ++ effects) = events s.name history := by
    rw [events_append, eventless, List.append_nil]
  refine ⟨sequencer ▸ accounts.poised, by rw [sequencer, task]; exact accounts.activities, ?_,
    ⟨put ++ done, ?_, ?_⟩, ⟨turns, ?_, ?_⟩,
    fun still => undelayed still (accounts.undelayed still)⟩
  · rw [sameName]
    apply accounts.faithful.append_calls eventless
    rw [callsNow, recorded]
    exact (List.prefix_append _ _).map _
  · rw [sameName, eventsNow]
    exact recorded
  · rw [sameName]
    exact callsNow
  · rw [task]
    exact member
  · rw [sameName, sequencer, eventsNow]
    exact split

theorem Accounts.append {history : List Effect} (accounts : s.Accounts outlet history)
    (eventless : events s.name effects = []) (callless : calls s.name effects = []) :
    s.Accounts outlet (history ++ effects) :=
  accounts.putting [] rfl rfl rfl (fun _ still => still) eventless callless

theorem Reaches.putting (done : List Event) (task : t.task = s.task)
    (sequencer : t.sequencer = s.sequencer) (waiting : s.waiting = done ++ t.waiting)
    (undelayed : outlet.isDelayed = false → s.inFlight = none → t.inFlight = none)
    (own : ∀ effect ∈ effects, ∀ name, effect.task? = some name → name = s.name)
    (eventless : events s.name effects = [])
    (called : calls s.name effects = done.map outlet.call) : Reaches outlet s t effects :=
  ⟨task, own, fun _ accounts => accounts.putting done task sequencer waiting undelayed eventless called⟩

theorem Reaches.silent (task : t.task = s.task) (sequencer : t.sequencer = s.sequencer)
    (inFlight : t.inFlight = s.inFlight) (outbox : t.outbox = s.outbox)
    (own : ∀ effect ∈ effects, ∀ name, effect.task? = some name → name = s.name)
    (eventless : events s.name effects = []) (callless : calls s.name effects = []) :
    Reaches outlet s t effects :=
  .putting [] task sequencer (by simp [Station.waiting, inFlight, outbox])
    (fun _ still => inFlight.trans still) own eventless callless

def comply (now : Instant) (command : Command) (s : Station) : Outcome Station Effect :=
  (Outcome.mk s [.commanded s.name command]).andThen (handle now command)

theorem comply_reaches (command : Command) :
    Reaches outlet s (s.comply now command).state (s.comply now command).reports := by
  have announced : Reaches outlet s s [.commanded s.name command] :=
    .silent rfl rfl rfl rfl (by simp [Effect.task?]) rfl rfl
  exact announced.trans (handle_reaches command)

theorem each_comply_reaches (commands : List Command) :
    Reaches outlet s (Outcome.each (comply now) commands s).state
      (Outcome.each (comply now) commands s).reports := by
  induction commands generalizing s with
  | nil => exact .refl
  | cons command rest ih => exact (comply_reaches command).trans ih

theorem obey_reaches : Reaches outlet s (s.obey now).state (s.obey now).reports := by
  have emptied : Reaches outlet s { s with commands := [] } [] :=
    .silent rfl rfl rfl rfl (by simp) rfl rfl
  exact emptied.trans (each_comply_reaches s.commands)

theorem put_eq (event : Event) : s.put outlet now event =
    .called s.name (outlet.call event) now ::
      ((outlet.faults.lookup event.activity.path).map fun text =>
        Effect.logged (Outlet.failure event text)).toList := by
  unfold put attempt Attempt.caught Outlet.answer
  cases outlet.faults.lookup event.activity.path <;> rfl

theorem put_own (event : Event) : ∀ effect ∈ s.put outlet now event, ∀ name,
    effect.task? = some name → name = s.name := by
  intro effect member name about
  rw [put_eq] at member
  rcases List.mem_cons.mp member with rfl | logged
  · exact (Option.some.inj about).symm
  · obtain ⟨text, -, rfl⟩ : ∃ text, outlet.faults.lookup event.activity.path = some text ∧
        Effect.logged (Outlet.failure event text) = effect := by simpa using logged
    cases about

@[simp] theorem events_put (event : Event) : events s.name (s.put outlet now event) = [] := by
  cases fault : outlet.faults.lookup event.activity.path <;> simp [put_eq, fault, events, event?]

@[simp] theorem calls_put (event : Event) :
    calls s.name (s.put outlet now event) = [outlet.call event] := by
  cases fault : outlet.faults.lookup event.activity.path <;> simp [put_eq, fault, calls, call?]

variable [Host]

def announced (outlet : Outlet) (now : Instant) (s : Station) (waiting : List Event) : List Effect :=
  waiting.flatMap fun event => .diagnostic (outlet.announcement event) :: s.put outlet now event

theorem events_announced (waiting : List Event) :
    events s.name (s.announced outlet now waiting) = [] := by
  induction waiting with
  | nil => rfl
  | cons event rest ih =>
      rw [announced, List.flatMap_cons, events_append]
      change events s.name (s.put outlet now event) ++ events s.name (s.announced outlet now rest) = []
      rw [events_put, ih, List.append_nil]

theorem calls_announced (waiting : List Event) :
    calls s.name (s.announced outlet now waiting) = waiting.map outlet.call := by
  induction waiting with
  | nil => rfl
  | cons event rest ih =>
      rw [announced, List.flatMap_cons, calls_append]
      change calls s.name (s.put outlet now event) ++ calls s.name (s.announced outlet now rest) = _
      rw [calls_put, ih, List.map_cons, List.singleton_append]

theorem announced_own (waiting : List Event) : ∀ effect ∈ s.announced outlet now waiting, ∀ name,
    effect.task? = some name → name = s.name := by
  intro effect member name about
  obtain ⟨event, -, part⟩ := List.mem_flatMap.mp member
  rcases List.mem_cons.mp part with rfl | put
  · cases about
  · exact put_own event effect put name about

theorem each_putFirst (events : List Event) (s : Station) :
    Outcome.each (putFirst outlet now) events s =
      ⟨{ s with outbox := s.outbox.drop events.length }, s.announced outlet now events⟩ := by
  induction events generalizing s with
  | nil => rfl
  | cons event rest ih =>
      rw [Outcome.each_cons, Outcome.andThen, ih]
      simp only [putFirst, List.drop_tail, List.length_cons]
      rfl

theorem dispatch_eq (outlet : Outlet) (now : Instant) (s : Station) : s.dispatch outlet now =
    match s.inFlight, s.outbox with
    | some _, _ => .still s
    | none, [] => .still s
    | none, event :: rest =>
        if outlet.isDelayed then
          ⟨{ s with outbox := rest, inFlight := some (event, now.after outlet.delay) },
            [.diagnostic (outlet.announcement event), .armed (.call s.name)]⟩
        else
          ⟨{ s with outbox := [] }, s.announced outlet now (event :: rest)⟩ := by
  unfold dispatch
  cases flying : s.inFlight with
  | some call => rfl
  | none =>
      cases waits : s.outbox with
      | nil => rfl
      | cons event rest =>
          simp only [each_putFirst, waits, flying, List.drop_length]

inductive Dispatches (outlet : Outlet) (now : Instant) (s : Station) : Outcome Station Effect → Prop
  | nothing (held : s.inFlight.isSome ∨ s.outbox = []) : Dispatches outlet now s (.still s)
  | begins {event : Event} {rest : List Event} (delayed : outlet.isDelayed = true)
      (free : s.inFlight = none) (outbox : s.outbox = event :: rest) :
      Dispatches outlet now s
        ⟨{ s with outbox := rest, inFlight := some (event, now.after outlet.delay) },
          [.diagnostic (outlet.announcement event), .armed (.call s.name)]⟩
  | empties (undelayed : outlet.isDelayed = false) (free : s.inFlight = none)
      (filled : s.outbox ≠ []) :
      Dispatches outlet now s ⟨{ s with outbox := [] }, s.announced outlet now s.outbox⟩

theorem dispatches (outlet : Outlet) (now : Instant) (s : Station) :
    s.Dispatches outlet now (s.dispatch outlet now) := by
  rw [dispatch_eq]
  split
  · next flying => exact .nothing (.inl (by simp [flying]))
  · next empty => exact .nothing (.inr empty)
  · next event rest free outbox =>
      split
      · next delayed => exact .begins delayed free outbox
      · next undelayed =>
          rw [← outbox]
          exact .empties (by simpa using undelayed) free (by simp [outbox])

theorem dispatch_reaches :
    Reaches outlet s (s.dispatch outlet now).state (s.dispatch outlet now).reports := by
  have split := dispatches outlet now s
  generalize s.dispatch outlet now = outcome at split ⊢
  cases split with
  | nothing held => exact .refl
  | @begins event rest delayed free outbox =>
      exact .putting [] rfl rfl (by simp [waiting, free, outbox])
        (fun undelayed => by simp [delayed] at undelayed) (by simp [Effect.task?]) rfl rfl
  | empties undelayed free filled =>
      exact .putting s.outbox rfl rfl (by simp [waiting, free]) (fun _ still => still)
        (announced_own _) (events_announced _) (calls_announced _)

def Flows (s : Station) : Prop := s.inFlight = none → s.outbox = []

theorem dispatch_flows (outlet : Outlet) (now : Instant) (s : Station) :
    (s.dispatch outlet now).state.Flows := by
  intro free
  have split := dispatches outlet now s
  generalize s.dispatch outlet now = outcome at split free ⊢
  cases split with
  | nothing held =>
      rcases held with flying | empty
      · rw [Outcome.still_state] at free
        simp [free] at flying
      · exact empty
  | begins delayed unoccupied outbox => cases free
  | empties undelayed unoccupied filled => rfl

theorem dispatch_commands (outlet : Outlet) (now : Instant) (s : Station) :
    (s.dispatch outlet now).state.commands = s.commands := by
  have split := dispatches outlet now s
  generalize s.dispatch outlet now = outcome at split ⊢
  cases split <;> rfl

theorem dispatch_empties (undelayed : outlet.isDelayed = false) (free : s.inFlight = none) :
    (s.dispatch outlet now).state.waiting = [] := by
  have split := dispatches outlet now s
  generalize s.dispatch outlet now = outcome at split ⊢
  cases split with
  | nothing held =>
      rcases held with flying | empty
      · simp [free] at flying
      · simp [waiting, free, empty]
  | begins delayed _ _ => simp [undelayed] at delayed
  | empties _ _ _ => simp [waiting, free]

omit [Host] in
theorem arrive_reaches : Reaches outlet s (s.arrive outlet).state (s.arrive outlet).reports := by
  cases flying : s.inFlight with
  | none =>
      have still : s.arrive outlet = .still s := by simp [arrive, flying]
      rw [still]
      exact .refl
  | some call =>
      obtain ⟨event, due⟩ := call
      have lands : s.arrive outlet = ⟨{ s with inFlight := none }, s.put outlet due event⟩ := by
        simp [arrive, flying]
      rw [lands]
      exact .putting [event] rfl rfl (by simp [waiting, flying]) (fun _ _ => rfl)
        (put_own event) (events_put event) (calls_put event)

end Station

end Cadence
