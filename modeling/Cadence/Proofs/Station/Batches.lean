import Cadence.Proofs.Station.Doings
import Cadence.Proofs.Trigger.Orders

namespace Cadence
open Outcome

namespace Effect

def calling? (task : String) : Effect → Option (Call × Instant)
  | .called name call time => if name = task then some (call, time) else none
  | _ => none

def callings (task : String) (history : List Effect) : List (Call × Instant) :=
  history.filterMap (calling? task)

@[simp] theorem callings_append (task : String) (history effects : List Effect) :
    callings task (history ++ effects) = callings task history ++ callings task effects :=
  List.filterMap_append

end Effect

open Effect

/-- Two reports of the same moves and the same calls of a task; which comes first, a move or a call, may
differ. -/
structure Retells (name : String) (effects more : List Effect) : Prop where
  doings : doings name effects = doings name more
  callings : callings name effects = callings name more
  armed : ∀ owner, .armed owner ∈ effects ↔ .armed owner ∈ more

/-- The moves of a sequencer are no calls, and putting out events is no move, so that it does not
matter whether events are put out between two moves or behind both. -/
theorem retells_swapped {name : String} {one two put next : List Effect}
    (callless : callings name two = []) (moveless : doings name put = []) :
    Retells name ((one ++ two) ++ (put ++ next)) ((one ++ put) ++ (two ++ next)) := by
  refine ⟨?_, ?_, ?_⟩
  · simp [moveless]
  · simp [callless]
  · intro owner
    simp only [List.mem_append]
    tauto

namespace Station
variable {outlet : Outlet} {s t : Station} {now : Instant} {before after : List Signal}

/-! ## Duties of a sequencer -/

def duty (name : String) (now : Instant) (command : Command) (q : Sequencer) :
    Outcome Sequencer Effect :=
  let step := q.handle now command
  ⟨step.state, .commanded name command :: step.reports.filterMap (effectOf? name)⟩

def duties (name : String) (now : Instant) : List Command → Sequencer → Outcome Sequencer Effect :=
  Outcome.each (duty name now)

def post (events : List Event) (s : Station) : Station := { s with outbox := s.outbox ++ events }

def refit (on : Bool) (q : Sequencer) (s : Station) : Station :=
  { s with isOn := on, sequencer := q }

theorem comply_eq (now : Instant) (command : Command) (s : Station) :
    let done := duty s.name now command s.sequencer
    s.comply now command =
      ⟨(s.post (events s.name done.reports)).refit s.isOn done.state, done.reports⟩ := by
  have emitted : events s.name (duty s.name now command s.sequencer).reports =
      (s.sequencer.handle now command).reports.filterMap eventOf? := by
    rw [filterMap_eventOf?]
    exact events_effects _ _
  dsimp only
  rw [emitted]
  rfl

theorem each_comply_eq (now : Instant) (commands : List Command) (s : Station) :
    let done := duties s.name now commands s.sequencer
    Outcome.each (comply now) commands s =
      ⟨(s.post (events s.name done.reports)).refit s.isOn done.state, done.reports⟩ := by
  induction commands generalizing s with
  | nil =>
      have nothing : s.post [] = s := by simp [post]
      exact congrArg (Outcome.mk · []) nothing.symm
  | cons command rest ih =>
      have later := ih (s.comply now command).state
      rw [comply_eq] at later
      rw [each_cons, comply_eq]
      dsimp only at later ⊢
      simp only [andThen, later, duties, each_cons, events_append]
      simp only [post, refit, List.append_assoc]
      rfl

theorem callings_duties (name : String) (now : Instant) (commands : List Command) (q : Sequencer) :
    callings name (duties name now commands q).reports = [] := by
  induction commands generalizing q with
  | nil => rfl
  | cons command rest ih =>
      have silent (notices : List Notice) :
          callings name (notices.filterMap (effectOf? name)) = [] := by
        induction notices with
        | nil => rfl
        | cons notice more ih' => cases notice <;> exact ih'
      have first : callings name (duty name now command q).reports = [] :=
        silent (q.handle now command).reports
      rw [duties, each_cons, andThen_reports, callings_append, first, ← duties, ih]
      rfl

/-! ## Events that are put out -/

theorem dispatch_refit [Host] (on : Bool) (q : Sequencer) (s : Station) :
    (s.refit on q).dispatch outlet now =
      ⟨(s.dispatch outlet now).state.refit on q, (s.dispatch outlet now).reports⟩ := by
  obtain ⟨task, isOn, sequencer, commands, outbox, inFlight⟩ := s
  cases inFlight with
  | some call => rfl
  | none =>
      cases outbox with
      | nil => rfl
      | cons event rest =>
          cases delayed : outlet.isDelayed with
          | true => simp [refit, dispatch_eq, delayed, name]
          | false => simp [refit, dispatch_eq, delayed, announced, put_eq, name]

theorem dispatch_twice [Host] (outlet : Outlet) (now : Instant) (flows : s.Flows)
    (first second : List Event) :
    (s.post (first ++ second)).dispatch outlet now =
      ((s.post first).dispatch outlet now).andThen fun t => (t.post second).dispatch outlet now := by
  obtain ⟨task, isOn, sequencer, commands, outbox, inFlight⟩ := s
  cases inFlight with
  | some call => simp [post, dispatch_eq, andThen, still]
  | none =>
      obtain rfl : outbox = [] := flows rfl
      cases first with
      | nil => simp [post, dispatch_eq, andThen, still]
      | cons event rest =>
          cases delayed : outlet.isDelayed with
          | true => simp [post, dispatch_eq, delayed, andThen, still, name]
          | false =>
              cases second with
              | nil => simp [post, dispatch_eq, delayed, andThen, still]
              | cons other more =>
                  simp [post, dispatch_eq, delayed, andThen, announced, put_eq, name, List.flatMap_append]

/-! ## Batches -/

def work [Host] (outlet : Outlet) (now : Instant) (on : Bool) (commands : List Command)
    (s : Station) : Outcome Station Effect :=
  let done := duties s.name now commands s.sequencer
  (Outcome.mk ((s.post (events s.name done.reports)).refit on done.state) done.reports).andThen
    (dispatch outlet now)

def serve [Host] (outlet : Outlet) (now : Instant) (signals : List Signal) (s : Station) :
    Outcome Station Effect :=
  ((s.read signals).state.obey now).andThen (dispatch outlet now)

theorem serve_task [Host] (outlet : Outlet) (now : Instant) (signals : List Signal) (s : Station) :
    (s.serve outlet now signals).state.task = s.task :=
  (dispatch_plays outlet now _).task.trans (obey_plays now _).task

theorem work_eq [Host] (on : Bool) {commands : List Command} {done : Outcome Sequencer Effect}
    {put : Outcome Station Effect} (duties : duties s.name now commands s.sequencer = done)
    (dispatched : (s.post (events s.name done.reports)).dispatch outlet now = put) :
    s.work outlet now on commands = ⟨put.state.refit on done.state, done.reports ++ put.reports⟩ := by
  rw [work, duties, andThen, dispatch_refit, dispatched]

theorem serve_eq [Host] (outlet : Outlet) (now : Instant) (free : s.commands = [])
    (signals : List Signal) :
    s.serve outlet now signals = s.work outlet now (s.task.trigger.findings s.isOn signals).1
      (s.task.trigger.orders s.isOn signals) := by
  obtain ⟨task, isOn, sequencer, commands, outbox, inFlight⟩ := s
  obtain rfl : commands = [] := free
  have obeyed := each_comply_eq now (task.trigger.orders isOn signals)
    ⟨task, (task.trigger.findings isOn signals).1, sequencer, [], outbox, inFlight⟩
  exact congrArg (andThen · (dispatch outlet now)) obeyed

theorem serve_nothing [Host] (outlet : Outlet) (now : Instant) (free : s.commands = [])
    (flows : s.Flows) : s.serve outlet now [] = .still s := by
  have waits : s.dispatch outlet now = .still s := by
    cases flying : s.inFlight with
    | some call => simp [dispatch_eq, flying]
    | none => simp [dispatch_eq, flying, flows flying]
  have same : s.post [] = s := by simp [post]
  rw [serve_eq outlet now free]
  have nothing : duties s.name now [] s.sequencer = .still s.sequencer := rfl
  exact work_eq s.isOn nothing ((congrArg (dispatch outlet now) same).trans waits)

structure Worked (s t : Station) (on : Bool) : Prop where
  task : t.task = s.task
  isOn : t.isOn = on
  commands : t.commands = s.commands
  flows : t.Flows

theorem work_worked [Host] (outlet : Outlet) (now : Instant) (on : Bool) (commands : List Command)
    (s : Station) : Worked s (s.work outlet now on commands).state on := by
  have worked : s.work outlet now on commands = _ := work_eq on rfl rfl
  rw [worked]
  exact ⟨dispatch_reaches.task, rfl, dispatch_commands _ _ _, dispatch_flows _ _ _⟩

theorem serve_worked [Host] (outlet : Outlet) (now : Instant) (free : s.commands = [])
    (signals : List Signal) : Worked s (s.serve outlet now signals).state
      (s.task.trigger.findings s.isOn signals).1 := by
  rw [serve_eq outlet now free]
  exact work_worked outlet now _ _ s

theorem duties_append (name : String) (now : Instant) (commands more : List Command)
    (q : Sequencer) : duties name now (commands ++ more) q =
      (duties name now commands q).andThen (duties name now more) :=
  each_append (duty name now) commands more q

theorem work_twice [Host] (flows : s.Flows) (on last : Bool) (commands more : List Command) :
    let first := s.work outlet now on commands
    let second := first.state.work outlet now last more
    let whole := s.work outlet now last (commands ++ more)
    whole.state = second.state ∧ Retells s.name whole.reports (first.reports ++ second.reports) := by
  intro first second whole
  let done := duties s.name now commands s.sequencer
  let next := duties s.name now more done.state
  let put := (s.post (events s.name done.reports)).dispatch outlet now
  let putNext := (put.state.post (events s.name next.reports)).dispatch outlet now
  have one : first = ⟨put.state.refit on done.state, done.reports ++ put.reports⟩ :=
    work_eq on rfl rfl
  have task : put.state.task = s.task := dispatch_reaches.task
  have named : (put.state.refit on done.state).name = s.name := congrArg Task.name task
  have two : second = ⟨putNext.state.refit last next.state, next.reports ++ putNext.reports⟩ := by
    have duties : duties (put.state.refit on done.state).name now more done.state = next := by
      rw [named]
    have refitted : ((put.state.refit on done.state).post (events s.name next.reports)).dispatch
        outlet now = ⟨putNext.state.refit on done.state, putNext.reports⟩ :=
      dispatch_refit on done.state (put.state.post (events s.name next.reports))
    rw [← named] at refitted
    have worked := work_eq last duties refitted
    change first.state.work outlet now last more = _
    rw [one]
    exact worked
  -- Together all commands are taken up before any event is put out.
  have all : whole = ⟨putNext.state.refit last next.state,
      (done.reports ++ next.reports) ++ (put.reports ++ putNext.reports)⟩ := by
    have duties : duties s.name now (commands ++ more) s.sequencer = done.andThen fun _ => next :=
      duties_append s.name now commands more s.sequencer
    have dispatched := dispatch_twice outlet now flows (events s.name done.reports)
      (events s.name next.reports)
    rw [← events_append] at dispatched
    exact work_eq last duties dispatched
  rw [one, two, all]
  have moveless : doings s.name put.reports = [] :=
    dispatch_doings outlet now (s.post (events s.name done.reports))
  exact ⟨rfl, retells_swapped (callings_duties s.name now more done.state) moveless⟩

theorem read_twice [Host] (outlet : Outlet) (now : Instant) (free : s.commands = [])
    (before after : List Signal) :
    (s.read (before ++ after)).reports = (s.read before).reports ++
      ((s.serve outlet now before).state.read
        (if s.task.trigger.closed before then [] else after)).reports := by
  have worked := serve_worked outlet now free before
  simp only [read, worked.task, worked.isOn, Trigger.findings_append]

/-- A station that reads two batches of signals one after the other does what it does for both at once.
What is behind the end of the feed is not read in either case. -/
theorem serve_twice [Host] (outlet : Outlet) (now : Instant) (free : s.commands = [])
    (flows : s.Flows) (before after : List Signal) :
    let first := s.serve outlet now before
    let second := first.state.serve outlet now (if s.task.trigger.closed before then [] else after)
    let whole := s.serve outlet now (before ++ after)
    whole.state = second.state ∧ Retells s.name whole.reports (first.reports ++ second.reports) := by
  intro first second whole
  let rest := if s.task.trigger.closed before then [] else after
  let found := s.task.trigger.findings s.isOn before
  -- Once the feed is closed nothing more is found in what is left to read.
  have both : s.task.trigger.findings s.isOn (before ++ after) =
      ((s.task.trigger.findings found.1 rest).1,
        found.2 ++ (s.task.trigger.findings found.1 rest).2) := Trigger.findings_append _ _ _ _
  have orders : s.task.trigger.orders s.isOn (before ++ after) =
      s.task.trigger.orders s.isOn before ++ s.task.trigger.orders found.1 rest := by
    rw [Trigger.orders, both, List.filterMap_append]
    rfl
  have one : first = s.work outlet now found.1 (s.task.trigger.orders s.isOn before) :=
    serve_eq outlet now free before
  have two : second = first.state.work outlet now (s.task.trigger.findings found.1 rest).1
      (s.task.trigger.orders found.1 rest) := by
    have worked := serve_worked outlet now free before
    have served := serve_eq outlet now (worked.commands.trans free) rest
    rw [worked.task, worked.isOn] at served
    exact served
  have all : whole = s.work outlet now (s.task.trigger.findings found.1 rest).1
      (s.task.trigger.orders s.isOn before ++ s.task.trigger.orders found.1 rest) := by
    rw [← orders, ← congrArg Prod.fst both]
    exact serve_eq outlet now free (before ++ after)
  rw [two, all, one]
  exact work_twice flows _ _ _ _

end Station
end Cadence
