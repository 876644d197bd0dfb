import Cadence.Proofs.Controller.Agreement
import Cadence.Proofs.Controller.Lull
import Cadence.Proofs.Station.Batches
import Mathlib.Algebra.Group.Int.Defs

namespace Cadence
open Outcome Effect

namespace Bus
variable {ρ α : Type} [DecidableEq ρ] {bus : Bus ρ α} {reader : ρ} {path? : Option String}

def Attends (reader : ρ) (path? : Option String) (bus : Bus ρ α) : Prop :=
  (bus.of reader).subscriptions = path?.toList.map fun path => ⟨reader, path, []⟩

def share (path? : Option String) (signals : List (String × α)) : List α :=
  path?.elim [] fun path => published path signals

@[simp] theorem share_append (path? : Option String) (signals more : List (String × α)) :
    share path? (signals ++ more) = share path? signals ++ share path? more := by
  cases path? <;> simp [share]

theorem attends (nodup : bus.readers.Nodup) (read : ∀ s ∈ bus.subscriptions, s.queue = [])
    (reader : ρ) : ∃ path?, bus.Attends reader path? := by
  have own : ∀ s ∈ (bus.of reader).subscriptions, s.reader = reader ∧ s.queue = [] := by
    intro s member
    obtain ⟨among, same⟩ := List.mem_filter.mp member
    exact ⟨by simpa using same, read s among⟩
  have distinct : ((bus.of reader).subscriptions.map (·.reader)).Nodup :=
    nodup.sublist (List.filter_sublist.map _)
  unfold Attends
  generalize (bus.of reader).subscriptions = subscriptions at own distinct ⊢
  cases subscriptions with
  | nil => exact ⟨none, rfl⟩
  | cons s rest =>
      obtain ⟨rfl, empty⟩ := own s List.mem_cons_self
      obtain rfl : rest = [] := by
        cases rest with
        | nil => rfl
        | cons t others => simp [own t (by simp)] at distinct
      refine ⟨some s.path, ?_⟩
      simp [← empty]

theorem Attends.carried (attends : bus.Attends reader path?) (signals : List (String × α)) :
    ((bus.carry signals).of reader).subscriptions =
      path?.toList.map fun path => ⟨reader, path, published path signals⟩ := by
  rw [of_carry, carry_subscriptions, attends, List.map_map]
  rfl

theorem Attends.queued (attends : bus.Attends reader path?) (signals : List (String × α)) :
    (bus.carry signals).queued reader = share path? signals := by
  rw [← queued_of, Bus.queued, attends.carried]
  cases path? <;> simp [share]

theorem Attends.asleep {signals : List (String × α)} (attends : bus.Attends reader path?)
    (asleep : reader ∉ woken signals bus) : share path? signals = [] := by
  cases path? with
  | none => rfl
  | some path =>
      by_contra filled
      have own : ⟨reader, path, []⟩ ∈ (bus.of reader).subscriptions := by
        rw [attends]
        simp
      exact asleep (mem_woken.mpr ⟨_, (List.mem_filter.mp own).1, rfl, rfl, filled⟩)

end Bus

namespace Controller
variable {c d : Controller} {s t : Station} {name : String} {path? : Option String}
  {history : List Effect} {o p q : Outcome Controller Effect}

theorem drawn_attends [Host] {bus : Bus String Signal} (attends : bus.Attends s.name path?)
    (signals : List (String × Signal)) : (drawn s (bus.carry signals)).Attends s.name
      (if s.task.trigger.closed (Bus.share path? signals) then none else path?) := by
  have queued := attends.queued signals
  have carried := attends.carried signals
  have taken : ((bus.carry signals).take s.name (Bus.share path? signals).length).Attends s.name
      path? := by
    rw [Bus.Attends, Bus.of_take, Bus.take, carried]
    cases path? <;> simp [Bus.share]
  rw [drawn, queued]
  split
  · rw [Bus.Attends, Bus.of_close]
    simp [Bus.close, Bus.of]
  · exact taken

theorem drawn_twice [Host] {bus bus' : Bus String Signal} {first : List (String × Signal)}
    (attends : bus.Attends s.name path?) (task : t.task = s.task)
    (same : bus'.of s.name = (drawn s (bus.carry first)).of s.name) (rest : List (String × Signal)) :
    (drawn s (bus.carry (first ++ rest))).of s.name = (drawn t (bus'.carry rest)).of s.name := by
  have named : t.name = s.name := congrArg Task.name task
  have last : bus'.last = (bus.carry first).last :=
    (congrArg Bus.last same).trans (drawn_last s (bus.carry first))
  let path' := if s.task.trigger.closed (Bus.share path? first) then none else path?
  have attends' : bus'.Attends t.name path' := by
    rw [named, Bus.Attends, same]
    exact drawn_attends attends first
  have whole := drawn_attends attends (first ++ rest)
  have parts := drawn_attends attends' rest
  rw [named, task] at parts
  have open? : (if s.task.trigger.closed (Bus.share path? (first ++ rest)) then none else path?) =
      if s.task.trigger.closed (Bus.share path' rest) then none else path' := by
    rw [Bus.share_append, Trigger.closed_append]
    cases closes : s.task.trigger.closed (Bus.share path? first) <;> simp [path', closes]
  refine congrArg₂ Bus.mk ?_ (whole.trans (open? ▸ parts.symm))
  rw [drawn_last, drawn_last, Bus.carry_append]
  exact Bus.carry_last rest last.symm

/-! ## A batch of signals at a lull -/

structure Answers (name : String) (found : List Finding) (served : Outcome Station Effect)
    (bus : Bus String Signal) (c : Controller) (o : Outcome Controller Effect) : Prop where
  station : o.state.station? name = some served.state
  bus : o.state.bus.of name = bus.of name
  active : name ∈ o.state.active ↔ name ∈ marks name found c.active
  armed : ∀ owner, owner.task? = some name →
    (owner ∈ o.state.agenda ↔ owner ∈ c.agenda ∨ .armed owner ∈ served.reports)
  outlet : o.state.outlet = c.outlet
  now : o.state.now = c.now
  doings : doings name o.reports = doings name served.reports
  callings : callings name o.reports = callings name served.reports

theorem doings_own (name : String) (effects : List Effect) :
    doings name (own name effects) = doings name effects := by
  rw [own, Effect.doings, List.filterMap_filter]
  apply List.filterMap_congr
  intro effect _
  cases effect with
  | commanded other command => by_cases same : other = name <;> simp [task?, doing?, same]
  | happened other event time => by_cases same : other = name <;> simp [task?, doing?, same]
  | called other call time => simp [doing?]
  | _ => rfl

theorem callings_own (name : String) (effects : List Effect) :
    callings name (own name effects) = callings name effects := by
  rw [own, Effect.callings, List.filterMap_filter]
  apply List.filterMap_congr
  intro effect _
  cases effect with
  | called other call time => by_cases same : other = name <;> simp [task?, calling?, same]
  | _ => simp [calling?]

theorem mem_arm {owner : Owner} (effects : List Effect) (agenda : List Owner) :
    owner ∈ effects.foldl arm agenda ↔ owner ∈ agenda ∨ .armed owner ∈ effects := by
  induction effects generalizing agenda with
  | nil => simp
  | cons effect rest ih =>
      rw [List.foldl_cons, ih]
      cases effect with
      | armed other =>
          by_cases same : owner = other
          · simp [arm, same]
          · simp [arm, same]
      | _ => simp [arm]

theorem setStation_setStation {t u : Station} (same : u.name = t.name) (c : Controller) :
    (c.setStation t).setStation u = c.setStation u := by
  simp only [setStation, List.map_map]
  congr 1
  apply List.map_congr_left
  intro s _
  by_cases own : s.name = t.name <;> simp [own, same]

theorem visit_visit {first second : Station → Outcome Station Effect}
    (one : ∀ s, (first s).state.task = s.task) (other : ∀ s, (second s).state.task = s.task)
    (name : String) (c : Controller) :
    (c.visit first name).andThen (fun d => d.visit second name) =
      c.visit (fun s => (first s).andThen second) name := by
  cases found : c.station? name with
  | none => simp [visit_missing _ found, andThen, still]
  | some s =>
      obtain rfl := (station?_some found).2
      have named : (first s).state.name = s.name := congrArg Task.name (one s)
      have named' : (second (first s).state).state.name = (first s).state.name :=
        congrArg Task.name (other _)
      have once := visit_found first found
      have again : (c.visit first s.name).state.station? s.name = some (first s).state := by
        rw [once]
        rw [← named] at found ⊢
        exact station?_setStation_self (t := (first s).state) found
      have twice := setStation_setStation named' c
      rw [andThen, visit_found _ again, once, visit_found _ found]
      simp only [andThen_state, andThen_reports, List.foldl_append, ← twice]
      rfl

theorem settle_one [Host] (name : String) (c : Controller) : c.settle [name] =
    (c.readFeed name).andThen fun d =>
      d.visit (fun s => (s.obey d.now).andThen (Station.dispatch d.outlet d.now)) name := by
  have visited (d : Controller) : (d.obey name).andThen (dispatch name) =
      d.visit (fun s => (s.obey d.now).andThen (Station.dispatch d.outlet d.now)) name := by
    rw [← visit_visit (fun s => (s.obey_plays d.now).task)
      fun s => (s.dispatch_plays d.outlet d.now).task]
    have outlet : (d.obey name).state.outlet = d.outlet :=
      congrArg Fixed.outlet (visit_fixed _ name d)
    have now : (d.obey name).state.now = d.now := visit_now _ name d
    simp only [andThen, dispatch, outlet, now]
    rfl
  rw [← funext visited]
  simp only [settle, each_cons, each_nil, andThen, still, List.append_nil, List.append_assoc]

theorem settle_answers [Host] (found : c.station? s.name = some s) (bus : Bus String Signal) :
    Answers s.name (s.read (bus.queued s.name)).reports
      (s.serve c.outlet c.now (bus.queued s.name)) (drawn s bus) c
      (({ c with bus := bus } : Controller).settle [s.name]) := by
  let d : Controller := { c with bus := bus }
  let served := s.serve d.outlet d.now (d.bus.queued s.name)
  have found' : d.station? s.name = some s := found
  have named : served.state.name = s.name := congrArg Task.name (Station.serve_task _ _ _ s)
  have reads := readFeed_station found'
  have state := readFeed_eq found'
  have now := readFeed_now s.name d
  have outlet : (d.readFeed s.name).state.outlet = d.outlet := by
    rw [state]
    rfl
  have worked := visit_found (fun s => (s.obey d.now).andThen (Station.dispatch d.outlet d.now)) reads
  have silent := readFeed_own s.name s.name d
  -- A feed that is read neither moves the sequencer nor calls anything.
  have moveless : doings s.name (d.readFeed s.name).reports = [] := by
    rw [← doings_own, silent]
    rfl
  have callless : callings s.name (d.readFeed s.name).reports = [] := by
    rw [← callings_own, silent]
    rfl
  change Answers s.name (s.read (d.bus.queued s.name)).reports served (drawn s d.bus) c
    (d.settle [s.name])
  rw [settle_one, andThen, now, outlet, worked]
  refine ⟨?_, congrArg (·.bus.of s.name) state, ?_, ?_, outlet, now, ?_, ?_⟩
  · have placed := station?_setStation (d.readFeed s.name).state served.state s.name
    rw [reads, Option.map_some] at placed
    exact placed.trans (congrArg some (if_pos named.symm))
  · change s.name ∈ (d.readFeed s.name).state.active ↔ _
    rw [state]
  · intro owner _
    have unchanged : (d.readFeed s.name).state.agenda = c.agenda := by
      rw [state]
      rfl
    rw [← unchanged]
    exact mem_arm served.reports _
  · rw [doings_append, moveless]
    rfl
  · rw [callings_append, callless]
    rfl

theorem drawn_nothing [Host] {bus : Bus String Signal} (nothing : bus.queued s.name = []) :
    drawn s bus = bus := by
  simp [drawn, nothing, Trigger.closed, Bus.take]

theorem mem_agenda {owner : Owner} (same : o.state.view name = p.state.view name)
    (own : owner.task? = some name) : owner ∈ o.state.agenda ↔ owner ∈ p.state.agenda := by
  have timers : o.state.agenda.filter (fun owner => owner.task? = some name) =
      p.state.agenda.filter fun owner => owner.task? = some name := congrArg View.timers same
  have among : owner ∈ o.state.agenda.filter (fun owner => owner.task? = some name) ↔
      owner ∈ p.state.agenda.filter fun owner => owner.task? = some name := by rw [timers]
  simpa [own] using among

theorem mem_active (same : o.state.view name = p.state.view name) :
    name ∈ o.state.active ↔ name ∈ p.state.active := by
  have active : o.state.active.contains name = p.state.active.contains name :=
    congrArg View.isActive same
  rwa [Bool.eq_iff_iff, List.contains_iff_mem, List.contains_iff_mem] at active

theorem Agree.doings (agree : Agree name o p) : doings name o.reports = doings name p.reports := by
  rw [← doings_own, agree.own, doings_own]

theorem Agree.callings (agree : Agree name o p) :
    callings name o.reports = callings name p.reports := by
  rw [← callings_own, agree.own, callings_own]

theorem Answers.of_agree {found : List Finding} {served : Outcome Station Effect}
    {bus : Bus String Signal} (agree : Agree name o p) (answers : Answers name found served bus c p) :
    Answers name found served bus c o := by
  have view := agree.view
  exact ⟨(view_station view).trans answers.station, (congrArg View.bus view).trans answers.bus,
    (mem_active view).trans answers.active,
    fun owner own => (mem_agenda view own).trans (answers.armed owner own),
    (congrArg View.outlet view).trans answers.outlet, agree.now.trans answers.now,
    agree.doings.trans answers.doings, agree.callings.trans answers.callings⟩

theorem publish_asleep [Host] {signals : List (String × Signal)}
    (asleep : name ∉ Bus.woken signals c.bus) :
    Agree name (c.publish signals) (.still { c with bus := c.bus.carry signals }) := by
  have others : ∀ other ∈ Bus.woken signals c.bus, other ≠ name := by
    rintro other woken rfl
    exact asleep woken
  obtain ⟨view, now, silent⟩ := settle_other others { c with bus := c.bus.carry signals }
  rw [publish_eq]
  exact ⟨view, now, silent⟩

theorem publish_answers [Host] (lull : c.Lull history) (flowing : c.Flowing history)
    (found : c.station? name = some s) (attends : c.bus.Attends name path?)
    (signals : List (String × Signal)) :
    Answers name (s.read (Bus.share path? signals)).reports
      (s.serve c.outlet c.now (Bus.share path? signals)) (drawn s (c.bus.carry signals)) c
      (c.publish signals) := by
  obtain ⟨among, rfl⟩ := station?_some found
  let told : Controller := { c with bus := c.bus.carry signals }
  have queued := attends.queued signals
  by_cases awake : s.name ∈ Bus.woken signals c.bus
  · have alone : (Bus.woken signals c.bus).filter (fun other => other = s.name) =
        [s.name].filter fun other => other = s.name := by
      have once := List.count_eq_one_of_mem (Bus.woken_nodup lull.readers) awake
      rw [List.filter_eq, once]
      simp
    rw [publish_eq, ← queued]
    exact .of_agree (settle_agrees alone told told rfl rfl) (settle_answers found _)
  · have nothing := attends.asleep awake
    have rests := Station.serve_nothing c.outlet c.now (lull.obeyed s among) (flowing s among)
    refine .of_agree (publish_asleep awake) ?_
    rw [nothing, drawn_nothing (queued.trans nothing), rests]
    exact ⟨found, rfl, Iff.rfl, fun _ _ => by simp, rfl, rfl, rfl, rfl⟩

/-! ## One burst or many -/

/-- Two ways to the same end of a task. It is told the same commands, has the same events and the same
calls at the same times, and its station is left in the same state, with the same timers to come. -/
structure SameEnd (name : String) (o p : Outcome Controller Effect) : Prop where
  station : o.state.station? name = p.state.station? name
  bus : o.state.bus.of name = p.state.bus.of name
  active : name ∈ o.state.active ↔ name ∈ p.state.active
  armed : ∀ owner, owner.task? = some name → (owner ∈ o.state.agenda ↔ owner ∈ p.state.agenda)
  now : o.state.now = p.state.now
  doings : doings name o.reports = doings name p.reports
  callings : callings name o.reports = callings name p.reports

theorem SameEnd.trans (first : SameEnd name o p) (second : SameEnd name p q) : SameEnd name o q :=
  ⟨first.station.trans second.station, first.bus.trans second.bus, first.active.trans second.active,
    fun owner own => (first.armed owner own).trans (second.armed owner own),
    first.now.trans second.now, first.doings.trans second.doings,
    first.callings.trans second.callings⟩

theorem SameEnd.behind {next next' : Controller → Outcome Controller Effect}
    (same : SameEnd name (next o.state) (next' o.state)) :
    SameEnd name (o.andThen next) (o.andThen next') :=
  ⟨same.station, same.bus, same.active, same.armed, same.now, by simp [same.doings],
    by simp [same.callings]⟩

theorem Agree.sameEnd (agree : Agree name o p) : SameEnd name o p :=
  ⟨view_station agree.view, congrArg View.bus agree.view, mem_active agree.view,
    fun _ => mem_agenda agree.view, agree.now, agree.doings, agree.callings⟩

theorem Answers.twice {next : Controller → Outcome Controller Effect} {early late : List Finding}
    {first second whole : Outcome Station Effect} {bus bus' bus'' : Bus String Signal}
    (one : Answers name early first bus c o)
    (other : Answers name late second bus' o.state (next o.state))
    (all : Answers name (early ++ late) whole bus'' c p) (state : whole.state = second.state)
    (retells : Retells name whole.reports (first.reports ++ second.reports))
    (sameBus : bus''.of name = bus'.of name) : SameEnd name p (o.andThen next) := by
  refine ⟨?_, ?_, ?_, ?_, ?_, ?_, ?_⟩
  · rw [all.station, state]
    exact other.station.symm
  · exact all.bus.trans (sameBus.trans other.bus.symm)
  · have marked : marks name (early ++ late) c.active = marks name late (marks name early c.active) :=
      List.foldl_append
    rw [all.active, marked]
    exact (mem_marks_congr late one.active).symm.trans other.active.symm
  · intro owner own
    rw [all.armed owner own, retells.armed, List.mem_append, ← or_assoc, ← one.armed owner own]
    exact (other.armed owner own).symm
  · exact all.now.trans (other.now.trans one.now).symm
  · rw [all.doings, retells.doings, andThen_reports, doings_append, doings_append, one.doings,
      other.doings]
  · rw [all.callings, retells.callings, andThen_reports, callings_append, callings_append,
      one.callings, other.callings]

theorem publish_unmanned [Host] (listed : c.Listed history) (missing : c.station? name = none)
    (signals : List (String × Signal)) :
    Agree name (c.publish signals) (.still { c with bus := c.bus.carry signals }) := by
  apply publish_asleep
  intro woken
  obtain ⟨subscription, member, rfl⟩ := List.mem_map.mp (Bus.readers_of_woken woken)
  exact station?_none missing (listed.readers subscription member)

/-- A batch does for each task what its two parts do one after the other. -/
theorem publish_twice [Host] (lull : c.Lull history) (flowing : c.Flowing history)
    (first rest : List (String × Signal)) (name : String) :
    SameEnd name (c.publish (first ++ rest)) ((c.publish first).andThen (publish rest)) := by
  cases found : c.station? name with
  | none =>
      let told : Controller := { c with bus := c.bus.carry first }
      have whole := publish_unmanned lull.listed found (first ++ rest)
      have one := publish_unmanned lull.listed found first
      have other := (publish_agrees rest (c.publish first).state told one.view one.now).trans
        (publish_unmanned (carry_listed first lull.listed) found rest)
      have both : Agree name ((c.publish first).andThen (publish rest))
          ((Outcome.still told).andThen fun d => .still { d with bus := d.bus.carry rest }) :=
        one.andThen other
      rw [Bus.carry_append] at whole
      exact Agree.sameEnd (whole.trans both.symm)
  | some s =>
      obtain ⟨among, rfl⟩ := station?_some found
      obtain ⟨path?, attends⟩ := Bus.attends lull.readers lull.read s.name
      let before := Bus.share path? first
      let t := (s.serve c.outlet c.now before).state
      let path' := if s.task.trigger.closed before then none else path?
      have task : t.task = s.task := Station.serve_task _ _ _ s
      have one := publish_answers lull flowing found attends first
      have attends' : (c.publish first).state.bus.Attends s.name path' := by
        rw [Bus.Attends, one.bus]
        exact drawn_attends attends first
      have other := publish_answers (publish_lull first c history lull)
        (flowing_stepwise.publish first c history flowing) one.station attends' rest
      have all := publish_answers lull flowing found attends (first ++ rest)
      -- Of the second batch only that is read which comes in before the feed is closed.
      have left : Bus.share path' rest =
          if s.task.trigger.closed before then [] else Bus.share path? rest := by
        dsimp only [path']
        split <;> rfl
      rw [Bus.share_append] at all
      rw [left, one.outlet, one.now] at other
      have free := lull.obeyed s among
      rw [Station.read_twice c.outlet c.now free] at all
      obtain ⟨state, retells⟩ := Station.serve_twice c.outlet c.now free (flowing s among) before
        (Bus.share path? rest)
      exact one.twice other all state retells (drawn_twice attends task one.bus rest)

theorem publish_singly [Host] (lull : c.Lull history) (flowing : c.Flowing history)
    (signals : List (String × Signal)) (name : String) :
    SameEnd name (c.publish signals) (run (signals.map fun signal => .publish [signal]) c) := by
  induction signals generalizing c history with
  | nil => exact ⟨rfl, rfl, Iff.rfl, fun _ _ => Iff.rfl, rfl, rfl, rfl⟩
  | cons signal rest ih =>
      have later := ih (publish_lull [signal] c history lull)
        (flowing_stepwise.publish [signal] c history flowing)
      exact (publish_twice lull flowing [signal] rest name).trans later.behind

/-- Signals that come in together lead each task to the same end as the same signals one by one,
wherever a controller has got to. -/
theorem burst_singly [Host] {tasks : List Task} {outlet : Outlet} {fresh : Controller}
    (created : create tasks outlet = .ok fresh) (steps : List Step)
    (signals : List (String × Signal)) (name : String) :
    SameEnd name ((run steps fresh).state.publish signals)
      (run (signals.map fun signal => .publish [signal]) (run steps fresh).state) :=
  publish_singly (created_lull created steps) (created_flowing created steps) signals name

theorem evening_burst :
    let late : Task := { evening with name := "late" }
    let dawn : Task :=
      { night with name := "dawn", trigger := ⟨.switch, "switches.bow", some (.whole 1)⟩ }
    let fresh := idle [evening, late, night, dawn] sluggish
    let steps : List Step :=
      [.start, .publish [("switches.deck", .value (.whole 1))], .advance 1.125]
    let signals : List (String × Signal) := [("switches.mast", .value (.whole 1)),
      ("switches.bow", .value (.whole 1)), ("switches.deck", .value (.whole 0)),
      ("switches.mast", .value (.whole 0)), ("switches.deck", .value (.whole 1)),
      ("switches.mast", .value (.whole 1)), ("switches.deck", .value (.whole (10 ^ 4300))),
      ("switches.deck", .value (.whole 1))]
    let singles := signals.map fun signal => Step.publish [signal]
    create [evening, late, night, dawn] sluggish = .ok fresh ∧
      (run steps fresh).state.active = ["evening", "late"] ∧
      ((run steps fresh).state.publish signals).state.active = ["night", "dawn"] ∧
      (run singles (run steps fresh).state).state.active = ["dawn", "night"] ∧
      ∀ name, SameEnd name ((run steps fresh).state.publish signals)
        (run singles (run steps fresh).state) := by
  intro late dawn fresh steps signals singles
  have created : create [evening, late, night, dawn] sluggish = .ok fresh := rfl
  refine ⟨created, ?_, ?_, ?_, burst_singly created steps signals⟩
  · decide +kernel
  · decide +kernel
  · decide +kernel

end Controller
end Cadence
