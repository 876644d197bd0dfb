import Cadence.Proofs.Controller.Alone

/-!
Tasks do not interfere. Among other tasks a task goes through the same states, gives the same effects
and is active at the same times as in a controller of its own.
-/

namespace Cadence.Controller
open Outcome Effect

variable {name : String} {c d : Controller} {task : Task} {limit : Nat}

/-! ## Beats -/

def advanceWithin [Host] (limit : Nat) (seconds : Float) (c : Controller) :
    Outcome Controller Effect :=
  (fireBy (c.now.after seconds) limit c).andThen fun d => .still (d.arriveAt (c.now.after seconds))

def Beat.pass [Host] (limit : Nat) : Beat → Controller → Outcome Controller Effect
  | .publish signals => Controller.publish signals
  | .advance seconds => advanceWithin limit seconds

theorem pass_patience [Host] (beat : Beat) : beat.pass patience = perform beat.step := by
  cases beat <;> rfl

/-- Whether a beat is over within the limit: no timer is left that is due by its end. -/
def Beat.ends [Host] (limit : Nat) : Beat → Controller → Bool
  | .publish _, _ => true
  | .advance seconds, c =>
      ((fireBy (c.now.after seconds) limit c).state.nextBy? (c.now.after seconds)).isNone

def allEnd [Host] (limit : Nat) : List Beat → Controller → Bool
  | [], _ => true
  | beat :: rest, c => beat.ends limit c && allEnd limit rest (beat.pass limit c).state

@[simp] theorem settle_alarm [Host] (names : List String) (c : Controller) :
    (c.settle names).state.alarm = c.alarm := by
  have visits (step : Controller → Station → Outcome Station Effect) (name : String) :
      Keeps (fun (d : Controller) (_ : List Effect) => d.alarm = c.alarm)
        fun d => d.visit (step d) name := by
    intro d _ same
    exact (visit_alarm (step d) name d).trans same
  have reads (name : String) :
      Keeps (fun (d : Controller) (_ : List Effect) => d.alarm = c.alarm) (readFeed name) := by
    intro d _ same
    cases found : d.station? name with
    | none => simpa [readFeed, found] using same
    | some s =>
        rw [readFeed_eq found]
        exact same
  exact settle_keeps (fun name _ => reads name) (fun name _ => visits _ name)
    (fun name _ => visits _ name) c [] rfl

theorem publish_alone [Host] (signals : List (String × Signal)) (alone : c.Alone name) :
    (c.publish signals).state.Alone name := by
  refine ⟨?_, ?_⟩
  · rw [publish_shape]
    exact alone.names
  · rw [publish_eq, settle_alarm]
    exact alone.alarm

theorem arriveAt_past {target : Instant} (past : c.nextBy? target = none) :
    c.arriveAt target = { c with now := target } := by
  simp [arriveAt, past]

theorem beat_alone [Host] (beat : Beat) (alone : d.Alone name) (same : c.view name = d.view name)
    (now : c.now = d.now) (ends : beat.ends limit c = true) :
    Agree name (beat.pass limit c) (beat.pass limit d) ∧ (beat.pass limit d).state.Alone name ∧
      beat.ends limit d = true := by
  cases beat with
  | publish signals =>
      exact ⟨publish_agrees signals c d same now, publish_alone signals alone, rfl⟩
  | advance seconds =>
      have past := Option.isNone_iff_eq_none.mp ends
      obtain ⟨fewer, within, view, own, alone'⟩ := fireBy_alone limit alone same
      have past' := nextBy?_none alone' view past
      have enough := fireBy_more past' within
      rw [← enough, now] at view own past' alone'
      rw [now] at past
      have ended : Beat.ends limit (.advance seconds) d = true := Option.isNone_iff_eq_none.mpr past'
      refine ⟨⟨?_, ?_, ?_⟩, ?_, ended⟩
      · simp only [Beat.pass, advanceWithin, andThen_state, still_state, now, arriveAt_past past,
          arriveAt_past past']
        exact view
      · simp only [Beat.pass, advanceWithin, andThen_state, still_state, now, arriveAt_past past,
          arriveAt_past past']
      · simpa [Beat.pass, advanceWithin, now] using own
      · simp only [Beat.pass, advanceWithin, andThen_state, still_state, arriveAt_past past']
        exact ⟨alone'.names, alone'.alarm⟩

def pass [Host] (limit : Nat) : List Beat → Controller → Outcome Controller Effect :=
  Outcome.each (Beat.pass limit)

theorem beats_alone [Host] (beats : List Beat) (alone : d.Alone name)
    (same : c.view name = d.view name)
    (now : c.now = d.now) (ends : allEnd limit beats c = true) :
    allEnd limit beats d = true ∧ ∀ sofar, sofar <+: beats →
      Agree name (pass limit sofar c) (pass limit sofar d) ∧
        (pass limit sofar d).state.Alone name := by
  induction beats generalizing c d with
  | nil =>
      refine ⟨rfl, ?_⟩
      intro sofar start
      rw [List.prefix_nil.mp start]
      exact ⟨⟨same, now, rfl⟩, alone⟩
  | cons beat rest ih =>
      simp only [allEnd, Bool.and_eq_true] at ends ⊢
      obtain ⟨agree, alone', ended⟩ := beat_alone beat alone same now ends.1
      obtain ⟨ended', agrees⟩ := ih alone' agree.view agree.now ends.2
      refine ⟨⟨ended, ended'⟩, ?_⟩
      intro sofar start
      rcases List.prefix_cons_iff.mp start with rfl | ⟨more, rfl, later⟩
      · exact ⟨⟨same, now, rfl⟩, alone⟩
      · obtain ⟨agree', alone''⟩ := agrees more later
        exact ⟨agree.andThen agree', alone''⟩

/-! ## Starts -/

theorem filter_name {tasks : List Task} (distinct : (tasks.map Task.name).Nodup)
    (member : task ∈ tasks) : tasks.filter (fun other => other.name = task.name) = [task] := by
  induction tasks with
  | nil => cases member
  | cons head rest ih =>
      obtain ⟨apart, distinct'⟩ := List.nodup_cons.mp distinct
      rcases List.mem_cons.mp member with rfl | later
      · rw [List.filter_cons_of_pos (by simp)]
        congr 1
        apply List.filter_eq_nil_iff.mpr
        intro other among same
        exact apart ((of_decide_eq_true same) ▸ List.mem_map_of_mem among)
      · have different : head.name ≠ task.name := by
          intro same
          exact apart (same ▸ List.mem_map_of_mem later)
        rw [List.filter_cons_of_neg (by simpa using different), ih distinct' later]

def manned (c : Controller) : Controller :=
  { c with started := true, stations := c.tasks.map Station.fresh }

theorem manned_view (distinct : (c.tasks.map Task.name).Nodup) (member : task ∈ c.tasks) :
    c.manned.view task.name = { c.view task.name with station := some (.fresh task) } := by
  have names : (c.manned.stations.map Station.name).Nodup := by
    simpa [manned, Function.comp_def, Station.fresh, Station.name] using distinct
  have found : c.manned.station? task.name = some (.fresh task) :=
    station?_of_mem names (List.mem_map_of_mem member)
  simp only [view, found]
  rfl

theorem start_alone [Host] (distinct : (c.tasks.map Task.name).Nodup) (member : task ∈ c.tasks)
    (only : d.tasks = [task]) (resting : c.started = false) (resting' : d.started = false)
    (same : c.view task.name = d.view task.name) (now : c.now = d.now) (calm : d.alarm = none) :
    Agree task.name c.start d.start ∧ d.start.state.Alone task.name := by
  have distinct' : (d.tasks.map Task.name).Nodup := by simp [only]
  have member' : task ∈ d.tasks := by simp [only]
  have filters : c.tasks.filter (fun other => other.name = task.name) =
      d.tasks.filter fun other => other.name = task.name := by
    rw [filter_name distinct member, filter_name distinct' member']
  have engages : Agrees task.name (Outcome.each engage c.tasks) (Outcome.each engage d.tasks) :=
    each_agrees (fun _ own => engage_agrees own) (fun _ different => engage_other different) filters
  have views : c.manned.view task.name = d.manned.view task.name := by
    rw [manned_view distinct member, manned_view distinct' member', same]
  rw [start_fresh resting (List.ne_nil_of_mem member),
    start_fresh resting' (List.ne_nil_of_mem member')]
  refine ⟨Agree.andThen ⟨views, now, rfl⟩ (engages _ _ views now), ?_, ?_⟩
  · intro other among
    rw [only] at among
    simp only [andThen_state, each_cons, each_nil, still_state, settle_shape] at among
    simpa [shape, subscribe, only, Station.fresh, Station.name] using among
  · rw [only]
    simp only [andThen_state, each_cons, each_nil, still_state, settle_alarm]
    exact calm

/-! ## Courses -/

structure Bare (tasks : List Task) (c : Controller) : Prop where
  tasks : c.tasks = tasks
  resting : c.started = false
  unmanned : c.stations = []
  calm : c.alarm = none

theorem Bare.alone {tasks : List Task} (bare : c.Bare tasks) (name : String) : c.Alone name :=
  ⟨by simp [shape, bare.unmanned], bare.calm⟩

theorem Bare.past {tasks : List Task} (bare : c.Bare tasks) (target : Instant) :
    c.nextBy? target = none := by
  apply nextBy?_eq_none.mpr
  intro timer among
  obtain ⟨owner, -, made⟩ := List.mem_filterMap.mp among
  cases owner <;> simp [due?, station?, bare.unmanned, bare.calm] at made

theorem bare_beat [Host] {tasks : List Task} (limit : Nat) (beat : Beat) (bare : c.Bare tasks) :
    beat.ends limit c = true ∧ (beat.pass limit c).state.Bare tasks := by
  cases beat with
  | publish signals =>
      have shape : (c.publish signals).state.shape = c.shape := publish_shape signals c
      simp only [Controller.shape, Shape.mk.injEq, bare.unmanned, List.map_nil,
        List.map_eq_nil_iff] at shape
      obtain ⟨tasks, -, started, stations⟩ := shape
      refine ⟨rfl, tasks.trans bare.tasks, started.trans bare.resting, stations, ?_⟩
      rw [Beat.pass, publish_eq, settle_alarm]
      exact bare.calm
  | advance seconds =>
      have still : fireBy (c.now.after seconds) limit c = .still c := fireBy_past (bare.past _)
      refine ⟨by simp [Beat.ends, still, bare.past], ?_⟩
      simp only [Beat.pass, advanceWithin, still, andThen_state, still_state,
        arriveAt_past (bare.past _)]
      exact ⟨bare.tasks, bare.resting, bare.unmanned, bare.calm⟩

theorem bare_beats [Host] {tasks : List Task} (limit : Nat) (beats : List Beat)
    (bare : c.Bare tasks) :
    allEnd limit beats c = true ∧ (pass limit beats c).state.Bare tasks := by
  induction beats generalizing c with
  | nil => exact ⟨rfl, bare⟩
  | cons beat rest ih =>
      obtain ⟨ends, bare'⟩ := bare_beat limit beat bare
      obtain ⟨ends', bare''⟩ := ih bare'
      exact ⟨by simp [allEnd, ends, ends'], bare''⟩

def course [Host] (limit : Nat) (earlier beats : List Beat) (c : Controller) :
    Outcome Controller Effect :=
  ((pass limit earlier c).andThen start).andThen (pass limit beats)

theorem course_patience [Host] (earlier beats : List Beat) (c : Controller) :
    course patience earlier beats c =
      run (earlier.map Beat.step ++ .start :: beats.map Beat.step) c := by
  have passes (beats : List Beat) : pass patience beats = run (beats.map Beat.step) := by
    induction beats with
    | nil => rfl
    | cons beat rest ih =>
        funext c
        rw [pass, each_cons, pass_patience, ← pass, ih]
        rfl
  rw [run, each_append, course, passes, passes, andThen_assoc]
  rfl

structure SameHistory (task : String) (o p : Outcome Controller Effect) : Prop where
  own : own task o.reports = own task p.reports
  station : o.state.station? task = p.state.station? task
  active : task ∈ o.state.active ↔ task ∈ p.state.active

theorem sameHistory_of_view {o p : Outcome Controller Effect}
    (view : o.state.view name = p.state.view name) (effects : own name o.reports = own name p.reports) :
    SameHistory name o p := by
  refine ⟨effects, view_station view, ?_⟩
  have active : o.state.active.contains name = p.state.active.contains name :=
    congrArg View.isActive view
  rwa [Bool.eq_iff_iff, List.contains_iff_mem, List.contains_iff_mem] at active

/-- A task among others and alone, with the same signals and the same stretches of time. Stretches that
come to an end among the others do so alone; one without an end is one in which some task repeats too
fast for the clock. The task has the same history after each beat, and at each moment of a stretch that
follows, with an end or without, it has the history of some moment alone. -/
theorem together_or_alone [Host] {tasks : List Task} {outlet : Outlet} {together alone : Controller}
    (created : create tasks outlet = .ok together) (member : task ∈ tasks)
    (createdAlone : create [task] outlet = .ok alone) (limit : Nat) (earlier beats : List Beat)
    (ends : allEnd limit beats (course limit earlier [] together).state = true) :
    allEnd limit beats (course limit earlier [] alone).state = true ∧
      ∀ sofar, sofar <+: beats →
        SameHistory task.name (course limit earlier sofar together)
            (course limit earlier sofar alone) ∧
          (course limit earlier sofar together).state.now =
            (course limit earlier sofar alone).state.now ∧
          ∀ target fuel, ∃ fewer, fewer ≤ fuel ∧
            SameHistory task.name (fireBy target fuel (course limit earlier sofar together).state)
              (fireBy target fewer (course limit earlier sofar alone).state) := by
  obtain ⟨distinct, rfl⟩ := create_eq created
  obtain ⟨-, rfl⟩ := create_eq createdAlone
  have bare (tasks : List Task) : (idle tasks outlet).Bare tasks := ⟨rfl, rfl, rfl, rfl⟩
  obtain ⟨endsEarly, before⟩ := bare_beats limit earlier (bare tasks)
  obtain ⟨-, beforeAlone⟩ := bare_beats limit earlier (bare [task])
  -- Before they start, nothing but their tasks tells the controllers apart.
  have same : (idle tasks outlet).view task.name = (idle [task] outlet).view task.name := rfl
  obtain ⟨-, early⟩ := beats_alone earlier ((bare [task]).alone task.name) same rfl endsEarly
  obtain ⟨agreeEarly, -⟩ := early earlier (List.prefix_refl _)
  have distinct' := distinct
  have member' := member
  rw [← before.tasks] at distinct' member'
  obtain ⟨started, alone⟩ := start_alone distinct' member' beforeAlone.tasks before.resting
    beforeAlone.resting agreeEarly.view agreeEarly.now beforeAlone.calm
  obtain ⟨ended, later⟩ := beats_alone beats alone started.view started.now ends
  refine ⟨ended, ?_⟩
  intro sofar start
  obtain ⟨agreeLater, alone'⟩ := later sofar start
  have agree : Agree task.name (course limit earlier sofar (idle tasks outlet))
      (course limit earlier sofar (idle [task] outlet)) :=
    (agreeEarly.andThen started).andThen agreeLater
  refine ⟨sameHistory_of_view agree.view agree.own, agree.now, ?_⟩
  intro target fuel
  obtain ⟨fewer, within, view, own, -⟩ := fireBy_alone fuel alone' agree.view
  exact ⟨fewer, within, sameHistory_of_view view own⟩

def vigil : Task :=
  ⟨"vigil", "switches.deck", ⟨.switch, "switches.deck", some (.whole 1)⟩,
    [{ path := "switches.fan", on := .whole 2, off := some (.whole 0), name := "vigil[activity-0]"
       duration := 0.5, delay := 0, cycles := 0 }]⟩

def deckBeats : List Beat :=
  [.publish [("switches.deck", .value (.whole 1)), ("switches.mast", .value (.whole 1))],
    .advance 1.75, .publish [("switches.mast", .failure "lost")], .advance 4.5,
    .publish [("switches.deck", .value (.whole 0))], .advance 1]

theorem evening_among_others :
    create [vigil, evening, night] sluggish = .ok (idle [vigil, evening, night] sluggish) ∧
      evening ∈ [vigil, evening, night] ∧
      create [evening] sluggish = .ok (idle [evening] sluggish) ∧
      allEnd patience deckBeats
        (course patience [.advance 2] [] (idle [vigil, evening, night] sluggish)).state = true ∧
      SameHistory "evening"
        (run ([.advance 2, .start] ++ deckBeats.map Beat.step)
          (idle [vigil, evening, night] sluggish))
        (run ([.advance 2, .start] ++ deckBeats.map Beat.step) (idle [evening] sluggish)) := by
  have created : create [vigil, evening, night] sluggish =
      .ok (idle [vigil, evening, night] sluggish) := rfl
  have createdAlone : create [evening] sluggish = .ok (idle [evening] sluggish) := rfl
  have member : evening ∈ [vigil, evening, night] := by simp
  have ends : allEnd patience deckBeats
      (course patience [.advance 2] [] (idle [vigil, evening, night] sluggish)).state = true := by
    decide +kernel
  obtain ⟨-, histories⟩ :=
    together_or_alone created member createdAlone patience [.advance 2] deckBeats ends
  obtain ⟨same, -⟩ := histories deckBeats (List.prefix_refl _)
  rw [course_patience, course_patience] at same
  exact ⟨created, member, createdAlone, ends, same⟩

end Cadence.Controller
