import Cadence.Proofs.Controller.Hush
import Cadence.Proofs.Trigger.Mended

namespace Cadence
open Outcome Effect

namespace Effect

def isDeed : Effect → Bool
  | .happened .. | .called .. => true
  | _ => false

/-- What is done: the events and calls of all tasks with their times, in order. -/
def deeds (history : List Effect) : List Effect := history.filter isDeed

@[simp] theorem deeds_append (history effects : List Effect) :
    deeds (history ++ effects) = deeds history ++ deeds effects :=
  List.filter_append _ _

theorem deeds_unowned {effects : List Effect} (unowned : ∀ name, own name effects = []) :
    deeds effects = [] := by
  apply List.filter_eq_nil_iff.mpr
  intro effect member deed
  have owned (name : String) (about : effect.task? = some name) : False := by
    have absent := List.filter_eq_nil_iff.mp (unowned name) effect member
    simp [about] at absent
  cases effect with
  | happened task event time => exact owned task rfl
  | called task call time => exact owned task rfl
  | _ => cases deed

end Effect

namespace Station
variable {s t : Station} {now : Instant} {told : List Command}

theorem obey_hushed (now : Instant) (s : Station) :
    Outcome.each (comply now) s.commands s.hushed =
      ⟨(s.obey now).state.hushed, (s.obey now).reports⟩ :=
  complies_numb now s.commands { s with commands := [] }

theorem comply_stop_idle (idle : s.sequencer.isIdle = true) :
    s.comply now .stop = ⟨s, [.commanded s.name .stop]⟩ := by
  have still : s.sequencer.handle now .stop = .still s.sequencer := by
    simp [Sequencer.handle, Sequencer.stop, idle]
  rw [comply, andThen, handle, still, absorb_still]
  rfl

theorem obey_stop {last : Bool} (same : s.hushed = t.hushed)
    (commands : s.commands = told ++ [.stop])
    (commands' : t.commands = told ++ if last then [.stop] else [])
    (rests : last = false → (Outcome.each (comply now) told s.hushed).state.sequencer.isIdle = true) :
    (s.obey now).state.hushed = (t.obey now).state.hushed ∧
      deeds (s.obey now).reports = deeds (t.obey now).reports ∧
      ∀ agenda, (s.obey now).reports.foldl Controller.arm agenda =
        (t.obey now).reports.foldl Controller.arm agenda := by
  have obeyed := obey_hushed now s
  have obeyed' := obey_hushed now t
  rw [commands'] at obeyed'
  rw [commands, same] at obeyed
  cases last with
  | true =>
      have equal := obeyed.symm.trans obeyed'
      have reports := congrArg Outcome.reports equal
      dsimp only at reports
      rw [reports]
      exact ⟨congrArg Outcome.state equal, rfl, fun _ => rfl⟩
  | false =>
      simp only [Bool.false_eq_true, if_false, List.append_nil] at obeyed'
      have idle := rests rfl
      rw [same, obeyed'] at idle
      rw [each_append, obeyed', andThen, each_cons, comply_stop_idle idle] at obeyed
      have state := congrArg Outcome.state obeyed
      have reports := congrArg Outcome.reports obeyed
      dsimp only [andThen_state, andThen_reports, each_nil, still_state, still_reports] at state reports
      rw [← reports]
      exact ⟨state.symm, by simp [deeds, isDeed], fun agenda => by simp [Controller.arm]⟩

theorem obeys_off {found : List Finding} {on : Bool} (poised : s.sequencer.Poised)
    (alternates : Trigger.Alternates on found false)
    (rests : on = false → s.sequencer.isIdle = true) :
    (Outcome.each (comply now) (found.filterMap Finding.command?) s).state.sequencer.isIdle = true := by
  have command := alternates.command
  have obeyed : s.Obeyed (found.filterMap Finding.command?)
      (Outcome.each (comply now) (found.filterMap Finding.command?) s) :=
    each_comply_obeyed _ poised
  -- A sequencer that is not idle was started last, but the last command goes with the trigger.
  by_contra busy
  rcases obeyed.runs (by simpa using busy) with started | ⟨none, before⟩
  · rw [started] at command
    cases command
  · rw [none] at command
    cases on with
    | true => cases command
    | false => simp [rests rfl] at before

end Station

namespace Controller

variable {name : String} {c d : Controller} {s t : Station} {o p : Outcome Controller Effect}
  {next next' : Controller → Outcome Controller Effect} {zero : Value} {signals : List Signal}

structure Twins (name : String) (o p : Outcome Controller Effect) : Prop where
  state : o.state.hush name = p.state.hush name
  deeds : deeds o.reports = deeds p.reports

theorem Twins.refl (name : String) (o : Outcome Controller Effect) : Twins name o o := ⟨rfl, rfl⟩

theorem Alike.twins (alike : Alike name o p) : Twins name o p :=
  ⟨alike.state, congrArg Effect.deeds alike.reports⟩

theorem Twins.andThen (first : Twins name o p) (second : Twins name (next o.state) (next' p.state)) :
    Twins name (o.andThen next) (p.andThen next') :=
  ⟨second.state, by simp [first.deeds, second.deeds]⟩

structure Twinned (name : String) (one other : View → Prop) (c d : Controller) : Prop where
  same : c.hush name = d.hush name
  one : one (c.view name)
  other : other (d.view name)

section around
variable {step : String → Controller → Outcome Controller Effect} {one other : View → Prop}
  {names : List String}
variable (blind : ∀ other, other ≠ name → Blind name (step other))
variable (ignores : ∀ other, other ≠ name → Ignores name (step other))
include blind ignores

theorem each_others (others : name ∉ names) (twinned : Twinned name one other c d) :
    Twins name (Outcome.each step names c) (Outcome.each step names d) ∧
      Twinned name one other (Outcome.each step names c).state (Outcome.each step names d).state := by
  have apart : ∀ another ∈ names, another ≠ name := fun another among same => others (same ▸ among)
  have alike := (Blind.each fun another among => blind another (apart another among)).alike twinned.same
  have unseen : Ignores name (Outcome.each step names) :=
    Ignores.each fun another among => ignores another (apart another among)
  refine ⟨alike.twins, alike.state, ?_, ?_⟩
  · rw [(unseen c).1]
    exact twinned.one
  · rw [(unseen d).1]
    exact twinned.other

theorem each_around (one' other' : View → Prop) (nodup : names.Nodup) (among : name ∈ names)
    (here : ∀ c d, Twinned name one other c d → Twins name (step name c) (step name d) ∧
      Twinned name one' other' (step name c).state (step name d).state)
    (twinned : Twinned name one other c d) :
    Twins name (Outcome.each step names c) (Outcome.each step names d) ∧
      Twinned name one' other' (Outcome.each step names c).state
        (Outcome.each step names d).state := by
  -- Stations that go before the task and after it do nothing that is to be seen of it.
  obtain ⟨before, after, rfl⟩ := List.append_of_mem among
  have apart := (List.nodup_cons.mp (List.nodup_middle.mp nodup)).1
  rw [List.mem_append, not_or] at apart
  obtain ⟨first, twinned⟩ := each_others blind ignores apart.1 twinned
  obtain ⟨second, twinned⟩ := here _ _ twinned
  obtain ⟨third, twinned⟩ := each_others blind ignores apart.2 twinned
  rw [each_append, each_append]
  exact ⟨first.andThen (second.andThen third), twinned⟩

end around

theorem hush_shared (same : c.hush name = d.hush name) :
    c.active = d.active ∧ c.now = d.now ∧ c.agenda = d.agenda ∧
      c.bus.close name = d.bus.close name := by
  simp only [hush, Controller.mk.injEq] at same
  obtain ⟨-, -, -, -, active, bus, now, agenda, -⟩ := same
  exact ⟨active, now, agenda, bus⟩

theorem setStation_alike (same : c.hush name = d.hush name) (named : s.name = name)
    (hushed : s.hushed = t.hushed) : (c.setStation s).hush name = (d.setStation t).hush name := by
  have named' : t.name = name := (congrArg Station.name hushed).symm.trans named
  rw [← setStation_hush, ← setStation_hush, same, muffle_own named, muffle_own named', hushed]

theorem drawn_close [Host] (bus : Bus String Signal) (s : Station) :
    (drawn s bus).close s.name = bus.close s.name := by
  unfold drawn
  dsimp only
  split
  · rw [close_close, Bus.close_take]
  · rw [Bus.close_take]

theorem marks_failed {found : List Finding} {on last : Bool} {text : String} {active : List String}
    (alternates : Trigger.Alternates on found last) (mirrors : name ∈ active ↔ on = true) :
    marks name (found ++ [.failed text]) active =
      marks name (found ++ if last then [.changed false] else []) active := by
  have held := mem_marks_self alternates mirrors
  simp only [marks, List.foldl_append] at held ⊢
  cases last with
  | true => rfl
  | false =>
      apply List.filter_eq_self.mpr
      intro other among
      simp only [decide_eq_true_eq]
      rintro rfl
      cases held.mp among

theorem readFeed_hush [Host] (found : c.station? s.name = some s) :
    (c.readFeed s.name).state.hush s.name =
      { (c.setStation (s.read (c.bus.queued s.name)).state).hush s.name with
        active := marks s.name (s.read (c.bus.queued s.name)).reports c.active
        bus := c.bus.close s.name } := by
  rw [readFeed_eq found, ← drawn_close]
  rfl

theorem readFeed_deeds [Host] (name : String) (c : Controller) : deeds (c.readFeed name).reports =
    [] :=
  deeds_unowned fun other => readFeed_own other name c

def Reads (name : String) (s : Station) (signals : List Signal) (v : View) : Prop :=
  v.station = some s ∧ v.bus.queued name = signals ∧ v.isActive = s.isOn

theorem view_reads : Reads name s signals (c.view name) ↔
    c.station? name = some s ∧ c.bus.queued name = signals ∧ (name ∈ c.active ↔ s.isOn = true) := by
  rw [Reads, view, Bus.queued_of, Bool.eq_iff_iff, List.contains_iff_mem]

theorem obey_twins {last : Bool} {told : List Command} (hushed : s.hushed = t.hushed)
    (commands : s.commands = told ++ [.stop])
    (commands' : t.commands = told ++ if last then [.stop] else [])
    (rests : ∀ now, last = false →
      (Outcome.each (Station.comply now) told s.hushed).state.sequencer.isIdle = true)
    (twinned : Twinned name (fun v => v.station = some s) (fun v => v.station = some t) c d) :
    Twins name (c.obey name) (d.obey name) := by
  obtain ⟨same, found, found'⟩ := twinned
  change c.station? name = some s at found
  change d.station? name = some t at found'
  obtain ⟨-, now, agenda, -⟩ := hush_shared same
  obtain ⟨obeyed, deeds, armed⟩ := Station.obey_stop hushed commands commands' (rests c.now)
  have reached : s.Reaches c.outlet (s.obey c.now).state (s.obey c.now).reports :=
    Station.obey_reaches
  have named : (s.obey c.now).state.name = name := reached.name.trans (station?_some found).2
  have set := setStation_alike same named obeyed
  rw [obey, obey, visit_found _ found, visit_found _ found', ← now]
  refine ⟨?_, deeds⟩
  change { (c.setStation (s.obey c.now).state).hush name with
      agenda := (s.obey c.now).reports.foldl arm c.agenda } =
    { (d.setStation (t.obey c.now).state).hush name with
      agenda := (t.obey c.now).reports.foldl arm d.agenda }
  rw [set, armed, agenda]

section failed
variable [Host] (off : s.task.trigger.evaluate zero = .ok false)
  (failed : s.task.trigger.fails signals = true)
include off failed

theorem readFeed_twins
    (twinned : Twinned name (Reads name s signals)
      (Reads name s (s.task.trigger.mend zero signals)) c d) :
    Twins name (c.readFeed name) (d.readFeed name) ∧
      Twinned name (fun v => v.station = some (s.read signals).state)
        (fun v => v.station = some (s.read (s.task.trigger.mend zero signals)).state)
        (c.readFeed name).state (d.readFeed name).state := by
  obtain ⟨same, one, other⟩ := twinned
  obtain ⟨found, queued, mirrors⟩ := view_reads.mp one
  obtain ⟨found', queued', -⟩ := view_reads.mp other
  obtain rfl := (station?_some found).2
  obtain ⟨activeSame, -, -, busSame⟩ := hush_shared same
  obtain ⟨findings, last, text, alternates, read, read'⟩ :=
    Trigger.findings_mend off failed s.isOn
  have active : marks s.name (s.read signals).reports c.active =
      marks s.name (s.read (s.task.trigger.mend zero signals)).reports d.active := by
    rw [Station.read, Station.read, read, read', ← activeSame]
    exact marks_failed alternates mirrors
  have set := setStation_alike same (s := (s.read signals).state)
    (t := (s.read (s.task.trigger.mend zero signals)).state) rfl rfl
  have hushed : (c.readFeed s.name).state.hush s.name = (d.readFeed s.name).state.hush s.name := by
    rw [readFeed_hush found, readFeed_hush found', queued, queued', set, active, busSame]
  refine ⟨⟨hushed, ?_⟩, hushed, ?_, ?_⟩
  · rw [readFeed_deeds, readFeed_deeds]
  · rw [← queued]
    exact readFeed_station found
  · rw [← queued']
    exact readFeed_station found'

theorem settle_twins {names : List String} (nodup : names.Nodup) (among : name ∈ names)
    (free : s.commands = []) (poised : s.sequencer.Poised)
    (rests : s.isOn = false → s.sequencer.isIdle = true)
    (twinned : Twinned name (Reads name s signals)
      (Reads name s (s.task.trigger.mend zero signals)) c d) :
    Twins name (c.settle names) (d.settle names) := by
  obtain ⟨findings, last, text, alternates, read, read'⟩ :=
    Trigger.findings_mend off failed s.isOn
  have commands : (s.read signals).state.commands =
      findings.filterMap Finding.command? ++ [.stop] := by
    simp [Station.read, free, read, Finding.command?]
  have commands' : (s.read (s.task.trigger.mend zero signals)).state.commands =
      findings.filterMap Finding.command? ++ if last then [.stop] else [] := by
    cases last <;> simp [Station.read, free, read', Finding.command?, Command.ofState]
  -- Where the trigger was off there is a stop too many, but it finds the sequencer idle.
  have idle (now : Instant) (left : last = false) : (Outcome.each (Station.comply now)
      (findings.filterMap Finding.command?) s.hushed).state.sequencer.isIdle = true :=
    Station.obeys_off (s := s.hushed) poised (left ▸ alternates) rests
  obtain ⟨reads, twinned⟩ := each_around (fun _ => readFeed_blind) (fun _ => readFeed_other) _ _ nodup
    among (fun _ _ => readFeed_twins off failed) twinned
  obtain ⟨obeys, twinned⟩ := each_around (fun _ => obey_blind) (fun _ => obey_other)
    (fun _ => True) (fun _ => True) nodup among (fun _ _ twinned => by
      have twins := obey_twins (s := (s.read signals).state)
        (t := (s.read (s.task.trigger.mend zero signals)).state) rfl commands commands' idle twinned
      exact ⟨twins, twins.state, trivial, trivial⟩) twinned
  have dispatches := (Blind.each fun other (_ : other ∈ names) => dispatch_blind name other).alike
    twinned.same
  exact (reads.andThen obeys).andThen dispatches.twins

end failed

end Controller
end Cadence
