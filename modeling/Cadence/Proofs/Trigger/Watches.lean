import Cadence.Proofs.Trigger.Marks
import Cadence.Trigger.Watch

namespace Cadence.Trigger
namespace Watch

variable [Host]

def take (trigger : Trigger) (input : Option Signal) (watch : Watch) : Outcome Watch Doing :=
  if watch.ending.isNone then
    match input with
    | some signal => watch.hear trigger signal
    | none => watch.finish .left
  else .still watch

inductive Ends (trigger : Trigger) : List (Option Signal) → Option Ending → Prop
  | going : Ends trigger [] none
  | finished {rest : List (Option Signal)} :
      Ends trigger (some .finish :: rest) (some .finished)
  | failed {text : String} {rest : List (Option Signal)} :
      Ends trigger (some (.failure text) :: rest) (some (.failed text))
  | refused {payload : Value} {failure : Failure} {rest : List (Option Signal)}
      (raises : trigger.evaluate payload = .error failure) :
      Ends trigger (some (.value payload) :: rest) (some (.refused failure))
  | left {rest : List (Option Signal)} : Ends trigger (none :: rest) (some .left)

def conclusion : Option Ending → List Doing
  | none => []
  | some ending => [.closed, .ended ending]

def told (changes : List (Nat × Bool)) : List Doing :=
  changes.map fun change => .changed change.1 change.2

variable {trigger : Trigger} {watch : Watch}

theorem take_ended (ended : watch.ending.isSome) (inputs : List (Option Signal)) :
    (Outcome.each (take trigger) inputs watch).reports = [] := by
  induction inputs with
  | nil => rfl
  | cons input rest ih =>
      have gone : watch.take trigger input = .still watch := by
        simp [take, Option.isSome_iff_ne_none.mp ended]
      rw [Outcome.each_cons, gone]
      exact ih

theorem take_finish {ending : Ending} {input : Option Signal}
    (taken : watch.take trigger input = watch.finish ending) (rest : List (Option Signal)) :
    (Outcome.each (take trigger) (input :: rest) watch).reports = conclusion (some ending) := by
  rw [Outcome.each_cons, Outcome.andThen_reports, taken, take_ended rfl rest]
  rfl

theorem take_some (goes : watch.ending = none) (signal : Signal) :
    watch.take trigger (some signal) = watch.hear trigger signal := by
  simp [take, goes]

theorem take_refused (goes : watch.ending = none) {payload : Value} {failure : Failure}
    (raises : trigger.evaluate payload = .error failure) :
    watch.take trigger (some (.value payload)) = watch.finish (.refused failure) := by
  rw [take_some goes]
  simp [hear, edge?, raises, Except.map]

theorem take_edges (goes : watch.ending = none) (inputs : List (Option Signal)) :
    ∃ payloads states rest ending,
      inputs = payloads.map (fun payload => some (.value payload)) ++ rest ∧
      trigger.Evaluates payloads states ∧ Ends trigger rest ending ∧
      (Outcome.each (take trigger) inputs watch).reports =
        told (marks watch.read watch.last states) ++ conclusion ending := by
  induction inputs generalizing watch with
  | nil => exact ⟨[], [], [], none, rfl, .nil, .going, rfl⟩
  | cons input rest ih =>
      cases input with
      | none =>
          exact ⟨[], [], _, _, rfl, .nil, .left, take_finish (by simp [take, goes]) rest⟩
      | some signal =>
          have hears := @take_some _ trigger watch goes signal
          cases signal with
          | finish => exact ⟨[], [], _, _, rfl, .nil, .finished, take_finish hears rest⟩
          | failure text => exact ⟨[], [], _, _, rfl, .nil, .failed, take_finish hears rest⟩
          | value payload =>
              cases read : trigger.evaluate payload with
              | error failure =>
                  exact ⟨[], [], _, _, rfl, .nil, .refused read,
                    take_finish (take_refused goes read) rest⟩
              | ok state =>
                  -- The watch goes on with the state it has found, told or not.
                  obtain ⟨payloads, states, more, ending, rfl, evaluates, ends, reports⟩ :=
                    @ih ⟨state, watch.read + 1, watch.ending⟩ goes
                  refine ⟨payload :: payloads, state :: states, more, ending, rfl,
                    .cons read evaluates, ends, ?_⟩
                  rw [Outcome.each_cons, Outcome.andThen_reports, hears]
                  obtain rfl | rfl := Bool.eq_or_eq_not state watch.last
                  · simpa [hear, edge?, read, Except.map, marks_same] using reports
                  · simpa [hear, edge?, read, Except.map, marks_other, told] using reports

def Doing.finding? : Doing → Option Finding
  | .changed _ state => some (.changed state)
  | .ended .finished => some .finished
  | .ended (.failed text) => some (.failed text)
  | .ended (.refused failure) => some (.failed failure.message)
  | _ => none

/-- The findings of a feed are those of a watch that is never left. -/
theorem findings_take (goes : watch.ending = none) (signals : List Signal) :
    (trigger.findings watch.last signals).2 =
      (Outcome.each (take trigger) (signals.map some) watch).reports.filterMap Doing.finding? := by
  induction signals generalizing watch with
  | nil => rfl
  | cons signal rest ih =>
      have hears := @take_some _ trigger watch goes signal
      rw [List.map_cons]
      cases signal with
      | finish => rw [take_finish hears]; rfl
      | failure text => rw [take_finish hears]; rfl
      | value payload =>
          cases read : trigger.evaluate payload with
          | error failure =>
              rw [take_finish (take_refused goes read)]
              simp only [findings, edge?, read, Except.map]
              rfl
          | ok state =>
              have later := @ih ⟨state, watch.read + 1, watch.ending⟩ goes
              rw [Outcome.each_cons, Outcome.andThen_reports, hears, List.filterMap_append]
              obtain rfl | rfl := Bool.eq_or_eq_not state watch.last
              · simpa [hear, findings, edge?, read, Except.map] using later
              · simpa [hear, findings, edge?, read, Except.map, Doing.finding?] using later

end Watch

namespace Watched
open Watch

def begun (steps : List Step) : Nat :=
  steps.countP fun
    | .watch => true
    | _ => false

def Step.input? (place : Nat) : Step → Option (Option Signal)
  | .watch => none
  | .hand other signal => if other = place then some (some signal) else none
  | .leave other => if other = place then some none else none

def inputs (place : Nat) (steps : List Step) : List (Option Signal) :=
  steps.filterMap (Step.input? place)

def about (place : Nat) (reports : List Report) : List Doing :=
  reports.filterMap fun report => if report.watch = place then some report.doing else none

@[simp] theorem about_append (place : Nat) (reports more : List Report) :
    about place (reports ++ more) = about place reports ++ about place more :=
  List.filterMap_append

theorem about_same (place : Nat) (doings : List Doing) :
    about place (doings.map (Report.mk place)) = doings := by
  simp [about, List.filterMap_map]

theorem about_other {place other : Nat} (different : other ≠ place) (doings : List Doing) :
    about place (doings.map (Report.mk other)) = [] := by
  simp [about, List.filterMap_map, different]

variable {w : Watched} {place : Nat} {watch : Watch} {steps : List Step}

variable [Host]

section visit
variable {move : Watch → Outcome Watch Doing} {other : Nat}

omit [Host] in
theorem visit_trigger : (w.visit move other).state.trigger = w.trigger := by
  unfold visit
  repeat' split
  all_goals rfl

omit [Host] in
theorem visit_length : (w.visit move other).state.watches.length = w.watches.length := by
  unfold visit
  repeat' split
  all_goals simp

omit [Host] in
theorem visit_same (found : w.watches[place]? = some watch) :
    let taken := if watch.ending.isNone then move watch else .still watch
    (w.visit move place).state.watches[place]? = some taken.state ∧
      about place (w.visit move place).reports = taken.reports := by
  obtain ⟨bound, -⟩ := List.getElem?_eq_some_iff.mp found
  by_cases goes : watch.ending.isNone
  · simp only [visit, found, goes, if_true, about_same]
    simp [bound]
  · simp [visit, found, goes, about]

omit [Host] in
theorem visit_other (different : other ≠ place) :
    (w.visit move other).state.watches[place]? = w.watches[place]? ∧
      about place (w.visit move other).reports = [] := by
  unfold visit
  split
  · split
    · exact ⟨List.getElem?_set_ne different, about_other different _⟩
    · exact ⟨rfl, rfl⟩
  · exact ⟨rfl, rfl⟩

theorem visit_told {input : Option Signal} (found : w.watches[place]? = some watch)
    (takes : watch.take w.trigger input =
      if watch.ending.isNone then move watch else .still watch) :
    let taken := ((if other = place then some input else none).map
      (watch.take w.trigger)).getD (.still watch)
    (w.visit move other).state.watches[place]? = some taken.state ∧
      about place (w.visit move other).reports = taken.reports := by
  by_cases own : other = place
  · subst own
    simp only [if_true, Option.map_some, Option.getD_some, takes]
    exact visit_same found
  · simp only [own, if_false, Option.map_none, Option.getD_none]
    exact ⟨(visit_other own).1.trans found, (visit_other own).2⟩

omit [Host] in
theorem visit_unbegun (missing : w.watches[place]? = none) :
    about place (w.visit move other).reports = [] := by
  by_cases own : other = place
  · subst own
    simp [visit, missing, about]
  · exact (visit_other own).2

end visit

theorem run_cons (step : Step) (steps : List Step) (w : Watched) :
    w.run (step :: steps) = (w.step step).andThen (run steps) := rfl

theorem run_split (before after : List Step) (step : Step) (w : Watched) :
    w.run (before ++ step :: after) =
      (w.run before).andThen fun w => (w.step step).andThen (run after) :=
  Outcome.each_append Watched.step before (step :: after) w

theorem step_trigger (step : Step) (w : Watched) : (w.step step).state.trigger = w.trigger := by
  cases step with
  | watch => rfl
  | hand other signal => exact visit_trigger
  | leave other => exact visit_trigger

theorem step_length (step : Step) (w : Watched) :
    (w.step step).state.watches.length = w.watches.length + begun [step] := by
  cases step with
  | watch => simp [Watched.step, begin, begun]
  | hand other signal => exact visit_length
  | leave other => exact visit_length

theorem step_told (found : w.watches[place]? = some watch) (step : Step) :
    let taken := ((step.input? place).map (watch.take w.trigger)).getD (.still watch)
    (w.step step).state.watches[place]? = some taken.state ∧
      about place (w.step step).reports = taken.reports := by
  obtain ⟨bound, -⟩ := List.getElem?_eq_some_iff.mp found
  cases step with
  | watch =>
      refine ⟨(List.getElem?_append_left bound).trans found, ?_⟩
      exact about_other (Nat.ne_of_gt bound) [_]
  | hand other signal => exact visit_told found rfl
  | leave other => exact visit_told found rfl

theorem run_told (found : w.watches[place]? = some watch) (steps : List Step) :
    about place (w.run steps).reports =
      (Outcome.each (Watch.take w.trigger) (inputs place steps) watch).reports := by
  induction steps generalizing w watch with
  | nil => rfl
  | cons step rest ih =>
      obtain ⟨after, told⟩ := step_told found step
      have later := ih after
      rw [step_trigger] at later
      rw [run_cons, Outcome.andThen_reports, about_append, told, later]
      cases input : step.input? place with
      | none => simp [inputs, input]
      | some input => simp [inputs, input]

theorem step_unbegun {step : Step} (behind : (w.step step).state.watches.length ≤ place) :
    about place (w.step step).reports = [] := by
  rw [step_length] at behind
  have missing : w.watches[place]? = none := List.getElem?_eq_none (by omega)
  cases step with
  | watch =>
      have sooner : w.watches.length ≠ place := by
        simp only [begun, List.countP_singleton, if_true] at behind
        omega
      exact about_other sooner [_]
  | hand other signal => exact visit_unbegun missing
  | leave other => exact visit_unbegun missing

theorem run_length (steps : List Step) (w : Watched) :
    (w.run steps).state.watches.length = w.watches.length + begun steps := by
  induction steps generalizing w with
  | nil => rfl
  | cons step rest ih =>
      rw [run_cons, Outcome.andThen_state, ih, step_length]
      simp [begun, List.countP_cons]
      omega

theorem run_unbegun (behind : (w.run steps).state.watches.length ≤ place) :
    about place (w.run steps).reports = [] := by
  induction steps generalizing w with
  | nil => rfl
  | cons step rest ih =>
      rw [run_cons, Outcome.andThen_state] at behind
      rw [run_cons, Outcome.andThen_reports, about_append, ih behind, List.append_nil]
      refine step_unbegun ?_
      rw [run_length] at behind
      omega

theorem run_trigger (steps : List Step) (w : Watched) :
    (w.run steps).state.trigger = w.trigger := by
  induction steps generalizing w with
  | nil => rfl
  | cons step rest ih =>
      rw [run_cons, Outcome.andThen_state, ih, step_trigger]

theorem watch_told (trigger : Trigger) (before after : List Step) :
    about (begun before) (run (before ++ .watch :: after) ⟨trigger, []⟩).reports =
      .opened trigger.path ::
        (Outcome.each (Watch.take trigger) (inputs (begun before) after) Watch.fresh).reports := by
  let w := (run before ⟨trigger, []⟩).state
  have same : w.trigger = trigger := run_trigger before _
  have length : w.watches.length = begun before := by
    rw [run_length]
    exact Nat.zero_add _
  have begins : w.begin.state.watches[begun before]? = some Watch.fresh := by
    rw [begin, ← length]
    exact List.getElem?_concat_length
  have unbegun : about (begun before) (run before ⟨trigger, []⟩).reports = [] :=
    run_unbegun (Nat.le_of_eq length)
  have opens : about (begun before) w.begin.reports = [.opened trigger.path] := by
    rw [begin, length, same]
    exact about_same _ [_]
  have goesOn := run_told begins after
  rw [show w.begin.state.trigger = trigger from same] at goesOn
  rw [run_split, Outcome.andThen_reports, about_append, unbegun, List.nil_append,
    Outcome.andThen_reports, about_append]
  exact (congrArg₂ (· ++ ·) opens goesOn :)

/-- Each watch opens its own subscription to the path of the trigger and tells the edges of the values
that it reads, beginning with a trigger that is off, until it ends and closes the subscription. -/
theorem watches_tell_edges (trigger : Trigger) (before after : List Step) :
    ∃ payloads states changes rest ending,
      inputs (begun before) after =
        payloads.map (fun payload => some (.value payload)) ++ rest ∧
      trigger.Evaluates payloads states ∧ trigger.edges payloads = (changes, none) ∧
      Detects states changes ∧ Ends trigger rest ending ∧
      about (begun before) (run (before ++ .watch :: after) ⟨trigger, []⟩).reports =
        .opened trigger.path :: told changes ++ conclusion ending := by
  obtain ⟨payloads, states, rest, ending, given, evaluates, ends, reports⟩ :=
    @take_edges _ trigger Watch.fresh rfl (inputs (begun before) after)
  refine ⟨payloads, states, marks 0 false states, rest, ending, given, evaluates,
    edgesFrom_evaluates evaluates, marks_detects states, ends, ?_⟩
  rw [watch_told, reports]
  rfl

end Watched
end Cadence.Trigger
