import Cadence.Proofs.Definition.Bounds

namespace Cadence.Definition
open Cadence.Path

variable {α β : Type} {entries : Entries} {name : String} {value : Value}

theorem Checked.apply_eq_ok {first : Checked (α → β)} {second : Checked α} {y : β} :
    first.apply second = .ok y ↔ ∃ f x, first = .ok f ∧ second = .ok x ∧ f x = y := by
  cases first <;> cases second <;> simp [Checked.apply]

def Check.Demands (check : Check α) (property : α → Prop) : Prop :=
  ∀ value x, check value = .ok x → property x

theorem required_eq_ok {check : Check α} {x : α} (passes : required entries name check = .ok x) :
    ∃ value, Value.lookup entries name = some value ∧ check value = .ok x := by
  unfold required at passes
  split at passes
  · cases passes
  · next value found => exact ⟨value, found, eq_ok_of_mapError passes⟩

theorem Check.Demands.required {check : Check α} {property : α → Prop} {x : α}
    (demands : check.Demands property) (passes : required entries name check = .ok x) :
    property x := by
  obtain ⟨value, -, checked⟩ := required_eq_ok passes
  exact demands value x checked

theorem Check.Demands.optional {check : Check α} {property : α → Prop} {default x : α}
    (demands : check.Demands property) (holds : property default)
    (passes : optional entries name check default = .ok x) : property x := by
  unfold Definition.optional at passes
  split at passes
  · obtain rfl := Except.ok.inj passes
    exact holds
  · next value _ => exact demands value x (eq_ok_of_mapError passes)

theorem Check.Bounds.demands {check : Check α} {converts : Value → α → Prop} {bound : α → Prop}
    (bounds : check.Bounds converts bound) : check.Demands bound :=
  fun value x passes => ((bounds value x).mp passes).2

/-! ## Activities -/

structure Runs (duration delay : Float) (cycles : Int) : Prop where
  duration : 0 < duration
  delay : 0 ≤ delay
  cycles : 0 ≤ cycles

theorem checkActivity_fields {definition : ActivityDefinition} :
    checkActivity value = .ok definition ↔ ∃ entries, value = .map entries ∧
      optional entries "name" textOrNull none = .ok definition.label ∧
      required entries "path" nonEmptyText = .ok definition.path ∧
      required entries "duration" positiveNumber = .ok definition.duration ∧
      optional entries "delay" countingNumber 0 = .ok definition.delay ∧
      optional entries "repeat" count 1 = .ok definition.cycles := by
  unfold checkActivity
  constructor
  · intro passes
    split at passes
    · cases passes
    · next entries isMap =>
        obtain ⟨_, cycles, timed, counted, rfl⟩ := Checked.apply_eq_ok.mp passes
        obtain ⟨_, delay, lasting, delayed, rfl⟩ := Checked.apply_eq_ok.mp timed
        obtain ⟨_, duration, placed, lasts, rfl⟩ := Checked.apply_eq_ok.mp lasting
        obtain ⟨_, path, labelled, located, rfl⟩ := Checked.apply_eq_ok.mp placed
        obtain ⟨_, label, made, named, rfl⟩ := Checked.apply_eq_ok.mp labelled
        obtain rfl := Except.ok.inj made
        exact ⟨entries, map_eq_ok.mp isMap, named, located, lasts, delayed, counted⟩
  · rintro ⟨entries, rfl, named, located, lasts, delayed, counted⟩
    simp only [map, named, located, lasts, delayed, counted]
    rfl

theorem checkActivity_runs {definition : ActivityDefinition}
    (passes : checkActivity value = .ok definition) :
    Runs definition.duration definition.delay definition.cycles := by
  obtain ⟨entries, -, -, -, lasts, delayed, counted⟩ := checkActivity_fields.mp passes
  have atOnce : (0 : Float) ≤ 0 := by decide +kernel
  exact ⟨positiveNumber_bounds.demands.required lasts,
    countingNumber_bounds.demands.optional atOnce delayed,
    count_bounds.demands.optional (show (0 : Int) ≤ 1 by decide) counted⟩

theorem checkActivities_runs {index : Nat} {values : List Value}
    {definitions : List ActivityDefinition} (passes : checkActivities index values = .ok definitions) :
    definitions.length = values.length ∧
      ∀ definition ∈ definitions, Runs definition.duration definition.delay definition.cycles := by
  induction values generalizing index definitions with
  | nil =>
      obtain rfl := Except.ok.inj passes
      simp
  | cons value rest ih =>
      obtain ⟨_, others, begun, later, rfl⟩ := Checked.apply_eq_ok.mp passes
      obtain ⟨_, definition, made, first, rfl⟩ := Checked.apply_eq_ok.mp begun
      obtain rfl := Except.ok.inj made
      obtain ⟨length, runs⟩ := ih later
      refine ⟨by simp [length], ?_⟩
      intro other among
      rcases List.mem_cons.mp among with rfl | among
      · exact checkActivity_runs (eq_ok_of_mapError first)
      · exact runs other among

theorem activitiesField_eq_ok {definitions : List ActivityDefinition}
    (passes : activitiesField entries = .ok definitions) :
    definitions ≠ [] ∧
      ∀ definition ∈ definitions, Runs definition.duration definition.delay definition.cycles := by
  unfold activitiesField at passes
  split at passes
  · cases passes
  · cases passes
  · next values present _ =>
      obtain ⟨length, runs⟩ := checkActivities_runs (eq_ok_of_mapError passes)
      refine ⟨?_, runs⟩
      rintro rfl
      exact present (List.length_eq_zero_iff.mp length.symm)

/-! ## Tasks -/

theorem checkTask_eq_ok {definition : TaskDefinition} (passes : checkTask entries = .ok definition) :
    required entries "name" nonEmptyText = .ok definition.name ∧
      controlPathField entries = .ok definition.controlPath ∧
      activitiesField entries = .ok definition.activities := by
  obtain ⟨_, activities, placed, checked, rfl⟩ := Checked.apply_eq_ok.mp passes
  obtain ⟨_, controlPath, titled, controls, rfl⟩ := Checked.apply_eq_ok.mp placed
  obtain ⟨_, name, made, named, rfl⟩ := Checked.apply_eq_ok.mp titled
  obtain rfl := Except.ok.inj made
  exact ⟨named, controls, checked⟩

theorem checkTask_named {definition : TaskDefinition} (passes : checkTask entries = .ok definition) :
    definition.name ≠ "" :=
  nonEmptyText_bounds.demands.required (checkTask_eq_ok passes).1

theorem build_eq_ok {definition : TaskDefinition} {task : Task}
    (built : definition.build = .ok task) :
    task.name = definition.name ∧ task.controlPath = definition.controlPath ∧
      readControl (some definition.controlPath) = .ok task.trigger ∧
      buildActivities definition.name 0 definition.activities = .ok task.activities := by
  obtain ⟨trigger, read, built⟩ := bind_eq_ok.mp built
  obtain ⟨activities, made, built⟩ := bind_eq_ok.mp built
  obtain rfl := Except.ok.inj built
  exact ⟨rfl, rfl, eq_ok_of_mapError read, made⟩

theorem task_eq_ok {raw : Value} {read : Task} :
    task raw = .ok read ↔ ∃ entries definition, raw = .map entries ∧
      checkTask entries = .ok definition ∧ definition.build = .ok read := by
  constructor
  · intro normalized
    unfold task at normalized
    split at normalized
    · next entries =>
        split at normalized
        · cases normalized
        · next definition passes => exact ⟨entries, definition, rfl, passes, normalized⟩
    · cases normalized
  · rintro ⟨entries, definition, rfl, passes, built⟩
    simp only [task, passes]
    exact built

theorem buildActivities_runs {name : String} {index : Nat} {definitions : List ActivityDefinition}
    {activities : List Activity} (built : buildActivities name index definitions = .ok activities)
    (runs : ∀ definition ∈ definitions,
      Runs definition.duration definition.delay definition.cycles) :
    activities.length = definitions.length ∧
      ∀ activity ∈ activities, Runs activity.duration activity.delay activity.cycles := by
  induction definitions generalizing index activities with
  | nil =>
      obtain rfl := Except.ok.inj built
      simp
  | cons definition rest ih =>
      obtain ⟨drive, -, built⟩ := bind_eq_ok.mp built
      obtain ⟨others, later, built⟩ := bind_eq_ok.mp built
      obtain rfl := Except.ok.inj built
      obtain ⟨length, runsLater⟩ := ih later fun other among => runs other (by simp [among])
      refine ⟨by simp [length], ?_⟩
      intro activity among
      rcases List.mem_cons.mp among with rfl | among
      · exact runs definition (by simp)
      · exact runsLater activity among

end Cadence.Definition
