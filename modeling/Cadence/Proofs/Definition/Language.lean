import Cadence.Proofs.Definition.Fields
import Cadence.Proofs.Path.Forms

namespace Cadence.Definition
open Cadence.Path Decimal

variable {entries : Entries} {value : Value} {name : String}

/-! ## Activities -/

structure Gives (entries : Entries) (definition : ActivityDefinition) : Prop where
  label : GivenOr none Labels entries "name" definition.label
  path : Given Spells entries "path" definition.path
  duration : Given Converts entries "duration" definition.duration
  delay : GivenOr 0 Converts entries "delay" definition.delay
  cycles : GivenOr 1 Counts entries "repeat" definition.cycles

structure ActivityDefinition.InBounds (definition : ActivityDefinition) : Prop where
  path : definition.path ≠ ""
  runs : Runs definition.duration definition.delay definition.cycles

theorem checkActivity_iff {definition : ActivityDefinition} :
    checkActivity value = .ok definition ↔
      ∃ entries, value = .map entries ∧ Gives entries definition ∧ definition.InBounds := by
  have atOnce : (0 : Float) ≤ 0 := by decide +kernel
  simp only [checkActivity_fields, textOrNull_bounds.optional trivial, nonEmptyText_bounds.required,
    positiveNumber_bounds.required, countingNumber_bounds.optional atOnce,
    count_bounds.optional (show (0 : Int) ≤ 1 by decide)]
  apply exists_congr
  intro entries
  apply and_congr_right
  intro _
  constructor
  · rintro ⟨⟨label, -⟩, ⟨path, present⟩, ⟨duration, lasts⟩, ⟨delay, waits⟩, cycles, counts⟩
    exact ⟨⟨label, path, duration, delay, cycles⟩, present, lasts, waits, counts⟩
  · rintro ⟨gives, present, lasts, waits, counts⟩
    exact ⟨⟨gives.label, trivial⟩, ⟨gives.path, present⟩, ⟨gives.duration, lasts⟩,
      ⟨gives.delay, waits⟩, gives.cycles, counts⟩

def Describes (item : Value) (definition : ActivityDefinition) : Prop :=
  ∃ entries, item = .map entries ∧ Gives entries definition ∧ definition.InBounds

theorem within_eq_ok {α : Type} {checked : Checked α} {x : α} :
    checked.within name = .ok x ↔ checked = .ok x :=
  mapError_eq_ok

theorem checkActivities_iff {index : Nat} {items : List Value}
    {definitions : List ActivityDefinition} :
    checkActivities index items = .ok definitions ↔ List.Forall₂ Describes items definitions := by
  induction items generalizing index definitions with
  | nil => simp [checkActivities, eq_comm]
  | cons item rest ih =>
      rw [checkActivities, Checked.apply_eq_ok, List.forall₂_cons_left_iff]
      constructor
      · rintro ⟨_, others, begun, later, rfl⟩
        obtain ⟨_, definition, made, first, rfl⟩ := Checked.apply_eq_ok.mp begun
        obtain rfl := Except.ok.inj made
        exact ⟨definition, others, checkActivity_iff.mp (within_eq_ok.mp first), ih.mp later, rfl⟩
      · rintro ⟨definition, others, describes, later, rfl⟩
        have passes := checkActivity_iff.mpr describes
        refine ⟨List.cons definition, others, ?_, ih.mpr later, rfl⟩
        exact Checked.apply_eq_ok.mpr ⟨List.cons, definition, rfl, within_eq_ok.mpr passes, rfl⟩

theorem activitiesField_iff {definitions : List ActivityDefinition} :
    activitiesField entries = .ok definitions ↔ ∃ items,
      Value.lookup entries "activities" = some (.list items) ∧ items ≠ [] ∧
        List.Forall₂ Describes items definitions := by
  constructor
  · intro passes
    unfold activitiesField at passes
    split at passes
    · cases passes
    · cases passes
    · next items present found =>
        obtain ⟨⟨value, there, rfl⟩, -⟩ := list_bounds.required.mp found
        exact ⟨items, there, present, checkActivities_iff.mp (within_eq_ok.mp passes)⟩
  · rintro ⟨items, there, present, describes⟩
    have found : required entries "activities" list = .ok items :=
      list_bounds.required.mpr ⟨⟨_, there, rfl⟩, trivial⟩
    obtain ⟨first, rest, rfl⟩ := List.exists_cons_of_ne_nil present
    rw [activitiesField, found]
    exact within_eq_ok.mpr (checkActivities_iff.mpr describes)

/-! ## Tasks -/

/-- The entries give a task its fields. Of the names of the control path the first one that is there
counts. -/
structure TaskDefinition.Stands (definition : TaskDefinition) (entries : Entries) : Prop where
  name : Given Spells entries "name" definition.name
  controlPath : ∃ value, controlPathNames.findSome? (Value.lookup entries) = some value ∧
    Spells value definition.controlPath
  activities : ∃ items, Value.lookup entries "activities" = some (.list items) ∧
    List.Forall₂ Describes items definition.activities

structure TaskDefinition.InBounds (definition : TaskDefinition) : Prop where
  name : definition.name ≠ ""
  controlPath : definition.controlPath ≠ ""
  activities : definition.activities ≠ []

theorem controlPathField_iff {path : String} :
    controlPathField entries = .ok path ↔
      (∃ value, controlPathNames.findSome? (Value.lookup entries) = some value ∧ Spells value path) ∧
        path ≠ "" := by
  have first : ∀ value, controlPathNames.findSome? (Value.lookup entries) = some value ↔
      Value.lookup entries ((controlPathNames.find? fun name =>
        (Value.lookup entries name).isSome).getD "controlPath") = some value := by
    intro value
    simp only [controlPathNames, List.find?, List.findSome?]
    cases one : Value.lookup entries "controlPath" with
    | some _ => simp [one]
    | none =>
        cases two : Value.lookup entries "controlpath" with
        | some _ => simp [two]
        | none =>
            cases three : Value.lookup entries "control_path" with
            | some _ => simp [three]
            | none => simp [one]
  rw [controlPathField, nonEmptyText_bounds.required]
  simp only [first, Given]

theorem checkTask_iff {definition : TaskDefinition} :
    checkTask entries = .ok definition ↔ definition.Stands entries ∧ definition.InBounds := by
  constructor
  · intro passes
    obtain ⟨named, controls, checked⟩ := checkTask_eq_ok passes
    obtain ⟨name, titled⟩ := nonEmptyText_bounds.required.mp named
    obtain ⟨control, written⟩ := controlPathField_iff.mp controls
    obtain ⟨items, there, -, describes⟩ := activitiesField_iff.mp checked
    exact ⟨⟨name, control, items, there, describes⟩, titled, written, (activitiesField_eq_ok checked).1⟩
  · rintro ⟨⟨name, control, items, there, describes⟩, titled, written, present⟩
    have some : items ≠ [] := by
      rintro rfl
      exact present (List.forall₂_nil_left_iff.mp describes)
    have named := nonEmptyText_bounds.required.mpr ⟨name, titled⟩
    have controls := controlPathField_iff.mpr ⟨control, written⟩
    have checked := activitiesField_iff.mpr ⟨items, there, some, describes⟩
    simp only [checkTask, named, controls, checked]
    rfl

/-- A raw value is a map that gives a definition its fields, and these are within their bounds. -/
inductive Defines : Value → TaskDefinition → Prop
  | map (entries : Entries) (definition : TaskDefinition) (stands : definition.Stands entries)
      (bounds : definition.InBounds) : Defines (.map entries) definition

theorem defines_iff {raw : Value} {definition : TaskDefinition} :
    Defines raw definition ↔ ∃ entries, raw = .map entries ∧ checkTask entries = .ok definition := by
  constructor
  · rintro ⟨entries, _, stands, bounds⟩
    exact ⟨entries, rfl, checkTask_iff.mpr ⟨stands, bounds⟩⟩
  · rintro ⟨entries, rfl, passes⟩
    obtain ⟨stands, bounds⟩ := checkTask_iff.mp passes
    exact .map entries definition stands bounds

/-! ## What is built -/

structure ActivityDefinition.Becomes (definition : ActivityDefinition) (task : String) (index : Nat)
    (activity : Activity) : Prop where
  drive : ReadsActivity definition.path activity.toDrive
  name : activity.name = activityName task definition.label index
  duration : activity.duration = definition.duration
  delay : activity.delay = definition.delay
  cycles : activity.cycles = definition.cycles

/-- What a definition becomes: its activities keep their order. -/
structure TaskDefinition.Becomes (definition : TaskDefinition) (task : Task) : Prop where
  name : task.name = definition.name
  controlPath : task.controlPath = definition.controlPath
  trigger : ReadsControl definition.controlPath task.trigger
  activities : List.Forall₂ (fun part activity => part.1.Becomes definition.name part.2 activity)
    definition.activities.zipIdx task.activities

structure TaskDefinition.Grammatical (definition : TaskDefinition) : Prop where
  controlPath : ControlForm (stripped definition.controlPath)
  activities : ∀ activity ∈ definition.activities, ActivityForm (stripped activity.path)

/-- No value of a switch spells a whole number in too many digits. -/
structure TaskDefinition.Short (definition : TaskDefinition) : Prop where
  controlPath : ∀ digits, ¬ OverlongControl definition.controlPath digits
  activities : ∀ activity ∈ definition.activities, ∀ digits, ¬ OverlongActivity activity.path digits

section build
variable {index : Nat} {definitions : List ActivityDefinition} {definition : TaskDefinition}

theorem buildActivities_iff {activities : List Activity} :
    buildActivities name index definitions = .ok activities ↔
      List.Forall₂ (fun part activity => part.1.Becomes name part.2 activity)
        (definitions.zipIdx index) activities := by
  induction definitions generalizing index activities with
  | nil => simp [buildActivities, eq_comm]
  | cons definition rest ih =>
      simp only [buildActivities, bind_eq_ok, mapError_eq_ok, (readActivity_reading _).eq_ok,
        List.zipIdx_cons, List.forall₂_cons_left_iff, ih]
      constructor
      · rintro ⟨drive, reads, others, later, made⟩
        obtain rfl := Except.ok.inj made
        exact ⟨_, others, ⟨reads, rfl, rfl, rfl, rfl⟩, later, rfl⟩
      · rintro ⟨activity, others, becomes, later, rfl⟩
        refine ⟨activity.toDrive, becomes.drive, others, later, ?_⟩
        rw [← becomes.name, ← becomes.duration, ← becomes.delay, ← becomes.cycles]
        rfl

theorem build_iff {task : Task} : definition.build = .ok task ↔ definition.Becomes task := by
  simp only [TaskDefinition.build, bind_eq_ok, mapError_eq_ok, (readControl_reading _).eq_ok,
    buildActivities_iff]
  constructor
  · rintro ⟨trigger, reads, activities, becomes, made⟩
    obtain rfl := Except.ok.inj made
    exact ⟨rfl, rfl, reads, becomes⟩
  · rintro ⟨name, controlPath, reads, becomes⟩
    refine ⟨task.trigger, reads, task.activities, becomes, ?_⟩
    rw [← name, ← controlPath]
    rfl

theorem buildActivities_accepted :
    (∃ activities, buildActivities name index definitions = .ok activities) ↔
      ∀ definition ∈ definitions, ∃ drive, readActivity (some definition.path) = .ok drive := by
  induction definitions generalizing index with
  | nil => simp [buildActivities]
  | cons definition rest ih =>
      have ih := @ih (index + 1)
      simp only [buildActivities, bind_eq_ok, mapError_eq_ok, List.forall_mem_cons, ← ih]
      constructor
      · rintro ⟨_, drive, reads, others, later, -⟩
        exact ⟨⟨drive, reads⟩, others, later⟩
      · rintro ⟨⟨drive, reads⟩, others, later⟩
        exact ⟨_, drive, reads, others, later, rfl⟩

theorem build_accepted :
    (∃ task, definition.build = .ok task) ↔ definition.Grammatical ∧ definition.Short := by
  have both : (∃ task, definition.build = .ok task) ↔
      (∃ trigger, readControl (some definition.controlPath) = .ok trigger) ∧
        ∃ activities, buildActivities definition.name 0 definition.activities = .ok activities := by
    simp only [TaskDefinition.build, bind_eq_ok, mapError_eq_ok]
    constructor
    · rintro ⟨_, trigger, reads, activities, made, -⟩
      exact ⟨⟨trigger, reads⟩, activities, made⟩
    · rintro ⟨⟨trigger, reads⟩, activities, made⟩
      exact ⟨_, trigger, reads, activities, made, rfl⟩
  rw [both, buildActivities_accepted, (readControl_reading _).accepted]
  simp only [(readActivity_reading _).accepted]
  constructor
  · rintro ⟨⟨control, short⟩, activities⟩
    exact ⟨⟨control, fun activity among => (activities activity among).1⟩,
      ⟨short, fun activity among => (activities activity among).2⟩⟩
  · rintro ⟨⟨control, forms⟩, ⟨short, shorts⟩⟩
    exact ⟨⟨control, short⟩, fun activity among => ⟨forms activity among, shorts activity among⟩⟩

end build

theorem task_built {raw : Value} {read : Task} :
    task raw = .ok read ↔ ∃ definition, Defines raw definition ∧ definition.build = .ok read := by
  rw [task_eq_ok]
  constructor
  · rintro ⟨entries, definition, isMap, passes, built⟩
    exact ⟨definition, defines_iff.mpr ⟨entries, isMap, passes⟩, built⟩
  · rintro ⟨definition, defines, built⟩
    obtain ⟨entries, isMap, passes⟩ := defines_iff.mp defines
    exact ⟨entries, definition, isMap, passes, built⟩

/-- A raw value reads as a task just if it is a map that gives all fields within their bounds, with
path texts in their grammars; its task is what the definition becomes. Values with more digits than a
whole number may have are left aside. -/
theorem task_language (raw : Value) :
    ((∃ read, task raw = .ok read) ↔
      ∃ definition, Defines raw definition ∧ definition.Grammatical ∧ definition.Short) ∧
    ∀ read, task raw = .ok read ↔ ∃ definition, Defines raw definition ∧ definition.Becomes read := by
  refine ⟨?_, fun read => by simp only [task_built, build_iff]⟩
  simp only [task_built, ← build_accepted]
  constructor
  · rintro ⟨read, definition, defines, built⟩
    exact ⟨definition, defines, read, built⟩
  · rintro ⟨definition, defines, read, built⟩
    exact ⟨read, definition, defines, built⟩

end Cadence.Definition
