import Cadence.Proofs.Controller.Delivery
import Cadence.Proofs.Path.RoundTrip
import Cadence.Proofs.Roster.Sorting

namespace Cadence
open Cadence.Path Definition

variable {text : Option String} {trigger : Trigger} {activity : Activity} {task : Task}

/-! ## Numbers -/

section numbers
open Float.Model
variable {x y : Float}

theorem compare_notANumber (x : UnpackedFloat) : x.compare .notANumber = none := by
  cases x <;> rfl

theorem isNaN_of_unpack (number : x.toModel.unpack ≠ .notANumber) : x.isNaN = false := by
  have unpacked : x.isNaN = x.toModel.unpack.isNaN := rfl
  rw [unpacked]
  cases shape : x.toModel.unpack with
  | notANumber => exact absurd shape number
  | _ => rfl

theorem isNaN_of_lt (less : x < y) : y.isNaN = false := by
  apply isNaN_of_unpack
  intro shape
  have unpacked : x.toModel.unpack.lt y.toModel.unpack = true := of_decide_eq_true less
  rw [shape, UnpackedFloat.lt, compare_notANumber] at unpacked
  cases unpacked

theorem isNaN_of_le (less : x ≤ y) : y.isNaN = false := by
  apply isNaN_of_unpack
  intro shape
  have unpacked : x.toModel.unpack.le y.toModel.unpack = true := of_decide_eq_true less
  rw [shape, UnpackedFloat.le, compare_notANumber] at unpacked
  cases unpacked

end numbers

/-! ## Parts of a task -/

structure Activity.Admissible (activity : Activity) : Prop where
  duration : 0 < activity.duration ∧ activity.duration.isNaN = false
  delay : 0 ≤ activity.delay ∧ activity.delay.isNaN = false
  cycles : 0 ≤ activity.cycles
  off : activity.off = none ∨ activity.off = some .null → activity.kind = .notification

structure Trigger.Admissible (trigger : Trigger) : Prop where
  kind : trigger.kind = Kind.of trigger.path
  on : trigger.kind = .switch → ∃ on, trigger.on = some on ∧ on ≠ .null

structure Task.Admissible (task : Task) : Prop where
  name : task.name ≠ ""
  trigger : task.trigger.Admissible
  present : task.activities ≠ []
  activities : ∀ activity ∈ task.activities, activity.Admissible

theorem Activity.Admissible.of_runs (runs : Runs activity.duration activity.delay activity.cycles)
    (complete : activity.toDrive.Complete) : activity.Admissible where
  duration := ⟨runs.duration, isNaN_of_lt runs.duration⟩
  delay := ⟨runs.delay, isNaN_of_le runs.delay⟩
  cycles := runs.cycles
  off := by
    intro noValue
    cases kind : activity.kind with
    | notification => rfl
    | switch =>
        obtain ⟨off, value, valued⟩ := complete.off kind
        rcases noValue with none | null
        · simp [value] at none
        · simp [value, valued] at null

theorem Path.Carries.ne_null {state : List Char} {value : Value}
    (carries : Carries .switch state value) : value ≠ .null :=
  scalar_ne_null carries.read

theorem Path.Controls.admissible (controls : Controls trigger) : trigger.Admissible := by
  cases controls with
  | any path valid kind => exact ⟨kind.symm, nofun⟩
  | state path state value valid carries closes =>
      refine ⟨rfl, fun switch => ⟨value, rfl, ?_⟩⟩
      rw [show Kind.of path = .switch from switch] at carries
      exact carries.ne_null

theorem Definition.task_admissible {raw : Value} (read : Definition.task raw = .ok task) :
    task.Admissible := by
  obtain ⟨entries, definition, rfl, passes, built⟩ := task_eq_ok.mp read
  obtain ⟨name, -, control, made⟩ := build_eq_ok built
  obtain ⟨present, runsDefined⟩ := activitiesField_eq_ok (checkTask_eq_ok passes).2.2
  obtain ⟨length, runs⟩ := buildActivities_runs made runsDefined
  have complete := task_complete read
  refine ⟨?_, (readControl_controls control).admissible, ?_, ?_⟩
  · rw [name]
    exact checkTask_named passes
  · rwa [← List.length_pos_iff, length, List.length_pos_iff]
  · intro activity among
    exact .of_runs (runs activity among) (complete activity among)

/-! ## What follows -/

theorem Activity.Admissible.breach? (admissible : activity.Admissible) :
    Sequencer.breach? activity = none := by
  simp [Sequencer.breach?, admissible.duration.1, admissible.delay.1,
    Int.not_lt.mpr admissible.cycles]

theorem Task.Admissible.create (admissible : task.Admissible) :
    Sequencer.create task.name task.activities = .ok (.idle task.name task.activities) := by
  have sound : task.activities.findSome? Sequencer.breach? = none :=
    List.findSome?_eq_none_iff.mpr fun activity among => (admissible.activities activity among).breach?
  simp [Sequencer.create, admissible.present, sound]

theorem Trigger.Admissible.evaluate [Host] (admissible : trigger.Admissible) (payload : Value) :
    trigger.evaluate payload ≠ .error .noValue := by
  cases kind : trigger.kind with
  | notification =>
      cases on : trigger.on with
      | none => cases payload <;> simp [Trigger.evaluate, kind, on]
      | some value =>
          simp only [Trigger.evaluate, kind, on]
          cases valuesMatch (stateOf payload) value <;> simp [Except.mapError]
  | switch =>
      obtain ⟨value, on, -⟩ := admissible.on kind
      simp only [Trigger.evaluate, kind, on]
      cases valuesMatch payload value <;> simp [Except.mapError]

namespace Roster

structure Granted [Host] (outlet : Outlet) (task : Task) : Prop where
  create : Sequencer.create task.name task.activities = .ok (.idle task.name task.activities)
  evaluate : ∀ payload, task.trigger.evaluate payload ≠ .error .noValue
  write : ∀ event : Event, event.activity ∈ task.activities →
    ∀ path, outlet.call event ≠ .write path .null

theorem ofList_admits [Host] {raws : List Value} {roster : Roster}
    (made : ofList raws = .ok roster) (outlet : Outlet) :
    roster.names.Nodup ∧
      Controller.create roster.tasks outlet = .ok (Controller.idle roster.tasks outlet) ∧
      ∀ task ∈ roster.tasks, task.Admissible ∧ Granted outlet task := by
  obtain ⟨kept, sorting⟩ := ofList_sorting made
  refine ⟨sorting.distinct, ?_, ?_⟩
  · have distinct : (roster.tasks.map Task.name).Nodup := sorting.distinct
    simp [Controller.create, distinct]
  · intro task among
    obtain ⟨raw, read⟩ := sorting.read among
    have admissible := task_admissible read
    refine ⟨admissible, admissible.create, admissible.trigger.evaluate, ?_⟩
    intro event member path
    have complete := task_complete read event.activity member
    exact (asks_call complete).ne_write_null complete

theorem tide_admitted :
    ∃ roster, ofList tideDefinitions = .ok roster ∧ roster.names = ["deck", "bow"] ∧
      (∀ task ∈ roster.tasks, ∃ activity ∈ task.activities, activity.duration == Decimal.infinity) ∧
      ∀ task ∈ roster.tasks, task.Admissible ∧ Granted ⟨"on", "off", [], 0⟩ task := by
  have names : (ofList tideDefinitions).map Roster.names = .ok ["deck", "bow"] := by decide +kernel
  have endless : (ofList tideDefinitions).map (fun roster => roster.tasks.all fun task =>
      task.activities.any (·.duration == Decimal.infinity)) = .ok true := by decide +kernel
  cases made : ofList tideDefinitions with
  | error halt => simp [made, Except.map] at names
  | ok roster =>
      rw [made] at names endless
      have admitted := (ofList_admits made ⟨"on", "off", [], 0⟩).2.2
      refine ⟨roster, rfl, Except.ok.inj names, ?_, admitted⟩
      intro task among
      have any := List.all_eq_true.mp (Except.ok.inj endless) task among
      exact List.any_eq_true.mp any

end Roster
end Cadence
