import Cadence.Definition.Task
import Cadence.Proofs.Path.Patterns

namespace Cadence
open Cadence.Path

structure Drive.Complete (drive : Drive) : Prop where
  on : drive.on ≠ .null
  off : drive.kind = .switch → ∃ off, drive.off = some off ∧ off ≠ .null

theorem bind_eq_ok {ε α β : Type} {first : Except ε α} {next : α → Except ε β} {y : β} :
    (first >>= next) = .ok y ↔ ∃ x, first = .ok x ∧ next x = .ok y := by
  cases first with
  | error cause => simp [bind, Except.bind]
  | ok x => simp [bind, Except.bind]

theorem bind_eq_error {ε α β : Type} {first : Except ε α} {next : α → Except ε β} {cause : ε} :
    (first >>= next) = .error cause ↔
      first = .error cause ∨ ∃ x, first = .ok x ∧ next x = .error cause := by
  cases first with
  | error other => simp [bind, Except.bind]
  | ok x => simp [bind, Except.bind]

theorem mapError_eq_ok {ε ε' α : Type} {shown : ε → ε'} {result : Except ε α} {value : α} :
    result.mapError shown = .ok value ↔ result = .ok value := by
  cases result with
  | error cause => exact ⟨nofun, nofun⟩
  | ok found =>
      constructor
      · intro same
        exact congrArg Except.ok (Except.ok.inj same)
      · intro same
        exact congrArg Except.ok (Except.ok.inj same)

theorem eq_ok_of_mapError {ε ε' α : Type} {shown : ε → ε'} {result : Except ε α} {value : α}
    (mapped : result.mapError shown = .ok value) : result = .ok value :=
  mapError_eq_ok.mp mapped

namespace Path

theorem scalar_ne_null {text : List Char} {value : Value} (read : scalar text = .ok value) :
    value ≠ .null := by
  unfold scalar at read
  split at read
  · obtain rfl := Except.ok.inj read
    simp
  · next literal _ =>
      split at read
      · cases whole : Decimal.wholeOfDigits literal.negative literal.whole with
        | error cause => simp [whole, Except.map] at read
        | ok n =>
            rw [whole] at read
            obtain rfl := Except.ok.inj read
            simp
      · obtain rfl := Except.ok.inj read
        simp

theorem scalarValue_ne_null {text : List Char} {value : Value}
    (read : scalarValue text = .ok value) : value ≠ .null :=
  scalar_ne_null (eq_ok_of_mapError read)

theorem readActivity_complete {text : Option String} {drive : Drive}
    (read : readActivity text = .ok drive) : drive.Complete := by
  rw [readActivity_eq] at read
  split at read
  · next path values _ =>
      split at read
      · next kind _ =>
          obtain rfl := Except.ok.inj read
          exact ⟨by simp, fun switch => by simp [Drive.kind, kind] at switch⟩
      · next on kind _ =>
          obtain rfl := Except.ok.inj read
          exact ⟨by simp [verbatim], fun switch => by simp [Drive.kind, kind] at switch⟩
      · next on off kind _ =>
          obtain rfl := Except.ok.inj read
          exact ⟨by simp [verbatim], fun switch => by simp [Drive.kind, kind] at switch⟩
      · obtain rfl := Except.ok.inj read
        exact ⟨by simp, fun _ => ⟨.whole 0, rfl, by simp⟩⟩
      · next on off _ _ =>
          obtain ⟨onValue, onRead, read⟩ := bind_eq_ok.mp read
          obtain ⟨offValue, offRead, read⟩ := bind_eq_ok.mp read
          obtain rfl := Except.ok.inj read
          exact ⟨scalarValue_ne_null onRead,
            fun _ => ⟨offValue, rfl, scalarValue_ne_null offRead⟩⟩
      · cases read
  · cases read

end Path

namespace Definition

theorem buildActivities_complete {task : String} {index : Nat}
    {definitions : List ActivityDefinition} {activities : List Activity}
    (built : buildActivities task index definitions = .ok activities) :
    ∀ activity ∈ activities, activity.toDrive.Complete := by
  induction definitions generalizing index activities with
  | nil =>
      obtain rfl := Except.ok.inj built
      simp
  | cons definition rest ih =>
      obtain ⟨drive, read, built⟩ := bind_eq_ok.mp built
      obtain ⟨others, later, built⟩ := bind_eq_ok.mp built
      obtain rfl := Except.ok.inj built
      intro activity among
      rcases List.mem_cons.mp among with rfl | other
      · exact readActivity_complete (eq_ok_of_mapError read)
      · exact ih later activity other

theorem task_complete {raw : Value} {read : Task} (normalized : task raw = .ok read) :
    ∀ activity ∈ read.activities, activity.toDrive.Complete := by
  unfold task at normalized
  split at normalized
  · next entries =>
      split at normalized
      · cases normalized
      · obtain ⟨trigger, -, normalized⟩ := bind_eq_ok.mp normalized
        obtain ⟨activities, built, normalized⟩ := bind_eq_ok.mp normalized
        obtain rfl := Except.ok.inj normalized
        exact buildActivities_complete built
  · cases normalized

end Definition
end Cadence
