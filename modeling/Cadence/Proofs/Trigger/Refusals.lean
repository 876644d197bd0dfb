import Cadence.Proofs.Trigger.Spellings
import Cadence.Proofs.Trigger.Watches
import Cadence.Proofs.Value.Oversized

namespace Cadence.Trigger
open Cadence.Path Decimal

variable [Host] {text : Option String} {trigger : Trigger} {payload : Value}

def observed (trigger : Trigger) (payload : Value) : Value :=
  match trigger.kind with
  | .notification => stateOf payload
  | .switch => payload

/-- The trigger would have to write what has no text. -/
def Refuses (trigger : Trigger) (payload : Value) (cause : Oversize) : Prop :=
  trigger.on ≠ none ∧ (trigger.observed payload).Exceeds Host.textLevels cause

theorem valuesMatch_fails {kind : Kind} {chars : List Char} {expected : Value}
    (read : readValue kind chars = .ok expected) (seen : Value) :
    FailsFor (valuesMatch seen expected) (seen.Exceeds Host.textLevels) := by
  obtain ⟨wanted, plain⟩ := readValue_plain read
  rcases eq_or_ne seen .null with rfl | present
  · exact fun _ => Value.not_exceeds_null
  · rw [valuesMatch_present present plain]
    split
    · next equal =>
        intro cause exceeds
        rw [Value.same_exceeds exceeds (readValue_cases read)] at equal
        cases equal
    · exact seen.plainText_fails.map fun text => decide (text = wanted)

theorem evaluate_state (path : String) (value payload : Value) :
    let trigger : Trigger := ⟨Kind.of path, path, some value⟩
    trigger.evaluate payload = (valuesMatch (trigger.observed payload) value).mapError .oversize := by
  intro trigger
  cases kind : Kind.of path with
  | notification => simp only [trigger, evaluate, observed, kind]
  | switch => simp only [trigger, evaluate, observed, kind]

theorem evaluate_cases (read : readControl text = .ok trigger) (payload : Value) :
    (∃ on, trigger.evaluate payload = .ok on) ∧ (∀ cause, ¬ trigger.Refuses payload cause) ∨
      ∃ cause, trigger.evaluate payload = .error (.oversize cause) ∧
        trigger.Refuses payload cause := by
  obtain ⟨path, valid, kind⟩ | ⟨path, state, value, valid, carries, closes⟩ :=
    readControl_controls read
  · refine .inl ⟨?_, fun _ refuses => refuses.1 rfl⟩
    cases payload <;> exact ⟨_, rfl⟩
  · let trigger : Trigger := ⟨Kind.of path, path, some value⟩
    have refuses (cause : Oversize) : trigger.Refuses payload cause ↔
        (trigger.observed payload).Exceeds Host.textLevels cause :=
      and_iff_right (by simp [trigger])
    rw [evaluate_state]
    have fails := valuesMatch_fails carries.read (trigger.observed payload)
    cases fires : valuesMatch (trigger.observed payload) value with
    | ok on =>
        rw [fires] at fails
        exact .inl ⟨⟨on, rfl⟩, fun cause => mt (refuses cause).mp (fails cause)⟩
    | error cause =>
        rw [fires] at fails
        exact .inr ⟨cause, rfl, (refuses cause).mpr fails⟩

theorem refuses_of_error (read : readControl text = .ok trigger) {failure : Failure}
    (fails : trigger.evaluate payload = .error failure) :
    ∃ cause, failure = .oversize cause ∧ trigger.Refuses payload cause := by
  rcases evaluate_cases read payload with ⟨⟨on, fires⟩, -⟩ | ⟨cause, refused, refuses⟩
  · rw [fires] at fails
    cases fails
  · rw [refused] at fails
    exact ⟨cause, (Except.error.inj fails).symm, refuses⟩

/-! ## Watches -/

/-- What a watch has to be handed to end in a way. -/
def Ending.Cause (trigger : Trigger) (inputs : List (Option Signal)) : Ending → Prop
  | .finished => some .finish ∈ inputs
  | .failed text => some (.failure text) ∈ inputs
  | .refused failure => ∃ cause, failure = .oversize cause ∧
      ∃ payload, some (.value payload) ∈ inputs ∧ trigger.Refuses payload cause
  | .left => none ∈ inputs

variable {inputs : List (Option Signal)} {ending : Ending}

theorem Ending.Cause.mono {more : List (Option Signal)} (cause : ending.Cause trigger inputs)
    (within : inputs ⊆ more) : ending.Cause trigger more := by
  cases ending with
  | finished => exact within cause
  | failed text => exact within cause
  | refused failure =>
      obtain ⟨cause, rfl, payload, among, refuses⟩ := cause
      exact ⟨cause, rfl, payload, within among, refuses⟩
  | left => exact within cause

namespace Watch

theorem Ends.cause (read : readControl text = .ok trigger)
    (ends : Ends trigger inputs (some ending)) : ending.Cause trigger inputs := by
  cases ends with
  | finished => exact List.mem_cons_self
  | failed => exact List.mem_cons_self
  | refused raises =>
      obtain ⟨cause, rfl, refuses⟩ := refuses_of_error read raises
      exact ⟨cause, rfl, _, List.mem_cons_self, refuses⟩
  | left => exact List.mem_cons_self

theorem ended_caused (read : readControl text = .ok trigger) {watch : Watch}
    (goes : watch.ending = none)
    (ended : .ended ending ∈ (Outcome.each (take trigger) inputs watch).reports) :
    ending.Cause trigger inputs := by
  obtain ⟨payloads, states, rest, last, rfl, -, ends, reports⟩ :=
    @take_edges _ trigger watch goes inputs
  rw [reports, List.mem_append] at ended
  rcases ended with among | among
  · simp [told] at among
  · cases last with
    | none => cases among
    | some last =>
        obtain rfl : ending = last := by simpa [conclusion] using among
        exact (ends.cause read).mono (List.subset_append_right _ _)

end Watch
end Cadence.Trigger
