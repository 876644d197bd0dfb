import Cadence.Proofs.Trigger.Orders

namespace Cadence.Trigger

variable [Host]

def mend (trigger : Trigger) (zero : Value) : List Signal → List Signal
  | [] => []
  | .finish :: rest => .finish :: rest
  | .failure _ :: _ => [.value zero]
  | .value payload :: rest =>
      match trigger.evaluate payload with
      | .error _ => [.value zero]
      | .ok _ => .value payload :: mend trigger zero rest

def mendBehind (trigger : Trigger) (zero : Value) (heard signals : List Signal) : List Signal :=
  if trigger.fails heard then [] else trigger.mend zero signals

variable {trigger : Trigger} {zero : Value} {on : Bool} {signals before after : List Signal}

theorem evaluate_null (carries : trigger.kind = .switch → trigger.on ≠ none) :
    trigger.evaluate .null = .ok false := by
  obtain ⟨kind, path, on⟩ := trigger
  cases kind with
  | notification => cases on <;> rfl
  | switch =>
      cases on with
      | none => exact absurd rfl (carries rfl)
      | some expected => rfl

theorem fails_append : trigger.fails (before ++ after) =
    (trigger.fails before || !trigger.closed before && trigger.fails after) := by
  induction before with
  | nil => simp [fails, closed]
  | cons signal rest ih =>
      cases signal with
      | finish => simp [fails, closed, reads?]
      | failure text => simp [fails]
      | value payload =>
          cases read : trigger.evaluate payload with
          | error failure => simp [fails, read]
          | ok state =>
              have closes : trigger.closed (.value payload :: rest) = trigger.closed rest := by
                simp [closed, reads?, read, Except.toOption]
              simpa [fails, read, closes] using ih

theorem closed_of_fails (on : Bool) (failed : trigger.fails signals = true) :
    trigger.closed signals = true ∧ trigger.hold on signals = false := by
  induction signals generalizing on with
  | nil => cases failed
  | cons signal rest ih =>
      cases signal with
      | finish => cases failed
      | failure text => exact ⟨rfl, rfl⟩
      | value payload =>
          cases read : trigger.evaluate payload with
          | error failure => simp [closed, reads?, read, Except.toOption, hold]
          | ok state =>
              have later := ih state (by simpa [fails, read] using failed)
              simpa [closed, reads?, read, Except.toOption, hold] using later

theorem mend_eq_self (holds : trigger.fails signals = false) : trigger.mend zero signals = signals := by
  induction signals with
  | nil => rfl
  | cons signal rest ih =>
      cases signal with
      | finish => rfl
      | failure text => cases holds
      | value payload =>
          cases read : trigger.evaluate payload with
          | error failure => simp [fails, read] at holds
          | ok state => simp [mend, read, ih (by simpa [fails, read] using holds)]

theorem mend_ne_nil (zero : Value) (failed : trigger.fails signals = true) :
    trigger.mend zero signals ≠ [] := by
  cases signals with
  | nil => cases failed
  | cons signal rest =>
      cases signal with
      | finish => cases failed
      | failure text => simp [mend]
      | value payload => cases read : trigger.evaluate payload <;> simp [mend, read]

section failed
variable (off : trigger.evaluate zero = .ok false) (failed : trigger.fails signals = true)
include off failed

theorem states_mend : trigger.states (trigger.mend zero signals) = trigger.states signals ++ [false] ∧
    trigger.fails (trigger.mend zero signals) = false := by
  induction signals with
  | nil => cases failed
  | cons signal rest ih =>
      cases signal with
      | finish => cases failed
      | failure text => simp [mend, states, fails, reads?, off, Except.toOption]
      | value payload =>
          cases read : trigger.evaluate payload with
          | error failure => simp [mend, states, fails, reads?, read, off, Except.toOption]
          | ok state =>
              have later := ih (by simpa [fails, read] using failed)
              simpa [mend, states, fails, reads?, read, Except.toOption] using later

theorem findings_mend (on : Bool) : ∃ found last text, Alternates on found last ∧
    (trigger.findings on signals).2 = found ++ [.failed text] ∧
    (trigger.findings on (trigger.mend zero signals)).2 =
      found ++ if last then [.changed false] else [] := by
  induction signals generalizing on with
  | nil => cases failed
  | cons signal rest ih =>
      -- The last value is all that is left where the feed fails, with nothing found before it.
      have gone : (trigger.findings on [.value zero]).2 = if on then [.changed false] else [] := by
        cases on <;> simp [findings, edge?, off, Except.map]
      cases signal with
      | finish => cases failed
      | failure text => exact ⟨[], on, text, .quiet, rfl, gone⟩
      | value payload =>
          cases read : trigger.evaluate payload with
          | error failure =>
              have mended : trigger.mend zero (.value payload :: rest) = [.value zero] := by
                simp [mend, read]
              rw [mended]
              exact ⟨[], on, failure.message, .quiet, by simp [findings, edge?, read, Except.map], gone⟩
          | ok state =>
              have mended : trigger.mend zero (.value payload :: rest) =
                  .value payload :: trigger.mend zero rest := by
                simp [mend, read]
              obtain ⟨found, last, text, alternates, findings, findings'⟩ :=
                ih (by simpa [fails, read] using failed) state
              rw [mended]
              by_cases same : state = on
              · subst same
                exact ⟨found, last, text, alternates, by simpa [Trigger.findings, edge?, read, Except.map],
                  by simpa [Trigger.findings, edge?, read, Except.map]⟩
              · obtain rfl : state = !on := by
                  cases state <;> cases on <;> simp_all
                exact ⟨.changed (!on) :: found, last, text, .changes alternates,
                  by simpa [Trigger.findings, edge?, read, Except.map],
                  by simpa [Trigger.findings, edge?, read, Except.map]⟩

end failed

end Cadence.Trigger
