import Cadence.Trigger.Feed

namespace Cadence

def Signal.isFinish : Signal → Bool
  | .finish => true
  | _ => false

def Finding.closes : Finding → Bool
  | .changed _ => false
  | .failed _ | .finished => true

namespace Trigger

variable [Host]

def reads? (trigger : Trigger) : Signal → Option Bool
  | .value payload => (trigger.evaluate payload).toOption
  | _ => none

def heard (signals : List Signal) : List Signal := signals.takeWhile (!·.isFinish)

def IsOn (trigger : Trigger) (signals : List Signal) : Prop :=
  (∀ signal ∈ heard signals, (trigger.reads? signal).isSome) ∧
    (heard signals).getLast?.bind trigger.reads? = some true

def hold (trigger : Trigger) (on : Bool) : List Signal → Bool
  | [] => on
  | .finish :: _ => on
  | .failure _ :: _ => false
  | .value payload :: rest =>
      match trigger.evaluate payload with
      | .error _ => false
      | .ok state => hold trigger state rest

def closed (trigger : Trigger) (signals : List Signal) : Bool :=
  signals.any fun signal => (trigger.reads? signal).isNone

variable {trigger : Trigger} {on : Bool} {signals before after : List Signal}

theorem hold_iff : trigger.hold on signals = true ↔
    (∀ signal ∈ heard signals, (trigger.reads? signal).isSome) ∧
      (heard signals).getLast?.elim (some on) trigger.reads? = some true := by
  induction signals generalizing on with
  | nil => simp [hold, heard]
  | cons signal rest ih =>
      cases signal with
      | finish => simp [hold, heard, Signal.isFinish]
      | failure text => simp [hold, heard, Signal.isFinish, reads?]
      | value payload =>
          have unfolded : heard (.value payload :: rest) = .value payload :: heard rest := rfl
          cases read : trigger.evaluate payload with
          | error failure =>
              simp [hold, unfolded, read, reads?, Except.toOption]
          | ok state =>
              have reads : trigger.reads? (.value payload) = some state := by
                simp [reads?, read, Except.toOption]
              simp only [hold, read]
              rw [ih, unfolded, List.getLast?_cons]
              cases last : (heard rest).getLast? with
              | none => simp [reads]
              | some signal => simp [reads]

theorem isOn_iff : trigger.IsOn signals ↔ trigger.hold false signals = true := by
  rw [hold_iff, IsOn]
  cases (heard signals).getLast? <;> simp

theorem hold_append (stillOpen : trigger.closed before = false) :
    trigger.hold on (before ++ after) = trigger.hold (trigger.hold on before) after := by
  induction before generalizing on with
  | nil => rfl
  | cons signal rest ih =>
      simp only [closed, List.any_cons, Bool.or_eq_false_iff] at stillOpen
      cases signal with
      | finish => simp [reads?] at stillOpen
      | failure text => simp [reads?] at stillOpen
      | value payload =>
          cases read : trigger.evaluate payload with
          | error failure => simp [reads?, read, Except.toOption] at stillOpen
          | ok state =>
              simp only [List.cons_append, hold, read]
              exact ih stillOpen.2

theorem hold_closed (isClosed : trigger.closed before = true) :
    trigger.hold on (before ++ after) = trigger.hold on before := by
  induction before generalizing on with
  | nil => simp [closed] at isClosed
  | cons signal rest ih =>
      cases signal with
      | finish => rfl
      | failure text => rfl
      | value payload =>
          cases read : trigger.evaluate payload with
          | error failure => simp [hold, read]
          | ok state =>
              have later : trigger.closed rest = true := by
                simpa [closed, reads?, read, Except.toOption] using isClosed
              simp only [List.cons_append, hold, read]
              exact ih later

@[simp] theorem closed_append (trigger : Trigger) (before after : List Signal) :
    trigger.closed (before ++ after) = (trigger.closed before || trigger.closed after) := by
  simp [closed]

/-- Findings of a feed whose trigger was on or off, and whether its task is active in the end. -/
inductive Alternates : Bool → List Finding → Bool → Prop
  | quiet {on : Bool} : Alternates on [] on
  | changes {on last : Bool} {rest : List Finding} (later : Alternates (!on) rest last) :
      Alternates on (.changed (!on) :: rest) last
  | failed {on : Bool} {text : String} : Alternates on [.failed text] false
  | finished {on : Bool} : Alternates on [.finished] on

theorem findings_alternate (trigger : Trigger) (on : Bool) (signals : List Signal) :
    Alternates on (trigger.findings on signals).2 (trigger.hold on signals) := by
  induction signals generalizing on with
  | nil => exact .quiet
  | cons signal rest ih =>
      cases signal with
      | finish => exact .finished
      | failure text => exact .failed
      | value payload =>
          cases read : trigger.evaluate payload with
          | error failure =>
              simp only [findings, hold, edge?, read, Except.map]
              exact .failed
          | ok state =>
              by_cases same : state = on
              · simp only [findings, hold, edge?, read, Except.map, same, if_true]
                exact ih on
              · obtain rfl : state = !on := by
                  cases state <;> cases on <;> simp_all
                simp only [findings, hold, edge?, read, Except.map, same, if_false]
                exact .changes (ih _)

theorem findings_state (stillOpen : trigger.closed signals = false) :
    (trigger.findings on signals).1 = trigger.hold on signals := by
  induction signals generalizing on with
  | nil => rfl
  | cons signal rest ih =>
      simp only [closed, List.any_cons, Bool.or_eq_false_iff] at stillOpen
      cases signal with
      | finish => simp [reads?] at stillOpen
      | failure text => simp [reads?] at stillOpen
      | value payload =>
          cases read : trigger.evaluate payload with
          | error failure => simp [reads?, read, Except.toOption] at stillOpen
          | ok state =>
              by_cases same : state = on
              · simp only [findings, hold, edge?, read, Except.map, same, if_true]
                exact ih stillOpen.2
              · simp only [findings, hold, edge?, read, Except.map, same, if_false]
                exact ih stillOpen.2

theorem findings_append (trigger : Trigger) (on : Bool) (before after : List Signal) :
    trigger.findings on (before ++ after) =
      let first := trigger.findings on before
      let second := trigger.findings first.1 (if trigger.closed before then [] else after)
      (second.1, first.2 ++ second.2) := by
  induction before generalizing on with
  | nil => rfl
  | cons signal rest ih =>
      cases signal with
      | finish => simp [findings, closed, reads?]
      | failure text => simp [findings, closed, reads?]
      | value payload =>
          cases read : trigger.evaluate payload with
          | error failure => simp [findings, edge?, read, Except.map, closed, reads?, Except.toOption]
          | ok state =>
              have closes : trigger.closed (.value payload :: rest) = trigger.closed rest := by
                simp [closed, reads?, read, Except.toOption]
              rw [closes]
              by_cases same : state = on
              · simp only [List.cons_append, findings, edge?, read, Except.map, same, if_true]
                exact ih on
              · simp only [List.cons_append, findings, edge?, read, Except.map, same, if_false]
                rw [ih state]

theorem findings_closes (trigger : Trigger) (on : Bool) (signals : List Signal) :
    (trigger.findings on signals).2.any Finding.closes = trigger.closed signals := by
  induction signals generalizing on with
  | nil => rfl
  | cons signal rest ih =>
      cases signal with
      | finish => rfl
      | failure text => rfl
      | value payload =>
          cases read : trigger.evaluate payload with
          | error failure =>
              simp [findings, edge?, read, Except.map, Finding.closes, closed, reads?,
                Except.toOption]
          | ok state =>
              have later : trigger.closed (.value payload :: rest) = trigger.closed rest := by
                simp [closed, reads?, read, Except.toOption]
              by_cases same : state = on
              · simp only [findings, edge?, read, Except.map, same, if_true]
                rw [ih, later]
              · simp only [findings, edge?, read, Except.map, same, if_false, List.any_cons,
                  Finding.closes, Bool.false_or]
                rw [ih, later]

omit [Host] in
theorem Alternates.command {findings : List Finding} {last : Bool}
    (alternates : Alternates on findings last) :
    (findings.filterMap Finding.command?).getLast?.getD (Command.ofState on) =
      Command.ofState last := by
  induction alternates with
  | quiet => rfl
  | @changes on last rest _ ih =>
      have commands : (.changed (!on) :: rest).filterMap Finding.command? =
          Command.ofState (!on) :: rest.filterMap Finding.command? := rfl
      rw [commands, List.getLast?_cons, Option.getD_some]
      exact ih
  | failed => rfl
  | finished => rfl

end Trigger
end Cadence
