import Cadence.Proofs.Controller.Mended
import Cadence.Proofs.Trigger.Refusals

namespace Cadence.Trigger
open Cadence.Path

theorem closed_eq_false [Host] {text : Option String} {trigger : Trigger} {signals : List Signal}
    (read : readControl text = .ok trigger) : trigger.closed signals = false ↔
    ∀ signal ∈ signals, ∃ payload, signal = .value payload ∧
      ∀ cause, ¬ trigger.Refuses payload cause := by
  rw [closed, List.any_eq_false]
  refine forall₂_congr fun signal _ => ?_
  cases signal with
  | finish => simp [reads?]
  | failure text => simp [reads?]
  | value payload =>
      rcases evaluate_cases read payload with ⟨⟨on, fires⟩, never⟩ | ⟨cause, fails, refuses⟩
      · simp [reads?, fires, never, Except.toOption]
      · have refused : ∃ cause, trigger.Refuses payload cause := ⟨cause, refuses⟩
        simpa [reads?, fails, Except.toOption] using refused

end Cadence.Trigger

namespace Cadence.Controller
open Cadence.Path Trigger Watched

section
variable [Host] {tasks : List Task} {outlet : Outlet} {fresh : Controller} {task : Task}
  {text : Option String}

def fed (path : String) (beats : List Beat) (before : Controller) : List Signal :=
  (before.bus.last? path).toList ++ Bus.published path (beats.flatMap Beat.signals)

theorem listens_iff (created : create tasks outlet = .ok fresh) (earlier : List Step)
    (resting : (run earlier fresh).state.started = false) (beats : List Beat) (among : task ∈ tasks) :
    task.name ∈ (run (.start :: beats.map Beat.step) (run earlier fresh).state).state.bus.readers ↔
      task.trigger.closed (fed task.trigger.path beats (run earlier fresh).state) = false := by
  let before := (run earlier fresh).state
  let outcome := run (.start :: beats.map Beat.step) before
  obtain ⟨tasksAre, outletIs⟩ := created_serves created earlier
  have nonempty : before.tasks ≠ [] := tasksAre ▸ List.ne_nil_of_mem among
  have settled : Settled [] (fun path => fed path beats before) (run earlier fresh).reports
      outcome.state outcome.reports :=
    beats_settled beats (start_settled (created_booked created earlier)
      (created_listed created earlier) resting nonempty)
  have sameTasks : outcome.state.tasks = tasks :=
    ((serves_stepwise tasks outlet).run _ before [] ⟨tasksAre, outletIs⟩).1
  have started : outcome.state.started = true := beats_started beats (start_started before)
  obtain ⟨s, member, rfl⟩ :=
    settled.attuned.booked.station_of_started started (sameTasks ▸ among)
  constructor
  · intro reads
    by_contra isClosed
    exact settled_closed settled member (Bool.eq_true_of_not_eq_false isClosed) reads
  · intro stillOpen
    obtain ⟨subscription, listens, reader, -⟩ := settled_open settled member stillOpen
    exact List.mem_map.mpr ⟨subscription, listens, reader⟩

/-- A trigger that was read evaluates every payload but one with a whole number in it that is too
large to be written, or with too much nesting. A watch ends by itself, and a task stops listening,
only if the source fails or ends or hands over such a payload. -/
theorem only_oversized_refused {trigger : Trigger} (read : readControl text = .ok trigger) :
    (∀ payload, (∃ on, trigger.evaluate payload = .ok on) ∧
        (∀ cause, ¬ trigger.Refuses payload cause) ∨
      ∃ cause, trigger.evaluate payload = .error (.oversize cause) ∧
        trigger.Refuses payload cause) ∧
    (∀ before after ending,
      .ended ending ∈ about (begun before)
        (Watched.run (before ++ .watch :: after) ⟨trigger, []⟩).reports →
      ending.Cause trigger (inputs (begun before) after)) ∧
    ∀ tasks outlet fresh earlier before beats, create tasks outlet = .ok fresh →
      (run earlier fresh).state = before → before.started = false →
      ∀ task ∈ tasks, task.trigger = trigger →
      (task.name ∈ (run (.start :: beats.map Beat.step) before).state.bus.readers ↔
        ∀ signal ∈ fed trigger.path beats before,
          ∃ payload, signal = .value payload ∧ ∀ cause, ¬ trigger.Refuses payload cause) := by
  refine ⟨evaluate_cases read, ?_, ?_⟩
  · intro before after ending ended
    rw [watch_told] at ended
    exact Watch.ended_caused read rfl (by simpa using ended)
  · rintro tasks outlet fresh earlier _ beats created rfl resting task among rfl
    rw [← closed_eq_false read]
    exact listens_iff created earlier resting beats among

end

theorem readControl_evening : readControl (some "switches.deck") = .ok evening.trigger := by
  have parts : partsOf? (some "switches.deck") = some ("switches.deck", []) := rfl
  simp only [readControl_eq, parts, kind_deck]
  rfl

@[irreducible] def large : Value := .whole (10 ^ Decimal.wholeLimit)

theorem large_exceeds {levels : Nat} {cause : Decimal.Oversize} :
    large.Exceeds levels cause ↔ cause = .write := by
  unfold large
  rw [Value.exceeds_whole, Int.natAbs_pow]
  exact and_iff_left (Nat.pow_le_pow_left (by decide) _)

def lists : Nat → Value
  | 0 => .list []
  | depth + 1 => .list [lists depth]

theorem lists_exceeds {depth levels : Nat} {cause : Decimal.Oversize} :
    (lists depth).Exceeds levels cause ↔ levels < depth ∧ cause = .nested := by
  induction depth generalizing levels with
  | zero => cases levels <;> simp [lists, Value.exceeds_list, Value.not_exceeds_empty]
  | succ depth ih =>
      cases levels with
      | zero => simp [lists, Value.exceeds_closed]
      | succ levels => simp [lists, Value.exceeds_list, ih]

theorem evening_refuses_iff [Host] {payload : Value} {cause : Decimal.Oversize} :
    evening.trigger.Refuses payload cause ↔ payload.Exceeds Host.textLevels cause :=
  and_iff_right (by simp [evening])

theorem evening_evaluates [Host] {payload : Value} {cause : Decimal.Oversize}
    (exceeds : ∀ other, payload.Exceeds Host.textLevels other ↔ other = cause) :
    evening.trigger.evaluate payload = .error (.oversize cause) := by
  rcases evaluate_cases readControl_evening payload with ⟨-, never⟩ | ⟨other, fails, refuses⟩
  · exact absurd (evening_refuses_iff.mpr ((exceeds cause).mpr rfl)) (never cause)
  · rw [fails, (exceeds other).mp (evening_refuses_iff.mp refuses)]

theorem evening_refuses :
    let fresh := idle [evening, night] sluggish
    let earlier : List Step := [.start, .publish [("switches.deck", .value (.whole 0))], .stop]
    let beats : List Beat := [.publish [("switches.deck", .value (.whole 1))], .advance 1,
      .publish [("switches.deck", .value (.list [.null, large]))]]
    let before := (run earlier fresh).state
    let steps : List Watched.Step := [.hand 1 (.value (.whole 1)), .hand 0 (.failure "lost"),
      .hand 1 (.value (.list [.null, large]))]
    readControl (some "switches.deck") = .ok evening.trigger ∧
      create [evening, night] sluggish = .ok fresh ∧ before.started = false ∧
      ((∃ on, evening.trigger.evaluate large = .ok on) ∧
          (∀ cause, ¬ evening.trigger.Refuses large cause) ∨
        ∃ cause, evening.trigger.evaluate large = .error (.oversize cause) ∧
          evening.trigger.Refuses large cause) ∧
      (∀ ending, .ended ending ∈ about 1
          (Watched.run ([.watch] ++ .watch :: steps) ⟨evening.trigger, []⟩).reports →
        ending.Cause evening.trigger (inputs 1 steps)) ∧
      (evening.name ∈ (run (.start :: beats.map Beat.step) before).state.bus.readers ↔
        ∀ signal ∈ fed evening.trigger.path beats before,
          ∃ payload, signal = .value payload ∧
            ∀ cause, ¬ evening.trigger.Refuses payload cause) := by
  intro fresh earlier beats before steps
  have created : create [evening, night] sluggish = .ok fresh := rfl
  have resting : before.started = false := by decide +kernel
  obtain ⟨evaluates, watched, listens⟩ := only_oversized_refused readControl_evening
  refine ⟨readControl_evening, created, resting, evaluates large, watched [.watch] steps, ?_⟩
  exact listens _ _ fresh earlier before beats created rfl resting evening List.mem_cons_self rfl

/-- A number of 4301 digits is not evaluated, and silences its task until the next start; and a host
that writes 988 lists inside each other does not evaluate 989. -/
theorem large_silences :
    readControl (some "switches.deck") = .ok evening.trigger ∧
      evening.trigger.evaluate large = .error (.oversize .write) ∧
      evening.trigger.evaluate (lists 988) = .error (.oversize .nested) ∧
      "evening" ∉ (run [.start, .publish [("switches.deck", .value large)], .advance 1]
        (idle [evening, night] sluggish)).state.bus.readers := by
  refine ⟨readControl_evening, evening_evaluates fun _ => large_exceeds,
    evening_evaluates fun _ => lists_exceeds.trans (and_iff_right (by decide)), ?_⟩
  have created : create [evening, night] sluggish = .ok (idle [evening, night] sluggish) := rfl
  have listens := listens_iff created [] rfl
    [.publish [("switches.deck", .value large)], .advance 1] (List.mem_cons_self (a := evening))
  intro reads
  have stillOpen := (closed_eq_false readControl_evening).mp (listens.mp reads)
  have among : .value large ∈ fed evening.trigger.path
      [.publish [("switches.deck", .value large)], .advance 1]
      (run [] (idle [evening, night] sluggish)).state := by
    exact List.mem_cons_self
  obtain ⟨payload, same, never⟩ := stillOpen (.value large) among
  obtain rfl := Signal.value.inj same
  exact never .write (evening_refuses_iff.mpr (large_exceeds.mpr rfl))

end Cadence.Controller
