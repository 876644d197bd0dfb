import Cadence.Sequencer.Basic

namespace Cadence.Sequencer

inductive Move
  | handle (command : Command) (now : Instant)
  | fire

namespace Move

def take : Move → Sequencer → Outcome Sequencer Notice
  | .handle command now => Sequencer.handle now command
  | .fire => Sequencer.fire

def isFire : Move → Bool
  | .fire => true
  | .handle .. => false

def isStop : Move → Bool
  | .handle .stop _ => true
  | _ => false

end Move

def play : List Move → Sequencer → Outcome Sequencer Notice := Outcome.each Move.take

theorem play_cons (move : Move) (moves : List Move) (s : Sequencer) :
    play (move :: moves) s = (move.take s).andThen (play moves) := rfl

def happenings (notices : List Notice) : List (Event × Instant) :=
  notices.filterMap fun
    | .emitted event time => some (event, time)
    | _ => none

@[simp] theorem happenings_nil : happenings [] = [] := rfl

@[simp] theorem happenings_append (notices more : List Notice) :
    happenings (notices ++ more) = happenings notices ++ happenings more :=
  List.filterMap_append

@[simp] theorem happenings_emitted (event : Event) (time : Instant) (notices : List Notice) :
    happenings (.emitted event time :: notices) = (event, time) :: happenings notices := rfl

@[simp] theorem happenings_armed (timer : Timer) (notices : List Notice) :
    happenings (.armed timer :: notices) = happenings notices := rfl

@[simp] theorem happenings_debug (s : Sequencer) (event : String) (fields : List (String × Value))
    (notices : List Notice) : happenings (s.debug event fields :: notices) = happenings notices := rfl

@[simp] theorem happenings_breached (breach : Breach) (notices : List Notice) :
    happenings (.breached breach :: notices) = happenings notices := rfl

/-! What the parts of a move come to when no timer is pending. -/

section free
variable {s : Sequencer} {now : Instant} {index cycle : Nat} {activity : Activity}

def delayed (now : Instant) (index cycle : Nat) (activity : Activity) (s : Sequencer) : Sequencer :=
  { s with
    position := ⟨.delaying, index, cycle⟩
    timer := some ⟨.delay, now.after activity.delay⟩ }

def activated (now : Instant) (index cycle : Nat) (activity : Activity) (s : Sequencer) : Sequencer :=
  { s with
    position := ⟨.active, index, cycle⟩
    timer := some ⟨.duration, now.after activity.duration⟩ }

theorem activate_free (found : s.activities[index]? = some activity) (free : s.timer = none) :
    activate now index cycle s =
      ⟨s.activated now index cycle activity,
        [.emitted ⟨.on, index, activity⟩ now, .armed ⟨.duration, now.after activity.duration⟩]⟩ := by
  simp [activate, found, arm, free, activated, Outcome.andThen]

theorem enter_waiting (found : s.activities[index]? = some activity) (free : s.timer = none)
    (waits : 0 < activity.delay) :
    enter now index cycle s =
      ⟨s.delayed now index cycle activity, [.armed ⟨.delay, now.after activity.delay⟩]⟩ := by
  simp [enter, found, waits, arm, free, delayed]

theorem enter_at_once (found : s.activities[index]? = some activity) (free : s.timer = none)
    (ready : ¬0 < activity.delay) :
    enter now index cycle s =
      ⟨s.activated now index cycle activity,
        [.emitted ⟨.on, index, activity⟩ now, .armed ⟨.duration, now.after activity.duration⟩]⟩ := by
  rw [← activate_free found free]
  simp [enter, found, ready]

theorem enter_missing (missing : s.activities[index]? = none) :
    enter now index cycle s = ⟨s, [.breached (.noActivity index)]⟩ := by
  simp [enter, missing]

end free

/-- A resting sequencer holds no timer, a busy one stands at an activity and holds the timer of its
phase. -/
inductive Poised (s : Sequencer) : Prop
  | resting (position : s.position = .rest) (free : s.timer = none)
  | delaying {index cycle : Nat} {activity : Activity} {due : Instant}
      (position : s.position = ⟨.delaying, index, cycle⟩)
      (found : s.activities[index]? = some activity) (timer : s.timer = some ⟨.delay, due⟩)
  | active {index cycle : Nat} {activity : Activity} {due : Instant}
      (position : s.position = ⟨.active, index, cycle⟩)
      (found : s.activities[index]? = some activity) (timer : s.timer = some ⟨.duration, due⟩)

theorem poised_idle (task : String) (activities : List Activity) : (idle task activities).Poised :=
  .resting rfl rfl

theorem isIdle_iff {s : Sequencer} : s.isIdle = true ↔ s.position.phase = .idle := by
  simp [isIdle]

theorem Poised.rest {s : Sequencer} (poised : s.Poised) (idle : s.isIdle = true) :
    s.position = .rest ∧ s.timer = none := by
  rw [isIdle_iff] at idle
  cases poised with
  | resting position free => exact ⟨position, free⟩
  | delaying position => simp [position] at idle
  | active position => simp [position] at idle

/-! ## Two activities, one with a delay and two cycles, and one that goes on for ever -/

def lamp : Activity :=
  { path := "switches.lamp", on := .whole 1, off := some (.whole 0), name := "evening[activity-0]"
    duration := 2, delay := 1, cycles := 2 }

def fan : Activity :=
  { path := "switches.fan", on := .whole 3, off := some (.whole 0), name := "evening[fan-1]"
    duration := 0.5, delay := 0, cycles := 0 }

end Cadence.Sequencer
