import Cadence.Proofs.Crew.Acts
import Cadence.Proofs.Sequencer.Placement

namespace Cadence.Crew
open Sequencer

theorem create_crew {task : String} {activities : List Activity} {crew : Crew}
    (created : create task activities = .ok crew) :
    activities ≠ [] ∧ crew = ⟨idle task activities, .start, [], [], 0⟩ := by
  unfold create Sequencer.create at created
  split at created
  · cases created
  · next present =>
      split at created
      · cases created
      · exact ⟨by simpa using present, (Except.ok.inj created).symm⟩

/-- Sound is a crew whose sequencer is in order, and in whose past only unknown commands were
refused. -/
structure Sound (activities : List Activity) (crew : Crew) (history : List Report) : Prop where
  placed : crew.sequencer.Placed
  activities : crew.sequencer.activities = activities
  breaches : ∀ breach ∈ breaches (notices history), ∃ value, breach = .unknownCommand value
  refused : ∀ value, perform (.step (.refuse value)) crew =
    ⟨crew, [.notice (.breached (.unknownCommand value))]⟩

structure Unbroken (activities : List Activity) (s : Sequencer) (notices : List Notice) : Prop where
  placed : s.Placed
  activities : s.activities = activities
  breaches : ∀ breach ∈ breaches notices, ∃ value, breach = .unknownCommand value

variable {task : String} {activities : List Activity} {fresh : Crew}

theorem Unbroken.move {s : Sequencer} {history : List Notice}
    {outcome : Outcome Sequencer Notice} (unbroken : Unbroken activities s history)
    (places : s.Places outcome) : Unbroken activities outcome.state (history ++ outcome.reports) := by
  refine ⟨places.placed, places.activities.trans unbroken.activities, ?_⟩
  intro breach member
  rw [breaches_append, places.sound, List.append_nil] at member
  exact unbroken.breaches breach member

theorem play_unbroken (acts : List Act) :
    Outcome.Keeps (fun crew history => Unbroken activities crew.sequencer (notices history))
      (play acts) := by
  apply play_keeps (Unbroken activities)
  · intro command now s history unbroken
    exact unbroken.move (handle_places now command unbroken.placed)
  · intro s history unbroken
    exact unbroken.move (fire_places unbroken.placed)
  · intro s history value unbroken
    refine ⟨unbroken.placed, unbroken.activities, ?_⟩
    intro breach member
    rw [breaches_append] at member
    rcases List.mem_append.mp member with before | now
    · exact unbroken.breaches breach before
    · exact ⟨value, List.mem_singleton.mp now⟩

theorem acts_sound (created : create task activities = .ok fresh) (acts : List Act) :
    Sound activities (play acts fresh).state (play acts fresh).reports := by
  obtain ⟨present, rfl⟩ := create_crew created
  have begins : Unbroken activities (idle task activities) [] :=
    ⟨placed_rest present rfl rfl, rfl, by simp [breaches]⟩
  have kept := play_unbroken acts ⟨idle task activities, .start, [], [], 0⟩ [] begins
  exact ⟨kept.placed, kept.activities, kept.breaches, fun _ => rfl⟩

theorem lamp_and_fan_sound :
    let fresh : Crew := ⟨idle "evening" [lamp, fan], .start, [], [], 0⟩
    let acts : List Act := [.join, .step .hire, .enqueue .start, .takeUp 1, .tick ⟨0.5⟩, .fire,
      .step (.refuse (.text "start")), .stumble 1 .null, .step (.submit true [.start]),
      .step (.advance 20), .leave 7]
    create "evening" [lamp, fan] = .ok fresh ∧
      (play acts fresh).state.sequencer.position = ⟨.active, 1, 28⟩ ∧
      Sound [lamp, fan] (play acts fresh).state (play acts fresh).reports := by
  intro fresh acts
  have created : create "evening" [lamp, fan] = .ok fresh := rfl
  have position : (play acts fresh).state.sequencer.position = ⟨.active, 1, 28⟩ := by decide +kernel
  exact ⟨created, position, acts_sound created acts⟩

end Cadence.Crew
