import Cadence.Proofs.Station.Ledger

namespace Cadence
open Sequencer

namespace Effect

def status? : Effect → Option String
  | .status text => some text
  | _ => none

def start? : Effect → Option String
  | .commanded task .start => some task
  | _ => none

def statuses (history : List Effect) : List String := history.filterMap status?

def starts (history : List Effect) : List String := history.filterMap start?

@[simp] theorem statuses_append (history effects : List Effect) :
    statuses (history ++ effects) = statuses history ++ statuses effects :=
  List.filterMap_append

@[simp] theorem starts_append (history effects : List Effect) :
    starts (history ++ effects) = starts history ++ starts effects :=
  List.filterMap_append

structure Mute (effects : List Effect) : Prop where
  statuses : statuses effects = []
  starts : starts effects = []

theorem Mute.append {effects more : List Effect} (one : Mute effects) (other : Mute more) :
    Mute (effects ++ more) :=
  ⟨by rw [statuses_append, one.statuses, other.statuses]; rfl,
    by rw [starts_append, one.starts, other.starts]; rfl⟩

end Effect

def startsOf (name : String) (commands : List Command) : List String :=
  commands.filterMap fun command => if command = .start then some name else none

@[simp] theorem startsOf_append (name : String) (commands more : List Command) :
    startsOf name (commands ++ more) = startsOf name commands ++ startsOf name more :=
  List.filterMap_append

open Effect Outcome

namespace Station
variable {outlet : Outlet} {s t : Station} {effects : List Effect} {now : Instant}

def WillRun (s : Station) : Prop :=
  s.commands.getLast? = some .start ∨ s.commands = [] ∧ s.sequencer.isIdle = false

structure Tame (s t : Station) (effects : List Effect) : Prop where
  task : t.task = s.task
  isOn : t.isOn = s.isOn
  commands : t.commands = s.commands ∨ t.commands = []
  runs : t.WillRun → s.WillRun
  statuses : statuses effects = []

theorem mute_effects (name : String) (notices : List Notice) :
    Mute (notices.filterMap (effectOf? name)) := by
  induction notices with
  | nil => exact ⟨rfl, rfl⟩
  | cons notice rest ih =>
      cases notice with
      | breached breach => exact ih
      | emitted event time => exact ⟨ih.statuses, ih.starts⟩
      | armed timer => exact ⟨ih.statuses, ih.starts⟩
      | logged record => exact ⟨ih.statuses, ih.starts⟩

theorem fire_mute (s : Station) : Mute s.fire.reports := mute_effects _ _

theorem fire_tame (poised : s.sequencer.Poised) : Tame s s.fire.state s.fire.reports := by
  refine ⟨rfl, rfl, .inl rfl, ?_, (fire_mute s).statuses⟩
  rintro (told | ⟨obeyed, busy⟩)
  · exact .inl told
  · right
    refine ⟨obeyed, ?_⟩
    cases idle : s.sequencer.isIdle with
    | false => rfl
    | true =>
        obtain ⟨position, free⟩ := poised.rest idle
        have rests : s.sequencer.fire = .still s.sequencer := by simp [Sequencer.fire, free]
        have still : s.fire.state.sequencer = s.sequencer := by
          rw [fire, rests]
          rfl
        rw [still, idle] at busy
        cases busy

theorem put_mute (event : Event) : Mute (s.put outlet now event) := by
  rw [put_eq]
  cases outlet.faults.lookup event.activity.path with
  | none => exact ⟨rfl, rfl⟩
  | some text => exact ⟨rfl, rfl⟩

theorem announced_mute [Host] (waiting : List Event) : Mute (s.announced outlet now waiting) := by
  induction waiting with
  | nil => exact ⟨rfl, rfl⟩
  | cons event rest ih =>
      have unfolded : s.announced outlet now (event :: rest) =
          (.diagnostic (outlet.announcement event) :: s.put outlet now event) ++
            s.announced outlet now rest := rfl
      have put : Mute (s.put outlet now event) := put_mute event
      have head : Mute (.diagnostic (outlet.announcement event) :: s.put outlet now event) :=
        ⟨put.statuses, put.starts⟩
      rw [unfolded]
      exact head.append ih

theorem dispatch_mute [Host] (outlet : Outlet) (now : Instant) (s : Station) :
    Mute (s.dispatch outlet now).reports := by
  have split := dispatches outlet now s
  generalize s.dispatch outlet now = outcome at split ⊢
  cases split with
  | nothing held => exact ⟨rfl, rfl⟩
  | begins delayed free outbox => exact ⟨rfl, rfl⟩
  | empties undelayed free filled => exact announced_mute _

theorem dispatch_tame [Host] (outlet : Outlet) (now : Instant) (s : Station) :
    Tame s (s.dispatch outlet now).state (s.dispatch outlet now).reports := by
  have mute := dispatch_mute outlet now s
  have split := dispatches outlet now s
  generalize s.dispatch outlet now = outcome at split mute ⊢
  cases split with
  | nothing held => exact ⟨rfl, rfl, .inl rfl, id, mute.statuses⟩
  | begins delayed free outbox => exact ⟨rfl, rfl, .inl rfl, id, mute.statuses⟩
  | empties undelayed free filled => exact ⟨rfl, rfl, .inl rfl, id, mute.statuses⟩

theorem arrive_mute (outlet : Outlet) (s : Station) : Mute (s.arrive outlet).reports := by
  unfold arrive
  split
  · exact ⟨rfl, rfl⟩
  · exact put_mute _

theorem arrive_tame (outlet : Outlet) (s : Station) :
    Tame s (s.arrive outlet).state (s.arrive outlet).reports := by
  have mute := arrive_mute outlet s
  revert mute
  unfold arrive
  split
  · exact fun mute => ⟨rfl, rfl, .inl rfl, id, mute.statuses⟩
  · exact fun mute => ⟨rfl, rfl, .inl rfl, id, mute.statuses⟩

structure Obeyed (s : Station) (commands : List Command) (outcome : Outcome Station Effect) : Prop where
  task : outcome.state.task = s.task
  isOn : outcome.state.isOn = s.isOn
  left : outcome.state.commands = s.commands
  runs : outcome.state.sequencer.isIdle = false →
    commands.getLast? = some .start ∨ commands = [] ∧ s.sequencer.isIdle = false
  statuses : statuses outcome.reports = []
  starts : starts outcome.reports = startsOf s.name commands

theorem comply_starts (now : Instant) (command : Command) :
    statuses (s.comply now command).reports = [] ∧
      starts (s.comply now command).reports = startsOf s.name [command] := by
  have mute : Mute (s.handle now command).reports := mute_effects _ _
  rw [comply, andThen_reports, statuses_append, starts_append, mute.statuses, mute.starts]
  cases command <;> exact ⟨rfl, rfl⟩

theorem stop_idle (poised : s.sequencer.Poised) :
    (s.comply now .stop).state.sequencer.isIdle = true := by
  have state := (stop_rest now poised).1
  have sequencer : (s.comply now .stop).state.sequencer = (s.sequencer.stop now).state := rfl
  rw [sequencer, state]
  rfl

theorem each_comply_obeyed (commands : List Command) (poised : s.sequencer.Poised) :
    Obeyed s commands (Outcome.each (comply now) commands s) := by
  induction commands generalizing s with
  | nil => exact ⟨rfl, rfl, rfl, fun busy => .inr ⟨rfl, busy⟩, rfl, rfl⟩
  | cons command rest ih =>
      have poised' : (s.comply now command).state.sequencer.Poised :=
        (handle_leads command poised).poised
      obtain ⟨task, isOn, left, runs, statuses, starts⟩ := ih poised'
      obtain ⟨status, start⟩ := comply_starts (s := s) now command
      refine ⟨task, isOn, left, ?_, ?_, ?_⟩
      · intro busy
        left
        rw [List.getLast?_cons]
        rcases runs busy with told | ⟨rfl, before⟩
        · simp [told]
        · cases command with
          | start => rfl
          | stop =>
              rw [stop_idle poised] at before
              cases before
      · rw [each_cons, andThen_reports, statuses_append, status, statuses]
        rfl
      · rw [each_cons, andThen_reports, starts_append, start, starts]
        exact (startsOf_append s.name [command] rest).symm

theorem obey_obeyed (now : Instant) (poised : s.sequencer.Poised) :
    Obeyed { s with commands := [] } s.commands (s.obey now) :=
  each_comply_obeyed (s := { s with commands := [] }) s.commands poised

theorem obey_tame (now : Instant) (poised : s.sequencer.Poised) :
    Tame s (s.obey now).state (s.obey now).reports := by
  obtain ⟨task, isOn, left, runs, statuses, -⟩ := obey_obeyed now poised
  refine ⟨task, isOn, .inr left, ?_, statuses⟩
  rintro (told | ⟨-, busy⟩)
  · simp [left] at told
  · exact runs busy

end Station
end Cadence
