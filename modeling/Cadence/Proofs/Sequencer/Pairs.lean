import Cadence.Proofs.Sequencer.Moves

namespace Cadence.Sequencer

abbrev Turn := Nat × Activity

def Turn.IsOf (activities : List Activity) (turn : Turn) : Prop :=
  activities[turn.1]? = some turn.2

def Turn.on (turn : Turn) : Event := ⟨.on, turn.1, turn.2⟩

def Turn.off (turn : Turn) : Event := ⟨.off, turn.1, turn.2⟩

def paired (turns : List Turn) : List Event := turns.flatMap fun turn => [turn.on, turn.off]

@[simp] theorem paired_nil : paired [] = [] := rfl

@[simp] theorem paired_append (turns more : List Turn) :
    paired (turns ++ more) = paired turns ++ paired more := List.flatMap_append

@[simp] theorem paired_singleton (turn : Turn) : paired [turn] = [turn.on, turn.off] := rfl

theorem turn_of_mem_paired {turns : List Turn} {event : Event} (member : event ∈ paired turns) :
    ∃ turn ∈ turns, event = turn.on ∨ event = turn.off := by
  simpa [paired] using member

def turn? (s : Sequencer) : Option Turn :=
  if s.position.phase = .active then
    (s.activities[s.position.index]?).map (s.position.index, ·)
  else none

def unpaired (s : Sequencer) : List Event := s.turn?.toList.map Turn.on

theorem turn?_idle {s : Sequencer} (idle : s.isIdle = true) : s.turn? = none := by
  simp [turn?, isIdle_iff.mp idle]

theorem unpaired_idle {s : Sequencer} (idle : s.isIdle = true) : s.unpaired = [] := by
  simp [unpaired, turn?_idle idle]

theorem unpaired_delaying {s : Sequencer} {index cycle : Nat}
    (position : s.position = ⟨.delaying, index, cycle⟩) : s.unpaired = [] := by
  simp [unpaired, turn?, position]

theorem unpaired_active {s : Sequencer} {index cycle : Nat} {activity : Activity}
    (position : s.position = ⟨.active, index, cycle⟩)
    (found : s.activities[index]? = some activity) : s.unpaired = [⟨.on, index, activity⟩] := by
  simp [unpaired, turn?, position, found, Turn.on]

structure Leads (s t : Sequencer) (events : List Event) : Prop where
  poised : t.Poised
  task : t.task = s.task
  activities : t.activities = s.activities
  turns : ∃ turns : List Turn, (∀ turn ∈ turns, turn.IsOf s.activities) ∧
    s.unpaired ++ events = paired turns ++ t.unpaired

theorem Leads.refl {s : Sequencer} (poised : s.Poised) : Leads s s [] :=
  ⟨poised, rfl, rfl, [], by simp, by simp⟩

theorem Leads.trans {s t u : Sequencer} {events more : List Event} (first : Leads s t events)
    (second : Leads t u more) : Leads s u (events ++ more) := by
  obtain ⟨turns, member, equal⟩ := first.turns
  obtain ⟨later, member', equal'⟩ := second.turns
  refine ⟨second.poised, second.task.trans first.task, second.activities.trans first.activities,
    turns ++ later, ?_, ?_⟩
  · intro turn among
    rcases List.mem_append.mp among with early | late
    · exact member turn early
    · rw [← first.activities]
      exact member' turn late
  · rw [← List.append_assoc, equal, List.append_assoc, equal', paired_append, List.append_assoc]

def eventsOf (notices : List Notice) : List Event := (happenings notices).map (·.1)

@[simp] theorem eventsOf_nil : eventsOf [] = [] := rfl

@[simp] theorem eventsOf_append (notices more : List Notice) :
    eventsOf (notices ++ more) = eventsOf notices ++ eventsOf more := by
  simp [eventsOf]

section moves
variable {s : Sequencer} {now : Instant} {index cycle : Nat} {activity : Activity}

theorem enter_leads (now : Instant) (cycle : Nat)
    (found : s.activities[index]? = some activity) (free : s.timer = none) :
    let outcome := enter now index cycle s
    outcome.state.Poised ∧ outcome.state.task = s.task ∧
      outcome.state.activities = s.activities ∧
      eventsOf outcome.reports = outcome.state.unpaired := by
  by_cases waits : 0 < activity.delay
  · rw [enter_waiting found free waits]
    refine ⟨.delaying rfl found rfl, rfl, rfl, ?_⟩
    simp [unpaired_delaying (s := delayed now index cycle activity s) rfl, eventsOf]
  · rw [enter_at_once found free waits]
    refine ⟨.active rfl found rfl, rfl, rfl, ?_⟩
    simp [unpaired_active (s := activated now index cycle activity s) rfl found, eventsOf]

theorem start_leads (poised : s.Poised) :
    Leads s (s.start now).state (eventsOf (s.start now).reports) := by
  by_cases idle : s.isIdle = true
  · obtain ⟨position, free⟩ := poised.rest idle
    have begins : s.start now =
        (Outcome.mk s [s.debug "sequencer_started" []]).andThen (enter now 0 0) := by
      simp [start, idle]
    rw [begins]
    simp only [Outcome.andThen_state, Outcome.andThen_reports, eventsOf_append]
    cases found : s.activities[0]? with
    | none =>
        rw [enter_missing found]
        simpa [eventsOf] using Leads.refl poised
    | some activity =>
        obtain ⟨entered, task, activities, events⟩ :=
          enter_leads now 0 found free
        refine ⟨entered, task, activities, [], by simp, ?_⟩
        simpa [eventsOf, unpaired_idle idle] using events
  · have ignored : s.start now =
        ⟨s, [s.debug "sequencer_start_ignored" [("phase", .text s.position.phase.name)]]⟩ := by
      simp [start, idle]
    rw [ignored]
    simpa [eventsOf] using Leads.refl poised

theorem stop_rest (now : Instant) (poised : s.Poised) :
    (s.stop now).state = { s with position := .rest, timer := none } ∧
      happenings (s.stop now).reports = s.turn?.toList.map fun turn => (turn.off, now) := by
  cases poised with
  | resting position free =>
      have idle : s.isIdle = true := by simp [isIdle, position, Position.rest]
      have kept : ({ s with position := .rest, timer := none } : Sequencer) = s := by
        rw [← position, ← free]
      simp [stop, idle, turn?_idle idle, kept]
  | delaying position found timer =>
      simp [stop, isIdle, position, turn?]
  | active position found timer =>
      simp [stop, isIdle, position, turn?, found, Turn.off]

theorem stop_leads (poised : s.Poised) :
    Leads s (s.stop now).state (eventsOf (s.stop now).reports) := by
  obtain ⟨state, events⟩ := stop_rest now poised
  rw [eventsOf, events, state]
  refine ⟨.resting rfl rfl, rfl, rfl, s.turn?.toList, ?_, ?_⟩
  · intro turn member
    cases poised with
    | resting position free => simp [turn?, position, Position.rest] at member
    | delaying position found timer => simp [turn?, position] at member
    | active position found timer =>
        simp only [turn?, position, found, if_pos, Option.map_some, Option.toList_some,
          List.mem_singleton] at member
        subst member
        exact found
  · rw [unpaired_idle (s := { s with position := .rest, timer := none }) rfl]
    cases held : s.turn? <;> simp [unpaired, held]

theorem handle_leads (command : Command) (poised : s.Poised) :
    Leads s (s.handle now command).state (eventsOf (s.handle now command).reports) := by
  cases command with
  | start => exact start_leads poised
  | stop => exact stop_leads poised

theorem proceed_leads (now : Instant)
    (found : s.activities[s.position.index]? = some activity)
    (free : s.timer = none) :
    let outcome := proceed now activity s
    outcome.state.Poised ∧ outcome.state.task = s.task ∧
      outcome.state.activities = s.activities ∧
      eventsOf outcome.reports = outcome.state.unpaired := by
  unfold proceed
  dsimp only
  split
  · exact enter_leads now _ found free
  · split
    · next more => exact enter_leads now 0 (List.getElem?_eq_getElem more) free
    · exact ⟨.resting rfl free, rfl, rfl, by
        rw [unpaired_idle (s := { s with position := .rest, completed := s.completed + 1 }) rfl]
        rfl⟩

theorem fire_leads (poised : s.Poised) : Leads s s.fire.state (eventsOf s.fire.reports) := by
  cases poised with
  | resting position free =>
      simpa [fire, free, eventsOf] using Leads.refl (.resting position free)
  | @delaying index cycle activity due position found timer =>
      have switched : s.fire = ⟨activated due index cycle activity { s with timer := none },
          [.emitted ⟨.on, index, activity⟩ due, .armed ⟨.duration, due.after activity.duration⟩]⟩ := by
        rw [← activate_free (s := { s with timer := none }) found rfl]
        simp [fire, timer, delayElapsed, position]
      rw [switched]
      refine ⟨.active rfl found rfl, rfl, rfl, [], by simp, ?_⟩
      rw [unpaired_delaying position,
        unpaired_active (s := activated due index cycle activity { s with timer := none }) rfl found]
      simp [eventsOf]
  | @active index cycle activity due position found timer =>
      have switched : s.fire =
          (Outcome.mk { s with timer := none } [.emitted ⟨.off, index, activity⟩ due]).andThen
            (proceed due activity) := by
        simp [fire, timer, durationElapsed, position, found]
      have found' : ({ s with timer := none } : Sequencer).activities[
          ({ s with timer := none } : Sequencer).position.index]? = some activity := by
        simpa [position] using found
      obtain ⟨poised, task, activities, events⟩ := proceed_leads due found' rfl
      rw [switched]
      refine ⟨poised, task, activities, [(index, activity)], by simpa [Turn.IsOf] using found, ?_⟩
      rw [unpaired_active position found]
      simpa [eventsOf, Turn.on, Turn.off] using events

theorem take_leads (move : Move) (poised : s.Poised) :
    Leads s (move.take s).state (eventsOf (move.take s).reports) := by
  cases move with
  | handle command now => exact handle_leads command poised
  | fire => exact fire_leads poised

theorem play_leads (moves : List Move) (poised : s.Poised) :
    Leads s (play moves s).state (eventsOf (play moves s).reports) := by
  induction moves generalizing s with
  | nil => exact Leads.refl poised
  | cons move rest ih =>
      have first := take_leads move poised
      rw [play_cons, Outcome.andThen_reports, eventsOf_append]
      exact first.trans (ih first.poised)

end moves

end Cadence.Sequencer
