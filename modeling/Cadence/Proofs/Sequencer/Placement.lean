import Cadence.Proofs.Sequencer.Moves

namespace Cadence

def Phase.wait? : Phase → Option Wait
  | .idle => none
  | .delaying => some .delay
  | .active => some .duration

namespace Sequencer

def breaches (notices : List Notice) : List Breach :=
  notices.filterMap fun
    | .breached breach => some breach
    | _ => none

@[simp] theorem breaches_append (notices more : List Notice) :
    breaches (notices ++ more) = breaches notices ++ breaches more :=
  List.filterMap_append

structure Placed (s : Sequencer) : Prop where
  timer : s.timer.map (·.wait) = s.position.phase.wait?
  index : s.position.index < s.activities.length
  cycle : ∀ activity, s.activities[s.position.index]? = some activity → 0 < activity.cycles →
    (s.position.cycle : Int) < activity.cycles
  resting : s.position.phase = .idle → s.position = .rest
  delaying : s.position.phase = .delaying →
    ∃ activity, s.activities[s.position.index]? = some activity ∧ 0 < activity.delay

structure Places (s : Sequencer) (outcome : Outcome Sequencer Notice) : Prop where
  placed : outcome.state.Placed
  activities : outcome.state.activities = s.activities
  sound : breaches outcome.reports = []

section moves
variable {s : Sequencer} {now : Instant} {index cycle : Nat} {activity : Activity}

theorem Placed.found (placed : s.Placed) :
    ∃ activity, s.activities[s.position.index]? = some activity :=
  ⟨_, List.getElem?_eq_getElem placed.index⟩

theorem Placed.free (placed : s.Placed) (idle : s.isIdle = true) :
    s.position = .rest ∧ s.timer = none := by
  have phase := isIdle_iff.mp idle
  have timer := placed.timer
  rw [phase] at timer
  exact ⟨placed.resting phase, by simpa [Phase.wait?] using timer⟩

theorem placed_rest (present : s.activities ≠ []) (position : s.position = .rest)
    (free : s.timer = none) : s.Placed := by
  constructor
  · simp [position, free, Position.rest, Phase.wait?]
  · rw [position]
    exact List.length_pos_iff.mpr present
  · intro activity _ counted
    simpa [position, Position.rest] using counted
  · intro _
    exact position
  · intro phase
    simp [position, Position.rest] at phase

theorem enter_places (found : s.activities[index]? = some activity) (free : s.timer = none)
    (within : 0 < activity.cycles → (cycle : Int) < activity.cycles) :
    s.Places (enter now index cycle s) := by
  have inside : index < s.activities.length := (List.getElem?_eq_some_iff.mp found).1
  have counts : ∀ other, s.activities[index]? = some other → 0 < other.cycles →
      (cycle : Int) < other.cycles := by
    intro other same
    obtain rfl := Option.some.inj (found.symm.trans same)
    exact within
  by_cases waits : 0 < activity.delay
  · rw [enter_waiting found free waits]
    exact ⟨⟨rfl, inside, counts, nofun, fun _ => ⟨activity, found, waits⟩⟩, rfl, rfl⟩
  · rw [enter_at_once found free waits]
    exact ⟨⟨rfl, inside, counts, nofun, nofun⟩, rfl, rfl⟩

theorem start_places (now : Instant) (placed : s.Placed) : s.Places (s.start now) := by
  by_cases idle : s.isIdle = true
  · obtain ⟨position, free⟩ := placed.free idle
    have begins : s.start now =
        (Outcome.mk s [s.debug "sequencer_started" []]).andThen (enter now 0 0) := by
      simp [start, idle]
    obtain ⟨activity, found⟩ := placed.found
    rw [position] at found
    have entered : s.Places (enter now 0 0 s) :=
      enter_places found free fun counted => by simpa using counted
    rw [begins]
    exact ⟨entered.placed, entered.activities, entered.sound⟩
  · have ignored : s.start now =
        ⟨s, [s.debug "sequencer_start_ignored" [("phase", .text s.position.phase.name)]]⟩ := by
      simp [start, idle]
    rw [ignored]
    exact ⟨placed, rfl, rfl⟩

theorem stop_places (now : Instant) (placed : s.Placed) : s.Places (s.stop now) := by
  have present : s.activities ≠ [] := List.length_pos_iff.mp (Nat.zero_lt_of_lt placed.index)
  obtain ⟨activity, found⟩ := placed.found
  by_cases idle : s.isIdle = true
  · have still : s.stop now = .still s := by simp [stop, idle]
    rw [still]
    exact ⟨placed, rfl, rfl⟩
  · have busy : s.isIdle = false := by simpa using idle
    have stops : (s.stop now).state = { s with position := .rest, timer := none } := by
      simp [stop, busy]
    refine ⟨?_, by rw [stops], ?_⟩
    · rw [stops]
      exact placed_rest present rfl rfl
    · by_cases active : s.position.phase = .active
      · simp [stop, busy, active, found, breaches, debug]
      · simp [stop, busy, active, breaches, debug]

theorem handle_places (now : Instant) (command : Command) (placed : s.Placed) :
    s.Places (s.handle now command) := by
  cases command with
  | start => exact start_places now placed
  | stop => exact stop_places now placed

theorem proceed_places (found : s.activities[s.position.index]? = some activity)
    (free : s.timer = none) : s.Places (proceed now activity s) := by
  unfold proceed
  dsimp only
  split
  · next more =>
      apply enter_places found free
      intro counted
      simp only [Bool.or_eq_true, decide_eq_true_eq] at more
      push_cast
      omega
  · split
    · next more =>
        exact enter_places (List.getElem?_eq_getElem more) free fun counted => by simpa using counted
    · have present : s.activities ≠ [] := by
        rintro none
        simp [none] at found
      exact ⟨placed_rest present rfl free, rfl, rfl⟩

theorem fire_places (placed : s.Placed) : s.Places s.fire := by
  obtain ⟨activity, found⟩ := placed.found
  have timerOf := placed.timer
  -- The phase tells which timer is pending, so that neither callback comes in the wrong phase.
  cases phase : s.position.phase with
  | idle =>
      have free : s.timer = none := by simpa [phase, Phase.wait?] using timerOf
      have still : s.fire = .still s := by simp [fire, free]
      rw [still]
      exact ⟨placed, rfl, rfl⟩
  | delaying =>
      rw [phase, Phase.wait?] at timerOf
      obtain ⟨timer, pending, wait⟩ := Option.map_eq_some_iff.mp timerOf
      have switches : s.fire =
          activate timer.due s.position.index s.position.cycle { s with timer := none } := by
        simp [fire, pending, wait, delayElapsed, phase]
      rw [switches, activate_free (s := { s with timer := none }) found rfl]
      exact ⟨⟨rfl, placed.index, placed.cycle, nofun, nofun⟩, rfl, rfl⟩
  | active =>
      rw [phase, Phase.wait?] at timerOf
      obtain ⟨timer, pending, wait⟩ := Option.map_eq_some_iff.mp timerOf
      have switches : s.fire =
          (Outcome.mk { s with timer := none }
            [.emitted ⟨.off, s.position.index, activity⟩ timer.due]).andThen
              (proceed timer.due activity) := by
        simp [fire, pending, wait, durationElapsed, phase, found]
      have proceeds : ({ s with timer := none } : Sequencer).Places
          (proceed timer.due activity { s with timer := none }) :=
        proceed_places found rfl
      rw [switches]
      exact ⟨proceeds.placed, proceeds.activities, proceeds.sound⟩

end moves

end Sequencer
end Cadence
