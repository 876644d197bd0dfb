import Cadence.Proofs.Crew.Soundness
import Cadence.Proofs.Sequencer.Pairs

namespace Cadence.Crew
open Outcome Sequencer

def log (history : List Report) : List Event := eventsOf (notices history)

@[simp] theorem log_append (history more : List Report) :
    log (history ++ more) = log history ++ log more := by
  simp [log]

def Alternates (activities : List Activity) (s : Sequencer) (events : List Event) : Prop :=
  ∃ turns : List Turn, (∀ turn ∈ turns, turn.IsOf activities) ∧
    match s.position.phase with
    | .active => ∃ activity, s.current? = some activity ∧
        activities[s.position.index]? = some activity ∧
        events = paired turns ++ [⟨.on, s.position.index, activity⟩]
    | _ => events = paired turns

def SwitchesOff (s : Sequencer) (events : List Event) : Prop :=
  match s.position.phase with
  | .active => ∃ activity, s.current? = some activity ∧ events = [⟨.off, s.position.index, activity⟩]
  | _ => events = []

def Act.Stops (crew : Crew) : Act → Prop
  | .step (.handle .stop) => True
  | .step .dismiss => crew.waiting ≠ []
  | .takeUp _ => crew.pending.head? = some .stop
  | .stumble worker _ | .leave worker => worker ∈ crew.waiting
  | _ => False

def Report.isStart : Report → Bool
  | .taken _ .start => true
  | _ => false

def started (history : List Report) : Bool := history.any Report.isStart

def untilStart (history : List Report) : List Report := history.takeWhile (!·.isStart)

theorem untilStart_unstarted {history : List Report} (unstarted : started history = false)
    (more : List Report) : untilStart (history ++ more) = history ++ untilStart more := by
  apply List.takeWhile_append_of_pos
  intro report member
  simpa using List.any_eq_false.mp unstarted report member

theorem untilStart_started {history : List Report} (begun : started history = true)
    (more : List Report) : untilStart (history ++ more) = untilStart history := by
  induction history with
  | nil => cases begun
  | cons report rest ih =>
      cases first : report.isStart with
      | true => simp [untilStart, first]
      | false =>
          have later : started rest = true := by simpa [started, first] using begun
          simpa [untilStart, first] using ih later

theorem untilStart_eq {history : List Report} (unstarted : started history = false) :
    untilStart history = history := by
  simpa [untilStart] using untilStart_unstarted unstarted []

theorem started_append (history more : List Report) :
    started (history ++ more) = (started history || started more) :=
  List.any_append

variable {s : Sequencer} {crew other : Crew} {history more : List Report} {completed : Nat}

/-! ## Pairs -/

theorem poised_alternates {activities : List Activity} {events : List Event} {turns : List Turn}
    (poised : s.Poised) (same : s.activities = activities) (of : ∀ turn ∈ turns, turn.IsOf activities)
    (split : events = paired turns ++ s.unpaired) : Alternates activities s events := by
  refine ⟨turns, of, ?_⟩
  cases poised with
  | resting position free =>
      have idle : s.isIdle = true := by simp [isIdle, position, Position.rest]
      rw [unpaired_idle idle, List.append_nil] at split
      simpa [position, Position.rest] using split
  | delaying position found timer =>
      rw [unpaired_delaying position, List.append_nil] at split
      simpa [position] using split
  | active position found timer =>
      rw [unpaired_active position found] at split
      rw [position]
      refine ⟨_, ?_, same ▸ found, split⟩
      simpa [current?, isIdle, position] using found

theorem play_leads (start : Sequencer) (acts : List Act) :
    Keeps (fun crew history => Leads start crew.sequencer (log history)) (play acts) := by
  apply play_keeps fun s notices => Leads start s (eventsOf notices)
  · intro command now s history led
    rw [eventsOf_append]
    exact led.trans (handle_leads command led.poised)
  · intro s history led
    rw [eventsOf_append]
    exact led.trans (fire_leads led.poised)
  · intro s history value led
    simpa [eventsOf] using led

theorem stop_switchesOff (now : Instant) (poised : s.Poised) :
    SwitchesOff s (eventsOf (s.stop now).reports) := by
  have closing := (stop_rest now poised).2
  unfold SwitchesOff eventsOf
  rw [closing]
  cases poised with
  | resting position free => simp [turn?, position, Position.rest]
  | delaying position found timer => simp [turn?, position]
  | active position found timer => simp [turn?, position, found, current?, isIdle, Turn.off]

theorem stops_handled {act : Act} (stops : act.Stops crew) :
    ∃ now, (perform act crew).state.sequencer = (crew.sequencer.stop now).state ∧
      log (perform act crew).reports = eventsOf (crew.sequencer.stop now).reports := by
  refine ⟨crew.now, ?_⟩
  have handles (d : Crew) : log (handle .stop d).reports =
      eventsOf (d.sequencer.stop d.now).reports := by
    rw [log, handle, notices_run]
    rfl
  cases act with
  | step action =>
      cases action with
      | handle command =>
          cases command with
          | start => cases stops
          | stop => exact ⟨rfl, handles crew⟩
      | dismiss =>
          obtain ⟨worker, rest, waiting⟩ := List.exists_cons_of_ne_nil stops
          have oldest : ∃ oldest, crew.waiting.min? = some oldest := by
            simp [waiting, List.min?_cons]
          obtain ⟨oldest, least⟩ := oldest
          have leaves : perform (.step .dismiss) crew =
              handle .stop { crew with waiting := crew.waiting.erase oldest } := by
            simp [perform, step, dismiss, least]
          rw [leaves]
          exact ⟨rfl, handles _⟩
      | _ => cases stops
  | takeUp worker =>
      obtain ⟨rest, pending⟩ := List.head?_eq_some_iff.mp stops
      have takes : perform (.takeUp worker) crew = take worker .stop { crew with pending := rest } := by
        simp [perform, takeUp, pending]
      rw [takes]
      exact ⟨rfl, handles _⟩
  | stumble worker value =>
      have leaves : crew.leave worker = _ := if_pos stops
      have stumbles : perform (.stumble worker value) crew =
          (refuse value crew).andThen (leave worker) := rfl
      rw [stumbles, andThen_state, andThen_reports, log_append]
      change (crew.leave worker).state.sequencer = _ ∧ log (crew.leave worker).reports = _
      rw [leaves]
      exact ⟨rfl, handles _⟩
  | leave worker =>
      have leaves : crew.leave worker = _ := if_pos stops
      change (crew.leave worker).state.sequencer = _ ∧ log (crew.leave worker).reports = _
      rw [leaves]
      exact ⟨rfl, handles _⟩
  | _ => cases stops

/-! ## After a stop -/

structure Rested (completed : Nat) (s : Sequencer) : Prop where
  position : s.position = .rest
  free : s.timer = none
  completed : s.completed = completed

structure Hushed (completed : Nat) (crew : Crew) (history : List Report) : Prop where
  silent : log (untilStart history) = []
  rested : started history = false → Rested completed crew.sequencer

theorem Rested.stop (rested : Rested completed s) (now : Instant) : s.stop now = .still s := by
  simp [Sequencer.stop, isIdle, rested.position, Position.rest]

theorem Rested.fire (rested : Rested completed s) : s.fire = .still s := by
  simp [Sequencer.fire, rested.free]

theorem Hushed.append (hushed : Hushed completed crew history)
    (quiet : Rested completed crew.sequencer → log (untilStart more) = [] ∧
      (started more = false → Rested completed other.sequencer)) :
    Hushed completed other (history ++ more) := by
  cases begun : started history with
  | true =>
      refine ⟨?_, fun unstarted => ?_⟩
      · rw [untilStart_started begun]
        exact hushed.silent
      · simp [started_append, begun] at unstarted
  | false =>
      obtain ⟨silent, rested⟩ := quiet (hushed.rested begun)
      have before := hushed.silent
      rw [untilStart_eq begun] at before
      refine ⟨?_, fun unstarted => ?_⟩
      · rw [untilStart_unstarted begun, log_append, before, silent, List.append_nil]
      · simp only [started_append, begun, Bool.false_or] at unstarted
        exact rested unstarted

theorem hushed_crewwise : Crewwise (Hushed completed) where
  elsewhere hushed same := ⟨hushed.silent, fun unstarted => same ▸ hushed.rested unstarted⟩
  stop crew history hushed := by
    refine hushed.append fun rested => ?_
    have still : handle .stop crew = ⟨crew, []⟩ := by
      simp [Crew.handle, run, Sequencer.handle, rested.stop]
    rw [still]
    exact ⟨rfl, fun _ => rested⟩
  take worker command crew history hushed := by
    refine hushed.append fun rested => ?_
    cases command with
    | start =>
        refine ⟨rfl, ?_⟩
        intro unstarted
        cases unstarted
    | stop =>
        have still : take worker .stop crew = ⟨crew, [.taken worker .stop]⟩ := by
          simp [take, andThen, Crew.handle, run, Sequencer.handle, rested.stop]
        rw [still]
        exact ⟨rfl, fun _ => rested⟩
  fire crew history hushed := by
    refine hushed.append fun rested => ?_
    have still : crew.run Sequencer.fire = ⟨crew, []⟩ := by simp [run, rested.fire]
    rw [still]
    exact ⟨rfl, fun _ => rested⟩
  refuse value crew history hushed := hushed.append fun rested => ⟨rfl, fun _ => rested⟩

theorem play_hushed {acts : List Act} (byHand : ∀ act ∈ acts, act ≠ .step (.handle .start)) :
    Keeps (Hushed completed) (play acts) :=
  Keeps.each fun act member =>
    hushed_crewwise.perform act fun direct => absurd direct (byHand act member)

/-- What a stop comes to: it switches off what is on, counts no run, and after it nothing is switched
or counted before a start. -/
structure Final (crew : Crew) (stopped : Outcome Crew Report) : Prop where
  closes : SwitchesOff crew.sequencer (log stopped.reports)
  completed : stopped.state.sequencer.completed = crew.sequencer.completed
  silent : ∀ later : List Act, (∀ act ∈ later, act ≠ .step (.handle .start)) →
    log (untilStart (play later stopped.state).reports) = []
  uncounted : ∀ later : List Act, (∀ act ∈ later, act ≠ .step (.handle .start)) →
    started (play later stopped.state).reports = false →
      (play later stopped.state).state.sequencer.completed = crew.sequencer.completed

theorem stop_final {act : Act} (poised : crew.sequencer.Poised) (stops : act.Stops crew) :
    Final crew (perform act crew) := by
  obtain ⟨now, state, events⟩ := stops_handled stops
  have ends := (stop_rest now poised).1
  have rested : Rested crew.sequencer.completed (perform act crew).state.sequencer := by
    rw [state, ends]
    exact ⟨rfl, rfl, rfl⟩
  have hushed : Hushed crew.sequencer.completed (perform act crew).state [] :=
    ⟨rfl, fun _ => rested⟩
  refine ⟨?_, rested.completed, ?_, ?_⟩
  · rw [events]
    exact stop_switchesOff now poised
  · intro later byHand
    exact (play_hushed byHand _ _ hushed).silent
  · intro later byHand unstarted
    exact ((play_hushed byHand _ _ hushed).rested unstarted).completed

theorem switching_paired {task : String} {activities : List Activity} {fresh : Crew}
    (created : create task activities = .ok fresh) (acts : List Act) :
    Alternates activities (play acts fresh).state.sequencer (log (play acts fresh).reports) ∧
      ∀ act : Act, act.Stops (play acts fresh).state →
        Final (play acts fresh).state (perform act (play acts fresh).state) := by
  obtain ⟨-, rfl⟩ := create_crew created
  have begins : Leads (idle task activities) (idle task activities) [] :=
    .refl (poised_idle task activities)
  have led := play_leads _ acts ⟨idle task activities, .start, [], [], 0⟩ [] begins
  obtain ⟨turns, of, split⟩ := led.turns
  rw [unpaired_idle (s := idle task activities) rfl, List.nil_append] at split
  exact ⟨poised_alternates led.poised led.activities of split, fun act => stop_final led.poised⟩

theorem lamp_and_fan_paired :
    let fresh : Crew := ⟨idle "evening" [lamp, fan], .start, [], [], 0⟩
    let acts : List Act := [.step .hire, .join, .step (.submit true [.start, .stop, .start]),
      .step (.advance 1.5)]
    let later : List Act := [.step (.advance 9), .step (.handle .stop), .step .dismiss]
    create "evening" [lamp, fan] = .ok fresh ∧
      (play acts fresh).state.sequencer.position = ⟨.active, 0, 0⟩ ∧
      Act.Stops (play acts fresh).state (.leave 0) ∧ (∀ act ∈ later, act ≠ .step (.handle .start)) ∧
      Alternates [lamp, fan] (play acts fresh).state.sequencer (log (play acts fresh).reports) ∧
      log (untilStart (play later (perform (.leave 0) (play acts fresh).state).state).reports) = [] := by
  intro fresh acts later
  have created : create "evening" [lamp, fan] = .ok fresh := rfl
  have position : (play acts fresh).state.sequencer.position = ⟨.active, 0, 0⟩ := by decide +kernel
  have waiting : (play acts fresh).state.waiting = [1, 0] := by decide +kernel
  have here : Act.Stops (play acts fresh).state (.leave 0) := by simp [Act.Stops, waiting]
  have byHand : ∀ act ∈ later, act ≠ .step (.handle .start) := by simp [later]
  obtain ⟨alternates, final⟩ := switching_paired created acts
  exact ⟨created, position, here, byHand, alternates, (final (.leave 0) here).silent later byHand⟩

end Cadence.Crew
