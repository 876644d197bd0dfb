import Cadence.Proofs.Keeps
import Cadence.Sequencer.Crew

namespace Cadence.Crew
open Outcome

inductive Act
  | step (step : Step)
  | enqueue (command : Command)
  | join
  | takeUp (worker : Nat)
  | stumble (worker : Nat) (value : Value)
  | leave (worker : Nat)
  | tick (now : Instant)
  | fire

def takeUp (worker : Nat) (crew : Crew) : Outcome Crew Report :=
  match crew.pending with
  | [] => .still crew
  | command :: rest => take worker command { crew with pending := rest }

def leave (worker : Nat) (crew : Crew) : Outcome Crew Report :=
  if worker ∈ crew.waiting then handle .stop { crew with waiting := crew.waiting.erase worker }
  else .still crew

def fire (crew : Crew) : Outcome Crew Report :=
  match crew.sequencer.timer with
  | none => .still crew
  | some timer => { crew with now := timer.due }.run Sequencer.fire

def perform : Act → Crew → Outcome Crew Report
  | .step action => step action
  | .enqueue command => fun crew => .still (crew.enqueue command)
  | .join => fun crew =>
      .still { crew with waiting := crew.waiting ++ [crew.hired], hired := crew.hired + 1 }
  | .takeUp worker => takeUp worker
  | .stumble worker value => fun crew => (refuse value crew).andThen (leave worker)
  | .leave worker => leave worker
  | .tick now => fun crew => .still { crew with now := now }
  | .fire => fire

def play : List Act → Crew → Outcome Crew Report := Outcome.each perform

def notices (reports : List Report) : List Notice :=
  reports.filterMap fun
    | .notice notice => some notice
    | .taken .. => none

@[simp] theorem notices_nil : notices [] = [] := rfl

@[simp] theorem notices_append (reports more : List Report) :
    notices (reports ++ more) = notices reports ++ notices more :=
  List.filterMap_append

@[simp] theorem notices_taken (worker : Nat) (command : Command) (reports : List Report) :
    notices (.taken worker command :: reports) = notices reports := rfl

@[simp] theorem notices_notice (notice : Notice) (reports : List Report) :
    notices (.notice notice :: reports) = notice :: notices reports := rfl

@[simp] theorem notices_map (all : List Notice) : notices (all.map .notice) = all := by
  induction all with
  | nil => rfl
  | cons notice rest ih => rw [List.map_cons, notices_notice, ih]

@[simp] theorem notices_run (step : Sequencer → Outcome Sequencer Notice) (crew : Crew) :
    notices (crew.run step).reports = (step crew.sequencer).reports :=
  notices_map _

structure Crewwise (invariant : Crew → List Report → Prop) : Prop where
  elsewhere : ∀ {crew other : Crew} {history : List Report}, invariant crew history →
    other.sequencer = crew.sequencer → invariant other history
  stop : Keeps invariant (handle .stop)
  take : ∀ worker command, Keeps invariant (take worker command)
  fire : Keeps invariant (run Sequencer.fire)
  refuse : ∀ value, Keeps invariant (refuse value)

namespace Crewwise
variable {invariant : Crew → List Report → Prop}

theorem still (crewwise : Crewwise invariant) {change : Crew → Crew}
    (same : ∀ crew, (change crew).sequencer = crew.sequencer) :
    Keeps invariant fun crew => .still (change crew) := by
  intro crew history holds
  simpa using crewwise.elsewhere holds (same crew)

theorem settle (crewwise : Crewwise invariant) : Keeps invariant Crew.settle := by
  intro crew history holds
  unfold Crew.settle
  cases crew.waiting with
  | nil => exact keeps_still crew history holds
  | cons worker rest =>
      exact Keeps.each (fun command _ => crewwise.take worker command) _ _
        (crewwise.elsewhere holds rfl)

theorem submit (crewwise : Crewwise invariant) (oneByOne : Bool) (commands : List Command) :
    Keeps invariant (Crew.submit oneByOne commands) := by
  cases oneByOne with
  | false => exact fun crew history holds => crewwise.settle _ _ (crewwise.elsewhere holds rfl)
  | true =>
      exact Keeps.each fun command _ crew history holds =>
        crewwise.settle _ _ (crewwise.elsewhere holds rfl)

theorem dismiss (crewwise : Crewwise invariant) : Keeps invariant Crew.dismiss := by
  intro crew history holds
  unfold Crew.dismiss
  cases crew.waiting.min? with
  | none => exact keeps_still crew history holds
  | some oldest => exact crewwise.stop _ _ (crewwise.elsewhere holds rfl)

theorem fireAll (crewwise : Crewwise invariant) (target : Instant) (fuel : Nat) :
    Keeps invariant (Crew.fireAll target fuel) := by
  induction fuel with
  | zero => exact keeps_still
  | succ fuel ih =>
      intro crew history holds
      cases fires : crew.fireBy? target with
      | none => simpa [Crew.fireAll, fires] using holds
      | some outcome =>
          obtain ⟨timer, rfl⟩ : ∃ timer : Timer, { crew with now := timer.due }.run Sequencer.fire =
              outcome := by
            unfold fireBy? at fires
            split at fires
            · cases fires
            · next timer _ =>
                split at fires
                · exact ⟨timer, Option.some.inj fires⟩
                · cases fires
          simp only [Crew.fireAll, fires, andThen_reports, ← List.append_assoc]
          exact ih _ _ (crewwise.fire _ _ (crewwise.elsewhere holds rfl))

theorem advance (crewwise : Crewwise invariant) (seconds : Float) :
    Keeps invariant (Crew.advance seconds) := by
  intro crew history holds
  have fired := crewwise.fireAll (crew.now.after seconds) patience crew history holds
  have arrived (d : Crew) : (d.arriveAt (crew.now.after seconds)).sequencer = d.sequencer := by
    unfold arriveAt
    split <;> rfl
  simpa [Crew.advance] using crewwise.elsewhere fired (arrived _)

theorem leave (crewwise : Crewwise invariant) (worker : Nat) :
    Keeps invariant (Crew.leave worker) := by
  intro crew history holds
  unfold Crew.leave
  split
  · exact crewwise.stop _ _ (crewwise.elsewhere holds rfl)
  · exact keeps_still crew history holds

theorem takeUp (crewwise : Crewwise invariant) (worker : Nat) :
    Keeps invariant (Crew.takeUp worker) := by
  intro crew history holds
  unfold Crew.takeUp
  cases crew.pending with
  | nil => exact keeps_still crew history holds
  | cons command rest => exact crewwise.take worker command _ _ (crewwise.elsewhere holds rfl)

theorem fires (crewwise : Crewwise invariant) : Keeps invariant Crew.fire := by
  intro crew history holds
  unfold Crew.fire
  cases crew.sequencer.timer with
  | none => exact keeps_still crew history holds
  | some timer => exact crewwise.fire _ _ (crewwise.elsewhere holds rfl)

theorem perform (crewwise : Crewwise invariant) (act : Act)
    (start : act = .step (.handle .start) → Keeps invariant (handle .start)) :
    Keeps invariant (Crew.perform act) := by
  cases act with
  | step action =>
      cases action with
      | handle command =>
          cases command with
          | start => exact start rfl
          | stop => exact crewwise.stop
      | refuse value => exact crewwise.refuse value
      | submit oneByOne commands => exact crewwise.submit oneByOne commands
      | hire => exact fun crew history holds => crewwise.settle _ _ (crewwise.elsewhere holds rfl)
      | dismiss => exact crewwise.dismiss
      | advance seconds => exact crewwise.advance seconds
  | enqueue command => exact crewwise.still fun _ => rfl
  | join => exact crewwise.still fun _ => rfl
  | takeUp worker => exact crewwise.takeUp worker
  | stumble worker value => exact (crewwise.refuse value).andThen (crewwise.leave worker)
  | leave worker => exact crewwise.leave worker
  | tick now => exact crewwise.still fun _ => rfl
  | fire => exact crewwise.fires

end Crewwise

theorem play_keeps (invariant : Sequencer → List Notice → Prop)
    (handle : ∀ command now, Keeps invariant (Sequencer.handle now command))
    (fire : Keeps invariant Sequencer.fire)
    (refuse : ∀ s history value, invariant s history →
      invariant s (history ++ [.breached (.unknownCommand value)]))
    (acts : List Act) :
    Keeps (fun crew history => invariant crew.sequencer (notices history)) (play acts) := by
  have handles (command : Command) :
      Keeps (fun crew history => invariant crew.sequencer (notices history))
        (Crew.handle command) := by
    intro crew history holds
    rw [notices_append, Crew.handle, notices_run]
    exact handle command crew.now _ _ holds
  have crewwise : Crewwise fun crew history => invariant crew.sequencer (notices history) := by
    constructor
    case elsewhere =>
      intro crew other history holds same
      rwa [same]
    case stop => exact handles .stop
    case take =>
      intro worker command crew history holds
      have told := handles command crew (history ++ [.taken worker command]) (by simpa using holds)
      simpa [Crew.take] using told
    case fire =>
      intro crew history holds
      rw [notices_append, notices_run]
      exact fire _ _ holds
    case refuse =>
      intro value crew history holds
      simpa [Crew.refuse] using refuse _ _ value holds
  refine Keeps.each fun act _ => crewwise.perform act fun direct => ?_
  exact handles .start

end Cadence.Crew
