import Cadence.Proofs.Controller.Order
import Cadence.Proofs.Controller.Shutdown

namespace Cadence.Controller
open Outcome Effect

def Lines (lines : List String) (_ : Controller) (history : List Effect) : Prop :=
  statuses history = lines

variable {c : Controller} {lines : List String}

theorem visit_lines {step : Controller → Station → Outcome Station Effect}
    (mute : ∀ (c : Controller) (s : Station), Mute (step c s).reports) (name : String) :
    Keeps (Lines lines) fun c => c.visit (step c) name := by
  apply visit_keeps
  intro c history s _ same
  rw [Lines, statuses_append, (mute c s).statuses, List.append_nil]
  exact same

variable [Host]

theorem lines_steady (lines : List String) : Steady (Lines lines) where
  clock _ _ _ _ same := same
  fire := visit_lines fun _ => Station.fire_mute
  arrive := visit_lines fun c => Station.arrive_mute c.outlet
  dispatch := visit_lines fun c => Station.dispatch_mute c.outlet c.now

theorem stop_lines {outcome : Outcome Controller Effect} (stopped : c.stop = some outcome) :
    statuses outcome.reports = [] := by
  have kept : Lines [] outcome.state ([] ++ outcome.reports) := by
    refine stop_keeps ?_ stopped rfl
    intro released _ all
    have releases : Lines [] released.state ([] ++ released.reports) := by
      refine releaseAll_keeps ?_ [] all rfl
      intro d history name outcome released same
      refine ((lines_steady []).release (fun _ _ _ same => same) ?_ history released same).1
      exact visit_lines fun _ _ => Station.mute_effects _ _
    exact releases
  exact kept

structure Durable (invariant : Controller → List Effect → Prop) : Prop where
  timely : Timely invariant
  agenda : ∀ c history agenda, invariant c history →
    invariant { c with agenda := agenda } history

theorem linger_keeps {invariant : Controller → List Effect → Prop} (durable : Durable invariant)
    {seconds : Float} {outcome : Outcome Controller Effect} {history : List Effect}
    (lingered : c.linger seconds = some outcome) (holds : invariant c history) :
    invariant outcome.state (history ++ outcome.reports) := by
  have alarmed := durable.timely.clock c history c.now (some (c.now.after seconds)) holds
  exact (durable.timely.wait history lingered (durable.agenda _ history _ alarmed)).1

end Cadence.Controller
