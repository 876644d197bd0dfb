import Cadence.Daemon.Serve
import Cadence.Proofs.Controller.Activity
import Cadence.Proofs.Controller.Lingering

namespace Cadence.Daemon
open Controller

def readings [Host] : List Item → List (String × Value)
  | [] | .interrupt :: _ => []
  | .wait _ :: rest => readings rest
  | .line text :: rest =>
      match Line.read text with
      | .error _ => []
      | .ok .blank | .ok (.invalid _) => readings rest
      | .ok (.signal path value) => (path, value) :: readings rest

def beats [Host] : List Item → List Beat
  | [] | .interrupt :: _ => []
  | .wait seconds :: rest => .advance seconds :: beats rest
  | .line text :: rest =>
      match Line.read text with
      | .error _ => []
      | .ok .blank | .ok (.invalid _) => beats rest
      | .ok (.signal path value) => .publish [(path, .value value)] :: beats rest

def effects (reports : List Report) : List Effect :=
  reports.filterMap fun
    | .effect effect => some effect
    | _ => none

@[simp] theorem effects_append (reports more : List Report) :
    effects (reports ++ more) = effects reports ++ effects more := List.filterMap_append

@[simp] theorem effects_run (outcome : Outcome Controller Effect) :
    effects (run outcome).reports = outcome.reports := by
  simp [effects, run, List.filterMap_map]

theorem published_beats [Host] (path : String) (items : List Item) :
    Bus.published path ((beats items).flatMap Beat.signals) =
      (Bus.published path (readings items)).map .value := by
  induction items with
  | nil => rfl
  | cons item rest ih =>
      cases item with
      | interrupt => rfl
      | wait seconds => simpa [beats, readings, Beat.signals] using ih
      | line text =>
          cases read : Line.read text with
          | error excess => simp [beats, readings, read]
          | ok line =>
              cases line with
              | blank | invalid => simpa [beats, readings, read] using ih
              | signal own value =>
                  by_cases same : own = path
                  · simp [beats, readings, read, Beat.signals, Bus.published_cons, same, ih]
                  · simp [beats, readings, read, Beat.signals, Bus.published_cons, same, ih]

theorem feed_beats [Host] (published : Nat) (items : List Item) (c : Controller) :
    (feed published items c).state.controller =
        (Controller.run ((beats items).map Beat.step) c).state ∧
      effects (feed published items c).reports =
        (Controller.run ((beats items).map Beat.step) c).reports := by
  induction items generalizing published c with
  | nil => exact ⟨rfl, rfl⟩
  | cons item rest ih =>
      cases item with
      | interrupt => exact ⟨rfl, rfl⟩
      | wait seconds =>
          obtain ⟨state, reports⟩ := ih published (c.advance seconds).state
          refine ⟨state, ?_⟩
          rw [feed, after, effects_append, effects_run, beats, List.map_cons, run_cons,
            Outcome.andThen_reports]
          exact congrArg _ reports
      | line text =>
          cases read : Line.read text with
          | error excess => simp [feed, after, finish, beats, read, effects, Controller.run]
          | ok line =>
              cases line with
              | blank | invalid => simpa [feed, after, beats, read, effects] using ih published c
              | signal path value =>
                  let carried := c.publish [(path, .value value)]
                  obtain ⟨state, reports⟩ := ih (published + 1) carried.state
                  have beat : beats (.line text :: rest) =
                      .publish [(path, .value value)] :: beats rest := by simp [beats, read]
                  have fed : feed published (.line text :: rest) c =
                      after ⟨c, [.reading]⟩ fun c =>
                        after (run carried) (feed (published + 1) rest) := by
                    simp [feed, read, after, carried]
                  rw [fed, beat, List.map_cons, run_cons]
                  refine ⟨state, ?_⟩
                  rw [after, effects_append, after, effects_append, effects_run]
                  exact congrArg (carried.reports ++ ·) reports

theorem statusOf_eq (reports : List Report) :
    statusOf reports = (Effect.statuses (effects reports)).getLast?.getD "" := by
  rw [statusOf, ← List.head?_filterMap, List.filterMap_reverse, List.head?_reverse,
    Effect.statuses, effects, List.filterMap_filterMap]
  congr 3
  funext report
  cases report with
  | effect effect => cases effect <;> rfl
  | reading | invalid | closed => rfl

theorem close_keeps [Host] {invariant : Controller → List Effect → Prop}
    (durable : Durable invariant)
    {seconds : Float} {fed : Fed} {closed : Outcome Controller Report} (history : List Effect)
    (closes : close seconds fed = some closed) (holds : invariant fed.controller history) :
    invariant closed.state (history ++ effects closed.reports) := by
  have still : invariant fed.controller (history ++ []) := by rwa [List.append_nil]
  unfold close linger at closes
  split at closes
  · next published _ =>
      split at closes
      · obtain ⟨_, lingers, rfl⟩ := Option.map_eq_some_iff.mp closes
        obtain ⟨lingered, left, rfl⟩ := Option.map_eq_some_iff.mp lingers
        have kept := linger_keeps durable left holds
        have same : effects (.closed published :: (run lingered).reports) = lingered.reports :=
          effects_run lingered
        rw [same]
        exact kept
      · obtain rfl := Option.some.inj closes
        exact still
  · obtain rfl := Option.some.inj closes
    exact still

theorem serveTasks_phases [Host] {tasks : List Task} {outlet : Outlet} {items : List Item}
    {seconds : Float} {served : Outcome Served Report}
    (serves : serveTasks tasks outlet items seconds = some served) :
    ∃ (closed : Outcome Controller Report) (last : Outcome Controller Effect),
      close seconds (feed 0 items (idle tasks outlet).start.state).state = some closed ∧
      closed.state.stop = some last ∧
      effects served.reports = (idle tasks outlet).start.reports ++
        effects (feed 0 items (idle tasks outlet).start.state).reports ++
          effects closed.reports ++ last.reports ∧
      served.state.final =
        result (feed 0 items (idle tasks outlet).start.state).state.ending served.reports := by
  obtain ⟨closed, closes, serves⟩ := Option.bind_eq_some_iff.mp serves
  obtain ⟨stopped, stops, serves⟩ := Option.bind_eq_some_iff.mp serves
  obtain ⟨last, stopped', rfl⟩ := Option.map_eq_some_iff.mp stops
  obtain rfl := Option.some.inj serves
  have started : (run (idle tasks outlet).start).state = (idle tasks outlet).start.state := rfl
  exact ⟨closed, last, closes, stopped', by simp [started], rfl⟩

end Cadence.Daemon
