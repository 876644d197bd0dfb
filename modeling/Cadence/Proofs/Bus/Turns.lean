import Cadence.Proofs.Bus.Views
import Cadence.Proofs.Lookup

namespace Cadence.Bus

def View.Passes (name : String) (view : View) : Request → Prop
  | .publish path _ => ∀ waiting, view.stream ≠ some ⟨path, .open waiting⟩
  | .open other _ => other ≠ name
  | .next other => other = name →
      view.stream = none ∨ ∃ path, view.stream = some ⟨path, .open true⟩
  | .cancel other => other = name → ∀ path, view.stream ≠ some ⟨path, .open true⟩
  | .close other => other = name → ∀ path, view.stream ≠ some ⟨path, .unopened⟩ ∧
      view.stream ≠ some ⟨path, .open false⟩
  | .last _ | .count _ => True

open View in
inductive Turn (name : String) (last : String → Option Value) :
    Request → View → View → List Delivery → Prop
  | passed {request : Request} {view : View} (passes : view.Passes name request) :
      Turn name last request view view []
  | made {path : String} {view : View} :
      Turn name last (.open name path) view (.shut path .unopened) []
  | queued {path : String} {value : Value} {queue : List Value} :
      Turn name last (.publish path value) (.opened name path false queue)
        (.opened name path false (queue ++ [value])) []
  | handed {path : String} {value : Value} :
      Turn name last (.publish path value) (.opened name path true [])
        (.opened name path false []) [.value value]
  | replayed {path : String} {value : Value} (known : last path = some value) :
      Turn name last (.next name) (.shut path .unopened) (.opened name path false []) [.value value]
  | subscribed {path : String} (unknown : last path = none) :
      Turn name last (.next name) (.shut path .unopened) (.opened name path true []) []
  | read {path : String} {value : Value} {queue : List Value} :
      Turn name last (.next name) (.opened name path false (value :: queue))
        (.opened name path false queue) [.value value]
  | waits {path : String} :
      Turn name last (.next name) (.opened name path false []) (.opened name path true []) []
  | finished {path : String} :
      Turn name last (.next name) (.shut path .ended) (.shut path .ended) [.finished]
  | cancelled {path : String} :
      Turn name last (.cancel name) (.opened name path true []) (.shut path .ended) [.cancelled]
  | dropped {path : String} :
      Turn name last (.close name) (.shut path .unopened) (.shut path .ended) []
  | closed {path : String} {queue : List Value} :
      Turn name last (.close name) (.opened name path false queue) (.shut path .ended) []

theorem Turn.fits {name : String} {last : String → Option Value} {request : Request}
    {view after : View} {told : List Delivery} (turn : Turn name last request view after told)
    (fits : view.Fits name) : after.Fits name := by
  cases turn with
  | passed => exact fits
  | made => exact .unopened
  | queued | handed | replayed | read => exact .reading
  | subscribed | waits => exact .waiting
  | finished | cancelled | dropped | closed => exact .ended

namespace Streams
variable {all : Streams} {name other path : String} {request : Request}

theorem mem_waiting (distinct : all.names.Nodup) :
    name ∈ all.waiting ↔ ∃ path, (all.view name).stream = some ⟨path, .open true⟩ := by
  simp only [view, lookup_eq_some distinct, waiting, List.mem_map, List.mem_filter,
    decide_eq_true_eq]
  constructor
  · rintro ⟨⟨_, path, stage⟩, ⟨among, rfl⟩, rfl⟩
    exact ⟨path, among⟩
  · rintro ⟨path, among⟩
    exact ⟨_, ⟨among, rfl⟩, rfl⟩

theorem waiting_nodup (distinct : all.names.Nodup) : all.waiting.Nodup :=
  distinct.sublist (List.filter_sublist.map _)

theorem carried_view (path : String) (value : Value) (name : String) (all : Streams) :
    view name { all with bus := all.bus.publish path value } =
      ⟨(all.view name).stream, (all.view name).subscriptions.map fun s =>
        if s.path = path then { s with queue := s.queue ++ [value] } else s⟩ := by
  simp only [view]
  congr 1
  exact congrArg Bus.subscriptions (keep_publish (· = name) path value all.bus)

theorem publish_turn (distinct : all.names.Nodup) (fits : (all.view name).Fits name)
    (path : String) (value : Value) :
    Turn name all.bus.last? (.publish path value) (all.view name)
      ((all.publish path value).state.view name) (told name (all.publish path value).reports) := by
  let carried : Streams := { all with bus := all.bus.publish path value }
  have seen := carried_view path value name all
  -- Only a stream that waits reads what has come in.
  have quiet (rest : ∀ path, (all.view name).stream ≠ some ⟨path, .open true⟩) :
      (all.publish path value).state.view name = carried.view name ∧
        told name (all.publish path value).reports = [] :=
    each_read_other (fun among => by
      obtain ⟨path, waits⟩ := (mem_waiting distinct).mp among
      exact rest path waits) carried
  cases view : all.view name with
  | mk stream subscriptions =>
  rw [view] at seen fits quiet
  cases fits with
  | missing | unopened | ended =>
      obtain ⟨same, nothing⟩ := quiet (by simp)
      rw [same, nothing, seen]
      exact .passed (by simp [View.Passes])
  | @reading own queue =>
      obtain ⟨same, nothing⟩ := quiet (by simp)
      rw [same, nothing, seen]
      by_cases its : own = path
      · subst its
        have queued : Turn name all.bus.last? (.publish own value) (.opened name own false queue)
            (.opened name own false (queue ++ [value])) [] := .queued
        simpa [View.opened] using queued
      · simpa [its] using Turn.passed (by simp [View.Passes, its])
  | @waiting own =>
      have among : name ∈ all.waiting := (mem_waiting distinct).mpr ⟨own, by simp [view]⟩
      obtain ⟨before, same, after, reports⟩ := each_read_own (waiting_nodup distinct) among carried
      rw [publish, after, reports]
      by_cases its : own = path
      · subst its
        obtain ⟨handed, delivered⟩ := read_value (same.trans (by simpa using seen))
        rw [handed, delivered]
        exact .handed
      · obtain ⟨kept, nothing⟩ := read_waits (same.trans (by simpa [its] using seen))
        rw [kept, nothing]
        exact .passed (by simp [View.Passes, its])

theorem next_own (fits : (all.view name).Fits name) :
    Turn name all.bus.last? (.next name) (all.view name) ((all.next name).state.view name)
      (told name (all.next name).reports) := by
  have stage : all.stage? name = (all.view name).stream.map (·.stage) := rfl
  cases view : all.view name with
  | mk stream subscriptions =>
  rw [view] at fits stage
  cases fits with
  | missing =>
      simp only [next, stage, Option.map_none, Outcome.still_state, Outcome.still_reports, view]
      exact .passed (by simp [View.Passes])
  | @unopened path =>
      -- A stream that subscribes is handed the last value of its path first.
      have subscribed := subscribe_view view
      simp only [next, stage, Option.map_some]
      cases known : all.bus.last? path with
      | none =>
          rw [known] at subscribed
          obtain ⟨waits, nothing⟩ := read_waits subscribed
          rw [waits, nothing]
          exact .subscribed known
      | some value =>
          rw [known] at subscribed
          obtain ⟨reads, delivered⟩ := read_value subscribed
          rw [reads, delivered]
          exact .replayed known
  | @reading path queue =>
      simp only [next, stage, Option.map_some]
      cases queue with
      | nil =>
          obtain ⟨waits, nothing⟩ := read_waits view
          rw [waits, nothing]
          exact .waits
      | cons value queue =>
          obtain ⟨reads, delivered⟩ := read_value view
          rw [reads, delivered]
          exact .read
  | waiting =>
      simp only [next, stage, Option.map_some, Outcome.still_state, Outcome.still_reports, view]
      exact .passed (by simp [View.Passes])
  | ended =>
      have delivered : told name [.delivered name .finished] = [.finished] := by simp [told]
      simp only [next, stage, Option.map_some, view, delivered]
      exact .finished

theorem cancel_own (fits : (all.view name).Fits name) :
    Turn name all.bus.last? (.cancel name) (all.view name) ((all.cancel name).state.view name)
      (told name (all.cancel name).reports) := by
  have stage : all.stage? name = (all.view name).stream.map (·.stage) := rfl
  cases view : all.view name with
  | mk stream subscriptions =>
  rw [view] at fits stage
  cases fits with
  | waiting =>
      have delivered : told name [.delivered name .cancelled] = [.cancelled] := by simp [told]
      simp only [cancel, stage, Option.map_some, finish_view, view, delivered]
      exact .cancelled
  | missing | unopened | ended | reading =>
      simp only [cancel, stage, Option.map_some, Option.map_none, Outcome.still_state,
        Outcome.still_reports, view]
      exact .passed (by simp [View.Passes])

theorem close_own (fits : (all.view name).Fits name) :
    Turn name all.bus.last? (.close name) (all.view name) ((all.close name).state.view name)
      (told name (all.close name).reports) := by
  have stage : all.stage? name = (all.view name).stream.map (·.stage) := rfl
  cases view : all.view name with
  | mk stream subscriptions =>
  rw [view] at fits stage
  cases fits with
  | unopened =>
      simp only [close, stage, Option.map_some, Outcome.still_state, Outcome.still_reports,
        finish_view, view]
      exact .dropped
  | reading =>
      simp only [close, stage, Option.map_some, Outcome.still_state, Outcome.still_reports,
        finish_view, view]
      exact .closed
  | missing | ended | waiting =>
      simp only [close, stage, Option.map_some, Option.map_none, Outcome.still_state,
        Outcome.still_reports, view]
      exact .passed (by simp [View.Passes])

theorem next_other (different : other ≠ name) (all : Streams) :
    (all.next other).state.view name = all.view name ∧ told name (all.next other).reports = [] := by
  unfold next
  split
  · obtain ⟨seen, nothing⟩ := read_other different (all.subscribe other)
    exact ⟨seen.trans (subscribe_view_other different all), nothing⟩
  · exact read_other different all
  · exact ⟨rfl, rfl⟩
  · exact ⟨rfl, by simp [told, different]⟩
  · exact ⟨rfl, rfl⟩

theorem cancel_other (different : other ≠ name) (all : Streams) :
    (all.cancel other).state.view name = all.view name ∧
      told name (all.cancel other).reports = [] := by
  unfold cancel
  split
  · exact ⟨finish_view_other different all, by simp [told, different]⟩
  · exact ⟨rfl, rfl⟩

theorem close_other (different : other ≠ name) (all : Streams) :
    (all.close other).state.view name = all.view name ∧
      told name (all.close other).reports = [] := by
  unfold close
  split
  · exact ⟨rfl, rfl⟩
  · exact ⟨rfl, rfl⟩
  · exact ⟨rfl, rfl⟩
  · exact ⟨finish_view_other different all, rfl⟩

theorem step_turn (distinct : all.names.Nodup) (fits : (all.view name).Fits name)
    (request : Request) :
    Turn name all.bus.last? request (all.view name) ((all.step request).state.view name)
      (told name (all.step request).reports) := by
  have passes (others : (all.step request).state.view name = all.view name ∧
      told name (all.step request).reports = []) (apart : (all.view name).Passes name request) :
      Turn name all.bus.last? request (all.view name) ((all.step request).state.view name)
        (told name (all.step request).reports) := by
    rw [others.1, others.2]
    exact .passed apart
  cases request with
  | publish path value => exact publish_turn distinct fits path value
  | «open» other path =>
      by_cases own : other = name
      · subst own
        have made := make_view other path all
        simp only [step, Outcome.still_state, Outcome.still_reports, made]
        exact .made
      · exact passes ⟨make_view_other own path all, rfl⟩ own
  | next other =>
      by_cases own : other = name
      · subst own
        exact next_own fits
      · exact passes (next_other own all) fun same => absurd same own
  | cancel other =>
      by_cases own : other = name
      · subst own
        exact cancel_own fits
      · exact passes (cancel_other own all) fun same => absurd same own
  | close other =>
      by_cases own : other = name
      · subst own
        exact close_own fits
      · exact passes (close_other own all) fun same => absurd same own
  | last path => exact passes ⟨rfl, rfl⟩ trivial
  | count path => exact passes ⟨rfl, rfl⟩ trivial

end Streams
end Cadence.Bus
