import Cadence.Proofs.Bus.Turns
import Cadence.Proofs.Keeps
import Mathlib.Data.List.Induction

namespace Cadence.Bus

def Stage.isOpen : Stage → Bool
  | .open _ => true
  | .unopened | .ended => false

def Request.values : Request → List (String × Value)
  | .publish path value => [(path, value)]
  | _ => []

theorem View.Fits.shape {name : String} {view : View} (fits : view.Fits name) :
    (view.subscriptions = [] ∧ ∀ path waiting, view.stream ≠ some ⟨path, .open waiting⟩) ∨
      ∃ path waiting queue, view = .opened name path waiting queue := by
  cases fits with
  | missing | unopened | ended => exact .inl ⟨rfl, by simp [View.shut]⟩
  | reading | waiting => exact .inr ⟨_, _, _, rfl⟩

namespace Streams
variable {all : Streams} {name path : String}

def run (requests : List Request) : Outcome Streams Report := Outcome.each step requests .empty

def publications (requests : List Request) : List (String × Value) := requests.flatMap Request.values

@[simp] theorem publications_append (requests more : List Request) :
    publications (requests ++ more) = publications requests ++ publications more :=
  List.flatMap_append

@[simp] theorem publications_singleton (request : Request) :
    publications [request] = request.values := List.append_nil _

structure Sound (all : Streams) : Prop where
  distinct : all.names.Nodup
  fits : ∀ name, (all.view name).Fits name

theorem setStage_names (stage : Stage) (name : String) (all : Streams) :
    (all.setStage name stage).names = all.names := by
  simp only [names, setStage, List.map_map]
  apply List.map_congr_left
  intro entry _
  by_cases own : entry.1 = name <;> simp [own]

theorem subscribe_kept (name : String) (all : Streams) :
    (all.subscribe name).names = all.names ∧ (all.subscribe name).bus.last = all.bus.last := by
  unfold subscribe
  split <;> exact ⟨rfl, rfl⟩

theorem read_kept (name : String) (all : Streams) :
    (all.read name).state.names = all.names ∧ (all.read name).state.bus.last = all.bus.last := by
  unfold read
  split <;> exact ⟨setStage_names _ _ _, rfl⟩

theorem each_read_kept (readers : List String) (all : Streams) :
    (Outcome.each read readers all).state.names = all.names ∧
      (Outcome.each read readers all).state.bus.last = all.bus.last := by
  induction readers generalizing all with
  | nil => exact ⟨rfl, rfl⟩
  | cons first rest ih =>
      obtain ⟨names, last⟩ := read_kept first all
      obtain ⟨names', last'⟩ := ih (all.read first).state
      exact ⟨names'.trans names, last'.trans last⟩

theorem next_kept (name : String) (all : Streams) :
    (all.next name).state.names = all.names ∧ (all.next name).state.bus.last = all.bus.last := by
  unfold next
  split
  · obtain ⟨names, last⟩ := read_kept name (all.subscribe name)
    obtain ⟨names', last'⟩ := subscribe_kept name all
    exact ⟨names.trans names', last.trans last'⟩
  · exact read_kept name all
  all_goals exact ⟨rfl, rfl⟩

theorem cancel_kept (name : String) (all : Streams) :
    (all.cancel name).state.names = all.names ∧
      (all.cancel name).state.bus.last = all.bus.last := by
  unfold cancel
  split
  · exact ⟨setStage_names _ _ _, rfl⟩
  · exact ⟨rfl, rfl⟩

theorem close_kept (name : String) (all : Streams) :
    (all.close name).state.names = all.names ∧
      (all.close name).state.bus.last = all.bus.last := by
  unfold close
  split
  · exact ⟨rfl, rfl⟩
  · exact ⟨rfl, rfl⟩
  · exact ⟨rfl, rfl⟩
  · exact ⟨setStage_names _ _ _, rfl⟩

theorem make_distinct (distinct : all.names.Nodup) : (all.make name path).names.Nodup := by
  have gone : name ∉ (all.streams.filter (·.1 ≠ name)).map (·.1) := by simp
  rw [names, make, List.map_append]
  refine List.nodup_append.mpr ⟨distinct.sublist (List.filter_sublist.map _), by simp, ?_⟩
  rintro other among _ own rfl
  obtain rfl := List.mem_singleton.mp own
  exact gone among

theorem step_distinct (distinct : all.names.Nodup) (request : Request) :
    (all.step request).state.names.Nodup := by
  cases request with
  | publish path value =>
      rw [step, publish, (each_read_kept _ _).1]
      exact distinct
  | «open» name path => exact make_distinct distinct
  | next name => exact (next_kept name all).1 ▸ distinct
  | cancel name => exact (cancel_kept name all).1 ▸ distinct
  | close name => exact (close_kept name all).1 ▸ distinct
  | last path => exact distinct
  | count path => exact distinct

theorem step_sound (sound : all.Sound) (request : Request) : (all.step request).state.Sound where
  distinct := step_distinct sound.distinct request
  fits name := (step_turn sound.distinct (sound.fits name) request).fits (sound.fits name)

theorem steps_sound (sound : all.Sound) (requests : List Request) :
    (Outcome.each step requests all).state.Sound := by
  induction requests generalizing all with
  | nil => exact sound
  | cons request rest ih => exact ih (step_sound sound request)

theorem empty_sound : Sound .empty where
  distinct := List.nodup_nil
  fits _ := .missing

theorem run_sound (requests : List Request) : (run requests).state.Sound :=
  steps_sound empty_sound requests

theorem step_last (path : String) (request : Request) (all : Streams) :
    (all.step request).state.bus.last? path =
      (published path request.values).getLast?.or (all.bus.last? path) := by
  have kept {before after : Bus String Value} (same : after.last = before.last) :
      after.last? path = before.last? path := by
    rw [last?, same, last?]
  cases request with
  | publish other value =>
      rw [step, publish, kept (each_read_kept _ _).2]
      exact last?_carry path [(other, value)] all.bus
  | «open» name other => exact kept rfl
  | next name => exact kept (next_kept name all).2
  | cancel name => exact kept (cancel_kept name all).2
  | close name => exact kept (close_kept name all).2
  | last other => exact kept rfl
  | count other => exact kept rfl

theorem run_concat (requests : List Request) (request : Request) :
    run (requests ++ [request]) = (run requests).andThen (step request) :=
  Outcome.each_concat step requests request .empty

theorem run_last (path : String) (requests : List Request) :
    (run requests).state.bus.last? path = (published path (publications requests)).getLast? := by
  induction requests using List.reverseRecOn with
  | nil => rfl
  | append_singleton requests request ih =>
      rw [run_concat, Outcome.andThen_state, step_last, ih, publications_append,
        publications_singleton, published_append, List.getLast?_append]

/-! ## Readers that are counted -/

theorem subscribed_iff (sound : all.Sound) :
    (∃ s ∈ all.bus.subscriptions, s.reader = name ∧ s.path = path) ↔
      ∃ waiting, all.streams.lookup name = some ⟨path, .open waiting⟩ := by
  have own : (∃ s ∈ all.bus.subscriptions, s.reader = name ∧ s.path = path) ↔
      ∃ s ∈ (all.view name).subscriptions, s.path = path := by
    simp [view, of, and_assoc]
  rw [own, show all.streams.lookup name = (all.view name).stream from rfl]
  obtain ⟨none, shut⟩ | ⟨path', waiting, queue, seen⟩ := (sound.fits name).shape
  · simp [none, shut]
  · simp [seen, View.opened, eq_comm]

theorem readers_nodup (sound : all.Sound) : all.bus.readers.Nodup := by
  refine List.nodup_iff_count_le_one.mpr fun name => ?_
  have counted : all.bus.readers.count name = (all.view name).subscriptions.length := by
    rw [readers, List.count, List.countP_map, List.countP_eq_length_filter]
    rfl
  rw [counted]
  obtain ⟨none, -⟩ | ⟨path, waiting, queue, seen⟩ := (sound.fits name).shape
  · simp [none]
  · simp [seen, View.opened]

theorem count_open (sound : all.Sound) (path : String) : all.bus.count path =
    all.streams.countP fun entry => entry.2.path = path && entry.2.stage.isOpen := by
  let subscribed := all.bus.subscriptions.map fun s => (s.reader, s.path)
  let opened := (all.streams.filter (·.2.stage.isOpen)).map fun entry => (entry.1, entry.2.path)
  have distinct : subscribed.Nodup := by
    have readers : (subscribed.map (·.1)).Nodup := by
      rw [List.map_map]
      exact readers_nodup sound
    exact readers.of_map
  have distinct' : opened.Nodup := by
    have names : (opened.map (·.1)).Nodup := by
      rw [List.map_map]
      exact sound.distinct.sublist (List.filter_sublist.map _)
    exact names.of_map
  -- Both list each open stream once, in orders of their own.
  have same : subscribed.Perm opened := by
    refine (List.perm_ext_iff_of_nodup distinct distinct').mpr fun (name, path) => ?_
    have reads : (name, path) ∈ subscribed ↔
        ∃ s ∈ all.bus.subscriptions, s.reader = name ∧ s.path = path := by simp [subscribed]
    rw [reads, subscribed_iff sound]
    simp only [lookup_eq_some sound.distinct, opened, List.mem_map, List.mem_filter]
    constructor
    · rintro ⟨waiting, among⟩
      exact ⟨_, ⟨among, rfl⟩, rfl⟩
    · rintro ⟨⟨_, _, stage⟩, ⟨among, isOpen⟩, same⟩
      obtain ⟨rfl, rfl⟩ := Prod.mk.inj same
      cases stage with
      | «open» waiting => exact ⟨waiting, among⟩
      | unopened | ended => cases isOpen
  calc all.bus.count path
      = subscribed.countP (·.2 = path) := by
        simp [subscribed, count, List.countP_map, Function.comp_def]
    _ = opened.countP (·.2 = path) := same.countP_eq _
    _ = _ := by simp [opened, List.countP_map, List.countP_filter, Function.comp_def]

end Streams
end Cadence.Bus
