import Cadence.Bus.Stream
import Cadence.Proofs.Bus.Readers

namespace Cadence.Bus

structure View where
  stream : Option Stream
  subscriptions : List (Subscription String Value)

def View.opened (name path : String) (waiting : Bool) (queue : List Value) : View :=
  ⟨some ⟨path, .open waiting⟩, [⟨name, path, queue⟩]⟩

def View.shut (path : String) (stage : Stage) : View := ⟨some ⟨path, stage⟩, []⟩

/-- A stream is subscribed just while it is open, and nothing is queued for one that waits. -/
inductive View.Fits (name : String) : View → Prop
  | missing : Fits name ⟨none, []⟩
  | unopened {path : String} : Fits name (.shut path .unopened)
  | reading {path : String} {queue : List Value} : Fits name (.opened name path false queue)
  | waiting {path : String} : Fits name (.opened name path true [])
  | ended {path : String} : Fits name (.shut path .ended)

namespace Streams

def view (name : String) (all : Streams) : View :=
  ⟨all.streams.lookup name, (all.bus.of name).subscriptions⟩

def told (name : String) (reports : List Report) : List Delivery :=
  reports.filterMap fun
    | .delivered other delivery => if other = name then some delivery else none
    | .reply _ => none

@[simp] theorem told_append (name : String) (reports more : List Report) :
    told name (reports ++ more) = told name reports ++ told name more := List.filterMap_append

@[simp] theorem told_nil (name : String) : told name [] = [] := rfl

def names (all : Streams) : List String := all.streams.map (·.1)

variable {all : Streams} {name other path : String} {stage : Stage} {queue : List Value}

theorem lookup_map_entry {α β : Type} (f : String → α → β) (name : String)
    (entries : List (String × α)) :
    (entries.map fun entry => (entry.1, f entry.1 entry.2)).lookup name =
      (entries.lookup name).map (f name) := by
  induction entries with
  | nil => rfl
  | cons entry rest ih =>
      obtain ⟨first, item⟩ := entry
      by_cases own : name = first
      · simp [own]
      · have apart : (name == first) = false := by simpa using own
        simp only [List.map_cons, List.lookup_cons, apart, ih]

theorem setStage_lookup (stage : Stage) (name other : String) (all : Streams) :
    (all.setStage name stage).streams.lookup other = (all.streams.lookup other).map fun stream =>
      if other = name then { stream with stage := stage } else stream := by
  let staged (key : String) (stream : Stream) : Stream :=
    if key = name then { stream with stage := stage } else stream
  rw [← lookup_map_entry staged]
  congr 1
  apply List.map_congr_left
  intro entry _
  by_cases own : entry.1 = name <;> simp [staged, own]

theorem setStage_view (stage : Stage) (name : String) (all : Streams) :
    (all.setStage name stage).view name =
      ⟨(all.view name).stream.map fun stream => { stream with stage := stage },
        (all.view name).subscriptions⟩ := by
  simp only [view, setStage_lookup, if_true]
  rfl

theorem setStage_view_other (different : other ≠ name) (stage : Stage) (all : Streams) :
    (all.setStage other stage).view name = all.view name := by
  simp only [view, setStage_lookup, Ne.symm different, if_false, Option.map_id']
  rfl

theorem view_queued {stream : Option Stream} (seen : all.view name = ⟨stream, [⟨name, path, queue⟩]⟩) :
    all.bus.queued name = queue := by
  have own : (all.bus.of name).subscriptions = [⟨name, path, queue⟩] :=
    congrArg View.subscriptions seen
  rw [← queued_of]
  simp [queued, own]

theorem read_value {value : Value}
    (seen : all.view name = ⟨some ⟨path, stage⟩, [⟨name, path, value :: queue⟩]⟩) :
    (all.read name).state.view name = .opened name path false queue ∧
      told name (all.read name).reports = [.value value] := by
  have own : (all.bus.of name).subscriptions = [⟨name, path, value :: queue⟩] :=
    congrArg View.subscriptions seen
  have stream : all.streams.lookup name = some ⟨path, stage⟩ := congrArg View.stream seen
  have took : ((all.bus.take name 1).of name).subscriptions = [⟨name, path, queue⟩] := by
    rw [of_take]
    simp [take, own]
  rw [read, view_queued seen]
  refine ⟨?_, by simp [told]⟩
  rw [setStage_view]
  simp only [view, stream, took, Option.map_some]
  rfl

theorem read_waits (seen : all.view name = ⟨some ⟨path, stage⟩, [⟨name, path, []⟩]⟩) :
    (all.read name).state.view name = .opened name path true [] ∧
      told name (all.read name).reports = [] := by
  rw [read, view_queued seen]
  refine ⟨?_, rfl⟩
  rw [Outcome.still_state, setStage_view, seen]
  rfl

theorem read_other (different : other ≠ name) (all : Streams) :
    (all.read other).state.view name = all.view name ∧ told name (all.read other).reports = [] := by
  unfold read
  split
  · exact ⟨setStage_view_other different _ _, rfl⟩
  · refine ⟨(setStage_view_other different _ _).trans ?_, by simp [told, different]⟩
    simp only [view, of_take_other different]

theorem each_read_other {readers : List String} (missing : name ∉ readers) (all : Streams) :
    (Outcome.each read readers all).state.view name = all.view name ∧
      told name (Outcome.each read readers all).reports = [] := by
  induction readers generalizing all with
  | nil => exact ⟨rfl, rfl⟩
  | cons first rest ih =>
      rw [List.mem_cons, not_or] at missing
      obtain ⟨seen, nothing⟩ := read_other (Ne.symm missing.1) all
      obtain ⟨seen', nothing'⟩ := ih missing.2 (all.read first).state
      exact ⟨seen'.trans seen, by simp [nothing, nothing']⟩

theorem each_read_own {readers : List String} (distinct : readers.Nodup) (among : name ∈ readers)
    (all : Streams) : ∃ before : Streams, before.view name = all.view name ∧
      (Outcome.each read readers all).state.view name = (before.read name).state.view name ∧
      told name (Outcome.each read readers all).reports = told name (before.read name).reports := by
  induction readers generalizing all with
  | nil => cases among
  | cons first rest ih =>
      obtain ⟨apart, distinct'⟩ := List.nodup_cons.mp distinct
      by_cases own : first = name
      · subst own
        obtain ⟨seen, nothing⟩ := each_read_other apart (all.read first).state
        exact ⟨all, rfl, seen, by simp [nothing]⟩
      · have later := (List.mem_cons.mp among).resolve_left (Ne.symm own)
        obtain ⟨before, same, seen, reports⟩ := ih distinct' later (all.read first).state
        obtain ⟨kept, nothing⟩ := read_other own all
        exact ⟨before, same.trans kept, seen, by simp [nothing, reports]⟩

theorem closed_own (name : String) (bus : Bus String Value) :
    ((bus.close name).of name).subscriptions = [] := by
  rw [of_close]
  simp [Bus.close, of]

theorem finish_view (name : String) (all : Streams) : (all.finish name).view name =
    ⟨(all.view name).stream.map fun stream => { stream with stage := .ended }, []⟩ := by
  have gone := closed_own name all.bus
  rw [finish, setStage_view]
  simp only [view, gone]

theorem finish_view_other (different : other ≠ name) (all : Streams) :
    (all.finish other).view name = all.view name := by
  rw [finish, setStage_view_other different]
  simp only [view, of_close_other different]

theorem make_view (name path : String) (all : Streams) :
    (all.make name path).view name = .shut path .unopened := by
  have gone := closed_own name all.bus
  have before : (all.streams.filter (·.1 ≠ name)).lookup name = none := by
    simp only [List.lookup_eq_none_iff, List.mem_filter]
    rintro entry ⟨-, other⟩
    simpa using Ne.symm (of_decide_eq_true other)
  simp only [view, make, gone, List.lookup_append, before]
  simp [View.shut]

theorem make_view_other (different : other ≠ name) (path : String) (all : Streams) :
    (all.make other path).view name = all.view name := by
  have apart : (name == other) = false := by simpa using Ne.symm different
  simp only [view, make, of_close_other different, List.lookup_append,
    lookup_filter_other (Ne.symm different), List.lookup_cons, apart, List.lookup_nil, Option.or_none]

theorem subscribe_view (seen : all.view name = .shut path .unopened) :
    (all.subscribe name).view name = ⟨some ⟨path, .unopened⟩,
      [⟨name, path, (all.bus.last? path).toList⟩]⟩ := by
  have stream : all.streams.lookup name = some ⟨path, .unopened⟩ := congrArg View.stream seen
  have none : (all.bus.of name).subscriptions = [] := congrArg View.subscriptions seen
  simp only [subscribe, stream, view, of_subscribe]
  simp only [Bus.subscribe, none, List.nil_append]
  rfl

theorem subscribe_view_other (different : other ≠ name) (all : Streams) :
    (all.subscribe other).view name = all.view name := by
  unfold subscribe
  split
  · simp only [view, of_subscribe_other different]
  · rfl

end Streams
end Cadence.Bus
