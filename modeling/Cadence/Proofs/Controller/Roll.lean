import Cadence.Proofs.Controller.Steady
import Cadence.Proofs.Station.Commands
import Cadence.Proofs.Trigger.Findings
import Mathlib.Data.List.Dedup

namespace Cadence.Controller
open Outcome

variable {c : Controller} {s : Station} {task : Task} {name other : String}
  {active starts : List String} {findings : List Finding}

def mark (name : String) (active : List String) : Finding → List String
  | .changed true => if active.contains name then active else active ++ [name]
  | .changed false | .failed _ => active.filter (· ≠ name)
  | .finished => active

def marks (name : String) (findings : List Finding) (active : List String) : List String :=
  findings.foldl (mark name) active

theorem mem_mark (finding : Finding) (different : other ≠ name) :
    other ∈ mark name active finding ↔ other ∈ active := by
  cases finding with
  | changed on =>
      cases on with
      | false => simp [mark, different]
      | true =>
          by_cases held : name ∈ active
          · simp [mark, held]
          · simp [mark, held, different]
  | failed text => simp [mark, different]
  | finished => rfl

theorem mem_marks (different : other ≠ name) :
    other ∈ marks name findings active ↔ other ∈ active := by
  induction findings generalizing active with
  | nil => rfl
  | cons finding rest ih =>
      rw [marks, List.foldl_cons, ← marks, ih, mem_mark finding different]

theorem mark_nodup (finding : Finding) (nodup : active.Nodup) : (mark name active finding).Nodup := by
  cases finding with
  | changed on =>
      cases on with
      | false => exact nodup.filter _
      | true =>
          by_cases held : name ∈ active
          · simpa [mark, held] using nodup
          · simpa [mark, held] using nodup.concat held
  | failed text => exact nodup.filter _
  | finished => exact nodup

theorem marks_nodup (nodup : active.Nodup) : (marks name findings active).Nodup := by
  induction findings generalizing active with
  | nil => exact nodup
  | cons finding rest ih => exact ih (mark_nodup finding nodup)

def Recent (starts active : List String) : Prop :=
  active = starts.dedup.filter (· ∈ active)

theorem dedup_concat (starts : List String) (name : String) :
    (starts ++ [name]).dedup = starts.dedup.filter (· ≠ name) ++ [name] := by
  induction starts with
  | nil => simp
  | cons head rest ih =>
      by_cases later : head ∈ rest
      · have later' : head ∈ rest ++ [name] := by simp [later]
        rw [List.cons_append, List.dedup_cons_of_mem later', ih, List.dedup_cons_of_mem later]
      · by_cases same : head = name
        · subst same
          rw [List.cons_append, List.dedup_cons_of_mem (by simp), ih,
            List.dedup_cons_of_notMem later]
          simp
        · have later' : head ∉ rest ++ [name] := by simp [later, same]
          rw [List.cons_append, List.dedup_cons_of_notMem later', ih,
            List.dedup_cons_of_notMem later]
          simp [same]

theorem Recent.put (recent : Recent starts active) (absent : name ∉ active) :
    Recent (starts ++ [name]) (active ++ [name]) := by
  unfold Recent at recent ⊢
  rw [dedup_concat, List.filter_append, List.filter_filter]
  have kept : (starts.dedup.filter fun other =>
      decide (other ∈ active ++ [name]) && decide (other ≠ name)) = active := by
    conv_rhs => rw [recent]
    apply List.filter_congr
    intro other _
    by_cases same : other = name
    · subst same
      simp [absent]
    · simp [same]
  rw [kept]
  simp

theorem Recent.remove (recent : Recent starts active) (name : String) :
    Recent starts (active.filter (· ≠ name)) := by
  unfold Recent at recent ⊢
  conv_lhs => rw [recent]
  rw [List.filter_filter]
  apply List.filter_congr
  intro other _
  simp [Bool.and_comm]

section alternating
variable {on last : Bool}

theorem mem_marks_self (alternates : Trigger.Alternates on findings last)
    (mirrors : name ∈ active ↔ on = true) : name ∈ marks name findings active ↔ last = true := by
  induction alternates generalizing active with
  | quiet => exact mirrors
  | @changes on last rest _ ih =>
      rw [marks, List.foldl_cons, ← marks]
      apply ih
      cases on with
      | false => simp [mark, show name ∉ active by simpa using mirrors]
      | true => simp [mark]
  | failed => simp [marks, mark]
  | finished => exact mirrors

theorem marks_recent (alternates : Trigger.Alternates on findings last)
    (mirrors : name ∈ active ↔ on = true) (recent : Recent starts active) :
    Recent (starts ++ startsOf name (findings.filterMap Finding.command?))
      (marks name findings active) := by
  -- As the findings go by turns, a name is off the roll whenever it is put on.
  induction alternates generalizing active starts with
  | quiet => simpa [startsOf, marks] using recent
  | @changes on last rest _ ih =>
      rw [marks, List.foldl_cons, ← marks]
      cases on with
      | false =>
          have absent : name ∉ active := by simpa using mirrors
          have put : mark name active (.changed true) = active ++ [name] := by simp [mark, absent]
          have later := ih (by simp [mark, absent]) (put ▸ recent.put absent)
          rwa [List.append_assoc] at later
      | true => exact ih (by simp [mark]) (recent.remove name)
  | failed => simpa [startsOf, marks, mark, Finding.command?] using recent.remove name
  | finished =>
      have commands : startsOf name ([.finished].filterMap Finding.command?) = [] := rfl
      rw [commands, List.append_nil]
      exact recent

end alternating

theorem close_close (name : String) (bus : Bus String Signal) :
    (bus.close name).close name = bus.close name := by
  simp [Bus.close, List.filter_filter]

def noted (task : Task) (findings : List Finding) (c : Controller) : Controller :=
  { c with
    active := marks task.name findings c.active
    bus := if findings.any Finding.closes then c.bus.close task.name else c.bus }

theorem note_state (task : Task) (finding : Finding) (c : Controller) :
    (c.note task finding).state = c.noted task [finding] := by
  cases finding with
  | changed on =>
      cases on with
      | false => rfl
      | true =>
          by_cases held : task.name ∈ c.active
          · simp [note, reportStatus, activate, noted, marks, mark, Finding.closes, held]
          · simp [note, reportStatus, activate, noted, marks, mark, Finding.closes, held]
  | failed text => rfl
  | finished => rfl

theorem notes_state (task : Task) (findings : List Finding) (c : Controller) :
    (Outcome.each (note task) findings c).state = c.noted task findings := by
  induction findings generalizing c with
  | nil => rfl
  | cons finding rest ih =>
      rw [each_cons, andThen_state, ih, note_state]
      cases first : finding.closes <;> cases later : rest.any Finding.closes
      all_goals simp [noted, marks, first, later, close_close]

theorem readFeed_state [Host] (found : c.station? name = some s) :
    (c.readFeed name).state =
      ({ c.setStation (s.read (c.bus.queued name)).state with
        bus := c.bus.take name (c.bus.queued name).length } : Controller).noted s.task
          (s.read (c.bus.queued name)).reports := by
  simp only [readFeed, found, notes_state]

structure Shape where
  tasks : List Task
  outlet : Outlet
  started : Bool
  names : List String

def shape (c : Controller) : Shape := ⟨c.tasks, c.outlet, c.started, c.stations.map Station.name⟩

theorem shape_of_fixed {d : Controller} (same : d.fixed = c.fixed) : d.shape = c.shape := by
  simp only [fixed, Fixed.mk.injEq] at same
  obtain ⟨tasks, outlet, started, names, -⟩ := same
  simp only [shape, tasks, outlet, started, names]

theorem setStation_shape (t : Station) (c : Controller) : (c.setStation t).shape = c.shape :=
  shape_of_fixed (setStation_fixed t c)

@[simp] theorem visit_shape (step : Station → Outcome Station Effect) (name : String)
    (c : Controller) : (c.visit step name).state.shape = c.shape :=
  shape_of_fixed (visit_fixed step name c)

@[simp] theorem readFeed_shape [Host] (name : String) (c : Controller) :
    (c.readFeed name).state.shape = c.shape := by
  cases found : c.station? name with
  | none => simp [readFeed, found]
  | some s =>
      rw [readFeed_state found]
      exact setStation_shape _ c

@[simp] theorem settle_shape [Host] (names : List String) (c : Controller) :
    (c.settle names).state.shape = c.shape := by
  have keeps : Keeps (fun d (_ : List Effect) => d.shape = c.shape) (settle names) := by
    refine settle_keeps ?_ ?_ ?_
    · intro name _ d _ same
      exact (readFeed_shape name d).trans same
    · intro name _ d _ same
      exact (visit_shape _ name d).trans same
    · intro name _ d _ same
      exact (visit_shape _ name d).trans same
  exact keeps c [] rfl

end Cadence.Controller
