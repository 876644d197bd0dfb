import Cadence.Trigger.Edge
import Mathlib.Data.Bool.Basic
import Mathlib.Data.List.Basic

namespace Cadence.Trigger

def marks (index : Nat) (last : Bool) : List Bool → List (Nat × Bool)
  | [] => []
  | state :: rest =>
      if state = last then marks (index + 1) last rest
      else (index, state) :: marks (index + 1) state rest

structure Detects (states : List Bool) (changes : List (Nat × Bool)) : Prop where
  exact : ∀ k state, (k, state) ∈ changes ↔
    states[k]? = some state ∧ (false :: states)[k]? = some (!state)
  ordered : changes.Pairwise (·.1 < ·.1)
  alternating : ∀ n change, changes[n]? = some change → change.2 = decide (n % 2 = 0)
  current : ∀ k, ((changes.filter (·.1 < k)).getLast?.map (·.2)).getD false =
    ((states.take k).getLast?).getD false

section marks
variable {index k : Nat} {last state : Bool} {states : List Bool} {change : Nat × Bool}

theorem marks_same : marks index last (last :: states) = marks (index + 1) last states := by
  simp [marks]

theorem marks_other :
    marks index last ((!last) :: states) = (index, !last) :: marks (index + 1) (!last) states := by
  simp [marks]

theorem index_le_of_mem_marks (among : change ∈ marks index last states) : index ≤ change.1 := by
  induction states generalizing index last with
  | nil => cases among
  | cons state rest ih =>
      obtain rfl | rfl := Bool.eq_or_eq_not state last
      · rw [marks_same] at among
        exact Nat.le_of_succ_le (ih among)
      · rw [marks_other] at among
        obtain rfl | later := List.mem_cons.mp among
        · exact Nat.le_refl index
        · exact Nat.le_of_succ_le (ih later)

theorem mem_marks : (index + k, state) ∈ marks index last states ↔
    states[k]? = some state ∧ (last :: states)[k]? = some (!state) := by
  induction states generalizing index last k with
  | nil => simp [marks]
  | cons first rest ih =>
      have behind : (index, state) ∉ marks (index + 1) first rest := fun among =>
        absurd (index_le_of_mem_marks among) (Nat.not_succ_le_self index)
      obtain rfl | rfl := Bool.eq_or_eq_not first last
      · rw [marks_same]
        cases k with
        | zero =>
            simp only [Nat.add_zero, behind, false_iff]
            cases first <;> cases state <;> simp
        | succ n =>
            rw [show index + (n + 1) = index + 1 + n by omega, ih]
            rfl
      · rw [marks_other, List.mem_cons]
        cases k with
        | zero =>
            simp only [Nat.add_zero, behind, or_false]
            cases last <;> cases state <;> simp
        | succ n =>
            rw [show index + (n + 1) = index + 1 + n by omega, ih]
            simp only [Prod.mk.injEq, List.getElem?_cons_succ, or_iff_right_iff_imp]
            omega

theorem marks_ordered : (marks index last states).Pairwise (·.1 < ·.1) := by
  induction states generalizing index last with
  | nil => exact .nil
  | cons state rest ih =>
      obtain rfl | rfl := Bool.eq_or_eq_not state last
      · rw [marks_same]
        exact ih
      · rw [marks_other]
        exact .cons (fun change among => index_le_of_mem_marks among) ih

theorem marks_alternating (n : Nat) (found : (marks index last states)[n]? = some change) :
    change.2 = (last ^^ decide (n % 2 = 0)) := by
  induction states generalizing index last n with
  | nil => cases found
  | cons state rest ih =>
      obtain rfl | rfl := Bool.eq_or_eq_not state last
      · exact ih n (by rwa [marks_same] at found)
      · rw [marks_other] at found
        cases n with
        | zero =>
            obtain rfl : (index, !last) = change := by simpa using found
            simp
        | succ n =>
            rw [ih n (by simpa using found)]
            obtain even | odd := Nat.mod_two_eq_zero_or_one n
            · simp [even, show (n + 1) % 2 = 1 by omega]
            · simp [odd, show (n + 1) % 2 = 0 by omega]

theorem marks_current :
    (((marks index last states).filter (·.1 < index + k)).getLast?.map (·.2)).getD last =
      ((states.take k).getLast?).getD last := by
  induction states generalizing index last k with
  | nil => simp [marks]
  | cons state rest ih =>
      cases k with
      | zero =>
          have none : (marks index last (state :: rest)).filter (·.1 < index + 0) = [] := by
            refine List.filter_eq_nil_iff.mpr fun change among => ?_
            simpa using index_le_of_mem_marks among
          rw [none]
          rfl
      | succ n =>
          have later := @ih (index + 1) n state
          rw [show index + 1 + n = index + (n + 1) by omega] at later
          rw [List.take_succ_cons, List.getLast?_cons, Option.getD_some, ← later]
          obtain rfl | rfl := Bool.eq_or_eq_not state last
          · rw [marks_same]
          · rw [marks_other, List.filter_cons_of_pos (by simp), List.getLast?_cons]
            cases (List.filter _ _).getLast? <;> rfl

theorem marks_detects (states : List Bool) : Detects states (marks 0 false states) where
  exact k state := by
    have places := @mem_marks 0 k false state states
    rwa [Nat.zero_add] at places
  ordered := marks_ordered
  alternating n change found := by simpa using marks_alternating n found
  current k := by simpa using @marks_current 0 k false states

end marks

variable [Host]

def Evaluates (trigger : Trigger) : List Value → List Bool → Prop :=
  List.Forall₂ fun payload state => trigger.evaluate payload = .ok state

theorem edgesFrom_evaluates {trigger : Trigger} {index : Nat} {last : Bool} {payloads : List Value}
    {states : List Bool} (evaluates : trigger.Evaluates payloads states) :
    trigger.edgesFrom index last payloads = (marks index last states, none) := by
  induction evaluates generalizing index last with
  | nil => rfl
  | @cons payload state payloads states read _ ih =>
      obtain rfl | rfl := Bool.eq_or_eq_not state last
      · rw [edgesFrom, edge?, read, marks_same, ← ih]
        simp [Except.map]
      · rw [edgesFrom, edge?, read, marks_other]
        simp [Except.map, ih]

end Cadence.Trigger
