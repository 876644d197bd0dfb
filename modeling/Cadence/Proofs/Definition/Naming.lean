import Cadence.Proofs.Decimal.Numerals
import Cadence.Proofs.Definition.Language

namespace Cadence
open Decimal Text

def shownLabel (label : Option String) : String := label.getD "activity"

section names
variable {task : String} {label other : Option String} {i j : Nat}

theorem dash_notMem_digits (n : Nat) : '-' ∉ Nat.toDigits 10 n := by
  intro member
  have digit := isDigit_toDigits n '-' member
  cases digit

theorem activityName_chars (task : String) (label : Option String) (index : Nat) :
    (activityName task label index).toList = task.toList ++
      '[' :: ((shownLabel label).toList ++ '-' :: Nat.toDigits 10 index ++ [']']) := by
  have number : (toString (index : Int)).toList = Nat.toDigits 10 index := by
    rw [toString_chars]
    simp [Numeral.ofInt, Numeral.chars, Numeral.tail, Numeral.sign]
  simp only [activityName, String.toList_append, number, shownLabel]
  simp

theorem toDigits_inj {n m : Nat} : Nat.toDigits 10 n = Nat.toDigits 10 m ↔ n = m := by
  constructor
  · intro same
    rw [← ofDigits_toDigits n, same, ofDigits_toDigits]
  · rintro rfl
    rfl

theorem activityName_inj : activityName task label i = activityName task other j ↔
    i = j ∧ shownLabel label = shownLabel other := by
  rw [← String.toList_inj, activityName_chars, activityName_chars, List.append_cancel_left_eq,
    List.cons_inj_right, List.append_cancel_right_eq, ← toDigits_inj, ← String.toList_inj]
  constructor
  · intro same
    have reversed := congrArg (fields '-' ∘ List.reverse) same
    have absent (n : Nat) : '-' ∉ (Nat.toDigits 10 n).reverse := by
      simpa using dash_notMem_digits n
    simp only [Function.comp_apply, List.reverse_append, List.reverse_cons, List.append_assoc,
      List.singleton_append, fields_append (absent _), List.cons.injEq, List.reverse_inj] at reversed
    obtain ⟨digits, -⟩ := reversed
    rw [digits] at same
    exact ⟨digits, List.append_cancel_right same⟩
  · rintro ⟨digits, labels⟩
    rw [labels, digits]

end names

namespace Definition

theorem TaskDefinition.Becomes.named {definition : TaskDefinition} {read : Task}
    (becomes : definition.Becomes read) : read.activities.map Activity.name =
      definition.activities.zipIdx.map fun part =>
        activityName definition.name part.1.label part.2 := by
  have activities := becomes.activities
  generalize definition.activities.zipIdx = parts, read.activities = named at activities
  induction activities with
  | nil => rfl
  | cons first _ ih => rw [List.map_cons, List.map_cons, first.name, ih]

/-- Labels and indices can be told from names, and so can the activities of a task, even those that
are alike and have one label. -/
theorem activities_named_apart :
    (∀ (task : String) (label other : Option String) (i j : Nat),
      activityName task label i = activityName task other j ↔
        i = j ∧ shownLabel label = shownLabel other) ∧
    ∀ raw read, task raw = .ok read → (read.activities.map Activity.name).Nodup := by
  refine ⟨fun _ _ _ _ _ => activityName_inj, ?_⟩
  intro raw read normalized
  obtain ⟨definition, -, built⟩ := task_built.mp normalized
  have indices : (definition.activities.zipIdx.map Prod.snd).Nodup := by
    rw [List.zipIdx_map_snd]
    exact List.nodup_range'
  rw [(build_iff.mp built).named, List.Nodup, List.pairwise_map]
  refine (List.pairwise_map.mp indices).imp fun {part other} apart same => ?_
  exact apart (activityName_inj.mp same).1

def lampThrice : Value :=
  let lamp : List (Value × Value) :=
    [(.text "path", .text "switches.lamp"), (.text "duration", .float 5)]
  .map [(.text "name", .text "deck"), (.text "controlPath", .text "switches.deck"),
    (.text "activities", .list [.map ((.text "name", .text "lamp-1]") :: lamp),
      .map ((.text "name", .text "lamp-1]") :: lamp), .map lamp])]

theorem lampThrice_named :
    ∃ read, task lampThrice = .ok read ∧
      (∀ activity ∈ read.activities, ∀ other ∈ read.activities, activity.same other = true) ∧
      read.activities.map Activity.name =
        ["deck[lamp-1]-0]", "deck[lamp-1]-1]", "deck[activity-2]"] ∧
      (read.activities.map Activity.name).Nodup := by
  have names : (task lampThrice).toOption.map (fun read => read.activities.map Activity.name) =
      some ["deck[lamp-1]-0]", "deck[lamp-1]-1]", "deck[activity-2]"] := by decide +kernel
  have alike : (task lampThrice).toOption.all (fun read => read.activities.all fun activity =>
      read.activities.all activity.same) = true := by decide +kernel
  cases normalized : task lampThrice with
  | error rejection => simp [normalized, Except.toOption] at names
  | ok read =>
      rw [normalized] at names alike
      refine ⟨read, rfl, ?_, Option.some.inj names, activities_named_apart.2 _ read normalized⟩
      intro activity among other amongToo
      exact List.all_eq_true.mp (List.all_eq_true.mp alike activity among) other amongToo

end Definition
end Cadence
