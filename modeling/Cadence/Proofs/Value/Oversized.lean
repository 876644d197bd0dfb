import Cadence.Value.Text
import Mathlib.Data.Nat.Digits.Lemmas

/-!
Values without a text: those with a whole number of too many digits in them, and those nested deeper
than the host writes.
-/

namespace Cadence
open Decimal

/-- A text cannot be written just if there is a cause, and it fails for one. -/
def FailsFor {α : Type} (result : Except Oversize α) (causes : Oversize → Prop) : Prop :=
  match result with
  | .ok _ => ∀ cause, ¬ causes cause
  | .error cause => causes cause

namespace FailsFor

variable {α β : Type} {result : Except Oversize α} {causes others : Oversize → Prop}

theorem congr (fails : FailsFor result causes) (same : ∀ cause, others cause ↔ causes cause) :
    FailsFor result others := by
  rwa [funext fun cause => propext (same cause)]

theorem map (fails : FailsFor result causes) (f : α → β) : FailsFor (result.map f) causes := by
  cases result with
  | ok written => exact fails
  | error cause => exact fails

theorem bind {next : α → Except Oversize β} (fails : FailsFor result causes)
    (fails' : ∀ written, FailsFor (next written) others) :
    FailsFor (result >>= next) (fun cause => causes cause ∨ others cause) := by
  cases result with
  | ok written => exact (fails' written).congr fun cause => or_iff_right (fails cause)
  | error cause => exact .inl fails

end FailsFor

namespace Value
open Text

/-- What is too much about a value of which so many levels of lists and maps are written. -/
inductive Exceeds : Nat → Value → Oversize → Prop
  | whole {levels : Nat} {n : Int} (beyond : 10 ^ wholeLimit ≤ n.natAbs) :
      Exceeds levels (.whole n) .write
  | items {item : Value} {items : List Value} : Exceeds 0 (.list (item :: items)) .nested
  | entries {entry : Value × Value} {entries : List (Value × Value)} :
      Exceeds 0 (.map (entry :: entries)) .nested
  | item {levels : Nat} {items : List Value} {item : Value} {cause : Oversize}
      (among : item ∈ items) (exceeds : Exceeds levels item cause) :
      Exceeds (levels + 1) (.list items) cause
  | key {levels : Nat} {entries : List (Value × Value)} {entry : Value × Value} {cause : Oversize}
      (among : entry ∈ entries) (exceeds : Exceeds levels entry.1 cause) :
      Exceeds (levels + 1) (.map entries) cause
  | content {levels : Nat} {entries : List (Value × Value)} {entry : Value × Value}
      {cause : Oversize} (among : entry ∈ entries) (exceeds : Exceeds levels entry.2 cause) :
      Exceeds (levels + 1) (.map entries) cause

variable {levels : Nat} {cause : Oversize}

theorem exceeds_whole {n : Int} :
    (Value.whole n).Exceeds levels cause ↔ cause = .write ∧ 10 ^ wholeLimit ≤ n.natAbs := by
  constructor
  · rintro ⟨beyond⟩
    exact ⟨rfl, beyond⟩
  · rintro ⟨rfl, beyond⟩
    exact .whole beyond

theorem not_exceeds_empty : ¬ (Value.list []).Exceeds 0 cause := nofun

theorem exceeds_closed {item : Value} {items : List Value} :
    (Value.list (item :: items)).Exceeds 0 cause ↔ cause = .nested := by
  constructor
  · rintro ⟨⟩
    rfl
  · rintro rfl
    exact .items

theorem exceeds_list {items : List Value} : (Value.list items).Exceeds (levels + 1) cause ↔
    ∃ item ∈ items, item.Exceeds levels cause := by
  constructor
  · intro large
    cases large with
    | item among exceeds => exact ⟨_, among, exceeds⟩
  · rintro ⟨item, among, exceeds⟩
    exact .item among exceeds

theorem exceeds_map {entries : List (Value × Value)} :
    (Value.map entries).Exceeds (levels + 1) cause ↔
      ∃ entry ∈ entries, entry.1.Exceeds levels cause ∨ entry.2.Exceeds levels cause := by
  constructor
  · intro large
    cases large with
    | key among exceeds => exact ⟨_, among, .inl exceeds⟩
    | content among exceeds => exact ⟨_, among, .inr exceeds⟩
  · rintro ⟨entry, among, exceeds | exceeds⟩
    · exact .key among exceeds
    · exact .content among exceeds

theorem writeWhole_fails (n : Int) :
    FailsFor (writeWhole n) ((Value.whole n).Exceeds levels) := by
  have within : (Nat.toDigits 10 n.natAbs).length ≤ wholeLimit ↔ n.natAbs < 10 ^ wholeLimit :=
    Nat.length_toDigits_le_iff (by decide) (by decide)
  unfold writeWhole
  split
  · next long => exact .whole (by rwa [← Nat.not_lt, ← within, Nat.not_le])
  · next short =>
      intro cause exceeds
      exact absurd (exceeds_whole.mp exceeds).2 (by rwa [Nat.not_le, ← within, ← Nat.not_lt])

mutual

theorem quotedWithin_fails [Host] (levels : Nat) (value : Value) :
    FailsFor (quotedWithin levels value) (value.Exceeds levels) :=
  match value with
  | .null => nofun
  | .bool _ => nofun
  | .whole n => writeWhole_fails n
  | .float _ => nofun
  | .text _ => nofun
  | .bytes _ => nofun
  | .list items => (quotedItems_fails levels items).map _
  | .map entries => (quotedEntries_fails levels entries).map _
  | .object _ => nofun

theorem quotedItems_fails [Host] (levels : Nat) (items : List Value) :
    FailsFor (quotedItems levels items) ((Value.list items).Exceeds levels) :=
  match levels, items with
  | 0, [] => nofun
  | _ + 1, [] => fun _ exceeds => by simp [exceeds_list] at exceeds
  | 0, _ :: _ => .items
  | levels + 1, item :: rest =>
      ((quotedWithin_fails levels item).bind fun _ =>
        (quotedItems_fails (levels + 1) rest).map _).congr fun _ => by simp [exceeds_list]

theorem quotedEntries_fails [Host] (levels : Nat) (entries : List (Value × Value)) :
    FailsFor (quotedEntries levels entries) ((Value.map entries).Exceeds levels) :=
  match levels, entries with
  | 0, [] => nofun
  | _ + 1, [] => fun _ exceeds => by simp [exceeds_map] at exceeds
  | 0, _ :: _ => .entries
  | levels + 1, (key, content) :: rest =>
      ((quotedWithin_fails levels key).bind fun _ =>
        (quotedWithin_fails levels content).bind fun _ =>
          (quotedEntries_fails (levels + 1) rest).map _).congr fun _ => by
            simp [exceeds_map, or_assoc]

end

theorem not_exceeds_null : ¬ Value.null.Exceeds levels cause := nofun

theorem not_exceeds_text (s : String) : ¬ (Value.text s).Exceeds levels cause := nofun

theorem plainText_fails [Host] (value : Value) :
    FailsFor value.plainText (value.Exceeds Host.textLevels) := by
  cases value with
  | text s => exact fun _ => not_exceeds_text s
  | _ => exact quotedWithin_fails _ _

theorem finite_bounds {x : Float} {negative : Bool} {mantissa : Nat} {exponent : Int}
    (read : Reading.ofFloat x = .finite negative mantissa exponent) :
    mantissa < 2 ^ 53 ∧ exponent ≤ 971 := by
  simp only [Reading.ofFloat, Nat.pow_eq] at read
  have fraction : x.toBits.toNat % 2 ^ 52 < 2 ^ 52 := Nat.mod_lt _ (by simp)
  have field : x.toBits.toNat / 2 ^ 52 % 2 ^ 11 < 2 ^ 11 := Nat.mod_lt _ (by simp)
  split at read
  · split at read <;> cases read
  · split at read
    · obtain ⟨-, rfl, rfl⟩ := Reading.finite.inj read
      omega
    · obtain ⟨-, rfl, rfl⟩ := Reading.finite.inj read
      omega

theorem isWhole_lt {x : Float} {n : Int} (whole : (Reading.ofFloat x).isWhole n = true) :
    n.natAbs < 10 ^ wholeLimit := by
  cases read : Reading.ofFloat x with
  | notANumber => simp [read, Reading.isWhole] at whole
  | infinite negative => simp [read, Reading.isWhole] at whole
  | finite negative mantissa exponent =>
      obtain ⟨small, moderate⟩ := finite_bounds read
      rw [read] at whole
      simp only [Reading.isWhole, Bool.and_eq_true, Nat.pow_eq] at whole
      have size := whole.1
      have bound : ∃ k ≤ wholeLimit, n.natAbs < 2 ^ k := by
        split at size
        · refine ⟨53 + exponent.toNat, by simp [wholeLimit]; omega, ?_⟩
          rw [of_decide_eq_true size, Nat.pow_add]
          exact Nat.mul_lt_mul_of_pos_right small (Nat.two_pow_pos _)
        · refine ⟨53, by decide, ?_⟩
          calc n.natAbs ≤ n.natAbs * 2 ^ exponent.natAbs :=
                Nat.le_mul_of_pos_right _ (Nat.two_pow_pos _)
            _ = mantissa := of_decide_eq_true size
            _ < 2 ^ 53 := small
      obtain ⟨k, within, below⟩ := bound
      calc n.natAbs < 2 ^ k := below
        _ ≤ 10 ^ k := Nat.pow_le_pow_left (by decide) _
        _ ≤ 10 ^ wholeLimit := Nat.pow_le_pow_right (by decide) within

theorem same_exceeds {observed expected : Value} (exceeds : observed.Exceeds levels cause)
    (scalar : (∃ s, expected = .text s) ∨
      (∃ n, expected = .whole n ∧ (Nat.toDigits 10 n.natAbs).length ≤ wholeLimit) ∨
      ∃ x, expected = .float x) : observed.same expected = false := by
  rw [← Bool.not_eq_true]
  intro equal
  cases exceeds with
  | @whole _ n beyond =>
      rcases scalar with ⟨s, rfl⟩ | ⟨m, rfl, within⟩ | ⟨x, rfl⟩
      · simp [same, whole?] at equal
      · simp only [same, whole?, Option.any_some, Option.some.injEq, decide_eq_true_eq] at equal
        rw [Nat.length_toDigits_le_iff (by decide) (by decide), equal] at within
        exact absurd within (Nat.not_lt.mpr beyond)
      · exact absurd (isWhole_lt equal) (Nat.not_lt.mpr beyond)
  | _ => rcases scalar with ⟨s, rfl⟩ | ⟨m, rfl, -⟩ | ⟨x, rfl⟩ <;> simp [same, whole?] at equal

end Value
end Cadence
