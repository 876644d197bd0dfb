import Cadence.Decimal.Shortest
import Cadence.Proofs.Text.Digits
import Cadence.Value.Text

namespace Cadence.Decimal
open Text

structure Numeral where
  negative : Bool
  whole : List Char
  fraction : Option (List Char)
  exponent : Option (Bool × List Char)

namespace Numeral

def sign (negative : Bool) : List Char := if negative then ['-'] else []

def tail (exponent : Option (Bool × List Char)) : List Char :=
  exponent.elim [] fun part => 'e' :: (if part.1 then '-' else '+') :: part.2

def chars (n : Numeral) : List Char :=
  sign n.negative ++ (n.whole ++ (n.fraction.elim [] ('.' :: ·) ++ tail n.exponent))

def literal (n : Numeral) : Literal where
  negative := n.negative
  whole := n.whole.map value
  fraction := n.fraction.map (List.map value)
  exponent := n.exponent.map fun part => (part.1, part.2.map value)

structure Proper (n : Numeral) : Prop where
  whole : ∀ c ∈ n.whole, c.isDigit = true
  present : n.whole ≠ []
  fraction : ∀ digits, n.fraction = some digits → ∀ c ∈ digits, c.isDigit = true
  exponent : ∀ part, n.exponent = some part → part.2 ≠ [] ∧ ∀ c ∈ part.2, c.isDigit = true

variable {n : Numeral} {digits : List Char}

theorem not_digit_of_sign {c : Char} (sign : c = '-' ∨ c = '+' ∨ c = '.' ∨ c = 'e') :
    digit? c = none := by
  rcases sign with rfl | rfl | rfl | rfl <;> decide +kernel

theorem takeSign_digits (present : digits ≠ []) (all : ∀ c ∈ digits, c.isDigit = true)
    (rest : List Char) : takeSign (digits ++ rest) = (false, digits ++ rest) := by
  obtain ⟨c, more, rfl⟩ := List.exists_cons_of_ne_nil present
  have first := all c (by simp)
  rw [List.cons_append]
  unfold takeSign
  split
  · next same =>
      obtain ⟨rfl, -⟩ := List.cons.inj same
      cases first
  · next same =>
      obtain ⟨rfl, -⟩ := List.cons.inj same
      cases first
  · rfl

theorem takeSign_chars (proper : n.Proper) (rest : List Char) :
    takeSign (sign n.negative ++ (n.whole ++ rest)) = (n.negative, n.whole ++ rest) := by
  cases n.negative with
  | true => rfl
  | false => exact takeSign_digits proper.present proper.whole rest

theorem ends_tail (exponent : Option (Bool × List Char)) : Ends (tail exponent) := by
  intro c head
  cases exponent with
  | none => cases head
  | some part =>
      obtain rfl := Option.some.inj head
      exact not_digit_of_sign (by simp)

theorem ends_fraction (n : Numeral) : Ends (n.fraction.elim [] ('.' :: ·) ++ tail n.exponent) := by
  cases fraction : n.fraction with
  | none => exact ends_tail n.exponent
  | some digits =>
      intro c head
      obtain rfl := Option.some.inj head
      exact not_digit_of_sign (by simp)

theorem takeFraction_chars (proper : n.Proper) :
    takeFraction digit? (n.fraction.elim [] ('.' :: ·) ++ tail n.exponent) =
      (n.fraction.map (List.map value), tail n.exponent) := by
  cases fraction : n.fraction with
  | none =>
      cases n.exponent with
      | none => rfl
      | some part => rfl
  | some digits =>
      have taken := takeDigits_append (proper.fraction digits fraction) (ends_tail n.exponent)
      simp [takeFraction, taken]

theorem readExponent?_tail (proper : n.Proper) :
    readExponent? digit? (tail n.exponent) =
      some (n.exponent.map fun part => (part.1, part.2.map value)) := by
  cases exponent : n.exponent with
  | none => rfl
  | some part =>
      obtain ⟨negative, digits⟩ := part
      obtain ⟨present, all⟩ := proper.exponent _ exponent
      have nothing : Ends [] := nofun
      have taken : takeDigits digit? digits = (digits.map value, []) := by
        simpa using takeDigits_append all nothing
      have signed : takeSign ((if negative then '-' else '+') :: digits) = (negative, digits) := by
        cases negative <;> rfl
      simp [tail, readExponent?, signed, taken, present]

theorem read?_chars (proper : n.Proper) : Literal.read? digit? n.chars = some n.literal := by
  have signed := takeSign_chars proper (n.fraction.elim [] ('.' :: ·) ++ tail n.exponent)
  have whole := takeDigits_append proper.whole (ends_fraction n)
  simp only [Literal.read?, chars, signed, whole, takeFraction_chars proper,
    readExponent?_tail proper]
  simp [literal, proper.present]

theorem mem_chars (proper : n.Proper) {c : Char} (member : c ∈ n.chars) :
    c.isDigit = true ∨ c = '-' ∨ c = '+' ∨ c = '.' ∨ c = 'e' := by
  simp only [chars, List.mem_append] at member
  rcases member with signed | whole | fraction | exponent
  · cases negative : n.negative <;> simp_all [sign]
  · exact .inl (proper.whole c whole)
  · cases part : n.fraction with
    | none => simp [part] at fraction
    | some digits =>
        simp only [part, Option.elim_some, List.mem_cons] at fraction
        rcases fraction with rfl | among
        · simp
        · exact .inl (proper.fraction digits part c among)
  · cases part : n.exponent with
    | none => simp [part, tail] at exponent
    | some exponentPart =>
        obtain ⟨negative, digits⟩ := exponentPart
        simp only [part, tail, Option.elim_some, List.mem_cons] at exponent
        rcases exponent with rfl | sign | among
        · simp
        · cases negative <;> simp_all
        · exact .inl ((proper.exponent _ part).2 c among)

theorem chars_ne_nil (proper : n.Proper) : n.chars ≠ [] := by
  simp [chars, proper.present]

end Numeral

/-! ## Texts of numbers -/

theorem isDigit_replicate (count : Nat) : ∀ c ∈ List.replicate count '0', c.isDigit = true := by
  intro c member
  rw [(List.mem_replicate.mp member).2]
  rfl

theorem isDigit_append {digits more : List Char} (all : ∀ c ∈ digits, c.isDigit = true)
    (others : ∀ c ∈ more, c.isDigit = true) : ∀ c ∈ digits ++ more, c.isDigit = true := by
  intro c member
  rcases List.mem_append.mp member with here | there
  · exact all c here
  · exact others c there

def Broken (negative : Bool) (text : List Char) : Prop :=
  ∃ n : Numeral, n.Proper ∧ n.negative = negative ∧ (n.fraction.isSome ∨ n.exponent.isSome) ∧
    n.chars = text

theorem broken_fraction {whole digits : List Char} (wholeDigits : ∀ c ∈ whole, c.isDigit = true)
    (present : whole ≠ []) (all : ∀ c ∈ digits, c.isDigit = true) :
    Broken false (whole ++ Style.value.fraction digits) := by
  have spelled {fraction : List Char} (fractionDigits : ∀ c ∈ fraction, c.isDigit = true) :
      Broken false (whole ++ '.' :: fraction) := by
    refine ⟨⟨false, whole, some fraction, none⟩, ⟨wholeDigits, present, ?_, nofun⟩, rfl, .inl rfl, ?_⟩
    · rintro _ ⟨⟩
      exact fractionDigits
    · simp [Numeral.chars, Numeral.sign, Numeral.tail]
  have zero : ∀ c ∈ ['0'], c.isDigit = true := by simp
  cases digits with
  | nil => exact spelled zero
  | cons c rest => exact spelled all

theorem broken_exponent {whole digits : List Char} (wholeDigits : ∀ c ∈ whole, c.isDigit = true)
    (present : whole ≠ []) (all : ∀ c ∈ digits, c.isDigit = true) (exponent : Int) :
    Broken false (whole ++ (if digits.isEmpty then [] else '.' :: digits) ++ exponentText exponent) := by
  let fraction : Option (List Char) := if digits.isEmpty then none else some digits
  let power := List.replicate (2 - (Nat.toDigits 10 exponent.natAbs).length) '0' ++
    Nat.toDigits 10 exponent.natAbs
  have powerDigits : ∀ c ∈ power, c.isDigit = true :=
    isDigit_append (isDigit_replicate _) (isDigit_toDigits _)
  refine ⟨⟨false, whole, fraction, some (decide (exponent < 0), power)⟩, ⟨wholeDigits, present, ?_, ?_⟩,
    rfl, .inr rfl, ?_⟩
  · intro some isSome
    by_cases empty : digits.isEmpty = true
    · simp [fraction, empty] at isSome
    · simp only [fraction, empty] at isSome
      obtain rfl := Option.some.inj isSome
      exact all
  · rintro _ ⟨⟩
    exact ⟨by simp [power], powerDigits⟩
  · by_cases empty : digits.isEmpty = true
    · simp [Numeral.chars, Numeral.sign, Numeral.tail, fraction, empty, exponentText, power]
    · simp [Numeral.chars, Numeral.sign, Numeral.tail, fraction, empty, exponentText, power]

theorem write_broken (digits : Nat) (exponent : Int) :
    Broken false (Style.value.write digits exponent) := by
  have all := isDigit_toDigits digits
  have present : Nat.toDigits 10 digits ≠ [] := Nat.toDigits_ne_nil
  have taken (count : Nat) : ∀ c ∈ (Nat.toDigits 10 digits).take count, c.isDigit = true :=
    fun c member => all c (List.mem_of_mem_take member)
  have dropped (count : Nat) : ∀ c ∈ (Nat.toDigits 10 digits).drop count, c.isDigit = true :=
    fun c member => all c (List.mem_of_mem_drop member)
  have zero : ∀ c ∈ ['0'], c.isDigit = true := by simp
  have none : ∀ c ∈ ([] : List Char), c.isDigit = true := by simp
  unfold Style.write
  dsimp only
  split
  · exact broken_fraction zero (by simp) none
  · split
    · split
      · exact broken_fraction (isDigit_append all (isDigit_replicate _)) (by simp [present]) (by simp)
      · split
        · exact broken_fraction (taken _) (by simp [present]) (dropped _)
        · have behind := isDigit_append (isDigit_replicate
            ((exponent + (Nat.toDigits 10 digits).length - 1).natAbs - 1)) all
          have written := broken_fraction zero (by simp) behind
          simpa [Style.fraction, present] using written
    · have written := broken_exponent (taken 1) (by simp [present]) (dropped 1)
        (exponent + (Nat.toDigits 10 digits).length - 1)
      exact written

theorem Broken.negate {text : List Char} (broken : Broken false text) : Broken true ('-' :: text) := by
  obtain ⟨n, ⟨whole, present, fraction, exponent⟩, negative, part, rfl⟩ := broken
  refine ⟨{ n with negative := true }, ⟨whole, present, fraction, exponent⟩, rfl, part, ?_⟩
  simp [Numeral.chars, Numeral.sign, negative]

theorem shortestChars_cases (x : Float) :
    (∃ negative mantissa exponent, Reading.ofFloat x = .finite negative mantissa exponent ∧
      Broken negative (shortestChars x)) ∨
    (∀ negative mantissa exponent, Reading.ofFloat x ≠ .finite negative mantissa exponent) ∧
      (shortestChars x = ['n', 'a', 'n'] ∨ shortestChars x = ['i', 'n', 'f'] ∨
        shortestChars x = ['-', 'i', 'n', 'f']) := by
  unfold shortestChars
  cases read : Reading.ofFloat x with
  | notANumber => exact .inr ⟨nofun, .inl rfl⟩
  | infinite negative => cases negative <;> exact .inr ⟨nofun, by simp⟩
  | finite negative mantissa exponent =>
      left
      refine ⟨negative, mantissa, exponent, rfl, ?_⟩
      have written : Broken false (if mantissa = 0 then Style.value.write 0 0
          else Style.value.write (shortestDigits mantissa exponent).1
            (shortestDigits mantissa exponent).2) := by
        split <;> exact write_broken _ _
      cases negative with
      | false => exact written
      | true => exact written.negate

/-! ## Whole numbers -/

def Numeral.ofInt (n : Int) : Numeral := ⟨n < 0, Nat.toDigits 10 n.natAbs, none, none⟩

theorem Numeral.ofInt_proper (n : Int) : (Numeral.ofInt n).Proper :=
  ⟨isDigit_toDigits _, Nat.toDigits_ne_nil, nofun, nofun⟩

theorem toString_chars (n : Int) : (toString n).toList = (Numeral.ofInt n).chars := by
  rw [Int.toString_eq_repr, Int.repr_eq_if]
  by_cases negative : n < 0
  · have size : (-n).toNat = n.natAbs := by omega
    simp [negative, Int.not_le.mpr negative, Numeral.ofInt, Numeral.chars, Numeral.sign,
      Numeral.tail, size, Nat.repr_eq_ofList_toDigits]
  · have size : n.toNat = n.natAbs := by omega
    simp [negative, Int.not_lt.mp negative, Numeral.ofInt, Numeral.chars, Numeral.sign,
      Numeral.tail, size, Nat.repr_eq_ofList_toDigits]

theorem length_digits_le {negative : Bool} {digits : List Nat} {n : Int}
    (all : ∀ d ∈ digits, d < 10) (read : wholeOfDigits negative digits = .ok n) :
    (Nat.toDigits 10 n.natAbs).length ≤ wholeLimit := by
  unfold wholeOfDigits at read
  split at read
  · cases read
  · next within =>
      obtain rfl := Except.ok.inj read
      have size : (if negative = true then -(ofDigits digits : Int) else ofDigits digits).natAbs =
          ofDigits digits := by
        cases negative <;> simp
      have small : ofDigits digits < 10 ^ wholeLimit :=
        Nat.lt_of_lt_of_le (ofDigits_lt all) (Nat.pow_le_pow_right (by decide) (by omega))
      rw [size]
      exact (Nat.length_toDigits_le_iff (by decide) (by decide)).mpr small

theorem wholeOfDigits_ofInt {n : Int} (within : (Nat.toDigits 10 n.natAbs).length ≤ wholeLimit) :
    wholeOfDigits (Numeral.ofInt n).literal.negative (Numeral.ofInt n).literal.whole = .ok n := by
  have length : ¬ wholeLimit < ((Nat.toDigits 10 n.natAbs).map value).length := by simpa using within
  simp only [Numeral.ofInt, Numeral.literal, wholeOfDigits, if_neg length, ofDigits_toDigits]
  by_cases negative : n < 0
  · simp only [negative, decide_true, if_true, Except.ok.injEq]
    omega
  · simp only [negative, decide_false, Bool.false_eq_true, if_false, Except.ok.injEq]
    omega

end Cadence.Decimal
