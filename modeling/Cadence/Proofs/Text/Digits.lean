import Cadence.Text.Digit
import Mathlib.Data.Nat.Digits.Lemmas

namespace Cadence.Text

def value (c : Char) : Nat := c.toNat - 0x30

theorem isDigit_bounds {c : Char} (digit : c.isDigit = true) : 0x30 ≤ c.toNat ∧ c.toNat < 0x3a := by
  simp only [Char.isDigit, Bool.and_eq_true, decide_eq_true_eq] at digit
  obtain ⟨low, high⟩ := digit
  have low' : 0x30 ≤ c.toNat := low
  have high' : c.toNat ≤ 0x39 := high
  omega

theorem digit?_isDigit {c : Char} (digit : c.isDigit = true) : digit? c = some (value c) := by
  obtain ⟨low, high⟩ := isDigit_bounds digit
  have within : (decide (0x30 ≤ c.toNat) && decide (c.toNat < 0x30 + 10)) = true := by
    simp only [Bool.and_eq_true, decide_eq_true_eq]
    omega
  rw [digit?, zeros, List.find?_cons, within]
  rfl

theorem digit?_lt {c : Char} {d : Nat} (digit : digit? c = some d) : d < 10 := by
  obtain ⟨first, found, rfl⟩ := Option.map_eq_some_iff.mp digit
  have within := List.find?_some found
  simp only [Bool.and_eq_true, decide_eq_true_eq] at within
  omega

def Ends (rest : List Char) : Prop := ∀ c, rest.head? = some c → digit? c = none

theorem takeDigits_append {digits rest : List Char} (all : ∀ c ∈ digits, c.isDigit = true)
    (ends : Ends rest) : takeDigits digit? (digits ++ rest) = (digits.map value, rest) := by
  induction digits with
  | nil =>
      cases rest with
      | nil => rfl
      | cons c rest => simp [takeDigits, ends c rfl]
  | cons c digits ih =>
      have first := digit?_isDigit (all c (by simp))
      have later := ih fun other among => all other (by simp [among])
      simp [takeDigits, first, later]

theorem takeDigits_lt {text : List Char} : ∀ d ∈ (takeDigits digit? text).1, d < 10 := by
  induction text with
  | nil => simp [takeDigits]
  | cons c rest ih =>
      cases first : digit? c with
      | none => simp [takeDigits, first]
      | some digit =>
          intro d among
          simp only [takeDigits, first, List.mem_cons] at among
          rcases among with rfl | later
          · exact digit?_lt first
          · exact ih d later

theorem foldl_digits_lt {digits : List Nat} (all : ∀ d ∈ digits, d < 10) (total : Nat) :
    digits.foldl (fun total d => 10 * total + d) total < (total + 1) * 10 ^ digits.length := by
  induction digits generalizing total with
  | nil => simp
  | cons d rest ih =>
      have small := all d (by simp)
      have later := ih (fun other among => all other (by simp [among])) (10 * total + d)
      calc _ < (10 * total + d + 1) * 10 ^ rest.length := later
        _ ≤ ((total + 1) * 10) * 10 ^ rest.length := Nat.mul_le_mul_right _ (by omega)
        _ = (total + 1) * 10 ^ (d :: rest).length := by
          rw [List.length_cons, Nat.pow_succ, Nat.mul_assoc, Nat.mul_comm 10]

theorem ofDigits_lt {digits : List Nat} (all : ∀ d ∈ digits, d < 10) :
    ofDigits digits < 10 ^ digits.length := by
  simpa [ofDigits] using foldl_digits_lt all 0

theorem ofDigits_toDigits (n : Nat) : ofDigits ((Nat.toDigits 10 n).map value) = n := by
  have read := Nat.ofDigitChars_ten_toDigits (n := n)
  rw [Nat.ofDigitChars_eq_foldl] at read
  simpa [ofDigits, List.foldl_map, value] using read

theorem isDigit_toDigits (n : Nat) : ∀ c ∈ Nat.toDigits 10 n, c.isDigit = true :=
  fun _ => Nat.isDigit_of_mem_toDigits (by decide) (by decide)

end Cadence.Text
