import Cadence.Path.Control
import Cadence.Proofs.Decimal.Numerals

namespace Cadence.Value
open Decimal Text

def Finite : Value → Prop
  | .float x => ∃ negative mantissa exponent, Reading.ofFloat x = .finite negative mantissa exponent
  | _ => True

def ReadsBack : Value → Prop
  | .float x => ∀ literal, Literal.read? digit? (shortestChars x) = some literal →
      (literal.toFloat == x) = true
  | _ => True

end Cadence.Value

namespace Cadence.Path
open Decimal Text

variable {kind : Kind} {text : List Char} {value : Value} {n : Numeral}

def readValue : Kind → List Char → Except Oversize Value
  | .notification, text => .ok (verbatim text)
  | .switch, text => scalar text

structure Carries (kind : Kind) (text : List Char) (value : Value) : Prop where
  present : text ≠ []
  single : ':' ∉ text
  read : readValue kind text = .ok value

def Closes (text : List Char) : Prop := ∀ c, text.getLast? = some c → isBlank c = false

theorem isBlank_of_graphic {c : Char} (low : 0x20 < c.toNat) (high : c.toNat < 0x7f) :
    isBlank c = false := by
  simp only [isBlank, isSpace, Bool.or_eq_false_iff, Bool.and_eq_false_iff, decide_eq_false_iff_not]
  omega

/-! ## Numerals as values -/

theorem dropLineEnd_eq_self (absent : '\n' ∉ text) : dropLineEnd text = text := by
  induction text with
  | nil => rfl
  | cons c rest ih =>
      simp only [List.mem_cons, not_or] at absent
      unfold dropLineEnd
      split
      · next same => cases same
      · next same =>
          obtain ⟨rfl, -⟩ := List.cons.inj same
          exact absurd rfl absent.1
      · next same =>
          obtain ⟨rfl, rfl⟩ := List.cons.inj same
          rw [ih absent.2]

theorem graphic_of_mem_chars (proper : n.Proper) {c : Char} (member : c ∈ n.chars) :
    0x20 < c.toNat ∧ c.toNat < 0x7f ∧ c ≠ ':' := by
  rcases Numeral.mem_chars proper member with digit | rfl | rfl | rfl | rfl
  · obtain ⟨low, high⟩ := isDigit_bounds digit
    refine ⟨by omega, by omega, ?_⟩
    rintro rfl
    exact absurd high (by decide)
  all_goals decide

theorem scalar_chars (proper : n.Proper) :
    scalar n.chars =
      if n.literal.isWhole then (wholeOfDigits n.literal.negative n.literal.whole).map .whole
      else .ok (.float n.literal.toFloat) := by
  have plain : '\n' ∉ n.chars := fun member =>
    absurd (graphic_of_mem_chars proper member).1 (by decide)
  rw [scalar, dropLineEnd_eq_self plain, Numeral.read?_chars proper]

theorem carries_chars (proper : n.Proper) (read : scalar n.chars = .ok value) :
    Carries .switch n.chars value where
  present := Numeral.chars_ne_nil proper
  single member := (graphic_of_mem_chars proper member).2.2 rfl
  read := read

theorem closes_chars (proper : n.Proper) : Closes n.chars := by
  intro c last
  obtain ⟨low, high, -⟩ := graphic_of_mem_chars proper (List.mem_of_getLast? last)
  exact isBlank_of_graphic low high

/-! ## Values written and read again -/

theorem read?_digits {text : List Char} {literal : Literal}
    (read : Literal.read? digit? text = some literal) : ∀ d ∈ literal.whole, d < 10 := by
  simp only [Literal.read?] at read
  split at read
  · cases read
  · obtain ⟨exponent, -, rfl⟩ := Option.map_eq_some_iff.mp read
    exact takeDigits_lt

theorem scalar_cases (read : scalar text = .ok value) :
    value = .text (String.ofList text) ∨
      (∃ n, value = .whole n ∧ (Nat.toDigits 10 n.natAbs).length ≤ wholeLimit) ∨
      ∃ x, value = .float x := by
  unfold scalar at read
  split at read
  · exact .inl (Except.ok.inj read).symm
  · next literal found =>
      split at read
      · cases whole : wholeOfDigits literal.negative literal.whole with
        | error cause => simp [whole, Except.map] at read
        | ok n =>
            rw [whole] at read
            exact .inr (.inl ⟨n, (Except.ok.inj read).symm,
              length_digits_le (read?_digits found) whole⟩)
      · exact .inr (.inr ⟨_, (Except.ok.inj read).symm⟩)

theorem readValue_cases (read : readValue kind text = .ok value) : (∃ s, value = .text s) ∨
    (∃ n, value = .whole n ∧ (Nat.toDigits 10 n.natAbs).length ≤ wholeLimit) ∨
      ∃ x, value = .float x := by
  cases kind with
  | notification => exact .inl ⟨_, (Except.ok.inj read).symm⟩
  | switch => exact (scalar_cases read).imp_left fun word => ⟨_, word⟩

variable [Host]

structure Rewrites (kind : Kind) (text : List Char) (value : Value) (written : String)
    (again : Value) : Prop where
  plain : value.plainText = .ok written
  carries : Carries kind written.toList again
  closes : Closes text → Closes written.toList

theorem rewrites_text (carries : Carries kind text (.text (String.ofList text))) :
    Rewrites kind text (.text (String.ofList text)) (String.ofList text)
      (.text (String.ofList text)) where
  plain := rfl
  carries := by rwa [String.toList_ofList]
  closes := by
    intro closes
    rwa [String.toList_ofList]

theorem rewrites_whole (text : List Char) {m : Int} (within : (Nat.toDigits 10 m.natAbs).length ≤ wholeLimit) :
    Rewrites .switch text (.whole m) (toString m) (.whole m) where
  plain := by
    change writeWhole m = _
    rw [writeWhole, if_neg (by omega)]
  carries := by
    rw [toString_chars]
    refine carries_chars (Numeral.ofInt_proper m) ?_
    rw [scalar_chars (Numeral.ofInt_proper m), wholeOfDigits_ofInt within]
    rfl
  closes _ := by
    rw [toString_chars]
    exact closes_chars (Numeral.ofInt_proper m)

theorem readValue_plain (read : readValue kind text = .ok value) :
    ∃ written, value.plainText = .ok written := by
  rcases readValue_cases read with ⟨s, rfl⟩ | ⟨m, rfl, within⟩ | ⟨x, rfl⟩
  · exact ⟨s, rfl⟩
  · exact ⟨_, (rewrites_whole text within).plain⟩
  · exact ⟨_, rfl⟩

theorem rewrites_finite (text : List Char) {x : Float} {negative : Bool}
    (broken : Broken negative (shortestChars x)) :
    ∃ literal, Literal.read? digit? (shortestChars x) = some literal ∧
      Rewrites .switch text (.float x) (shortest x) (.float literal.toFloat) := by
  obtain ⟨n, proper, -, part, spelled⟩ := broken
  have split : n.literal.isWhole = false := by
    rcases part with fraction | exponent
    · simp [Numeral.literal, Literal.isWhole, Option.isSome_iff_ne_none.mp fraction]
    · simp [Numeral.literal, Literal.isWhole, exponent]
  have read : scalar n.chars = .ok (.float n.literal.toFloat) := by
    rw [scalar_chars proper, split]
    rfl
  have chars : (shortest x).toList = n.chars := by rw [shortest, String.toList_ofList, spelled]
  refine ⟨n.literal, by rw [← spelled, Numeral.read?_chars proper], rfl, ?_, ?_⟩
  · rw [chars]
    exact carries_chars proper read
  · intro _
    rw [chars]
    exact closes_chars proper

def words : List (List Char) := [['n', 'a', 'n'], ['i', 'n', 'f'], ['-', 'i', 'n', 'f']]

omit [Host] in
theorem carries_word {word : List Char} (member : word ∈ words) :
    Carries .switch word (.text (String.ofList word)) := by
  have shape : word ≠ [] ∧ ':' ∉ word ∧ Literal.read? digit? (dropLineEnd word) = none := by
    simp only [words, List.mem_cons, List.not_mem_nil, or_false] at member
    rcases member with rfl | rfl | rfl
    all_goals exact ⟨by simp, by simp, rfl⟩
  obtain ⟨present, single, unread⟩ := shape
  refine ⟨present, single, ?_⟩
  rw [readValue, scalar, unread]

omit [Host] in
theorem closes_word {word : List Char} (member : word ∈ words) : Closes word := by
  simp only [words, List.mem_cons, List.not_mem_nil, or_false] at member
  rcases member with rfl | rfl | rfl
  all_goals
    rintro c ⟨⟩
    exact isBlank_of_graphic (by decide) (by decide)

theorem rewrites_word {x : Float} (word : shortestChars x ∈ words) :
    Rewrites .switch text (.float x) (shortest x) (.text (shortest x)) where
  plain := rfl
  carries := by
    rw [shortest, String.toList_ofList]
    exact carries_word word
  closes _ := by
    rw [shortest, String.toList_ofList]
    exact closes_word word

structure Again (kind : Kind) (text : List Char) (value : Value) (written : String)
    (again : Value) : Prop extends Rewrites kind text value written again where
  same : again.same value = true ↔ value.Finite

theorem Carries.again (carries : Carries kind text value) (back : value.ReadsBack) :
    ∃ written again, Again kind text value written again := by
  cases kind with
  | notification =>
      obtain rfl := Except.ok.inj carries.read
      exact ⟨_, _, rewrites_text carries, by simp [verbatim, Value.same, Value.Finite]⟩
  | switch =>
      rcases scalar_cases carries.read with rfl | ⟨m, rfl, within⟩ | ⟨x, rfl⟩
      · exact ⟨_, _, rewrites_text carries, by simp [Value.same, Value.Finite]⟩
      · exact ⟨_, _, rewrites_whole text within, by simp [Value.same, Value.whole?, Value.Finite]⟩
      · rcases shortestChars_cases x with ⟨_, _, _, finite, broken⟩ | ⟨endless, word⟩
        · have isFinite : (Value.float x).Finite := ⟨_, _, _, finite⟩
          obtain ⟨literal, read, rewrites⟩ := rewrites_finite text broken
          exact ⟨_, _, rewrites, by simp [Value.same, back literal read, isFinite]⟩
        · have isEndless : ¬ (Value.float x).Finite := by
            rintro ⟨negative, mantissa, exponent, finite⟩
            exact endless _ _ _ finite
          refine ⟨_, _, rewrites_word ?_, by simp [Value.same, Value.whole?, isEndless]⟩
          simpa [words] using word

end Cadence.Path
