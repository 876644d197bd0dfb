import Cadence.Proofs.Path.Carried

namespace Cadence

namespace Text
variable {row rest : List Char}

theorem takeDigits_row (all : ∀ c ∈ row, (digit? c).isSome) :
    takeDigits digit? row = (row.filterMap digit?, []) ∧
      (row.filterMap digit?).length = row.length := by
  induction row with
  | nil => exact ⟨rfl, rfl⟩
  | cons c rest ih =>
      obtain ⟨d, digit⟩ := Option.isSome_iff_exists.mp (all c (by simp))
      obtain ⟨taken, length⟩ := ih fun other among => all other (by simp [among])
      simp [takeDigits, digit, taken, length]

theorem takeDigits_split (text : List Char) :
    ∃ row, text = row ++ (takeDigits digit? text).2 ∧ (∀ c ∈ row, (digit? c).isSome) ∧
      row.length = (takeDigits digit? text).1.length := by
  induction text with
  | nil => exact ⟨[], by simp [takeDigits]⟩
  | cons c rest ih =>
      cases digit : digit? c with
      | none => exact ⟨[], by simp [takeDigits, digit]⟩
      | some d =>
          obtain ⟨row, split, all, length⟩ := ih
          refine ⟨c :: row, ?_, ?_, ?_⟩
          · simpa [takeDigits, digit] using split
          · simpa [digit] using all
          · simp [takeDigits, digit, length]

end Text

namespace Decimal
open Text
variable {text sign row : List Char} {literal : Literal}

def signs : List (List Char) := [[], ['+'], ['-']]

theorem takeSign_split (text : List Char) : ∃ sign ∈ signs, text = sign ++ (takeSign text).2 := by
  unfold takeSign
  split
  · exact ⟨['-'], by simp [signs], rfl⟩
  · exact ⟨['+'], by simp [signs], rfl⟩
  · exact ⟨[], by simp [signs], rfl⟩

theorem takeSign_row (signed : sign ∈ signs) (present : row ≠ [])
    (all : ∀ c ∈ row, (digit? c).isSome) : (takeSign (sign ++ row)).2 = row := by
  obtain ⟨c, rest, rfl⟩ := List.exists_cons_of_ne_nil present
  have digit := all c (by simp)
  simp only [signs, List.mem_cons, List.not_mem_nil, or_false] at signed
  rcases signed with rfl | rfl | rfl
  · rw [List.nil_append]
    unfold takeSign
    split
    · next same =>
        obtain ⟨rfl, -⟩ := List.cons.inj same
        exact absurd digit (by decide +kernel)
    · next same =>
        obtain ⟨rfl, -⟩ := List.cons.inj same
        exact absurd digit (by decide +kernel)
    · rfl
  · rfl
  · rfl

theorem takeFraction_none (none : (takeFraction digit? text).1 = none) :
    (takeFraction digit? text).2 = text := by
  unfold takeFraction at none ⊢
  split at none
  · cases none
  · rfl

theorem readExponent?_none (read : readExponent? digit? text = some none) : text = [] := by
  cases text with
  | nil => rfl
  | cons c rest =>
      simp only [readExponent?, Option.ite_none_right_eq_some] at read
      obtain ⟨-, ended⟩ := read
      split at ended <;> simp at ended

theorem read?_whole (read : Literal.read? digit? text = some literal)
    (whole : literal.isWhole = true) :
    ∃ sign ∈ signs, ∃ row, text = sign ++ row ∧ (∀ c ∈ row, (digit? c).isSome) ∧
      row.length = literal.whole.length := by
  simp only [Literal.read?] at read
  split at read
  · cases read
  · obtain ⟨exponent, ends, rfl⟩ := Option.map_eq_some_iff.mp read
    simp only [Literal.isWhole, Bool.and_eq_true, Option.isNone_iff_eq_none] at whole
    obtain ⟨unbroken, rfl⟩ := whole
    obtain ⟨sign, signed, split⟩ := takeSign_split text
    obtain ⟨row, digits, all, length⟩ := takeDigits_split (takeSign text).2
    have nothing := readExponent?_none ends
    rw [takeFraction_none unbroken] at nothing
    refine ⟨sign, signed, row, ?_, all, length⟩
    rw [nothing, List.append_nil] at digits
    rw [← digits]
    exact split

theorem read?_row (signed : sign ∈ signs) (present : row ≠ []) (all : ∀ c ∈ row, (digit? c).isSome) :
    ∃ literal, Literal.read? digit? (sign ++ row) = some literal ∧ literal.isWhole = true ∧
      literal.whole.length = row.length := by
  obtain ⟨taken, length⟩ := takeDigits_row all
  have filled : row.filterMap digit? ≠ [] := by
    rwa [← List.length_pos_iff, length, List.length_pos_iff]
  refine ⟨⟨(takeSign (sign ++ row)).1, row.filterMap digit?, none, none⟩, ?_, rfl, length⟩
  simp [Literal.read?, takeSign_row signed present all, taken, takeFraction, readExponent?, filled]

end Decimal

namespace Path
open Decimal Text
variable {text row : List Char} {digits : Nat}

inductive Overlong : List Char → Nat → Prop
  | whole (sign row ending : List Char) (signed : sign ∈ signs)
      (all : ∀ c ∈ row, (digit? c).isSome) (beyond : wholeLimit < row.length)
      (ends : ending = [] ∨ ending = ['\n']) : Overlong (sign ++ row ++ ending) row.length

theorem dropLineEnd_split (text : List Char) :
    ∃ ending, (ending = [] ∨ ending = ['\n']) ∧ text = dropLineEnd text ++ ending := by
  induction text with
  | nil => exact ⟨[], .inl rfl, rfl⟩
  | cons c rest ih =>
      unfold dropLineEnd
      split
      · next same => cases same
      · next same => exact ⟨['\n'], .inr rfl, same⟩
      · next same =>
          obtain ⟨rfl, rfl⟩ := List.cons.inj same
          obtain ⟨ending, ends, split⟩ := ih
          exact ⟨ending, ends, congrArg (c :: ·) split⟩

theorem dropLineEnd_closed (absent : '\n' ∉ text) : dropLineEnd (text ++ ['\n']) = text := by
  induction text with
  | nil => rfl
  | cons c rest ih =>
      simp only [List.mem_cons, not_or] at absent
      rw [List.cons_append]
      unfold dropLineEnd
      split
      · next same => cases same
      · next same =>
          obtain ⟨rfl, -⟩ := List.cons.inj same
          exact absurd rfl absent.1
      · next same =>
          obtain ⟨rfl, rfl⟩ := List.cons.inj same
          rw [ih absent.2]

theorem Overlong.scalar (overlong : Overlong text digits) :
    Path.scalar text = .error (.read digits) := by
  obtain ⟨sign, row, ending, signed, all, beyond, ends⟩ := overlong
  have present : row ≠ [] := List.length_pos_iff.mp (Nat.lt_of_le_of_lt (Nat.zero_le _) beyond)
  -- Neither signs nor digits are line ends, so only the ending can be dropped.
  have unbroken : '\n' ∉ sign ++ row := by
    have noDigit : digit? '\n' = none := by decide +kernel
    have noSign : ∀ sign ∈ signs, '\n' ∉ sign := by decide
    intro member
    rcases List.mem_append.mp member with inSign | inRow
    · exact noSign sign signed inSign
    · simpa [noDigit] using all _ inRow
  have dropped : dropLineEnd (sign ++ row ++ ending) = sign ++ row := by
    rcases ends with rfl | rfl
    · rw [List.append_nil, dropLineEnd_eq_self unbroken]
    · exact dropLineEnd_closed unbroken
  obtain ⟨literal, read, whole, length⟩ := read?_row signed present all
  simp only [Path.scalar, dropped, read, whole, if_true, wholeOfDigits, length, beyond, Except.map]

theorem scalar_error {cause : Oversize} :
    scalar text = .error cause ↔ ∃ digits, Overlong text digits ∧ cause = .read digits := by
  constructor
  · intro fails
    unfold scalar at fails
    split at fails
    · cases fails
    · next literal read =>
        split at fails
        · next whole =>
            obtain ⟨sign, signed, row, split, all, length⟩ := read?_whole read whole
            obtain ⟨ending, ends, closed⟩ := dropLineEnd_split text
            rw [wholeOfDigits, ← length] at fails
            split at fails
            · next beyond =>
                cases fails
                rw [closed, split]
                exact ⟨_, .whole sign row ending signed all beyond ends, rfl⟩
            · cases fails
        · cases fails
  · rintro ⟨digits, overlong, rfl⟩
    exact overlong.scalar

end Path
end Cadence
