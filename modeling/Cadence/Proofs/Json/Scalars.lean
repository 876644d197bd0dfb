import Cadence.Proofs.Json.Grammar

namespace Cadence.Json
open Decimal Text

variable {text rest point mark : List Char} {digits : List Nat} {units : List Nat}
  {fraction : Option (List Nat)} {exponent : Option (Bool × List Nat)} {literal : Literal}
  {negative : Bool} {value : Value} {limit levels : Nat}

/-! ## Gaps -/

theorem gap_skipGaps (text : List Char) : Gap text (skipGaps text) := by
  induction text with
  | nil => exact .none []
  | cons c text ih =>
      by_cases blank : isGap c
      · rw [skipGaps, List.dropWhile_cons_of_pos blank]
        exact .more blank ih
      · rw [skipGaps, List.dropWhile_cons_of_neg blank]
        exact .none _

theorem Gap.skipped (gap : Gap text rest) (stops : ∀ c, rest.head? = some c → isGap c = false) :
    skipGaps text = rest := by
  induction gap with
  | none text =>
      cases text with
      | nil => rfl
      | cons c text => exact List.dropWhile_cons_of_neg (by simp [stops c rfl])
  | more blank _ ih => rw [skipGaps, List.dropWhile_cons_of_pos blank]; exact ih stops

theorem Gap.length (gap : Gap text rest) : rest.length ≤ text.length := by
  induction gap with
  | none => exact Nat.le_refl _
  | more _ _ ih => exact Nat.le_succ_of_le ih

theorem isGap_cases {c : Char} (blank : isGap c = true) :
    c = ' ' ∨ c = '\t' ∨ c = '\n' ∨ c = '\r' := by
  simpa [isGap, or_assoc] using blank

def Follows (text : List Char) : Prop :=
  ∀ c, text.head? = some c → isGap c = true ∨ c = ',' ∨ c = ']' ∨ c = '\x7d'

theorem Gap.follows (gap : Gap text rest) (follows : Follows rest) : Follows text := by
  cases gap with
  | none => exact follows
  | more blank =>
      intro c head
      obtain rfl := Option.some.inj head
      exact .inl blank

theorem follows_char {c : Char} (closes : c = ',' ∨ c = ']' ∨ c = '\x7d') (rest : List Char) :
    Follows (c :: rest) := by
  intro d head
  obtain rfl := Option.some.inj head
  exact .inr closes

/-! ## Digits -/

def NoDigit (text : List Char) : Prop := ∀ c, text.head? = some c → asciiDigit? c = none

theorem digits_taken (text : List Char) :
    Digits (takeDigits asciiDigit? text).1 text (takeDigits asciiDigit? text).2 := by
  induction text with
  | nil => exact .none []
  | cons c text ih =>
      cases digit : asciiDigit? c with
      | none =>
          simp only [takeDigits, digit]
          exact .none _
      | some d =>
          simp only [takeDigits, digit]
          exact .more digit ih

theorem Digits.takes (spelled : Digits digits text rest) (stops : NoDigit rest) :
    takeDigits asciiDigit? text = (digits, rest) := by
  induction spelled with
  | none text =>
      cases text with
      | nil => rfl
      | cons c text => simp [takeDigits, stops c rfl]
  | more digit _ ih => simp [takeDigits, digit, ih stops]

theorem noDigit_taken (text : List Char) : NoDigit (takeDigits asciiDigit? text).2 := by
  induction text with
  | nil => nofun
  | cons c text ih =>
      cases digit : asciiDigit? c with
      | none =>
          intro d head
          simp only [takeDigits, digit] at head
          obtain rfl := Option.some.inj head
          exact digit
      | some d => simpa only [takeDigits, digit] using ih

theorem Digits.begin (spelled : Digits digits text rest) (present : digits ≠ []) :
    (takeDigits asciiDigit? text).1 ≠ [] := by
  cases spelled with
  | none => exact absurd rfl present
  | more digit => simp [takeDigits, digit]

theorem NoDigit.alone (stops : NoDigit text) (spelled : Digits digits text rest) :
    digits = [] ∧ rest = text := by
  cases spelled with
  | none => exact ⟨rfl, rfl⟩
  | more digit =>
      have none := stops _ rfl
      rw [digit] at none
      cases none

/-! ## Numbers -/

theorem takeWhole_digits (nonzero : ∀ rest, text ≠ '0' :: rest) :
    takeWhole text = takeDigits asciiDigit? text := by
  unfold takeWhole
  split
  · next rest => exact absurd rfl (nonzero rest)
  · rfl

theorem whole_taken (present : (takeWhole text).1 ≠ []) :
    Whole (takeWhole text).1 text (takeWhole text).2 := by
  by_cases zero : ∃ rest, text = '0' :: rest
  · obtain ⟨rest, rfl⟩ := zero
    exact .zero rest
  · have nonzero : ∀ rest, text ≠ '0' :: rest := fun rest same => zero ⟨rest, same⟩
    rw [takeWhole_digits nonzero] at present ⊢
    have taken := digits_taken text
    generalize takeDigits asciiDigit? text = split at present taken ⊢
    obtain ⟨digits, rest⟩ := split
    cases taken with
    | none => exact absurd rfl present
    | more digit later => exact .digits (fun same => nonzero _ (by rw [same])) digit later

theorem Whole.takes (spelled : Whole digits text rest) (stops : NoDigit rest) :
    takeWhole text = (digits, rest) := by
  cases spelled with
  | zero => rfl
  | digits present digit later =>
      rw [takeWhole_digits (fun rest same => present (List.cons.inj same).1)]
      exact (Digits.more digit later).takes stops

theorem Whole.digit (spelled : Whole digits text rest) :
    ∃ c d more, text = c :: more ∧ asciiDigit? c = some d := by
  cases spelled with
  | zero => exact ⟨'0', 0, rest, rfl, by decide⟩
  | digits _ digit => exact ⟨_, _, _, rfl, digit⟩

theorem Whole.present (spelled : Whole digits text rest) : digits ≠ [] := by
  cases spelled <;> simp

theorem fraction_taken (text : List Char) : Fraction (takePoint text).1 text (takePoint text).2 := by
  unfold takePoint
  split
  · next rest =>
      dsimp only
      split
      · exact .none _
      · next present => exact .digits (by simpa using present) (digits_taken rest)
  · exact .none _

structure NoPoint (text : List Char) : Prop where
  digit : NoDigit text
  point : ∀ rest, text ≠ '.' :: rest

theorem Fraction.takes (spelled : Fraction fraction text rest) (stops : NoPoint rest) :
    takePoint text = (fraction, rest) := by
  cases spelled with
  | none =>
      unfold takePoint
      split
      · next rest => exact absurd rfl (stops.point rest)
      · rfl
  | digits present spelled => simp [takePoint, spelled.takes stops.digit, present]

theorem Fraction.noDigit (spelled : Fraction fraction text rest) (stops : NoPoint rest) :
    NoDigit text := by
  cases spelled with
  | none => exact stops.digit
  | digits =>
      intro c head
      obtain rfl := Option.some.inj head
      decide

theorem sign_taken (text : List Char) : Sign (takeSign text).1 text (takeSign text).2 := by
  unfold takeSign
  split
  · exact .minus _
  · exact .plus _
  · exact .none _

theorem Sign.takes (sign : Sign negative text rest) (present : digits ≠ [])
    (spelled : Digits digits rest point) : takeSign text = (negative, rest) := by
  cases sign with
  | plus | minus => rfl
  | none =>
      cases spelled with
      | none => exact absurd rfl present
      | more digit =>
          unfold takeSign
          split
          · next same =>
              obtain ⟨rfl, -⟩ := List.cons.inj same
              cases digit
          · next same =>
              obtain ⟨rfl, -⟩ := List.cons.inj same
              cases digit
          · rfl

theorem exponent_taken (text : List Char) :
    Exponent (takeExponent text).1 text (takeExponent text).2 := by
  cases text with
  | nil => exact .none _
  | cons c text =>
      simp only [takeExponent]
      split
      · next mark =>
          split
          · exact .none _
          · next present =>
              exact .digits (by simpa using mark) (sign_taken text) (by simpa using present)
                (digits_taken _)
      · exact .none _

theorem Follows.noDigit (follows : Follows text) : NoDigit text := by
  intro c head
  rcases follows c head with blank | rfl | rfl | rfl
  · rcases isGap_cases blank with rfl | rfl | rfl | rfl <;> decide
  all_goals decide

theorem Follows.noMark (follows : Follows text) :
    ∀ c, text.head? = some c → c ≠ 'e' ∧ c ≠ 'E' ∧ c ≠ '.' := by
  intro c head
  rcases follows c head with blank | rfl | rfl | rfl
  · rcases isGap_cases blank with rfl | rfl | rfl | rfl <;> decide
  all_goals decide

theorem Exponent.takes (spelled : Exponent exponent text rest) (follows : Follows rest) :
    takeExponent text = (exponent, rest) := by
  cases spelled with
  | none =>
      cases text with
      | nil => rfl
      | cons c text =>
          obtain ⟨small, capital, -⟩ := follows.noMark c rfl
          simp [takeExponent, small, capital]
  | digits mark sign present spelled =>
      simp [takeExponent, mark, sign.takes present spelled, spelled.takes follows.noDigit, present]

theorem Exponent.noPoint (spelled : Exponent exponent text rest) (follows : Follows rest) :
    NoPoint text := by
  cases spelled with
  | none => exact ⟨follows.noDigit, fun rest same => (follows.noMark '.' (by rw [same]; rfl)).2.2 rfl⟩
  | digits mark =>
      refine ⟨?_, ?_⟩
      · intro c head
        obtain rfl := Option.some.inj head
        rcases mark with rfl | rfl <;> decide
      · rintro rest same
        obtain ⟨rfl, -⟩ := List.cons.inj same
        rcases mark with mark | mark <;> cases mark

theorem alone_taken (text : List Char) (noDigit : NoDigit text) (noPoint : (takePoint text).1 = none)
    (noMark : (takeExponent text).1 = none) : Alone text where
  digits _ _ spelled := (noDigit.alone spelled).1
  fraction fraction rest spelled := by
    cases spelled with
    | none => rfl
    | digits present spelled => simp [takePoint, spelled.begin present] at noPoint
  exponent exponent rest spelled := by
    cases spelled with
    | none => rfl
    | digits mark sign present spelled =>
        simp [takeExponent, mark, sign.takes present spelled, spelled.begin present] at noMark

theorem Alone.noDigit (alone : Alone text) : NoDigit text := by
  intro c head
  cases digit : asciiDigit? c with
  | none => rfl
  | some d =>
      cases text with
      | nil => cases head
      | cons own text =>
          obtain rfl := Option.some.inj head
          exact absurd (alone.digits _ _ (.more digit (.none text))) (List.cons_ne_nil _ _)

theorem Alone.noPoint (alone : Alone text) : takePoint text = (none, text) := by
  have taken := fraction_taken text
  generalize takePoint text = split at taken ⊢
  obtain ⟨fraction, rest⟩ := split
  obtain rfl := alone.fraction _ _ taken
  cases taken
  rfl

theorem Alone.noMark (alone : Alone text) : takeExponent text = (none, text) := by
  have taken := exponent_taken text
  generalize takeExponent text = split at taken ⊢
  obtain ⟨exponent, rest⟩ := split
  obtain rfl := alone.exponent _ _ taken
  cases taken
  rfl

/-! ## What readers find -/

def Finds {α : Type} (good : α → List Char → Prop) (bad : Prop) :
    Except ReadError (α × List Char) → Prop
  | .ok (x, rest) => good x rest
  | .error (.beyond _) => bad
  | .error .malformed => True

structure Yields {α : Type} (kept : Prop) (result expected : Except ReadError α) : Prop where
  within : kept → result = expected
  otherwise : result = expected ∨ ∃ excess, result = .error (.beyond excess)

section results
variable {α β : Type} {good : α → List Char → Prop} {made : β → List Char → Prop}
  {bad worse kept more : Prop} {read : Except ReadError (α × List Char)} {result : Except ReadError α}
  {expected : Except ReadError β} {x : α} {excess : Excess}

@[simp] theorem finds_ok : Finds good bad (.ok (x, rest)) ↔ good x rest := .rfl

@[simp] theorem finds_beyond : Finds good bad (.error (.beyond excess)) ↔ bad := .rfl

@[simp] theorem finds_malformed : Finds good bad (.error .malformed) := trivial

theorem Finds.bind {f : α × List Char → Except ReadError (β × List Char)} (found : Finds good bad read)
    (makes : ∀ x rest, good x rest → Finds made worse (f (x, rest))) (worsens : bad → worse) :
    Finds made worse (read >>= f) := by
  match read, found with
  | .ok (x, rest), found => exact makes x rest found
  | .error (.beyond _), found => exact worsens found
  | .error .malformed, _ => trivial

theorem Finds.map {f : α → β} (found : Finds good bad read)
    (makes : ∀ x rest, good x rest → made (f x) rest) (worsens : bad → worse) :
    Finds made worse (read.map fun found => (f found.1, found.2)) := by
  match read, found with
  | .ok (x, rest), found => exact makes x rest found
  | .error (.beyond _), found => exact worsens found
  | .error .malformed, _ => trivial

theorem Finds.imp {better : α → List Char → Prop} (found : Finds good bad read)
    (makes : ∀ x rest, good x rest → better x rest) (worsens : bad → worse) :
    Finds better worse read := by
  match read, found with
  | .ok (x, rest), found => exact makes x rest found
  | .error (.beyond _), found => exact worsens found
  | .error .malformed, _ => trivial

theorem Yields.of_eq {expected : Except ReadError α} (same : result = expected) :
    Yields kept result expected := ⟨fun _ => same, .inl same⟩

theorem Yields.of_beyond {expected : Except ReadError α} (passed : ¬kept) :
    Yields kept (.error (.beyond excess)) expected :=
  ⟨fun within => absurd within passed, .inr ⟨excess, rfl⟩⟩

theorem Yields.weaken {expected : Except ReadError α} (yields : Yields more result expected)
    (keeps : kept → more) : Yields kept result expected :=
  ⟨fun within => yields.within (keeps within), yields.otherwise⟩

theorem Yields.trans {between final : Except ReadError α} (yields : Yields kept result between)
    (later : Yields kept between final) : Yields kept result final := by
  refine ⟨fun within => (yields.within within).trans (later.within within), ?_⟩
  rcases yields.otherwise with rfl | beyond
  · exact later.otherwise
  · exact .inr beyond

theorem Yields.bind {f : α → Except ReadError β} (yields : Yields kept result (.ok x))
    (later : Yields kept (f x) expected) : Yields kept (result >>= f) expected := by
  refine ⟨fun within => ?_, ?_⟩
  · rw [yields.within within]
    exact later.within within
  · rcases yields.otherwise with same | ⟨excess, beyond⟩
    · rw [same]
      exact later.otherwise
    · exact .inr ⟨excess, by rw [beyond]; rfl⟩

theorem Yields.map {f : α → β} (yields : Yields kept result (.ok x)) :
    Yields kept (result.map f) (.ok (f x)) := by
  have mapped : result.map f = result >>= fun x => .ok (f x) := by cases result <;> rfl
  rw [mapped]
  exact yields.bind (.of_eq rfl)

end results

/-! ## Numbers in texts -/

theorem readScalar_digit [Host] {c : Char} {d : Nat} (digit : asciiDigit? c = some d) :
    readScalar (c :: text) = readNumber false (c :: text) := by
  unfold readScalar
  split
  case h_9 => rfl
  all_goals
    next same =>
      obtain ⟨rfl, -⟩ := List.cons.inj same
      cases digit

theorem readScalar_minus [Host] {c : Char} {d : Nat} (digit : asciiDigit? c = some d) :
    readScalar ('-' :: c :: text) = readNumber true (c :: text) := by
  by_cases infinite : c = 'I'
  · obtain rfl := infinite
    cases digit
  · simp [readScalar, infinite]

theorem Minus.takes [Host] (minus : Minus negative text rest) (whole : Whole digits rest point) :
    readScalar text = readNumber negative rest := by
  obtain ⟨c, d, more, rfl, digit⟩ := whole.digit
  cases minus with
  | none => exact readScalar_digit digit
  | minus => exact readScalar_minus digit

theorem Numeral.takes [Host] (numeral : Numeral literal text rest) (follows : Follows rest) :
    ∃ unsigned point mark, readScalar text = readNumber literal.negative unsigned ∧
      takeWhole unsigned = (literal.whole, point) ∧ takePoint point = (literal.fraction, mark) ∧
      takeExponent mark = (literal.exponent, rest) ∧ literal.whole ≠ [] := by
  obtain ⟨minus, before, behind, scale⟩ := numeral
  have noPoint := scale.noPoint follows
  exact ⟨_, _, _, minus.takes before, before.takes (behind.noDigit noPoint), behind.takes noPoint,
    scale.takes follows, before.present⟩

theorem Numeral.float [Host] (numeral : Numeral literal text rest) (follows : Follows rest)
    (parted : literal.isWhole = false) : readScalar text = .ok (.float literal.toFloat, rest) := by
  obtain ⟨unsigned, point, mark, reads, before, behind, scale, present⟩ := numeral.takes follows
  simp [reads, readNumber, before, behind, scale, present, parted]

theorem Numeral.whole [Host] (numeral : Numeral ⟨negative, digits, none, none⟩ text rest)
    (follows : Follows rest) : Yields (digits.length ≤ wholeLimit) (readScalar text)
      (.ok (.whole (if negative then -(ofDigits digits : Int) else ofDigits digits), rest)) := by
  obtain ⟨unsigned, point, mark, reads, before, behind, scale, present⟩ := numeral.takes follows
  have present : digits ≠ [] := present
  have isWhole : Literal.isWhole ⟨negative, digits, none, none⟩ = true := rfl
  simp only [reads, readNumber, before, behind, scale, isWhole, wholeOfDigits]
  by_cases long : wholeLimit < digits.length
  · simpa [present, long] using Yields.of_beyond (Nat.not_le.mpr long)
  · exact .of_eq (by simp [present, long])

theorem noDigit_whole (long : 1 < (takeWhole text).1.length) : NoDigit (takeWhole text).2 := by
  by_cases zero : ∃ rest, text = '0' :: rest
  · obtain ⟨rest, rfl⟩ := zero
    exact absurd long (Nat.lt_irrefl 1)
  · rw [takeWhole_digits fun rest same => zero ⟨rest, same⟩]
    exact noDigit_taken text

theorem Fraction.absent (spelled : Fraction fraction text rest) (absent : fraction = .none) :
    rest = text := by
  cases spelled with
  | none => rfl
  | digits => cases absent

theorem readNumber_finds [Host] (minus : Minus negative text rest) :
    Finds (fun value => Scalar wholeLimit value text) (Overruns wholeLimit levels .value text)
      (readNumber negative rest) := by
  simp only [readNumber]
  split
  · trivial
  · next present =>
      let point := (takeWhole rest).2
      let mark := (takePoint point).2
      have before : Whole (takeWhole rest).1 rest point := whole_taken (by simpa using present)
      have numeral := Numeral.parts minus before (fraction_taken point) (exponent_taken mark)
      split
      · next isWhole =>
          obtain ⟨noFraction, noExponent⟩ : (takePoint point).1 = none ∧ (takeExponent mark).1 = none := by
            simpa [Literal.isWhole] using isWhole
          have same : mark = point := (fraction_taken point).absent noFraction
          rw [noFraction, noExponent] at numeral
          by_cases long : wholeLimit < (takeWhole rest).1.length
          · have separate : NoDigit point := noDigit_whole (Nat.lt_trans (by decide) long)
            rw [same] at noExponent
            have alone := alone_taken point separate noFraction noExponent
            simpa only [wholeOfDigits, long, if_true, finds_beyond] using Overruns.digits minus before alone long
          · simpa only [wholeOfDigits, long, if_false, finds_ok] using Scalar.whole numeral (Nat.not_lt.mp long)
      · next parted => exact .float numeral (by simpa using parted)

/-! ## Texts -/

theorem nextUnit_eq_some {first : Option Nat}
    (read : (do
      let unit ← first
      let read ← readUnits text
      pure (unit :: read.1, read.2)) = some (units, rest)) :
    ∃ unit more, first = some unit ∧ readUnits text = some (more, rest) ∧ units = unit :: more := by
  obtain ⟨unit, stands, read⟩ := Option.bind_eq_some_iff.mp read
  obtain ⟨⟨more, behind⟩, later, made⟩ := Option.bind_eq_some_iff.mp read
  obtain ⟨rfl, rfl⟩ := Prod.mk.inj (Option.some.inj made)
  exact ⟨unit, more, stands, later, rfl⟩

theorem readUnits_eq_some : readUnits text = some (units, rest) ↔ Quoted units text rest := by
  constructor
  · intro read
    fun_induction readUnits text generalizing units rest with
    | case1 => cases read
    | case2 =>
        obtain ⟨rfl, rfl⟩ := Prod.mk.inj (Option.some.inj read)
        exact .close _
    | case3 a b c d text ih =>
        obtain ⟨unit, more, stands, later, rfl⟩ := nextUnit_eq_some read
        exact .code stands (ih later)
    | case4 c text _ ih =>
        obtain ⟨unit, more, stands, later, rfl⟩ := nextUnit_eq_some read
        exact .escape stands (ih later)
    | case5 => cases read
    | case6 c text noQuote _ _ kept ih =>
        obtain ⟨⟨more, behind⟩, later, made⟩ := Option.map_eq_some_iff.mp read
        obtain ⟨rfl, rfl⟩ := Prod.mk.inj made
        simp only [Bool.or_eq_true, decide_eq_true_eq, not_or, Nat.not_lt] at kept
        exact .plain noQuote kept.1 kept.2 (ih later)
  · intro quoted
    induction quoted with
    | close => rfl
    | plain _ noEscape printed _ ih =>
        have printed := Nat.not_lt.mpr printed
        simp [readUnits, noEscape, printed, ih]
    | @escape c _ _ _ _ stands _ ih =>
        have noCode : c ≠ 'u' := by
          rintro rfl
          cases stands
        simp [readUnits, noCode, stands, ih]
    | code stands _ ih => simp [readUnits, stands, ih]

theorem readText_finds [Host] (text : List Char) (bad : Prop) :
    Finds (fun name rest => ∃ units, Quoted units text rest ∧ name = String.ofList (joinUnits units))
      bad (readText text) := by
  unfold readText
  split
  · next units rest read => exact ⟨units, readUnits_eq_some.mp read, rfl⟩
  · trivial

theorem Quoted.reads [Host] (quoted : Quoted units text rest) :
    readText text = .ok (String.ofList (joinUnits units), rest) := by
  rw [readText, readUnits_eq_some.mpr quoted]

/-! ## Scalars -/

theorem readScalar_finds [Host] (text : List Char) :
    Finds (fun value => Scalar wholeLimit value text) (Overruns wholeLimit levels .value text)
      (readScalar text) := by
  have scalar (word : List Char) {value : Value} {rest : List Char} (known : (word, value) ∈ words) :
      Scalar wholeLimit value (word ++ rest) rest := .word known rest
  unfold readScalar
  split
  · next rest =>
      refine (readText_finds rest False).map ?_ False.elim
      rintro name behind ⟨units, quoted, rfl⟩
      exact .text quoted
  · exact scalar ['n', 'u', 'l', 'l'] (by simp [words])
  · exact scalar ['t', 'r', 'u', 'e'] (by simp [words])
  · exact scalar ['f', 'a', 'l', 's', 'e'] (by simp [words])
  · exact scalar ['N', 'a', 'N'] (by simp [words])
  · exact scalar ['I', 'n', 'f', 'i', 'n', 'i', 't', 'y'] (by simp [words])
  · exact scalar ['-', 'I', 'n', 'f', 'i', 'n', 'i', 't', 'y'] (by simp [words])
  · exact readNumber_finds (.minus _)
  · exact readNumber_finds (.none _)

theorem Scalar.reads [Host] (scalar : Scalar limit value text rest) (follows : Follows rest) :
    Yields (limit ≤ wholeLimit) (readScalar text) (.ok (value, rest)) := by
  cases scalar with
  | word known =>
      apply Yields.of_eq
      simp only [words, List.mem_cons, Prod.mk.injEq, List.not_mem_nil, or_false] at known
      rcases known with ⟨rfl, rfl⟩ | ⟨rfl, rfl⟩ | ⟨rfl, rfl⟩ | ⟨rfl, rfl⟩ | ⟨rfl, rfl⟩ | ⟨rfl, rfl⟩ <;>
        rfl
  | text quoted =>
      apply Yields.of_eq
      simp [readScalar, quoted.reads, Except.map]
  | whole numeral short =>
      exact (numeral.whole follows).weaken (Nat.le_trans short)
  | float numeral parted => exact .of_eq (numeral.float follows parted)

/-! ## Where scalars begin and end -/

theorem Digits.length (spelled : Digits digits text rest) :
    digits.length + rest.length = text.length := by
  induction spelled with
  | none => exact Nat.zero_add _
  | more _ _ ih => simp only [List.length_cons, ← ih]; omega

theorem Whole.length (spelled : Whole digits text rest) :
    digits.length + rest.length = text.length := by
  cases spelled with
  | zero => simp [Nat.add_comm]
  | digits _ digit later => exact (Digits.more digit later).length

theorem Fraction.length (spelled : Fraction fraction text rest) : rest.length ≤ text.length := by
  cases spelled with
  | none => exact Nat.le_refl _
  | digits _ spelled => simp only [List.length_cons, ← spelled.length]; omega

theorem Sign.length (sign : Sign negative text rest) : rest.length ≤ text.length := by
  cases sign <;> simp

theorem Exponent.length (spelled : Exponent exponent text rest) : rest.length ≤ text.length := by
  cases spelled with
  | none => exact Nat.le_refl _
  | digits _ sign _ spelled =>
      have unsigned := sign.length
      have ends := spelled.length
      simp only [List.length_cons]
      omega

theorem Minus.length (minus : Minus negative text rest) : rest.length ≤ text.length := by
  cases minus <;> simp

theorem Numeral.length (numeral : Numeral literal text rest) : rest.length < text.length := by
  obtain ⟨minus, before, behind, scale⟩ := numeral
  have present := List.length_pos_iff.mpr before.present
  have whole := before.length
  calc rest.length ≤ _ := scale.length
    _ ≤ _ := behind.length
    _ < _ := by omega
    _ ≤ text.length := minus.length

theorem Quoted.length (quoted : Quoted units text rest) : rest.length < text.length := by
  induction quoted <;> simp only [List.length_cons] <;> omega

theorem Scalar.length [Host] (scalar : Scalar limit value text rest) :
    rest.length < text.length := by
  cases scalar with
  | word known =>
      have present : ∀ known ∈ words, known.1 ≠ [] := by simp [words]
      rw [List.length_append]
      exact Nat.lt_add_of_pos_left (List.length_pos_iff.mpr (present _ known))
  | text quoted => exact Nat.lt_succ_of_lt quoted.length
  | whole numeral => exact numeral.length
  | float numeral => exact numeral.length

def Begins (text : List Char) : Prop := ∃ c more, text = c :: more ∧ isGap c = false ∧ c ≠ ']'

theorem Begins.skipped (begins : Begins rest) (gap : Gap text rest) : skipGaps text = rest := by
  obtain ⟨c, more, rfl, solid, -⟩ := begins
  apply gap.skipped
  intro d head
  obtain rfl := Option.some.inj head
  exact solid

def Plain (text : List Char) : Prop :=
  Begins text ∧ ∀ more, text ≠ '[' :: more ∧ text ≠ '\x7b' :: more

theorem plain_cons {c : Char} (solid : isGap c = false)
    (apart : c ≠ ']' ∧ c ≠ '[' ∧ c ≠ '\x7b') (more : List Char) : Plain (c :: more) :=
  ⟨⟨c, more, rfl, solid, apart.1⟩, fun _ => by simp [apart.2]⟩

theorem Minus.plain (minus : Minus negative text rest) (whole : Whole digits rest point) :
    Plain text := by
  cases minus with
  | minus => exact plain_cons (by decide) (by decide) _
  | none =>
      obtain ⟨c, d, more, rfl, digit⟩ := whole.digit
      refine plain_cons ?_ ⟨?_, ?_, ?_⟩ more
      · by_contra gap
        rcases isGap_cases (by simpa using gap) with rfl | rfl | rfl | rfl <;> cases digit
      all_goals
        rintro rfl
        cases digit

theorem Numeral.plain (numeral : Numeral literal text rest) : Plain text := by
  obtain ⟨minus, before, -, -⟩ := numeral
  exact minus.plain before

theorem Scalar.plain [Host] (scalar : Scalar limit value text rest) : Plain text := by
  cases scalar with
  | word known =>
      simp only [words, List.mem_cons, Prod.mk.injEq, List.not_mem_nil, or_false] at known
      rcases known with ⟨rfl, -⟩ | ⟨rfl, -⟩ | ⟨rfl, -⟩ | ⟨rfl, -⟩ | ⟨rfl, -⟩ | ⟨rfl, -⟩ <;>
        exact plain_cons (by decide) (by decide) _
  | text quoted => exact plain_cons (by decide) (by decide) _
  | whole numeral => exact numeral.plain
  | float numeral => exact numeral.plain

end Cadence.Json
