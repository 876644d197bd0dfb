namespace Cadence.Decimal

/-- The exponents below `positionalBelow` are written in positions, from -4 on. A style that keeps
the point writes at least one digit after it. -/
structure Style where
  positionalBelow : Int
  keepsPoint : Bool

def Style.value : Style := ⟨16, true⟩

def Style.table : Style := ⟨6, false⟩

def dropZeros : Nat → Nat → Int → Nat × Int
  | 0, digits, exponent => (digits, exponent)
  | fuel + 1, digits, exponent =>
      if digits ≠ 0 && digits % 10 = 0 then dropZeros fuel (digits / 10) (exponent + 1)
      else (digits, exponent)

def exponentText (exponent : Int) : List Char :=
  let digits := Nat.toDigits 10 exponent.natAbs
  'e' :: (if exponent < 0 then '-' else '+') :: List.replicate (2 - digits.length) '0' ++ digits

def Style.fraction (style : Style) (digits : List Char) : List Char :=
  if digits.isEmpty then (if style.keepsPoint then ['.', '0'] else []) else '.' :: digits

def Style.write (style : Style) (digits : Nat) (exponent : Int) : List Char :=
  let chars := Nat.toDigits 10 digits
  let lead := exponent + chars.length - 1
  if digits = 0 then '0' :: style.fraction []
  else if -4 ≤ lead && lead < style.positionalBelow then
    if 0 ≤ exponent then chars ++ List.replicate exponent.toNat '0' ++ style.fraction []
    else if 0 ≤ lead then
      chars.take (lead.toNat + 1) ++ style.fraction (chars.drop (lead.toNat + 1))
    else '0' :: '.' :: List.replicate (lead.natAbs - 1) '0' ++ chars
  else
    let tail := chars.drop 1
    chars.take 1 ++ (if tail.isEmpty then [] else '.' :: tail) ++ exponentText lead

end Cadence.Decimal
