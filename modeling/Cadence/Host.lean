import Cadence.Value.Basic

/-!
What the scheduler leaves to the system that it runs on.
-/

namespace Cadence

/-- What systems differ in: how deep they read and write nested values, how they show an object, and
what they put in place of half a surrogate pair, which is no character. -/
class Host where
  textLevels : Nat
  jsonLevels : Nat
  objectText : List (String × Value) → String
  halfPair : Nat → Char

instance Host.usual : Host where
  textLevels := 987
  jsonLevels := 980
  objectText _ := "<object>"
  halfPair _ := Char.ofNat 0xfffd

end Cadence
