namespace Cadence

structure Instant where
  seconds : Float
deriving DecidableEq

namespace Instant

def start : Instant := ⟨0⟩

def after (t : Instant) (seconds : Float) : Instant := ⟨t.seconds + seconds⟩

/-- Doubles stand in the order of their bit patterns, the negative ones in reverse. -/
def rank (t : Instant) : Int :=
  let bits : Nat := t.seconds.toBits.toNat
  if bits < Nat.pow 2 63 then bits else (Nat.pow 2 63 : Nat) - (bits : Int)

instance : LE Instant := ⟨fun a b => a.rank ≤ b.rank⟩

instance : LT Instant := ⟨fun a b => a.rank < b.rank⟩

instance (a b : Instant) : Decidable (a ≤ b) := inferInstanceAs (Decidable (a.rank ≤ b.rank))

protected theorem le_refl (a : Instant) : a ≤ a := Int.le_refl _

protected theorem le_trans {a b c : Instant} : a ≤ b → b ≤ c → a ≤ c := Int.le_trans

protected theorem not_le {a b : Instant} : ¬a ≤ b ↔ b < a := Int.not_le

def isNumber (t : Instant) : Bool := t.rank.natAbs ≤ 0x7ff0000000000000

/-- Whether an instant has come when the clock gets to another one. An instant that is no number never
comes, and none has come by it. -/
def isBy (t limit : Instant) : Bool := t.isNumber && limit.isNumber && t ≤ limit

end Instant

/-- How many timers may fire in one stretch of time. An activity that is too short for the clock to
tell its ends apart and repeats for ever would otherwise hold time still. -/
def patience : Nat := 1000000000

end Cadence
