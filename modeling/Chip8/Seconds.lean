import Chip8.Platform

/-!
# Chip8.Seconds — clock readings and spans of time

Times are double precision numbers of seconds.  A number is kept as its rank: zero has rank 0, the
`k`-th double above it rank `k`, the `k`-th below it rank `-k`.  Ranks are ordered as the numbers
are, so all comparisons are between integers; only sums and quotients go through the number.
-/

namespace Chip8

/-- A number of seconds. -/
structure Seconds where
  rank : Int
  deriving DecidableEq

/-- The double that is nearest to `n` times `2 ^ -halvings`; of two equally near the even one.  It
is infinite when that is beyond the doubles.  There must be so few halvings that the result is no
subnormal number. -/
def nearestDouble (n : Nat) (halvings : Nat) : Float :=
  Float.ofScientific (n * Nat.pow 5 halvings) true halvings

namespace Seconds

instance : LE Seconds := ⟨fun a b => a.rank ≤ b.rank⟩

instance : LT Seconds := ⟨fun a b => a.rank < b.rank⟩

instance (a b : Seconds) : Decidable (a ≤ b) := inferInstanceAs (Decidable (a.rank ≤ b.rank))

instance (a b : Seconds) : Decidable (a < b) := inferInstanceAs (Decidable (a.rank < b.rank))

theorem le_iff {a b : Seconds} : a ≤ b ↔ a.rank ≤ b.rank := Iff.rfl

theorem lt_iff {a b : Seconds} : a < b ↔ a.rank < b.rank := Iff.rfl

/-! ## Doubles -/

/-- The bit of a double that holds its sign. -/
def signBit : Nat := 0x8000000000000000

/-- The number that has this rank. -/
def toFloat (t : Seconds) : Float :=
  Float.ofBits (UInt64.ofNat (if 0 ≤ t.rank then t.rank.natAbs else t.rank.natAbs + signBit))

/-- A number that is not NaN. -/
def ofFloat (x : Float) : Seconds :=
  let bits := x.toBits.toNat
  ⟨if bits < signBit then bits else -((bits - signBit : Nat) : Int)⟩

def zero : Seconds := ⟨0⟩

/-- The sum, rounded to a double. -/
def add (a b : Seconds) : Seconds := ofFloat (a.toFloat + b.toFloat)

instance : Add Seconds := ⟨add⟩

/-- `n` units of `2 ^ -20` seconds; none if that is beyond the doubles. -/
def ofUnits? (n : Int) : Option Seconds :=
  let x := nearestDouble n.natAbs 20
  if x.isInf then none else some (ofFloat (if n < 0 then -x else x))

/-- `n` nanoseconds. -/
def ofNanos (n : Nat) : Seconds := ofFloat (nearestDouble n 0 / 1e9)

/-! ## Intervals -/

/-- The time between two steps of the timers. -/
def timerInterval : Seconds := ofFloat (1.0 / Platform.timerRate)

/-- The time between two pictures. -/
def displayInterval : Seconds := ofFloat (1.0 / 60.0)

/-- The time between two instructions at a positive speed; none if the speed is beyond the
doubles. -/
def instructionInterval? (speed : Int) : Option Seconds :=
  let x := nearestDouble speed.toNat 0
  if x.isInf then none else some (ofFloat (1.0 / x))

/-- The whole part, cut off towards zero. -/
def whole (t : Seconds) : Seconds :=
  let n := t.rank.natAbs
  let exponent := n / 0x10000000000000
  let fraction := 1075 - exponent
  let kept : Nat := if exponent < 1023 then 0 else (n >>> fraction) <<< fraction
  ⟨if t.rank < 0 then -kept else kept⟩

/-- One second after the whole part of `t`. -/
def nextReport (t : Seconds) : Seconds := ofFloat (t.whole.toFloat + 1.0)

end Seconds

end Chip8
