import Chip8.Seconds
import Chip8.Text.Numeral

/-!
# Chip8.Clock — clock readings

Readings come one after another, and each is found out only when it is asked for.  A reading may
fail; there may be others after it.

A clock with a script starts at `start`; each later reading adds `step`, and a reading with a jump
adds the jump as well, so that a jump is felt from its reading on.  Times are given in units of
`2 ^ -20` seconds.  After `limit` readings the clock is used up.
-/

namespace Chip8

/-- Why a clock gives no reading. -/
inductive ClockFault where
  | usedUp (limit : Int)
  /-- The time is beyond the doubles. -/
  | tooLarge
  deriving DecidableEq

namespace ClockFault

/-- The wording of a failure. -/
def message : ClockFault → String
  | usedUp limit => "clock read more than " ++ Numeral.decimal limit ++ " times"
  | tooLarge => "integer division result too large for a float"

end ClockFault

/-- The readings of a clock, the next one first. -/
inductive Readings where
  /-- This reading and all after it fail. -/
  | ended (fault : ClockFault)
  /-- This reading fails. -/
  | failed (fault : ClockFault) (rest : Unit → Readings)
  | next (time : Seconds) (rest : Unit → Readings)

/-- The script of a clock; a jump is the number of a reading and what that reading adds. -/
structure Clock where
  start : Int
  step : Int
  jumps : List (Int × Int)
  limit : Int

namespace Clock

/-- The sum of the jumps up to reading number `n`; the first reading has number 0. -/
def jumped (c : Clock) (n : Nat) : Int :=
  (c.jumps.filter fun jump => 0 ≤ jump.1 ∧ jump.1 ≤ (n : Int)).foldl
    (fun sum jump => sum + jump.2) 0

/-- Reading number `n`; none if it is beyond the doubles. -/
def reading? (c : Clock) (n : Nat) : Option Seconds :=
  Seconds.ofUnits? (c.start + n * c.step + c.jumped n)

/-- The `count` readings from number `n` on, after which the clock is used up. -/
def readingsFrom (c : Clock) (n : Nat) : Nat → Readings
  | 0 => .ended (.usedUp c.limit)
  | count + 1 =>
    match c.reading? n with
    | none => .failed .tooLarge fun _ => c.readingsFrom (n + 1) count
    | some time => .next time fun _ => c.readingsFrom (n + 1) count

/-- All readings. -/
def readings (c : Clock) : Readings := c.readingsFrom 0 c.limit.toNat

end Clock

end Chip8
