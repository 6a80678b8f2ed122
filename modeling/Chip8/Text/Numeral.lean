/-!
# Chip8.Text.Numeral — integers as text

Two forms are written: plain decimal, and lower-case hexadecimal filled up with zeros to a least
width.  Both take any integer.  In the hexadecimal form the sign counts as part of the width, and
a number that needs more room is written in full.
-/

namespace Chip8.Numeral

/-- A minus sign for a negative number, nothing for any other. -/
def sign (n : Int) : List Char := if n < 0 then ['-'] else []

/-- `n` in decimal. -/
def decimal (n : Int) : String := String.ofList (sign n ++ Nat.toDigits 10 n.natAbs)

/-- The zeros that stand between the sign and the digits of `n`. -/
def padding (width : Nat) (n : Int) : List Char :=
  List.replicate (width - (sign n).length - (Nat.toDigits 16 n.natAbs).length) '0'

/-- `n` in hexadecimal, in at least `width` characters. -/
def hex (width : Nat) (n : Int) : String :=
  String.ofList (sign n ++ padding width n ++ Nat.toDigits 16 n.natAbs)

end Chip8.Numeral
