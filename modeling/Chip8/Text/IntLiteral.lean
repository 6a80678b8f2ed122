import Chip8.Text.Digit

/-!
# Chip8.Text.IntLiteral — reading whole numbers

A literal is a row of decimal digits of any script, in which a single underscore may stand between
two digits, with at most one sign in front and blanks around it.  Literals of more than 4300 digits
are not read, leading zeros counted.
-/

namespace Chip8.IntLiteral

/-- The characters that may stand around a literal. -/
def isBlank (c : Char) : Bool :=
  let n := c.toNat
  (9 ≤ n ∧ n ≤ 13) || n == 0x20 || n == 0x85 || n == 0xA0 || n == 0x1680 ||
    (0x2000 ≤ n ∧ n ≤ 0x200A) || n == 0x2028 || n == 0x2029 || n == 0x202F || n == 0x205F ||
    n == 0x3000

/-- The text without the blanks at its ends. -/
def trim (cs : List Char) : List Char :=
  ((cs.dropWhile isBlank).reverse.dropWhile isBlank).reverse

/-- The values of the digits: at least one, with single underscores between them allowed. -/
def digits? : List Char → Option (List Nat)
  | [] => none
  | c :: cs =>
    match Digit.value? c with
    | none => none
    | some d =>
      match cs with
      | [] => some [d]
      | '_' :: cs => (digits? cs).map (d :: ·)
      | c :: cs => (digits? (c :: cs)).map (d :: ·)

/-- The longest literal that is read. -/
def maxDigits : Nat := 4300

/-- The number that a row of digits denotes. -/
def natural? (cs : List Char) : Option Nat :=
  match digits? cs with
  | none => none
  | some ds => if maxDigits < ds.length then none else some (ds.foldl (fun n d => 10 * n + d) 0)

/-- The number that a row of digits with at most one sign denotes. -/
def signed? : List Char → Option Int
  | '+' :: cs => (natural? cs).map Int.ofNat
  | '-' :: cs => (natural? cs).map fun n => -(n : Int)
  | cs => (natural? cs).map Int.ofNat

/-- The number that a literal denotes. -/
def parse? (text : String) : Option Int := signed? (trim text.toList)

end Chip8.IntLiteral
