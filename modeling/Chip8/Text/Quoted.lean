import Chip8.Text.Numeral
import Chip8.Text.Printable

/-!
# Chip8.Text.Quoted — texts in quotation marks

A text stands between single quotes; between double quotes if it holds a single quote and no double
one.  The quote in use and the backslash are escaped by a backslash, tab, line feed and carriage
return by a letter, and every other character that cannot be shown by its number.
-/

namespace Chip8.Quoted

/-- The mark that encloses a text. -/
def mark (cs : List Char) : Char := if cs.contains '\'' && !cs.contains '"' then '"' else '\''

/-- A character by its number, in two, four or eight hexadecimal digits. -/
def byNumber (c : Char) : String :=
  if c.toNat < 0x100 then "\\x" ++ Numeral.hex 2 c.toNat
  else if c.toNat < 0x10000 then "\\u" ++ Numeral.hex 4 c.toNat
  else "\\U" ++ Numeral.hex 8 c.toNat

/-- A character inside the quotation mark `mark`. -/
def escape (mark c : Char) : String :=
  if c = mark ∨ c = '\\' then String.ofList ['\\', c]
  else if c = '\t' then "\\t"
  else if c = '\n' then "\\n"
  else if c = '\r' then "\\r"
  else if Printable.isPrintable c then String.ofList [c]
  else byNumber c

/-- The text in quotation marks. -/
def quote (text : String) : String :=
  let cs := text.toList
  let m := mark cs
  String.ofList [m] ++ String.join (cs.map (escape m)) ++ String.ofList [m]

end Chip8.Quoted
