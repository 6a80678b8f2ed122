/-!
# Chip8.Random.Source — where random bytes come from

A source hands out one byte at a time and is itself the state that remains.
-/

namespace Chip8

/-- A type whose values hand out random bytes. -/
class ByteSource (ρ : Type) where
  /-- The next byte, and the source that is left. -/
  next : ρ → UInt8 × ρ

/-- A source that repeats a list of bytes for ever; without any it repeats zero. -/
structure CyclicBytes where
  all : List UInt8
  rest : List UInt8

namespace CyclicBytes

/-- The source that starts at the head of `bytes`. -/
def ofList (bytes : List UInt8) : CyclicBytes := ⟨bytes, bytes⟩

/-- Starts over when the list has been used up. -/
def next (s : CyclicBytes) : UInt8 × CyclicBytes :=
  match s.rest, s.all with
  | b :: rest, _ => (b, { s with rest })
  | [], b :: rest => (b, { s with rest })
  | [], [] => (0, s)

instance : ByteSource CyclicBytes := ⟨next⟩

end CyclicBytes

end Chip8
