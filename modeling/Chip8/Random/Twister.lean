import Chip8.Random.Source

/-!
# Chip8.Random.Twister — the Mersenne twister

The generator with 624 words of 32 bits and period `2 ^ 19937 - 1`, seeded from an integer of any
size by the words of its absolute value.  A byte is drawn as the top nine bits of a word, again and
again until they are below 256.
-/

namespace Chip8

/-- The words of the generator, and how many of them have been used. -/
structure Twister where
  words : Vector UInt32 624
  used : Nat
  deriving Nonempty

namespace Twister

/-- The number of words. -/
abbrev size : Nat := 624

/-- The word at a position counted around the circle. -/
def wordAt (words : Vector UInt32 size) (k : Nat) : UInt32 :=
  have : k % size < size := Nat.mod_lt k (by decide)
  words[k % size]

/-! ## Seeding -/

/-- Mixes a word with itself before it is multiplied. -/
def fold (w : UInt32) : UInt32 := w ^^^ (w >>> 30)

/-- Fills the words from one, each from the one before. -/
def spread (seed : UInt32) : Vector UInt32 size :=
  (List.range size).foldl
    (fun words k =>
      words.setIfInBounds k
        (if k = 0 then seed
          else 1812433253 * fold (wordAt words (k - 1)) + UInt32.ofNat k))
    (Vector.replicate size 0)

/-- The position after `k` while words are mixed.  Position 0 is passed over: it receives the last
word. -/
def step (words : Vector UInt32 size) (k : Nat) : Vector UInt32 size × Nat :=
  if size ≤ k + 1 then (words.set 0 (wordAt words (size - 1)), 1) else (words, k + 1)

/-- Adds the words of a key, over and over; `j` is the place in the key. -/
def mixKey (key : Array UInt32) :
    Nat → Vector UInt32 size → Nat → Nat → Vector UInt32 size × Nat
  | 0, words, k, _ => (words, k)
  | n + 1, words, k, j =>
    let word := (wordAt words k ^^^ (fold (wordAt words (k - 1)) * 1664525)) +
      key.getD j 0 + UInt32.ofNat j
    let r := step (words.setIfInBounds k word) k
    mixKey key n r.1 r.2 (if key.size ≤ j + 1 then 0 else j + 1)

/-- Mixes every word with its position. -/
def mixPositions : Nat → Vector UInt32 size → Nat → Vector UInt32 size
  | 0, words, _ => words
  | n + 1, words, k =>
    let word := (wordAt words k ^^^ (fold (wordAt words (k - 1)) * 1566083941)) - UInt32.ofNat k
    let r := step (words.setIfInBounds k word) k
    mixPositions n r.1 r.2

/-- The generator seeded by the words of a key. -/
def ofKey (key : Array UInt32) : Twister :=
  let r := mixKey key (max size key.size) (spread 19650218) 1 0
  ⟨(mixPositions (size - 1) r.1 r.2).set 0 0x80000000, size⟩

/-- The 32-bit words of a number, least significant first; zero has one word. -/
def keyWords (n : Nat) : List UInt32 :=
  if n < 0x100000000 then [UInt32.ofNat n]
  else UInt32.ofNat n :: keyWords (n / 0x100000000)
termination_by n
decreasing_by omega

/-- The generator for a seed; the sign of the seed makes no difference. -/
def ofSeed (seed : Int) : Twister := ofKey (keyWords seed.natAbs).toArray

/-! ## Drawing -/

/-- The new word at `k`, from the words at `k`, `k + 1` and `k + 397`. -/
def twist (words : Vector UInt32 size) (k : Nat) : UInt32 :=
  let y := (wordAt words k &&& 0x80000000) ||| (wordAt words (k + 1) &&& 0x7FFFFFFF)
  wordAt words (k + 397) ^^^ (y >>> 1) ^^^ (if y % 2 = 1 then 0x9908B0DF else 0)

/-- All words anew, in place and in order. -/
def renew (words : Vector UInt32 size) : Vector UInt32 size :=
  (List.range size).foldl (fun words k => words.setIfInBounds k (twist words k)) words

/-- Scrambles a word before it is handed out. -/
def temper (w : UInt32) : UInt32 :=
  let w := w ^^^ (w >>> 11)
  let w := w ^^^ ((w <<< 7) &&& 0x9D2C5680)
  let w := w ^^^ ((w <<< 15) &&& 0xEFC60000)
  w ^^^ (w >>> 18)

/-- The next word. -/
def nextWord (t : Twister) : UInt32 × Twister :=
  if t.used < size then (temper (wordAt t.words t.used), { t with used := t.used + 1 })
  else
    let words := renew t.words
    (temper (wordAt words 0), ⟨words, 1⟩)

/-- A byte from the top nine bits of the next word, if they are below 256. -/
def tryByte (t : Twister) : Twister ⊕ UInt8 × Twister :=
  let r := t.nextWord
  if r.1 >>> 23 < 256 then .inr ((r.1 >>> 23).toUInt8, r.2) else .inl r.2

/-- Tries one word after another until it has a byte, as it has in the end from every state. -/
def next (t : Twister) : UInt8 × Twister := repeatM (m := Id) tryByte t

instance : ByteSource Twister := ⟨next⟩

end Twister

end Chip8
