import Chip8.Proofs.Reachable
import Chip8.Proofs.Stepping

/-!
# Chip8.Proofs.Arithmetic — what the instructions compute

`Instruction.Computes` is the arithmetic of the instruction set on plain numbers: what the
registers, the index register and the timers hold afterwards, in terms of what they held before.
Every instruction that is carried out follows it, whatever registers it names (`executed_computes`).
Where the result goes to `VF` as well, the flag replaces it; so what is said of the result excepts
`VF`, and what is said of the flag excepts nothing.
-/

namespace Chip8

namespace Machine

/-- The number in a register. -/
def value (m : Machine) (x : Reg) : Nat := (m.reg x).toNat

/-- `VF` tells whether `p` holds. -/
def Flags (m : Machine) (p : Prop) : Prop :=
  m.value Reg.flag = 1 ∧ p ∨ m.value Reg.flag = 0 ∧ ¬ p

end Machine

/-- What the instruction computes from the numbers in `m`, as the numbers in `m'`; `byte` is the
random byte.  Nothing is said here about the instructions that compute no number. -/
def Instruction.Computes (byte : UInt8) (m m' : Machine) : Instruction → Prop
  | loadByte x kk => m'.value x = kk.toNat
  | addByte x kk => m'.value x = (m.value x + kk.toNat) % 256
  | copy x y => m'.value x = m.value y
  | or x y => m'.value x = m.value x ||| m.value y
  | and x y => m'.value x = m.value x &&& m.value y
  | xor x y => m'.value x = m.value x ^^^ m.value y
  | add x y =>
    m'.Flags (255 < m.value x + m.value y) ∧
      (x ≠ Reg.flag → 256 * m'.value Reg.flag + m'.value x = m.value x + m.value y)
  | subtract x y =>
    m'.Flags (m.value y < m.value x) ∧
      (x ≠ Reg.flag → (m'.value x : Int) = ((m.value x : Int) - m.value y) % 256)
  | shiftRight x =>
    m'.value Reg.flag = m.value x % 2 ∧
      (x ≠ Reg.flag → 2 * m'.value x + m'.value Reg.flag = m.value x)
  | subtractFrom x y =>
    m'.Flags (m.value x < m.value y) ∧
      (x ≠ Reg.flag → (m'.value x : Int) = ((m.value y : Int) - m.value x) % 256)
  | shiftLeft x =>
    m'.Flags (128 ≤ m.value x) ∧
      (x ≠ Reg.flag → 256 * m'.value Reg.flag + m'.value x = 2 * m.value x)
  | setIndex nnn => m'.index = nnn
  | random x kk => m'.value x = byte.toNat &&& kk.toNat
  | readDelay x => (m'.value x : Int) = m.delay
  | setDelay x => m'.delay = m.value x
  | setSound x => m'.sound = m.value x
  | addIndex x =>
    m'.index = (m.index + m.value x) % 65536 ∧ m'.value Reg.flag = m.value Reg.flag
  | glyph x => m'.index = 0x50 + 5 * m.value x
  | _ => True

namespace Machine

variable {m : Machine} {x : Reg} {b f : UInt8}

/-! ## Writing a result -/

theorem value_setReg (m : Machine) (x : Reg) (b : UInt8) : (m.setReg x b).value x = b.toNat := by
  rw [value, reg_setReg, if_pos rfl]

/-- The flag is written last. -/
theorem value_flag_setFlagged (m : Machine) (x : Reg) (b f : UInt8) :
    (m.setFlagged x b f).value Reg.flag = f.toNat :=
  value_setReg _ _ _

theorem value_setFlagged (hx : x ≠ Reg.flag) : (m.setFlagged x b f).value x = b.toNat := by
  rw [value, setFlagged, reg_setReg, if_neg hx]
  exact m.value_setReg x b

theorem flags_setFlagged (m : Machine) (x : Reg) (b : UInt8) (p : Prop) [Decidable p] :
    (m.setFlagged x b (flag p)).Flags p := by
  unfold Flags
  rw [value_flag_setFlagged]
  by_cases h : p
  · exact Or.inl ⟨by rw [flag, if_pos h]; rfl, h⟩
  · exact Or.inr ⟨by rw [flag, if_neg h]; rfl, h⟩

/-! ## Results with a flag -/

section

variable {m' : Machine} {a b : UInt8}

/-- A sum, and whether it is carried over. -/
theorem sum_of_setFlagged
    (h : m.setFlagged x (a + b) (flag (255 < a.toNat + b.toNat)) = m') :
    m'.Flags (255 < a.toNat + b.toNat) ∧
      (x ≠ Reg.flag → 256 * m'.value Reg.flag + m'.value x = a.toNat + b.toNat) := by
  subst h
  have hflags := m.flags_setFlagged x (a + b) (255 < a.toNat + b.toNat)
  refine ⟨hflags, fun hx => ?_⟩
  have ha := a.toNat_lt
  have hb := b.toNat_lt
  rw [value_setFlagged hx, UInt8.toNat_add]
  rcases hflags with ⟨hone, hcarry⟩ | ⟨hzero, hnone⟩
  · rw [hone]
    omega
  · rw [hzero]
    omega

/-- A difference, and whether it is positive.  Both orders of the operands are cases of this. -/
theorem difference_of_setFlagged
    (h : m.setFlagged x (a - b) (flag (b.toNat < a.toNat)) = m') :
    m'.Flags (b.toNat < a.toNat) ∧
      (x ≠ Reg.flag → (m'.value x : Int) = ((a.toNat : Int) - b.toNat) % 256) := by
  subst h
  refine ⟨m.flags_setFlagged x (a - b) _, fun hx => ?_⟩
  have ha := a.toNat_lt
  have hb := b.toNat_lt
  rw [value_setFlagged hx, UInt8.toNat_sub]
  omega

/-- A half, and what is left over. -/
theorem half_of_setFlagged (h : m.setFlagged x (a / 2) (a % 2) = m') :
    m'.value Reg.flag = a.toNat % 2 ∧
      (x ≠ Reg.flag → 2 * m'.value x + m'.value Reg.flag = a.toNat) := by
  subst h
  have hrest : (m.setFlagged x (a / 2) (a % 2)).value Reg.flag = a.toNat % 2 := by
    rw [value_flag_setFlagged, UInt8.toNat_mod]
    rfl
  refine ⟨hrest, fun hx => ?_⟩
  rw [hrest, value_setFlagged hx, UInt8.toNat_div]
  exact Nat.div_add_mod a.toNat 2

/-- The double, and whether it is carried over. -/
theorem double_of_setFlagged (h : m.setFlagged x (a + a) (a / 128) = m') :
    m'.Flags (128 ≤ a.toNat) ∧
      (x ≠ Reg.flag → 256 * m'.value Reg.flag + m'.value x = 2 * a.toNat) := by
  subst h
  have ha := a.toNat_lt
  have hcarry : (m.setFlagged x (a + a) (a / 128)).value Reg.flag = a.toNat / 128 := by
    rw [value_flag_setFlagged, UInt8.toNat_div]
    rfl
  constructor
  · unfold Flags
    rw [hcarry]
    omega
  · intro hx
    rw [hcarry, value_setFlagged hx, UInt8.toNat_add]
    omega

end

end Machine

/-! ## One instruction -/

namespace Instruction

variable {i : Instruction} {byte : UInt8} {m m' : Machine}

/-- Only the glyph of a digit is ever found. -/
theorem glyph_computes {x : Reg} (h : (glyph x).execute byte m = m'.done) :
    (glyph x).Computes byte m m' := by
  unfold execute at h
  by_cases hx : 16 ≤ (m.reg x).toNat
  · simp only [if_pos hx] at h
    cases h
  · simp only [if_neg hx] at h
    cases h
    rfl

/-- The delay timer is read only when it is a byte. -/
theorem readDelay_computes {x : Reg} (h : (readDelay x).execute byte m = m'.done) :
    (readDelay x).Computes byte m m' := by
  rw [execute, Cells.byte?] at h
  by_cases hbyte : 0 ≤ m.delay ∧ m.delay < 256
  · rw [if_pos hbyte] at h
    cases h
    have hvalue : (m.setReg x (UInt8.ofNat m.delay.toNat)).value x = m.delay.toNat := by
      rw [Machine.value_setReg, UInt8.toNat_ofNat_of_lt']
      exact (by omega : m.delay.toNat < 256)
    simp only [Computes, hvalue]
    omega
  · rw [if_neg hbyte] at h
    cases h

/-- An instruction that is carried out computes what it should. -/
theorem computes_of_execute (h : i.execute byte m = m'.done) : i.Computes byte m m' := by
  have hresult : (i.execute byte m).1 = m' := congrArg Prod.fst h
  cases i
  case add x y => exact Machine.sum_of_setFlagged hresult
  case subtract x y => exact Machine.difference_of_setFlagged hresult
  case shiftRight x => exact Machine.half_of_setFlagged hresult
  case subtractFrom x y => exact Machine.difference_of_setFlagged hresult
  case shiftLeft x => exact Machine.double_of_setFlagged hresult
  case glyph x => exact glyph_computes h
  case readDelay x => exact readDelay_computes h
  all_goals subst hresult
  case loadByte x kk => exact m.value_setReg x kk
  case addByte x kk => exact (m.value_setReg x _).trans (UInt8.toNat_add (m.reg x) kk)
  case copy x y => exact m.value_setReg x (m.reg y)
  case or x y => exact (m.value_setReg x _).trans (UInt8.toNat_or (m.reg x) (m.reg y))
  case and x y => exact (m.value_setReg x _).trans (UInt8.toNat_and (m.reg x) (m.reg y))
  case xor x y => exact (m.value_setReg x _).trans (UInt8.toNat_xor (m.reg x) (m.reg y))
  case random x kk => exact (m.value_setReg x _).trans (UInt8.toNat_and byte kk)
  case addIndex x => exact ⟨rfl, rfl⟩
  case setIndex => rfl
  case setDelay => rfl
  case setSound => rfl
  all_goals exact trivial

end Instruction

/-! ## One opcode -/

namespace Cpu

variable {ρ : Type} [ByteSource ρ] {c c' : Cpu ρ} {op : Int} {i : Instruction}

/-- **What the instructions compute.**  When an opcode has been carried out, the registers, the
index register and the timers hold what its instruction computes from what they held before; a
random byte is the next one of the source.  This includes that an operand is `VF`, that the result
goes to `VF`, and that both operands are the same register. -/
theorem executed_computes (h : Executed op c c' none) (hi : i.Encodes op) :
    i.Computes (ByteSource.next c.source).1 c.machine c'.machine := by
  obtain ⟨pc, hmachine, hdone⟩ := h.outcome hi
  have hexecute : i.execute (c.drawFor i).1 { c.machine with opcode := op, pc } =
      c'.machine.done := Prod.ext hmachine.symm (hdone.mp rfl)
  have hcomputes := Instruction.computes_of_execute hexecute
  -- the byte matters for a random number only, and that is the next one
  cases i <;> exact hcomputes

/-- A processor that is about to subtract 3 from the 5 in `VF`. -/
def subtractingFromFlag : Cpu CyclicBytes :=
  (Cpu.create (.powerOn .linear) (.ofList []) false).actAll
    [.load [0x6F, 0x05, 0x61, 0x03, 0x8F, 0x15], .step, .step]

/-- The difference is positive, and this is what `VF` tells then, instead of the difference. -/
theorem executed_computes_subtracting_from_flag :
    subtractingFromFlag.machine.value Reg.flag = 5 ∧
      subtractingFromFlag.step.cpu.machine.value Reg.flag = 1 := by
  obtain ⟨hop, he, hfive, hthree⟩ : subtractingFromFlag.machine.fetch = .ok 0x8F15 ∧
      subtractingFromFlag.step.error = none ∧
      subtractingFromFlag.machine.value Reg.flag = 5 ∧
      subtractingFromFlag.machine.value 1 = 3 := by
    decide +kernel
  have hi : (Instruction.subtract Reg.flag 1).Encodes 0x8F15 :=
    ⟨by decide, by decide, by decide, by decide⟩
  obtain ⟨hflags, -⟩ := executed_computes (.of_step hop he) hi
  rw [hfive, hthree] at hflags
  rcases hflags with ⟨hone, -⟩ | ⟨-, hnot⟩
  · exact ⟨hfive, hone⟩
  · exact absurd (by decide) hnot

end Cpu

end Chip8
