import Chip8.Proofs.Aftermath

/-!
# Chip8.Proofs.Footprints — what an opcode may touch

The table of this module says for every opcode which parts of the machine it may change: the cells
of the memory (`Stores`), the registers (`Assigns`), and one condition for each of the other parts.
`Within op m m'` says that `m'` differs from `m` only where the table allows it.  Every instruction
keeps to the table, whether it is carried out or refused (`within_execute`), and so does every step,
which moreover draws a random byte for exactly the opcodes of family `C` (`step_within`).
-/

namespace Chip8

open Opcode (family)

/-! ## The table -/

namespace Opcode

/-- The opcode may change the cell `a` of the memory when the index register holds `index`. -/
def Stores (op index a : Int) : Prop :=
  family op = 0xF ∧ kk op = 0x33 ∧ index ≤ a ∧ a ≤ index + 2 ∨
  family op = 0xF ∧ kk op = 0x55 ∧ index ≤ a ∧ a ≤ index + (x op).val

/-- The opcode puts a result into the register that its second digit names, and no flag. -/
def SetsOperand (op : Int) : Prop :=
  family op = 0x6 ∨ family op = 0x7 ∨ family op = 0x8 ∧ n op ≤ 0x3 ∨ family op = 0xC ∨
  family op = 0xF ∧ (kk op = 0x07 ∨ kk op = 0x0A)

/-- The opcode puts a result into the register that its second digit names, and a flag into
`VF`. -/
def SetsFlagged (op : Int) : Prop :=
  family op = 0x8 ∧ (n op = 0x4 ∨ n op = 0x5 ∨ n op = 0x6 ∨ n op = 0x7 ∨ n op = 0xE)

/-- The opcode may change register `r`. -/
def Assigns (op : Int) (r : Reg) : Prop :=
  SetsOperand op ∧ r = x op ∨
  SetsFlagged op ∧ (r = x op ∨ r = Reg.flag) ∨
  family op = 0xD ∧ r = Reg.flag ∨
  family op = 0xF ∧ kk op = 0x65 ∧ r ≤ x op

/-- The opcode may change the index register. -/
def SetsIndex (op : Int) : Prop :=
  family op = 0xA ∨ family op = 0xF ∧ (kk op = 0x1E ∨ kk op = 0x29)

/-- The opcode is a call or a return. -/
def SetsStack (op : Int) : Prop := family op = 0x2 ∨ op = 0x00EE

/-- The opcode clears the screen or draws on it. -/
def Paints (op : Int) : Prop := op = 0x00E0 ∨ family op = 0xD

/-- The opcode may change the delay timer. -/
def SetsDelay (op : Int) : Prop := family op = 0xF ∧ kk op = 0x15

/-- The opcode may change the sound timer. -/
def SetsSound (op : Int) : Prop := family op = 0xF ∧ kk op = 0x18

end Opcode

namespace Machine

/-- `m'` differs from `m` only where the opcode `op` may change it. -/
structure Within (op : Int) (m m' : Machine) : Prop where
  memory : ∀ a, m'.ram.byteAt a ≠ m.ram.byteAt a → Opcode.Stores op m.index a
  registers : ∀ r, m'.reg r ≠ m.reg r → Opcode.Assigns op r
  index : m'.index ≠ m.index → Opcode.SetsIndex op
  stack : m'.stack ≠ m.stack → Opcode.SetsStack op
  picture : m'.screen.lit ≠ m.screen.lit → Opcode.Paints op
  delay : m'.delay ≠ m.delay → Opcode.SetsDelay op
  sound : m'.sound ≠ m.sound → Opcode.SetsSound op
  keypad : m'.keypad = m.keypad

variable {op : Int} {m m' : Machine} {x : Reg}

/-! ## Changes of one part -/

theorem Within.refl (op : Int) (m : Machine) : Within op m m where
  memory := fun _ h => absurd rfl h
  registers := fun _ h => absurd rfl h
  index := fun h => absurd rfl h
  stack := fun h => absurd rfl h
  picture := fun h => absurd rfl h
  delay := fun h => absurd rfl h
  sound := fun h => absurd rfl h
  keypad := rfl

/-- The program counter and the current opcode are not in the table. -/
theorem Within.control (h : Within op m m') (pc opcode : Int) :
    Within op m { m' with pc, opcode } :=
  ⟨h.memory, h.registers, h.index, h.stack, h.picture, h.delay, h.sound, h.keypad⟩

theorem Within.of_control {pc opcode : Int} (h : Within op { m with pc, opcode } m') :
    Within op m m' :=
  ⟨h.memory, h.registers, h.index, h.stack, h.picture, h.delay, h.sound, h.keypad⟩

theorem Within.skipIf (h : Within op m m') (p : Prop) [Decidable p] :
    Within op m (m'.skipIf p) := by
  unfold Machine.skipIf
  split_ifs
  · exact h.control (m'.pc + 2) m'.opcode
  · exact h

theorem Within.setReg (h : Within op m m') (hx : Opcode.Assigns op x) (b : UInt8) :
    Within op m (m'.setReg x b) where
  memory := h.memory
  registers := by
    intro r hr
    rw [reg_setReg] at hr
    by_cases hrx : r = x
    · rw [hrx]
      exact hx
    · rw [if_neg hrx] at hr
      exact h.registers r hr
  index := h.index
  stack := h.stack
  picture := h.picture
  delay := h.delay
  sound := h.sound
  keypad := h.keypad

theorem Within.withIndex (h : Within op m m') (hop : Opcode.SetsIndex op) (index : Int) :
    Within op m { m' with index } :=
  ⟨h.memory, h.registers, fun _ => hop, h.stack, h.picture, h.delay, h.sound, h.keypad⟩

theorem Within.withStack (h : Within op m m') (hop : Opcode.SetsStack op) (stack : CallStack 16) :
    Within op m { m' with stack } :=
  ⟨h.memory, h.registers, h.index, fun _ => hop, h.picture, h.delay, h.sound, h.keypad⟩

theorem Within.withScreen (h : Within op m m') (hop : Opcode.Paints op) (screen : Screen 64 32) :
    Within op m { m' with screen } :=
  ⟨h.memory, h.registers, h.index, h.stack, fun _ => hop, h.delay, h.sound, h.keypad⟩

theorem within_delay (m : Machine) (hop : Opcode.SetsDelay op) (delay : Int) :
    Within op m { m with delay } :=
  { Within.refl op m with delay := fun _ => hop }

theorem within_sound (m : Machine) (hop : Opcode.SetsSound op) (sound : Int) :
    Within op m { m with sound } :=
  { Within.refl op m with sound := fun _ => hop }

/-! ## Single instructions -/

/-- A result in the operand and a flag in `VF`. -/
theorem within_setFlagged (m : Machine) (hop : Opcode.SetsFlagged op) (b flag : UInt8) :
    Within op m (m.setFlagged (Opcode.x op) b flag) := by
  have hx : Opcode.Assigns op (Opcode.x op) := Or.inr (Or.inl ⟨hop, Or.inl rfl⟩)
  have hflag : Opcode.Assigns op Reg.flag := Or.inr (Or.inl ⟨hop, Or.inr rfl⟩)
  exact ((Within.refl op m).setReg hx b).setReg hflag flag

/-- A result in the operand. -/
theorem within_operand (m : Machine) (hop : Opcode.SetsOperand op) (b : UInt8) :
    Within op m (m.setReg (Opcode.x op) b) :=
  (Within.refl op m).setReg (Or.inl ⟨hop, rfl⟩) b

theorem within_skipIfKey (m : Machine) (x : Reg) (down : Bool) :
    Within op m (m.skipIfKey x down).1 := by
  unfold skipIfKey
  split
  · exact .refl op m
  · exact (Within.refl op m).skipIf _

/-- A block that is stored, whole or up to the end of the memory. -/
theorem within_storeAtIndex (hi : 0 ≤ m.index) (bytes : List UInt8)
    (hop : ∀ a, m.index ≤ a → a < m.index + bytes.length → Opcode.Stores op m.index a) :
    Within op m (m.storeAtIndex bytes).1 := by
  have hrefl := Within.refl op m
  refine { hrefl with memory := fun a ha => ?_ }
  by_contra hout
  refine ha (byteAt_storeAtIndex_of_outside hi ?_)
  rintro ⟨hle, hlt, -⟩
  exact hout (hop a hle hlt)

theorem within_restore (hi : 0 ≤ m.index) (hf : family op = 0xF) (hk : Opcode.kk op = 0x65) :
    Within op m (m.restore (Opcode.x op)).1 := by
  have hrefl := Within.refl op m
  refine { hrefl with registers := fun r hr => ?_ }
  rw [reg_restore hi] at hr
  by_cases hin : r ≤ Opcode.x op ∧ m.index + r.val < 0x1000
  · exact Or.inr (Or.inr (Or.inr ⟨hf, hk, hin.1⟩))
  · rw [if_neg hin] at hr
    exact absurd rfl hr

theorem within_draw (hi : 0 ≤ m.index) (hf : family op = 0xD) (x y : Reg) (n : Nat) :
    Within op m (m.draw x y n).1 := by
  rcases draw_cases (x := x) (y := y) (n := n) hi with
    ⟨-, hd⟩ | ⟨-, -, px, py, hd⟩ | ⟨-, -, screen, hit, -, hd⟩ <;> rw [hd]
  · exact .refl op m
  · exact .refl op m
  · have hscreen : Within op m { m with screen } :=
      (Within.refl op m).withScreen (Or.inr hf) screen
    exact hscreen.setReg (Or.inr (Or.inr (Or.inl ⟨hf, rfl⟩))) _

theorem within_glyph (m : Machine) (hop : Opcode.SetsIndex op) (b : UInt8) (x : Reg) :
    Within op m ((Instruction.glyph x).execute b m).1 := by
  unfold Instruction.execute
  by_cases hx : 16 ≤ (m.reg x).toNat
  · simp only [if_pos hx]
    exact .refl op m
  · simp only [if_neg hx]
    exact (Within.refl op m).withIndex hop _

/-- An instruction keeps to the table, whether it is carried out or refused. -/
theorem within_execute (hi : 0 ≤ m.index) {i : Instruction} (henc : i.Encodes op) (b : UInt8) :
    Within op m (i.execute b m).1 := by
  have hrefl := Within.refl op m
  cases i
  case native => exact hrefl
  case clearScreen => exact hrefl.withScreen (Or.inl henc) _
  case ret =>
    rw [Instruction.execute]
    split
    · exact hrefl
    · rename_i pc stack _
      exact (hrefl.withStack (Or.inr henc) stack).control pc m.opcode
  case jump nnn => exact hrefl.control nnn m.opcode
  case call nnn =>
    rw [Instruction.execute]
    split
    · exact hrefl
    · rename_i stack _
      exact (hrefl.withStack (Or.inl henc.1) stack).control nnn m.opcode
  case skipIfByte | skipUnlessByte | skipIfEqual | skipUnlessEqual => exact hrefl.skipIf _
  case loadByte | addByte | random =>
    obtain ⟨hf, rfl, -⟩ := henc
    exact within_operand m (by simp [Opcode.SetsOperand, hf]) _
  case copy | or | and | xor =>
    obtain ⟨hf, hn, rfl, -⟩ := henc
    exact within_operand m (by simp [Opcode.SetsOperand, hf, hn]) _
  case add | subtract | subtractFrom =>
    obtain ⟨hf, hn, rfl, -⟩ := henc
    exact within_setFlagged m (by simp [Opcode.SetsFlagged, hf, hn]) _ _
  case shiftRight | shiftLeft =>
    obtain ⟨hf, hn, rfl⟩ := henc
    exact within_setFlagged m (by simp [Opcode.SetsFlagged, hf, hn]) _ _
  case setIndex nnn => exact hrefl.withIndex (Or.inl henc.1) nnn
  case jumpPlus nnn => exact hrefl.control _ m.opcode
  case draw x y n => exact within_draw hi henc.1 x y n
  case skipIfKey x => exact within_skipIfKey m x true
  case skipUnlessKey x => exact within_skipIfKey m x false
  case readDelay =>
    obtain ⟨hf, hk, rfl⟩ := henc
    rw [Instruction.execute]
    split
    · exact hrefl
    · exact within_operand m (by simp [Opcode.SetsOperand, hf, hk]) _
  case awaitKey =>
    obtain ⟨hf, hk, rfl⟩ := henc
    rw [Instruction.execute]
    split
    · exact hrefl.control (m.pc - 2) m.opcode
    · exact within_operand m (by simp [Opcode.SetsOperand, hf, hk]) _
  case setDelay => exact within_delay m ⟨henc.1, henc.2.1⟩ _
  case setSound => exact within_sound m ⟨henc.1, henc.2.1⟩ _
  case addIndex => exact hrefl.withIndex (Or.inr ⟨henc.1, Or.inl henc.2.1⟩) _
  case glyph x => exact within_glyph m (Or.inr ⟨henc.1, Or.inr henc.2.1⟩) b x
  case decimal x =>
    refine within_storeAtIndex hi _ fun a hle hlt => Or.inl ⟨henc.1, henc.2.1, hle, ?_⟩
    have hlength : (decimalDigits (m.reg x)).length = 3 := rfl
    omega
  case save =>
    obtain ⟨hf, hk, rfl⟩ := henc
    refine within_storeAtIndex hi _ fun a hle hlt => Or.inr ⟨hf, hk, hle, ?_⟩
    rw [Instruction.savedBytes_length] at hlt
    omega
  case restore =>
    obtain ⟨hf, hk, rfl⟩ := henc
    exact within_restore hi hf hk

end Machine

/-! ## Steps -/

theorem Instruction.isRandom_iff {op : Int} {i : Instruction} (henc : i.Encodes op) :
    i.isRandom = true ↔ family op = 0xC := by
  constructor
  · intro hrandom
    cases i
    case random => exact henc.1
    all_goals cases hrandom
  · intro hf
    have hrandom : (random (Opcode.x op) (UInt8.ofNat (Opcode.kk op))).Encodes op := ⟨hf, rfl, rfl⟩
    rw [encodes_unique henc hrandom]
    rfl

theorem Opcode.Unknown.not_random {op : Int} (hu : Opcode.Unknown op) : family op ≠ 0xC := by
  unfold Opcode.Unknown at hu
  omega

namespace Cpu

variable {ρ : Type} {c : Cpu ρ}

theorem failStep_source (c : Cpu ρ) (line : Option String) (f : Fault) :
    (c.failStep line f).cpu.source = c.source := by
  unfold failStep
  split_ifs <;> rfl

variable [ByteSource ρ]

theorem drawFor_source {op : Int} {i : Instruction} (henc : i.Encodes op) :
    (c.drawFor i).2 = if family op = 0xC then (ByteSource.next c.source).2 else c.source := by
  rw [drawFor]
  by_cases hf : family op = 0xC
  · rw [if_pos ((Instruction.isRandom_iff henc).mpr hf), if_pos hf]
  · rw [if_neg fun hrandom => hf ((Instruction.isRandom_iff henc).mp hrandom), if_neg hf]

/-- What a step leaves that has fetched an opcode, whether it succeeds or halts. -/
theorem step_within_of_le (hb : c.machine.Bounded) (hh : c.halt = none)
    (hle : c.machine.pc ≤ 0xFFE) :
    c.machine.Within c.machine.word c.step.cpu.machine ∧
      c.step.cpu.source =
        if family c.machine.word = 0xC then (ByteSource.next c.source).2 else c.source := by
  have hcarried : ∀ i : Instruction, i.Encodes c.machine.word →
      c.machine.Within c.machine.word (c.fetched.carryOut i).1.machine := by
    intro i hi
    have hwithin := Machine.within_execute (m := c.fetched.machine) hb.index.1 hi
      (c.fetched.drawFor i).1
    exact hwithin.of_control
  rcases step_cases hh hb.pc.1 with
    ⟨hlt, -⟩ | ⟨-, hu, hs⟩ | ⟨i, f, -, hi, -, hs⟩ | ⟨i, -, hi, -, hs⟩
  · omega
  · rw [hs, failStep_machine, failStep_source, if_neg hu.not_random]
    exact ⟨(Machine.Within.refl _ _).control _ _, rfl⟩
  · rw [hs, failStep_machine, failStep_source]
    exact ⟨hcarried i hi, drawFor_source (c := c.fetched) hi⟩
  · rw [hs]
    exact ⟨hcarried i hi, drawFor_source (c := c.fetched) hi⟩

/-- **The frame of a step.**  A step of a reachable processor that fetches an opcode changes only
what the table allows for it, whether it succeeds or halts, and draws one random byte if the opcode
is of family `C` and none otherwise.  A step that fetches none, because the processor has halted or
the fetch fails, leaves the machine and the source of random bytes alone. -/
theorem step_within (hr : c.Reachable) :
    (∀ op, c.halt = none → c.machine.fetch = .ok op →
      c.machine.Within op c.step.cpu.machine ∧
        c.step.cpu.source =
          if family op = 0xC then (ByteSource.next c.source).2 else c.source) ∧
      ((∃ halt, c.halt = some halt) ∨ (∃ fault, c.machine.fetch = .error fault) →
        c.step.cpu.machine = c.machine ∧ c.step.cpu.source = c.source) := by
  have hb := hr.bounded
  constructor
  · intro op hh hop
    rcases Int.lt_or_le 0xFFE c.machine.pc with hlt | hle
    · rw [Machine.fetch_of_lt hlt] at hop
      cases hop
    · rw [Machine.fetch_of_le hb.pc.1 hle] at hop
      cases hop
      exact step_within_of_le hb hh hle
  · intro hno
    cases hh : c.halt with
    | some halt => rw [step_of_halt hh]; exact ⟨rfl, rfl⟩
    | none =>
      obtain ⟨fault, hfault⟩ := hno.resolve_left fun ⟨halt, hhalt⟩ => by cases hh.symm.trans hhalt
      rcases Int.lt_or_le 0xFFE c.machine.pc with hlt | hle
      · rw [step_of_lt hh hlt, failStep_machine, failStep_source]
        exact ⟨rfl, rfl⟩
      · rw [Machine.fetch_of_le hb.pc.1 hle] at hfault
        cases hfault

/-- A random byte for `V3`: nothing but `V3` and the source of the bytes may differ. -/
theorem step_within_random_byte :
    ∃ c : Cpu CyclicBytes, c.machine.Within 0xC30F c.step.cpu.machine ∧
      c.step.cpu.source = (ByteSource.next c.source).2 ∧ c.step.cpu.machine.reg 3 = 0x0B ∧
      ∀ r, c.step.cpu.machine.reg r ≠ c.machine.reg r → r = 3 := by
  have hr : ((create (.powerOn .linear) (CyclicBytes.ofList [0xAB, 0xCD]) false).act
      (.load [0xC3, 0x0F])).Reachable := .act _ (.powerOn _ _ _)
  obtain ⟨hwithin, hsource⟩ := (step_within hr).1 0xC30F (by decide +kernel) (by decide +kernel)
  refine ⟨_, hwithin, hsource, by decide +kernel, fun r hne => ?_⟩
  rcases hwithin.registers r hne with ⟨-, h⟩ | ⟨⟨hf, -⟩, -⟩ | ⟨hf, -⟩ | ⟨hf, -⟩
  · exact h
  all_goals exact absurd hf (by decide)

end Cpu

end Chip8
