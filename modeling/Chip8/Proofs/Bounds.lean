import Chip8.Proofs.Reachable
import Chip8.Proofs.Refusals
import Chip8.Proofs.Stepping

/-!
# Chip8.Proofs.Bounds — the numbers of a machine stay in range

The registers, the memory, the keys and the pixels are in range by their types; the index register,
the timers, the opcode, the program counter and the addresses on the call stack are plain numbers,
and `Bounded` says how far they go.  The highest program counter is that of a jump with an offset,
`0xFFF + 0xFF`; the addresses on the call stack lie just past an opcode that was fetched.  `Bounded`
holds of every processor that a host can arrive at (`Reachable.bounded`).
-/

namespace Chip8

namespace Machine

/-- The ranges of the plain numbers of a machine. -/
structure Bounded (m : Machine) : Prop where
  index : 0 ≤ m.index ∧ m.index ≤ 0xFFFF
  delay : 0 ≤ m.delay ∧ m.delay ≤ 0xFF
  sound : 0 ≤ m.sound ∧ m.sound ≤ 0xFF
  opcode : 0 ≤ m.opcode ∧ m.opcode ≤ 0xFFFF
  pc : 0 ≤ m.pc ∧ m.pc ≤ 0x10FE
  depth : m.stack.items.length ≤ 16
  returns : ∀ a ∈ m.stack.items, 2 ≤ a ∧ a ≤ 0x1000

namespace Bounded

variable {m : Machine}

/-- The other parts of the machine do not matter. -/
theorem frame (h : m.Bounded) (ram : Memory 0x1000) (v : Vector UInt8 16) (keypad : Keypad)
    (screen : Screen 64 32) : { m with ram, v, keypad, screen }.Bounded :=
  ⟨h.index, h.delay, h.sound, h.opcode, h.pc, h.depth, h.returns⟩

theorem setReg (h : m.Bounded) (x : Reg) (b : UInt8) : (m.setReg x b).Bounded :=
  h.frame m.ram (m.v.set x b) m.keypad m.screen

theorem setFlagged (h : m.Bounded) (x : Reg) (b flag : UInt8) :
    (m.setFlagged x b flag).Bounded :=
  (h.setReg x b).setReg Reg.flag flag

theorem withPc (h : m.Bounded) (pc : Int) (h0 : 0 ≤ pc) (hle : pc ≤ 0x10FE) :
    { m with pc }.Bounded :=
  ⟨h.index, h.delay, h.sound, h.opcode, ⟨h0, hle⟩, h.depth, h.returns⟩

theorem withIndex (h : m.Bounded) {index : Int} (h0 : 0 ≤ index) (hle : index ≤ 0xFFFF) :
    { m with index }.Bounded :=
  ⟨⟨h0, hle⟩, h.delay, h.sound, h.opcode, h.pc, h.depth, h.returns⟩

theorem withTimers (h : m.Bounded) {delay sound : Int} (hd : 0 ≤ delay ∧ delay ≤ 0xFF)
    (hs : 0 ≤ sound ∧ sound ≤ 0xFF) : { m with delay, sound }.Bounded :=
  ⟨h.index, hd, hs, h.opcode, h.pc, h.depth, h.returns⟩

theorem skipIf (h : m.Bounded) (hpc : m.pc ≤ 0x1000) (p : Prop) [Decidable p] :
    (m.skipIf p).Bounded := by
  have h0 := h.pc.1
  unfold Machine.skipIf
  split_ifs
  · exact h.withPc (m.pc + 2) (by omega) (by omega)
  · exact h

theorem tick (h : m.Bounded) : m.tick.Bounded := by
  obtain ⟨hd0, hd⟩ := h.delay
  obtain ⟨hs0, hs⟩ := h.sound
  refine h.withTimers ⟨?_, ?_⟩ ⟨?_, ?_⟩ <;> split_ifs <;> omega

end Bounded

theorem bounded_powerOn (edge : EdgeMode) : (powerOn edge).Bounded := by
  refine ⟨?_, ?_, ?_, ?_, ?_, ?_, ?_⟩ <;> simp [powerOn, CallStack.empty, Platform.startAddress]

theorem bounded_reset (m : Machine) : m.reset.Bounded := by
  refine ⟨?_, ?_, ?_, ?_, ?_, ?_, ?_⟩ <;> simp [reset, CallStack.empty, Platform.startAddress]

/-! ## One instruction -/

variable {m : Machine} {op : Int} {b : UInt8}

theorem bounded_ret (h : m.Bounded) : (Instruction.ret.execute b m).1.Bounded := by
  have hreturns := h.returns
  have hdepth := h.depth
  rw [Instruction.execute, CallStack.pop]
  cases hitems : m.stack.items with
  | nil => exact h
  | cons a items =>
    rw [hitems] at hreturns hdepth
    obtain ⟨ha, hrest⟩ := List.forall_mem_cons.mp hreturns
    rw [List.length_cons] at hdepth
    refine ⟨h.index, h.delay, h.sound, h.opcode, ⟨?_, ?_⟩, ?_, hrest⟩
    · exact Int.le_trans (by decide) ha.1
    · exact Int.le_trans ha.2 (by decide)
    · exact Nat.le_of_succ_le hdepth

theorem bounded_call (h : m.Bounded) (hpc : 2 ≤ m.pc) (hpc' : m.pc ≤ 0x1000) {nnn : Int}
    (h0 : 0 ≤ nnn) (hle : nnn ≤ 0xFFF) : ((Instruction.call nnn).execute b m).1.Bounded := by
  rw [Instruction.execute, CallStack.push]
  by_cases hfull : 16 ≤ (m.stack.items.length : Int)
  · rw [if_pos hfull]
    exact h
  · rw [if_neg hfull]
    refine ⟨h.index, h.delay, h.sound, h.opcode, ⟨h0, ?_⟩, ?_, ?_⟩
    · exact Int.le_trans hle (by decide)
    · simp only [List.length_cons]
      omega
    · exact List.forall_mem_cons.mpr ⟨⟨hpc, hpc'⟩, h.returns⟩

theorem bounded_skipIfKey (h : m.Bounded) (hpc : m.pc ≤ 0x1000) (x : Reg) (down : Bool) :
    (m.skipIfKey x down).1.Bounded := by
  unfold skipIfKey
  split
  · exact h
  · exact h.skipIf hpc _

theorem bounded_draw (h : m.Bounded) (x y : Reg) (n : Nat) : (m.draw x y n).1.Bounded := by
  rcases draw_cases (x := x) (y := y) (n := n) h.index.1 with
    ⟨-, hd⟩ | ⟨-, -, px, py, hd⟩ | ⟨-, -, screen, hit, -, hd⟩ <;> rw [hd]
  · exact h
  · exact h
  · exact (h.frame m.ram m.v m.keypad screen).setReg _ _

theorem bounded_glyph (h : m.Bounded) (x : Reg) :
    ((Instruction.glyph x).execute b m).1.Bounded := by
  unfold Instruction.execute
  by_cases hx : 16 ≤ (m.reg x).toNat
  · simp only [if_pos hx]
    exact h
  · simp only [if_neg hx]
    have hindex : 0 ≤ (0x50 : Int) + 5 * (m.reg x).toNat ∧
        (0x50 : Int) + 5 * (m.reg x).toNat ≤ 0xFFFF := by omega
    exact h.withIndex hindex.1 hindex.2

theorem bounded_readDelay (h : m.Bounded) (x : Reg) :
    ((Instruction.readDelay x).execute b m).1.Bounded := by
  rw [Instruction.execute]
  split
  · exact h
  · exact h.setReg _ _

theorem bounded_awaitKey (h : m.Bounded) (hpc : 2 ≤ m.pc) (x : Reg) :
    ((Instruction.awaitKey x).execute b m).1.Bounded := by
  have hle := h.pc.2
  rw [Instruction.execute]
  split
  · exact h.withPc (m.pc - 2) (by omega) (by omega)
  · exact h.setReg _ _

/-- Carrying out a fetched instruction keeps the ranges, whether or not it is refused. -/
theorem bounded_execute (h : m.Bounded) (hpc : 2 ≤ m.pc) (hpc' : m.pc ≤ 0x1000)
    {i : Instruction} (hi : i.Encodes op) : (i.execute b m).1.Bounded := by
  have hbyte : ∀ x, ((m.reg x).toNat : Int) ≤ 0xFF := by
    intro x
    have hlt := (m.reg x).toNat_lt
    omega
  have hnnn0 := Opcode.nnn_nonneg op
  have hnnn := Opcode.nnn_le op
  cases i
  case native => exact h
  case clearScreen => exact h.frame m.ram m.v m.keypad m.screen.clear
  case ret => exact bounded_ret h
  case jump =>
    obtain ⟨-, rfl⟩ := hi
    exact h.withPc _ hnnn0 (by omega)
  case call =>
    obtain ⟨-, rfl⟩ := hi
    exact bounded_call h hpc hpc' hnnn0 hnnn
  case skipIfByte => exact h.skipIf hpc' _
  case skipUnlessByte => exact h.skipIf hpc' _
  case skipIfEqual => exact h.skipIf hpc' _
  case skipUnlessEqual => exact h.skipIf hpc' _
  case setIndex =>
    obtain ⟨-, rfl⟩ := hi
    exact h.withIndex hnnn0 (by omega)
  case jumpPlus =>
    obtain ⟨-, rfl⟩ := hi
    have hoffset := hbyte Reg.first
    exact h.withPc _ (by omega) (by omega)
  case draw x y n => exact bounded_draw h x y n
  case skipIfKey x => exact bounded_skipIfKey h hpc' x true
  case skipUnlessKey x => exact bounded_skipIfKey h hpc' x false
  case readDelay x => exact bounded_readDelay h x
  case awaitKey x => exact bounded_awaitKey h hpc x
  case setDelay x => exact h.withTimers ⟨by omega, hbyte x⟩ h.sound
  case setSound x => exact h.withTimers h.delay ⟨by omega, hbyte x⟩
  case addIndex x => exact h.withIndex (by omega) (by omega)
  case glyph x => exact bounded_glyph h x
  case decimal => exact h.frame _ m.v m.keypad m.screen
  case save => exact h.frame _ m.v m.keypad m.screen
  case restore => exact h.frame m.ram _ m.keypad m.screen
  case add => exact h.setFlagged _ _ _
  case subtract => exact h.setFlagged _ _ _
  case shiftRight => exact h.setFlagged _ _ _
  case subtractFrom => exact h.setFlagged _ _ _
  case shiftLeft => exact h.setFlagged _ _ _
  all_goals exact h.setReg _ _

theorem bounded_load {m' : Machine} (h : m.Bounded) {program : List UInt8}
    (hload : m.load program = .ok m') : m'.Bounded := by
  unfold load at hload
  split_ifs at hload
  split at hload
  · cases hload
  · cases hload
    exact h.frame _ m.v m.keypad m.screen

end Machine

/-! ## One action of a host -/

namespace Cpu

variable {ρ : Type} {c : Cpu ρ}

/-- Between the fetch and the instruction the program counter lies past a word of the memory. -/
theorem bounded_fetched (h : c.machine.Bounded) (hle : c.machine.pc ≤ 0xFFE) :
    c.fetched.machine.Bounded ∧ 2 ≤ c.fetched.machine.pc ∧ c.fetched.machine.pc ≤ 0x1000 := by
  have h0 := h.pc.1
  have hpc : c.fetched.machine.pc = c.machine.pc + 2 := rfl
  refine ⟨⟨h.index, h.delay, h.sound, ⟨c.machine.word_nonneg, c.machine.word_le⟩, ?_, h.depth,
    h.returns⟩, ?_, ?_⟩ <;> rw [hpc]
  · exact ⟨by omega, by omega⟩
  · omega
  · omega

theorem bounded_withKeypad (h : c.machine.Bounded) (r : Except KeypadFault Keypad) :
    (c.withKeypad r).machine.Bounded := by
  unfold withKeypad
  split
  · exact h.frame c.machine.ram c.machine.v _ c.machine.screen
  · exact h

theorem bounded_toggling (h : c.machine.Bounded) (x y : Int) :
    (c.toggling x y).machine.Bounded := by
  unfold toggling
  split
  · exact h.frame c.machine.ram c.machine.v c.machine.keypad _
  · exact h

theorem bounded_loading (h : c.machine.Bounded) (program : List UInt8) :
    (c.loading program).machine.Bounded := by
  unfold loading load
  cases hload : c.machine.load program with
  | error fault => exact h
  | ok machine => exact Machine.bounded_load h hload

variable [ByteSource ρ]

theorem bounded_carryOut (h : c.machine.Bounded) (hle : c.machine.pc ≤ 0xFFE) {i : Instruction}
    (hi : i.Encodes c.machine.word) : (c.fetched.carryOut i).1.machine.Bounded := by
  obtain ⟨hb, hpc, hpc'⟩ := bounded_fetched h hle
  exact Machine.bounded_execute hb hpc hpc' hi

theorem bounded_step (h : c.machine.Bounded) : c.step.cpu.machine.Bounded := by
  cases hh : c.halt with
  | some halt =>
    rw [step_of_halt hh]
    exact h
  | none =>
    rcases step_cases hh h.pc.1 with
      ⟨-, hs⟩ | ⟨hle, -, hs⟩ | ⟨i, f, hle, hi, -, hs⟩ | ⟨i, hle, hi, -, hs⟩ <;> rw [hs]
    · rw [failStep_machine]
      exact h
    · rw [failStep_machine]
      exact (bounded_fetched h hle).1
    · rw [failStep_machine]
      exact bounded_carryOut h hle hi
    · exact bounded_carryOut h hle hi

theorem bounded_act (h : c.machine.Bounded) (a : HostAction) : (c.act a).machine.Bounded := by
  cases a with
  | step => exact bounded_step h
  | tick => exact h.tick
  | load program => exact bounded_loading h program
  | reset => exact Machine.bounded_reset c.machine
  | press key => exact bounded_withKeypad h _
  | release key => exact bounded_withKeypad h _
  | setKeys states => exact bounded_withKeypad h _
  | clearKeys => exact bounded_withKeypad h _
  | togglePixel x y => exact bounded_toggling h x y
  | clearScreen => exact h.frame c.machine.ram c.machine.v c.machine.keypad _

/-- The ranges hold of every processor that a host can arrive at. -/
theorem Reachable.bounded (h : c.Reachable) : c.machine.Bounded := by
  induction h with
  | powerOn edge source traced => exact Machine.bounded_powerOn edge
  | act a _ ih => exact bounded_act ih a
  | @shown c _ ih => exact ih.frame c.machine.ram c.machine.v c.machine.keypad _

end Cpu

end Chip8
