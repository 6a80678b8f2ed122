import Chip8.Proofs.Plotting
import Chip8.Proofs.Reachable
import Chip8.Proofs.Stepping

/-!
# Chip8.Proofs.Repainting — whatever alters the picture raises the mark

A renderer goes by the mark of a changed picture.  No instruction (`kept_execute`), no step, whether
it succeeds or halts (`kept_step`), and nothing else that a host does to a processor (`kept_act`)
alters a pixel without raising the mark or lowers the mark: a screen whose mark is down afterwards
is the screen as it was.
-/

namespace Chip8

/-! ## Instructions -/

open Screen (Kept)

namespace Machine

theorem kept_draw (m : Machine) (x y : Reg) (n : Nat) :
    Kept m.screen (m.draw x y n).1.screen := by
  unfold draw
  simp only
  split
  · exact Kept.refl m.screen
  · split
    · rename_i hplot
      exact Screen.kept_of_plot hplot
    · rename_i hplot
      exact Screen.kept_of_plot hplot

theorem skipIf_screen (m : Machine) (p : Prop) [Decidable p] : (m.skipIf p).screen = m.screen := by
  unfold skipIf
  split_ifs <;> rfl

theorem skipIfKey_screen (m : Machine) (x : Reg) (down : Bool) :
    (m.skipIfKey x down).1.screen = m.screen := by
  unfold skipIfKey
  split
  · rfl
  · exact skipIf_screen m _

/-- Only drawing and clearing touch the screen, and both see to the mark. -/
theorem kept_execute (m : Machine) (b : UInt8) (i : Instruction) :
    Kept m.screen (i.execute b m).1.screen := by
  cases i
  case clearScreen => exact Screen.kept_clear m.screen
  case draw x y n => exact kept_draw m x y n
  case skipIfKey x => exact Kept.of_eq (skipIfKey_screen m x true)
  case skipUnlessKey x => exact Kept.of_eq (skipIfKey_screen m x false)
  case glyph x =>
    unfold Instruction.execute
    by_cases hx : 16 ≤ (m.reg x).toNat
    · simp only [if_pos hx]
      exact Kept.refl m.screen
    · simp only [if_neg hx]
      exact Kept.refl m.screen
  case ret | call | readDelay | awaitKey =>
    rw [Instruction.execute]
    split
    · exact Kept.refl m.screen
    · exact Kept.refl m.screen
  case skipIfByte | skipUnlessByte | skipIfEqual | skipUnlessEqual =>
    apply Kept.of_eq
    apply skipIf_screen
  all_goals exact Kept.refl m.screen

end Machine

/-! ## Actions of a host -/

namespace Cpu

variable {ρ : Type}

theorem kept_withKeypad (c : Cpu ρ) (r : Except KeypadFault Keypad) :
    Kept c.machine.screen (c.withKeypad r).machine.screen := by
  unfold withKeypad
  split
  · exact Kept.refl c.machine.screen
  · exact Kept.refl c.machine.screen

theorem kept_toggling (c : Cpu ρ) (x y : Int) :
    Kept c.machine.screen (c.toggling x y).machine.screen := by
  unfold toggling
  split
  · rename_i htoggle
    exact Screen.kept_of_toggle htoggle
  · exact Kept.refl c.machine.screen

theorem kept_loading (c : Cpu ρ) (program : List UInt8) :
    Kept c.machine.screen (c.loading program).machine.screen := by
  unfold loading load Machine.load
  by_cases hlong : Platform.maxProgramSize < program.length
  · rw [if_pos hlong]
    exact Kept.refl c.machine.screen
  · rw [if_neg hlong]
    cases c.machine.ram.writeBlock Platform.startAddress program with
    | error fault => exact Kept.refl c.machine.screen
    | ok ram => exact Kept.refl c.machine.screen

variable [ByteSource ρ]

theorem kept_step (c : Cpu ρ) : Kept c.machine.screen c.step.cpu.machine.screen := by
  rcases c.step_machine with hm | ⟨op, hm | ⟨i, b, hm⟩⟩
  · exact Kept.of_eq (by rw [hm])
  · exact Kept.of_eq (by rw [hm]; rfl)
  · rw [hm]
    exact (c.enter op).machine.kept_execute b i

/-- Whatever a host does, a screen whose mark is down is the screen it was. -/
theorem kept_act (c : Cpu ρ) (a : HostAction) :
    Kept c.machine.screen (c.act a).machine.screen := by
  cases a with
  | step => exact c.kept_step
  | tick => exact Kept.refl c.machine.screen
  | load program => exact c.kept_loading program
  | reset => exact Screen.kept_clear c.machine.screen
  | press key => exact c.kept_withKeypad _
  | release key => exact c.kept_withKeypad _
  | setKeys states => exact c.kept_withKeypad _
  | clearKeys => exact c.kept_withKeypad _
  | togglePixel x y => exact c.kept_toggling x y
  | clearScreen => exact Screen.kept_clear c.machine.screen

end Cpu

end Chip8
