import Chip8.Cpu

/-!
# Chip8.Proofs.Reachable — the processors that a host can arrive at

A host steps and resets a processor, lets its timers run, loads programs, moves keys, and toggles
or clears the screen from outside; and it takes the picture for a renderer, which lowers the mark of
a changed picture.  A request that is refused leaves everything as it was.  `Reachable` is what such
a host arrives at from a processor on a machine that has just been powered on.
-/

namespace Chip8

namespace Keypad

theorem key?_val (k : Key) : key? k.val = .ok k := by
  rw [key?, dif_pos (by omega)]
  rfl

theorem press_key (p : Keypad) (k : Key) : p.press k.val = .ok (p.move k true) := by
  rw [press, key?_val]

theorem release_key (p : Keypad) (k : Key) : p.release k.val = .ok (p.move k false) := by
  rw [release, key?_val]

end Keypad

/-- What a host can do to a processor, apart from taking the picture. -/
inductive HostAction where
  | step
  | tick
  | load (program : List UInt8)
  | reset
  | press (key : Int)
  | release (key : Int)
  | setKeys (states : List Bool)
  | clearKeys
  | togglePixel (x y : Int)
  | clearScreen

/-- What happens while a program is played: steps, steps of the timers, and moves of keys. -/
def HostAction.InPlay : HostAction → Prop
  | step | tick | press _ | release _ | setKeys _ | clearKeys => True
  | load _ | reset | togglePixel _ _ | clearScreen => False

namespace Cpu

variable {ρ : Type}

/-- The processor with the keypad that a request leads to; a refused request leaves the old one. -/
def withKeypad (c : Cpu ρ) (r : Except KeypadFault Keypad) : Cpu ρ :=
  match r with
  | .ok keypad => { c with machine := { c.machine with keypad } }
  | .error _ => c

theorem withKeypad_eq (c : Cpu ρ) (r : Except KeypadFault Keypad) :
    ∃ keypad, c.withKeypad r = { c with machine := { c.machine with keypad } } := by
  cases r with
  | ok keypad => exact ⟨keypad, rfl⟩
  | error fault => exact ⟨c.machine.keypad, rfl⟩

/-- The processor after one point of its screen has been toggled, if it could be. -/
def toggling (c : Cpu ρ) (x y : Int) : Cpu ρ :=
  match c.machine.screen.toggle x y with
  | .ok (screen, _) => { c with machine := { c.machine with screen } }
  | .error _ => c

/-- The processor after a program has been loaded, if it could be. -/
def loading (c : Cpu ρ) (program : List UInt8) : Cpu ρ :=
  match c.load program with
  | .ok c' => c'
  | .error _ => c

/-- The processor once its picture has been taken. -/
def shown (c : Cpu ρ) : Cpu ρ :=
  { c with machine := { c.machine with screen := { c.machine.screen with changed := false } } }

variable [ByteSource ρ]

/-- The processor after the host has done something to it. -/
def act (c : Cpu ρ) : HostAction → Cpu ρ
  | .step => c.step.cpu
  | .tick => c.tick
  | .load program => c.loading program
  | .reset => c.reset
  | .press key => c.withKeypad (c.machine.keypad.press key)
  | .release key => c.withKeypad (c.machine.keypad.release key)
  | .setKeys states => c.withKeypad (c.machine.keypad.setAll states)
  | .clearKeys => c.withKeypad (.ok .released)
  | .togglePixel x y => c.toggling x y
  | .clearScreen => { c with machine := { c.machine with screen := c.machine.screen.clear } }

/-- What is played between the steps is a step of the timers, or touches the keypad only. -/
theorem act_of_inPlay {c : Cpu ρ} {a : HostAction} (hplay : a.InPlay) (hstep : a ≠ .step) :
    a = .tick ∨ ∃ keypad, c.act a = { c with machine := { c.machine with keypad } } := by
  cases a with
  | step => exact absurd rfl hstep
  | tick => exact Or.inl rfl
  | press key => exact Or.inr (c.withKeypad_eq _)
  | release key => exact Or.inr (c.withKeypad_eq _)
  | setKeys states => exact Or.inr (c.withKeypad_eq _)
  | clearKeys => exact Or.inr ⟨.released, rfl⟩
  | load program => exact hplay.elim
  | reset => exact hplay.elim
  | togglePixel x y => exact hplay.elim
  | clearScreen => exact hplay.elim

/-- The processor after some actions. -/
def actAll (c : Cpu ρ) (actions : List HostAction) : Cpu ρ := actions.foldl act c

/-- The processors that a host can arrive at. -/
inductive Reachable : Cpu ρ → Prop where
  | powerOn (edge : EdgeMode) (source : ρ) (traced : Bool) :
      Reachable (create (.powerOn edge) source traced)
  | act {c : Cpu ρ} (a : HostAction) : Reachable c → Reachable (c.act a)
  | shown {c : Cpu ρ} : Reachable c → Reachable c.shown

theorem Reachable.actAll {c : Cpu ρ} (h : c.Reachable) (actions : List HostAction) :
    (c.actAll actions).Reachable := by
  induction actions generalizing c with
  | nil => exact h
  | cons a actions ih => exact ih (h.act a)

end Cpu

end Chip8
