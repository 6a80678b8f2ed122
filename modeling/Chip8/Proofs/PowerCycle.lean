import Chip8.Proofs.Alike

/-!
# Chip8.Proofs.PowerCycle — a reset is as good as a new machine

A reset clears the parts of a machine one by one.  Together they leave what powering on leaves,
whatever was in the machine before (`Machine.reset_eq_powerOn`), so a processor that is reset is one
that has just been made for a new machine (`Cpu.reset_eq_create`).  No later history tells the two
apart (`Cpu.reset_power_cycle`).
-/

namespace Chip8

open Platform
open ByteSource (SameBytes)

namespace Machine

/-- The font goes in without a refusal. -/
theorem writeBlock_fontSet (ram : Memory 0x1000) :
    ram.writeBlock fontAddress fontSet = .ok (withFont ram) := by
  have hlength : fontSet.length = 80 := rfl
  rw [Memory.writeBlock, if_pos (by decide), if_pos (by rw [hlength]; decide)]
  rfl

theorem clear_ram (m : Machine) : m.ram.clear = (.blank 0x1000, none) :=
  m.ram.clear_eq_blank (by decide) (by decide)

theorem reset_eq_powerOn (m : Machine) : m.reset = powerOn m.screen.edge := by
  have hregisters : (m.v.map fun _ => (0 : UInt8)) = Vector.replicate 16 0 := by
    apply Vector.ext
    intro k hk
    simp
  unfold reset powerOn
  rw [clear_ram, hregisters]
  rfl

@[simp] theorem powerOn_edge (edge : EdgeMode) : (powerOn edge).screen.edge = edge := rfl

/-- After powering on, the memory holds the font and otherwise zeros. -/
theorem byteAt_powerOn (edge : EdgeMode) (a : Int) :
    (powerOn edge).ram.byteAt a =
      if 0x50 ≤ a ∧ a < 0xA0 then fontSet[(a - 0x50).toNat]?.getD 0 else 0 := by
  have hlength : fontSet.length = 80 := rfl
  have hstart : fontAddress.toNat = 0x50 := rfl
  by_cases hin : Memory.Inside 0x1000 a
  · have hcell : a = ((a.toNat : Nat) : Int) := by omega
    have hblank := Memory.byteAt_blank 0x1000 a
    rw [hcell, Memory.byteAt_natCast _ (by omega)] at hblank ⊢
    show (Cells.overwrite (Memory.blank 0x1000).cells fontAddress.toNat fontSet)[a.toNat] = _
    rw [Cells.getElem_overwrite, hblank, hstart, ← hcell]
    by_cases hfont : 0x50 ≤ a ∧ a < 0xA0
    · have hsub : a.toNat - 0x50 = (a - 0x50).toNat := by omega
      rw [if_pos (by omega), if_pos hfont, hsub]
    · rw [if_neg hfont]
      split_ifs
      · rw [List.getElem?_eq_none (by omega)]
        rfl
      · rfl
  · rw [Memory.byteAt, dif_neg hin, if_neg (by omega)]

/-- The program begins with an opcode that asks for nothing. -/
theorem word_powerOn (edge : EdgeMode) : (powerOn edge).word = 0 := by
  have hpc : (powerOn edge).pc = 0x200 := rfl
  rw [word, hpc, byteAt_powerOn, byteAt_powerOn]
  rfl

end Machine

namespace Cpu

variable {ρ σ : Type}

@[simp] theorem create_machine (m : Machine) (source : ρ) (traced : Bool) :
    (create m source traced).machine = m := rfl

@[simp] theorem create_source (m : Machine) (source : ρ) (traced : Bool) :
    (create m source traced).source = source := rfl

@[simp] theorem create_traced (m : Machine) (source : ρ) (traced : Bool) :
    (create m source traced).traced = traced := rfl

theorem reset_eq_create (c : Cpu ρ) :
    c.reset = create (.powerOn c.machine.screen.edge) c.source c.traced := by
  unfold reset create
  rw [Machine.reset_eq_powerOn]

theorem reset_reset (c : Cpu ρ) : c.reset.reset = c.reset := by
  rw [reset_eq_create c, reset_eq_create]
  simp

variable [ByteSource ρ] [ByteSource σ]

theorem reachable_reset (c : Cpu ρ) : c.reset.Reachable := by
  rw [reset_eq_create]
  exact .powerOn _ _ _

/-- **A reset is a power cycle.**  Whatever state a processor and its machine are in, a reset leaves
a processor that has just been made for a machine that has just been powered on in the same edge
mode: the memory holds the font and otherwise zeros.  A second reset changes nothing.  A new
processor whose source hands out the bytes that are left, traced or not, is from then on always in
the same state as the one that was reset, and refuses the same requests for the same reasons. -/
theorem reset_power_cycle (c : Cpu ρ) :
    c.reset = create (.powerOn c.machine.screen.edge) c.source c.traced ∧
      (∀ a, c.reset.machine.ram.byteAt a =
        if 0x50 ≤ a ∧ a < 0xA0 then fontSet[(a - 0x50).toNat]?.getD 0 else 0) ∧
      c.reset.reset = c.reset ∧
      ∀ (source : σ) (traced : Bool), SameBytes c.source source →
        ∀ (actions : List HostAction) (next : HostAction),
          Alike (c.reset.actAll actions)
              ((create (.powerOn c.machine.screen.edge) source traced).actAll actions) ∧
            (c.reset.actAll actions).refusal? next =
              ((create (.powerOn c.machine.screen.edge) source traced).actAll actions).refusal?
                next := by
  refine ⟨c.reset_eq_create, fun a => ?_, c.reset_reset, ?_⟩
  · rw [reset_eq_create]
    exact Machine.byteAt_powerOn _ a
  · intro source traced hbytes actions next
    have hr := c.reachable_reset
    have hnew : Alike c.reset (create (.powerOn c.machine.screen.edge) source traced) := by
      rw [reset_eq_create]
      refine ⟨rfl, rfl, rfl, ?_⟩
      simpa using hbytes
    have hlater := hnew.actAll hr actions
    exact ⟨hlater, (hlater.act (hr.actAll actions).bounded.pc.1 next).2⟩

/-- A processor that has drawn a random byte, stored it over the font, and halted at `FFFF`. -/
def haltedOverFont : Cpu CyclicBytes :=
  (create (.powerOn .wrap) (.ofList [0xAB, 0xCD]) false).actAll
    [.load [0xC0, 0xFF, 0xA0, 0x50, 0xF0, 0x55, 0xFF, 0xFF], .step, .step, .step, .step]

/-- Its reset brings the font back and forgets the halt, and it goes on with the second byte as a
new processor does that is given the bytes that are left. -/
theorem reset_power_cycle_halted :
    haltedOverFont.halt ≠ none ∧ haltedOverFont.machine.ram.byteAt 0x50 = 0xAB ∧
      haltedOverFont.reset.halt = none ∧ haltedOverFont.reset.machine.ram.byteAt 0x50 = 0xF0 ∧
      (haltedOverFont.reset.actAll [.load [0xC0, 0xFF], .step]).machine.reg 0 = 0xCD := by
  obtain ⟨hsome, hover, hedge, hdrawn⟩ : haltedOverFont.halt.isSome = true ∧
      haltedOverFont.machine.ram.byteAt 0x50 = 0xAB ∧
      haltedOverFont.machine.screen.edge = .wrap ∧
      ((create (.powerOn .wrap) haltedOverFont.source true).actAll
        [.load [0xC0, 0xFF], .step]).machine.reg 0 = 0xCD := by
    decide +kernel
  obtain ⟨hreset, hmemory, -, hlater⟩ :=
    reset_power_cycle (σ := CyclicBytes) haltedOverFont
  obtain ⟨halike, -⟩ := hlater haltedOverFont.source true (fun _ => rfl)
    [.load [0xC0, 0xFF], .step] .step
  rw [hedge] at halike
  refine ⟨?_, hover, ?_, hmemory 0x50, ?_⟩
  · intro hnone
    rw [hnone] at hsome
    cases hsome
  · rw [hreset]
    rfl
  · rw [halike.machine]
    exact hdrawn

end Cpu

end Chip8
