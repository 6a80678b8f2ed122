import Chip8.Proofs.Bounds
import Chip8.Proofs.Session.Steps

/-!
# Chip8.Proofs.WellFormed — every reachable machine is well formed

`WellFormed` adds to the ranges of the plain numbers what the types give for the rest: the sizes of
the memory, of the register file, of the keypad and of the picture, and the contents of their cells.
`wellFormed_obeyAll` is the invariant of whole runs: whatever a host does with a session, in
whatever order, and whether or not it is refused, the machine stays well formed.
-/

namespace Chip8

/-- A machine with all its parts of the right size and all its numbers in range. -/
structure Machine.WellFormed (m : Machine) : Prop extends m.Bounded where
  memory : m.ram.cells.toList.length = 0x1000 ∧ ∀ b ∈ m.ram.cells.toList, b.toNat ≤ 0xFF
  registers : m.v.toList.length = 16 ∧ ∀ b ∈ m.v.toList, b.toNat ≤ 0xFF
  keys : m.keypad.down.toList.length = 16 ∧
    ∀ slot ∈ m.keypad.down.toList.map Bool.toNat, slot = 0 ∨ slot = 1
  /-- Four bytes a pixel, all clear or all set. -/
  picture : m.screen.bytes.size = 4 * 2048 ∧
    ∀ k < 2048, ∃ b, (b = 0x00 ∨ b = 0xFF) ∧ ∀ j < 4, m.screen.bytes[4 * k + j]? = some b

namespace Machine

theorem toNat_le (b : UInt8) : b.toNat ≤ 0xFF := by
  have hlt := b.toNat_lt
  omega

theorem pixel_uniform (s : Screen 64 32) {k : Nat} (hk : k < 2048) :
    ∃ b, (b = 0x00 ∨ b = 0xFF) ∧ ∀ j < 4, s.bytes[4 * k + j]? = some b := by
  refine ⟨if s.litAt k then 0xFF else 0, ?_, s.pictures_bytes.bytes k hk⟩
  split_ifs
  · exact Or.inr rfl
  · exact Or.inl rfl

/-- The types see to all but the plain numbers. -/
theorem Bounded.wellFormed {m : Machine} (h : m.Bounded) : m.WellFormed where
  toBounded := h
  memory := ⟨Vector.length_toList, fun b _ => toNat_le b⟩
  registers := ⟨Vector.length_toList, fun b _ => toNat_le b⟩
  keys := by
    refine ⟨Vector.length_toList, fun slot hslot => ?_⟩
    obtain ⟨down, -, rfl⟩ := List.mem_map.mp hslot
    cases down
    · exact Or.inl rfl
    · exact Or.inr rfl
  picture := ⟨Screen.size_bytes m.screen, fun _ hk => pixel_uniform m.screen hk⟩

end Machine

namespace Session

variable {ρ : Type} [ByteSource ρ]

/-- **Well-formedness of every run.**  From a machine that has just been powered on, in any edge
mode, with any source of random bytes and in any session, every sequence of commands leads to a
machine that is well formed, and so does everything that a session does from there, also in a
command that never ends. -/
theorem wellFormed_obeyAll (edge : EdgeMode) (source : ρ) (traced : Bool) {s t u : Session ρ}
    {commands : List Command}
    (hu : { s with cpu := Cpu.create (.powerOn edge) source traced }.obeyAll commands = some u)
    (ht : Moves u t) : t.cpu.machine.WellFormed := by
  have hpowered : ({ s with cpu := Cpu.create (.powerOn edge) source traced }).cpu.Reachable :=
    .powerOn edge source traced
  have hreach : t.cpu.Reachable :=
    ht.preserves reachable_of_move (reachable_obeyAll hpowered hu)
  exact hreach.bounded.wellFormed

/-- A session before its first report and picture. -/
def untouched : Session CyclicBytes where
  cpu := Cpu.create (.powerOn .linear) (.ofList []) false
  renderer := .headless none
  input := ⟨⟨[]⟩, [], 0⟩
  interval := none
  ops := 0
  nextTick := .zero
  nextDisplay := ⟨9⟩
  nextReport := ⟨9⟩
  framesSince := 0
  opsSince := 0
  journal := []

/-- A host starts a program that calls itself, runs it into the full call stack, and presses a key
that there is not. -/
def overflowing : List HostAction :=
  .load [0x22, 0x00] :: List.replicate 17 .step ++ [.press 16]

/-- The session after that. -/
def overflown : Session CyclicBytes := { untouched with cpu := untouched.cpu.actAll overflowing }

/-- When the timers have run after it, the processor has halted with a full stack, and its machine
is well formed. -/
theorem wellFormed_obeyAll_overflowing :
    ∃ u, untouched.obeyAll (overflowing.map .act ++ [.service .zero]) = some u ∧
      u.cpu.halt.isSome = true ∧ u.cpu.machine.stack.depth = 16 ∧ u.cpu.machine.WellFormed := by
  obtain ⟨hstays, hover, hhalted, hfull⟩ : (overflown.attend .zero).2 = false ∧
      Overdue (overflown.attend .zero).1.nextTick .zero 1 ∧
      (overflown.attend .zero).1.tick.cpu.halt.isSome = true ∧
      (overflown.attend .zero).1.tick.cpu.machine.stack.depth = 16 := by
    decide +kernel
  have hservice : overflown.obey (.service .zero) = some (overflown.attend .zero).1.tick := by
    rw [obey, service_of_overdue hstays hover]
    rfl
  have hobeyed : untouched.obeyAll (overflowing.map .act ++ [.service .zero]) =
      some (overflown.attend .zero).1.tick := by
    rw [obeyAll_acts]
    exact obeyAll_cons.mpr ⟨_, hservice, obeyAll_nil.mpr rfl⟩
  have hmade : untouched =
      { untouched with cpu := Cpu.create (.powerOn .linear) (.ofList []) false } := rfl
  have hpowered := hobeyed
  rw [hmade] at hpowered
  have hwell := wellFormed_obeyAll .linear (CyclicBytes.ofList []) false hpowered .refl
  exact ⟨_, hobeyed, hhalted, hfull, hwell⟩

end Session

end Chip8
