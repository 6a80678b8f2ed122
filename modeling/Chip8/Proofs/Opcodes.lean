import Chip8.Instruction
import Mathlib.Tactic.SplitIfs

/-!
# Chip8.Proofs.Opcodes — the opcode table

`Encodes op i` is the table by which an opcode asks for the instruction `i`: the family, the digits
that tell it apart within its family, and the operands.  Decoding is exactly this table
(`decode_eq_some_iff`), and an opcode that it refuses is one of the four gaps in the families `5`,
`8`, `9`, `E` and `F` (`decode_eq_none_iff`).
-/

namespace Chip8

namespace Opcode

theorem family_lt (op : Int) : family op < 16 := by
  unfold family
  omega

theorem n_lt (op : Int) : n op < 16 := by
  unfold n
  omega

theorem nnn_nonneg (op : Int) : 0 ≤ nnn op := by
  unfold nnn
  omega

theorem nnn_le (op : Int) : nnn op ≤ 0xFFF := by
  unfold nnn
  omega

/-- An opcode of a family that is told apart further, in a place where the family has nothing. -/
def Unknown (op : Int) : Prop :=
  family op = 0x5 ∧ n op ≠ 0 ∨
  family op = 0x8 ∧ n op ∉ [0x0, 0x1, 0x2, 0x3, 0x4, 0x5, 0x6, 0x7, 0xE] ∨
  family op = 0x9 ∧ n op ≠ 0 ∨
  family op = 0xE ∧ kk op ∉ [0x9E, 0xA1] ∨
  family op = 0xF ∧ kk op ∉ [0x07, 0x0A, 0x15, 0x18, 0x1E, 0x29, 0x33, 0x55, 0x65]

end Opcode

namespace Instruction

open Opcode (family)

/-- The table of opcodes: `op` asks for the instruction. -/
def Encodes (op : Int) : Instruction → Prop
  | native => family op = 0x0 ∧ op ≠ 0x00E0 ∧ op ≠ 0x00EE
  | clearScreen => op = 0x00E0
  | ret => op = 0x00EE
  | jump nnn => family op = 0x1 ∧ nnn = Opcode.nnn op
  | call nnn => family op = 0x2 ∧ nnn = Opcode.nnn op
  | skipIfByte x kk => family op = 0x3 ∧ x = Opcode.x op ∧ kk = UInt8.ofNat (Opcode.kk op)
  | skipUnlessByte x kk => family op = 0x4 ∧ x = Opcode.x op ∧ kk = UInt8.ofNat (Opcode.kk op)
  | skipIfEqual x y => family op = 0x5 ∧ Opcode.n op = 0 ∧ x = Opcode.x op ∧ y = Opcode.y op
  | loadByte x kk => family op = 0x6 ∧ x = Opcode.x op ∧ kk = UInt8.ofNat (Opcode.kk op)
  | addByte x kk => family op = 0x7 ∧ x = Opcode.x op ∧ kk = UInt8.ofNat (Opcode.kk op)
  | copy x y => family op = 0x8 ∧ Opcode.n op = 0x0 ∧ x = Opcode.x op ∧ y = Opcode.y op
  | or x y => family op = 0x8 ∧ Opcode.n op = 0x1 ∧ x = Opcode.x op ∧ y = Opcode.y op
  | and x y => family op = 0x8 ∧ Opcode.n op = 0x2 ∧ x = Opcode.x op ∧ y = Opcode.y op
  | xor x y => family op = 0x8 ∧ Opcode.n op = 0x3 ∧ x = Opcode.x op ∧ y = Opcode.y op
  | add x y => family op = 0x8 ∧ Opcode.n op = 0x4 ∧ x = Opcode.x op ∧ y = Opcode.y op
  | subtract x y => family op = 0x8 ∧ Opcode.n op = 0x5 ∧ x = Opcode.x op ∧ y = Opcode.y op
  | shiftRight x => family op = 0x8 ∧ Opcode.n op = 0x6 ∧ x = Opcode.x op
  | subtractFrom x y => family op = 0x8 ∧ Opcode.n op = 0x7 ∧ x = Opcode.x op ∧ y = Opcode.y op
  | shiftLeft x => family op = 0x8 ∧ Opcode.n op = 0xE ∧ x = Opcode.x op
  | skipUnlessEqual x y => family op = 0x9 ∧ Opcode.n op = 0 ∧ x = Opcode.x op ∧ y = Opcode.y op
  | setIndex nnn => family op = 0xA ∧ nnn = Opcode.nnn op
  | jumpPlus nnn => family op = 0xB ∧ nnn = Opcode.nnn op
  | random x kk => family op = 0xC ∧ x = Opcode.x op ∧ kk = UInt8.ofNat (Opcode.kk op)
  | draw x y n => family op = 0xD ∧ x = Opcode.x op ∧ y = Opcode.y op ∧ n = Opcode.n op
  | skipIfKey x => family op = 0xE ∧ Opcode.kk op = 0x9E ∧ x = Opcode.x op
  | skipUnlessKey x => family op = 0xE ∧ Opcode.kk op = 0xA1 ∧ x = Opcode.x op
  | readDelay x => family op = 0xF ∧ Opcode.kk op = 0x07 ∧ x = Opcode.x op
  | awaitKey x => family op = 0xF ∧ Opcode.kk op = 0x0A ∧ x = Opcode.x op
  | setDelay x => family op = 0xF ∧ Opcode.kk op = 0x15 ∧ x = Opcode.x op
  | setSound x => family op = 0xF ∧ Opcode.kk op = 0x18 ∧ x = Opcode.x op
  | addIndex x => family op = 0xF ∧ Opcode.kk op = 0x1E ∧ x = Opcode.x op
  | glyph x => family op = 0xF ∧ Opcode.kk op = 0x29 ∧ x = Opcode.x op
  | decimal x => family op = 0xF ∧ Opcode.kk op = 0x33 ∧ x = Opcode.x op
  | save x => family op = 0xF ∧ Opcode.kk op = 0x55 ∧ x = Opcode.x op
  | restore x => family op = 0xF ∧ Opcode.kk op = 0x65 ∧ x = Opcode.x op

/-! ## Families that are told apart further -/

theorem encodes_ofSystem {op : Int} (hf : family op = 0x0) : (ofSystem op).Encodes op := by
  unfold ofSystem
  split_ifs with h1 h2
  · exact h1
  · exact h2
  · exact ⟨hf, h1, h2⟩

theorem encodes_of_ofArithmetic {op : Int} {i : Instruction} (hf : family op = 0x8)
    (h : ofArithmetic (Opcode.x op) (Opcode.y op) (Opcode.n op) = some i) : i.Encodes op := by
  unfold ofArithmetic at h
  split at h <;> cases h
  all_goals rename_i hn
  all_goals first | exact ⟨hf, hn, rfl, rfl⟩ | exact ⟨hf, hn, rfl⟩

theorem encodes_of_ofKeys {op : Int} {i : Instruction} (hf : family op = 0xE)
    (h : ofKeys (Opcode.x op) (Opcode.kk op) = some i) : i.Encodes op := by
  unfold ofKeys at h
  split at h <;> cases h
  all_goals rename_i hk; exact ⟨hf, hk, rfl⟩

theorem encodes_of_ofDevices {op : Int} {i : Instruction} (hf : family op = 0xF)
    (h : ofDevices (Opcode.x op) (Opcode.kk op) = some i) : i.Encodes op := by
  unfold ofDevices at h
  split at h <;> cases h
  all_goals rename_i hk; exact ⟨hf, hk, rfl⟩

theorem ofArithmetic_eq_none_iff (x y : Reg) (n : Nat) :
    ofArithmetic x y n = none ↔ n ∉ [0x0, 0x1, 0x2, 0x3, 0x4, 0x5, 0x6, 0x7, 0xE] := by
  unfold ofArithmetic
  split <;> simp_all

theorem ofKeys_eq_none_iff (x : Reg) (kk : Nat) : ofKeys x kk = none ↔ kk ∉ [0x9E, 0xA1] := by
  unfold ofKeys
  split <;> simp_all

theorem ofDevices_eq_none_iff (x : Reg) (kk : Nat) :
    ofDevices x kk = none ↔
      kk ∉ [0x07, 0x0A, 0x15, 0x18, 0x1E, 0x29, 0x33, 0x55, 0x65] := by
  unfold ofDevices
  split <;> simp_all

/-! ## The whole table -/

theorem encodes_of_decode {op : Int} {i : Instruction} (h : decode op = some i) : i.Encodes op := by
  unfold decode at h
  split at h
  case h_1 hf => cases h; exact encodes_ofSystem hf
  case h_6 hf =>
    dsimp only at h
    split_ifs at h with hn
    cases h
    exact ⟨hf, hn, rfl, rfl⟩
  case h_9 hf => exact encodes_of_ofArithmetic hf h
  case h_10 hf =>
    dsimp only at h
    split_ifs at h with hn
    cases h
    exact ⟨hf, hn, rfl, rfl⟩
  case h_14 hf => cases h; exact ⟨hf, rfl, rfl, rfl⟩
  case h_15 hf => exact encodes_of_ofKeys hf h
  case h_16 =>
    simp only [imp_false] at *
    have hlt := Opcode.family_lt op
    exact encodes_of_ofDevices (by omega) h
  all_goals cases h; rename_i hf
  all_goals first | exact ⟨hf, rfl⟩ | exact ⟨hf, rfl, rfl⟩

theorem decode_of_encodes {op : Int} {i : Instruction} (h : i.Encodes op) : decode op = some i := by
  cases i <;> simp only [Encodes] at h
  case clearScreen => subst h; rfl
  case ret => subst h; rfl
  case native => simp [decode, ofSystem, h]
  all_goals simp [decode, ofArithmetic, ofKeys, ofDevices, h]

/-- Decoding is the table. -/
theorem decode_eq_some_iff {op : Int} {i : Instruction} : decode op = some i ↔ i.Encodes op :=
  ⟨encodes_of_decode, decode_of_encodes⟩

/-- No opcode stands in two lines of the table. -/
theorem encodes_unique {op : Int} {i j : Instruction} (hi : i.Encodes op) (hj : j.Encodes op) :
    i = j := by
  have hij := (decode_of_encodes hi).symm.trans (decode_of_encodes hj)
  exact Option.some.inj hij

/-- What decoding refuses are the gaps of the table. -/
theorem decode_eq_none_iff {op : Int} : decode op = none ↔ Opcode.Unknown op := by
  unfold decode Opcode.Unknown
  split
  case h_9 hf => simp [hf, ofArithmetic_eq_none_iff]
  case h_15 hf => simp [hf, ofKeys_eq_none_iff]
  case h_16 =>
    simp only [imp_false] at *
    have hlt := Opcode.family_lt op
    have hf : family op = 0xF := by omega
    simp [hf, ofDevices_eq_none_iff]
  all_goals rename_i hf; simp [hf]

theorem not_encodes_of_unknown {op : Int} {i : Instruction} (h : Opcode.Unknown op) :
    ¬ i.Encodes op := by
  intro hi
  have hsome := decode_of_encodes hi
  rw [decode_eq_none_iff.mpr h] at hsome
  cases hsome

end Instruction

end Chip8
