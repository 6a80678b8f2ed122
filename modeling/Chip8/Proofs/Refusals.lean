import Chip8.Cpu
import Chip8.Proofs.Sprites

/-!
# Chip8.Proofs.Refusals — which instructions are refused

`Refused` lists the instructions that a machine refuses, by the cause of the halt that follows: nine
of the thirty-five can be refused at all, and the drawing of a sprite for two different causes.
Carrying out an instruction fails exactly for these causes and for no other (`execute_accounted`).
A refused instruction changes nothing, but for the three that go through a block of memory cell by
cell (`execute_of_fault`).
-/

namespace Chip8

/-- Why a processor halts: because of the opcode itself, or because a part of the machine refuses
by its own rules. -/
inductive HaltCause where
  | opcode
  | memory
  | stack
  | keypad
  | screen
  deriving DecidableEq

namespace Fault

/-- The cause of the halt that a fault brings about; none for the refusals of cells, and for those
of memories and screens that cannot be made, which no step foresees. -/
def cause? : Fault → Option HaltCause
  | unknownOpcode | noGlyph _ => some .opcode
  | memory (.outside ..) => some .memory
  | stack _ => some .stack
  | keypad _ => some .keypad
  | screen (.outside ..) | screen (.unknownEdge _) => some .screen
  | memory _ | screen _ | register _ => none

theorem halts_of_cause {f : Fault} {k : HaltCause} (h : f.cause? = some k) : f.halts = true := by
  cases f <;> first | rfl | cases h

end Fault

namespace Keypad

theorem isDown_of_lt (p : Keypad) {k : Nat} (h : k < 16) : p.isDown k = .ok p.down[k] := by
  have hkey : key? k = .ok ⟨k, h⟩ := by
    rw [key?, dif_pos (by omega)]
    rfl
  rw [isDown, hkey]
  rfl

theorem isDown_of_le (p : Keypad) {k : Nat} (h : 16 ≤ k) : p.isDown k = .error (.noSuchKey k) := by
  have hkey : key? k = .error (.noSuchKey k) := by rw [key?, dif_neg (by omega)]
  rw [isDown, hkey]

end Keypad

namespace Instruction

variable {m : Machine} {b : UInt8} {i : Instruction} {k : HaltCause}

/-- The machine refuses the instruction for the cause `k`. -/
def Refused (m : Machine) : Instruction → HaltCause → Prop
  | ret, .stack => m.stack.items = []
  | call _, .stack => 16 ≤ m.stack.items.length
  | glyph x, .opcode => 16 ≤ (m.reg x).toNat
  | skipIfKey x, .keypad => 16 ≤ (m.reg x).toNat
  | skipUnlessKey x, .keypad => 16 ≤ (m.reg x).toNat
  | decimal _, .memory => 0xFFF < m.index + 2
  | save x, .memory => 0xFFF < m.index + x.val
  | restore x, .memory => 0xFFF < m.index + x.val
  | draw _ _ n, .memory => ¬ m.SpriteInside n
  | draw x y n, .screen => m.SpriteInside n ∧ m.Overdraws x y n
  | _, _ => False

/-! ## Faults of the single instructions -/

theorem ret_fault (m : Machine) (b : UInt8) :
    (ret.execute b m).2 = if m.stack.items = [] then some (.stack .underflow) else none := by
  rw [execute, CallStack.pop]
  cases m.stack.items <;> rfl

theorem call_fault (m : Machine) (b : UInt8) (nnn : Int) :
    ((call nnn).execute b m).2 =
      if 16 ≤ m.stack.items.length then some (.stack (.overflow 16)) else none := by
  rw [execute, CallStack.push]
  by_cases h : 16 ≤ m.stack.items.length
  · rw [if_pos (by omega), if_pos h]
  · rw [if_neg (by omega), if_neg h]

theorem glyph_fault (m : Machine) (b : UInt8) (x : Reg) :
    ((glyph x).execute b m).2 =
      if 16 ≤ (m.reg x).toNat then some (.noGlyph (m.reg x)) else none := by
  unfold execute
  by_cases h : 16 ≤ (m.reg x).toNat
  · simp only [if_pos h]
  · simp only [if_neg h]

theorem skipIfKey_fault (m : Machine) (x : Reg) (down : Bool) :
    (m.skipIfKey x down).2 =
      if 16 ≤ (m.reg x).toNat then some (.keypad (.noSuchKey (m.reg x).toNat)) else none := by
  unfold Machine.skipIfKey
  by_cases h : 16 ≤ (m.reg x).toNat
  · rw [Keypad.isDown_of_le m.keypad h, if_pos h]
  · rw [Keypad.isDown_of_lt m.keypad (by omega), if_neg h]

theorem storeAtIndex_fault (hi : 0 ≤ m.index) {bytes : List UInt8} (hne : bytes ≠ []) :
    (m.storeAtIndex bytes).2 =
      if 0xFFF < m.index + (bytes.length - 1) then
        some (.memory (Memory.refusal 0x1000 (max m.index 0x1000))) else none := by
  rw [Machine.storeAtIndex, Memory.storeEach_fault _ hi]
  simp only [hne, false_or]
  by_cases h : m.index + bytes.length ≤ 0x1000
  · rw [if_pos h, if_neg (by omega)]
    rfl
  · rw [if_neg h, if_pos (by omega)]
    rfl

theorem restore_fault (hi : 0 ≤ m.index) (x : Reg) :
    (m.restore x).2 =
      if 0xFFF < m.index + x.val then
        some (.memory (Memory.refusal 0x1000 (max m.index 0x1000))) else none := by
  rw [Machine.restore, Memory.readEach_fault _ hi]
  by_cases h : 0xFFF < m.index + x.val
  · rw [if_neg (by omega), if_pos h]
    rfl
  · rw [if_pos (by omega), if_neg h]
    rfl

theorem savedBytes_length (m : Machine) (x : Reg) :
    (m.v.toList.take (x.val + 1)).length = x.val + 1 := by
  rw [List.length_take, Vector.length_toList]
  omega

theorem getElem?_savedBytes (m : Machine) {x r : Reg} (hr : r ≤ x) :
    (m.v.toList.take (x.val + 1))[r.val]? = some (m.reg r) := by
  have hlt : r.val < x.val + 1 := Nat.lt_succ_of_le hr
  rw [List.getElem?_take_of_lt hlt, Vector.getElem?_toList]
  exact Vector.getElem?_eq_getElem r.isLt

theorem byte?_of_bounds {value : Int} (h0 : 0 ≤ value) (h : value ≤ 0xFF) :
    Cells.byte? value = .ok (UInt8.ofNat value.toNat) := by
  rw [Cells.byte?, if_pos (by omega)]

/-! ## Faults and their causes -/

/-- The instruction is carried out and nothing refuses it, or its fault has the one cause for which
the machine refuses it. -/
def Accounted (m : Machine) (b : UInt8) (i : Instruction) : Prop :=
  ((i.execute b m).2 = none ∧ ∀ k, ¬ i.Refused m k) ∨
    ∃ f k, (i.execute b m).2 = some f ∧ f.cause? = some k ∧ ∀ k', i.Refused m k' ↔ k' = k

/-- An instruction that one condition alone refuses, for one cause. -/
theorem accounted_of_ite {P : Prop} [Decidable P] {f : Fault}
    (h : (i.execute b m).2 = if P then some f else none) (hf : f.cause? = some k)
    (hr : ∀ k', i.Refused m k' ↔ P ∧ k' = k) : i.Accounted m b := by
  by_cases hP : P
  · rw [if_pos hP] at h
    exact Or.inr ⟨f, k, h, hf, fun k' => (hr k').trans (and_iff_right hP)⟩
  · rw [if_neg hP] at h
    exact Or.inl ⟨h, fun k' hk' => hP ((hr k').mp hk').1⟩

/-- An instruction that nothing refuses. -/
theorem accounted_of_done (h : (i.execute b m).2 = none) (hr : ∀ k, ¬ i.Refused m k) :
    i.Accounted m b :=
  Or.inl ⟨h, hr⟩

theorem draw_accounted (hi : 0 ≤ m.index) (b : UInt8) (x y : Reg) (n : Nat) :
    (draw x y n).Accounted m b := by
  unfold Accounted
  simp only [execute]
  rcases Machine.draw_cases (x := x) (y := y) (n := n) hi with
    ⟨hin, hd⟩ | ⟨hin, hover, px, py, hd⟩ | ⟨hin, hover, screen, hit, -, hd⟩
  · refine Or.inr ⟨_, .memory, by rw [hd], rfl, fun k => ?_⟩
    cases k <;> simp [Refused, hin]
  · refine Or.inr ⟨_, .screen, by rw [hd], rfl, fun k => ?_⟩
    cases k <;> simp [Refused, hin, hover]
  · refine Or.inl ⟨by rw [hd], fun k => ?_⟩
    cases k <;> simp [Refused, hin, hover]

/-- An instruction fails exactly if the machine refuses it, and for that cause. -/
theorem execute_accounted (hi : 0 ≤ m.index) (hd0 : 0 ≤ m.delay) (hd : m.delay ≤ 0xFF)
    (b : UInt8) (i : Instruction) : i.Accounted m b := by
  cases i
  case ret => exact accounted_of_ite (ret_fault m b) rfl fun k => by cases k <;> simp [Refused]
  case call nnn =>
    exact accounted_of_ite (call_fault m b nnn) rfl fun k => by cases k <;> simp [Refused]
  case glyph x =>
    exact accounted_of_ite (glyph_fault m b x) rfl fun k => by cases k <;> simp [Refused]
  case skipIfKey x =>
    exact accounted_of_ite (skipIfKey_fault m x true) rfl fun k => by cases k <;> simp [Refused]
  case skipUnlessKey x =>
    exact accounted_of_ite (skipIfKey_fault m x false) rfl fun k => by cases k <;> simp [Refused]
  case decimal x =>
    exact accounted_of_ite (storeAtIndex_fault hi (List.cons_ne_nil _ _)) rfl fun k => by
      cases k <;> simp [Refused, Machine.decimalDigits]
  case save x =>
    have hlen := savedBytes_length m x
    have hne : m.v.toList.take (x.val + 1) ≠ [] := by
      intro hnil
      rw [hnil] at hlen
      cases hlen
    refine accounted_of_ite (storeAtIndex_fault hi hne) rfl fun k => ?_
    rw [hlen]
    cases k <;> simp [Refused]
  case restore x =>
    exact accounted_of_ite (restore_fault hi x) rfl fun k => by cases k <;> simp [Refused]
  case draw x y n => exact draw_accounted hi b x y n
  case readDelay x =>
    refine accounted_of_done ?_ (by simp [Refused])
    rw [execute, byte?_of_bounds hd0 hd]
  case awaitKey x =>
    refine accounted_of_done ?_ (by simp [Refused])
    rw [execute]
    split <;> rfl
  all_goals exact accounted_of_done rfl (by simp [Refused])

/-! ## What a refused instruction leaves -/

/-- The instructions that go through a block of memory cell by cell. -/
def isBlockwise : Instruction → Bool
  | decimal _ | save _ | restore _ => true
  | _ => false

theorem skipIfKey_of_fault {x : Reg} {down : Bool} {f : Fault}
    (h : (m.skipIfKey x down).2 = some f) : (m.skipIfKey x down).1 = m := by
  unfold Machine.skipIfKey at h ⊢
  by_cases hx : 16 ≤ (m.reg x).toNat
  · rw [Keypad.isDown_of_le m.keypad hx]
  · rw [Keypad.isDown_of_lt m.keypad (by omega)] at h
    cases h

/-- A refused instruction changes nothing, unless it goes through a block of memory. -/
theorem execute_of_fault {f : Fault} (hi : 0 ≤ m.index) (hi' : i.isBlockwise = false)
    (h : (i.execute b m).2 = some f) : (i.execute b m).1 = m := by
  cases i
  case decimal => cases hi'
  case save => cases hi'
  case restore => cases hi'
  case ret =>
    rw [execute] at h ⊢
    split at h <;> cases h
    rfl
  case call =>
    rw [execute] at h ⊢
    split at h <;> cases h
    rfl
  case glyph x =>
    unfold execute at h ⊢
    by_cases hx : 16 ≤ (m.reg x).toNat
    · simp only [if_pos hx]
    · simp only [if_neg hx] at h
      cases h
  case skipIfKey => exact skipIfKey_of_fault h
  case skipUnlessKey => exact skipIfKey_of_fault h
  case readDelay =>
    rw [execute] at h ⊢
    split at h <;> cases h
    rfl
  case awaitKey =>
    rw [execute] at h
    split at h <;> cases h
  case draw x y n =>
    rw [execute] at h ⊢
    rcases Machine.draw_cases (x := x) (y := y) (n := n) hi with
      ⟨-, hd⟩ | ⟨-, -, px, py, hd⟩ | ⟨-, -, screen, hit, -, hd⟩
    · rw [hd]
    · rw [hd]
    · rw [hd] at h
      cases h
  all_goals cases h

end Instruction

end Chip8
