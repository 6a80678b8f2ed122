import Chip8.Proofs.Calls

/-!
# Chip8.Proofs.Branching — where control goes

`Instruction.Transfers` says for each instruction at which address the program goes on, and what
becomes of the call stack if it calls or returns.  All instructions but eleven go on with the next
one (`Instruction.Linear`).  Every step that succeeds follows this (`control_transfer`).  Two
instructions that test for opposite things never both skip, nor do both go on.
-/

namespace Chip8

/-- From address `p`, control passes over the next instruction if `condition` holds. -/
def SkipsIf (condition : Prop) (p pc : Int) : Prop :=
  (condition → pc = p + 4) ∧ (¬ condition → pc = p + 2)

/-- Of two instructions with opposite conditions one skips and the other goes on. -/
theorem SkipsIf.opposite {condition condition' : Prop} {p pc q qc : Int}
    (h : SkipsIf condition p pc) (h' : SkipsIf condition' q qc)
    (hopposite : condition' ↔ ¬ condition) :
    pc = p + 4 ∧ qc = q + 2 ∨ pc = p + 2 ∧ qc = q + 4 := by
  obtain ⟨hskip, hgo⟩ := h
  obtain ⟨hskip', hgo'⟩ := h'
  by_cases hc : condition
  · exact Or.inl ⟨hskip hc, hgo' fun hc' => hopposite.mp hc' hc⟩
  · exact Or.inr ⟨hgo hc, hskip' (hopposite.mpr hc)⟩

namespace Instruction

/-- Where the instruction at address `p` takes control: `m` is the machine before it, `m'` the one
after it. -/
def Transfers (p : Int) (m m' : Machine) : Instruction → Prop
  | jump nnn => m'.pc = nnn
  | call nnn => m'.pc = nnn ∧ m'.stack.items = (p + 2) :: m.stack.items
  | ret => m.stack.items = m'.pc :: m'.stack.items
  | jumpPlus nnn => m'.pc = nnn + (m.reg Reg.first).toNat
  | awaitKey _ =>
    ((∀ k : Key, m.keypad.down.get k = false) → m'.pc = p) ∧
      ((∃ k : Key, m.keypad.down.get k = true) → m'.pc = p + 2)
  | skipIfByte x kk => SkipsIf (m.reg x = kk) p m'.pc
  | skipUnlessByte x kk => SkipsIf (m.reg x ≠ kk) p m'.pc
  | skipIfEqual x y => SkipsIf (m.reg x = m.reg y) p m'.pc
  | skipUnlessEqual x y => SkipsIf (m.reg x ≠ m.reg y) p m'.pc
  | skipIfKey x =>
    ∃ k : Key, k.val = (m.reg x).toNat ∧ SkipsIf (m.keypad.down.get k = true) p m'.pc
  | skipUnlessKey x =>
    ∃ k : Key, k.val = (m.reg x).toNat ∧ SkipsIf (m.keypad.down.get k = false) p m'.pc
  | _ => m'.pc = p + 2

/-- The two instructions test for opposite things. -/
inductive Opposite : Instruction → Instruction → Prop where
  | byte (x : Reg) (kk : UInt8) : Opposite (skipIfByte x kk) (skipUnlessByte x kk)
  | register (x y : Reg) : Opposite (skipIfEqual x y) (skipUnlessEqual x y)
  | key (x : Reg) : Opposite (skipIfKey x) (skipUnlessKey x)

/-! ## Instructions that go on with the next one -/

/-- The instruction does not set the program counter. -/
def Linear : Instruction → Prop
  | ret | jump _ | call _ | jumpPlus _ | awaitKey _ => False
  | skipIfByte .. | skipUnlessByte .. | skipIfEqual .. | skipUnlessEqual .. => False
  | skipIfKey _ | skipUnlessKey _ => False
  | _ => True

variable {i j : Instruction} {b : UInt8} {m m' : Machine} {p : Int}

theorem draw_pc (m : Machine) (x y : Reg) (n : Nat) : (m.draw x y n).1.pc = m.pc := by
  unfold Machine.draw
  dsimp only
  split
  · rfl
  · split <;> rfl

theorem execute_pc_of_linear (h : i.Linear) : (i.execute b m).1.pc = m.pc := by
  cases i
  case draw x y n => exact draw_pc m x y n
  case readDelay x =>
    rw [execute]
    split <;> rfl
  case glyph x =>
    rw [execute]
    split <;> rfl
  all_goals first | rfl | exact h.elim

theorem transfers_of_linear (h : i.Linear) (hpc : m'.pc = p + 2) : i.Transfers p m m' := by
  cases i <;> first | exact hpc | exact h.elim

/-! ## Instructions that skip -/

theorem skipsIf_skipIf (condition : Prop) [Decidable condition] (hpc : m.pc = p + 2) :
    SkipsIf condition p (m.skipIf condition).pc := by
  unfold Machine.skipIf
  constructor
  · intro hskip
    rw [if_pos hskip]
    show m.pc + 2 = p + 4
    omega
  · intro hno
    rw [if_neg hno]
    exact hpc

/-- The number in the register names a key if the question is answered. -/
theorem skipsIf_skipIfKey {x : Reg} {down : Bool} (hpc : m.pc = p + 2)
    (h : m.skipIfKey x down = m'.done) :
    ∃ k : Key, k.val = (m.reg x).toNat ∧ SkipsIf (m.keypad.down.get k = down) p m'.pc := by
  unfold Machine.skipIfKey at h
  rcases Nat.lt_or_ge (m.reg x).toNat 16 with hlt | hge
  · rw [Keypad.isDown_of_lt m.keypad hlt] at h
    cases h
    exact ⟨⟨(m.reg x).toNat, hlt⟩, rfl, skipsIf_skipIf _ hpc⟩
  · rw [Keypad.isDown_of_le m.keypad hge] at h
    cases h

/-- Instructions that test for opposite things, on the same registers and keys: one of them skips
and the other does not. -/
theorem Opposite.transfers {d d' : Machine} {q : Int} (h : Opposite i j)
    (hv : d.v = m.v) (hkeys : d.keypad = m.keypad) (hi : i.Transfers p m m')
    (hj : j.Transfers q d d') :
    m'.pc = p + 4 ∧ d'.pc = q + 2 ∨ m'.pc = p + 2 ∧ d'.pc = q + 4 := by
  have hreg : ∀ x, d.reg x = m.reg x := by
    intro x
    unfold Machine.reg
    rw [hv]
  cases h with
  | byte x kk =>
    refine hi.opposite hj ?_
    rw [hreg]
  | register x y =>
    refine hi.opposite hj ?_
    rw [hreg, hreg]
  | key x =>
    obtain ⟨k, hk, hi⟩ := hi
    obtain ⟨k', hk', hj⟩ := hj
    have hsame : k' = k := Fin.ext (by rw [hk, hk', hreg])
    refine hi.opposite hj ?_
    rw [hsame, hkeys, Bool.not_eq_true]

/-! ## Instructions that call, return or wait -/

theorem transfers_of_call {nnn : Int} (hpc : m.pc = p + 2)
    (h : (call nnn).execute b m = m'.done) : (call nnn).Transfers p m m' := by
  rcases Nat.lt_or_ge m.stack.items.length 16 with hlt | hfull
  · rw [Machine.execute_call_of_lt hlt] at h
    cases h
    exact ⟨rfl, by rw [hpc]⟩
  · rw [Machine.execute_call_of_full hfull] at h
    cases h

theorem transfers_of_ret (h : ret.execute b m = m'.done) : ret.Transfers p m m' := by
  cases hitems : m.stack.items with
  | nil =>
    rw [Machine.execute_ret_of_nil hitems] at h
    cases h
  | cons a items =>
    rw [Machine.execute_ret_of_cons hitems] at h
    cases h
    exact hitems

theorem lowest_eq_none_iff (keypad : Keypad) :
    keypad.lowest? = none ↔ ∀ k : Key, keypad.down.get k = false := by
  unfold Keypad.lowest? Keypad.pressed
  rw [List.head?_eq_none_iff, List.filter_eq_nil_iff]
  constructor
  · intro h k
    exact Bool.eq_false_iff.mpr (h k (List.mem_finRange k))
  · intro h k _
    exact Bool.eq_false_iff.mp (h k)

theorem transfers_of_awaitKey {x : Reg} (hpc : m.pc = p + 2)
    (h : (awaitKey x).execute b m = m'.done) : (awaitKey x).Transfers p m m' := by
  rw [execute] at h
  cases hlowest : m.keypad.lowest? with
  | none =>
    rw [hlowest] at h
    cases h
    have hup := (lowest_eq_none_iff m.keypad).mp hlowest
    constructor
    · intro _
      show m.pc - 2 = p
      omega
    · rintro ⟨k, hdown⟩
      rw [hup k] at hdown
      cases hdown
  | some key =>
    rw [hlowest] at h
    cases h
    refine ⟨fun hup => ?_, fun _ => hpc⟩
    rw [(lowest_eq_none_iff m.keypad).mpr hup] at hlowest
    cases hlowest

/-! ## Every instruction -/

/-- An instruction that is carried out from address `p` takes control where it should. -/
theorem transfers_of_execute (hpc : m.pc = p + 2) (h : i.execute b m = m'.done) :
    i.Transfers p m m' := by
  have hresult : (i.execute b m).1 = m' := congrArg Prod.fst h
  by_cases hlinear : i.Linear
  · apply transfers_of_linear hlinear
    rw [← hresult, execute_pc_of_linear hlinear, hpc]
  · cases i
    case call nnn => exact transfers_of_call hpc h
    case ret => exact transfers_of_ret h
    case awaitKey x => exact transfers_of_awaitKey hpc h
    case skipIfKey x => exact skipsIf_skipIfKey hpc h
    case skipUnlessKey x => exact skipsIf_skipIfKey hpc h
    all_goals subst hresult
    case jump nnn => rfl
    case jumpPlus nnn => rfl
    case skipIfByte x kk => exact skipsIf_skipIf _ hpc
    case skipUnlessByte x kk => exact skipsIf_skipIf _ hpc
    case skipIfEqual x y => exact skipsIf_skipIf _ hpc
    case skipUnlessEqual x y => exact skipsIf_skipIf _ hpc
    all_goals exact absurd trivial hlinear

end Instruction

/-! ## Every step -/

namespace Cpu

variable {ρ : Type} [ByteSource ρ] {c : Cpu ρ} {op : Int}

theorem step_transfers {i : Instruction} (hop : c.machine.fetch = .ok op)
    (he : c.step.error = none) (hi : i.Encodes op) :
    i.Transfers c.machine.pc c.machine c.step.cpu.machine := by
  have htransfers := Instruction.transfers_of_execute (p := c.machine.pc) rfl
    (execute_of_step hop he hi)
  -- fetching has changed the opcode and the program counter, on which nothing depends
  cases i <;> exact htransfers

/-- **Control transfer.**  A step that succeeds takes control where the instruction of the fetched
opcode should, by the state before the step.  Instructions that test for opposite things do so: on
the same registers and keys, one of them skips and the other does not. -/
theorem control_transfer (hop : c.machine.fetch = .ok op) (he : c.step.error = none) :
    (∃ i : Instruction, i.Encodes op ∧
      i.Transfers c.machine.pc c.machine c.step.cpu.machine) ∧
    ∀ (i j : Instruction) (d : Cpu ρ) (op' : Int), i.Encodes op → j.Encodes op' →
      i.Opposite j → d.machine.v = c.machine.v → d.machine.keypad = c.machine.keypad →
      d.machine.fetch = .ok op' → d.step.error = none →
        c.step.cpu.machine.pc = c.machine.pc + 4 ∧ d.step.cpu.machine.pc = d.machine.pc + 2 ∨
        c.step.cpu.machine.pc = c.machine.pc + 2 ∧ d.step.cpu.machine.pc = d.machine.pc + 4 := by
  constructor
  · obtain ⟨i, hi⟩ := exists_encodes_of_step hop he
    exact ⟨i, hi, step_transfers hop he hi⟩
  · intro i j d op' hi hj hopposite hv hkeys hop' he'
    exact hopposite.transfers hv hkeys (step_transfers hop he hi) (step_transfers hop' he' hj)

/-- A processor that is about to ask for key 0, which is down; `low` says in which way. -/
def askingForKey (low : UInt8) : Cpu CyclicBytes :=
  (Cpu.create (.powerOn .linear) (.ofList []) false).actAll [.load [0xE0, low], .press 0]

/-- The instruction that skips if the key is down does so, and its opposite goes on. -/
theorem control_transfer_asking_for_key :
    (askingForKey 0x9E).step.cpu.machine.pc = 0x204 ∧
      (askingForKey 0xA1).step.cpu.machine.pc = 0x202 := by
  obtain ⟨hop, he, hop', he', hpc, hpc', hv, hkeys⟩ :
      (askingForKey 0x9E).machine.fetch = .ok 0xE09E ∧ (askingForKey 0x9E).step.error = none ∧
      (askingForKey 0xA1).machine.fetch = .ok 0xE0A1 ∧ (askingForKey 0xA1).step.error = none ∧
      (askingForKey 0x9E).machine.pc = 0x200 ∧ (askingForKey 0xA1).machine.pc = 0x200 ∧
      (askingForKey 0xA1).machine.v = (askingForKey 0x9E).machine.v ∧
      (askingForKey 0xA1).machine.keypad = (askingForKey 0x9E).machine.keypad := by
    decide +kernel
  have hi : (Instruction.skipIfKey 0).Encodes 0xE09E := ⟨by decide, by decide, by decide⟩
  have hj : (Instruction.skipUnlessKey 0).Encodes 0xE0A1 := ⟨by decide, by decide, by decide⟩
  obtain ⟨⟨i, hfetched, htransfers⟩, hopposites⟩ := control_transfer hop he
  obtain rfl := Instruction.encodes_unique hfetched hi
  obtain ⟨k, hk, hskip, -⟩ := htransfers
  have hzero : k = 0 := by
    apply Fin.ext
    rw [hk]
    decide +kernel
  have hskips := hskip (by rw [hzero]; decide +kernel)
  rcases hopposites _ _ _ _ hi hj (.key 0) hv hkeys hop' he' with ⟨-, hgoes⟩ | ⟨hgoes, -⟩
  · exact ⟨by rw [hskips, hpc]; rfl, by rw [hgoes, hpc']; rfl⟩
  · rw [hskips, hpc] at hgoes
    exact absurd hgoes (by decide)

end Cpu

end Chip8
