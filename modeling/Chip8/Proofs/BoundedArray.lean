import Chip8.Proofs.Bytes
import Chip8.Proofs.Latest

/-!
# Chip8.Proofs.BoundedArray — a bank is an array with bounds

A bank of any size is read and written, one byte or one block at a time, at any addresses.  An
access whose cells do not all lie in the bank is refused, and so is a number that is no byte; both
change nothing.  Every other access is carried out in full: a write puts its bytes into its cells
and leaves the others alone, and a read hands out, cell by cell, the byte that was last written
there, or zero (`bounded_array`).
-/

namespace Chip8

/-- What a bank can be asked for. -/
inductive MemoryCall where
  | read (address : Int)
  | write (address value : Int)
  | readBlock (address count : Int)
  | writeBlock (address : Int) (block : List UInt8)

namespace MemoryCall

/-- The first cell. -/
def start : MemoryCall → Int
  | read address | write address _ | readBlock address _ | writeBlock address _ => address

/-- How many cells it is about. -/
def count : MemoryCall → Int
  | read _ | write _ _ => 1
  | readBlock _ count => count
  | writeBlock _ block => block.length

/-- The cells lie in a bank of that size. -/
def Within (size : Int) (call : MemoryCall) : Prop :=
  0 ≤ call.start ∧ call.start + call.count ≤ size

/-- The call hands out bytes. -/
def IsRead : MemoryCall → Prop
  | read _ | readBlock _ _ => True
  | write _ _ | writeBlock _ _ => False

/-- The call has those bytes for its cells. -/
inductive Writes : MemoryCall → List UInt8 → Prop
  | write {address : Int} {b : UInt8} : Writes (.write address b.toNat) [b]
  | writeBlock {address : Int} {block : List UInt8} : Writes (.writeBlock address block) block

/-- In a bank of that size, the call puts the byte `b` at the address `a`. -/
structure Stores (size a : Int) (call : MemoryCall) (b : UInt8) : Prop where
  within : call.Within size
  byte : ∃ (block : List UInt8) (k : Nat), call.Writes block ∧ a = call.start + k ∧
    block[k]? = some b

variable {size a : Int} {call : MemoryCall} {block block' : List UInt8} {b : UInt8}

theorem Writes.length_eq (h : call.Writes block) : block.length = call.count := by
  cases h <;> rfl

theorem Writes.not_isRead (h : call.Writes block) : ¬ call.IsRead := by
  cases h <;> exact id

/-- A number that is written to a cell is a byte. -/
theorem Writes.isByte {address value : Int} (h : Writes (.write address value) block) :
    0 ≤ value ∧ value < 256 := by
  cases h with
  | @write _ b =>
    have hb := b.toNat_lt
    omega

theorem Writes.unique (h : call.Writes block) (h' : call.Writes block') : block = block' := by
  cases h with
  | @write address b =>
    generalize hcall : MemoryCall.write address b.toNat = call at h'
    cases h' with
    | @write address' b' =>
      injection hcall with _ hvalue
      rw [UInt8.toNat_inj.mp (Int.ofNat_inj.mp hvalue)]
    | writeBlock => cases hcall
  | writeBlock =>
    cases h'
    rfl

theorem Stores.not_isRead (h : Stores size a call b) : ¬ call.IsRead := by
  obtain ⟨block, -, hwrites, -, -⟩ := h.byte
  exact hwrites.not_isRead

/-- A call that stores a byte has its first and its last cell in the bank. -/
theorem Stores.inside (h : Stores size a call b) :
    Memory.Inside size call.start ∧ Memory.Inside size (call.start + call.count - 1) := by
  obtain ⟨block, k, hwrites, -, hb⟩ := h.byte
  have hk := (List.getElem?_eq_some_iff.mp hb).1
  have hlen := hwrites.length_eq
  have hin := h.within
  unfold Within at hin
  omega

end MemoryCall

namespace Memory

open MemoryCall (Stores)

variable {size a : Int} {m m' : Memory size} {call : MemoryCall} {calls : List MemoryCall}
  {block : List UInt8}

/-- The bank after a call, and the bytes handed out. -/
def obey (m : Memory size) : MemoryCall → Memory size × Except MemoryFault (List UInt8)
  | .read address => (m, (m.read address).map ([·]))
  | .readBlock address count => (m, m.readBlock address count)
  | .write address value =>
    match m.write address value with
    | .ok m' => (m', .ok [])
    | .error fault => (m, .error fault)
  | .writeBlock address block =>
    match m.writeBlock address block with
    | .ok m' => (m', .ok [])
    | .error fault => (m, .error fault)

/-- The bank after some calls. -/
def obeyAll (m : Memory size) (calls : List MemoryCall) : Memory size :=
  calls.foldl (fun m call => (m.obey call).1) m

/-- What a call comes to at the bank `m` that earlier calls have left of a bank of zeros. -/
inductive Answered (calls : List MemoryCall) (m : Memory size) (call : MemoryCall) :
    Memory size × Except MemoryFault (List UInt8) → Prop
  | outside (hout : ¬ call.Within size) :
      Answered calls m call (m, .error (.outside
        (if Inside size call.start then call.start + call.count - 1 else call.start) (size - 1)))
  | notAByte {value : Int} (hin : call.Within size) (hcall : call = .write call.start value)
      (hvalue : ¬ (0 ≤ value ∧ value < 256)) :
      Answered calls m call (m, .error (.cell .notAByte))
  | read {bytes : List UInt8} (hin : call.Within size) (hread : call.IsRead)
      (hlen : bytes.length = call.count)
      (hlatest : ∀ (k : Nat) b, bytes[k]? = some b →
        Latest (Stores size (call.start + k)) 0 calls b) :
      Answered calls m call (m, .ok bytes)
  | written {block : List UInt8} {m' : Memory size} (hin : call.Within size)
      (hwrites : call.Writes block) (hover : Overwritten m m' call.start block) :
      Answered calls m call (m', .ok [])

/-! ## Single bytes -/

theorem write_of_outside (m : Memory size) (ha : ¬ Inside size a) (value : Int) :
    m.write a value = .error (refusal size a) := by
  rw [write, check, if_neg ha]

theorem write_of_not_byte (m : Memory size) (ha : Inside size a) {value : Int}
    (hvalue : Cells.byte? value = .error .notAByte) :
    m.write a value = .error (.cell .notAByte) := by
  rw [write, check, if_pos ha]
  simp only
  rw [hvalue]

theorem write_of_byte (m : Memory size) (ha : Inside size a) {value : Int} {b : UInt8}
    (hvalue : Cells.byte? value = .ok b) :
    ∃ m', m.write a value = .ok m' ∧ Overwritten m m' a [b] := by
  obtain ⟨m', hstore, hbytes⟩ := m.store_of_inside ha b
  refine ⟨m', ?_, ?_, ?_⟩
  · rw [write, check, if_pos ha]
    simp only
    rw [hvalue]
    exact hstore
  · intro k b' hb'
    obtain ⟨hk, rfl⟩ := List.getElem?_eq_some_iff.mp hb'
    have hzero : k = 0 := by simpa using hk
    subst hzero
    rw [hbytes]
    simp
  · intro c hc
    rw [hbytes, if_neg (by simp at hc; omega)]

/-! ## One call -/

/-- A call that starts outside is refused for its first cell. -/
theorem obey_of_start_outside (m : Memory size) (ha : ¬ Inside size call.start) :
    m.obey call = (m, .error (refusal size call.start)) := by
  cases call with
  | read address =>
    change ¬ Inside size address at ha
    rw [obey, m.read_of_outside ha]
    rfl
  | write address value =>
    change ¬ Inside size address at ha
    rw [obey, m.write_of_outside ha]
    rfl
  | readBlock address count =>
    change ¬ Inside size address at ha
    rw [obey, readBlock, if_neg ha]
    rfl
  | writeBlock address block =>
    change ¬ Inside size address at ha
    rw [obey, writeBlock, if_neg ha]
    rfl

/-- A call that starts inside and ends outside is refused for its last cell. -/
theorem obey_of_end_outside (m : Memory size) (ha : Inside size call.start)
    (hend : ¬ Inside size (call.start + call.count - 1)) :
    m.obey call = (m, .error (refusal size (call.start + call.count - 1))) := by
  cases call with
  | read address =>
    simp only [MemoryCall.start, MemoryCall.count] at ha hend
    omega
  | write address value =>
    simp only [MemoryCall.start, MemoryCall.count] at ha hend
    omega
  | readBlock address count =>
    change Inside size address at ha
    change ¬ Inside size (address + count - 1) at hend
    rw [obey, readBlock, if_pos ha, if_neg hend]
    rfl
  | writeBlock address block =>
    change Inside size address at ha
    change ¬ Inside size (address + block.length - 1) at hend
    rw [obey, writeBlock, if_pos ha, if_neg hend]
    rfl

theorem inside_of_within (hcount : 1 ≤ call.count) (hin : call.Within size) :
    Inside size call.start ∧ Inside size (call.start + call.count - 1) := by
  unfold MemoryCall.Within at hin
  omega

/-- A read inside the bank hands out the bytes of its cells. -/
theorem obey_read (m : Memory size) (hcount : 1 ≤ call.count) (hin : call.Within size)
    (hread : call.IsRead) : ∃ bytes : List UInt8, m.obey call = (m, .ok bytes) ∧
      bytes.length = call.count ∧
      ∀ (k : Nat) b, bytes[k]? = some b → b = m.byteAt (call.start + k) := by
  cases call with
  | read address =>
    refine ⟨[m.byteAt address], ?_, rfl, ?_⟩
    · have ha : Inside size address := (inside_of_within hcount hin).1
      rw [obey, m.read_of_inside ha]
      rfl
    · intro k b hb
      obtain ⟨hk, rfl⟩ := List.getElem?_eq_some_iff.mp hb
      have hzero : k = 0 := by simpa using hk
      subst hzero
      simp [MemoryCall.start]
  | readBlock address count =>
    obtain ⟨count, rfl⟩ : ∃ n : Nat, count = n := ⟨count.toNat, by
      change 1 ≤ count at hcount
      omega⟩
    obtain ⟨hstart, hend⟩ := hin
    simp only [MemoryCall.start, MemoryCall.count] at hcount hstart hend
    refine ⟨(List.range count).map fun k : Nat => m.byteAt (address + k), ?_, ?_, ?_⟩
    · rw [obey, m.readBlock_of_inside hstart (by omega) hend]
    · simp [MemoryCall.count]
    · intro k b hb
      obtain ⟨hk, rfl⟩ := List.getElem?_eq_some_iff.mp hb
      simp [MemoryCall.start]
  | write => cases hread
  | writeBlock => cases hread

/-- A write inside the bank stores its bytes, unless it has a number that is no byte. -/
theorem obey_write (m : Memory size) (hwrite : ¬ call.IsRead) (hstart : Inside size call.start)
    (hend : Inside size (call.start + call.count - 1)) :
    (∃ block m', call.Writes block ∧ m.obey call = (m', .ok []) ∧
      Overwritten m m' call.start block) ∨
    (∃ value, call = .write call.start value ∧ ¬ (0 ≤ value ∧ value < 256) ∧
      m.obey call = (m, .error (.cell .notAByte))) := by
  cases call with
  | write address value =>
    change Inside size address at hstart
    rcases Cells.byte_cases value with ⟨b, rfl, hbyte⟩ | ⟨hvalue, hbyte⟩
    · obtain ⟨m', hm', hover⟩ := m.write_of_byte hstart hbyte
      exact Or.inl ⟨[b], m', .write, by rw [obey, hm'], hover⟩
    · exact Or.inr ⟨value, rfl, hvalue, by rw [obey, m.write_of_not_byte hstart hbyte]⟩
  | writeBlock address block =>
    change Inside size address at hstart
    change Inside size (address + block.length - 1) at hend
    obtain ⟨m', hm', hover⟩ := m.writeBlock_of_inside hstart hend
    exact Or.inl ⟨block, m', .writeBlock, by rw [obey, hm'], hover⟩
  | read => exact absurd trivial hwrite
  | readBlock => exact absurd trivial hwrite

/-- No read changes the bank. -/
theorem obey_read_fst (m : Memory size) (hread : call.IsRead) : (m.obey call).1 = m := by
  cases call with
  | read => rfl
  | readBlock => rfl
  | write => cases hread
  | writeBlock => cases hread

/-- Cells that are written over have the bytes of the call; the others have what they had. -/
theorem latest_of_overwritten (hin : call.Within size) (hwrites : call.Writes block)
    (hover : Overwritten m m' call.start block) (a : Int) :
    Latest (Stores size a) (m.byteAt a) [call] (m'.byteAt a) := by
  rcases hover.cases a with ⟨k, hk, hbyte⟩ | ⟨hnone, hkept⟩
  · exact .of_sets ⟨hin, block, k, hwrites, hk, hbyte⟩
  · rw [hkept]
    refine .of_not_sets ?_
    rintro b ⟨-, block', k, hwrites', hk, hb⟩
    rw [hwrites'.unique hwrites, hnone k hk] at hb
    cases hb

/-- A call leaves in each cell the byte that it stores there, or what was there before. -/
theorem latest_obey (m : Memory size) (call : MemoryCall) (a : Int) :
    Latest (Stores size a) (m.byteAt a) [call] ((m.obey call).1.byteAt a) := by
  by_cases hread : call.IsRead
  · rw [obey_read_fst m hread]
    exact .of_not_sets fun b hb => hb.not_isRead hread
  · by_cases hstart : Inside size call.start
    · by_cases hend : Inside size (call.start + call.count - 1)
      · have hin : call.Within size := ⟨hstart.1, by omega⟩
        rcases obey_write m hread hstart hend with
          ⟨block, m', hwrites, hobey, hover⟩ | ⟨value, hcall, hvalue, hobey⟩
        · rw [hobey]
          exact latest_of_overwritten hin hwrites hover a
        · rw [hobey]
          refine .of_not_sets ?_
          rintro b ⟨-, block, k, hwrites, -, -⟩
          rw [hcall] at hwrites
          exact hvalue hwrites.isByte
      · rw [obey_of_end_outside m hstart hend]
        exact .of_not_sets fun b hb => hend hb.inside.2
    · rw [obey_of_start_outside m hstart]
      exact .of_not_sets fun b hb => hstart hb.inside.1

/-- What a call comes to at a bank that holds, cell by cell, the last byte stored there. -/
theorem answered_obey (hlatest : ∀ a, Latest (Stores size a) 0 calls (m.byteAt a))
    (hcount : 1 ≤ call.count) : Answered calls m call (m.obey call) := by
  by_cases hin : call.Within size
  · obtain ⟨hstart, hend⟩ := inside_of_within hcount hin
    by_cases hread : call.IsRead
    · obtain ⟨bytes, hobey, hlen, hbytes⟩ := obey_read m hcount hin hread
      rw [hobey]
      refine Answered.read hin hread hlen fun k b hb => ?_
      rw [hbytes k b hb]
      exact hlatest _
    · rcases obey_write m hread hstart hend with
        ⟨block, m', hwrites, hobey, hover⟩ | ⟨value, hcall, hvalue, hobey⟩
      · rw [hobey]
        exact Answered.written hin hwrites hover
      · rw [hobey]
        exact Answered.notAByte hin hcall hvalue
  · have hout : Answered calls m call (m, .error (.outside
        (if Inside size call.start then call.start + call.count - 1 else call.start) (size - 1))) :=
      Answered.outside hin
    by_cases hstart : Inside size call.start
    · have hend : ¬ Inside size (call.start + call.count - 1) := by
        unfold MemoryCall.Within at hin
        omega
      rw [if_pos hstart] at hout
      rw [obey_of_end_outside m hstart hend]
      exact hout
    · rw [if_neg hstart] at hout
      rw [obey_of_start_outside m hstart]
      exact hout

/-! ## A run of calls -/

theorem create_eq_ok_iff {room n : Int} {m : Memory n} :
    create room n = .ok m ↔ (Cells.FitsWord n ∧ n ≤ room) ∧ m = blank n := by
  unfold create
  constructor
  · intro hm
    split_ifs at hm with hword hfull
    cases hm
    exact ⟨⟨hword, by omega⟩, rfl⟩
  · rintro ⟨⟨hword, hfits⟩, rfl⟩
    rw [if_neg (not_not.mpr hword), if_neg (by omega)]

/-- **A bank is an array with bounds.**  A bank that has been made holds zeros.  After any calls
each of its cells holds the byte that was last stored there, or zero, and the next call is answered
as such cells ask for: it is refused without effect, or carried out in full. -/
theorem bounded_array (n : Int) (calls : List MemoryCall) (call : MemoryCall)
    (hcount : 1 ≤ call.count) :
    (∀ room m, create room n = .ok m ↔ (Cells.FitsWord n ∧ n ≤ room) ∧ m = blank n) ∧
    (∀ a, Latest (Stores n a) 0 calls (((blank n).obeyAll calls).byteAt a)) ∧
    Answered calls ((blank n).obeyAll calls) call (((blank n).obeyAll calls).obey call) := by
  have hlatest (a : Int) : Latest (Stores n a) 0 calls (((blank n).obeyAll calls).byteAt a) := by
    have hrun := latest_foldl (fun m : Memory n => m.byteAt a) (fun m call => latest_obey m call a)
      (blank n) calls
    rw [byteAt_blank] at hrun
    exact hrun
  exact ⟨fun room m => create_eq_ok_iff, hlatest, answered_obey hlatest hcount⟩

/-- Writes that overlap, a block with one end inside, and a number that is no byte. -/
def overlapping : List MemoryCall :=
  [.writeBlock 1 [1, 2, 3], .write 2 9, .writeBlock 3 [4, 5], .writeBlock 4 [6, 6],
    .writeBlock (-1) [7, 7], .write 0 256]

theorem bounded_array_of_overlapping :
    ((((blank 5).obeyAll overlapping).obey (.readBlock 0 5)).2 = .ok [0, 1, 9, 4, 5]) ∧
    1 ≤ (MemoryCall.readBlock 0 5).count ∧
    (∀ room m, create room 5 = .ok m ↔ (Cells.FitsWord 5 ∧ 5 ≤ room) ∧ m = blank 5) ∧
    (∀ a, Latest (Stores 5 a) 0 overlapping (((blank 5).obeyAll overlapping).byteAt a)) ∧
    Answered overlapping ((blank 5).obeyAll overlapping) (.readBlock 0 5)
      (((blank 5).obeyAll overlapping).obey (.readBlock 0 5)) :=
  ⟨by rfl, by decide, bounded_array 5 overlapping (.readBlock 0 5) (by decide)⟩

end Memory

end Chip8
