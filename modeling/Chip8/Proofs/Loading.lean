import Chip8.Machine
import Chip8.Proofs.Bytes
import Chip8.Proofs.Latest

/-!
# Chip8.Proofs.Loading — a program is loaded whole or not at all

A program comes as bytes, or as numbers that ought to be bytes.  It is refused if a number is no
byte, and otherwise if it is too long; the machine is then what it was.  Any other program, also
one without a byte, ends up in the memory from the start address on, and nothing else changes
(`Settled`).  Programs may be loaded over one another: each cell has the byte of the last one that
reaches it (`load_all_or_nothing`).
-/

namespace Chip8

open Platform

/-- A program as it is handed over. -/
inductive Program where
  | bytes (content : List UInt8)
  | numbers (content : List Int)

namespace Program

/-- The numbers of which a program consists. -/
def content : Program → List Int
  | bytes content => content.map fun b => (b.toNat : Int)
  | numbers content => content

/-- A program that the memory can take: bytes only, and not too many of them. -/
structure Fits (p : Program) : Prop where
  bytes : ∀ n ∈ p.content, 0 ≤ n ∧ n < 256
  room : p.content.length ≤ 3584

/-- The program can be loaded, reaches the address `a`, and has the byte `b` for it. -/
structure Covers (a : Int) (p : Program) (b : UInt8) : Prop where
  fits : p.Fits
  start : 0x200 ≤ a
  byte : p.content[(a - 0x200).toNat]? = some (b.toNat : Int)

end Program

namespace Machine

variable {m m' : Machine} {p : Program} {numbers : List Int} {bytes : List UInt8}

/-- The machine after a program has been handed to it, and the refusal if it was refused. -/
def offer (m : Machine) (p : Program) : Machine × Option LoadFault :=
  let loaded :=
    match p with
    | .bytes content => m.load content
    | .numbers content => m.loadNumbers content
  match loaded with
  | .ok m' => (m', none)
  | .error fault => (m, some fault)

/-- The machine after some programs have been handed to it. -/
def offerAll (m : Machine) (programs : List Program) : Machine :=
  programs.foldl (fun m p => (m.offer p).1) m

/-- The program is in the memory of `m'`, which is otherwise `m`. -/
structure Loaded (p : Program) (m m' : Machine) : Prop where
  memory : ∃ bytes, p.content = bytes.map (fun b : UInt8 => (b.toNat : Int)) ∧
    Memory.Overwritten m.ram m'.ram 0x200 bytes
  rest : ∃ ram, m' = { m with ram }

/-- What handing a program to the machine `m` comes to. -/
inductive Settled (m : Machine) (p : Program) : Machine × Option LoadFault → Prop
  | notBytes {n : Int} (hmem : n ∈ p.content) (hn : ¬ (0 ≤ n ∧ n < 256)) :
      Settled m p (m, some .notBytes)
  | tooLong (hbytes : ∀ n ∈ p.content, 0 ≤ n ∧ n < 256) (hlong : 3584 < p.content.length) :
      Settled m p (m, some (.tooLong p.content.length))
  | loaded {m' : Machine} (hfits : p.Fits) (hloaded : Loaded p m m') : Settled m p (m', none)

/-! ## Numbers and bytes -/

/-- Numbers are read as bytes if all of them are bytes, and refused otherwise. -/
theorem mapM_byte_cases (numbers : List Int) :
    (∃ bytes : List UInt8, numbers = bytes.map (fun b => (b.toNat : Int)) ∧
      numbers.mapM Cells.byte? = .ok bytes) ∨
    ((∃ n ∈ numbers, ¬ (0 ≤ n ∧ n < 256)) ∧ ∃ fault, numbers.mapM Cells.byte? = .error fault) := by
  induction numbers with
  | nil => exact Or.inl ⟨[], rfl, rfl⟩
  | cons n numbers ih =>
    rw [List.mapM_cons]
    rcases Cells.byte_cases n with ⟨b, rfl, hbyte⟩ | ⟨hn, hrefused⟩
    · rw [hbyte]
      rcases ih with ⟨bytes, rfl, hread⟩ | ⟨⟨n, hmem, hn⟩, fault, hread⟩
      · refine Or.inl ⟨b :: bytes, rfl, ?_⟩
        rw [hread]
        rfl
      · refine Or.inr ⟨⟨n, List.mem_cons_of_mem _ hmem, hn⟩, fault, ?_⟩
        rw [hread]
        rfl
    · refine Or.inr ⟨⟨n, List.mem_cons_self, hn⟩, .notAByte, ?_⟩
      rw [hrefused]
      rfl

/-! ## One program -/

/-- Bytes are refused for their number, or go into the memory. -/
theorem load_cases (m : Machine) (bytes : List UInt8) :
    (3584 < bytes.length ∧ m.load bytes = .error (.tooLong bytes.length)) ∨
    (bytes.length ≤ 3584 ∧ ∃ ram, m.load bytes = .ok { m with ram } ∧
      Memory.Overwritten m.ram ram 0x200 bytes) := by
  by_cases hlong : 3584 < bytes.length
  · exact Or.inl ⟨hlong, if_pos hlong⟩
  · have hend : Memory.Inside 0x1000 (startAddress + bytes.length - 1) := by
      show 0 ≤ (0x200 : Int) + bytes.length - 1 ∧ (0x200 : Int) + bytes.length - 1 < 0x1000
      omega
    obtain ⟨ram, hwrite, hbytes⟩ := m.ram.writeBlock_of_inside (by decide) hend
    refine Or.inr ⟨by omega, ram, ?_, hbytes⟩
    rw [load, if_neg hlong, hwrite]

theorem settled_of_bytes (m : Machine)
    (hcontent : p.content = bytes.map fun b => (b.toNat : Int))
    (hoffer : m.offer p = match m.load bytes with
      | .ok m' => (m', none)
      | .error fault => (m, some fault)) : Settled m p (m.offer p) := by
  have hlength : p.content.length = bytes.length := by rw [hcontent, List.length_map]
  have hbytes : ∀ n ∈ p.content, 0 ≤ n ∧ n < 256 := by
    intro n hn
    rw [hcontent] at hn
    obtain ⟨b, -, rfl⟩ := List.mem_map.mp hn
    have hb := b.toNat_lt
    omega
  rw [hoffer]
  rcases m.load_cases bytes with ⟨hlong, hload⟩ | ⟨hroom, ram, hload, hram⟩
  · rw [hload, ← hlength]
    exact .tooLong hbytes (by omega)
  · have hfits : p.Fits := ⟨hbytes, by omega⟩
    rw [hload]
    exact .loaded hfits ⟨⟨bytes, hcontent, hram⟩, ram, rfl⟩

/-- A program is loaded if it fits, and otherwise refused without effect. -/
theorem settled_offer (m : Machine) (p : Program) : Settled m p (m.offer p) := by
  cases p with
  | bytes content => exact settled_of_bytes m rfl rfl
  | numbers content =>
    rcases mapM_byte_cases content with ⟨bytes, hbytes, hread⟩ | ⟨⟨n, hmem, hn⟩, fault, hread⟩
    · refine settled_of_bytes m hbytes ?_
      rw [offer, loadNumbers, hread]
    · rw [offer, loadNumbers, hread]
      exact .notBytes hmem hn

/-! ## One program after another -/

/-- A cell has the byte that a program has for it, if the program is loaded and reaches it. -/
theorem Settled.latest {r : Machine × Option LoadFault} (h : Settled m p r) (a : Int) :
    Latest (Program.Covers a) (m.ram.byteAt a) [p] (r.1.ram.byteAt a) := by
  cases h with
  | notBytes hmem hn => exact .of_not_sets fun b hcovers => hn (hcovers.fits.bytes _ hmem)
  | tooLong hbytes hlong =>
    refine .of_not_sets fun b hcovers => ?_
    have hroom := hcovers.fits.room
    omega
  | loaded hfits hloaded =>
    obtain ⟨bytes, hcontent, hover⟩ := hloaded.memory
    rcases hover.cases a with ⟨k, rfl, hbyte⟩ | ⟨hnone, hkept⟩
    · refine .of_sets ⟨hfits, by omega, ?_⟩
      have hsub : ((0x200 + k : Int) - 0x200).toNat = k := by omega
      rw [hsub, hcontent, List.getElem?_map, hbyte]
      rfl
    · rw [hkept]
      refine .of_not_sets fun b hcovers => ?_
      have hstart := hcovers.start
      have hbyte := hcovers.byte
      rw [hcontent, List.getElem?_map, hnone _ (by omega)] at hbyte
      cases hbyte

theorem Settled.rest {r : Machine × Option LoadFault} (h : Settled m p r) :
    ∃ ram, r.1 = { m with ram } := by
  cases h with
  | notBytes => exact ⟨m.ram, rfl⟩
  | tooLong => exact ⟨m.ram, rfl⟩
  | loaded _ hloaded => exact hloaded.rest

/-- Programs reach the memory only. -/
theorem offerAll_rest (m : Machine) (programs : List Program) :
    ∃ ram, m.offerAll programs = { m with ram } := by
  induction programs generalizing m with
  | nil => exact ⟨m.ram, rfl⟩
  | cons p programs ih =>
    obtain ⟨ram, hfirst⟩ := (settled_offer m p).rest
    obtain ⟨ram', hmore⟩ := ih (m.offer p).1
    rw [hfirst] at hmore
    refine ⟨ram', ?_⟩
    show (m.offer p).1.offerAll programs = _
    rw [hfirst, hmore]

/-- **All or nothing.**  After any programs have been handed to a machine, the next one is refused
without effect, because a number in it is no byte or else because it is too long, or it is loaded
whole.  Each cell has the byte of the last of the programs that fits and reaches it, or what it had
at first, and all else is as it was. -/
theorem load_all_or_nothing (m : Machine) (programs : List Program) (p : Program) :
    Settled (m.offerAll programs) p ((m.offerAll programs).offer p) ∧
      (∀ a, Latest (Program.Covers a) (m.ram.byteAt a) programs
        ((m.offerAll programs).ram.byteAt a)) ∧
      ∃ ram, m.offerAll programs = { m with ram } := by
  refine ⟨settled_offer _ p, ?_, m.offerAll_rest programs⟩
  intro a
  exact latest_foldl (fun m : Machine => m.ram.byteAt a)
    (fun m p => (settled_offer m p).latest a) m programs

end Machine

end Chip8
