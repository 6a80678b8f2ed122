import Chip8.Memory
import Mathlib.Order.Basic
import Mathlib.Tactic.SplitIfs

/-!
# Chip8.Proofs.Bytes — a bank as bytes at addresses

`byteAt` takes a bank for a function from addresses to bytes, zero outside.  Every access is then an
equation about that function: single bytes, blocks, and the two loops that go on until an address
falls outside the bank.  Such a loop fails at the first address past the end, `max a size`, and has
by then treated exactly the cells before it.
-/

namespace Chip8

namespace Cells

variable {n : Nat}

/-- What `overwrite` leaves in a cell: the byte written there, or what was there before. -/
theorem getElem_overwrite (bytes : List UInt8) (cells : Vector UInt8 n) (start k : Nat)
    (hk : k < n) :
    (overwrite cells start bytes)[k] =
      if start ≤ k then bytes[k - start]?.getD cells[k] else cells[k] := by
  induction bytes generalizing cells start with
  | nil => simp [overwrite]
  | cons b bytes ih =>
    rw [overwrite, ih, Vector.getElem_setIfInBounds]
    rcases Nat.lt_trichotomy k start with hlt | rfl | hgt
    · rw [if_neg (by omega), if_neg (by omega), if_neg (by omega)]
    · rw [if_neg (by omega), if_pos rfl, if_pos (Nat.le_refl k), Nat.sub_self]
      rfl
    · have hsub : k - start = (k - (start + 1)) + 1 := by omega
      rw [if_pos (by omega), if_neg (by omega), if_pos (by omega), hsub, List.getElem?_cons_succ]

/-- A number is the value of a byte, or is refused. -/
theorem byte_cases (value : Int) :
    (∃ b : UInt8, value = b.toNat ∧ byte? value = .ok b) ∨
    (¬ (0 ≤ value ∧ value < 256) ∧ byte? value = .error .notAByte) := by
  by_cases hvalue : 0 ≤ value ∧ value < 256
  · refine Or.inl ⟨UInt8.ofNat value.toNat, ?_, if_pos hvalue⟩
    rw [UInt8.toNat_ofNat_of_lt' (by show value.toNat < 256; omega)]
    omega
  · exact Or.inr ⟨hvalue, if_neg hvalue⟩

end Cells

namespace Memory

variable {size : Int}

theorem Inside.toNat_lt {a : Int} (h : Inside size a) : a.toNat < size.toNat := by omega

/-- The byte at an address, zero outside the bank. -/
def byteAt (m : Memory size) (a : Int) : UInt8 :=
  if h : Inside size a then
    have : a.toNat < size.toNat := h.toNat_lt
    m.cells[a.toNat]
  else 0

theorem byteAt_natCast (m : Memory size) {k : Nat} (hk : k < size.toNat) :
    m.byteAt k = m.cells[k] := by
  have hin : Inside size (k : Int) := by omega
  rw [byteAt, dif_pos hin]
  rfl

theorem byteAt_of_outside (m : Memory size) {a : Int} (ha : ¬ Inside size a) : m.byteAt a = 0 := by
  rw [byteAt, dif_neg ha]

/-- A bank is its bytes. -/
theorem ext_byteAt {m m' : Memory size} (h : ∀ a, m.byteAt a = m'.byteAt a) : m = m' := by
  have hcells : m.cells = m'.cells := by
    apply Vector.ext
    intro k hk
    rw [← byteAt_natCast m hk, ← byteAt_natCast m' hk]
    exact h k
  cases m
  cases m'
  exact congrArg Memory.mk hcells

theorem byteAt_blank (size a : Int) : (blank size).byteAt a = 0 := by
  unfold byteAt
  split_ifs
  · simp [blank]
  · rfl

/-! ## Single bytes -/

theorem read_of_inside (m : Memory size) {a : Int} (ha : Inside size a) :
    m.read a = .ok (m.byteAt a) := by
  rw [read, dif_pos ha, byteAt, dif_pos ha]

theorem read_of_outside (m : Memory size) {a : Int} (ha : ¬ Inside size a) :
    m.read a = .error (refusal size a) := by
  rw [read, dif_neg ha]

theorem store_of_outside (m : Memory size) {a : Int} (ha : ¬ Inside size a) (b : UInt8) :
    m.store a b = .error (refusal size a) := by
  rw [store, dif_neg ha]

theorem store_of_inside (m : Memory size) {a : Int} (ha : Inside size a) (b : UInt8) :
    ∃ m', m.store a b = .ok m' ∧ ∀ c, m'.byteAt c = if c = a then b else m.byteAt c := by
  refine ⟨_, by rw [store, dif_pos ha], fun c => ?_⟩
  by_cases hc : Inside size c
  · rw [byteAt, dif_pos hc, byteAt, dif_pos hc, Vector.getElem_set]
    exact if_congr (by omega) rfl rfl
  · have hca : c ≠ a := by rintro rfl; exact hc ha
    simp only [byteAt, dif_neg hc, if_neg hca]

/-! ## Blocks -/

theorem readBlock_of_inside (m : Memory size) {a : Int} {count : Nat} (ha : 0 ≤ a)
    (hcount : 0 < count) (hend : a + count ≤ size) :
    m.readBlock a count = .ok ((List.range count).map fun k : Nat => m.byteAt (a + k)) := by
  rw [readBlock, if_pos (by omega), if_pos (by omega)]
  congr 1
  refine List.ext_getElem ?_ fun k hk hk' => ?_
  · simp
    omega
  · simp only [List.length_map, List.length_range] at hk'
    have hcell : a + k = ((a.toNat + k : Nat) : Int) := by omega
    simp only [Array.getElem_toList, Array.getElem_extract, List.getElem_map, List.getElem_range]
    rw [hcell, byteAt_natCast m (by omega)]
    rfl

/-- `m'` has the bytes of `block` from the address `a` on, and is otherwise `m`. -/
structure Overwritten (m m' : Memory size) (a : Int) (block : List UInt8) : Prop where
  placed : ∀ (k : Nat) b, block[k]? = some b → m'.byteAt (a + k) = b
  kept : ∀ c, c < a ∨ a + block.length ≤ c → m'.byteAt c = m.byteAt c

/-- A byte is one of the block, or the block does not reach it. -/
theorem Overwritten.cases {m m' : Memory size} {a : Int} {block : List UInt8}
    (h : Overwritten m m' a block) (c : Int) :
    (∃ k : Nat, c = a + k ∧ block[k]? = some (m'.byteAt c)) ∨
    ((∀ k : Nat, c = a + k → block[k]? = none) ∧ m'.byteAt c = m.byteAt c) := by
  by_cases hc : a ≤ c ∧ c < a + block.length
  · obtain ⟨k, rfl⟩ : ∃ k : Nat, c = a + k := ⟨(c - a).toNat, by omega⟩
    have hk := List.getElem?_eq_getElem (by omega : k < block.length)
    exact Or.inl ⟨k, rfl, by rw [h.placed k _ hk, hk]⟩
  · refine Or.inr ⟨?_, h.kept c (by omega)⟩
    rintro k rfl
    exact List.getElem?_eq_none (by omega)

/-- A block inside the bank is put there whole. -/
theorem writeBlock_of_inside (m : Memory size) {a : Int} {block : List UInt8}
    (hstart : Inside size a) (hend : Inside size (a + block.length - 1)) :
    ∃ m', m.writeBlock a block = .ok m' ∧ Overwritten m m' a block := by
  refine ⟨_, by rw [writeBlock, if_pos hstart, if_pos hend], ?_, ?_⟩
  · intro k b hb
    have hk := (List.getElem?_eq_some_iff.mp hb).1
    have hin : Inside size (a + k) := by omega
    have hsub : (a + k).toNat - a.toNat = k := by omega
    rw [byteAt, dif_pos hin, Cells.getElem_overwrite, if_pos (by omega), hsub, hb]
    rfl
  · intro c hc
    by_cases hin : Inside size c
    · rw [byteAt, dif_pos hin, byteAt, dif_pos hin, Cells.getElem_overwrite]
      split_ifs with hstart'
      · rw [List.getElem?_eq_none (by omega)]
        rfl
      · rfl
    · rw [byteAt, dif_neg hin, byteAt, dif_neg hin]

/-! ## One byte after another -/

theorem storeEach_fault (m : Memory size) {a : Int} (ha : 0 ≤ a) (bytes : List UInt8) :
    (m.storeEach a bytes).2 =
      if bytes = [] ∨ a + bytes.length ≤ size then none else some (refusal size (max a size)) := by
  induction bytes generalizing m a with
  | nil => simp [storeEach]
  | cons b bytes ih =>
    simp only [List.length_cons, reduceCtorEq, false_or, Int.natCast_succ]
    by_cases hin : Inside size a
    · obtain ⟨m', hm', -⟩ := m.store_of_inside hin b
      rw [storeEach, hm']
      simp only
      rw [ih m' (by omega)]
      cases bytes with
      | nil => simp; omega
      | cons b' bytes =>
        have hmax : max (a + 1) size = max a size := by omega
        simp only [List.length_cons, reduceCtorEq, false_or, Int.natCast_succ, hmax]
        exact if_congr (by omega) rfl rfl
    · rw [storeEach, m.store_of_outside hin, if_neg (by omega)]
      simp only
      rw [show max a size = a by omega]

theorem byteAt_storeEach (m : Memory size) {a : Int} (ha : 0 ≤ a) (bytes : List UInt8) (c : Int) :
    (m.storeEach a bytes).1.byteAt c =
      if a ≤ c ∧ c < size then bytes[(c - a).toNat]?.getD (m.byteAt c) else m.byteAt c := by
  induction bytes generalizing m a with
  | nil => simp [storeEach]
  | cons b bytes ih =>
    by_cases hin : Inside size a
    · obtain ⟨m', hm', hbyte⟩ := m.store_of_inside hin b
      rw [storeEach, hm']
      simp only
      rw [ih m' (by omega), hbyte c]
      rcases Int.lt_trichotomy c a with hlt | rfl | hgt
      · rw [if_neg (by omega), if_neg (by omega), if_neg (by omega)]
      · rw [if_neg (by omega), if_pos rfl, if_pos (by omega), Int.sub_self]
        rfl
      · have hsub : (c - a).toNat = (c - (a + 1)).toNat + 1 := by omega
        rw [if_neg (by omega : c ≠ a), hsub, List.getElem?_cons_succ]
        exact if_congr (by omega) rfl rfl
    · rw [storeEach, m.store_of_outside hin, if_neg (by omega)]

theorem readEach_fault (m : Memory size) {a : Int} (ha : 0 ≤ a) (count : Nat) :
    (m.readEach a count).2 =
      if count = 0 ∨ a + count ≤ size then none else some (refusal size (max a size)) := by
  induction count generalizing a with
  | zero => simp [readEach]
  | succ count ih =>
    by_cases hin : Inside size a
    · rw [readEach, m.read_of_inside hin]
      simp only
      rw [ih (by omega)]
      rcases Nat.eq_zero_or_pos count with rfl | hpos
      · rw [if_pos (Or.inl rfl), if_pos (by omega)]
      · have hmax : max (a + 1) size = max a size := by omega
        rw [hmax]
        exact if_congr (by omega) rfl rfl
    · rw [readEach, m.read_of_outside hin, if_neg (by omega)]
      simp only
      rw [show max a size = a by omega]

/-- The bytes that are read: those before the end of the bank. -/
theorem readEach_bytes (m : Memory size) {a : Int} (ha : 0 ≤ a) (count : Nat) :
    (m.readEach a count).1 =
      (List.range (min count (size - a).toNat)).map fun k : Nat => m.byteAt (a + k) := by
  induction count generalizing a with
  | zero => simp [readEach]
  | succ count ih =>
    by_cases hin : Inside size a
    · have hlen : min (count + 1) (size - a).toNat = min count (size - (a + 1)).toNat + 1 := by
        omega
      rw [readEach, m.read_of_inside hin, hlen, List.range_succ_eq_map, List.map_cons, List.map_map]
      simp only
      rw [ih (by omega)]
      simp [Function.comp_def, Int.add_assoc, Int.add_comm 1]
    · rw [readEach, m.read_of_outside hin, show (size - a).toNat = 0 by omega]
      simp

/-! ## Zeroing -/

/-- An index that names a cell: the cell is zeroed, and the next index follows. -/
theorem zeroFrom_succ (m : Memory size) {i : Int} (count : Nat) (hfit : Cells.FitsWord i)
    (hin : Inside size (Cells.offset size.toNat i)) :
    ∃ m' : Memory size, m.zeroFrom i (count + 1) = m'.zeroFrom (i + 1) count ∧
      ∀ c, m'.byteAt c = if c = Cells.offset size.toNat i then 0 else m.byteAt c := by
  have hcell : 0 ≤ Cells.offset size.toNat i ∧ Cells.offset size.toNat i < size.toNat := by omega
  obtain ⟨m', hstore, hbyte⟩ := m.store_of_inside hin 0
  rw [store, dif_pos hin] at hstore
  cases hstore
  refine ⟨_, ?_, hbyte⟩
  rw [zeroFrom, Cells.resolve, if_pos hfit, dif_pos hcell]

/-- Indices that all name cells.  Those below zero name the cells at the far end; the others name
the cells of their own number. -/
theorem zeroFrom_of_named (m : Memory size) {i : Int} {count : Nat} (hfit : Cells.FitsWord size)
    (hi : -size ≤ i) (hend : i + count ≤ size) :
    (m.zeroFrom i count).2 = none ∧ ∀ c, (m.zeroFrom i count).1.byteAt c =
      if i ≤ c ∧ c < i + count ∨ size + i ≤ c ∧ c < size + i + count then 0 else m.byteAt c := by
  induction count generalizing m i with
  | zero =>
    refine ⟨rfl, fun c => ?_⟩
    rw [if_neg (by omega)]
    rfl
  | succ count ih =>
    have hcell : Cells.offset size.toNat i = if i < 0 then size + i else i := by
      rw [Cells.offset, Int.toNat_of_nonneg (by omega), Int.add_comm]
    have hin : Inside size (Cells.offset size.toNat i) := by
      rw [hcell]
      split_ifs <;> omega
    obtain ⟨m', hstep, hbyte⟩ := m.zeroFrom_succ count (by omega) hin
    obtain ⟨hnone, hrest⟩ := ih m' (i := i + 1) (by omega) (by omega)
    rw [hstep]
    refine ⟨hnone, fun c => ?_⟩
    rw [hrest, hbyte]
    -- of the two addresses that an index can stand for, one lies outside and reads as zero anyway
    by_cases hc : Inside size c
    · have hnow : c = Cells.offset size.toNat i ↔ c = i ∨ c = size + i := by
        rw [hcell]
        split_ifs <;> omega
      simp only [hnow]
      by_cases hfirst : c = i ∨ c = size + i
      · rw [if_pos hfirst, ite_self, if_pos (by omega)]
      · rw [if_neg hfirst]
        exact if_congr (by omega) rfl rfl
    · simp only [m.byteAt_of_outside hc, ite_self]

/-- Clearing a bank is never refused and leaves zeros. -/
theorem clear_eq_blank (m : Memory size) (hfit : Cells.FitsWord size) (hpos : 0 < size) :
    m.clear = (blank size, none) := by
  have hlen : (size.toNat : Int) = size := Int.toNat_of_nonneg (by omega)
  have hend : (0 : Int) + size.toNat ≤ size := by omega
  obtain ⟨hnone, hbyte⟩ := m.zeroFrom_of_named hfit (by omega) hend
  have hclear : m.clear = m.zeroFrom 0 size.toNat := by
    rw [clear, zeroBlock, if_pos (by omega)]
  rw [hclear]
  refine Prod.ext (ext_byteAt fun c => ?_) hnone
  rw [hbyte, byteAt_blank]
  split_ifs with hin
  · rfl
  · exact m.byteAt_of_outside (by omega)

end Memory

end Chip8
