import ZkvmRv64.Rrs.Memories
import ZkvmRv64.Rrs.Hart

/-
  ZkvmRv64.Rrs.ByteView — a `MemorySpace` read byte by byte, and `impl Memory for
  MemorySpace`, the memory rrs runs on when no monitor stands in between.

  A cell access of `n` bytes at an `n`-aligned offset is the lane `8 * (o % 8)`, `8n` bits
  wide, of cell `o / 8`; byte `o + i` of it is the lane `8 * (o % 8) + 8i`, 8 bits wide, of
  the same cell. When every region starts at a multiple of 8 and spans whole 8-byte blocks
  (`MemorySpace.WellFormed`), the bytes of an aligned access lie in the region of its first
  byte, or all in none, whatever the regions' order and overlaps.

  Proved:
  - `readRegions_byte`: byte `a + i` of a well-formed space reads as byte `i` of the aligned
    access at `a`, and is unmapped when the access is.
  - `readRegions_writeRegions_byte`: after an aligned write of `v` at `a`, byte `b` reads as
    byte `b - a` of `v` when `b` lies in `[a, a + n)` and is mapped, and as before otherwise.
  - `writeRegions_wellFormed`: a write keeps every region where it was.
-/

namespace ZkvmRv64

/-! ## Lanes inside lanes -/

theorem laneGet_laneGet (c : BitVec 64) {sh w sh' w' : Nat} (h : sh' + w' ≤ w) :
    laneGet (laneGet c sh w) sh' w' = laneGet c (sh + sh') w' := by
  ext ⟨i, hi⟩
  simp only [laneGet, laneMask, BitVec.getLsbD_and, BitVec.getLsbD_ushiftRight,
    BitVec.getLsbD_ofNat, Nat.testBit_two_pow_sub_one]
  by_cases hw : i < w'
  · by_cases hr : sh' + i < 64
    · simp [hw, hr, show sh' + i < w by omega, Nat.add_assoc]
    · simp [hw, hr, BitVec.getLsbD_ge c (sh + (sh' + i)) (by omega),
        BitVec.getLsbD_ge c (sh + sh' + i) (by omega)]
  · simp [hw]

/-- A lane inside a written lane reads the matching lane of the written value. -/
theorem laneGet_laneSet_inner (c v : BitVec 64) {sh w sh' w' : Nat} (h1 : sh ≤ sh')
    (h2 : sh' + w' ≤ sh + w) (h : sh + w ≤ 64) :
    laneGet (laneSet c sh w v) sh' w' = laneGet v (sh' - sh) w' := by
  ext ⟨i, hi⟩
  simp only [laneGet, laneSet, laneMask, BitVec.getLsbD_and, BitVec.getLsbD_or,
    BitVec.getLsbD_ushiftRight, BitVec.getLsbD_shiftLeft, BitVec.getLsbD_not, BitVec.getLsbD_ofNat,
    Nat.testBit_two_pow_sub_one]
  by_cases hw : i < w'
  · simp [hw, hi, show sh' + i < 64 by omega, show ¬ sh' + i < sh by omega,
      show sh' + i - sh < w by omega, show sh' - sh + i = sh' + i - sh by omega,
      show sh' + i - sh < 64 by omega]
  · simp [hw]

theorem laneGet_lt (c : BitVec 64) (sh w : Nat) : (laneGet c sh w).toNat < 2 ^ w := by
  simp only [laneGet, laneMask, BitVec.toNat_and, BitVec.toNat_ofNat]
  by_cases hw : w < 64
  · rw [Nat.mod_eq_of_lt (by have := Nat.pow_lt_pow_of_lt (by decide : 1 < 2) hw; omega),
      Nat.and_pow_two_sub_one_eq_mod]
    exact Nat.mod_lt _ (Nat.two_pow_pos w)
  · exact Nat.lt_of_lt_of_le (Nat.lt_of_le_of_lt Nat.and_le_left (BitVec.isLt _))
      (Nat.pow_le_pow_right (by decide) (by omega))

/-! ## One cell, byte by byte -/

@[simp] theorem MemAccessSize.bytes_byte : MemAccessSize.Byte.bytes = 1 := rfl
@[simp] theorem MemAccessSize.width_byte : MemAccessSize.Byte.width = 8 := rfl

/-- `b` is one of the `n` bytes of the access of `size` at `a`. -/
def MemAccessSize.Covers (size : MemAccessSize) (a b : BitVec 64) : Prop :=
  a.toNat ≤ b.toNat ∧ b.toNat < a.toNat + size.bytes

instance (size : MemAccessSize) (a b : BitVec 64) : Decidable (size.Covers a b) :=
  inferInstanceAs (Decidable (_ ∧ _))

/-- An aligned access of `n` bytes sits in its cell at byte `a % 8`, and fits there. -/
theorem MemAccessSize.shift_of_aligned (size : MemAccessSize) {a : Nat} (ha : a % size.bytes = 0) :
    size.shift a = 8 * (a % 8) ∧ a % 8 + size.bytes ≤ 8 := by
  cases size <;> simp only [shift, bytes] at * <;> omega

/-- The cell arithmetic of one aligned access: its bytes share its cell, and byte `b` is the
    lane `8 * (b - a)` of the access's lane. -/
theorem MemAccessSize.covers_cell (size : MemAccessSize) {a b : Nat} (ha : a % size.bytes = 0)
    (hb : a ≤ b ∧ b < a + size.bytes) :
    b / 8 = a / 8 ∧ MemAccessSize.Byte.shift b = size.shift a + 8 * (b - a) ∧
      8 * (b - a) + 8 ≤ size.width := by
  obtain ⟨hsh, hfit⟩ := size.shift_of_aligned ha
  simp only [hsh, (MemAccessSize.Byte.shift_of_aligned (Nat.mod_one b)).1, width]
  omega

/-- Byte `i` of an aligned access of `n` bytes, `i < n`, is `a + i`, which does not wrap. -/
theorem MemAccessSize.toNat_add_of_lt (size : MemAccessSize) {a : BitVec 64}
    (ha : a.toNat % size.bytes = 0) {i : Nat} (hi : i < size.bytes) :
    (a + BitVec.ofNat 64 i).toNat = a.toNat + i := by
  have := a.isLt
  have := (size.shift_of_aligned ha).2
  simp only [BitVec.toNat_add, BitVec.toNat_ofNat]
  omega

theorem MemAccessSize.covers_add (size : MemAccessSize) {a : BitVec 64}
    (ha : a.toNat % size.bytes = 0) {i : Nat} (hi : i < size.bytes) :
    size.Covers a (a + BitVec.ofNat 64 i) := by
  simp only [Covers, size.toNat_add_of_lt ha hi]
  omega

namespace VecMemory

theorem readMem_byte (m : VecMemory) (size : MemAccessSize) {a b : BitVec 64}
    (ha : a.toNat % size.bytes = 0) (hb : size.Covers a b) :
    m.readMem b .Byte = (m.readMem a size).map fun v => laneGet v (8 * (b.toNat - a.toNat)) 8 := by
  obtain ⟨hcell, hsh, hw⟩ := size.covers_cell ha hb
  simp only [readMem, hcell]
  split <;> simp [laneGet_laneGet _ hw, hsh]

theorem readMem_writeMem_byte (m : VecMemory) (size : MemAccessSize) {a : BitVec 64}
    (ha : a.toNat % size.bytes = 0) (v b : BitVec 64) :
    (m.writeMem a size v).1.readMem b .Byte =
      if size.Covers a b then (m.readMem b .Byte).map fun _ => laneGet v (8 * (b.toNat - a.toNat)) 8
      else m.readMem b .Byte := by
  by_cases hi : a.toNat / 8 < m.len
  · simp only [writeMem, if_pos hi, readMem]
    by_cases hc : size.Covers a b
    · obtain ⟨hcell, hsh, hw⟩ := size.covers_cell ha hc
      simp only [if_pos hc, hcell, if_pos hi, if_true, Option.map_some']
      rw [laneGet_laneSet_inner _ _ (by omega) (by rw [hsh, MemAccessSize.width_byte]; omega)
        (size.shift_add_width_le _), hsh, Nat.add_sub_cancel_left, MemAccessSize.width_byte]
    · simp only [if_neg hc]
      by_cases hcell : b.toNat / 8 = a.toNat / 8
      · have hdis : MemAccessSize.Byte.shift b.toNat + MemAccessSize.Byte.width ≤ size.shift a.toNat ∨
            size.shift a.toNat + size.width ≤ MemAccessSize.Byte.shift b.toNat := by
          obtain ⟨hsh, hfit⟩ := size.shift_of_aligned ha
          simp only [MemAccessSize.Covers] at hc
          simp only [hsh, (MemAccessSize.Byte.shift_of_aligned (Nat.mod_one b.toNat)).1,
            MemAccessSize.width, MemAccessSize.bytes_byte]
          omega
        simp only [hcell, if_pos hi, if_true, laneGet_laneSet_of_disjoint _ _ hdis]
      · simp only [hcell, if_false]
  · simp only [writeMem, if_neg hi]
    split
    · next hc => simp [readMem, (size.covers_cell ha hc).1, hi]
    · rfl

end VecMemory

/-! ## Little-endian packing, byte by byte -/

/-- Byte `i` of a little-endian packing of at most 8 bytes is the `i`-th byte packed. -/
theorem laneGet_fromLeBytes : ∀ (xs : List (BitVec 8)) (i : Nat) (hi : i < xs.length), i < 8 →
    laneGet (fromLeBytes xs) (8 * i) 8 = xs[i].setWidth 64
  | [], _, hi, _ => absurd hi (Nat.not_lt_zero _)
  | x :: xs, 0, _, _ => by
    ext ⟨j, hj⟩
    simp only [laneGet, laneMask, fromLeBytes, BitVec.getLsbD_and, BitVec.getLsbD_or,
      BitVec.getLsbD_ushiftRight, BitVec.getLsbD_shiftLeft, BitVec.getLsbD_setWidth, BitVec.getLsbD_ofNat,
      Nat.testBit_two_pow_sub_one]
    by_cases h8 : j < 8
    · simp [h8, hj]
    · simp [h8, BitVec.getLsbD_ge x j (by omega)]
  | x :: xs, i + 1, hi, h8 => by
    have ih := laneGet_fromLeBytes xs i (by simpa using hi) (by omega)
    rw [List.getElem_cons_succ, ← ih]
    ext ⟨j, hj⟩
    simp only [laneGet, laneMask, fromLeBytes, BitVec.getLsbD_and, BitVec.getLsbD_or,
      BitVec.getLsbD_ushiftRight, BitVec.getLsbD_shiftLeft, BitVec.getLsbD_setWidth, BitVec.getLsbD_ofNat,
      Nat.testBit_two_pow_sub_one]
    by_cases hj8 : j < 8
    · simp [hj8, show 8 * (i + 1) + j < 64 by omega, show 8 * i + j < 64 by omega,
        show ¬ 8 * (i + 1) + j < 8 by omega, BitVec.getLsbD_ge x (8 * (i + 1) + j) (by omega),
        show 8 * (i + 1) + j - 8 = 8 * i + j by omega]
    · simp [hj8]

/-- The bytes of `v mod 2^(8n)`, packed little-endian, are the byte lanes of `v`. -/
theorem laneGet_of_fromLeBytes {xs : List (BitVec 8)} (hn : xs.length ≤ 8) {v : BitVec 64}
    (h : fromLeBytes xs = BitVec.ofNat 64 (v.toNat % 2 ^ (8 * xs.length))) (i : Nat)
    (hi : i < xs.length) : xs[i].setWidth 64 = laneGet v (8 * i) 8 := by
  rw [← laneGet_fromLeBytes xs i hi (by omega), h]
  ext ⟨j, hj⟩
  simp only [laneGet, laneMask, BitVec.getLsbD_and, BitVec.getLsbD_ushiftRight, BitVec.getLsbD_ofNat,
    Nat.testBit_two_pow_sub_one, Nat.testBit_mod_two_pow, BitVec.testBit_toNat]
  by_cases hj8 : j < 8
  · simp [hj8, hj, show 8 * i + j < 8 * xs.length by omega, show 8 * i + j < 64 by omega]
  · simp [hj8]

/-! ## Well-formed spaces -/

/-- A region that starts at a multiple of 8 and spans whole 8-byte blocks. -/
def MemoryRegion.WellFormed (r : MemoryRegion) : Prop :=
  r.base.toNat % 8 = 0 ∧ r.size.toNat % 8 = 0

/-- Every region of the space starts at a multiple of 8 and spans whole 8-byte blocks. -/
def MemorySpace.WellFormed (s : MemorySpace) : Prop := ∀ r ∈ s.regions, r.WellFormed

instance : DecidablePred MemoryRegion.WellFormed := fun _ => inferInstanceAs (Decidable (_ ∧ _))

instance (s : MemorySpace) : Decidable s.WellFormed :=
  inferInstanceAs (Decidable (∀ r ∈ s.regions, r.WellFormed))

namespace MemoryRegion

theorem contains_iff (r : MemoryRegion) (a : BitVec 64) :
    r.contains a = true ↔ r.base.toNat ≤ a.toNat ∧ a.toNat < r.base.toNat + r.size.toNat := by
  simp only [contains, Bool.and_eq_true, BitVec.ule, BitVec.ult, decide_eq_true_eq]
  constructor <;> intro h <;> bv_omega

theorem toNat_sub_base {r : MemoryRegion} {a : BitVec 64} (h : r.contains a = true) :
    (a - r.base).toNat = a.toNat - r.base.toNat := by
  have := (r.contains_iff a).mp h
  bv_omega

/-- The bytes of an aligned access lie in a well-formed region together, or outside it. -/
theorem WellFormed.contains_eq {r : MemoryRegion} (hr : r.WellFormed) {size : MemAccessSize}
    {a b : BitVec 64} (ha : a.toNat % size.bytes = 0) (hb : size.Covers a b) :
    r.contains b = r.contains a := by
  have hfit := (size.shift_of_aligned ha).2
  rw [Bool.eq_iff_iff, contains_iff, contains_iff]
  simp only [WellFormed, MemAccessSize.Covers] at hr hb
  omega

/-- Inside a well-formed region, an aligned access is an aligned access of the region's
    memory, at the offset from the base. -/
theorem WellFormed.sub_base {r : MemoryRegion} (hr : r.WellFormed) {size : MemAccessSize}
    {a b : BitVec 64} (ha : a.toNat % size.bytes = 0) (hin : r.contains a = true) :
    (a - r.base).toNat % size.bytes = 0 ∧ (r.contains b = true →
      (size.Covers (a - r.base) (b - r.base) ↔ size.Covers a b) ∧
        (b - r.base).toNat - (a - r.base).toNat = b.toNat - a.toNat) := by
  have hba := (r.contains_iff a).mp hin
  rw [toNat_sub_base hin]
  have h8 : size.bytes ∣ 8 := by cases size <;> decide
  refine ⟨Nat.mod_eq_zero_of_dvd (Nat.dvd_sub' (Nat.dvd_of_mod_eq_zero ha)
    (Nat.dvd_trans h8 (Nat.dvd_of_mod_eq_zero hr.1))), fun hb => ?_⟩
  have := (r.contains_iff b).mp hb
  simp only [MemAccessSize.Covers, toNat_sub_base hb, toNat_sub_base hin]
  omega

end MemoryRegion

theorem readRegions_byte (size : MemAccessSize) {a b : BitVec 64} (ha : a.toNat % size.bytes = 0)
    (hb : size.Covers a b) : ∀ rs : List MemoryRegion, (∀ r ∈ rs, r.WellFormed) →
      readRegions rs b .Byte =
        (readRegions rs a size).map fun v => laneGet v (8 * (b.toNat - a.toNat)) 8
  | [], _ => rfl
  | r :: rs, hwf => by
    have hr := hwf r (List.mem_cons_self _ _)
    simp only [readRegions, hr.contains_eq ha hb]
    split
    · next hin =>
      obtain ⟨ho, hsub⟩ := hr.sub_base ha hin
      obtain ⟨hc, hd⟩ := hsub (hr.contains_eq ha hb ▸ hin)
      rw [VecMemory.readMem_byte _ size ho (hc.mpr hb), hd]
    · exact readRegions_byte size ha hb rs fun r' h => hwf r' (List.mem_cons_of_mem _ h)

theorem readRegions_writeRegions_byte (size : MemAccessSize) {a : BitVec 64}
    (ha : a.toNat % size.bytes = 0) (v b : BitVec 64) :
    ∀ rs : List MemoryRegion, (∀ r ∈ rs, r.WellFormed) →
      readRegions (writeRegions rs a size v).1 b .Byte =
        if size.Covers a b then
          (readRegions rs b .Byte).map fun _ => laneGet v (8 * (b.toNat - a.toNat)) 8
        else readRegions rs b .Byte
  | [], _ => by simp [writeRegions, readRegions]
  | r :: rs, hwf => by
    have hr := hwf r (List.mem_cons_self _ _)
    have ih := readRegions_writeRegions_byte size ha v b rs fun r' h => hwf r' (List.mem_cons_of_mem _ h)
    by_cases hra : r.contains a <;> by_cases hrb : r.contains b
    · obtain ⟨ho, hsub⟩ := hr.sub_base ha hra
      obtain ⟨hc, hd⟩ := hsub hrb
      simp only [writeRegions, readRegions, hra, hrb, if_true, MemoryRegion.contains_memory]
      rw [VecMemory.readMem_writeMem_byte _ size ho, hd]
      exact if_congr hc rfl rfl
    · have hc : ¬ size.Covers a b := fun hc => hrb (hr.contains_eq ha hc ▸ hra)
      simp [writeRegions, readRegions, hra, hrb, hc]
    · have hc : ¬ size.Covers a b := fun hc => hra (hr.contains_eq ha hc ▸ hrb)
      simp [writeRegions, readRegions, hra, hrb, hc]
    · simp only [writeRegions, readRegions, hra, hrb, if_false, Bool.false_eq_true]
      exact ih

/-- A write keeps every region's base and size, so a well-formed space stays well formed. -/
theorem writeRegions_wellFormed (a : BitVec 64) (size : MemAccessSize) (v : BitVec 64) :
    ∀ rs : List MemoryRegion, (∀ r ∈ rs, r.WellFormed) → ∀ r ∈ (writeRegions rs a size v).1, r.WellFormed
  | [], _ => by simp [writeRegions]
  | r :: rs, hwf => by
    have ih := writeRegions_wellFormed a size v rs fun r' h => hwf r' (List.mem_cons_of_mem _ h)
    unfold writeRegions
    split
    · intro r' hr'
      rcases List.mem_cons.mp hr' with rfl | hr'
      · exact hwf r (List.mem_cons_self _ _)
      · exact hwf r' (List.mem_cons_of_mem _ hr')
    · intro r' hr'
      rcases List.mem_cons.mp hr' with rfl | hr'
      · exact hwf r' (List.mem_cons_self _ _)
      · exact ih r' hr'

/-- What an access of `size` reads fits in `8n` bits. -/
theorem readRegions_lt {size : MemAccessSize} {a v : BitVec 64} :
    ∀ rs : List MemoryRegion, readRegions rs a size = some v → v.toNat < 2 ^ size.width
  | [], h => nomatch h
  | r :: rs, h => by
    simp only [readRegions] at h
    split at h
    · simp only [VecMemory.readMem] at h
      split at h
      · cases h; exact laneGet_lt _ _ _
      · cases h
    · exact readRegions_lt rs h

/-! ## `impl Memory for MemorySpace` -/

/-- Two spaces that read alike at every byte address: the same addresses mapped, each holding
    the same byte. -/
def MemorySpace.SameBytes (s t : MemorySpace) : Prop := ∀ a, s.readMem a .Byte = t.readMem a .Byte

/-- `impl Memory for MemorySpace` (rrs-lib): each access goes to the region holding its
    address; a read leaves the space as it was. -/
def MemorySpace.memory : Memory MemorySpace where
  readMem s addr size := .ret (s.readMem addr size, s)
  writeMem s addr size store_data :=
    let w := s.writeMem addr size store_data
    .ret (w.2, w.1)

theorem MemorySpace.memory_readMem (s : MemorySpace) (addr : BitVec 64) (size : MemAccessSize) :
    MemorySpace.memory.readMem s addr size = .ret (s.readMem addr size, s) := rfl

theorem MemorySpace.memory_writeMem (s : MemorySpace) (addr : BitVec 64) (size : MemAccessSize)
    (v : BitVec 64) :
    MemorySpace.memory.writeMem s addr size v = .ret ((s.writeMem addr size v).2, (s.writeMem addr size v).1) :=
  rfl

end ZkvmRv64
