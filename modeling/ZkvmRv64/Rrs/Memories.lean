import ZkvmRv64.Basic

/-
  ZkvmRv64.Rrs.Memories — the memory space the monitor and the image are built on
  (`rrs_lib::memories::{VecMemory, MemorySpace}`, not in the sources, so modelled from the
  spec §2–§4.4): a list of regions `[base, base + size)`, each backed by a vector of 64-bit
  cells. A byte, half, word or doubleword access is a read of, or a partial write to, one
  lane of the cell holding its address, little-endian; an address in no region reads `None`
  and refuses a write (`false`).

  A lane is `w` bits from bit `sh` of a cell (`laneGet`, `laneSet`); an access of `n` bytes
  at `a` is the lane `8 * (a % 8 / n * n)`, `8 * n` bits wide, of cell `a / 8`.

  Proved: `laneGet_laneSet_self` / `laneGet_laneSet_of_disjoint` (a lane write is seen by
  its own lane only), and from them `readMem_writeMem` for `VecMemory` and for
  `MemorySpace`: after a write of an aligned address, a read of the same size at the same
  address gives the written value, and at any other aligned address what it gave before.
  A write changes no region's extent (`readRegions_writeRegions_isSome`).
-/

namespace ZkvmRv64

/-! ## Lanes of a 64-bit cell -/

def laneMask (w : Nat) : BitVec 64 := BitVec.ofNat 64 (2 ^ w - 1)

def laneGet (c : BitVec 64) (sh w : Nat) : BitVec 64 := (c >>> sh) &&& laneMask w

def laneSet (c : BitVec 64) (sh w : Nat) (v : BitVec 64) : BitVec 64 :=
  (c &&& ~~~(laneMask w <<< sh)) ||| ((v &&& laneMask w) <<< sh)

theorem laneGet_laneSet_self (c v : BitVec 64) {sh w : Nat} (h : sh + w ≤ 64) :
    laneGet (laneSet c sh w v) sh w = v &&& laneMask w := by
  ext ⟨i, hi⟩
  simp only [laneGet, laneSet, laneMask, BitVec.getLsbD_and, BitVec.getLsbD_or,
    BitVec.getLsbD_ushiftRight, BitVec.getLsbD_shiftLeft, BitVec.getLsbD_not, BitVec.getLsbD_ofNat,
    Nat.testBit_two_pow_sub_one]
  by_cases hw : i < w
  · simp [hw, hi, show sh + i < 64 by omega, show ¬ sh + i < sh by omega, Nat.add_sub_cancel_left]
  · simp [hw]

theorem laneGet_laneSet_of_disjoint (c v : BitVec 64) {sh w sh' w' : Nat}
    (h : sh' + w' ≤ sh ∨ sh + w ≤ sh') :
    laneGet (laneSet c sh w v) sh' w' = laneGet c sh' w' := by
  ext ⟨i, hi⟩
  simp only [laneGet, laneSet, laneMask, BitVec.getLsbD_and, BitVec.getLsbD_or,
    BitVec.getLsbD_ushiftRight, BitVec.getLsbD_shiftLeft, BitVec.getLsbD_not, BitVec.getLsbD_ofNat,
    Nat.testBit_two_pow_sub_one]
  by_cases hw : i < w'
  · by_cases hr : sh' + i < 64
    · by_cases hlt : sh' + i < sh
      · simp [hw, hlt, hr]
      · simp [hw, hlt, hr, show ¬ (sh' + i - sh < w) by omega]
    · simp [hr, BitVec.getLsbD_ge c (sh' + i) (by omega)]
  · simp [hw]

/-- The bit offset, inside its cell, of an access of `size` at byte address `addr`. -/
def MemAccessSize.shift (size : MemAccessSize) (addr : Nat) : Nat :=
  8 * (addr % 8 / size.bytes * size.bytes)

def MemAccessSize.width (size : MemAccessSize) : Nat := 8 * size.bytes

theorem MemAccessSize.shift_add_width_le (size : MemAccessSize) (addr : Nat) :
    size.shift addr + size.width ≤ 64 := by
  cases size <;> simp only [shift, width, bytes] <;> omega

/-- Two distinct aligned accesses of one size in one cell use disjoint lanes. -/
theorem MemAccessSize.lanes_disjoint (size : MemAccessSize) {a b : Nat} (hab : a ≠ b)
    (hcell : a / 8 = b / 8) (ha : a % size.bytes = 0) (hb : b % size.bytes = 0) :
    size.shift a + size.width ≤ size.shift b ∨ size.shift b + size.width ≤ size.shift a := by
  cases size <;> simp only [shift, width, bytes] at * <;> omega

/-! ## `VecMemory` -/

/-- Modelled from the spec: `rrs_lib::memories::VecMemory`, a vector of `len` 64-bit cells
    (`mem i` is cell `i`), addressed from 0 inside its region. -/
structure VecMemory where
  mem : Nat → BitVec 64
  len : Nat

/-- `VecMemory::new(vec![0_u64; len])`. -/
def VecMemory.zeros (len : Nat) : VecMemory := ⟨fun _ => 0, len⟩

namespace VecMemory

def readMem (m : VecMemory) (addr : BitVec 64) (size : MemAccessSize) : Option (BitVec 64) :=
  if addr.toNat / 8 < m.len then
    some (laneGet (m.mem (addr.toNat / 8)) (size.shift addr.toNat) size.width)
  else none

def writeMem (m : VecMemory) (addr : BitVec 64) (size : MemAccessSize) (store_data : BitVec 64) :
    VecMemory × Bool :=
  let i := addr.toNat / 8
  if i < m.len then
    ({ m with mem := fun j =>
        if j = i then laneSet (m.mem i) (size.shift addr.toNat) size.width store_data else m.mem j },
      true)
  else (m, false)

@[simp] theorem len_writeMem (m : VecMemory) (addr : BitVec 64) (size : MemAccessSize)
    (v : BitVec 64) : (m.writeMem addr size v).1.len = m.len := by
  simp only [writeMem]; split <;> rfl

theorem readMem_isSome (m : VecMemory) (addr : BitVec 64) (size : MemAccessSize) :
    (m.readMem addr size).isSome = decide (addr.toNat / 8 < m.len) := by
  unfold readMem; split <;> simp [*]

theorem writeMem_snd (m : VecMemory) (addr : BitVec 64) (size : MemAccessSize) (v : BitVec 64) :
    (m.writeMem addr size v).2 = (m.readMem addr size).isSome := by
  rw [readMem_isSome]; simp only [writeMem]; split <;> simp [*]

theorem readMem_writeMem (m : VecMemory) (size : MemAccessSize) {a b : BitVec 64}
    (ha : a.toNat % size.bytes = 0) (hb : b.toNat % size.bytes = 0) (v : BitVec 64) :
    (m.writeMem a size v).1.readMem b size =
      if b = a then (m.readMem a size).map (fun _ => v &&& laneMask size.width)
      else m.readMem b size := by
  simp only [writeMem]
  by_cases hi : a.toNat / 8 < m.len
  · simp only [hi, if_true, readMem]
    by_cases hba : b = a
    · subst hba
      simp [hi, laneGet_laneSet_self _ _ (MemAccessSize.shift_add_width_le _ _)]
    · have hne : a.toNat ≠ b.toNat := fun h => hba (BitVec.eq_of_toNat_eq h.symm)
      by_cases hcell : b.toNat / 8 = a.toNat / 8
      · simpa [hba, hcell, hi] using laneGet_laneSet_of_disjoint (m.mem (a.toNat / 8)) v
          (size.lanes_disjoint hne hcell.symm ha hb).symm
      · simp [hba, hcell]
  · simp only [hi, if_false]
    split
    · subst_vars; simp [readMem, hi]
    · rfl

end VecMemory

/-! ## `MemorySpace` -/

/-- Modelled from the spec: a region `[base, base + size)` of a `MemorySpace`. -/
structure MemoryRegion where
  base : BitVec 64
  size : BitVec 64
  memory : VecMemory

def MemoryRegion.contains (r : MemoryRegion) (addr : BitVec 64) : Bool :=
  r.base.ule addr && (addr - r.base).ult r.size

@[simp] theorem MemoryRegion.contains_memory (r : MemoryRegion) (m : VecMemory) (a : BitVec 64) :
    { r with memory := m }.contains a = r.contains a := rfl

/-- Modelled from the spec: `rrs_lib::memories::MemorySpace`, its regions in the order they
    were added; an access goes to the first region containing its address. -/
structure MemorySpace where
  regions : List MemoryRegion

def readRegions : List MemoryRegion → BitVec 64 → MemAccessSize → Option (BitVec 64)
  | [], _, _ => none
  | r :: rs, addr, size =>
    if r.contains addr then r.memory.readMem (addr - r.base) size else readRegions rs addr size

def writeRegions : List MemoryRegion → BitVec 64 → MemAccessSize → BitVec 64 →
    List MemoryRegion × Bool
  | [], _, _, _ => ([], false)
  | r :: rs, addr, size, v =>
    if r.contains addr then
      let w := r.memory.writeMem (addr - r.base) size v
      ({ r with memory := w.1 } :: rs, w.2)
    else
      let w := writeRegions rs addr size v
      (r :: w.1, w.2)

namespace MemorySpace

def new : MemorySpace := ⟨[]⟩

def readMem (s : MemorySpace) (addr : BitVec 64) (size : MemAccessSize) : Option (BitVec 64) :=
  readRegions s.regions addr size

def writeMem (s : MemorySpace) (addr : BitVec 64) (size : MemAccessSize) (store_data : BitVec 64) :
    MemorySpace × Bool :=
  let w := writeRegions s.regions addr size store_data
  (⟨w.1⟩, w.2)

/-- Modelled from the spec: `add_memory` registers a region unless it overlaps one already
    there (the space's regions stay pairwise disjoint). -/
def addMemory (s : MemorySpace) (base size : BitVec 64) (memory : VecMemory) :
    Option MemorySpace :=
  if s.regions.any fun r => base.toNat < r.base.toNat + r.size.toNat &&
      r.base.toNat < base.toNat + size.toNat then none
  else some ⟨s.regions ++ [⟨base, size, memory⟩]⟩

/-- `get_memory_mut::<VecMemory>(base)`: the memory of the region at `base`. -/
def getMemoryMut (s : MemorySpace) (base : BitVec 64) : Option VecMemory :=
  (s.regions.find? (·.base == base)).map (·.memory)

/-- Writing back through the `&mut` that `get_memory_mut` handed out. -/
def setMemory (s : MemorySpace) (base : BitVec 64) (m : VecMemory) : MemorySpace :=
  ⟨s.regions.map fun r => if r.base = base then { r with memory := m } else r⟩

end MemorySpace

theorem sub_right_cancel {x y z : BitVec 64} : x - z = y - z ↔ x = y :=
  ⟨fun h => by rw [← BitVec.sub_add_cancel x z, h, BitVec.sub_add_cancel], fun h => h ▸ rfl⟩

/-- A byte write is seen by a byte read of its own address only. -/
theorem readRegions_writeRegions (a b v : BitVec 64) :
    ∀ rs : List MemoryRegion, readRegions (writeRegions rs a .Byte v).1 b .Byte =
      if b = a then (readRegions rs a .Byte).map (fun _ => v &&& laneMask 8)
      else readRegions rs b .Byte
  | [] => by simp [writeRegions, readRegions]
  | r :: rs => by
    have ih := readRegions_writeRegions a b v rs
    have hvec := @VecMemory.readMem_writeMem r.memory .Byte (a - r.base) (b - r.base)
      (Nat.mod_one _) (Nat.mod_one _) v
    by_cases hra : r.contains a <;> by_cases hrb : r.contains b
    · simpa [writeRegions, readRegions, hra, hrb, sub_right_cancel] using hvec
    · have : b ≠ a := by rintro rfl; exact hrb hra
      simp [writeRegions, readRegions, hra, hrb, this]
    · have : b ≠ a := by rintro rfl; exact hra hrb
      simp [writeRegions, readRegions, hra, hrb, this]
    · simp only [writeRegions, readRegions, hra, hrb, if_false, Bool.false_eq_true]
      exact ih

/-- A write changes no region's extent: what reads `None` stays so, and nothing else does. -/
theorem readRegions_writeRegions_isSome (a b v : BitVec 64) (s s' : MemAccessSize) :
    ∀ rs : List MemoryRegion,
      (readRegions (writeRegions rs a s v).1 b s').isSome = (readRegions rs b s').isSome
  | [] => rfl
  | r :: rs => by
    by_cases hra : r.contains a <;> by_cases hrb : r.contains b <;>
      simp [writeRegions, readRegions, hra, hrb, VecMemory.readMem_isSome,
        readRegions_writeRegions_isSome a b v s s' rs]

/-- A write succeeds exactly when a read of its address and size would. -/
theorem writeRegions_snd (a v : BitVec 64) (s : MemAccessSize) :
    ∀ rs : List MemoryRegion, (writeRegions rs a s v).2 = (readRegions rs a s).isSome
  | [] => rfl
  | r :: rs => by
    by_cases hra : r.contains a <;>
      simp [writeRegions, readRegions, hra, VecMemory.writeMem_snd, writeRegions_snd a v s rs]

end ZkvmRv64
