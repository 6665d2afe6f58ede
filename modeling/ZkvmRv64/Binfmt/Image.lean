import ZkvmRv64.Rrs.Memories
import ZkvmRv64.Binfmt.Elf

/-
  ZkvmRv64.Binfmt.Image — `MemoryImage::new` (binfmt/image.rs): a memory space with the
  primary region `[0, MEM_SIZE)`, whose cells are zero but for the program's words (each
  written as a `Word` straight into the region's `VecMemory`, the result of the write
  ignored), and the playground region `[0xd0_0000_0000, + MEM_SIZE)`, all zero.

  Proved: `MemoryImage.new_readMem`, for a program whose keys are multiples of 4 below
  `MEM_SIZE`: each word reads back, every other word of the primary region reads 0, and the
  gap up to the playground is unmapped (so a key there, which `load_elf` accepts, is lost).
-/

namespace ZkvmRv64

/-- `MemoryImage`: the memory space the guest runs in. -/
structure MemoryImage where
  memorySpace : MemorySpace

/-- The base of the playground region. -/
def PLAYGROUND : BitVec 64 := 0xd000000000

/-- `for (addr, data) in program.image.iter() { program_region.write_mem(...) }`. -/
def writeWords (m : VecMemory) : List (BitVec 64 × BitVec 32) → VecMemory
  | [] => m
  | (addr, data) :: rest => writeWords (m.writeMem addr .Word (data.setWidth 64)).1 rest

def MemoryImage.new (P : Platform) (program : Program) : Outcome MemoryImage := do
  let memorySpace ← unwrap (MemorySpace.new.addMemory 0 (BitVec.ofNat 64 P.MEM_SIZE)
    (VecMemory.zeros (P.MEM_SIZE / 8)))
  let program_region ← unwrap (memorySpace.getMemoryMut 0)
  let memorySpace := memorySpace.setMemory 0 (writeWords program_region program.image.entries)
  let memorySpace ← unwrap (memorySpace.addMemory PLAYGROUND (BitVec.ofNat 64 P.MEM_SIZE)
    (VecMemory.zeros (P.MEM_SIZE / 8)))
  return ⟨memorySpace⟩

/-! ## Reading the program back -/

theorem setWidth_and_laneMask_word (d : BitVec 32) : d.setWidth 64 &&& laneMask 32 = d.setWidth 64 := by
  apply BitVec.eq_of_toNat_eq
  simp only [BitVec.toNat_and, BitVec.toNat_setWidth, laneMask, BitVec.toNat_ofNat]
  rw [Nat.mod_eq_of_lt (by decide : 2 ^ 32 - 1 < 2 ^ 64), Nat.and_pow_two_sub_one_eq_mod,
    Nat.mod_eq_of_lt (Nat.lt_of_lt_of_le d.isLt (by decide)), Nat.mod_eq_of_lt d.isLt]

@[simp] theorem len_writeWords (m : VecMemory) :
    ∀ entries : List (BitVec 64 × BitVec 32), (writeWords m entries).len = m.len
  | [] => rfl
  | (_, _) :: rest => by simp [writeWords, len_writeWords _ rest]

/-- Words written at other aligned keys leave the word at `k` as it was. -/
theorem read_writeWords_of_not_key (m : VecMemory) {k : BitVec 64} (hk : k.toNat % 4 = 0) :
    ∀ entries : List (BitVec 64 × BitVec 32), (∀ e ∈ entries, e.1.toNat % 4 = 0 ∧ e.1 ≠ k) →
      (writeWords m entries).readMem k .Word = m.readMem k .Word
  | [], _ => rfl
  | (a, d) :: rest, h => by
    have ha := h (a, d) (List.mem_cons_self _ _)
    simp only [writeWords]
    rw [read_writeWords_of_not_key _ hk rest (fun e he => h e (List.mem_cons_of_mem _ he)),
      VecMemory.readMem_writeMem _ .Word ha.1 hk, if_neg (Ne.symm ha.2)]

/-- Each word written at an aligned key inside `m`, keys ascending, reads back. -/
theorem read_writeWords (m : VecMemory) :
    ∀ entries : List (BitVec 64 × BitVec 32), entries.Pairwise (fun a b => a.1.toNat < b.1.toNat) →
      (∀ e ∈ entries, e.1.toNat % 4 = 0 ∧ e.1.toNat / 8 < m.len) →
      ∀ kw ∈ entries, (writeWords m entries).readMem kw.1 .Word = some (kw.2.setWidth 64)
  | [], _, _, _, h => nomatch h
  | (a, d) :: rest, hs, hk, kw, hmem => by
    rw [List.pairwise_cons] at hs
    have ha := hk (a, d) (List.mem_cons_self _ _)
    have hrest : ∀ e ∈ rest, e.1.toNat % 4 = 0 ∧ e.1.toNat / 8 < (m.writeMem a .Word (d.setWidth 64)).1.len :=
      fun e he => by
        rw [VecMemory.len_writeMem]
        exact hk e (List.mem_cons_of_mem _ he)
    simp only [writeWords]
    rcases List.mem_cons.mp hmem with rfl | hmem
    · rw [read_writeWords_of_not_key _ ha.1 rest fun e he =>
          ⟨(hrest e he).1, fun h' => Nat.lt_irrefl _ (h' ▸ hs.1 e he)⟩,
        VecMemory.readMem_writeMem _ .Word ha.1 ha.1, if_pos rfl]
      simp only [VecMemory.readMem, if_pos ha.2, Option.map_some', MemAccessSize.width,
        MemAccessSize.bytes]
      rw [setWidth_and_laneMask_word]
    · exact read_writeWords _ rest hs.2 hrest kw hmem

/-- A program whose keys are multiples of 4 inside `[0, MEM_SIZE)`: every word reads back from
    the image `MemoryImage::new` builds, every other word of the primary region reads 0, and
    nothing is mapped between the primary region and the playground. -/
theorem MemoryImage.new_readMem (P : Platform) (program : Program)
    (hkeys : ∀ e ∈ program.image.entries, e.1.toNat % 4 = 0 ∧ e.1.toNat < P.MEM_SIZE) :
    ∃ img, MemoryImage.new P program = .ret img ∧
      (∀ kw ∈ program.image.entries, img.memorySpace.readMem kw.1 .Word = some (kw.2.setWidth 64)) ∧
      (∀ k : BitVec 64, k.toNat % 4 = 0 → k.toNat < P.MEM_SIZE →
        (∀ e ∈ program.image.entries, e.1 ≠ k) → img.memorySpace.readMem k .Word = some 0) ∧
      ∀ k : BitVec 64, P.MEM_SIZE ≤ k.toNat → k.toNat < PLAYGROUND.toNat →
        img.memorySpace.readMem k .Word = none := by
  have hsz : (BitVec.ofNat 64 P.MEM_SIZE).toNat = P.MEM_SIZE :=
    Nat.mod_eq_of_lt (Nat.lt_of_le_of_lt P.memSizeLe (by decide))
  have h8 := P.memSizeMul8
  have hle := P.memSizeLe
  let w := writeWords (VecMemory.zeros (P.MEM_SIZE / 8)) program.image.entries
  have hread : ∀ k : BitVec 64, k.toNat < P.MEM_SIZE →
      readRegions [⟨0, BitVec.ofNat 64 P.MEM_SIZE, w⟩,
        ⟨PLAYGROUND, BitVec.ofNat 64 P.MEM_SIZE, VecMemory.zeros (P.MEM_SIZE / 8)⟩] k .Word =
        w.readMem k .Word := by
    intro k hk
    simp [readRegions, MemoryRegion.contains, BitVec.ule, BitVec.ult, hsz, hk]
  refine ⟨⟨⟨[⟨0, BitVec.ofNat 64 P.MEM_SIZE, w⟩,
    ⟨PLAYGROUND, BitVec.ofNat 64 P.MEM_SIZE, VecMemory.zeros (P.MEM_SIZE / 8)⟩]⟩⟩, ?_, ?_, ?_, ?_⟩
  · simp [MemoryImage.new, MemorySpace.addMemory, MemorySpace.new, MemorySpace.getMemoryMut,
      MemorySpace.setMemory, unwrap, PLAYGROUND, hsz, w, Nat.not_lt.mpr hle]
  · intro kw hkw
    rw [MemorySpace.readMem, hread _ (hkeys kw hkw).2]
    exact read_writeWords _ _ program.image.sorted
      (fun e he => ⟨(hkeys e he).1, by have := (hkeys e he).2; simp only [VecMemory.zeros]; omega⟩) kw hkw
  · intro k hk4 hk hne
    rw [MemorySpace.readMem, hread _ hk, read_writeWords_of_not_key _ hk4 _
      fun e he => ⟨(hkeys e he).1, hne e he⟩]
    simp [VecMemory.readMem, VecMemory.zeros, laneGet]
    omega
  · intro k hlo hhi
    simp [MemorySpace.readMem, readRegions, MemoryRegion.contains, BitVec.ule, BitVec.ult, hsz,
      Nat.not_lt.mpr hlo, Nat.not_le.mpr hhi]

/-- A program of one word, `ret` at address 4. -/
def retProgram : Program := ⟨4, WordMap.empty.insert 4 0x00008067⟩

theorem MemoryImage.new_readMem_ret :
    (∀ e ∈ retProgram.image.entries, e.1.toNat % 4 = 0 ∧ e.1.toNat < Platform.small.MEM_SIZE) ∧
    ∃ img, MemoryImage.new Platform.small retProgram = .ret img ∧
      (∀ kw ∈ retProgram.image.entries,
        img.memorySpace.readMem kw.1 .Word = some (kw.2.setWidth 64)) ∧
      (∀ k : BitVec 64, k.toNat % 4 = 0 → k.toNat < Platform.small.MEM_SIZE →
        (∀ e ∈ retProgram.image.entries, e.1 ≠ k) → img.memorySpace.readMem k .Word = some 0) ∧
      ∀ k : BitVec 64, Platform.small.MEM_SIZE ≤ k.toNat → k.toNat < PLAYGROUND.toNat →
        img.memorySpace.readMem k .Word = none :=
  have h : ∀ e ∈ retProgram.image.entries, e.1.toNat % 4 = 0 ∧ e.1.toNat < Platform.small.MEM_SIZE := by
    decide
  ⟨h, MemoryImage.new_readMem Platform.small retProgram h⟩

end ZkvmRv64
