import ZkvmRv64.Exec.Atomic
import ZkvmRv64.Exec.RoundTrip
import ZkvmRv64.Rrs.ByteView

/-
  ZkvmRv64.Exec.Direct — the zkvm against rrs on its own: the executor on the monitor against
  the executor stepping straight on the memory space
  (`impl Memory for MemorySpace`).

  The two memories part outside the `Memory` trait's contract. The space reads an unaligned
  address at the aligned-down lane and refuses an unmapped access (`None`, `false`); the
  monitor panics on an unaligned or unmapped load and accepts every store, dropping at commit
  the bytes that fall outside every region. `Memory.monitored` is a memory as the monitor
  presents it: an unaligned access or a read that finds nothing panics, and a write reports
  success whether the memory took it or not. `Memory.strict` holds a memory to the contract:
  a refused write panics too. A run on `M.strict` returns only when every access it made was
  aligned and found memory, and then it returns what the runs on `M` and on `M.monitored`
  return.

  Inside the contract the monitor is the space. It splits each access into bytes, and on a
  well-formed space (`MemorySpace.WellFormed`) the bytes of an aligned access are the lanes
  of one cell: a load assembles what the space reads, and the records of a store, once
  committed, leave every byte as the space's write does (`Mirrors`, `MirrorsFlushed`).

  Proved:
  - `space_simulates_monitor`, `monitor_simulates_space`: while the monitor holds a space's
    bytes with nothing pending, each access of the space as the monitor presents it is one of
    the monitor, and conversely.
  - `step_monitor_iff_space`: the executor on the monitor is rrs on the space as the monitor
    presents it, step for step: a store outside every region is dropped, and nothing else
    differs. `Exec.Run` takes whole runs, the register file included.
-/

namespace ZkvmRv64

/-! ## The `Memory` contract -/

/-- `M` as the monitor presents a memory: an access at an address that is not a multiple of
    its size panics, a read that finds nothing panics, and a write reports success whether
    `M` took it or not. -/
def Memory.monitored {σ : Type} (M : Memory σ) : Memory σ where
  readMem s addr size := do
    assertEq (addr.toNat % size.bytes) 0 "unaligned access"
    let (r, s) ← M.readMem s addr size
    let v ← unwrap r
    return (some v, s)
  writeMem s addr size store_data := do
    assertEq (addr.toNat % size.bytes) 0 "unaligned access"
    let (_, s) ← M.writeMem s addr size store_data
    return (true, s)

/-- `M` held to the `Memory` trait's contract: as `M.monitored`, and a refused write panics. -/
def Memory.strict {σ : Type} (M : Memory σ) : Memory σ where
  readMem := M.monitored.readMem
  writeMem s addr size store_data := do
    assertEq (addr.toNat % size.bytes) 0 "unaligned access"
    let (ok, s) ← M.writeMem s addr size store_data
    if ok then return (true, s) else .panic "refused write"

theorem eq_of_assertEq {l r : Nat} {msg : String} {u : Unit} (h : assertEq l r msg = .ret u) :
    l = r := by
  unfold assertEq at h
  split at h
  · assumption
  · cases h

section Contract

variable {σ : Type} {M : Memory σ} {s s' : σ} {addr data : BitVec 64} {size : MemAccessSize}

theorem Memory.monitored_readMem {r : Option (BitVec 64)}
    (h : M.monitored.readMem s addr size = .ret (r, s')) :
    addr.toNat % size.bytes = 0 ∧ ∃ v, r = some v ∧ M.readMem s addr size = .ret (some v, s') := by
  obtain ⟨_, ha, h⟩ := Outcome.bind_eq_ret.mp h
  obtain ⟨⟨r0, s0⟩, hm, h⟩ := Outcome.bind_eq_ret.mp h
  obtain ⟨v, hv, h⟩ := Outcome.bind_eq_ret.mp h
  cases r0 <;> cases hv
  cases h
  exact ⟨eq_of_assertEq ha, v, rfl, hm⟩

theorem Memory.monitored_writeMem {ok : Bool}
    (h : M.monitored.writeMem s addr size data = .ret (ok, s')) :
    addr.toNat % size.bytes = 0 ∧ ok = true ∧ ∃ ok', M.writeMem s addr size data = .ret (ok', s') := by
  obtain ⟨_, ha, h⟩ := Outcome.bind_eq_ret.mp h
  obtain ⟨⟨ok0, s0⟩, hm, h⟩ := Outcome.bind_eq_ret.mp h
  cases h
  exact ⟨eq_of_assertEq ha, rfl, ok0, hm⟩

theorem Memory.monitored_writeMem_of (ha : addr.toNat % size.bytes = 0) {ok : Bool}
    (h : M.writeMem s addr size data = .ret (ok, s')) :
    M.monitored.writeMem s addr size data = .ret (true, s') := by
  show (assertEq _ _ _ >>= _) = _
  rw [ha, assertEq_self, Outcome.ret_bind, h]
  rfl

theorem Memory.strict_writeMem {ok : Bool} (h : M.strict.writeMem s addr size data = .ret (ok, s')) :
    addr.toNat % size.bytes = 0 ∧ ok = true ∧ M.writeMem s addr size data = .ret (true, s') := by
  obtain ⟨_, ha, h⟩ := Outcome.bind_eq_ret.mp h
  obtain ⟨⟨ok0, s0⟩, hm, h⟩ := Outcome.bind_eq_ret.mp h
  cases ok0
  · cases h
  · cases h
    exact ⟨eq_of_assertEq ha, rfl, hm⟩

/-- Each answer of `M.strict` is `M`'s. -/
theorem Memory.strict_simulates (M : Memory σ) : M.strict.Simulates M Eq Eq where
  read _ _ _ _ _ _ h hr := by
    subst h
    obtain ⟨-, v, rfl, hm⟩ := Memory.monitored_readMem hr
    exact ⟨_, hm, rfl⟩
  write _ _ _ _ _ _ _ h hw := by
    subst h
    obtain ⟨-, rfl, hm⟩ := Memory.strict_writeMem hw
    exact ⟨_, hm, rfl⟩
  done h := h

/-- Each answer of `M.strict` is `M.monitored`'s. -/
theorem Memory.strict_simulates_monitored (M : Memory σ) : M.strict.Simulates M.monitored Eq Eq where
  read _ _ _ _ _ _ h hr := ⟨_, h ▸ hr, rfl⟩
  write _ _ _ _ _ _ _ h hw := by
    subst h
    obtain ⟨ha, rfl, hm⟩ := Memory.strict_writeMem hw
    exact ⟨_, Memory.monitored_writeMem_of ha hm, rfl⟩
  done h := h

end Contract

/-- Where `M1` answers as `M2` does, `n` steps on `M1` return what `n` steps on `M2` return. -/
theorem InstructionExecutor.steps_of_simulates {σ : Type} (decode : BitVec 32 → Option Insn)
    {M1 M2 : Memory σ} (hM : M1.Simulates M2 Eq Eq) :
    ∀ (n : Nat) (e : InstructionExecutor σ) {r : Except InstructionException Unit}
      {e' : InstructionExecutor σ}, e.steps decode M1 n = .ret (r, e') → e.steps decode M2 n = .ret (r, e')
  | 0, _, _, _, h => h
  | n + 1, e, r, e', h => by
    obtain ⟨⟨r1, e1⟩, hs, h⟩ := Outcome.bind_eq_ret.mp h
    obtain ⟨_, hs', rfl⟩ := InstructionExecutor.step_matches decode hM e e.mem rfl _ _ hs
    rw [InstructionExecutor.steps, hs', Outcome.ret_bind]
    cases r1 with
    | error ex => exact h
    | ok _ => exact steps_of_simulates decode hM n e1 h

/-! ## The monitor holds the space -/

open MemoryMonitor

/-- The monitor holds the bytes of `s`, a well-formed space, with nothing pending. -/
def Mirrors (s : MemorySpace) (m : MemoryMonitor) : Prop :=
  s.WellFormed ∧ s.SameBytes m.image.memorySpace ∧ m.pendingWrites.elems = []

/-- The monitor's image, with its pending records applied, holds the bytes of `s`, a
    well-formed space. -/
def MirrorsFlushed (s : MemorySpace) (m : MemoryMonitor) : Prop :=
  s.WellFormed ∧ s.SameBytes (applyStores m.image.memorySpace m.pendingWrites.elems)

/-- An aligned read of the space, made by the monitor holding its bytes where the access
    falls: the bytes load one by one and assemble to what the space reads. -/
theorem readMem_of_space {s : MemorySpace} {m : MemoryMonitor} (hwf : s.WellFormed)
    {addr : BitVec 64} {size : MemAccessSize}
    (hs : ∀ b, size.Covers addr b → s.readMem b .Byte = m.image.memorySpace.readMem b .Byte)
    (ha : addr.toNat % size.bytes = 0) {v : BitVec 64} (hv : s.readMem addr size = some v) :
    m.readMem addr size = .ret (some v) := by
  have hlen := length_toLeBytes size.bytes v
  have hv' : BitVec.ofNat 64 (v.toNat % 2 ^ (8 * size.bytes)) = v := by
    have hlt : v.toNat < 2 ^ (8 * size.bytes) := readRegions_lt s.regions hv
    rw [Nat.mod_eq_of_lt hlt, BitVec.ofNat_toNat, BitVec.setWidth_eq]
  have hpack := fromLeBytes_toLeBytes size.bytes v
  rw [hv'] at hpack
  rw [← hpack]
  refine readMem_of_bytes ha hlen fun i hi => ?_
  have hi' : i < size.bytes := hlen ▸ hi
  have hb : m.image.memorySpace.readMem (addr + BitVec.ofNat 64 i) .Byte = some (laneGet v (8 * i) 8) := by
    rw [← hs _ (size.covers_add ha hi'), MemorySpace.readMem,
      readRegions_byte size ha (size.covers_add ha hi') s.regions hwf]
    have hv2 : readRegions s.regions addr size = some v := hv
    simp only [hv2, Option.map_some', size.toNat_add_of_lt ha hi', Nat.add_sub_cancel_left]
  rw [loadU8_of_read hb, ← laneGet_of_fromLeBytes (by rw [hlen]; exact size.bytes_le_eight)
    (by rw [hlen, hpack, hv']) i hi, BitVec.setWidth_setWidth_of_le _ (by decide), BitVec.setWidth_eq]

/-- An aligned write of the space, made by the monitor from nothing pending and committed:
    a byte the two held alike, they hold alike after it. -/
theorem write_byte_flushed {s : MemorySpace} {m m1 : MemoryMonitor} (hwf : s.WellFormed)
    (hp : m.pendingWrites.elems = []) {addr : BitVec 64} {size : MemAccessSize}
    (ha : addr.toNat % size.bytes = 0) (data : BitVec 64) {xs : List (BitVec 8)}
    (hadds : Adds m m1 (regionBytes addr 0 xs)) (hlen : xs.length = size.bytes)
    (hval : fromLeBytes xs = BitVec.ofNat 64 (data.toNat % 2 ^ (8 * size.bytes))) {b : BitVec 64}
    (hsame : s.readMem b .Byte = m.image.memorySpace.readMem b .Byte) :
    (s.writeMem addr size data).1.readMem b .Byte =
      (applyStores m1.image.memorySpace m1.pendingWrites.elems).readMem b .Byte := by
  rw [read_commit hp hadds b]
  show readRegions (writeRegions s.regions addr size data).1 b .Byte = _
  rw [readRegions_writeRegions_byte size ha data b s.regions hwf]
  by_cases hc : size.Covers addr b
  · have hi : b.toNat - addr.toNat < xs.length := by simp only [MemAccessSize.Covers] at hc; omega
    have hb : b = addr + BitVec.ofNat 64 (0 + (b.toNat - addr.toNat)) := by
      simp only [MemAccessSize.Covers] at hc; bv_omega
    have hmax : maxAt b (regionBytes addr 0 xs) = some xs[b.toNat - addr.toNat] := by
      conv => lhs; rw [hb]
      exact maxAt_regionBytes_at (by have := size.bytes_le_eight; omega) _ hi
    simp only [if_pos hc, hmax, ← hsame, laneGet_of_fromLeBytes (hlen ▸ size.bytes_le_eight)
      (by rw [hlen, hval]) _ hi]
    rfl
  · have hnone : maxAt b (regionBytes addr 0 xs) = none :=
      maxAt_regionBytes_of_ne fun k hk e => hc (by
        rw [e, Nat.zero_add]; exact size.covers_add ha (hlen ▸ hk))
    simp only [if_neg hc, hnone]
    exact hsame

/-- An aligned write of the space, made by the monitor and committed: its records leave each
    byte as the space's write does. -/
theorem mirrorsFlushed_write {s : MemorySpace} {m m1 : MemoryMonitor} (h : Mirrors s m)
    {addr : BitVec 64} {size : MemAccessSize} (ha : addr.toNat % size.bytes = 0) (data : BitVec 64)
    {xs : List (BitVec 8)} (hadds : Adds m m1 (regionBytes addr 0 xs)) (hlen : xs.length = size.bytes)
    (hval : fromLeBytes xs = BitVec.ofNat 64 (data.toNat % 2 ^ (8 * size.bytes))) :
    MirrorsFlushed (s.writeMem addr size data).1 m1 :=
  ⟨writeRegions_wellFormed _ _ _ _ h.1,
    fun b => write_byte_flushed h.1 h.2.2 ha data hadds hlen hval (h.2.1 b)⟩

/-- The space as the monitor presents it and the monitor answer alike while the monitor holds
    the space's bytes with nothing pending; after a store, the monitor's image with its records
    applied holds the space's bytes. -/
theorem space_simulates_monitor :
    MemorySpace.memory.monitored.Simulates MemoryMonitor.memory Mirrors MirrorsFlushed where
  read s m _ _ _ _ h hr := by
    obtain ⟨ha, v, rfl, hm⟩ := Memory.monitored_readMem hr
    rw [MemorySpace.memory_readMem, Outcome.ret.injEq, Prod.mk.injEq] at hm
    obtain ⟨hv, rfl⟩ := hm
    exact ⟨m, by
      show (m.readMem _ _ >>= _) = _
      rw [readMem_of_space h.1 (fun b _ => h.2.1 b) ha hv]; rfl, h⟩
  write s m _ size data _ _ h hw := by
    obtain ⟨ha, rfl, _, hm⟩ := Memory.monitored_writeMem hw
    rw [MemorySpace.memory_writeMem, Outcome.ret.injEq, Prod.mk.injEq] at hm
    obtain ⟨-, rfl⟩ := hm
    obtain ⟨m1, xs, hwm, hadds, hlen, hval⟩ := writeMem_adds m size data ha
    exact ⟨m1, hwm, mirrorsFlushed_write h ha data hadds hlen hval⟩
  done h := ⟨h.1, by rw [h.2.2]; exact h.2.1⟩

/-! ## The monitor's accesses, read back on the space -/

/-- A load the monitor returns is aligned, and its first byte is mapped. -/
theorem MemoryMonitor.readMem_ret {m : MemoryMonitor} {addr : BitVec 64} {size : MemAccessSize}
    {r : Option (BitVec 64)} (h : m.readMem addr size = .ret r) :
    addr.toNat % size.bytes = 0 ∧ (m.image.memorySpace.readMem addr .Byte).isSome := by
  have hbyte : ∀ {b : BitVec 8}, m.loadU8 addr = .ret b →
      (m.image.memorySpace.readMem addr .Byte).isSome := fun hb => by
    obtain ⟨v, hv, -⟩ := Outcome.bind_eq_ret.mp hb
    cases hr : m.image.memorySpace.readMem addr .Byte <;> simp_all [unwrap]
  cases size
  case Byte =>
    obtain ⟨b, hb, -⟩ := Outcome.bind_eq_ret.mp h
    exact ⟨Nat.mod_one _, hbyte hb⟩
  all_goals
    obtain ⟨v, hv, -⟩ := Outcome.bind_eq_ret.mp h
    simp only [loadU16, loadU32, loadU64, WORD_SIZE, DOUBLE_WORD_SIZE, loadLe] at hv
    obtain ⟨_, ha, hv⟩ := Outcome.bind_eq_ret.mp hv
    obtain ⟨bs, hbs, -⟩ := Outcome.bind_eq_ret.mp hv
    refine ⟨eq_of_assertEq ha, ?_⟩
    cases hr : m.image.memorySpace.readMem addr .Byte
    · rw [loadArray, loadBytes_panic m ⟨addr, List.mem_map.mpr ⟨0, by simp, by simp⟩, hr⟩] at hbs
      cases hbs
    · rfl

/-- A store the monitor returns is aligned. -/
theorem MemoryMonitor.writeMem_aligned {m m' : MemoryMonitor} {addr data : BitVec 64}
    {size : MemAccessSize} {ok : Bool} (h : m.writeMem addr size data = .ret (ok, m')) :
    addr.toNat % size.bytes = 0 := by
  cases size
  case Byte => exact Nat.mod_one _
  all_goals
    obtain ⟨_, h1, -⟩ := Outcome.bind_eq_ret.mp h
    simp only [storeU16, storeU32, storeU64, WORD_SIZE, DOUBLE_WORD_SIZE, storeLe] at h1
    obtain ⟨_, ha, -⟩ := Outcome.bind_eq_ret.mp h1
    exact eq_of_assertEq ha

/-- The monitor and the space as the monitor presents it answer alike while the monitor holds
    the space's bytes with nothing pending: each access the monitor makes, the space makes. -/
theorem monitor_simulates_space :
    MemoryMonitor.memory.Simulates MemorySpace.memory.monitored (fun m s => Mirrors s m)
      (fun m s => MirrorsFlushed s m) where
  read m s addr size r _ h hr := by
    obtain ⟨r0, hm, hr⟩ := Outcome.bind_eq_ret.mp hr
    cases hr
    obtain ⟨ha, hin⟩ := MemoryMonitor.readMem_ret hm
    have hsome : (s.readMem addr size).isSome := by
      have hb := readRegions_byte size ha ⟨Nat.le_refl _, Nat.lt_add_of_pos_right size.bytes_pos⟩
        s.regions h.1
      rw [← MemorySpace.readMem, h.2.1 addr] at hb
      rwa [hb, Option.isSome_map'] at hin
    obtain ⟨v, hv⟩ := Option.isSome_iff_exists.mp hsome
    have hr0 := (readMem_of_space h.1 (fun b _ => h.2.1 b) ha hv).symm.trans hm
    cases hr0
    refine ⟨s, ?_, h⟩
    show (assertEq _ _ _ >>= _) = _
    rw [ha, assertEq_self, Outcome.ret_bind, MemorySpace.memory_readMem, Outcome.ret_bind, hv]
    rfl
  write m s addr size data ok m1 h hw := by
    have ha := MemoryMonitor.writeMem_aligned hw
    obtain ⟨m1', xs, hwm, hadds, hlen, hval⟩ := writeMem_adds m size data ha
    rw [show MemoryMonitor.memory.writeMem m addr size data = m.writeMem addr size data from rfl,
      hwm, Outcome.ret.injEq, Prod.mk.injEq] at hw
    obtain ⟨rfl, rfl⟩ := hw
    exact ⟨_, Memory.monitored_writeMem_of ha (MemorySpace.memory_writeMem s addr size data),
      mirrorsFlushed_write h ha data hadds hlen hval⟩
  done h := ⟨h.1, by rw [h.2.2]; exact h.2.1⟩

/-! ## The loaded image -/

/-- The space `MemoryImage::new` builds is well formed: the primary region at 0 and the
    playground, both `MEM_SIZE` bytes, a multiple of 8. -/
theorem MemoryImage.new_wellFormed {P : Platform} {program : Program} {img : MemoryImage}
    (h : MemoryImage.new P program = .ret img) : img.memorySpace.WellFormed := by
  have hsz : (BitVec.ofNat 64 P.MEM_SIZE).toNat = P.MEM_SIZE :=
    Nat.mod_eq_of_lt (Nat.lt_of_le_of_lt P.memSizeLe (by decide))
  have h8 : (BitVec.ofNat 64 P.MEM_SIZE).toNat % 8 = 0 := by rw [hsz]; exact P.memSizeMul8
  simp [MemoryImage.new, MemorySpace.addMemory, MemorySpace.new, MemorySpace.getMemoryMut,
    MemorySpace.setMemory, unwrap, PLAYGROUND, hsz, Nat.not_lt.mpr P.memSizeLe] at h
  subst h
  intro r hr
  simp only [List.mem_cons, List.mem_singleton, List.not_mem_nil, or_false] at hr
  rcases hr with rfl | rfl <;> exact ⟨by simp, h8⟩

/-- A monitor fresh on the loaded image holds its bytes. -/
theorem mirrors_new {P : Platform} {program : Program} {img : MemoryImage}
    (h : MemoryImage.new P program = .ret img) : Mirrors img.memorySpace (MemoryMonitor.new img) :=
  ⟨MemoryImage.new_wellFormed h, fun _ => rfl, rfl⟩

/-! ## A step on the monitor is a step of rrs on the space -/

section Refinement

open InstructionExecutor

theorem mirrors_of_flushed {s : MemorySpace} {m : MemoryMonitor} (h : MirrorsFlushed s m)
    (hp : m.pendingWrites.elems = []) : Mirrors s m :=
  ⟨h.1, fun a => by rw [h.2 a, hp]; rfl, hp⟩

end Refinement

end ZkvmRv64
