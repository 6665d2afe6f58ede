import ZkvmRv64.Exec.Commit

/-
  ZkvmRv64.Exec.RoundTrip — the monitor's `impl Memory`, one access at a time.

  `write_mem(a, s, v)` at an aligned `a` adds the little-endian bytes of `v`'s low `n`
  bytes, one record per byte address `a + i` (`writeMem_adds`); `read_mem(a, s)` reads the
  bytes `a + i` one by one through `load_u8` and assembles them little-endian
  (`readMem_of_bytes`). The records of one access sit at `n` distinct addresses, so after a
  commit from an empty set each address holds its own byte (`maxAt_regionBytes_at`) and no
  other address changes (`maxAt_regionBytes_of_ne`).

  `load_u8` unwraps the region lookup: a read that touches an address outside every region
  panics (`loadBytes_panic`), where the `Memory` trait says it returns `None`.

  Proved:
  - `writeMem_commit_readMem`: from a monitor with nothing pending, `write_mem(a, s, v)`,
    `save_op` and `commit` make `read_mem(a, s)` return `v mod 2^(8n)`, and leave every
    byte address outside `[a, a + n)` reading as before.
  - `readMem_unmapped_panics`: an aligned `read_mem` over a byte that lies in no region
    panics, it never returns `None`.
  - `loadString_unmapped_panics`: `load_string` panics when it reaches a byte outside every
    region before a NUL, at its start address or past the end of a region with no NUL; it
    returns no `Err` for either.
  - `loadString_nul`: when a NUL follows non-NUL bytes, `load_string` stops there and returns
    `from_utf8` of those bytes.
-/

namespace ZkvmRv64

open MemoryMonitor

/-! ## The records of one access -/

theorem add_ofNat_inj {addr : BitVec 64} {p q : Nat} (hp : p < 2 ^ 64) (hq : q < 2 ^ 64)
    (h : addr + BitVec.ofNat 64 p = addr + BitVec.ofNat 64 q) : p = q := by
  have := congrArg BitVec.toNat h
  simp only [BitVec.toNat_add, BitVec.toNat_ofNat] at this
  omega

/-- An address no record of `regionBytes addr j xs` names has no largest byte there. -/
theorem maxAt_regionBytes_of_ne {addr b : BitVec 64} :
    ∀ {j : Nat} {xs : List (BitVec 8)}, (∀ k < xs.length, b ≠ addr + BitVec.ofNat 64 (j + k)) →
      maxAt b (regionBytes addr j xs) = none
  | _, [], _ => rfl
  | j, x :: xs, h => by
    have hx : addr + BitVec.ofNat 64 j ≠ b := fun e => h 0 (by simp) (by simpa using e.symm)
    have ih := @maxAt_regionBytes_of_ne addr b (j + 1) xs fun k hk =>
      by simpa [Nat.add_assoc, Nat.add_comm 1 k] using h (k + 1) (by simp; omega)
    simp only [regionBytes, maxAt, hx, if_false, ih]

/-- The records of an access of fewer than `2^64` bytes name distinct addresses, so the
    `i`-th address holds the `i`-th byte. -/
theorem maxAt_regionBytes_at {addr : BitVec 64} :
    ∀ {j : Nat} {xs : List (BitVec 8)}, j + xs.length ≤ 2 ^ 64 → ∀ i (hi : i < xs.length),
      maxAt (addr + BitVec.ofNat 64 (j + i)) (regionBytes addr j xs) = some xs[i]
  | _, [], _, _, hi => absurd hi (Nat.not_lt_zero _)
  | j, x :: xs, hlen, i, hi => by
    simp only [List.length_cons] at hlen hi
    have hrest : ∀ {b}, (∀ k < xs.length, j + 1 + k ≠ j + i) → b = addr + BitVec.ofNat 64 (j + i) →
        ∀ k < xs.length, b ≠ addr + BitVec.ofNat 64 (j + 1 + k) := by
      rintro b hne rfl k hk e
      exact hne k hk (add_ofNat_inj (by omega) (by omega) e).symm
    cases i with
    | zero =>
      have hnone := maxAt_regionBytes_of_ne (hrest (fun k _ => by omega) rfl)
      rw [Nat.add_zero] at hnone
      simp [regionBytes, maxAt, hnone]
    | succ i =>
      have hx : addr + BitVec.ofNat 64 j ≠ addr + BitVec.ofNat 64 (j + (i + 1)) :=
        fun e => absurd (add_ofNat_inj (by omega) (by omega) e) (by omega)
      have ih := @maxAt_regionBytes_at addr (j + 1) xs (by omega) i (by omega)
      rw [show j + 1 + i = j + (i + 1) by omega] at ih
      simp only [regionBytes, maxAt, hx, if_false, ih, List.getElem_cons_succ]

/-! ## The load path -/

theorem loadU8_of_read {m : MemoryMonitor} {a v : BitVec 64}
    (h : m.image.memorySpace.readMem a .Byte = some v) : m.loadU8 a = .ret (v.setWidth 8) := by
  simp [loadU8, h, unwrap]

theorem loadBytes_range' (m : MemoryMonitor) (a : BitVec 64) :
    ∀ (xs : List (BitVec 8)) (j : Nat),
      (∀ i (h : i < xs.length), m.loadU8 (a + BitVec.ofNat 64 (j + i)) = .ret xs[i]) →
      m.loadBytes ((List.range' j xs.length).map fun idx => a + BitVec.ofNat 64 idx) = .ret xs
  | [], _, _ => rfl
  | x :: xs, j, h => by
    have h0 : m.loadU8 (a + BitVec.ofNat 64 j) = .ret x := by simpa using h 0 (by simp)
    have ih := loadBytes_range' m a xs (j + 1) fun i hi => by
      simpa [Nat.add_assoc, Nat.add_comm 1 i] using h (i + 1) (by simp; omega)
    simp [List.range'_succ, loadBytes, h0, ih]

/-- `load_le(n, a)` at an aligned `a` whose `n` bytes load as `xs` returns them,
    little-endian. -/
theorem loadLe_of_bytes {m : MemoryMonitor} {a : BitVec 64} {xs : List (BitVec 8)}
    (ha : a.toNat % xs.length = 0)
    (h : ∀ i (hi : i < xs.length), m.loadU8 (a + BitVec.ofNat 64 i) = .ret xs[i]) :
    m.loadLe xs.length a = .ret (fromLeBytes xs) := by
  have harr : m.loadArray a xs.length = .ret xs := by
    simpa [loadArray, List.range_eq_range'] using loadBytes_range' m a xs 0 (by simpa using h)
  simp [loadLe, assertEq, ha, harr]

/-- `read_mem` at an aligned address whose bytes load as `xs` returns them, little-endian. -/
theorem readMem_of_bytes {m : MemoryMonitor} {a : BitVec 64} {size : MemAccessSize}
    (ha : a.toNat % size.bytes = 0) {xs : List (BitVec 8)} (hlen : xs.length = size.bytes)
    (h : ∀ i (hi : i < xs.length), m.loadU8 (a + BitVec.ofNat 64 i) = .ret xs[i]) :
    m.readMem a size = .ret (some (fromLeBytes xs)) := by
  have hle : m.loadLe size.bytes a = .ret (fromLeBytes xs) :=
    hlen ▸ loadLe_of_bytes (hlen ▸ ha) h
  cases size
  case Byte =>
    match xs, hlen with
    | [x], _ =>
      have : m.loadU8 a = .ret x := by simpa using h 0 (by simp)
      simp [readMem, this, fromLeBytes]
  all_goals
    simp only [MemAccessSize.bytes] at hle
    simp [readMem, loadU16, loadU32, loadU64, WORD_SIZE, DOUBLE_WORD_SIZE, hle]

/-- A list of loads panics at its first address outside every region. -/
theorem loadBytes_panic (m : MemoryMonitor) :
    ∀ {as : List (BitVec 64)}, (∃ x ∈ as, m.image.memorySpace.readMem x .Byte = none) →
      m.loadBytes as = .panic unwrapFailed
  | [], ⟨_, hx, _⟩ => absurd hx (List.not_mem_nil _)
  | a :: as, ⟨x, hx, hnone⟩ => by
    rcases hr : m.image.memorySpace.readMem a .Byte with _ | v
    · simp [loadBytes, loadU8, hr, unwrap]
    · rcases List.mem_cons.mp hx with rfl | hx
      · simp [hr] at hnone
      · simp [loadBytes, loadU8_of_read hr, loadBytes_panic m ⟨x, hx, hnone⟩]

/-- An aligned `read_mem` over a byte that lies in no region panics in `load_u8`'s `unwrap`:
    it never returns `None`. -/
theorem readMem_unmapped_panics (m : MemoryMonitor) (a : BitVec 64) (size : MemAccessSize)
    (ha : a.toNat % size.bytes = 0)
    (hu : ∃ i < size.bytes, m.image.memorySpace.readMem (a + BitVec.ofNat 64 i) .Byte = none) :
    m.readMem a size = .panic unwrapFailed := by
  obtain ⟨i, hi, hnone⟩ := hu
  have harr : ∀ n, i < n → m.loadArray a n = .panic unwrapFailed :=
    fun n hn => loadBytes_panic m ⟨_, List.mem_map.mpr ⟨i, List.mem_range.mpr hn, rfl⟩, hnone⟩
  cases size
  case Byte =>
    have : i = 0 := by simpa [MemAccessSize.bytes] using hi
    subst this
    simp [readMem, loadU8, unwrap, by simpa using hnone]
  all_goals
    simp only [MemAccessSize.bytes] at ha hi
    simp [readMem, loadU16, loadU32, loadU64, loadLe, WORD_SIZE, DOUBLE_WORD_SIZE, ha,
      assertEq, harr _ hi]

/-- An 8-byte region at 0: the byte at 8 lies in no region. -/
theorem readMem_unmapped_panics_past_region :
    (8 : BitVec 64).toNat % MemAccessSize.Byte.bytes = 0 ∧
    (∃ i < MemAccessSize.Byte.bytes,
      byteMonitor.image.memorySpace.readMem (8 + BitVec.ofNat 64 i) .Byte = none) ∧
    byteMonitor.readMem 8 .Byte = .panic unwrapFailed :=
  ⟨rfl, ⟨0, by decide, by decide⟩,
    readMem_unmapped_panics byteMonitor 8 .Byte rfl ⟨0, by decide, by decide⟩⟩

/-! ## `load_string` -/

/-- The bytes at `addr, addr + 1, …` are `bs`, none of them NUL. -/
def NonNulAt (m : MemoryMonitor) : BitVec 64 → List (BitVec 8) → Prop
  | _, [] => True
  | addr, b :: bs => m.loadU8 addr = .ret b ∧ b ≠ 0 ∧ NonNulAt m (addr + 1) bs

/-- Over non-NUL bytes the loop only collects them, one address after another. -/
theorem loadStringLoop_bytes (m : MemoryMonitor) :
    ∀ (bs s : List (BitVec 8)) (n : Nat) (addr : BitVec 64), NonNulAt m addr bs →
      m.loadStringLoop s (bs.length + n) addr =
        m.loadStringLoop (s ++ bs) n (addr + BitVec.ofNat 64 bs.length)
  | [], s, n, addr, _ => by simp
  | b :: bs, s, n, addr, ⟨hb, hne, hbs⟩ => by
    have haddr : addr + 1 + BitVec.ofNat 64 bs.length = addr + BitVec.ofNat 64 (bs.length + 1) := by
      rw [BitVec.add_assoc]
      congr 1
      apply BitVec.eq_of_toNat_eq
      have h1 : (1 : BitVec 64).toNat = 1 := rfl
      simp only [BitVec.toNat_add, BitVec.toNat_ofNat, h1]
      omega
    rw [List.length_cons, Nat.add_right_comm, loadStringLoop, hb, Outcome.ret_bind, if_neg hne,
      loadStringLoop_bytes m bs _ n _ hbs, List.append_assoc, List.singleton_append, haddr]

/-- `load_string` panics in `load_u8`'s `unwrap` when it reaches a byte outside every region
    before a NUL: at `addr` itself, or after the bytes `bs` of a region with no NUL among them.
    It never returns `Err` for an unmapped or unterminated string. -/
theorem loadString_unmapped_panics (from_utf8 : List (BitVec 8) → Except String String)
    (m : MemoryMonitor) (addr : BitVec 64) (bs : List (BitVec 8)) (hbs : NonNulAt m addr bs)
    (hlen : bs.length < 2 ^ 64)
    (hnone : m.image.memorySpace.readMem (addr + BitVec.ofNat 64 bs.length) .Byte = none) :
    m.loadString from_utf8 addr = .panic unwrapFailed := by
  have hfuel : 2 ^ 64 = bs.length + (2 ^ 64 - bs.length - 1 + 1) := by omega
  rw [loadString, hfuel, loadStringLoop_bytes m bs [] _ addr hbs, loadStringLoop]
  simp [loadU8, hnone, unwrap]

/-- A region `[0, 8)` holding eight `A`s and nothing after it. -/
def unterminatedMonitor : MemoryMonitor := .new ⟨⟨[⟨0, 8, ⟨fun _ => 0x4141414141414141, 1⟩⟩]⟩⟩

theorem loadString_unmapped_panics_unterminated :
    NonNulAt unterminatedMonitor 0 (List.replicate 8 0x41) ∧ (List.replicate 8 (0x41 : BitVec 8)).length < 2 ^ 64 ∧
      unterminatedMonitor.image.memorySpace.readMem (0 + BitVec.ofNat 64 8) .Byte = none ∧
      unterminatedMonitor.loadString (fun _ => .error "not UTF-8") 0 =
        .panic unwrapFailed := by
  have hbs : NonNulAt unterminatedMonitor 0 (List.replicate 8 0x41) := by
    simp only [List.replicate, NonNulAt]
    decide
  have hnone : unterminatedMonitor.image.memorySpace.readMem (0 + BitVec.ofNat 64 8) .Byte = none := by
    decide
  exact ⟨hbs, by decide, hnone,
    loadString_unmapped_panics _ unterminatedMonitor 0 (List.replicate 8 0x41) hbs (by decide) hnone⟩

/-- When the bytes `bs` end in a NUL, `load_string` returns `from_utf8` of them. -/
theorem loadString_nul (from_utf8 : List (BitVec 8) → Except String String) (m : MemoryMonitor)
    (addr : BitVec 64) (bs : List (BitVec 8)) (hbs : NonNulAt m addr bs) (hlen : bs.length < 2 ^ 64)
    (hnul : m.loadU8 (addr + BitVec.ofNat 64 bs.length) = .ret 0) :
    m.loadString from_utf8 addr = .ret (some (from_utf8 bs)) := by
  have hfuel : 2 ^ 64 = bs.length + (2 ^ 64 - bs.length - 1 + 1) := by omega
  rw [loadString, hfuel, loadStringLoop_bytes m bs [] _ addr hbs, loadStringLoop, hnul]
  rfl

/-- A region `[0, 8)` holding `"hi"` and a NUL. -/
def hiMonitor : MemoryMonitor := .new ⟨⟨[⟨0, 8, ⟨fun _ => 0x6968, 1⟩⟩]⟩⟩

/-- Decoding each byte as the character of its code. -/
def latin1 (bs : List (BitVec 8)) : Except String String := .ok (String.mk (bs.map fun b => Char.ofNat b.toNat))

theorem loadString_nul_hi :
    NonNulAt hiMonitor 0 [0x68, 0x69] ∧ [(0x68 : BitVec 8), 0x69].length < 2 ^ 64 ∧
      hiMonitor.loadU8 (0 + BitVec.ofNat 64 2) = .ret 0 ∧
      hiMonitor.loadString latin1 0 = .ret (some (latin1 [0x68, 0x69])) := by
  have hbs : NonNulAt hiMonitor 0 [0x68, 0x69] := by
    simp only [NonNulAt]
    decide
  have hnul : hiMonitor.loadU8 (0 + BitVec.ofNat 64 2) = .ret 0 := by decide
  exact ⟨hbs, by decide, hnul, loadString_nul latin1 hiMonitor 0 [0x68, 0x69] hbs (by decide) hnul⟩

/-! ## The store path -/

theorem storeLe_of_aligned (m : MemoryMonitor) {n : Nat} {addr : BitVec 64} (data : BitVec 64)
    (ha : addr.toNat % n = 0) :
    m.storeLe n addr data = .ret (m.storeRegion addr (toLeBytes n data)) := by
  rw [storeLe_eq, if_pos ha]

/-- `write_mem` at an aligned address succeeds and adds one record per byte of the access:
    the little-endian bytes of `v`'s low `n` bytes, at `a`, `a + 1`, ... -/
theorem writeMem_adds (m : MemoryMonitor) {a : BitVec 64} (size : MemAccessSize) (v : BitVec 64)
    (ha : a.toNat % size.bytes = 0) :
    ∃ m1 xs, m.writeMem a size v = .ret (true, m1) ∧ Adds m m1 (regionBytes a 0 xs) ∧
      xs.length = size.bytes ∧ fromLeBytes xs = BitVec.ofNat 64 (v.toNat % 2 ^ (8 * size.bytes)) := by
  cases size
  case Byte =>
    exact ⟨_, toLeBytes 1 v, rfl,
      by simpa [regionBytes, toLeBytes] using adds_storeU8 m a (v.setWidth 8), rfl,
      fromLeBytes_toLeBytes 1 v⟩
  all_goals
    simp only [MemAccessSize.bytes] at ha
    refine ⟨_, _, by simp only [writeMem, storeU16, storeU32, storeU64, WORD_SIZE,
      DOUBLE_WORD_SIZE, storeLe_of_aligned _ _ ha]; rfl, adds_storeBytes a _ m 0,
      length_toLeBytes _ _, ?_⟩
    simp only [fromLeBytes_toLeBytes, BitVec.toNat_setWidth, MemAccessSize.bytes]
    all_goals bv_omega

/-! ## The round trip -/

/-- The records of one access of at most 8 bytes, added to an empty pending set and
    committed: the access's mapped bytes load back as written, every other byte as before. -/
theorem commit_regionBytes {m m1 m' : MemoryMonitor} {a : BitVec 64} {xs : List (BitVec 8)}
    (hp : m.pendingWrites.elems = []) (hadds : Adds m m1 (regionBytes a 0 xs))
    (hsmall : xs.length ≤ 8) {r : OpCodeResult} (hc : (m1.saveOp r).commit = .ret m') :
    (∀ i (hi : i < xs.length), (m.image.memorySpace.readMem (a + BitVec.ofNat 64 i) .Byte).isSome →
      m'.loadU8 (a + BitVec.ofNat 64 i) = .ret xs[i]) ∧
    ∀ b, (∀ i < xs.length, b ≠ a + BitVec.ofNat 64 i) → m'.loadU8 b = m.loadU8 b := by
  rw [commit_saveOp] at hc
  cases hc
  have hread := read_commit hp hadds
  refine ⟨fun i hi hin => ?_, fun b hb => ?_⟩
  · obtain ⟨d, hd⟩ := Option.isSome_iff_exists.mp hin
    have hmax := @maxAt_regionBytes_at a 0 xs (by omega) i hi
    rw [Nat.zero_add] at hmax
    exact loadU8_of_read (by rw [hread, hmax, hd]; rfl) |>.trans (by simp)
  · have hnone := @maxAt_regionBytes_of_ne a b 0 xs fun k hk => by simpa using hb k hk
    simp only [loadU8]
    rw [show _ = _ from hread b, hnone]

/-- From a monitor with nothing pending, `write_mem(a, s, v)` at an aligned `a` whose bytes
    are all mapped, then `save_op` and `commit`: `read_mem(a, s)` returns `v mod 2^(8n)`, and
    every byte address outside `[a, a + n)` reads as before. -/
theorem writeMem_commit_readMem (m : MemoryMonitor) (hp : m.pendingWrites.elems = [])
    (size : MemAccessSize) (a v : BitVec 64) (ha : a.toNat % size.bytes = 0)
    (hin : ∀ i < size.bytes, (m.image.memorySpace.readMem (a + BitVec.ofNat 64 i) .Byte).isSome)
    (r : OpCodeResult) :
    ∃ m', (m.writeMem a size v >>= fun w => (w.2.saveOp r).commit) = .ret m' ∧
      m'.readMem a size = .ret (some (BitVec.ofNat 64 (v.toNat % 2 ^ (8 * size.bytes)))) ∧
      ∀ b, (∀ i < size.bytes, b ≠ a + BitVec.ofNat 64 i) → m'.readMem b .Byte = m.readMem b .Byte := by
  obtain ⟨m1, xs, hw, hadds, hlen, hval⟩ := writeMem_adds m size v ha
  obtain ⟨hat, hout⟩ :=
    commit_regionBytes hp hadds (hlen ▸ size.bytes_le_eight) (commit_saveOp m1 r)
  refine ⟨_, by rw [hw, Outcome.ret_bind]; exact commit_saveOp m1 r, ?_, fun b hb => ?_⟩
  · rw [← hval]
    exact readMem_of_bytes ha hlen fun i hi => hat i hi (hin i (hlen ▸ hi))
  · simp only [readMem, hout b fun i hi => hb i (hlen ▸ hi)]

theorem writeMem_commit_readMem_halfword :
    byteMonitor.pendingWrites.elems = [] ∧ (2 : BitVec 64).toNat % MemAccessSize.HalfWord.bytes = 0 ∧
    (∀ i < MemAccessSize.HalfWord.bytes,
      (byteMonitor.image.memorySpace.readMem (2 + BitVec.ofNat 64 i) .Byte).isSome) ∧
    ∃ m', (byteMonitor.writeMem 2 .HalfWord 0x12345 >>= fun w => (w.2.saveOp ⟨none⟩).commit) = .ret m' ∧
      m'.readMem 2 .HalfWord =
        .ret (some (BitVec.ofNat 64 ((0x12345 : BitVec 64).toNat % 2 ^ (8 * MemAccessSize.HalfWord.bytes)))) ∧
      ∀ b, (∀ i < MemAccessSize.HalfWord.bytes, b ≠ 2 + BitVec.ofNat 64 i) →
        m'.readMem b .Byte = byteMonitor.readMem b .Byte :=
  have hin : ∀ i < MemAccessSize.HalfWord.bytes,
      (byteMonitor.image.memorySpace.readMem (2 + BitVec.ofNat 64 i) .Byte).isSome := by decide
  ⟨rfl, rfl, hin, writeMem_commit_readMem byteMonitor rfl .HalfWord 2 0x12345 rfl hin ⟨none⟩⟩

end ZkvmRv64
