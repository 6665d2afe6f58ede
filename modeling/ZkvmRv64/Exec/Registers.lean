import ZkvmRv64.Exec.RoundTrip

/-
  ZkvmRv64.Exec.Registers — the register file in the image: `x_idx` is the doubleword at
  `get_register_addr(idx)`, read by `load_register` through `load_u64` and written by
  `store_register` through `store_u64`, pending until the step's `commit`.

  `x2` has a bootstrap: the first `load_register(2)` of a session (while `initial` is unset)
  returns `STACK_INITIAL_ADDRESS` without reading the slot, sets `initial`, and stores that
  value to the slot as a pending write ("it will take effect at next instruction", as the
  source's FIXME says). Until the step commits, the slot still holds its old value.

  Proved:
  - `loadRegister_x2_bootstrap`: the first read of `x2` returns `STACK_INITIAL_ADDRESS`
    whatever the slot holds, even a value committed by an earlier `store_register(2, v)`, and
    a second read in the same step returns the slot's committed value, not the first read's.
  - `storeRegister_commit_loadRegister`: past the bootstrap, a register store committed from
    an empty pending set is what the next read of that register returns
    (`STACK_INITIAL_ADDRESS` for a store of 0 to `x2`).
-/

namespace ZkvmRv64

open MemoryMonitor

/-- A monitor over the system region `[0x800, 0x900)`, register slots zero. -/
def regMonitor : MemoryMonitor := .new ⟨⟨[⟨0x800, 0x100, VecMemory.zeros 32⟩]⟩⟩

/-- The first read of `x2` returns `STACK_INITIAL_ADDRESS` whatever the slot holds and leaves
    the image as it was; a second read in the same step, with no commit between, returns what
    the slot holds in the committed image. -/
theorem loadRegister_x2_bootstrap (P : Platform) (m : MemoryMonitor) (hinit : m.initial = false)
    (hal : (getRegisterAddr P 2).toNat % DOUBLE_WORD_SIZE = 0) :
    ∃ m1, m.loadRegister P 2 = .ret (BitVec.ofNat 64 P.STACK_INITIAL_ADDRESS, m1) ∧
      m1.image = m.image ∧
      m1.loadRegister P 2 = (do let v ← m.loadU64 (getRegisterAddr P 2); return (v, m1)) := by
  let m0 : MemoryMonitor := { m with initial := true }
  have hadds := adds_storeBytes (getRegisterAddr P 2)
    (toLeBytes DOUBLE_WORD_SIZE (BitVec.ofNat 64 P.STACK_INITIAL_ADDRESS)) m0 0
  have hinit1 : (m0.storeBytes (getRegisterAddr P 2) 0
      (toLeBytes DOUBLE_WORD_SIZE (BitVec.ofNat 64 P.STACK_INITIAL_ADDRESS))).initial = true :=
    hadds.initial
  refine ⟨_, ?_, hadds.image, ?_⟩
  · rw [loadRegister, if_pos ⟨rfl, hinit⟩]
    show (do let m ← m0.storeLe _ _ _; return (_, m)) = _
    rw [storeLe_of_aligned _ _ hal]
    rfl
  · rw [loadRegister, if_neg fun h => by simp [hinit1] at h, loadU64, loadU64,
      @loadLe_congr m _ hadds.image]

theorem loadRegister_x2_bootstrap_zero_slot :
    regMonitor.initial = false ∧ (getRegisterAddr Platform.small 2).toNat % DOUBLE_WORD_SIZE = 0 ∧
    ∃ m1, regMonitor.loadRegister Platform.small 2 =
        .ret (BitVec.ofNat 64 Platform.small.STACK_INITIAL_ADDRESS, m1) ∧
      m1.image = regMonitor.image ∧
      m1.loadRegister Platform.small 2 =
        (do let v ← regMonitor.loadU64 (getRegisterAddr Platform.small 2); return (v, m1)) :=
  ⟨rfl, by decide, loadRegister_x2_bootstrap Platform.small regMonitor rfl (by decide)⟩

/-- Two reads of `x2` in the first step of a session: `0xff0`, then the slot's 0. -/
example : (do
    let (v1, m1) ← regMonitor.loadRegister Platform.small 2
    let (v2, _) ← m1.loadRegister Platform.small 2
    return (v1, v2)) = .ret (0xff0, 0) := by
  decide

/-- Past the bootstrap, a register store committed from an empty pending set is what the
    next read of that register returns. -/
theorem storeRegister_commit_loadRegister (P : Platform) (m : MemoryMonitor)
    (hp : m.pendingWrites.elems = []) (idx : Nat)
    (hal : (getRegisterAddr P idx).toNat % DOUBLE_WORD_SIZE = 0)
    (hin : ∀ i < DOUBLE_WORD_SIZE,
      (m.image.memorySpace.readMem (getRegisterAddr P idx + BitVec.ofNat 64 i) .Byte).isSome)
    (hboot : idx = 2 → m.initial = true) (v : BitVec 64) (r : OpCodeResult) :
    ∃ m', (m.storeRegister P idx v >>= fun m1 => (m1.saveOp r).commit) = .ret m' ∧
      m'.loadRegister P idx =
        .ret (if idx = 2 ∧ v = 0 then BitVec.ofNat 64 P.STACK_INITIAL_ADDRESS else v, m') := by
  generalize hw : (if idx = 2 ∧ v = 0 then BitVec.ofNat 64 P.STACK_INITIAL_ADDRESS else v) = w
  have hs : m.storeRegister P idx v =
      .ret (m.storeRegion (getRegisterAddr P idx) (toLeBytes DOUBLE_WORD_SIZE w)) := by
    rw [← hw, storeRegister, ← apply_ite (m.storeU64 _)]
    exact storeLe_of_aligned m _ hal
  have hadds : Adds m (m.storeRegion (getRegisterAddr P idx) (toLeBytes DOUBLE_WORD_SIZE w))
      (regionBytes (getRegisterAddr P idx) 0 (toLeBytes DOUBLE_WORD_SIZE w)) :=
    adds_storeBytes _ _ m 0
  have hlen : (toLeBytes DOUBLE_WORD_SIZE w).length = DOUBLE_WORD_SIZE := length_toLeBytes _ _
  obtain ⟨m', hc⟩ : ∃ m', ((m.storeRegion (getRegisterAddr P idx)
      (toLeBytes DOUBLE_WORD_SIZE w)).saveOp r).commit = .ret m' := ⟨_, commit_saveOp _ r⟩
  obtain ⟨hat, -⟩ := commit_regionBytes hp hadds (by rw [hlen]; decide) hc
  refine ⟨m', by rw [hs, Outcome.ret_bind]; exact hc, ?_⟩
  have hinit : m'.initial = m.initial :=
    (commit_initial hc).trans ((saveOp_initial _ r).trans hadds.initial)
  have hle := loadLe_of_bytes (hlen ▸ hal) fun i hi => hat i hi (hin i (hlen ▸ hi))
  have hw' : BitVec.ofNat 64 (w.toNat % 2 ^ (8 * DOUBLE_WORD_SIZE)) = w := by
    simp only [DOUBLE_WORD_SIZE]; bv_omega
  rw [hlen, fromLeBytes_toLeBytes, hw'] at hle
  rw [loadRegister, if_neg fun h => by simp [hinit, hboot h.1] at h, loadU64, hle]
  rfl

theorem storeRegister_commit_loadRegister_x5 :
    regMonitor.pendingWrites.elems = [] ∧
    (getRegisterAddr Platform.small 5).toNat % DOUBLE_WORD_SIZE = 0 ∧
    (∀ i < DOUBLE_WORD_SIZE, (regMonitor.image.memorySpace.readMem
      (getRegisterAddr Platform.small 5 + BitVec.ofNat 64 i) .Byte).isSome) ∧
    (5 = 2 → regMonitor.initial = true) ∧
    ∃ m', (regMonitor.storeRegister Platform.small 5 7 >>= fun m1 => (m1.saveOp ⟨none⟩).commit) =
        .ret m' ∧
      m'.loadRegister Platform.small 5 =
        .ret (if 5 = 2 ∧ (7 : BitVec 64) = 0 then
          BitVec.ofNat 64 Platform.small.STACK_INITIAL_ADDRESS else 7, m') :=
  have hin : ∀ i < DOUBLE_WORD_SIZE, (regMonitor.image.memorySpace.readMem
      (getRegisterAddr Platform.small 5 + BitVec.ofNat 64 i) .Byte).isSome := by decide
  ⟨rfl, by decide, hin, by decide,
    storeRegister_commit_loadRegister Platform.small regMonitor rfl 5 (by decide) hin (by decide) 7 ⟨none⟩⟩

end ZkvmRv64
