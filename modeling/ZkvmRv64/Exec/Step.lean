import ZkvmRv64.Exec.Commit
import ZkvmRv64.Rrs.Atomicity

/-
  ZkvmRv64.Exec.Step — the executor running on the monitor: `impl Memory for MemoryMonitor`,
  and which exceptions a step can raise there.

  The monitor's `read_mem` wraps every load in `Some` (a load of an unmapped byte panics in
  `load_u8`'s `unwrap`), and its `write_mem` returns `true` after every store. A memory that
  behaves so is `Memory.Total`; on such a memory no handler and no fetch raises an access
  fault, so a step's only exceptions are `IllegalInstruction` and `AlignmentFault`.

  Proved:
  - `MemoryMonitor.memory_total`: the monitor never refuses an access.
  - `step_error_of_total`: over a memory that never refuses an access, a step that returns
    `Err` raises no `FetchError`, `LoadAccessFault` or `StoreAccessFault`.
  - `monitor_step_error`: the same for the monitor.
-/

namespace ZkvmRv64

/-- `impl Memory for MemoryMonitor`: a read leaves the monitor as it was. -/
def MemoryMonitor.memory : Memory MemoryMonitor where
  readMem m addr size := do
    let r ← m.readMem addr size
    return (r, m)
  writeMem m addr size store_data := m.writeMem addr size store_data

/-- A memory whose reads, when they return, find their address, and whose writes, when they
    return, succeed. -/
structure Memory.Total {σ : Type} (M : Memory σ) : Prop where
  readSome : ∀ s addr size r s', M.readMem s addr size = .ret (r, s') → r.isSome
  writeTrue : ∀ s addr size data ok s', M.writeMem s addr size data = .ret (ok, s') → ok = true

namespace MemoryMonitor

theorem readMem_isSome {m : MemoryMonitor} {addr : BitVec 64} {size : MemAccessSize}
    {r : Option (BitVec 64)} (h : m.readMem addr size = .ret r) : r.isSome := by
  cases size <;>
  · obtain ⟨_, -, h⟩ := Outcome.bind_eq_ret.mp h
    cases h
    rfl

theorem writeMem_true {m m' : MemoryMonitor} {addr data : BitVec 64} {size : MemAccessSize}
    {ok : Bool} (h : m.writeMem addr size data = .ret (ok, m')) : ok = true := by
  cases size
  · cases h; rfl
  all_goals
  · obtain ⟨_, -, h⟩ := Outcome.bind_eq_ret.mp h
    cases h
    rfl

theorem memory_total : MemoryMonitor.memory.Total where
  readSome _ _ _ _ _ h := by
    obtain ⟨_, hr, h⟩ := Outcome.bind_eq_ret.mp h
    cases h
    exact readMem_isSome hr
  writeTrue _ _ _ _ _ _ h := writeMem_true h

end MemoryMonitor

/-- The exceptions a memory raises through the executor: a fetch, a load or a store that the
    memory refused. -/
def InstructionException.isAccessFault : InstructionException → Bool
  | .FetchError _ | .LoadAccessFault _ | .StoreAccessFault _ => true
  | .IllegalInstruction _ _ | .AlignmentFault _ => false

section Step

open InstructionExecutor

variable {σ : Type} {M : Memory σ}

/-- A handler's exception on a memory that never refuses an access is an `AlignmentFault`. -/
theorem InstructionExecutor.ErrorFrom.not_accessFault (hM : M.Total) {e e' : InstructionExecutor σ}
    {ex : InstructionException} (h : ErrorFrom M e ex e') : ex.isAccessFault = false := by
  rcases h with ⟨_, rfl, -⟩ | ⟨_, _, _, hr, -, -⟩ | ⟨_, _, _, _, hw, -, -⟩
  · rfl
  · exact (Bool.false_ne_true (hM.readSome _ _ _ _ _ hr)).elim
  · exact (Bool.false_ne_true (hM.writeTrue _ _ _ _ _ _ hw)).elim

/-- Over a memory that never refuses an access, a step that returns `Err` raises
    `IllegalInstruction` or `AlignmentFault`, never an access fault. -/
theorem step_error_of_total (decode : BitVec 32 → Option Insn) (hM : M.Total)
    (e : InstructionExecutor σ) {ex : InstructionException} {e' : InstructionExecutor σ}
    (h : e.step decode M = .ret (.error ex, e')) : ex.isAccessFault = false := by
  obtain ⟨mem, ⟨hr, -, -⟩ | ⟨w, -, ⟨-, rfl, -⟩ | ⟨i, -, hx⟩⟩⟩ := step_error_inv decode M e h
  · exact (Bool.false_ne_true (hM.readSome _ _ _ _ _ hr)).elim
  · rfl
  · exact (Insn.execute_error M _ i _ _ hx).not_accessFault hM

/-- On the monitor, `FetchError`, `LoadAccessFault` and `StoreAccessFault` are unreachable: a
    step that returns `Err` raises `IllegalInstruction` or `AlignmentFault`. -/
theorem monitor_step_error (decode : BitVec 32 → Option Insn) (e : InstructionExecutor MemoryMonitor)
    {ex : InstructionException} {e' : InstructionExecutor MemoryMonitor}
    (h : e.step decode MemoryMonitor.memory = .ret (.error ex, e')) :
    (∃ pc insn, ex = .IllegalInstruction pc insn) ∨ ∃ addr, ex = .AlignmentFault addr := by
  have hf := step_error_of_total decode MemoryMonitor.memory_total e h
  cases ex with
  | IllegalInstruction pc insn => exact .inl ⟨pc, insn, rfl⟩
  | AlignmentFault addr => exact .inr ⟨addr, rfl⟩
  | _ => cases hf

/-- The zero word fetched from a monitor's region does not decode. -/
theorem monitor_step_error_illegal :
    ∃ ex e', (⟨byteMonitor, HartState.new⟩ : InstructionExecutor MemoryMonitor).step (fun _ => none)
        MemoryMonitor.memory = .ret (.error ex, e') ∧
      ((∃ pc insn, ex = .IllegalInstruction pc insn) ∨ ∃ addr, ex = .AlignmentFault addr) :=
  ⟨_, _, rfl, monitor_step_error (fun _ => none) ⟨byteMonitor, HartState.new⟩ rfl⟩

end Step

end ZkvmRv64
