import ZkvmRv64.Rrs.Executor

/-
  ZkvmRv64.Rrs.Footprint — the executor changes its memory only through the memory's own
  `read_mem` and `write_mem`.

  A property of the memory state that every `read_mem` and `write_mem` keeps
  (`Memory.Preserves`) holds after every handler and every step that returns, whatever the
  instruction, the registers or the outcome (`step_preserves`). The monitor's image is such a
  property: its stores only add pending records (`Exec.Step`).

  Proved:
  - `Handler.run_preserves`: every handler keeps such a property.
  - `step_preserves`: so does every step, the fetch included.
-/

namespace ZkvmRv64

/-- `I` survives every call on `M`. -/
structure Memory.Preserves {σ : Type} (M : Memory σ) (I : σ → Prop) : Prop where
  read : ∀ s addr size r s', I s → M.readMem s addr size = .ret (r, s') → I s'
  write : ∀ s addr size data ok s', I s → M.writeMem s addr size data = .ret (ok, s') → I s'

namespace InstructionExecutor

variable {σ α β : Type}

/-- A result whose executor's memory has `I`. -/
def KeepsMem (I : σ → Prop) (x : Outcome (α × InstructionExecutor σ)) : Prop :=
  ∀ r e', x = .ret (r, e') → I e'.mem

section KeepsMem

variable {I : σ → Prop} {M : Memory σ} {e e' : InstructionExecutor σ}

theorem keepsMem_ret {r : α} (h : I e'.mem) : KeepsMem I (.ret (r, e')) := by
  intro _ _ hx
  simp only [Outcome.ret.injEq, Prod.mk.injEq] at hx
  exact hx.2 ▸ h

theorem keepsMem_bind {x : Outcome β} {k : β → Outcome (α × InstructionExecutor σ)}
    (hk : ∀ b, x = .ret b → KeepsMem I (k b)) : KeepsMem I (x >>= k) := by
  intro r e' h
  obtain ⟨b, hb, h⟩ := Outcome.bind_eq_ret.mp h
  exact hk b hb r e' h

theorem KeepsMem.okFalse
    {x : Outcome (Except InstructionException Unit × InstructionExecutor σ)}
    (h : KeepsMem I x) : KeepsMem I (InstructionExecutor.okFalse x) :=
  keepsMem_bind fun ⟨_, _⟩ hx _ _ h' => by
    cases h'
    exact h _ _ hx

/-- After a read, the executor's memory has `I` again. -/
theorem keepsMem_read (hM : M.Preserves I) (he : I e.mem) {addr : BitVec 64}
    {size : MemAccessSize}
    {k : Option (BitVec 64) × σ → Outcome (α × InstructionExecutor σ)}
    (hk : ∀ r mem, I mem → KeepsMem I (k (r, mem))) :
    KeepsMem I (M.readMem e.mem addr size >>= k) :=
  keepsMem_bind fun ⟨r, mem⟩ hr => hk r mem (hM.read _ _ _ _ _ he hr)

theorem keepsMem_write (hM : M.Preserves I) (he : I e.mem) {addr data : BitVec 64}
    {size : MemAccessSize} {k : Bool × σ → Outcome (α × InstructionExecutor σ)}
    (hk : ∀ ok mem, I mem → KeepsMem I (k (ok, mem))) :
    KeepsMem I (M.writeMem e.mem addr size data >>= k) :=
  keepsMem_bind fun ⟨ok, mem⟩ hw => hk ok mem (hM.write _ _ _ _ _ _ he hw)

end KeepsMem

/-! ## The families -/

section Families

variable {I : σ → Prop} {M : Memory σ} (hM : M.Preserves I) {e : InstructionExecutor σ}
  (he : I e.mem) (size : MemAccessSize)
include hM he

theorem executeLoad_preserves (d : IType) (signed : Bool) :
    KeepsMem I (e.executeLoad M d size signed) := by
  simp only [executeLoad]
  split
  · exact keepsMem_ret he
  · exact keepsMem_read hM he fun r _ hm => by cases r <;> exact keepsMem_ret hm

theorem executeAmoLoad_preserves (d : AType) : KeepsMem I (e.executeAmoLoad M d size) := by
  simp only [executeAmoLoad]
  split
  · exact keepsMem_ret he
  · exact keepsMem_read hM he fun r _ hm => by cases r <;> exact keepsMem_ret hm

theorem executeStore_preserves (d : SType) : KeepsMem I (e.executeStore M d size) := by
  simp only [executeStore]
  split
  · exact keepsMem_ret he
  · exact keepsMem_write hM he fun ok _ hm => by cases ok <;> exact keepsMem_ret hm

theorem executeAmoStore_preserves (d : AType) : KeepsMem I (e.executeAmoStore M d size) := by
  simp only [executeAmoStore]
  split
  · exact keepsMem_ret he
  · exact keepsMem_write hM he fun ok _ hm => by cases ok <;> exact keepsMem_ret hm

theorem executeAmow_preserves (d : AType) (op : BitVec 64 → BitVec 64 → BitVec 64) :
    KeepsMem I (e.executeAmow M d op) :=
  keepsMem_read hM he fun r _ hm => by
    cases r
    · exact keepsMem_ret hm
    · exact keepsMem_write hM hm fun _ _ hm' => keepsMem_ret hm'

theorem executeAmod_preserves (d : AType) (op : BitVec 64 → BitVec 64 → BitVec 64) :
    KeepsMem I (e.executeAmod M d op) :=
  keepsMem_read hM he fun r _ hm => by
    cases r
    · exact keepsMem_ret hm
    · exact keepsMem_write hM hm fun _ _ hm' => keepsMem_ret hm'

end Families

end InstructionExecutor

section Step

open InstructionExecutor

variable {σ : Type} {I : σ → Prop} {M : Memory σ}

/-- Every handler changes the memory only through its calls. -/
theorem Handler.run_preserves (hM : M.Preserves I) {e : InstructionExecutor σ} (he : I e.mem) :
    ∀ h : Handler, KeepsMem I (h.run M e)
  | .aluReg .. | .aluImm .. | .aluImmShamt .. | .rdtime _ | .addiw _ | .lui _ | .auipc _
  | .jal _ | .jalr _ | .fence _ => keepsMem_ret he
  | .branch cond d => by
    simp only [run, branchOpFn, executeBranch]
    split <;> exact keepsMem_ret he
  | .load size signed d => KeepsMem.okFalse (executeLoad_preserves hM he size d signed)
  | .store size d => KeepsMem.okFalse (executeStore_preserves hM he size d)
  | .amoLoad size d => KeepsMem.okFalse (executeAmoLoad_preserves hM he size d)
  | .amoStore size d => KeepsMem.okFalse (executeAmoStore_preserves hM he size d)
  | .amow op d => KeepsMem.okFalse (executeAmow_preserves hM he d op)
  | .amod op d => KeepsMem.okFalse (executeAmod_preserves hM he d op)
  | .aluRegM _ _ => keepsMem_bind fun _ _ => keepsMem_ret he

/-- A property of the memory that every call keeps holds after every step that returns. -/
theorem InstructionExecutor.step_preserves (decode : BitVec 32 → Option Insn) (hM : M.Preserves I)
    (e : InstructionExecutor σ) (he : I e.mem) : KeepsMem I (e.step decode M) := by
  refine keepsMem_read hM he fun r mem hm => ?_
  cases r with
  | none => exact keepsMem_ret hm
  | some w =>
    refine keepsMem_bind fun ⟨sr, e1⟩ hp => ?_
    have h1 : I e1.mem := by
      cases sr with
      | none => exact (processInstruction_none hp).2 ▸ hm
      | some r =>
        obtain ⟨i, -, hx⟩ := processInstruction_some hp
        obtain ⟨h, hr⟩ := i.runsAs
        rw [hr.execute] at hx
        exact h.run_preserves hM hm _ _ hx
    match sr with
    | some (.ok pc_updated) => cases pc_updated <;> exact keepsMem_ret h1
    | some (.error _) => exact keepsMem_ret h1
    | none => exact keepsMem_ret h1

end Step

end ZkvmRv64
