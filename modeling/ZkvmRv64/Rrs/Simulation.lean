import ZkvmRv64.Rrs.Alignment

/-
  ZkvmRv64.Rrs.Simulation — one step run on two memories side by side.

  The executor sees its memory only through `read_mem` and `write_mem`, so a step on `M1` and
  a step on `M2` return alike when the two memories answer alike. They need not answer alike
  throughout. No handler makes a call after its write, and none writes twice, so it is
  enough that `M2` answers each read as `M1` does while the states are related by `R`, and
  each write with the same success, leaving them related by `R'`, which `R` implies
  (`Memory.Simulates`). Each return of the step on `M1` is then one of the step on `M2`: the
  same result, the same hart, and memories related by `R'` (`Matches`).

  Proved:
  - `Handler.run_matches`: every handler, run on both memories.
  - `step_matches`: every step, the fetch included.
-/

namespace ZkvmRv64

variable {σ1 σ2 : Type}

/-- `M2` answers each read as `M1` does while their states are related by `R`, which reads
    keep, and each write with the same success, leaving the states related by `R'`; `R`
    implies `R'`. -/
structure Memory.Simulates (M1 : Memory σ1) (M2 : Memory σ2) (R R' : σ1 → σ2 → Prop) : Prop where
  read : ∀ s1 s2 addr size r s1', R s1 s2 → M1.readMem s1 addr size = .ret (r, s1') →
    ∃ s2', M2.readMem s2 addr size = .ret (r, s2') ∧ R s1' s2'
  write : ∀ s1 s2 addr size data ok s1', R s1 s2 →
    M1.writeMem s1 addr size data = .ret (ok, s1') →
    ∃ s2', M2.writeMem s2 addr size data = .ret (ok, s2') ∧ R' s1' s2'
  done : ∀ {s1 s2}, R s1 s2 → R' s1 s2

namespace InstructionExecutor

variable {α β : Type}

/-- Each return of `x` is one of `y`: the same result, the same hart, and memories related by
    `R`. -/
def Matches (R : σ1 → σ2 → Prop) (x : Outcome (α × InstructionExecutor σ1))
    (y : Outcome (α × InstructionExecutor σ2)) : Prop :=
  ∀ r e1, x = .ret (r, e1) → ∃ s2, y = .ret (r, ⟨s2, e1.hartState⟩) ∧ R e1.mem s2

section Matches

variable {R R' : σ1 → σ2 → Prop}

theorem matches_ret {r : α} {e1 : InstructionExecutor σ1} {s2 : σ2} (h : R e1.mem s2) :
    Matches R (.ret (r, e1)) (.ret (r, ⟨s2, e1.hartState⟩)) := by
  intro _ _ hx
  simp only [Outcome.ret.injEq, Prod.mk.injEq] at hx
  obtain ⟨rfl, rfl⟩ := hx
  exact ⟨s2, rfl, h⟩

theorem matches_bind {x : Outcome (β × InstructionExecutor σ1)}
    {y : Outcome (β × InstructionExecutor σ2)}
    {k1 : β × InstructionExecutor σ1 → Outcome (α × InstructionExecutor σ1)}
    {k2 : β × InstructionExecutor σ2 → Outcome (α × InstructionExecutor σ2)} (hxy : Matches R x y)
    (hk : ∀ b e1 s2, R e1.mem s2 → Matches R' (k1 (b, e1)) (k2 (b, ⟨s2, e1.hartState⟩))) :
    Matches R' (x >>= k1) (y >>= k2) := by
  intro r e1 h
  obtain ⟨⟨b, e1'⟩, hx, h⟩ := Outcome.bind_eq_ret.mp h
  obtain ⟨s2, hy, hR⟩ := hxy b e1' hx
  rw [hy, Outcome.ret_bind]
  exact hk b e1' s2 hR r e1 h

/-- A computation that does not touch the memory, run on both sides. -/
theorem matches_bind_same {x : Outcome β} {k1 : β → Outcome (α × InstructionExecutor σ1)}
    {k2 : β → Outcome (α × InstructionExecutor σ2)} (hk : ∀ b, x = .ret b → Matches R (k1 b) (k2 b)) :
    Matches R (x >>= k1) (x >>= k2) := by
  intro r e1 h
  obtain ⟨b, hx, h⟩ := Outcome.bind_eq_ret.mp h
  rw [hx, Outcome.ret_bind]
  exact hk b hx r e1 h

theorem Matches.okFalse {x : Outcome (Except InstructionException Unit × InstructionExecutor σ1)}
    {y : Outcome (Except InstructionException Unit × InstructionExecutor σ2)} (h : Matches R x y) :
    Matches R (InstructionExecutor.okFalse x) (InstructionExecutor.okFalse y) :=
  matches_bind h fun _ _ _ hR => matches_ret hR

variable {M1 : Memory σ1} {M2 : Memory σ2}

theorem matches_read (hM : M1.Simulates M2 R R') {s1 : σ1} {s2 : σ2} (hR : R s1 s2)
    {addr : BitVec 64} {size : MemAccessSize}
    {k1 : Option (BitVec 64) × σ1 → Outcome (α × InstructionExecutor σ1)}
    {k2 : Option (BitVec 64) × σ2 → Outcome (α × InstructionExecutor σ2)}
    (hk : ∀ r s1' s2', R s1' s2' → Matches R' (k1 (r, s1')) (k2 (r, s2'))) :
    Matches R' (M1.readMem s1 addr size >>= k1) (M2.readMem s2 addr size >>= k2) := by
  intro r e1 h
  obtain ⟨⟨v, s1'⟩, hr, h⟩ := Outcome.bind_eq_ret.mp h
  obtain ⟨s2', hr2, hR'⟩ := hM.read _ _ _ _ _ _ hR hr
  rw [hr2, Outcome.ret_bind]
  exact hk v s1' s2' hR' r e1 h

theorem matches_write (hM : M1.Simulates M2 R R') {s1 : σ1} {s2 : σ2} (hR : R s1 s2)
    {addr data : BitVec 64} {size : MemAccessSize}
    {k1 : Bool × σ1 → Outcome (α × InstructionExecutor σ1)}
    {k2 : Bool × σ2 → Outcome (α × InstructionExecutor σ2)}
    (hk : ∀ ok s1' s2', R' s1' s2' → Matches R' (k1 (ok, s1')) (k2 (ok, s2'))) :
    Matches R' (M1.writeMem s1 addr size data >>= k1) (M2.writeMem s2 addr size data >>= k2) := by
  intro r e1 h
  obtain ⟨⟨ok, s1'⟩, hw, h⟩ := Outcome.bind_eq_ret.mp h
  obtain ⟨s2', hw2, hR'⟩ := hM.write _ _ _ _ _ _ _ hR hw
  rw [hw2, Outcome.ret_bind]
  exact hk ok s1' s2' hR' r e1 h

end Matches

/-! ## The families -/

section Families

variable {R R' : σ1 → σ2 → Prop} {M1 : Memory σ1} {M2 : Memory σ2} (hM : M1.Simulates M2 R R')
  {e1 : InstructionExecutor σ1} {s2 : σ2} (hR : R e1.mem s2) (size : MemAccessSize)
include hM hR

theorem executeLoad_matches (d : IType) (signed : Bool) :
    Matches R' (e1.executeLoad M1 d size signed)
      ((⟨s2, e1.hartState⟩ : InstructionExecutor σ2).executeLoad M2 d size signed) := by
  simp only [executeLoad, readRegister]
  split
  · exact matches_ret (hM.done hR)
  · exact matches_read hM hR fun r _ _ h => by cases r <;> exact matches_ret (hM.done h)

theorem executeAmoLoad_matches (d : AType) :
    Matches R' (e1.executeAmoLoad M1 d size)
      ((⟨s2, e1.hartState⟩ : InstructionExecutor σ2).executeAmoLoad M2 d size) := by
  simp only [executeAmoLoad, readRegister]
  split
  · exact matches_ret (hM.done hR)
  · exact matches_read hM hR fun r _ _ h => by cases r <;> exact matches_ret (hM.done h)

theorem executeStore_matches (d : SType) :
    Matches R' (e1.executeStore M1 d size)
      ((⟨s2, e1.hartState⟩ : InstructionExecutor σ2).executeStore M2 d size) := by
  simp only [executeStore, readRegister]
  split
  · exact matches_ret (hM.done hR)
  · exact matches_write hM hR fun ok _ _ h => by cases ok <;> exact matches_ret h

theorem executeAmoStore_matches (d : AType) :
    Matches R' (e1.executeAmoStore M1 d size)
      ((⟨s2, e1.hartState⟩ : InstructionExecutor σ2).executeAmoStore M2 d size) := by
  simp only [executeAmoStore, readRegister]
  split
  · exact matches_ret (hM.done hR)
  · exact matches_write hM hR fun ok _ _ h => by cases ok <;> exact matches_ret h

/-- The read comes first and the write last: nothing is read back. -/
theorem executeAmow_matches (d : AType) (op : BitVec 64 → BitVec 64 → BitVec 64) :
    Matches R' (e1.executeAmow M1 d op)
      ((⟨s2, e1.hartState⟩ : InstructionExecutor σ2).executeAmow M2 d op) :=
  matches_read hM hR fun r _ _ h => by
    cases r
    · exact matches_ret (hM.done h)
    · exact matches_write hM h fun _ _ _ h' => matches_ret h'

theorem executeAmod_matches (d : AType) (op : BitVec 64 → BitVec 64 → BitVec 64) :
    Matches R' (e1.executeAmod M1 d op)
      ((⟨s2, e1.hartState⟩ : InstructionExecutor σ2).executeAmod M2 d op) :=
  matches_read hM hR fun r _ _ h => by
    cases r
    · exact matches_ret (hM.done h)
    · exact matches_write hM h fun _ _ _ h' => matches_ret h'

end Families

end InstructionExecutor

section Step

open InstructionExecutor

variable {R R' : σ1 → σ2 → Prop} {M1 : Memory σ1} {M2 : Memory σ2}

/-- Every handler run on `M2` returns as it does on `M1`. -/
theorem Handler.run_matches (hM : M1.Simulates M2 R R') {e1 : InstructionExecutor σ1} {s2 : σ2}
    (hR : R e1.mem s2) : ∀ h : Handler, Matches R' (h.run M1 e1) (h.run M2 ⟨s2, e1.hartState⟩)
  | .aluReg .. | .aluImm .. | .aluImmShamt .. | .rdtime _ | .addiw _ | .lui _ | .auipc _
  | .jal _ | .jalr _ | .fence _ => matches_ret (hM.done hR)
  | .branch cond d => by
    simp only [run, branchOpFn, executeBranch, readRegister]
    split <;> exact matches_ret (hM.done hR)
  | .load size signed d => (executeLoad_matches hM hR size d signed).okFalse
  | .store size d => (executeStore_matches hM hR size d).okFalse
  | .amoLoad size d => (executeAmoLoad_matches hM hR size d).okFalse
  | .amoStore size d => (executeAmoStore_matches hM hR size d).okFalse
  | .amow op d => (executeAmow_matches hM hR d op).okFalse
  | .amod op d => (executeAmod_matches hM hR d op).okFalse
  | .aluRegM _ _ => matches_bind_same fun _ _ => matches_ret (hM.done hR)

theorem processInstruction_matches (hM : M1.Simulates M2 R R') (decode : BitVec 32 → Option Insn)
    {e1 : InstructionExecutor σ1} {s2 : σ2} (hR : R e1.mem s2) (w : BitVec 32) :
    Matches R' (processInstruction decode M1 e1 w)
      (processInstruction decode M2 ⟨s2, e1.hartState⟩ w) := by
  unfold processInstruction
  cases decode w with
  | none => exact matches_ret (hM.done hR)
  | some i =>
    obtain ⟨h, hr⟩ := i.runsAs
    simp only [hr.execute]
    exact matches_bind (h.run_matches hM hR) fun _ _ _ h' => matches_ret h'

/-- A step on `M2` returns as the step on `M1` does, from the same hart and related memories. -/
theorem InstructionExecutor.step_matches (decode : BitVec 32 → Option Insn)
    (hM : M1.Simulates M2 R R') (e1 : InstructionExecutor σ1) (s2 : σ2) (hR : R e1.mem s2) :
    Matches R' (e1.step decode M1) ((⟨s2, e1.hartState⟩ : InstructionExecutor σ2).step decode M2) := by
  refine matches_read hM hR fun r _ _ h => ?_
  cases r with
  | none => exact matches_ret (hM.done h)
  | some w =>
    refine matches_bind (processInstruction_matches hM decode h _) fun sr _ _ h' => ?_
    match sr with
    | some (.ok pc_updated) => cases pc_updated <;> exact matches_ret h'
    | some (.error _) => exact matches_ret h'
    | none => exact matches_ret h'

end Step

end ZkvmRv64
