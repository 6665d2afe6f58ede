import ZkvmRv64.Rrs.Atomicity

/-
  ZkvmRv64.Rrs.Alignment — the addresses the executor hands to its memory.

  The `Memory` trait asks for addresses aligned to the access size. To say which calls a
  step makes, the memory is wrapped in `Memory.logged`, which behaves as the memory it wraps
  and appends each call (`Access`) to a log. The load, store, `LR` and `SC` families test
  `addr & align_mask(size)` before they touch the memory, so every call they make is
  aligned (`alignMask_eq_zero_iff`); the fetch is aligned when `pc` is. `execute_amow` and
  `execute_amod` make no such test: an `AMO` reads and writes `x[rs1]` whatever its
  alignment, and never raises `AlignmentFault`.

  Proved:
  - `Handler.run_aligned`: every handler but the `AMO`s only makes aligned calls.
  - `step_accesses_aligned`: from a word-aligned `pc`, a step that does not run an `AMO`
    makes only aligned calls on the memory, the fetch included.
  - `amowOpRegFn_accesses_unaligned`: an `AMO*.W` whose read and write return reads and
    writes the word at `x[rs1]` and returns `Ok(false)`, for every `x[rs1]`.
-/

namespace ZkvmRv64

/-- A call the executor makes on its memory; a write records what it returned. -/
inductive Access where
  | read (addr : BitVec 64) (size : MemAccessSize)
  | write (addr : BitVec 64) (size : MemAccessSize) (ok : Bool)
  deriving DecidableEq, Repr

namespace Access

def addr : Access → BitVec 64
  | .read a _ | .write a _ _ => a

def size : Access → MemAccessSize
  | .read _ s | .write _ s _ => s

/-- The `Memory` trait's precondition: the address is a multiple of the access size. -/
def aligned (a : Access) : Prop := a.addr.toNat % a.size.bytes = 0

instance (a : Access) : Decidable a.aligned := inferInstanceAs (Decidable (_ = _))

end Access

/-- `M`, with a log of the calls made on it. -/
def Memory.logged {σ : Type} (M : Memory σ) : Memory (σ × List Access) where
  readMem s addr size := do
    let (r, m) ← M.readMem s.1 addr size
    return (r, m, s.2 ++ [.read addr size])
  writeMem s addr size data := do
    let (ok, m) ← M.writeMem s.1 addr size data
    return (ok, m, s.2 ++ [.write addr size ok])

theorem Memory.logged_readMem_log {σ : Type} {M : Memory σ} {s s' : σ × List Access}
    {addr : BitVec 64} {size : MemAccessSize} {r : Option (BitVec 64)}
    (h : M.logged.readMem s addr size = .ret (r, s')) : s'.2 = s.2 ++ [.read addr size] := by
  obtain ⟨⟨r', m⟩, -, h⟩ := Outcome.bind_eq_ret.mp h
  simp only [Outcome.pure_eq, Outcome.ret.injEq, Prod.mk.injEq] at h
  obtain ⟨rfl, rfl⟩ := h
  rfl

theorem Memory.logged_writeMem_log {σ : Type} {M : Memory σ} {s s' : σ × List Access}
    {addr : BitVec 64} {size : MemAccessSize} {data : BitVec 64} {ok : Bool}
    (h : M.logged.writeMem s addr size data = .ret (ok, s')) :
    s'.2 = s.2 ++ [.write addr size ok] := by
  obtain ⟨⟨ok', m⟩, -, h⟩ := Outcome.bind_eq_ret.mp h
  simp only [Outcome.pure_eq, Outcome.ret.injEq, Prod.mk.injEq] at h
  obtain ⟨rfl, rfl⟩ := h
  rfl

/-- The executor's alignment test is the trait's precondition. -/
theorem alignMask_eq_zero_iff (addr : BitVec 64) (size : MemAccessSize) :
    addr &&& InstructionExecutor.alignMask size = 0 ↔ addr.toNat % size.bytes = 0 := by
  rw [BitVec.toNat_eq, BitVec.toNat_and]
  cases size
  · simp [InstructionExecutor.alignMask, MemAccessSize.bytes, Nat.mod_one]
  · exact (Nat.and_pow_two_sub_one_eq_mod _ 1).symm ▸ Iff.rfl
  · exact (Nat.and_pow_two_sub_one_eq_mod _ 2).symm ▸ Iff.rfl
  · exact (Nat.and_pow_two_sub_one_eq_mod _ 3).symm ▸ Iff.rfl

/-! ## Logs that grow by aligned calls -/

/-- `log'` is `log` followed by aligned calls. -/
def ExtendsAligned (log log' : List Access) : Prop :=
  ∃ new, log' = log ++ new ∧ ∀ a ∈ new, a.aligned

theorem ExtendsAligned.refl (log : List Access) : ExtendsAligned log log :=
  ⟨[], (List.append_nil _).symm, fun _ h => nomatch h⟩

theorem ExtendsAligned.trans {l1 l2 l3 : List Access} :
    ExtendsAligned l1 l2 → ExtendsAligned l2 l3 → ExtendsAligned l1 l3
  | ⟨n1, h1, a1⟩, ⟨n2, h2, a2⟩ =>
    ⟨n1 ++ n2, by rw [h2, h1, List.append_assoc], fun a ha =>
      (List.mem_append.mp ha).elim (a1 a) (a2 a)⟩

theorem ExtendsAligned.single {log : List Access} {a : Access} (h : a.aligned) :
    ExtendsAligned log (log ++ [a]) :=
  ⟨[a], rfl, fun _ hb => (List.mem_singleton.mp hb) ▸ h⟩

namespace InstructionExecutor

variable {σ α β : Type}

/-- A result of running from `e` whose log is `e`'s followed by aligned calls. -/
def AlignedAccesses (e : InstructionExecutor (σ × List Access))
    (x : Outcome (α × InstructionExecutor (σ × List Access))) : Prop :=
  ∀ r e', x = .ret (r, e') → ExtendsAligned e.mem.2 e'.mem.2

section Aligned

variable {e e1 e' : InstructionExecutor (σ × List Access)}

theorem aligned_ret {r : α} (h : e'.mem = e.mem) : AlignedAccesses e (.ret (r, e')) := by
  intro _ _ hx
  simp only [Outcome.ret.injEq, Prod.mk.injEq] at hx
  rw [← hx.2, h]
  exact ExtendsAligned.refl _

theorem aligned_bind {x : Outcome β}
    {k : β → Outcome (α × InstructionExecutor (σ × List Access))}
    (hk : ∀ b, x = .ret b → AlignedAccesses e (k b)) : AlignedAccesses e (x >>= k) := by
  intro r e' h
  obtain ⟨b, hb, h⟩ := Outcome.bind_eq_ret.mp h
  exact hk b hb r e' h

theorem aligned_after (h1 : ExtendsAligned e.mem.2 e1.mem.2)
    {x : Outcome (α × InstructionExecutor (σ × List Access))} (h2 : AlignedAccesses e1 x) :
    AlignedAccesses e x :=
  fun r e' h => h1.trans (h2 r e' h)

theorem AlignedAccesses.okFalse
    {x : Outcome (Except InstructionException Unit × InstructionExecutor (σ × List Access))}
    (h : AlignedAccesses e x) : AlignedAccesses e (InstructionExecutor.okFalse x) :=
  aligned_bind fun ⟨_, _⟩ hx _ _ h' => by
    cases h'
    exact h _ _ hx

theorem aligned_read {M : Memory σ} {addr : BitVec 64} {size : MemAccessSize}
    {k : Option (BitVec 64) × σ × List Access → Outcome (α × InstructionExecutor (σ × List Access))}
    (hal : addr.toNat % size.bytes = 0)
    (hk : ∀ r mem, AlignedAccesses (e.setMem mem) (k (r, mem))) :
    AlignedAccesses e (M.logged.readMem e.mem addr size >>= k) :=
  aligned_bind fun ⟨r, mem⟩ hr => by
    have h1 : ExtendsAligned e.mem.2 (e.setMem mem).mem.2 := by
      rw [setMem_mem, Memory.logged_readMem_log hr]
      exact ExtendsAligned.single hal
    exact aligned_after h1 (hk r mem)

theorem aligned_write {M : Memory σ} {addr data : BitVec 64} {size : MemAccessSize}
    {k : Bool × σ × List Access → Outcome (α × InstructionExecutor (σ × List Access))}
    (hal : addr.toNat % size.bytes = 0)
    (hk : ∀ ok mem, AlignedAccesses (e.setMem mem) (k (ok, mem))) :
    AlignedAccesses e (M.logged.writeMem e.mem addr size data >>= k) :=
  aligned_bind fun ⟨ok, mem⟩ hw => by
    have h1 : ExtendsAligned e.mem.2 (e.setMem mem).mem.2 := by
      rw [setMem_mem, Memory.logged_writeMem_log hw]
      exact ExtendsAligned.single hal
    exact aligned_after h1 (hk ok mem)

end Aligned

/-! ## The families -/

section Families

variable (M : Memory σ) (e : InstructionExecutor (σ × List Access)) (size : MemAccessSize)

theorem executeLoad_aligned (d : IType) (signed : Bool) :
    AlignedAccesses e (e.executeLoad M.logged d size signed) := by
  simp only [executeLoad]
  split
  · exact aligned_ret rfl
  · refine aligned_read ((alignMask_eq_zero_iff _ _).mp (Decidable.of_not_not ‹_›)) fun r _ => ?_
    cases r <;> exact aligned_ret rfl

theorem executeAmoLoad_aligned (d : AType) :
    AlignedAccesses e (e.executeAmoLoad M.logged d size) := by
  simp only [executeAmoLoad]
  split
  · exact aligned_ret rfl
  · refine aligned_read ((alignMask_eq_zero_iff _ _).mp (Decidable.of_not_not ‹_›)) fun r _ => ?_
    cases r <;> exact aligned_ret rfl

theorem executeStore_aligned (d : SType) :
    AlignedAccesses e (e.executeStore M.logged d size) := by
  simp only [executeStore]
  split
  · exact aligned_ret rfl
  · refine aligned_write ((alignMask_eq_zero_iff _ _).mp (Decidable.of_not_not ‹_›)) fun ok _ => ?_
    cases ok <;> exact aligned_ret rfl

theorem executeAmoStore_aligned (d : AType) :
    AlignedAccesses e (e.executeAmoStore M.logged d size) := by
  simp only [executeAmoStore]
  split
  · exact aligned_ret rfl
  · refine aligned_write ((alignMask_eq_zero_iff _ _).mp (Decidable.of_not_not ‹_›)) fun ok _ => ?_
    cases ok <;> exact aligned_ret rfl

end Families

end InstructionExecutor

section Step

open InstructionExecutor

variable {σ : Type}

/-- Every handler but the `AMO`s only makes aligned calls on the memory. -/
theorem Handler.run_aligned (M : Memory σ) (e : InstructionExecutor (σ × List Access)) :
    ∀ h : Handler, h.isAmo = false → AlignedAccesses e (h.run M.logged e)
  | .aluReg .., _ | .aluImm .., _ | .aluImmShamt .., _ | .rdtime _, _ | .addiw _, _
  | .lui _, _ | .auipc _, _ | .jal _, _ | .jalr _, _ | .fence _, _ => aligned_ret rfl
  | .branch cond d, _ => by
    simp only [run, branchOpFn, executeBranch]
    split <;> exact aligned_ret rfl
  | .load size signed d, _ => (executeLoad_aligned M e size d signed).okFalse
  | .store size d, _ => (executeStore_aligned M e size d).okFalse
  | .amoLoad size d, _ => (executeAmoLoad_aligned M e size d).okFalse
  | .amoStore size d, _ => (executeAmoStore_aligned M e size d).okFalse
  | .aluRegM _ _, _ => aligned_bind fun _ _ => aligned_ret rfl

theorem processInstruction_aligned {decode : BitVec 32 → Option Insn}
    (hdec : ∀ w i, decode w = some i → i.isAmo = false) {M : Memory σ}
    {e e' : InstructionExecutor (σ × List Access)} {w : BitVec 32}
    {r : Option (Except InstructionException Bool)}
    (h : processInstruction decode M.logged e w = .ret (r, e')) :
    ExtendsAligned e.mem.2 e'.mem.2 := by
  cases r with
  | none =>
    rw [(processInstruction_none h).2]
    exact ExtendsAligned.refl _
  | some r =>
    obtain ⟨i, hi, hx⟩ := processInstruction_some h
    obtain ⟨hd, hr⟩ := i.runsAs
    rw [hr.execute] at hx
    exact hd.run_aligned M e (hr.isAmo.trans (hdec _ _ hi)) _ _ hx

/-- Over a decoder that yields no `AMO`, a step from a word-aligned `pc` calls its memory only
    at aligned addresses, the fetch included. -/
theorem InstructionExecutor.step_accesses_aligned (decode : BitVec 32 → Option Insn)
    (M : Memory σ) (e : InstructionExecutor (σ × List Access))
    (hdec : ∀ w i, decode w = some i → i.isAmo = false) (hpc : e.hartState.pc.toNat % 4 = 0) :
    AlignedAccesses e (e.step decode M.logged) := by
  refine aligned_read hpc fun r mem => ?_
  cases r with
  | none => exact aligned_ret rfl
  | some w =>
    refine aligned_bind fun ⟨sr, e1⟩ hp => aligned_after (processInstruction_aligned hdec hp) ?_
    match sr with
    | some (.ok pc_updated) => cases pc_updated <;> exact aligned_ret rfl
    | some (.error _) => exact aligned_ret rfl
    | none => exact aligned_ret rfl

/-- `lw x1, 0(x0)` fetched from `pc = 0`. -/
theorem InstructionExecutor.step_accesses_aligned_lw :
    (∀ w i, (fun _ => some (.lw ⟨1, 0, 0⟩) : BitVec 32 → Option Insn) w = some i →
        i.isAmo = false) ∧
      HartState.new.pc.toNat % 4 = 0 ∧
      AlignedAccesses ⟨((), []), HartState.new⟩
        ((⟨((), []), HartState.new⟩ : InstructionExecutor (Unit × List Access)).step
          (fun _ => some (.lw ⟨1, 0, 0⟩)) rom.logged) :=
  have hdec : ∀ w i, (fun _ => some (.lw ⟨1, 0, 0⟩) : BitVec 32 → Option Insn) w = some i →
      i.isAmo = false := fun _ _ h => by cases h; rfl
  ⟨hdec, rfl, InstructionExecutor.step_accesses_aligned _ rom _ hdec rfl⟩

end Step

/-! ## `AMO*.W` at any address -/

namespace InstructionExecutor

variable {σ : Type}

/-- An `AMO*.W` whose read and write return reads and writes the word at `x[rs1]` and
    returns `Ok(false)`, whatever the alignment of `x[rs1]`. -/
theorem amowOpRegFn_accesses_unaligned (op : BitVec 64 → BitVec 64 → BitVec 64)
    (M : Memory σ) (e : InstructionExecutor (σ × List Access)) (d : AType) {v : BitVec 64}
    {s1 s2 : σ} {ok : Bool}
    (hr : M.readMem e.mem.1 (e.readRegister d.rs1) .Word = .ret (some v, s1))
    (hw : M.writeMem s1 (e.readRegister d.rs1) .Word
      (op (sext32 v) (sext32 (e.readRegister d.rs2))) = .ret (ok, s2)) :
    ∃ e', amowOpRegFn op M.logged e d = .ret (.ok false, e') ∧
      e'.mem.2 = e.mem.2 ++ [.read (e.readRegister d.rs1) .Word,
        .write (e.readRegister d.rs1) .Word ok] := by
  simp [amowOpRegFn, okFalse, executeAmow, Memory.logged, Except.map, hr, hw]

/-- `amoadd.w x1, x0, (x1)` with `x1 = 2`. -/
def amoExecutor : InstructionExecutor (Unit × List Access) := ⟨((), []), HartState.new.writeRegister 1 2⟩

theorem amowOpRegFn_accesses_unaligned_two :
    ¬ (Access.read 2 .Word).aligned ∧
      ∃ e', amowOpRegFn (fun a b => a + b) rom.logged amoExecutor ⟨1, 1, 0⟩ = .ret (.ok false, e') ∧
        e'.mem.2 = [.read 2 .Word, .write 2 .Word false] :=
  ⟨by decide, amowOpRegFn_accesses_unaligned _ rom amoExecutor _ rfl rfl⟩

end InstructionExecutor

end ZkvmRv64
