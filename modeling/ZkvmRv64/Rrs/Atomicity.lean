import ZkvmRv64.Rrs.Executor

/-
  ZkvmRv64.Rrs.Atomicity — where the exceptions of a step come from, what a step that raises
  one leaves behind, and where the executor lets a failed write through.

  Every handler raises its exception before it writes a register, and only for one of three
  reasons (`ErrorFrom`): its alignment test failed, its read found nothing, or the memory
  refused its write. A step adds the failed fetch and the word that does not decode
  (`step_error_cases`). So a step that returns `Err` leaves the registers and `pc` as they
  were (`step_error_keeps_hart`). The converse fails for the `AMO*.W` family, which writes
  `rd` and then ignores what `write_mem` returns: an `AMO` whose write the memory refuses
  still returns `Ok(false)` (`amowOpRegFn_ignores_write`), where the store and `SC`
  families return `StoreAccessFault`.

  Proved:
  - `Handler.run_error`: every exception a handler raises is `ErrorFrom` the executor it ran on.
  - `step_error_cases`: every exception of a step is a failed fetch, a word that does not
    decode, or a handler's `ErrorFrom`.
  - `step_error_keeps_hart`: over every decoder, memory and state, a step that returns `Err`
    leaves the registers and `pc` as they were.
  - `amowOpRegFn_ignores_write`: an `AMO*.W` whose read succeeds returns `Ok(false)` with
    `rd` set to the word read, whatever `write_mem` returns.
-/

namespace ZkvmRv64

namespace InstructionExecutor

variable {σ α β : Type}

/-- A result that, when it is an exception `ex` raised with the executor `e'`, has
    `Q ex e'`. -/
def OnError (Q : InstructionException → InstructionExecutor σ → Prop)
    (x : Outcome (Except InstructionException α × InstructionExecutor σ)) : Prop :=
  ∀ ex e', x = .ret (.error ex, e') → Q ex e'

section OnError

variable {Q Q' : InstructionException → InstructionExecutor σ → Prop} {e' : InstructionExecutor σ}

theorem onError_ret_ok (r : α) : OnError Q (.ret (.ok r, e')) :=
  fun _ _ h => by cases h

theorem onError_ret_error {ex : InstructionException} (h : Q ex e') :
    OnError Q (.ret (.error ex, e') : Outcome (Except InstructionException α × _)) := by
  intro _ _ hx
  simp only [Outcome.ret.injEq, Prod.mk.injEq, Except.error.injEq] at hx
  obtain ⟨rfl, rfl⟩ := hx
  exact h

theorem onError_bind {x : Outcome β}
    {k : β → Outcome (Except InstructionException α × InstructionExecutor σ)}
    (hk : ∀ b, x = .ret b → OnError Q (k b)) : OnError Q (x >>= k) := by
  intro ex e' h
  obtain ⟨b, hb, h⟩ := Outcome.bind_eq_ret.mp h
  exact hk b hb ex e' h

theorem OnError.okFalse {x : Outcome (Except InstructionException Unit × InstructionExecutor σ)}
    (h : OnError Q x) : OnError Q (InstructionExecutor.okFalse x) := by
  intro ex e' hx
  obtain ⟨⟨r, e''⟩, hx', hx⟩ := Outcome.bind_eq_ret.mp hx
  cases r with
  | error ex' =>
    simp only [Except.map, Outcome.ret.injEq, Prod.mk.injEq, Except.error.injEq] at hx
    obtain ⟨rfl, rfl⟩ := hx
    exact h _ _ hx'
  | ok _ => cases hx

end OnError

/-- Where an exception raised from `e` comes from: a failed alignment test, with `e`
    untouched, or a read that found nothing or a write the memory refused, with `e` holding
    the memory that access left. -/
def ErrorFrom (M : Memory σ) (e : InstructionExecutor σ) (ex : InstructionException)
    (e' : InstructionExecutor σ) : Prop :=
  (∃ addr, ex = .AlignmentFault addr ∧ e' = e) ∨
  (∃ addr size mem, M.readMem e.mem addr size = .ret (none, mem) ∧
    ex = .LoadAccessFault addr ∧ e' = e.setMem mem) ∨
  (∃ addr size data mem, M.writeMem e.mem addr size data = .ret (false, mem) ∧
    ex = .StoreAccessFault addr ∧ e' = e.setMem mem)

theorem ErrorFrom.hartState {M : Memory σ} {e e' : InstructionExecutor σ}
    {ex : InstructionException} (h : ErrorFrom M e ex e') : e'.hartState = e.hartState := by
  rcases h with ⟨_, -, rfl⟩ | ⟨_, _, _, -, -, rfl⟩ | ⟨_, _, _, _, -, -, rfl⟩ <;> rfl

/-! ## The families -/

section Families

variable (M : Memory σ) (e : InstructionExecutor σ) (size : MemAccessSize)

theorem executeLoad_error (d : IType) (signed : Bool) :
    OnError (ErrorFrom M e) (e.executeLoad M d size signed) := by
  simp only [executeLoad]
  split
  · exact onError_ret_error (.inl ⟨_, rfl, rfl⟩)
  · refine onError_bind fun ⟨r, mem⟩ hr => ?_
    cases r
    · exact onError_ret_error (.inr (.inl ⟨_, _, _, hr, rfl, rfl⟩))
    · exact onError_ret_ok ()

theorem executeAmoLoad_error (d : AType) :
    OnError (ErrorFrom M e) (e.executeAmoLoad M d size) := by
  simp only [executeAmoLoad]
  split
  · exact onError_ret_error (.inl ⟨_, rfl, rfl⟩)
  · refine onError_bind fun ⟨r, mem⟩ hr => ?_
    cases r
    · exact onError_ret_error (.inr (.inl ⟨_, _, _, hr, rfl, rfl⟩))
    · exact onError_ret_ok ()

theorem executeStore_error (d : SType) : OnError (ErrorFrom M e) (e.executeStore M d size) := by
  simp only [executeStore]
  split
  · exact onError_ret_error (.inl ⟨_, rfl, rfl⟩)
  · refine onError_bind fun ⟨ok, mem⟩ hw => ?_
    cases ok
    · exact onError_ret_error (.inr (.inr ⟨_, _, _, _, hw, rfl, rfl⟩))
    · exact onError_ret_ok ()

theorem executeAmoStore_error (d : AType) :
    OnError (ErrorFrom M e) (e.executeAmoStore M d size) := by
  simp only [executeAmoStore]
  split
  · exact onError_ret_error (.inl ⟨_, rfl, rfl⟩)
  · refine onError_bind fun ⟨ok, mem⟩ hw => ?_
    cases ok
    · exact onError_ret_error (.inr (.inr ⟨_, _, _, _, hw, rfl, rfl⟩))
    · exact onError_ret_ok ()

theorem executeAmow_error (d : AType) (op : BitVec 64 → BitVec 64 → BitVec 64) :
    OnError (ErrorFrom M e) (e.executeAmow M d op) := by
  refine onError_bind fun ⟨r, mem⟩ hr => ?_
  cases r
  · exact onError_ret_error (.inr (.inl ⟨_, _, _, hr, rfl, rfl⟩))
  · exact onError_bind fun _ _ => onError_ret_ok ()

theorem executeAmod_error (d : AType) (op : BitVec 64 → BitVec 64 → BitVec 64) :
    OnError (ErrorFrom M e) (e.executeAmod M d op) := by
  refine onError_bind fun ⟨r, mem⟩ hr => ?_
  cases r
  · exact onError_ret_error (.inr (.inl ⟨_, _, _, hr, rfl, rfl⟩))
  · exact onError_bind fun _ _ => onError_ret_ok ()

end Families

end InstructionExecutor

section Step

open InstructionExecutor

variable {σ : Type}

/-- Every exception a handler raises comes from its alignment test or a refused access, and
    comes before any register write. -/
theorem Handler.run_error (M : Memory σ) (e : InstructionExecutor σ) :
    ∀ h : Handler, OnError (ErrorFrom M e) (h.run M e)
  | .aluReg .. | .aluImm .. | .aluImmShamt .. | .rdtime _ | .addiw _ | .lui _ | .auipc _
  | .jal _ | .jalr _ | .fence _ => onError_ret_ok _
  | .branch cond d => by
    simp only [run, branchOpFn, executeBranch]
    split <;> exact onError_ret_ok _
  | .load size signed d => OnError.okFalse (executeLoad_error M e size d signed)
  | .store size d => OnError.okFalse (executeStore_error M e size d)
  | .amoLoad size d => OnError.okFalse (executeAmoLoad_error M e size d)
  | .amoStore size d => OnError.okFalse (executeAmoStore_error M e size d)
  | .amow op d => OnError.okFalse (executeAmow_error M e d op)
  | .amod op d => OnError.okFalse (executeAmod_error M e d op)
  | .aluRegM _ _ => onError_bind fun _ _ => onError_ret_ok _

theorem Insn.execute_error (M : Memory σ) (e : InstructionExecutor σ) (i : Insn) :
    OnError (ErrorFrom M e) (i.execute M e) := by
  obtain ⟨h, hr⟩ := i.runsAs
  rw [hr.execute]
  exact h.run_error M e

/-- A memory that reads 0 everywhere and refuses every write. -/
def rom : Memory Unit := ⟨fun _ _ _ => .ret (some 0, ()), fun _ _ _ _ => .ret (false, ())⟩

/-- Where an exception of a step from `e` comes from: with `e0` the executor after the
    fetch (its `last_register_write` cleared, its memory the one the fetch left), the fetch
    found nothing, or the fetched word does not decode, or the handler raised it. -/
def InstructionExecutor.StepErrorFrom (decode : BitVec 32 → Option Insn) (M : Memory σ)
    (e : InstructionExecutor σ) (ex : InstructionException) (e' : InstructionExecutor σ) : Prop :=
  ∃ mem, let e0 : InstructionExecutor σ :=
      ({ e with hartState := { e.hartState with lastRegisterWrite := none } }).setMem mem
    (M.readMem e.mem e.hartState.pc .Word = .ret (none, mem) ∧
        ex = .FetchError e.hartState.pc ∧ e' = e0) ∨
      ∃ w, M.readMem e.mem e.hartState.pc .Word = .ret (some w, mem) ∧
        ((decode ((w &&& 0xffffffff).setWidth 32) = none ∧
            ex = .IllegalInstruction e.hartState.pc ((w &&& 0xffffffff).setWidth 32) ∧ e' = e0) ∨
          ∃ i, decode ((w &&& 0xffffffff).setWidth 32) = some i ∧ ErrorFrom M e0 ex e')

/-- Inversion of a step that returns `Err`: with `e0` the executor after the fetch, the fetch
    found nothing, or the fetched word does not decode, or its instruction returned the
    exception. -/
theorem InstructionExecutor.step_error_inv (decode : BitVec 32 → Option Insn) (M : Memory σ)
    (e : InstructionExecutor σ) {ex : InstructionException} {e' : InstructionExecutor σ}
    (h : e.step decode M = .ret (.error ex, e')) :
    ∃ mem, let e0 : InstructionExecutor σ :=
      ({ e with hartState := { e.hartState with lastRegisterWrite := none } }).setMem mem
    (M.readMem e.mem e.hartState.pc .Word = .ret (none, mem) ∧
        ex = .FetchError e.hartState.pc ∧ e' = e0) ∨
      ∃ w, M.readMem e.mem e.hartState.pc .Word = .ret (some w, mem) ∧
        ((decode ((w &&& 0xffffffff).setWidth 32) = none ∧
            ex = .IllegalInstruction e.hartState.pc ((w &&& 0xffffffff).setWidth 32) ∧ e' = e0) ∨
          ∃ i, decode ((w &&& 0xffffffff).setWidth 32) = some i ∧
            i.execute M e0 = .ret (.error ex, e')) := by
  obtain ⟨⟨r, mem⟩, hr, h⟩ := Outcome.bind_eq_ret.mp h
  refine ⟨mem, ?_⟩
  cases r with
  | none =>
    simp only [Outcome.pure_eq, Outcome.ret.injEq, Prod.mk.injEq, Except.error.injEq] at h
    exact .inl ⟨hr, h.1.symm, h.2.symm⟩
  | some w =>
    refine .inr ⟨w, hr, ?_⟩
    obtain ⟨⟨sr, e1⟩, hp, h⟩ := Outcome.bind_eq_ret.mp h
    match sr, hp, h with
    | some (.ok _), _, h => cases h
    | some (.error _), hp, h =>
      simp only [Outcome.pure_eq, Outcome.ret.injEq, Prod.mk.injEq, Except.error.injEq] at h
      obtain ⟨rfl, rfl⟩ := h
      exact .inr (processInstruction_some hp)
    | none, hp, h =>
      obtain ⟨hd, rfl⟩ := processInstruction_none hp
      simp only [Outcome.pure_eq, Outcome.ret.injEq, Prod.mk.injEq, Except.error.injEq] at h
      exact .inl ⟨hd, h.1.symm, h.2.symm⟩

/-- Every exception of a step is a failed fetch, a word that does not decode, or one a
    handler raised. -/
theorem InstructionExecutor.step_error_cases (decode : BitVec 32 → Option Insn) (M : Memory σ)
    (e : InstructionExecutor σ) {ex : InstructionException} {e' : InstructionExecutor σ}
    (h : e.step decode M = .ret (.error ex, e')) : StepErrorFrom decode M e ex e' := by
  obtain ⟨mem, hf | ⟨w, hw, hd | ⟨i, hi, hx⟩⟩⟩ := step_error_inv decode M e h
  · exact ⟨mem, .inl hf⟩
  · exact ⟨mem, .inr ⟨w, hw, .inl hd⟩⟩
  · exact ⟨mem, .inr ⟨w, hw, .inr ⟨i, hi, Insn.execute_error M _ i _ _ hx⟩⟩⟩

/-- A step that raises an exception leaves the registers and `pc` as they were; only the
    diagnostic `last_register_write` is cleared. -/
theorem InstructionExecutor.step_error_keeps_hart (decode : BitVec 32 → Option Insn) (M : Memory σ)
    (e : InstructionExecutor σ) {ex : InstructionException} {e' : InstructionExecutor σ}
    (h : e.step decode M = .ret (.error ex, e')) :
    e'.hartState.registers = e.hartState.registers ∧ e'.hartState.pc = e.hartState.pc := by
  obtain ⟨mem, ⟨-, -, rfl⟩ | ⟨w, -, ⟨-, -, rfl⟩ | ⟨i, -, hx⟩⟩⟩ := step_error_inv decode M e h
  · exact ⟨rfl, rfl⟩
  · exact ⟨rfl, rfl⟩
  · rw [(Insn.execute_error M _ i _ _ hx).hartState]
    exact ⟨rfl, rfl⟩

/-- The zero word does not decode. -/
theorem InstructionExecutor.step_error_cases_illegal :
    ∃ ex e', (⟨(), HartState.new⟩ : InstructionExecutor Unit).step (fun _ => none) rom =
        .ret (.error ex, e') ∧ StepErrorFrom (fun _ => none) rom ⟨(), HartState.new⟩ ex e' :=
  ⟨_, _, rfl, InstructionExecutor.step_error_cases (fun _ => none) rom _ rfl⟩

/-- The zero word does not decode: the step raises `IllegalInstruction` and keeps the hart. -/
theorem InstructionExecutor.step_error_keeps_hart_illegal :
    ∃ ex e', (⟨(), HartState.new⟩ : InstructionExecutor Unit).step (fun _ => none) rom =
        .ret (.error ex, e') ∧
      e'.hartState.registers = HartState.new.registers ∧ e'.hartState.pc = HartState.new.pc :=
  ⟨_, _, rfl, InstructionExecutor.step_error_keeps_hart (fun _ => none) rom _ rfl⟩

end Step

/-! ## `AMO*.W` and a refused write -/

namespace InstructionExecutor

variable {σ : Type}

/-- Once its read succeeds, an `AMO*.W` returns `Ok(false)` with `rd` set to the word read,
    sign-extended, and the memory `write_mem` leaves: whether that write succeeded is never
    looked at. -/
theorem amowOpRegFn_ignores_write (op : BitVec 64 → BitVec 64 → BitVec 64) (M : Memory σ)
    (e : InstructionExecutor σ) (d : AType) {v : BitVec 64} {s1 s2 : σ} {ok : Bool}
    (hr : M.readMem e.mem (e.readRegister d.rs1) .Word = .ret (some v, s1))
    (hw : M.writeMem s1 (e.readRegister d.rs1) .Word
      (op (sext32 v) (sext32 (e.readRegister d.rs2))) = .ret (ok, s2)) :
    amowOpRegFn op M e d = .ret (.ok false, (e.writeRegister d.rd (sext32 v)).setMem s2) := by
  simp only [amowOpRegFn, okFalse, executeAmow, hr, Outcome.ret_bind, readRegister_setMem,
    writeRegister_mem, setMem_mem, hw]
  rfl

theorem amowOpRegFn_ignores_write_rom :
    amowOpRegFn (fun a b => a + b) rom ⟨(), HartState.new⟩ ⟨1, 0, 0⟩ =
      .ret (.ok false, ((⟨(), HartState.new⟩ : InstructionExecutor Unit).writeRegister 1 0).setMem ()) :=
  amowOpRegFn_ignores_write _ rom _ _ rfl rfl

end InstructionExecutor

end ZkvmRv64
