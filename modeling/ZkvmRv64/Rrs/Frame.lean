import ZkvmRv64.Exec.Atomic

/-
  ZkvmRv64.Rrs.Frame — what a step may change, and what a handler's writes depend on.

  A handler writes at most one register, the `rd` of its decoded fields, through
  `write_register`, which drops a write to x0; it moves `pc` only when it is a taken branch,
  `JAL` or `JALR`, which return `Ok(true)`; and it writes the memory only when it is a store,
  `SC` or an `AMO`, at the address and width the instruction names (`Handler.rd?`,
  `Handler.target`, `Handler.storeAt`, and `Insn.RunsAs` for the instruction they belong to).
  The writes a step makes are seen through `Memory.logged`, which records every call and
  answers as the memory it wraps does (`Memory.simulates_logged`). `step` adds 4 to `pc`
  when the handler returns `Ok(false)`. So a step that returns `Ok` changes only `rd`, sets
  `pc` to the target or the next word, and writes only at the instruction's effective
  address; x0 keeps its value over every run. The one register a step changes is the one it
  records in `last_register_write`, which the zkvm's cycle stores back to its slot.

  Every handler reads all its sources before it writes `rd`, and nothing it does after the
  write depends on which register `rd` is: the whole run, memory calls and result included,
  is one computation followed by the write of one value to `rd` (`RdParametric`). Renaming
  `rd` to any register moves that write and changes nothing else, also when `rd` is one of
  the sources (`JALR x1, 0(x1)`, `AMOADD.W x5, x6, (x5)`, `SC.W x5, x6, (x5)`,
  `LD x5, 0(x5)`).

  Proved:
  - `step_ok_frame`: a step that returns `Ok` writes no register but the decoded `rd` and
    never x0, sets `pc` to the instruction's target or to `pc + 4`, and writes the memory
    only at the instruction's effective address and width; x0 keeps its value over every
    run of steps.
  - `step_ok_lastRegisterWrite`: a register whose value a step that returns `Ok` changed is
    the one it records in `last_register_write`.
  - `Handler.run_rd_renamed`: for every handler and state, the runs with `rd` renamed to
    each register are one computation, independent of `rd`, followed by one write to `rd`.
-/

namespace ZkvmRv64

/-! ## `write_register` changes only `rd` -/

theorem HartState.registers_writeRegister (hs : HartState) (d : Fin 32) (v : BitVec 64) (j : Fin 32)
    (h : (hs.writeRegister d v).registers j ≠ hs.registers j) : j ≠ 0 ∧ j = d := by
  unfold HartState.writeRegister at h
  split at h
  · exact absurd rfl h
  · next hd =>
    by_cases hj : j = d
    · exact ⟨hj ▸ hd, hj⟩
    · simp only [if_neg hj] at h
      exact absurd rfl h

/-- A write that changes a register records it in `last_register_write`. -/
theorem HartState.lastRegisterWrite_writeRegister (hs : HartState) (d : Fin 32) (v : BitVec 64)
    (j : Fin 32) (h : (hs.writeRegister d v).registers j ≠ hs.registers j) :
    (hs.writeRegister d v).lastRegisterWrite = some j := by
  obtain ⟨h0, rfl⟩ := hs.registers_writeRegister d v j h
  simp only [HartState.writeRegister, if_neg h0]

/-- The diagnostic `last_register_write` that `step` clears is not read by any handler. -/
theorem Handler.target_clear (h : Handler) (hs : HartState) :
    h.target { hs with lastRegisterWrite := none } = h.target hs := by
  cases h <;> rfl

theorem Handler.storeAt_clear (h : Handler) (hs : HartState) :
    h.storeAt { hs with lastRegisterWrite := none } = h.storeAt hs := by
  cases h <;> rfl

namespace InstructionExecutor

variable {σ : Type}

/-! ## What an `Ok` of each `execute_*` helper came from -/

section Inversion

variable {M : Memory σ} {e e1 : InstructionExecutor σ} {size : MemAccessSize}

theorem okFalse_eq_ok {x : Outcome (Except InstructionException Unit × InstructionExecutor σ)}
    {b : Bool} (h : okFalse x = .ret (.ok b, e1)) : b = false ∧ x = .ret (.ok (), e1) := by
  obtain ⟨⟨r, e2⟩, hx, h⟩ := Outcome.bind_eq_ret.mp h
  cases r <;> cases h
  exact ⟨rfl, hx⟩

theorem executeLoad_ok {d : IType} {signed : Bool}
    (h : e.executeLoad M d size signed = .ret (.ok (), e1)) :
    ∃ v mem, M.readMem e.mem (e.readRegister d.rs1 + d.imm.signExtend 64) size = .ret (some v, mem) ∧
      e1 = (e.setMem mem).writeRegister d.rd (if signed then signExtendLoad size v else v) := by
  simp only [executeLoad] at h
  split at h
  · cases h
  · obtain ⟨⟨r, mem⟩, hr, h⟩ := Outcome.bind_eq_ret.mp h
    cases r with
    | none => cases h
    | some v => cases h; exact ⟨v, mem, hr, rfl⟩

theorem executeAmoLoad_ok {d : AType} (h : e.executeAmoLoad M d size = .ret (.ok (), e1)) :
    ∃ v mem, M.readMem e.mem (e.readRegister d.rs1) size = .ret (some v, mem) ∧
      e1 = (e.setMem mem).writeRegister d.rd (signExtendLoad size v) := by
  simp only [executeAmoLoad] at h
  split at h
  · cases h
  · obtain ⟨⟨r, mem⟩, hr, h⟩ := Outcome.bind_eq_ret.mp h
    cases r with
    | none => cases h
    | some v => cases h; exact ⟨v, mem, hr, rfl⟩

theorem executeStore_ok {d : SType} (h : e.executeStore M d size = .ret (.ok (), e1)) :
    ∃ mem, M.writeMem e.mem (e.readRegister d.rs1 + d.imm.signExtend 64) size
        (e.readRegister d.rs2) = .ret (true, mem) ∧ e1 = e.setMem mem := by
  simp only [executeStore] at h
  split at h
  · cases h
  · obtain ⟨⟨ok, mem⟩, hw, h⟩ := Outcome.bind_eq_ret.mp h
    cases ok with
    | false => cases h
    | true => cases h; exact ⟨mem, hw, rfl⟩

theorem executeAmoStore_ok {d : AType} (h : e.executeAmoStore M d size = .ret (.ok (), e1)) :
    ∃ mem, M.writeMem e.mem (e.readRegister d.rs1) size (e.readRegister d.rs2) =
        .ret (true, mem) ∧ e1 = (e.setMem mem).writeRegister d.rd 0 := by
  simp only [executeAmoStore] at h
  split at h
  · cases h
  · obtain ⟨⟨ok, mem⟩, hw, h⟩ := Outcome.bind_eq_ret.mp h
    cases ok with
    | false => cases h
    | true => cases h; exact ⟨mem, hw, rfl⟩

theorem executeAmow_ok {d : AType} {op : BitVec 64 → BitVec 64 → BitVec 64}
    (h : e.executeAmow M d op = .ret (.ok (), e1)) :
    ∃ v mem1 ok mem2, M.readMem e.mem (e.readRegister d.rs1) .Word = .ret (some v, mem1) ∧
      M.writeMem mem1 (e.readRegister d.rs1) .Word (op (sext32 v) (sext32 (e.readRegister d.rs2))) =
        .ret (ok, mem2) ∧
      e1 = ((e.setMem mem1).writeRegister d.rd (sext32 v)).setMem mem2 := by
  obtain ⟨⟨r, mem1⟩, hr, h⟩ := Outcome.bind_eq_ret.mp h
  cases r with
  | none => cases h
  | some v =>
    obtain ⟨⟨ok, mem2⟩, hw, h⟩ := Outcome.bind_eq_ret.mp h
    cases h
    exact ⟨v, mem1, ok, mem2, hr, hw, rfl⟩

theorem executeAmod_ok {d : AType} {op : BitVec 64 → BitVec 64 → BitVec 64}
    (h : e.executeAmod M d op = .ret (.ok (), e1)) :
    ∃ v mem1 ok mem2, M.readMem e.mem (e.readRegister d.rs1) .DoubleWord = .ret (some v, mem1) ∧
      M.writeMem mem1 (e.readRegister d.rs1) .DoubleWord (op v (e.readRegister d.rs2)) =
        .ret (ok, mem2) ∧
      e1 = ((e.setMem mem1).writeRegister d.rd v).setMem mem2 := by
  obtain ⟨⟨r, mem1⟩, hr, h⟩ := Outcome.bind_eq_ret.mp h
  cases r with
  | none => cases h
  | some v =>
    obtain ⟨⟨ok, mem2⟩, hw, h⟩ := Outcome.bind_eq_ret.mp h
    cases h
    exact ⟨v, mem1, ok, mem2, hr, hw, rfl⟩

end Inversion

/-! ## The frame of a handler -/

/-- What an `Ok(b)` of `h` from `e` may have changed: only `h`'s `rd`, and never x0; `pc` is
    `h`'s target if it has one (and then `b` is set), else unchanged; the memory's log grows
    by reads and by writes at `h`'s effective address and width. -/
structure OkFrame (h : Handler) (e e1 : InstructionExecutor (σ × List Access)) (b : Bool) : Prop where
  registers : ∀ j, e1.hartState.registers j ≠ e.hartState.registers j → j ≠ 0 ∧ h.rd? = some j
  last : ∀ j, e1.hartState.registers j ≠ e.hartState.registers j →
    e1.hartState.lastRegisterWrite = some j
  pc : e1.hartState.pc = (h.target e.hartState).getD e.hartState.pc
  updated : b = (h.target e.hartState).isSome
  writes : ∃ new, e1.mem.2 = e.mem.2 ++ new ∧
    ∀ addr size ok, Access.write addr size ok ∈ new → h.storeAt e.hartState = some (addr, size)

section Frame

variable {h : Handler} {e : InstructionExecutor (σ × List Access)}

theorem registers_of_write {d : Fin 32} (hd : h.rd? = some d) (v : BitVec 64) (j : Fin 32)
    (hj : (e.hartState.writeRegister d v).registers j ≠ e.hartState.registers j) :
    j ≠ 0 ∧ h.rd? = some j := by
  obtain ⟨h0, rfl⟩ := e.hartState.registers_writeRegister d v j hj
  exact ⟨h0, hd⟩

/-- No memory call: the log is as it was. -/
theorem writes_nil {e1 : InstructionExecutor (σ × List Access)} (hm : e1.mem = e.mem) :
    ∃ new, e1.mem.2 = e.mem.2 ++ new ∧
      ∀ a s ok, Access.write a s ok ∈ new → h.storeAt e.hartState = some (a, s) :=
  ⟨[], by rw [hm, List.append_nil], fun _ _ _ h => nomatch h⟩

theorem no_writes_read {addr : BitVec 64} {size : MemAccessSize} :
    ∀ a s ok, Access.write a s ok ∈ [Access.read addr size] → h.storeAt e.hartState = some (a, s) :=
  fun _ _ _ hw => by cases List.mem_singleton.mp hw

/-- A handler that writes `rd` with no memory call and leaves `pc` alone. -/
theorem okFrame_write {d : Fin 32} (hd : h.rd? = some d) (ht : h.target e.hartState = none)
    (v : BitVec 64) : OkFrame h e (e.writeRegister d v) false where
  registers := registers_of_write hd v
  last := e.hartState.lastRegisterWrite_writeRegister d v
  pc := by rw [ht]; exact HartState.writeRegister_pc _ _ _
  updated := by rw [ht]; rfl
  writes := writes_nil rfl

/-- A load: one read, then a write of `rd`. -/
theorem okFrame_load {M : Memory σ} {d : Fin 32} (hd : h.rd? = some d)
    (ht : h.target e.hartState = none) {addr : BitVec 64} {size : MemAccessSize}
    {r : Option (BitVec 64)} {mem : σ × List Access}
    (hr : M.logged.readMem e.mem addr size = .ret (r, mem)) (v : BitVec 64) :
    OkFrame h e ((e.setMem mem).writeRegister d v) false where
  registers := registers_of_write hd v
  last := e.hartState.lastRegisterWrite_writeRegister d v
  pc := by rw [ht]; exact HartState.writeRegister_pc _ _ _
  updated := by rw [ht]; rfl
  writes := ⟨_, Memory.logged_readMem_log hr, no_writes_read⟩

end Frame

end InstructionExecutor

open InstructionExecutor in
/-- The frame of every handler, from each family's body. -/
theorem Handler.run_ok_frame {σ : Type} (M : Memory σ) (e : InstructionExecutor (σ × List Access)) :
    ∀ (h : Handler) {b : Bool} {e1 : InstructionExecutor (σ × List Access)},
      h.run M.logged e = .ret (.ok b, e1) → OkFrame h e e1 b
  | .aluReg _ _, _, _, h | .aluImm _ _, _, _, h | .aluImmShamt _ _, _, _, h | .rdtime _, _, _, h
  | .addiw _, _, _, h | .lui _, _, _, h | .auipc _, _, _, h => by
    cases h
    exact okFrame_write (by rfl) (by rfl) _
  | .aluRegM _ _, _, _, h => by
    obtain ⟨v, -, h⟩ := Outcome.bind_eq_ret.mp h
    cases h
    exact okFrame_write (by rfl) (by rfl) v
  | .fence _, _, _, h => by
    cases h
    exact ⟨fun _ hj => absurd rfl hj, fun _ hj => absurd rfl hj, rfl, rfl, writes_nil rfl⟩
  | .branch cond d, b, e1, h => by
    simp only [Handler.run, branchOpFn, executeBranch] at h
    split at h
    · next hc =>
      cases h
      have ht : (Handler.branch cond d).target e.hartState = some (e.hartState.pc + d.imm.signExtend 64) :=
        if_pos hc
      exact ⟨fun _ hj => absurd rfl hj, fun _ hj => absurd rfl hj, by rw [ht]; rfl, by rw [ht]; rfl,
        writes_nil rfl⟩
    · next hc =>
      cases h
      have ht : (Handler.branch cond d).target e.hartState = none := if_neg hc
      exact ⟨fun _ hj => absurd rfl hj, fun _ hj => absurd rfl hj, by rw [ht]; rfl, by rw [ht]; rfl,
        writes_nil rfl⟩
  | .jal d, _, _, h | .jalr d, _, _, h => by
    cases h
    exact ⟨registers_of_write (by rfl) _, e.hartState.lastRegisterWrite_writeRegister _ _, rfl, rfl,
      writes_nil rfl⟩
  | .load size signed d, b, e1, h => by
    obtain ⟨rfl, hx⟩ := okFalse_eq_ok h
    obtain ⟨v, mem, hr, rfl⟩ := executeLoad_ok hx
    exact okFrame_load (by rfl) (by rfl) hr _
  | .amoLoad size d, b, e1, h => by
    obtain ⟨rfl, hx⟩ := okFalse_eq_ok h
    obtain ⟨v, mem, hr, rfl⟩ := executeAmoLoad_ok hx
    exact okFrame_load (by rfl) (by rfl) hr _
  | .store size d, b, e1, h => by
    obtain ⟨rfl, hx⟩ := okFalse_eq_ok h
    obtain ⟨mem, hw, rfl⟩ := executeStore_ok hx
    exact ⟨fun _ hj => absurd rfl hj, fun _ hj => absurd rfl hj, rfl, rfl, ⟨_, Memory.logged_writeMem_log hw,
      fun _ _ _ h => by cases List.mem_singleton.mp h; rfl⟩⟩
  | .amoStore size d, b, e1, h => by
    obtain ⟨rfl, hx⟩ := okFalse_eq_ok h
    obtain ⟨mem, hw, rfl⟩ := executeAmoStore_ok hx
    exact ⟨registers_of_write (by rfl) 0, e.hartState.lastRegisterWrite_writeRegister _ 0,
      HartState.writeRegister_pc _ _ _, rfl,
      ⟨_, Memory.logged_writeMem_log hw, fun _ _ _ h => by cases List.mem_singleton.mp h; rfl⟩⟩
  | .amow op d, b, e1, h => by
    obtain ⟨rfl, hx⟩ := okFalse_eq_ok h
    obtain ⟨v, mem1, ok, mem2, hr, hw, rfl⟩ := executeAmow_ok hx
    refine ⟨registers_of_write (by rfl) (sext32 v), e.hartState.lastRegisterWrite_writeRegister _ _,
      HartState.writeRegister_pc _ _ _, rfl,
      ⟨[.read (e.readRegister d.rs1) .Word, .write (e.readRegister d.rs1) .Word ok], ?_, fun _ _ _ h => ?_⟩⟩
    · rw [setMem_mem, Memory.logged_writeMem_log hw, Memory.logged_readMem_log hr,
        List.append_assoc]
      rfl
    · simp only [List.mem_cons, List.not_mem_nil, or_false, reduceCtorEq, false_or,
        Access.write.injEq] at h
      obtain ⟨rfl, rfl, -⟩ := h
      rfl
  | .amod op d, b, e1, h => by
    obtain ⟨rfl, hx⟩ := okFalse_eq_ok h
    obtain ⟨v, mem1, ok, mem2, hr, hw, rfl⟩ := executeAmod_ok hx
    refine ⟨registers_of_write (by rfl) v, e.hartState.lastRegisterWrite_writeRegister _ _,
      HartState.writeRegister_pc _ _ _, rfl,
      ⟨[.read (e.readRegister d.rs1) .DoubleWord, .write (e.readRegister d.rs1) .DoubleWord ok],
        ?_, fun _ _ _ h => ?_⟩⟩
    · rw [setMem_mem, Memory.logged_writeMem_log hw, Memory.logged_readMem_log hr,
        List.append_assoc]
      rfl
    · simp only [List.mem_cons, List.not_mem_nil, or_false, reduceCtorEq, false_or,
        Access.write.injEq] at h
      obtain ⟨rfl, rfl, -⟩ := h
      rfl

/-! ## The frame of a step -/

namespace InstructionExecutor

variable {σ : Type}

/-- A step on a logged memory that returns `Ok`: the fetch read a word that decodes, and the
    rest of the step has the frame of the decoded instruction. -/
theorem step_ok_frame_logged (decode : BitVec 32 → Option Insn) (M : Memory σ)
    (e : InstructionExecutor (σ × List Access)) {e' : InstructionExecutor (σ × List Access)}
    (h : e.step decode M.logged = .ret (.ok (), e')) :
    ∃ v mem i, M.logged.readMem e.mem e.hartState.pc .Word = .ret (some v, mem) ∧
      decode ((v &&& 0xffffffff).setWidth 32) = some i ∧
      (∀ j, e'.hartState.registers j ≠ e.hartState.registers j → j ≠ 0 ∧ i.rd? = some j) ∧
      (∀ j, e'.hartState.registers j ≠ e.hartState.registers j → e'.hartState.lastRegisterWrite = some j) ∧
      e'.hartState.pc = (i.target e.hartState).getD (e.hartState.pc + 4) ∧
      ∃ new, e'.mem.2 = mem.2 ++ new ∧
        ∀ addr size ok, Access.write addr size ok ∈ new → i.storeAt e.hartState = some (addr, size) := by
  obtain ⟨⟨r, mem⟩, hr, h⟩ := Outcome.bind_eq_ret.mp h
  cases r with
  | none => cases h
  | some v =>
    obtain ⟨⟨sr, e1⟩, hp, h⟩ := Outcome.bind_eq_ret.mp h
    match sr, hp, h with
    | some (.ok b), hp, h =>
      obtain ⟨i, hi, hx⟩ := processInstruction_some hp
      obtain ⟨hd, hrs⟩ := i.runsAs
      rw [hrs.execute] at hx
      obtain ⟨hreg, hlast, hpc, hb, new, hlog, hw⟩ := Handler.run_ok_frame M _ hd hx
      simp only [setMem_hartState, Handler.target_clear, Handler.storeAt_clear] at hpc hb hw
      simp only [Outcome.pure_eq, Outcome.ret.injEq, Prod.mk.injEq, true_and] at h
      subst h
      rw [hrs.rd] at hreg
      rw [hrs.target] at hpc hb
      simp only [hrs.storeAt] at hw
      refine ⟨v, mem, i, hr, hi, ?_, ?_, ?_, new, ?_, hw⟩
      · cases b <;> exact hreg
      · cases b <;> exact hlast
      · cases ht : i.target e.hartState <;> rw [ht] at hpc hb <;> subst hb <;> exact hpc ▸ rfl
      · cases b <;> exact hlog
    | some (.error _), _, h => cases h
    | none, _, h => cases h

end InstructionExecutor

/-- A memory is simulated by itself with a log: every call answers as it does. -/
theorem Memory.simulates_logged {σ : Type} (M : Memory σ) :
    M.Simulates M.logged (fun s1 s2 => s2.1 = s1) (fun s1 s2 => s2.1 = s1) where
  read s1 s2 addr size _ _ h hr := ⟨_, by show M.readMem s2.1 addr size >>= _ = _; rw [h, hr]; rfl, rfl⟩
  write s1 s2 addr size data _ _ h hw :=
    ⟨_, by show M.writeMem s2.1 addr size data >>= _ = _; rw [h, hw]; rfl, rfl⟩
  done h := h

namespace InstructionExecutor

variable {σ : Type}

/-- What a step from `e` that returns `Ok` with `e'` may have done, `i` the instruction it
    decoded: changed no register but `i`'s `rd`, and never x0; set `pc` to `i`'s target or
    to `pc + 4`; and, seen through `Memory.logged`, made the fetch and then written the
    memory only at `i`'s effective address and width. -/
structure StepFrame (decode : BitVec 32 → Option Insn) (M : Memory σ) (e e' : InstructionExecutor σ)
    (i : Insn) : Prop where
  fetch : ∃ v mem, M.readMem e.mem e.hartState.pc .Word = .ret (some v, mem) ∧
    decode ((v &&& 0xffffffff).setWidth 32) = some i
  registers : ∀ j, e'.hartState.registers j ≠ e.hartState.registers j → j ≠ 0 ∧ i.rd? = some j
  pc : e'.hartState.pc = (i.target e.hartState).getD (e.hartState.pc + 4)
  writes : ∃ log, (⟨(e.mem, []), e.hartState⟩ : InstructionExecutor (σ × List Access)).step decode
      M.logged = .ret (.ok (), ⟨(e'.mem, .read e.hartState.pc .Word :: log), e'.hartState⟩) ∧
    ∀ addr size ok, Access.write addr size ok ∈ log → i.storeAt e.hartState = some (addr, size)

theorem stepFrame_of_ok (decode : BitVec 32 → Option Insn) (M : Memory σ) {e e' : InstructionExecutor σ}
    (h : e.step decode M = .ret (.ok (), e')) : ∃ i, StepFrame decode M e e' i := by
  obtain ⟨⟨m2, log2⟩, hs, rfl⟩ := step_matches decode M.simulates_logged e (e.mem, []) rfl _ _ h
  obtain ⟨v, mem, i, hr, hi, hreg, -, hpc, new, hlog, hw⟩ := step_ok_frame_logged decode M _ hs
  obtain ⟨⟨r, m⟩, hm, hr⟩ := Outcome.bind_eq_ret.mp hr
  simp only [Outcome.pure_eq, Outcome.ret.injEq, Prod.mk.injEq] at hr
  obtain ⟨rfl, rfl⟩ := hr
  refine ⟨i, ⟨v, m, hm, hi⟩, hreg, hpc, new, ?_, hw⟩
  rw [hs, show log2 = _ from hlog]
  rfl

/-- A step that returns `Ok` records the register it changed: `last_register_write` names
    every register whose value differs. -/
theorem step_ok_lastRegisterWrite (decode : BitVec 32 → Option Insn) (M : Memory σ)
    {e e' : InstructionExecutor σ} (h : e.step decode M = .ret (.ok (), e')) (j : Fin 32)
    (hj : e'.hartState.registers j ≠ e.hartState.registers j) :
    e'.hartState.lastRegisterWrite = some j := by
  obtain ⟨⟨m2, log2⟩, hs, rfl⟩ := step_matches decode M.simulates_logged e (e.mem, []) rfl _ _ h
  obtain ⟨-, -, -, -, -, -, hlast, -⟩ := step_ok_frame_logged decode M _ hs
  exact hlast j hj

/-- A step that raises leaves every register as it was. -/
theorem step_error_registers (decode : BitVec 32 → Option Insn) (M : Memory σ)
    {e e' : InstructionExecutor σ} {ex : InstructionException}
    (h : e.step decode M = .ret (.error ex, e')) : e'.hartState.registers = e.hartState.registers := by
  obtain ⟨mem, ⟨-, -, rfl⟩ | ⟨w, -, ⟨-, -, rfl⟩ | ⟨i, -, hx⟩⟩⟩ := step_error_inv decode M e h
  iterate 2 rfl
  rw [(Insn.execute_error M _ i _ _ hx).hartState]
  rfl

/-- x0 keeps its value over a step, whatever it returns. -/
theorem step_registers_zero (decode : BitVec 32 → Option Insn) (M : Memory σ) {e e' : InstructionExecutor σ}
    {r : Except InstructionException Unit} (h : e.step decode M = .ret (r, e')) :
    e'.hartState.registers 0 = e.hartState.registers 0 := by
  cases r with
  | error _ => rw [step_error_registers decode M h]
  | ok _ =>
    obtain ⟨i, hf⟩ := stepFrame_of_ok decode M h
    exact Classical.byContradiction fun hj => (hf.registers 0 hj).1 rfl

theorem steps_registers_zero (decode : BitVec 32 → Option Insn) (M : Memory σ) :
    ∀ (n : Nat) (e : InstructionExecutor σ) {r : Except InstructionException Unit}
      {e' : InstructionExecutor σ}, e.steps decode M n = .ret (r, e') →
      e'.hartState.registers 0 = e.hartState.registers 0
  | 0, _, _, _, h => by cases h; rfl
  | n + 1, e, _, _, h => by
    obtain ⟨⟨r1, e1⟩, hs, h⟩ := Outcome.bind_eq_ret.mp h
    rw [← step_registers_zero decode M hs]
    cases r1 with
    | error _ => cases h; rfl
    | ok _ => exact steps_registers_zero decode M n e1 h

/-- A step that returns `Ok` changes no register but the decoded instruction's `rd`, and
    never x0; it sets `pc` to the instruction's target (a taken branch, `JAL`, `JALR`) or to
    `pc + 4`; and it writes the memory only at the effective address and width of a store,
    `SC` or `AMO`. Over every run of steps, x0 keeps its value. -/
theorem step_ok_frame (decode : BitVec 32 → Option Insn) (M : Memory σ) :
    (∀ e e' : InstructionExecutor σ, e.step decode M = .ret (.ok (), e') →
      ∃ i, StepFrame decode M e e' i) ∧
    ∀ (n : Nat) (e e' : InstructionExecutor σ) (r : Except InstructionException Unit),
      e.steps decode M n = .ret (r, e') → e'.hartState.registers 0 = e.hartState.registers 0 :=
  ⟨fun _ _ h => stepFrame_of_ok decode M h, fun n e _ _ h => steps_registers_zero decode M n e h⟩

/-- `addi x1, x0, 5` on a memory that reads 0: the step returns `Ok` within its frame. -/
theorem step_ok_frame_addi :
    ∃ e', (⟨(), HartState.new⟩ : InstructionExecutor Unit).step (fun _ => some (.addi ⟨1, 0, 5⟩))
        rom = .ret (.ok (), e') ∧
      ∃ i, StepFrame (fun _ => some (.addi ⟨1, 0, 5⟩)) rom ⟨(), HartState.new⟩ e' i :=
  ⟨_, rfl, (step_ok_frame _ rom).1 _ _ rfl⟩

end InstructionExecutor

/-! ## Renaming `rd` -/

/-- The handler with `rd` renamed to `r`; families without `rd` are left as they are. -/
def Handler.withRd (r : Fin 32) : Handler → Handler
  | .aluReg op d => .aluReg op { d with rd := r }
  | .aluImm op d => .aluImm op { d with rd := r }
  | .aluImmShamt op d => .aluImmShamt op { d with rd := r }
  | .branch cond d => .branch cond d
  | .load size signed d => .load size signed { d with rd := r }
  | .store size d => .store size d
  | .amoLoad size d => .amoLoad size { d with rd := r }
  | .amoStore size d => .amoStore size { d with rd := r }
  | .amow op d => .amow op { d with rd := r }
  | .amod op d => .amod op { d with rd := r }
  | .rdtime d => .rdtime { d with rd := r }
  | .addiw d => .addiw { d with rd := r }
  | .lui d => .lui { d with rd := r }
  | .auipc d => .auipc { d with rd := r }
  | .jal d => .jal { d with rd := r }
  | .jalr d => .jalr { d with rd := r }
  | .aluRegM op d => .aluRegM op { d with rd := r }
  | .fence d => .fence { d with rd := r }

/-- Renaming `rd` to itself gives the handler back. -/
theorem Handler.withRd_rd : ∀ (h : Handler) (d : Fin 32), h.rd? = some d → h.withRd d = h := by
  intro h d hd
  cases h <;> cases hd <;> rfl

namespace InstructionExecutor

variable {σ α β : Type}

/-- `e` with the value `v`, if any, written to `r`. -/
def writeRd (e : InstructionExecutor σ) (r : Fin 32) : Option (BitVec 64) → InstructionExecutor σ
  | none => e
  | some v => e.writeRegister r v

/-- A family of runs, one per destination `r`, that are one computation `x`, the same for
    every `r`, followed by the write of the value it returns, if any, to `r`. -/
def RdParametric (k : Fin 32 → Outcome (α × InstructionExecutor σ)) : Prop :=
  ∃ x : Outcome (α × InstructionExecutor σ × Option (BitVec 64)),
    ∀ r, k r = x >>= fun p => .ret (p.1, p.2.1.writeRd r p.2.2)

theorem setMem_writeRegister (e : InstructionExecutor σ) (i : Fin 32) (v : BitVec 64) (m : σ) :
    (e.writeRegister i v).setMem m = (e.setMem m).writeRegister i v := rfl

theorem setPc_writeRegister (e : InstructionExecutor σ) (i : Fin 32) (v pc : BitVec 64) :
    (e.writeRegister i v).setPc pc = (e.setPc pc).writeRegister i v := by
  simp only [writeRegister, setPc, HartState.writeRegister]
  split <;> rfl

section RdParametric

theorem rdParametric_const (y : Outcome (α × InstructionExecutor σ)) : RdParametric fun _ => y :=
  ⟨y >>= fun p => .ret (p.1, p.2, none), fun _ => by cases y <;> rfl⟩

theorem rdParametric_write (a : α) (e : InstructionExecutor σ) (v : BitVec 64) :
    RdParametric fun r => .ret (a, e.writeRegister r v) :=
  ⟨.ret (a, e, some v), fun _ => rfl⟩

theorem rdParametric_bind {y : Outcome β} {k : β → Fin 32 → Outcome (α × InstructionExecutor σ)}
    (hk : ∀ b, RdParametric (k b)) : RdParametric fun r => y >>= fun b => k b r :=
  ⟨y >>= fun b => Classical.choose (hk b), fun r => by
    rw [Outcome.bind_assoc]
    exact congrArg (y >>= ·) (funext fun b => Classical.choose_spec (hk b) r)⟩

theorem rdParametric_ite {c : Prop} [Decidable c] {k1 k2 : Fin 32 → Outcome (α × InstructionExecutor σ)}
    (h1 : RdParametric k1) (h2 : RdParametric k2) : RdParametric fun r => if c then k1 r else k2 r := by
  by_cases hc : c
  · simp only [if_pos hc]; exact h1
  · simp only [if_neg hc]; exact h2

theorem RdParametric.okFalse {k : Fin 32 → Outcome (Except InstructionException Unit × InstructionExecutor σ)}
    (hk : RdParametric k) : RdParametric fun r => InstructionExecutor.okFalse (k r) := by
  obtain ⟨x, hx⟩ := hk
  refine ⟨x >>= fun p => .ret (p.1.map fun _ => false, p.2), fun r => ?_⟩
  simp only [InstructionExecutor.okFalse, hx, Outcome.bind_assoc]
  rfl

end RdParametric

end InstructionExecutor

section Renaming

open InstructionExecutor

variable {σ : Type}

/-- Every handler, run with `rd` renamed to each register in turn, is one computation that
    reads its sources, makes its memory calls and computes its result and its value for `rd`,
    independent of which register `rd` is, followed by the write of that value to `rd`. -/
theorem Handler.rdParametric (M : Memory σ) (e : InstructionExecutor σ) :
    ∀ h : Handler, RdParametric fun r => (h.withRd r).run M e
  | .aluReg .. | .aluImm .. | .aluImmShamt .. | .rdtime _ | .addiw _ | .lui _ | .auipc _ => by
    simp only [Handler.withRd, Handler.run, aluOpRegFn, aluOpImmFn, aluOpImmShamtFn,
      executeRegRegOp, executeRegImmOp, executeRegImmShamtOp, processRdtime,
      processAddiw, processLui, processAuipc]
    exact rdParametric_write _ _ _
  | .branch .. | .store .. | .fence _ => rdParametric_const _
  | .jal d | .jalr d => ⟨.ret (.ok true, e.setPc _, some (e.hartState.pc + 4)), fun r => by
      simp only [Handler.withRd, Handler.run, processJal, processJalr, setPc_writeRegister]
      rfl⟩
  | .aluRegM .. => by
    simp only [Handler.withRd, Handler.run, aluOpRegFnM]
    exact rdParametric_bind fun _ => rdParametric_write _ _ _
  | .load .. | .amoLoad .. => by
    simp only [Handler.withRd, Handler.run, loadOpFn, amoLoadOpFn, executeLoad,
      executeAmoLoad]
    refine (rdParametric_ite (rdParametric_const _) (rdParametric_bind fun ⟨v, mem⟩ => ?_)).okFalse
    cases v
    · exact rdParametric_const _
    · exact rdParametric_write _ _ _
  | .amoStore .. => by
    simp only [Handler.withRd, Handler.run, amoStoreOpFn, executeAmoStore]
    refine (rdParametric_ite (rdParametric_const _) (rdParametric_bind fun ⟨ok, mem⟩ => ?_)).okFalse
    cases ok
    · exact rdParametric_const _
    · exact rdParametric_write _ _ _
  | .amow .. | .amod .. => by
    simp only [Handler.withRd, Handler.run, amowOpRegFn, amodOpRegFn, executeAmow,
      executeAmod, writeRegister_mem, setMem_writeRegister]
    refine (rdParametric_bind fun ⟨v, mem⟩ => ?_).okFalse
    cases v
    · exact rdParametric_const _
    · exact rdParametric_bind fun _ => rdParametric_write _ _ _

/-- For every handler and every state, the runs with `rd` renamed to each register are one
    computation, the same for every name, followed by the write of one value to the register
    named: the values written to `rd`, to the memory and to `pc` are computed from the state
    before the write of `rd`, also when `rd` is a source. Renaming `rd` to itself gives the
    handler back. -/
theorem Handler.run_rd_renamed (h : Handler) (M : Memory σ) (e : InstructionExecutor σ) :
    (∀ d, h.rd? = some d → h.withRd d = h) ∧
    ∃ x : Outcome (Except InstructionException Bool × InstructionExecutor σ × Option (BitVec 64)),
      ∀ r : Fin 32, (h.withRd r).run M e = x >>= fun p => .ret (p.1, p.2.1.writeRd r p.2.2) :=
  ⟨h.withRd_rd, Handler.rdParametric M e h⟩

end Renaming

end ZkvmRv64
