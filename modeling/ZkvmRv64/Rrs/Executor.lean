import ZkvmRv64.Rrs.Hart

/-
  ZkvmRv64.Rrs.Executor — `InstructionExecutor` (instruction_executor.rs): the `execute_*`
  helpers, one handler per `InstructionProcessor` method, and `step`.

  The source builds most handlers with macros (`make_alu_op_reg_fn!`, `make_load_op_fn!`,
  ...): each macro is one definition here (`aluOpRegFn`, `loadOpFn`, ...) and each handler
  it generates is that definition applied to the handler's own closure or size, under the
  handler's name. Handlers the source writes out (`process_addiw`, `process_lui`,
  `process_jal`, ...) keep their own bodies. The closures of `div`, `divu`, `rem`, `remu` and
  `remuw` call Rust's `/`, `%`, `wrapping_div` or `wrapping_rem`, which panic on a zero
  divisor, so they come to an `Outcome` and their handlers are `aluOpRegFnM`, the macro for
  such a closure.

  A handler returns the `InstructionResult` (`Ok(pc_updated)` or the exception) with the
  executor after it; the memory may panic (the monitor does), so the pair is an `Outcome`.
  `step` takes the decoder that `process_instruction` uses as a parameter, since
  `process_instruction` is not in the sources. `pc += 4` and `pc + 4` wrap, as in a release
  build.

  The handlers fall into 18 families (`Handler`); `Insn.runsAs` places each instruction in
  its family (`Insn.RunsAs`), with the register it writes (`rd?`), where it sets `pc`
  (`target`) and where it writes memory (`storeAt`), each read off the handler's body, and
  `Insn.sources` lists the registers it reads, which the zkvm loads before the step.
-/

namespace ZkvmRv64

/-- `InstructionExecutor`: the memory and the hart it executes on. -/
structure InstructionExecutor (σ : Type) where
  mem : σ
  hartState : HartState

namespace InstructionExecutor

variable {σ : Type}

/-! ## Access to the hart -/

def readRegister (e : InstructionExecutor σ) (i : Fin 32) : BitVec 64 := e.hartState.readRegister i

def writeRegister (e : InstructionExecutor σ) (i : Fin 32) (data : BitVec 64) :
    InstructionExecutor σ :=
  { e with hartState := e.hartState.writeRegister i data }

def setPc (e : InstructionExecutor σ) (pc : BitVec 64) : InstructionExecutor σ :=
  { e with hartState := { e.hartState with pc := pc } }

def setMem (e : InstructionExecutor σ) (mem : σ) : InstructionExecutor σ := { e with mem := mem }

@[simp] theorem writeRegister_mem (e : InstructionExecutor σ) (i : Fin 32) (v : BitVec 64) :
    (e.writeRegister i v).mem = e.mem := rfl
@[simp] theorem writeRegister_pc (e : InstructionExecutor σ) (i : Fin 32) (v : BitVec 64) :
    (e.writeRegister i v).hartState.pc = e.hartState.pc := HartState.writeRegister_pc _ _ _
@[simp] theorem setMem_hartState (e : InstructionExecutor σ) (m : σ) :
    (e.setMem m).hartState = e.hartState := rfl
@[simp] theorem setMem_mem (e : InstructionExecutor σ) (m : σ) : (e.setMem m).mem = m := rfl
@[simp] theorem setPc_mem (e : InstructionExecutor σ) (pc : BitVec 64) : (e.setPc pc).mem = e.mem :=
  rfl
@[simp] theorem setPc_pc (e : InstructionExecutor σ) (pc : BitVec 64) :
    (e.setPc pc).hartState.pc = pc := rfl
@[simp] theorem setPc_registers (e : InstructionExecutor σ) (pc : BitVec 64) :
    (e.setPc pc).hartState.registers = e.hartState.registers := rfl
@[simp] theorem readRegister_setMem (e : InstructionExecutor σ) (m : σ) (i : Fin 32) :
    (e.setMem m).readRegister i = e.readRegister i := rfl

/-! ## The `execute_*` helpers -/

/-- The `align_mask` of each access size. -/
def alignMask : MemAccessSize → BitVec 64
  | .Byte => 0x0
  | .HalfWord => 0x1
  | .Word => 0x3
  | .DoubleWord => 0x7

/-- `(load_data as i8) as i64` and its wider siblings, as `u64`. -/
def signExtendLoad (size : MemAccessSize) (load_data : BitVec 64) : BitVec 64 :=
  match size with
  | .Byte => (load_data.setWidth 8).signExtend 64
  | .HalfWord => (load_data.setWidth 16).signExtend 64
  | .Word => (load_data.setWidth 32).signExtend 64
  | .DoubleWord => load_data

/-- `execute_amow`: read the word at `x[rs1]`, write it sign-extended to `rd`, store back
    `op` of it and `x[rs2]`'s low word sign-extended. No alignment check, and the result of
    `write_mem` is ignored. -/
def executeAmow (M : Memory σ) (e : InstructionExecutor σ) (dec_insn : AType)
    (op : BitVec 64 → BitVec 64 → BitVec 64) :
    Outcome (Except InstructionException Unit × InstructionExecutor σ) := do
  let rs1_addr := e.readRegister dec_insn.rs1
  let (r, mem) ← M.readMem e.mem rs1_addr .Word
  let e := e.setMem mem
  match r with
  | none => return (.error (.LoadAccessFault rs1_addr), e)
  | some rs1_value =>
    let rs1_value_signed_ext := sext32 rs1_value
    let rs2_value := e.readRegister dec_insn.rs2
    let rs2_32_extended := sext32 rs2_value
    let r1_final := op rs1_value_signed_ext rs2_32_extended
    let e := e.writeRegister dec_insn.rd rs1_value_signed_ext
    let (_, mem) ← M.writeMem e.mem rs1_addr .Word r1_final
    return (.ok (), e.setMem mem)

/-- `execute_amod`: `execute_amow` on doublewords, without the sign extensions. -/
def executeAmod (M : Memory σ) (e : InstructionExecutor σ) (dec_insn : AType)
    (op : BitVec 64 → BitVec 64 → BitVec 64) :
    Outcome (Except InstructionException Unit × InstructionExecutor σ) := do
  let rs1_addr := e.readRegister dec_insn.rs1
  let (r, mem) ← M.readMem e.mem rs1_addr .DoubleWord
  let e := e.setMem mem
  match r with
  | none => return (.error (.LoadAccessFault rs1_addr), e)
  | some rs1_value =>
    let rs2_value := e.readRegister dec_insn.rs2
    let rs1_final := op rs1_value rs2_value
    let e := e.writeRegister dec_insn.rd rs1_value
    let (_, mem) ← M.writeMem e.mem rs1_addr .DoubleWord rs1_final
    return (.ok (), e.setMem mem)

def executeRegRegOp (e : InstructionExecutor σ) (dec_insn : RType)
    (op : BitVec 64 → BitVec 64 → BitVec 64) : InstructionExecutor σ :=
  let a := e.readRegister dec_insn.rs1
  let b := e.readRegister dec_insn.rs2
  e.writeRegister dec_insn.rd (op a b)

def executeRegImmOp (e : InstructionExecutor σ) (dec_insn : IType)
    (op : BitVec 64 → BitVec 64 → BitVec 64) : InstructionExecutor σ :=
  let a := e.readRegister dec_insn.rs1
  let b := dec_insn.imm.signExtend 64
  e.writeRegister dec_insn.rd (op a b)

def executeRegImmShamtOp (e : InstructionExecutor σ) (dec_insn : ITypeRV64Shamt)
    (op : BitVec 64 → BitVec 32 → BitVec 64) : InstructionExecutor σ :=
  let a := e.readRegister dec_insn.rs1
  e.writeRegister dec_insn.rd (op a dec_insn.shamt)

/-- `execute_branch`: whether the branch is taken, and the executor after it. -/
def executeBranch (e : InstructionExecutor σ) (dec_insn : BType)
    (cond : BitVec 64 → BitVec 64 → Bool) : Bool × InstructionExecutor σ :=
  let a := e.readRegister dec_insn.rs1
  let b := e.readRegister dec_insn.rs2
  if cond a b then (true, e.setPc (e.hartState.pc + dec_insn.imm.signExtend 64))
  else (false, e)

/-- `execute_amo_load` (`LR`): an aligned load, always sign-extended. -/
def executeAmoLoad (M : Memory σ) (e : InstructionExecutor σ) (dec_insn : AType)
    (size : MemAccessSize) : Outcome (Except InstructionException Unit × InstructionExecutor σ) :=
  let addr := e.readRegister dec_insn.rs1
  if addr &&& alignMask size ≠ 0x0 then .ret (.error (.AlignmentFault addr), e)
  else do
    let (r, mem) ← M.readMem e.mem addr size
    let e := e.setMem mem
    match r with
    | none => return (.error (.LoadAccessFault addr), e)
    | some load_data =>
      return (.ok (), e.writeRegister dec_insn.rd (signExtendLoad size load_data))

/-- `execute_amo_store` (`SC`): an aligned store; `rd` becomes 0 when it succeeds. -/
def executeAmoStore (M : Memory σ) (e : InstructionExecutor σ) (dec_insn : AType)
    (size : MemAccessSize) : Outcome (Except InstructionException Unit × InstructionExecutor σ) :=
  let addr := e.readRegister dec_insn.rs1
  let data := e.readRegister dec_insn.rs2
  if addr &&& alignMask size ≠ 0x0 then .ret (.error (.AlignmentFault addr), e)
  else do
    let (ok, mem) ← M.writeMem e.mem addr size data
    let e := e.setMem mem
    if ok then return (.ok (), e.writeRegister dec_insn.rd 0)
    else return (.error (.StoreAccessFault addr), e)

def executeLoad (M : Memory σ) (e : InstructionExecutor σ) (dec_insn : IType)
    (size : MemAccessSize) (signed : Bool) :
    Outcome (Except InstructionException Unit × InstructionExecutor σ) :=
  let addr := e.readRegister dec_insn.rs1 + dec_insn.imm.signExtend 64
  if addr &&& alignMask size ≠ 0x0 then .ret (.error (.AlignmentFault addr), e)
  else do
    let (r, mem) ← M.readMem e.mem addr size
    let e := e.setMem mem
    match r with
    | none => return (.error (.LoadAccessFault addr), e)
    | some load_data =>
      let load_data := if signed then signExtendLoad size load_data else load_data
      return (.ok (), e.writeRegister dec_insn.rd load_data)

def executeStore (M : Memory σ) (e : InstructionExecutor σ) (dec_insn : SType)
    (size : MemAccessSize) : Outcome (Except InstructionException Unit × InstructionExecutor σ) :=
  let addr := e.readRegister dec_insn.rs1 + dec_insn.imm.signExtend 64
  let data := e.readRegister dec_insn.rs2
  if addr &&& alignMask size ≠ 0x0 then .ret (.error (.AlignmentFault addr), e)
  else do
    let (ok, mem) ← M.writeMem e.mem addr size data
    let e := e.setMem mem
    if ok then return (.ok (), e) else return (.error (.StoreAccessFault addr), e)

/-! ## The handler families (the source's macros) -/

/-- `helper(...)?; Ok(false)`. -/
def okFalse (x : Outcome (Except InstructionException Unit × InstructionExecutor σ)) :
    Outcome (Except InstructionException Bool × InstructionExecutor σ) :=
  x >>= fun (r, e) => .ret (r.map fun _ => false, e)

/-- `make_alu_op_reg_fn!`. -/
def aluOpRegFn (op : BitVec 64 → BitVec 64 → BitVec 64) (e : InstructionExecutor σ)
    (dec_insn : RType) : Outcome (Except InstructionException Bool × InstructionExecutor σ) :=
  .ret (.ok false, e.executeRegRegOp dec_insn op)

/-- `make_alu_op_reg_fn!` with a closure that can panic, one that calls Rust's `/` or `%`:
    `execute_reg_reg_op` with the closure's value an `Outcome`. -/
def aluOpRegFnM (op : BitVec 64 → BitVec 64 → Outcome (BitVec 64)) (e : InstructionExecutor σ)
    (dec_insn : RType) : Outcome (Except InstructionException Bool × InstructionExecutor σ) := do
  let result ← op (e.readRegister dec_insn.rs1) (e.readRegister dec_insn.rs2)
  return (.ok false, e.writeRegister dec_insn.rd result)

/-- When the closure returns `v`, the handler writes `v` to `rd`. -/
theorem aluOpRegFnM_ret {op : BitVec 64 → BitVec 64 → Outcome (BitVec 64)} {e : InstructionExecutor σ}
    {d : RType} {v : BitVec 64} (h : op (e.readRegister d.rs1) (e.readRegister d.rs2) = .ret v) :
    aluOpRegFnM op e d = .ret (.ok false, e.writeRegister d.rd v) := by
  simp only [aluOpRegFnM, h, Outcome.ret_bind, Outcome.pure_eq]

/-- `make_alu_op_imm_fn!`. -/
def aluOpImmFn (op : BitVec 64 → BitVec 64 → BitVec 64) (e : InstructionExecutor σ)
    (dec_insn : IType) : Outcome (Except InstructionException Bool × InstructionExecutor σ) :=
  .ret (.ok false, e.executeRegImmOp dec_insn op)

/-- `make_alu_op_imm_shamt_fn!`. -/
def aluOpImmShamtFn (op : BitVec 64 → BitVec 32 → BitVec 64) (e : InstructionExecutor σ)
    (dec_insn : ITypeRV64Shamt) : Outcome (Except InstructionException Bool × InstructionExecutor σ) :=
  .ret (.ok false, e.executeRegImmShamtOp dec_insn op)

/-- `make_branch_op_fn!`. -/
def branchOpFn (cond : BitVec 64 → BitVec 64 → Bool) (e : InstructionExecutor σ)
    (dec_insn : BType) : Outcome (Except InstructionException Bool × InstructionExecutor σ) :=
  let (taken, e) := e.executeBranch dec_insn cond
  .ret (.ok taken, e)

/-- `make_load_op_fn!`. -/
def loadOpFn (size : MemAccessSize) (signed : Bool) (M : Memory σ) (e : InstructionExecutor σ)
    (dec_insn : IType) : Outcome (Except InstructionException Bool × InstructionExecutor σ) :=
  okFalse (e.executeLoad M dec_insn size signed)

/-- `make_store_op_fn!`. -/
def storeOpFn (size : MemAccessSize) (M : Memory σ) (e : InstructionExecutor σ)
    (dec_insn : SType) : Outcome (Except InstructionException Bool × InstructionExecutor σ) :=
  okFalse (e.executeStore M dec_insn size)

/-- `make_amo_load_op_fn!`. -/
def amoLoadOpFn (size : MemAccessSize) (M : Memory σ) (e : InstructionExecutor σ)
    (dec_insn : AType) : Outcome (Except InstructionException Bool × InstructionExecutor σ) :=
  okFalse (e.executeAmoLoad M dec_insn size)

/-- `make_amo_store_op_fn!`. -/
def amoStoreOpFn (size : MemAccessSize) (M : Memory σ) (e : InstructionExecutor σ)
    (dec_insn : AType) : Outcome (Except InstructionException Bool × InstructionExecutor σ) :=
  okFalse (e.executeAmoStore M dec_insn size)

/-- `make_amow_op_reg_fn!`. -/
def amowOpRegFn (op : BitVec 64 → BitVec 64 → BitVec 64) (M : Memory σ)
    (e : InstructionExecutor σ) (dec_insn : AType) :
    Outcome (Except InstructionException Bool × InstructionExecutor σ) :=
  okFalse (e.executeAmow M dec_insn op)

/-- `make_amod_op_reg_fn!`. -/
def amodOpRegFn (op : BitVec 64 → BitVec 64 → BitVec 64) (M : Memory σ)
    (e : InstructionExecutor σ) (dec_insn : AType) :
    Outcome (Except InstructionException Bool × InstructionExecutor σ) :=
  okFalse (e.executeAmod M dec_insn op)

end InstructionExecutor

/-- `sign_extend_u64`: `(x as i64) as i128`. -/
def signExtendU64 (x : BitVec 64) : BitVec 128 := x.signExtend 128

/-- `sign_extend_u32`: `(x as i32) as i64`. -/
def signExtendU32 (x : BitVec 32) : BitVec 64 := x.signExtend 64

/-- `%` on `u32`: Rust panics on a zero divisor. -/
def u32Rem (a b : BitVec 32) : Outcome (BitVec 32) :=
  if b = 0 then .panic "attempt to calculate the remainder with a divisor of zero" else .ret (a % b)

/-- `remuw`'s closure: it tests the whole of `b` for zero, then divides by its low half. -/
def remuwFn (a b : BitVec 64) : Outcome (BitVec 64) :=
  if b = 0 then .ret (((a &&& 0xffffffff).setWidth 32).setWidth 64)
  else do
    let r ← u32Rem ((a &&& 0xffffffff).setWidth 32) ((b &&& 0xffffffff).setWidth 32)
    return r.signExtend 64

/-! ## The `M` extension's 64-bit closures (instruction_executor.rs 667-676) -/

/-- `mul`'s closure, `a.wrapping_mul(b)`. -/
def mulFn (a b : BitVec 64) : BitVec 64 := a * b

/-- `mulh`'s closure: `i128` product of the sign extensions, shifted right arithmetically. -/
def mulhFn (a b : BitVec 64) : BitVec 64 :=
  ((signExtendU64 a * signExtendU64 b).sshiftRight 64).setWidth 64

/-- `mulhu`'s closure: `u128` product, shifted right. -/
def mulhuFn (a b : BitVec 64) : BitVec 64 := ((a.setWidth 128 * b.setWidth 128) >>> 64).setWidth 64

/-- `mulhsu`'s closure: `sign_extend_u64(a)` times `b as i128`, shifted right arithmetically. -/
def mulhsuFn (a b : BitVec 64) : BitVec 64 :=
  ((signExtendU64 a * b.setWidth 128).sshiftRight 64).setWidth 64

/-- `u64`'s `/`: Rust panics on a zero divisor. -/
def u64Div (a b : BitVec 64) : Outcome (BitVec 64) :=
  if b = 0 then .panic "attempt to divide by zero" else .ret (a / b)

/-- `u64`'s `%`: Rust panics on a zero divisor. -/
def u64Rem (a b : BitVec 64) : Outcome (BitVec 64) :=
  if b = 0 then .panic "attempt to calculate the remainder with a divisor of zero" else .ret (a % b)

/-- `i64::wrapping_div` on the operands' bits: it panics on a zero divisor, and
    `i64::MIN / -1` wraps to `i64::MIN`. -/
def i64WrappingDiv (a b : BitVec 64) : Outcome (BitVec 64) :=
  if b = 0 then .panic "attempt to divide by zero" else .ret (a.sdiv b)

/-- `i64::wrapping_rem` on the operands' bits: it panics on a zero divisor, and
    `i64::MIN % -1` is `0`. -/
def i64WrappingRem (a b : BitVec 64) : Outcome (BitVec 64) :=
  if b = 0 then .panic "attempt to calculate the remainder with a divisor of zero"
  else .ret (a.srem b)

/-- `div`'s closure: `u64::MAX` for a zero divisor, else `(a as i64).wrapping_div(b as i64)`. -/
def divFn (a b : BitVec 64) : Outcome (BitVec 64) :=
  if b = 0 then .ret 0xffffffffffffffff else i64WrappingDiv a b

/-- `divu`'s closure: `u64::MAX` for a zero divisor, else `a / b`. -/
def divuFn (a b : BitVec 64) : Outcome (BitVec 64) :=
  if b = 0 then .ret 0xffffffffffffffff else u64Div a b

/-- `rem`'s closure: `a` for a zero divisor, else `(a as i64).wrapping_rem(b as i64)`. -/
def remFn (a b : BitVec 64) : Outcome (BitVec 64) :=
  if b = 0 then .ret a else i64WrappingRem a b

/-- `remu`'s closure: `a` for a zero divisor, else `a % b`. -/
def remuFn (a b : BitVec 64) : Outcome (BitVec 64) :=
  if b = 0 then .ret a else u64Rem a b

namespace InstructionExecutor

variable {σ : Type}

/-! ## The handlers -/

def processAdd := @aluOpRegFn σ fun a b => a + b
def processAddi := @aluOpImmFn σ fun a b => a + b
def processSub := @aluOpRegFn σ fun a b => a - b
def processSlt := @aluOpRegFn σ fun a b => if a.slt b then 1 else 0
def processSlti := @aluOpImmFn σ fun a b => if a.slt b then 1 else 0
def processSltu := @aluOpRegFn σ fun a b => if a < b then 1 else 0
def processSltui := @aluOpImmFn σ fun a b => if a < b then 1 else 0
def processOr := @aluOpRegFn σ fun a b => a ||| b
def processOri := @aluOpImmFn σ fun a b => a ||| b
def processAnd := @aluOpRegFn σ fun a b => a &&& b
def processAndi := @aluOpImmFn σ fun a b => a &&& b
def processXor := @aluOpRegFn σ fun a b => a ^^^ b
def processXori := @aluOpImmFn σ fun a b => a ^^^ b

def processSll := @aluOpRegFn σ fun a b => a <<< (b &&& 0x3f).toNat
def processSlli := @aluOpImmShamtFn σ fun a b => a <<< (b &&& 0x3f).toNat
def processSrl := @aluOpRegFn σ fun a b => a >>> (b &&& 0x3f).toNat
def processSrli := @aluOpImmShamtFn σ fun a b => a >>> (b &&& 0x3f).toNat
def processSra := @aluOpRegFn σ fun a b => a.sshiftRight (b &&& 0x3f).toNat
def processSrai := @aluOpImmShamtFn σ fun a b => a.sshiftRight (b &&& 0x3f).toNat

def processRdtime (e : InstructionExecutor σ) (dec_insn : CType) :
    Outcome (Except InstructionException Bool × InstructionExecutor σ) :=
  .ret (.ok false, e.writeRegister dec_insn.rd 0)

def processAddiw (e : InstructionExecutor σ) (dec_insn : IType) :
    Outcome (Except InstructionException Bool × InstructionExecutor σ) :=
  let a := e.readRegister dec_insn.rs1
  let b := dec_insn.imm.signExtend 64
  let result := a + b
  .ret (.ok false,
    e.writeRegister dec_insn.rd (signExtendU32 ((result &&& 0xffffffff).setWidth 32)))

def processAmoswapw := @amowOpRegFn σ fun _ b => b
def processAmoorw := @amowOpRegFn σ fun a b => a ||| b
def processAmoandw := @amowOpRegFn σ fun a b => a &&& b
def processAmoaddw := @amowOpRegFn σ fun a b => a + b
def processAmoaddd := @amodOpRegFn σ fun a b => a + b
def processAmoswapd := @amodOpRegFn σ fun _ b => b

def processLui (e : InstructionExecutor σ) (dec_insn : UType) :
    Outcome (Except InstructionException Bool × InstructionExecutor σ) :=
  .ret (.ok false, e.writeRegister dec_insn.rd (dec_insn.imm.signExtend 64))

def processAuipc (e : InstructionExecutor σ) (dec_insn : UType) :
    Outcome (Except InstructionException Bool × InstructionExecutor σ) :=
  let result := e.hartState.pc + dec_insn.imm.signExtend 64
  .ret (.ok false, e.writeRegister dec_insn.rd result)

def processBeq := @branchOpFn σ fun a b => a == b
def processBne := @branchOpFn σ fun a b => a != b
def processBlt := @branchOpFn σ fun a b => a.slt b
def processBltu := @branchOpFn σ fun a b => a.ult b
def processBge := @branchOpFn σ fun a b => !(a.slt b)
def processBgeu := @branchOpFn σ fun a b => !(a.ult b)

def processLb := @loadOpFn σ .Byte true
def processLbu := @loadOpFn σ .Byte false
def processLh := @loadOpFn σ .HalfWord true
def processLhu := @loadOpFn σ .HalfWord false
def processLw := @loadOpFn σ .Word true
def processLwu := @loadOpFn σ .Word false
def processLd := @loadOpFn σ .DoubleWord false

def processAmolrd := @amoLoadOpFn σ .DoubleWord
def processAmoscd := @amoStoreOpFn σ .DoubleWord
def processAmolrw := @amoLoadOpFn σ .Word
def processAmoscw := @amoStoreOpFn σ .Word

def processSb := @storeOpFn σ .Byte
def processSh := @storeOpFn σ .HalfWord
def processSw := @storeOpFn σ .Word
def processSd := @storeOpFn σ .DoubleWord

def processJal (e : InstructionExecutor σ) (dec_insn : JType) :
    Outcome (Except InstructionException Bool × InstructionExecutor σ) :=
  let target_pc := e.hartState.pc + dec_insn.imm.signExtend 64
  let e := e.writeRegister dec_insn.rd (e.hartState.pc + 4)
  .ret (.ok true, e.setPc target_pc)

def processJalr (e : InstructionExecutor σ) (dec_insn : IType) :
    Outcome (Except InstructionException Bool × InstructionExecutor σ) :=
  let target_pc := e.readRegister dec_insn.rs1 + dec_insn.imm.signExtend 64
  let target_pc := target_pc &&& 0xfffffffffffffffe
  let e := e.writeRegister dec_insn.rd (e.hartState.pc + 4)
  .ret (.ok true, e.setPc target_pc)

def processMul := @aluOpRegFn σ mulFn
def processMulh := @aluOpRegFn σ mulhFn
def processMulhu := @aluOpRegFn σ mulhuFn
def processMulhsu := @aluOpRegFn σ mulhsuFn
def processMulw := @aluOpRegFn σ fun a b =>
  (((a &&& 0xffffffff).setWidth 32) * ((b &&& 0xffffffff).setWidth 32)).signExtend 64

def processDiv := @aluOpRegFnM σ divFn
def processDivu := @aluOpRegFnM σ divuFn
def processRem := @aluOpRegFnM σ remFn
def processRemu := @aluOpRegFnM σ remuFn
def processRemuw := @aluOpRegFnM σ remuwFn

def processFence (e : InstructionExecutor σ) (_dec_insn : IType) :
    Outcome (Except InstructionException Bool × InstructionExecutor σ) :=
  .ret (.ok false, e)

end InstructionExecutor

open InstructionExecutor in
/-- The method of `InstructionExecutor` an `Insn` calls. -/
def Insn.execute {σ : Type} (M : Memory σ) (e : InstructionExecutor σ) :
    Insn → Outcome (Except InstructionException Bool × InstructionExecutor σ)
  | .add d => processAdd e d
  | .sub d => processSub e d
  | .sll d => processSll e d
  | .slt d => processSlt e d
  | .sltu d => processSltu e d
  | .xor d => processXor e d
  | .srl d => processSrl e d
  | .sra d => processSra e d
  | .or d => processOr e d
  | .amoorw d => processAmoorw M e d
  | .amoandw d => processAmoandw M e d
  | .and d => processAnd e d
  | .addi d => processAddi e d
  | .addiw d => processAddiw e d
  | .slli d => processSlli e d
  | .slti d => processSlti e d
  | .sltui d => processSltui e d
  | .xori d => processXori e d
  | .srli d => processSrli e d
  | .srai d => processSrai e d
  | .ori d => processOri e d
  | .andi d => processAndi e d
  | .lui d => processLui e d
  | .auipc d => processAuipc e d
  | .beq d => processBeq e d
  | .bne d => processBne e d
  | .blt d => processBlt e d
  | .bltu d => processBltu e d
  | .bge d => processBge e d
  | .bgeu d => processBgeu e d
  | .lb d => processLb M e d
  | .lbu d => processLbu M e d
  | .lh d => processLh M e d
  | .ld d => processLd M e d
  | .lhu d => processLhu M e d
  | .lw d => processLw M e d
  | .lwu d => processLwu M e d
  | .sb d => processSb M e d
  | .sh d => processSh M e d
  | .sw d => processSw M e d
  | .sd d => processSd M e d
  | .amoswapw d => processAmoswapw M e d
  | .amoswapd d => processAmoswapd M e d
  | .amoaddd d => processAmoaddd M e d
  | .amolrd d => processAmolrd M e d
  | .amoscd d => processAmoscd M e d
  | .amolrw d => processAmolrw M e d
  | .amoscw d => processAmoscw M e d
  | .amoaddw d => processAmoaddw M e d
  | .rdtime d => processRdtime e d
  | .jal d => processJal e d
  | .jalr d => processJalr e d
  | .mul d => processMul e d
  | .mulh d => processMulh e d
  | .mulhu d => processMulhu e d
  | .mulhsu d => processMulhsu e d
  | .mulw d => processMulw e d
  | .div d => processDiv e d
  | .divu d => processDivu e d
  | .rem d => processRem e d
  | .remu d => processRemu e d
  | .remuw d => processRemuw e d
  | .fence d => processFence e d

/-! ## The handler families -/

/-- How the source builds a handler: the macro it comes from, with its closure or size, or
    its written-out body. -/
inductive Handler where
  | aluReg (op : BitVec 64 → BitVec 64 → BitVec 64) (d : RType)
  | aluImm (op : BitVec 64 → BitVec 64 → BitVec 64) (d : IType)
  | aluImmShamt (op : BitVec 64 → BitVec 32 → BitVec 64) (d : ITypeRV64Shamt)
  | branch (cond : BitVec 64 → BitVec 64 → Bool) (d : BType)
  | load (size : MemAccessSize) (signed : Bool) (d : IType)
  | store (size : MemAccessSize) (d : SType)
  | amoLoad (size : MemAccessSize) (d : AType)
  | amoStore (size : MemAccessSize) (d : AType)
  | amow (op : BitVec 64 → BitVec 64 → BitVec 64) (d : AType)
  | amod (op : BitVec 64 → BitVec 64 → BitVec 64) (d : AType)
  | rdtime (d : CType)
  | addiw (d : IType)
  | lui (d : UType)
  | auipc (d : UType)
  | jal (d : JType)
  | jalr (d : IType)
  | aluRegM (op : BitVec 64 → BitVec 64 → Outcome (BitVec 64)) (d : RType)
  | fence (d : IType)

open InstructionExecutor in
def Handler.run {σ : Type} (M : Memory σ) (e : InstructionExecutor σ) :
    Handler → Outcome (Except InstructionException Bool × InstructionExecutor σ)
  | .aluReg op d => aluOpRegFn op e d
  | .aluImm op d => aluOpImmFn op e d
  | .aluImmShamt op d => aluOpImmShamtFn op e d
  | .branch cond d => branchOpFn cond e d
  | .load size signed d => loadOpFn size signed M e d
  | .store size d => storeOpFn size M e d
  | .amoLoad size d => amoLoadOpFn size M e d
  | .amoStore size d => amoStoreOpFn size M e d
  | .amow op d => amowOpRegFn op M e d
  | .amod op d => amodOpRegFn op M e d
  | .rdtime d => e.processRdtime d
  | .addiw d => e.processAddiw d
  | .lui d => e.processLui d
  | .auipc d => e.processAuipc d
  | .jal d => e.processJal d
  | .jalr d => e.processJalr d
  | .aluRegM op d => aluOpRegFnM op e d
  | .fence d => e.processFence d

/-- The read-modify-write atomics `AMO*.W` and `AMO*.D`. -/
def Handler.isAmo : Handler → Bool
  | .amow _ _ | .amod _ _ => true
  | _ => false

def Insn.isAmo : Insn → Bool
  | .amoswapw _ | .amoorw _ | .amoandw _ | .amoaddw _ | .amoaddd _ | .amoswapd _ => true
  | _ => false

/-! ## What each instruction may change -/

/-- The register a handler may write: the `rd` of its decoded fields. -/
def Handler.rd? : Handler → Option (Fin 32)
  | .aluReg _ d | .aluRegM _ d => some d.rd
  | .aluImm _ d | .load _ _ d | .addiw d | .jalr d | .fence d => some d.rd
  | .aluImmShamt _ d => some d.rd
  | .amoLoad _ d | .amoStore _ d | .amow _ d | .amod _ d => some d.rd
  | .lui d | .auipc d => some d.rd
  | .jal d => some d.rd
  | .rdtime d => some d.rd
  | .branch _ _ | .store _ _ => none

/-- Where a handler sends `pc`: a branch its target when taken, `JAL` and `JALR` their
    targets; `none` leaves `pc` to the step. -/
def Handler.target (hs : HartState) : Handler → Option (BitVec 64)
  | .branch cond d =>
    if cond (hs.readRegister d.rs1) (hs.readRegister d.rs2) then some (hs.pc + d.imm.signExtend 64)
    else none
  | .jal d => some (hs.pc + d.imm.signExtend 64)
  | .jalr d => some ((hs.readRegister d.rs1 + d.imm.signExtend 64) &&& 0xfffffffffffffffe)
  | _ => none

/-- Where and how wide a handler may write the memory: a store at `x[rs1] + imm`, `SC` and the
    `AMO`s at `x[rs1]`. -/
def Handler.storeAt (hs : HartState) : Handler → Option (BitVec 64 × MemAccessSize)
  | .store size d => some (hs.readRegister d.rs1 + d.imm.signExtend 64, size)
  | .amoStore size d => some (hs.readRegister d.rs1, size)
  | .amow _ d => some (hs.readRegister d.rs1, .Word)
  | .amod _ d => some (hs.readRegister d.rs1, .DoubleWord)
  | _ => none

/-- The `rd` field of an instruction's format; stores and branches have none. -/
def Insn.rd? : Insn → Option (Fin 32)
  | .add d | .sub d | .sll d | .slt d | .sltu d | .xor d | .srl d | .sra d | .or d | .and d
  | .mul d | .mulh d | .mulhu d | .mulhsu d | .mulw d | .div d | .divu d | .rem d | .remu d
  | .remuw d => some d.rd
  | .addi d | .addiw d | .slti d | .sltui d | .xori d | .ori d | .andi d | .lb d | .lbu d
  | .lh d | .ld d | .lhu d | .lw d | .lwu d | .jalr d | .fence d => some d.rd
  | .slli d | .srli d | .srai d => some d.rd
  | .amoorw d | .amoandw d | .amoswapw d | .amoswapd d | .amoaddd d | .amolrd d | .amoscd d
  | .amolrw d | .amoscw d | .amoaddw d => some d.rd
  | .lui d | .auipc d => some d.rd
  | .jal d => some d.rd
  | .rdtime d => some d.rd
  | _ => none

/-- The registers an instruction's handler reads, off its body: `rs1` and `rs2` for the
    register-register operations, branches, stores, `SC` and the `AMO`s, `rs1` alone for the
    immediate operations, loads, `LR` and `JALR`, none for `LUI`, `AUIPC`, `JAL`, `RDTIME` and
    `FENCE`. -/
def Insn.sources : Insn → List (Fin 32)
  | .add d | .sub d | .sll d | .slt d | .sltu d | .xor d | .srl d | .sra d | .or d | .and d
  | .mul d | .mulh d | .mulhu d | .mulhsu d | .mulw d | .div d | .divu d | .rem d | .remu d
  | .remuw d => [d.rs1, d.rs2]
  | .addi d | .addiw d | .slti d | .sltui d | .xori d | .ori d | .andi d | .lb d | .lbu d
  | .lh d | .ld d | .lhu d | .lw d | .lwu d | .jalr d => [d.rs1]
  | .slli d | .srli d | .srai d => [d.rs1]
  | .beq d | .bne d | .blt d | .bltu d | .bge d | .bgeu d => [d.rs1, d.rs2]
  | .sb d | .sh d | .sw d | .sd d => [d.rs1, d.rs2]
  | .amoorw d | .amoandw d | .amoswapw d | .amoswapd d | .amoaddd d | .amoscd d | .amoscw d
  | .amoaddw d => [d.rs1, d.rs2]
  | .amolrd d | .amolrw d => [d.rs1]
  | .lui _ | .auipc _ | .jal _ | .rdtime _ | .fence _ => []

/-- A branch's target when `taken`. -/
def BType.target (hs : HartState) (d : BType) (taken : Bool) : Option (BitVec 64) :=
  if taken then some (hs.pc + d.imm.signExtend 64) else none

/-- The `pc` a taken branch, `JAL` or `JALR` jumps to; `none` for every other instruction and
    for a branch not taken. -/
def Insn.target (hs : HartState) : Insn → Option (BitVec 64)
  | .beq d => d.target hs (hs.readRegister d.rs1 == hs.readRegister d.rs2)
  | .bne d => d.target hs (hs.readRegister d.rs1 != hs.readRegister d.rs2)
  | .blt d => d.target hs ((hs.readRegister d.rs1).slt (hs.readRegister d.rs2))
  | .bltu d => d.target hs ((hs.readRegister d.rs1).ult (hs.readRegister d.rs2))
  | .bge d => d.target hs !((hs.readRegister d.rs1).slt (hs.readRegister d.rs2))
  | .bgeu d => d.target hs !((hs.readRegister d.rs1).ult (hs.readRegister d.rs2))
  | .jal d => some (hs.pc + d.imm.signExtend 64)
  | .jalr d => some ((hs.readRegister d.rs1 + d.imm.signExtend 64) &&& 0xfffffffffffffffe)
  | _ => none

/-- The effective address and width of an instruction's memory write: `SB`/`SH`/`SW`/`SD` at
    `x[rs1] + imm`, `SC` and the `AMO`s at `x[rs1]`; `none` for every other instruction. -/
def Insn.storeAt (hs : HartState) : Insn → Option (BitVec 64 × MemAccessSize)
  | .sb d => some (hs.readRegister d.rs1 + d.imm.signExtend 64, .Byte)
  | .sh d => some (hs.readRegister d.rs1 + d.imm.signExtend 64, .HalfWord)
  | .sw d => some (hs.readRegister d.rs1 + d.imm.signExtend 64, .Word)
  | .sd d => some (hs.readRegister d.rs1 + d.imm.signExtend 64, .DoubleWord)
  | .amoscw d | .amoswapw d | .amoorw d | .amoandw d | .amoaddw d =>
    some (hs.readRegister d.rs1, .Word)
  | .amoscd d | .amoswapd d | .amoaddd d => some (hs.readRegister d.rs1, .DoubleWord)
  | _ => none

/-- `i` is executed by the handler `h`, which has `i`'s `rd`, target and memory write. -/
structure Insn.RunsAs (i : Insn) (h : Handler) : Prop where
  execute : ∀ {σ : Type} (M : Memory σ) (e : InstructionExecutor σ), i.execute M e = h.run M e
  isAmo : h.isAmo = i.isAmo
  rd : h.rd? = i.rd?
  target : ∀ hs, h.target hs = i.target hs
  storeAt : ∀ hs, h.storeAt hs = i.storeAt hs

/-- Every handler is one of the families: the source's `impl InstructionProcessor`, one row
    per method. -/
theorem Insn.runsAs : ∀ i : Insn, ∃ h : Handler, i.RunsAs h
  | .add d => ⟨.aluReg _ d, fun _ _ => rfl, rfl, rfl, fun _ => rfl, fun _ => rfl⟩
  | .sub d => ⟨.aluReg _ d, fun _ _ => rfl, rfl, rfl, fun _ => rfl, fun _ => rfl⟩
  | .sll d => ⟨.aluReg _ d, fun _ _ => rfl, rfl, rfl, fun _ => rfl, fun _ => rfl⟩
  | .slt d => ⟨.aluReg _ d, fun _ _ => rfl, rfl, rfl, fun _ => rfl, fun _ => rfl⟩
  | .sltu d => ⟨.aluReg _ d, fun _ _ => rfl, rfl, rfl, fun _ => rfl, fun _ => rfl⟩
  | .xor d => ⟨.aluReg _ d, fun _ _ => rfl, rfl, rfl, fun _ => rfl, fun _ => rfl⟩
  | .srl d => ⟨.aluReg _ d, fun _ _ => rfl, rfl, rfl, fun _ => rfl, fun _ => rfl⟩
  | .sra d => ⟨.aluReg _ d, fun _ _ => rfl, rfl, rfl, fun _ => rfl, fun _ => rfl⟩
  | .or d => ⟨.aluReg _ d, fun _ _ => rfl, rfl, rfl, fun _ => rfl, fun _ => rfl⟩
  | .amoorw d => ⟨.amow _ d, fun _ _ => rfl, rfl, rfl, fun _ => rfl, fun _ => rfl⟩
  | .amoandw d => ⟨.amow _ d, fun _ _ => rfl, rfl, rfl, fun _ => rfl, fun _ => rfl⟩
  | .and d => ⟨.aluReg _ d, fun _ _ => rfl, rfl, rfl, fun _ => rfl, fun _ => rfl⟩
  | .addi d => ⟨.aluImm _ d, fun _ _ => rfl, rfl, rfl, fun _ => rfl, fun _ => rfl⟩
  | .addiw d => ⟨.addiw d, fun _ _ => rfl, rfl, rfl, fun _ => rfl, fun _ => rfl⟩
  | .slli d => ⟨.aluImmShamt _ d, fun _ _ => rfl, rfl, rfl, fun _ => rfl, fun _ => rfl⟩
  | .slti d => ⟨.aluImm _ d, fun _ _ => rfl, rfl, rfl, fun _ => rfl, fun _ => rfl⟩
  | .sltui d => ⟨.aluImm _ d, fun _ _ => rfl, rfl, rfl, fun _ => rfl, fun _ => rfl⟩
  | .xori d => ⟨.aluImm _ d, fun _ _ => rfl, rfl, rfl, fun _ => rfl, fun _ => rfl⟩
  | .srli d => ⟨.aluImmShamt _ d, fun _ _ => rfl, rfl, rfl, fun _ => rfl, fun _ => rfl⟩
  | .srai d => ⟨.aluImmShamt _ d, fun _ _ => rfl, rfl, rfl, fun _ => rfl, fun _ => rfl⟩
  | .ori d => ⟨.aluImm _ d, fun _ _ => rfl, rfl, rfl, fun _ => rfl, fun _ => rfl⟩
  | .andi d => ⟨.aluImm _ d, fun _ _ => rfl, rfl, rfl, fun _ => rfl, fun _ => rfl⟩
  | .lui d => ⟨.lui d, fun _ _ => rfl, rfl, rfl, fun _ => rfl, fun _ => rfl⟩
  | .auipc d => ⟨.auipc d, fun _ _ => rfl, rfl, rfl, fun _ => rfl, fun _ => rfl⟩
  | .beq d => ⟨.branch _ d, fun _ _ => rfl, rfl, rfl, fun _ => rfl, fun _ => rfl⟩
  | .bne d => ⟨.branch _ d, fun _ _ => rfl, rfl, rfl, fun _ => rfl, fun _ => rfl⟩
  | .blt d => ⟨.branch _ d, fun _ _ => rfl, rfl, rfl, fun _ => rfl, fun _ => rfl⟩
  | .bltu d => ⟨.branch _ d, fun _ _ => rfl, rfl, rfl, fun _ => rfl, fun _ => rfl⟩
  | .bge d => ⟨.branch _ d, fun _ _ => rfl, rfl, rfl, fun _ => rfl, fun _ => rfl⟩
  | .bgeu d => ⟨.branch _ d, fun _ _ => rfl, rfl, rfl, fun _ => rfl, fun _ => rfl⟩
  | .lb d => ⟨.load .Byte true d, fun _ _ => rfl, rfl, rfl, fun _ => rfl, fun _ => rfl⟩
  | .lbu d => ⟨.load .Byte false d, fun _ _ => rfl, rfl, rfl, fun _ => rfl, fun _ => rfl⟩
  | .lh d => ⟨.load .HalfWord true d, fun _ _ => rfl, rfl, rfl, fun _ => rfl, fun _ => rfl⟩
  | .ld d => ⟨.load .DoubleWord false d, fun _ _ => rfl, rfl, rfl, fun _ => rfl, fun _ => rfl⟩
  | .lhu d => ⟨.load .HalfWord false d, fun _ _ => rfl, rfl, rfl, fun _ => rfl, fun _ => rfl⟩
  | .lw d => ⟨.load .Word true d, fun _ _ => rfl, rfl, rfl, fun _ => rfl, fun _ => rfl⟩
  | .lwu d => ⟨.load .Word false d, fun _ _ => rfl, rfl, rfl, fun _ => rfl, fun _ => rfl⟩
  | .sb d => ⟨.store .Byte d, fun _ _ => rfl, rfl, rfl, fun _ => rfl, fun _ => rfl⟩
  | .sh d => ⟨.store .HalfWord d, fun _ _ => rfl, rfl, rfl, fun _ => rfl, fun _ => rfl⟩
  | .sw d => ⟨.store .Word d, fun _ _ => rfl, rfl, rfl, fun _ => rfl, fun _ => rfl⟩
  | .sd d => ⟨.store .DoubleWord d, fun _ _ => rfl, rfl, rfl, fun _ => rfl, fun _ => rfl⟩
  | .amoswapw d => ⟨.amow _ d, fun _ _ => rfl, rfl, rfl, fun _ => rfl, fun _ => rfl⟩
  | .amoswapd d => ⟨.amod _ d, fun _ _ => rfl, rfl, rfl, fun _ => rfl, fun _ => rfl⟩
  | .amoaddd d => ⟨.amod _ d, fun _ _ => rfl, rfl, rfl, fun _ => rfl, fun _ => rfl⟩
  | .amolrd d => ⟨.amoLoad .DoubleWord d, fun _ _ => rfl, rfl, rfl, fun _ => rfl, fun _ => rfl⟩
  | .amoscd d => ⟨.amoStore .DoubleWord d, fun _ _ => rfl, rfl, rfl, fun _ => rfl, fun _ => rfl⟩
  | .amolrw d => ⟨.amoLoad .Word d, fun _ _ => rfl, rfl, rfl, fun _ => rfl, fun _ => rfl⟩
  | .amoscw d => ⟨.amoStore .Word d, fun _ _ => rfl, rfl, rfl, fun _ => rfl, fun _ => rfl⟩
  | .amoaddw d => ⟨.amow _ d, fun _ _ => rfl, rfl, rfl, fun _ => rfl, fun _ => rfl⟩
  | .rdtime d => ⟨.rdtime d, fun _ _ => rfl, rfl, rfl, fun _ => rfl, fun _ => rfl⟩
  | .jal d => ⟨.jal d, fun _ _ => rfl, rfl, rfl, fun _ => rfl, fun _ => rfl⟩
  | .jalr d => ⟨.jalr d, fun _ _ => rfl, rfl, rfl, fun _ => rfl, fun _ => rfl⟩
  | .mul d => ⟨.aluReg _ d, fun _ _ => rfl, rfl, rfl, fun _ => rfl, fun _ => rfl⟩
  | .mulh d => ⟨.aluReg _ d, fun _ _ => rfl, rfl, rfl, fun _ => rfl, fun _ => rfl⟩
  | .mulhu d => ⟨.aluReg _ d, fun _ _ => rfl, rfl, rfl, fun _ => rfl, fun _ => rfl⟩
  | .mulhsu d => ⟨.aluReg _ d, fun _ _ => rfl, rfl, rfl, fun _ => rfl, fun _ => rfl⟩
  | .mulw d => ⟨.aluReg _ d, fun _ _ => rfl, rfl, rfl, fun _ => rfl, fun _ => rfl⟩
  | .div d => ⟨.aluRegM _ d, fun _ _ => rfl, rfl, rfl, fun _ => rfl, fun _ => rfl⟩
  | .divu d => ⟨.aluRegM _ d, fun _ _ => rfl, rfl, rfl, fun _ => rfl, fun _ => rfl⟩
  | .rem d => ⟨.aluRegM _ d, fun _ _ => rfl, rfl, rfl, fun _ => rfl, fun _ => rfl⟩
  | .remu d => ⟨.aluRegM _ d, fun _ _ => rfl, rfl, rfl, fun _ => rfl, fun _ => rfl⟩
  | .remuw d => ⟨.aluRegM _ d, fun _ _ => rfl, rfl, rfl, fun _ => rfl, fun _ => rfl⟩
  | .fence d => ⟨.fence d, fun _ _ => rfl, rfl, rfl, fun _ => rfl, fun _ => rfl⟩

/-- `process_instruction(self, insn)`: `None` when the word does not decode. -/
def processInstruction {σ : Type} (decode : BitVec 32 → Option Insn) (M : Memory σ)
    (e : InstructionExecutor σ) (insn_bits : BitVec 32) :
    Outcome (Option (Except InstructionException Bool) × InstructionExecutor σ) :=
  match decode insn_bits with
  | none => .ret (none, e)
  | some insn => do
    let (r, e) ← insn.execute M e
    return (some r, e)

section ProcessInstruction

variable {σ : Type}

theorem processInstruction_some {decode : BitVec 32 → Option Insn} {M : Memory σ}
    {e e' : InstructionExecutor σ} {w : BitVec 32} {r : Except InstructionException Bool}
    (h : processInstruction decode M e w = .ret (some r, e')) :
    ∃ i, decode w = some i ∧ i.execute M e = .ret (r, e') := by
  unfold processInstruction at h
  split at h
  · cases h
  · next i hi =>
    obtain ⟨⟨r1, e1⟩, hx, h⟩ := Outcome.bind_eq_ret.mp h
    simp only [Outcome.pure_eq, Outcome.ret.injEq, Prod.mk.injEq, Option.some.injEq] at h
    obtain ⟨rfl, rfl⟩ := h
    exact ⟨i, hi, hx⟩

theorem processInstruction_none {decode : BitVec 32 → Option Insn} {M : Memory σ}
    {e e' : InstructionExecutor σ} {w : BitVec 32}
    (h : processInstruction decode M e w = .ret (none, e')) : decode w = none ∧ e' = e := by
  unfold processInstruction at h
  split at h
  · next hd => cases h; exact ⟨hd, rfl⟩
  · obtain ⟨_, -, h⟩ := Outcome.bind_eq_ret.mp h
    cases h

end ProcessInstruction

/-- `InstructionExecutor::step`: fetch the word at `pc`, execute it, and move `pc` on by 4
    unless the instruction set it. -/
def InstructionExecutor.step {σ : Type} (decode : BitVec 32 → Option Insn) (M : Memory σ)
    (e : InstructionExecutor σ) : Outcome (Except InstructionException Unit × InstructionExecutor σ) := do
  let e := { e with hartState := { e.hartState with lastRegisterWrite := none } }
  let (r, mem) ← M.readMem e.mem e.hartState.pc .Word
  let e := e.setMem mem
  match r with
  | none => return (.error (.FetchError e.hartState.pc), e)
  | some next_insn =>
    let next_insn := (next_insn &&& 0xffffffff).setWidth 32
    let (step_result, e) ← processInstruction decode M e next_insn
    match step_result with
    | some (.ok pc_updated) =>
      return (.ok (), if !pc_updated then e.setPc (e.hartState.pc + 4) else e)
    | some (.error ex) => return (.error ex, e)
    | none => return (.error (.IllegalInstruction e.hartState.pc next_insn), e)

end ZkvmRv64
