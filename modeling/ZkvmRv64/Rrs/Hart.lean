import ZkvmRv64.Basic

/-
  ZkvmRv64.Rrs.Hart — what rrs-lib's executor works on (lib.rs): the hart state with its
  zero-register discipline, the `Memory` trait, the exceptions a step can raise, and the
  decoded instruction a step dispatches on.

  `process_instruction` and `instruction_formats` are not in the sources: the formats are
  the fields the executor reads, and `Insn` is one call of an `InstructionProcessor` method,
  one constructor per method, with its decoded fields. The decoder itself is a parameter of
  the step (`Rrs.Executor`).

  Register indices are `Fin 32`, as the decoder's five-bit fields are; immediates are the
  `i32` the formats hold (`imm as u64` sign-extends them).

  Proved: `readRegister_zero` (x0 reads 0 in every state) and the frame lemmas of
  `write_register` (it changes the one register it names, and never x0).
-/

namespace ZkvmRv64

/-! ## `HartState` -/

/-- `HartState`: registers (index 0 ignored), `pc`, and the diagnostic
    `last_register_write`. -/
structure HartState where
  registers : Fin 32 → BitVec 64
  pc : BitVec 64
  lastRegisterWrite : Option (Fin 32)

namespace HartState

def new : HartState := ⟨fun _ => 0, 0, none⟩

/-- `write_register`: a write to x0 is dropped. -/
def writeRegister (h : HartState) (reg_index : Fin 32) (data : BitVec 64) : HartState :=
  if reg_index = 0 then h
  else { h with registers := fun j => if j = reg_index then data else h.registers j,
                lastRegisterWrite := some reg_index }

/-- `read_register`: x0 reads 0. -/
def readRegister (h : HartState) (reg_index : Fin 32) : BitVec 64 :=
  if reg_index = 0 then 0 else h.registers reg_index

@[simp] theorem readRegister_zero (h : HartState) : h.readRegister 0 = 0 := rfl

@[simp] theorem writeRegister_pc (h : HartState) (i : Fin 32) (v : BitVec 64) :
    (h.writeRegister i v).pc = h.pc := by
  unfold writeRegister; split <;> rfl

theorem read_writeRegister (h : HartState) (i j : Fin 32) (v : BitVec 64) :
    (h.writeRegister i v).readRegister j =
      if j = i ∧ i ≠ 0 then v else h.readRegister j := by
  unfold writeRegister readRegister
  by_cases hi : i = 0
  · subst hi; by_cases hj : j = 0 <;> simp [hj]
  · by_cases hj : j = i
    · subst hj; simp [hi]
    · simp [hi, hj]

theorem writeRegister_registers_of_ne (h : HartState) {i j : Fin 32} (v : BitVec 64) (hj : j ≠ i) :
    (h.writeRegister i v).registers j = h.registers j := by
  unfold writeRegister; split <;> simp [hj]

end HartState

/-! ## The `Memory` trait -/

/-- The `Memory` trait: `read_mem` returns `None` for an address the memory does not have,
    `write_mem` returns whether the write succeeded; both take `&mut self`, and an
    implementation may panic. Both require an address aligned to the access size. -/
structure Memory (σ : Type) where
  readMem : σ → BitVec 64 → MemAccessSize → Outcome (Option (BitVec 64) × σ)
  writeMem : σ → BitVec 64 → MemAccessSize → BitVec 64 → Outcome (Bool × σ)

/-! ## Exceptions -/

inductive InstructionException where
  | IllegalInstruction (pc : BitVec 64) (insn : BitVec 32)
  | FetchError (pc : BitVec 64)
  | LoadAccessFault (addr : BitVec 64)
  | StoreAccessFault (addr : BitVec 64)
  | AlignmentFault (addr : BitVec 64)
  deriving DecidableEq, Repr

/-! ## Decoded instructions -/

structure RType where
  rd : Fin 32
  rs1 : Fin 32
  rs2 : Fin 32
  deriving DecidableEq, Repr

structure IType where
  rd : Fin 32
  rs1 : Fin 32
  imm : BitVec 32
  deriving DecidableEq, Repr

structure ITypeRV64Shamt where
  rd : Fin 32
  rs1 : Fin 32
  shamt : BitVec 32
  deriving DecidableEq, Repr

structure SType where
  rs1 : Fin 32
  rs2 : Fin 32
  imm : BitVec 32
  deriving DecidableEq, Repr

structure BType where
  rs1 : Fin 32
  rs2 : Fin 32
  imm : BitVec 32
  deriving DecidableEq, Repr

structure UType where
  rd : Fin 32
  imm : BitVec 32
  deriving DecidableEq, Repr

structure JType where
  rd : Fin 32
  imm : BitVec 32
  deriving DecidableEq, Repr

structure AType where
  rd : Fin 32
  rs1 : Fin 32
  rs2 : Fin 32
  deriving DecidableEq, Repr

structure CType where
  rd : Fin 32
  deriving DecidableEq, Repr

/-- A call of an `InstructionProcessor` method, one constructor per method of the trait, in
    its order. -/
inductive Insn where
  | add (d : RType)
  | sub (d : RType)
  | sll (d : RType)
  | slt (d : RType)
  | sltu (d : RType)
  | xor (d : RType)
  | srl (d : RType)
  | sra (d : RType)
  | or (d : RType)
  | amoorw (d : AType)
  | amoandw (d : AType)
  | and (d : RType)
  | addi (d : IType)
  | addiw (d : IType)
  | slli (d : ITypeRV64Shamt)
  | slti (d : IType)
  | sltui (d : IType)
  | xori (d : IType)
  | srli (d : ITypeRV64Shamt)
  | srai (d : ITypeRV64Shamt)
  | ori (d : IType)
  | andi (d : IType)
  | lui (d : UType)
  | auipc (d : UType)
  | beq (d : BType)
  | bne (d : BType)
  | blt (d : BType)
  | bltu (d : BType)
  | bge (d : BType)
  | bgeu (d : BType)
  | lb (d : IType)
  | lbu (d : IType)
  | lh (d : IType)
  | ld (d : IType)
  | lhu (d : IType)
  | lw (d : IType)
  | lwu (d : IType)
  | sb (d : SType)
  | sh (d : SType)
  | sw (d : SType)
  | sd (d : SType)
  | amoswapw (d : AType)
  | amoswapd (d : AType)
  | amoaddd (d : AType)
  | amolrd (d : AType)
  | amoscd (d : AType)
  | amolrw (d : AType)
  | amoscw (d : AType)
  | amoaddw (d : AType)
  | rdtime (d : CType)
  | jal (d : JType)
  | jalr (d : IType)
  | mul (d : RType)
  | mulh (d : RType)
  | mulhu (d : RType)
  | mulhsu (d : RType)
  | mulw (d : RType)
  | div (d : RType)
  | divu (d : RType)
  | rem (d : RType)
  | remu (d : RType)
  | remuw (d : RType)
  | fence (d : IType)

end ZkvmRv64
