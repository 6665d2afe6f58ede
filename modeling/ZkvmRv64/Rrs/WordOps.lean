import ZkvmRv64.Rrs.Executor

/-
  ZkvmRv64.Rrs.WordOps — the `W` operations `ADDIW`, `MULW` and `REMUW`.

  `ADDIW` and `MULW` mask their operands or their result to the low word, so what they
  write is the sign extension of a 32-bit sum or product of the operands' low words
  (`addiw_mulw_low_words`). `REMUW`'s closure tests the whole 64-bit divisor for zero and
  then divides by its low word only: a divisor whose low word is zero and whose high word
  is not makes Rust's `%` on `u32` panic (`processRemuw_panics`).

  Proved:
  - `addiw_mulw_low_words`: `ADDIW` and `MULW` write the sign-extended 32-bit sum and
    product of the low words.
  - `processRemuw_panics`: `REMUW` panics when `x[rs2]` is nonzero with a zero low word.
-/

namespace ZkvmRv64

/-! ## The low word -/

theorem setWidth_and_low_word (x : BitVec 64) : (x &&& 0xffffffff).setWidth 32 = x.setWidth 32 := by
  simp only [BitVec.setWidth_and]
  have : (0xffffffff : BitVec 64).setWidth 32 = BitVec.allOnes 32 := by decide
  rw [this, BitVec.and_allOnes]

theorem setWidth_signExtend_low_word (x : BitVec 32) : (x.signExtend 64).setWidth 32 = x := by
  ext i
  simp [BitVec.getLsbD_signExtend]
  omega

namespace InstructionExecutor

variable {σ : Type}

/-- `ADDIW` and `MULW` write the sign extension of the 32-bit sum, or product, of the
    operands' low words: the high words of the operands never matter. -/
theorem addiw_mulw_low_words (e : InstructionExecutor σ) :
    (∀ d : IType, e.processAddiw d = .ret (.ok false,
      e.writeRegister d.rd (((e.readRegister d.rs1).setWidth 32 + d.imm).signExtend 64))) ∧
    (∀ d : RType, e.processMulw d = .ret (.ok false,
      e.writeRegister d.rd
        (((e.readRegister d.rs1).setWidth 32 * (e.readRegister d.rs2).setWidth 32).signExtend 64))) := by
  constructor
  · intro d
    simp only [processAddiw, signExtendU32, setWidth_and_low_word,
      BitVec.setWidth_add _ _ (by decide : 32 ≤ 64), setWidth_signExtend_low_word]
  · intro d
    simp only [processMulw, aluOpRegFn, executeRegRegOp, setWidth_and_low_word]

/-- `REMUW` with a divisor whose low word is zero but whose high word is not: the closure's
    zero test passes and Rust's `u32` remainder panics. -/
theorem processRemuw_panics (e : InstructionExecutor σ) (d : RType)
    (hb : e.readRegister d.rs2 ≠ 0) (hlow : (e.readRegister d.rs2).setWidth 32 = 0) :
    e.processRemuw d = .panic "attempt to calculate the remainder with a divisor of zero" := by
  simp only [processRemuw, aluOpRegFnM, remuwFn, u32Rem, if_neg hb, setWidth_and_low_word, hlow,
    if_true, Outcome.panic_bind]

/-- `remuw x1, x1, x2` with `x2 = 2^32`. -/
def remuwExecutor : InstructionExecutor Unit := ⟨(), (HartState.new.writeRegister 1 5).writeRegister 2 0x100000000⟩

theorem processRemuw_panics_high_divisor :
    remuwExecutor.readRegister 2 ≠ 0 ∧ (remuwExecutor.readRegister 2).setWidth 32 = 0 ∧
      remuwExecutor.processRemuw ⟨1, 1, 2⟩ =
        .panic "attempt to calculate the remainder with a divisor of zero" :=
  ⟨by decide, by decide, processRemuw_panics remuwExecutor ⟨1, 1, 2⟩ (by decide) (by decide)⟩

end InstructionExecutor

end ZkvmRv64
