import ZkvmRv64.Basic

/-
  ZkvmRv64.Opcode — `OpCode::decode` (opcode.rs): the executor's classification of an
  instruction word into a mnemonic and a circuit `(major, minor)` pair.

  `decode` reads the word's fields (`opcode`, `rs2`, `funct3`, `funct7`, `funct7_rv64`,
  `funct5`), matches the major opcode, then the sub-fields. An unknown major opcode is
  `bail!("Illegal opcode: 0b{opcode:07b}")`, an `Err`; a known one whose sub-field the table
  leaves out is `unreachable!()`, a panic. `OpCode::new` splits its index into
  `FromPrimitive::from_u32(idx / 8).unwrap()` and `idx % 8`.

  Each inner `match` whose arms are all `OpCode::new(insn, insn_pc, mnemonic, idx, cycles)`
  is written as its list of arms (`Arm`), in the source's order, and `matchArms`, which takes
  the first arm whose key matches and is `unreachable!()` past the last.

  Proved:
  - `decode_isPanic_iff`: `decode` panics exactly on the words of `decodeGap`, a known major
    opcode with a sub-field the table leaves out: loads with `funct3 = 7`, stores with
    `funct3 ≥ 4`, `SRLI`/`SRAI` words with other high bits, `OP` words with another
    `funct7`, atomics outside the ten it lists, branches with `funct3 ∈ {2, 3}`, `JALR` and
    `OP-IMM-32` with `funct3 ≠ 0`, every `OP-32` word but `MULW` and `REMUW` (so `ADDW`,
    `SUBW`, `SLLW`, ...), and `SYSTEM` words other than `ECALL`, `EBREAK` and `funct3 = 2`.
  - `decode_error_iff`: `decode` returns `Err` exactly on an unknown major opcode, with the
    opcode in seven binary digits.
-/

namespace ZkvmRv64

/-- `MajorType`: the circuit's major opcode classes. -/
inductive MajorType where
  | Compute0
  | Compute1
  | Compute2
  | MemIo
  | Multiply
  | Divide
  | VerifyAnd
  | VerifyDivide
  | ECall
  | ShaInit
  | ShaLoad
  | ShaMain
  | PageFault
  | MuxSize
  deriving DecidableEq, Repr

/-- `FromPrimitive::from_u32` of the derived `#[repr(u32)]` discriminants. -/
def MajorType.fromU32 : Nat → Option MajorType
  | 0 => some .Compute0
  | 1 => some .Compute1
  | 2 => some .Compute2
  | 3 => some .MemIo
  | 4 => some .Multiply
  | 5 => some .Divide
  | 6 => some .VerifyAnd
  | 7 => some .VerifyDivide
  | 8 => some .ECall
  | 9 => some .ShaInit
  | 10 => some .ShaLoad
  | 11 => some .ShaMain
  | 12 => some .PageFault
  | 13 => some .MuxSize
  | _ => none

structure OpCode where
  insn : BitVec 32
  insnPc : BitVec 64
  mnemonic : String
  major : MajorType
  minor : Nat
  cycles : Nat
  deriving DecidableEq, Repr

def OpCode.new (insn : BitVec 32) (insnPc : BitVec 64) (mnemonic : String) (idx cycles : Nat) :
    Outcome OpCode := do
  let major ← unwrap (MajorType.fromU32 (idx / 8))
  return ⟨insn, insnPc, mnemonic, major, idx % 8, cycles⟩

def OpCode.withMajorMinor (insn : BitVec 32) (insnPc : BitVec 64) (mnemonic : String)
    (major : MajorType) (minor cycles : Nat) : OpCode :=
  ⟨insn, insnPc, mnemonic, major, minor, cycles⟩

/-- `unreachable!()`. -/
def unreachable {α : Type} : Outcome α := .panic "internal error: entered unreachable code"

/-- `format!("{:07b}", n)` for `n < 128`: seven binary digits, most significant first. -/
def binary7 (n : Nat) : String :=
  String.mk ((List.range 7).reverse.map fun i => if n.testBit i then '1' else '0')

/-! ## The instruction fields -/

def opcodeOf (insn : BitVec 32) : Nat := (insn &&& 0x0000007f).toNat
def rs2Of (insn : BitVec 32) : Nat := ((insn &&& 0x01f00000) >>> 20).toNat
def funct3Of (insn : BitVec 32) : Nat := ((insn &&& 0x00007000) >>> 12).toNat
def funct7Of (insn : BitVec 32) : Nat := ((insn &&& 0xfe000000) >>> 25).toNat
/-- RV64 uses bit 25 as `shamt[5]`. -/
def funct7Rv64Of (insn : BitVec 32) : Nat := ((insn &&& 0xfc000000) >>> 26).toNat
def funct5Of (insn : BitVec 32) : Nat := ((insn &&& 0xf8000000) >>> 27).toNat

/-! ## The tables -/

/-- One arm `key => OpCode::new(insn, insn_pc, mnemonic, idx, cycles)` of a `match`. -/
structure Arm (κ : Type) where
  key : κ
  mnemonic : String
  idx : Nat
  cycles : Nat

/-- A `match` over `OpCode::new` arms ending in `_ => unreachable!()`. -/
def matchArms {κ : Type} [DecidableEq κ] (insn : BitVec 32) (insnPc : BitVec 64) (key : κ) :
    List (Arm κ) → Outcome OpCode
  | [] => unreachable
  | a :: arms =>
    if key = a.key then OpCode.new insn insnPc a.mnemonic a.idx a.cycles
    else matchArms insn insnPc key arms

def loadArms : List (Arm Nat) :=
  [⟨0x0, "LB", 24, 1⟩, ⟨0x1, "LH", 25, 1⟩, ⟨0x2, "LW", 26, 1⟩, ⟨0x3, "LD", 27, 1⟩,
   ⟨0x4, "LBU", 28, 1⟩, ⟨0x5, "LHU", 29, 1⟩, ⟨0x6, "LWU", 30, 1⟩]

/-- The `funct3` arms of `OP-IMM` but `0x5`, whose arm is the shift `match`. -/
def opImmArms : List (Arm Nat) :=
  [⟨0x0, "ADDI", 7, 1⟩, ⟨0x1, "SLLI", 37, 1⟩, ⟨0x2, "SLTI", 11, 1⟩, ⟨0x3, "SLTIU", 12, 1⟩,
   ⟨0x4, "XORI", 8, 2⟩, ⟨0x6, "ORI", 9, 2⟩, ⟨0x7, "ANDI", 10, 2⟩]

def shiftImmArms : List (Arm Nat) := [⟨0b000000, "SRLI", 46, 2⟩, ⟨0b010000, "SRAI", 47, 2⟩]

def storeArms : List (Arm Nat) :=
  [⟨0x0, "SB", 29, 1⟩, ⟨0x1, "SH", 30, 1⟩, ⟨0x2, "SW", 31, 1⟩, ⟨0x3, "SD", 31, 1⟩]

/-- `OP`, keyed by `(funct3, funct7)`. -/
def opArms : List (Arm (Nat × Nat)) :=
  [⟨(0x0, 0x00), "ADD", 0, 1⟩, ⟨(0x0, 0x20), "SUB", 1, 1⟩, ⟨(0x1, 0x00), "SLL", 36, 1⟩,
   ⟨(0x2, 0x00), "SLT", 5, 1⟩, ⟨(0x3, 0x00), "SLTU", 6, 1⟩, ⟨(0x4, 0x00), "XOR", 2, 2⟩,
   ⟨(0x5, 0x00), "SRL", 44, 2⟩, ⟨(0x5, 0x20), "SRA", 45, 2⟩, ⟨(0x6, 0x00), "OR", 3, 2⟩,
   ⟨(0x7, 0x00), "AND", 4, 2⟩, ⟨(0x0, 0x01), "MUL", 32, 1⟩, ⟨(0x1, 0x01), "MULH", 33, 1⟩,
   ⟨(0x2, 0x01), "MULSU", 34, 1⟩, ⟨(0x3, 0x01), "MULU", 35, 1⟩, ⟨(0x4, 0x01), "DIV", 40, 2⟩,
   ⟨(0x5, 0x01), "DIVU", 41, 2⟩, ⟨(0x6, 0x01), "REM", 42, 2⟩, ⟨(0x7, 0x01), "REMU", 43, 2⟩]

/-- `AMO`, keyed by `(funct3, funct5)`. -/
def amoArms : List (Arm (Nat × Nat)) :=
  [⟨(0b010, 0b00001), "AMOSWAP.W", 0, 1⟩, ⟨(0b010, 0b00010), "LR.W", 2, 1⟩,
   ⟨(0b010, 0b00011), "SC.W", 3, 1⟩, ⟨(0b010, 0b01000), "AMOOR.W", 0, 1⟩,
   ⟨(0b010, 0b00000), "AMOADD.W", 1, 1⟩, ⟨(0b010, 0b01100), "AMOAND.W", 0, 1⟩,
   ⟨(0b011, 0b00000), "AMOADD.D", 1, 1⟩, ⟨(0b011, 0b00001), "AMOSWAP.D", 2, 1⟩,
   ⟨(0b011, 0b00010), "LR.D", 3, 1⟩, ⟨(0b011, 0b00011), "SC.D", 4, 1⟩]

def branchArms : List (Arm Nat) :=
  [⟨0x0, "BEQ", 13, 1⟩, ⟨0x1, "BNE", 14, 1⟩, ⟨0x4, "BLT", 15, 1⟩, ⟨0x5, "BGE", 16, 1⟩,
   ⟨0x6, "BLTU", 17, 1⟩, ⟨0x7, "BGEU", 18, 1⟩]

def jalrArms : List (Arm Nat) := [⟨0x0, "JALR", 20, 1⟩]

def opImm32Arms : List (Arm Nat) := [⟨0b000, "ADDIW", 0, 1⟩]

/-- `OP-32`, keyed by `(funct3, funct7)`. -/
def op32Arms : List (Arm (Nat × Nat)) :=
  [⟨(0b000, 0b0000001), "MULW", 0, 1⟩, ⟨(0b111, 0b0000001), "REMUW", 1, 1⟩]

/-! ## `decode` -/

/-- The body of `decode`, over the fields of the word. -/
def decodeFields (insn : BitVec 32) (insnPc : BitVec 64)
    (opcode rs2 funct3 funct7 funct7_rv64 funct5 : Nat) : Outcome (Except String OpCode) :=
  match opcode with
  | 0b0000011 => .ok <$> matchArms insn insnPc funct3 loadArms
  | 0b0010011 => .ok <$>
    if funct3 = 0x5 then matchArms insn insnPc funct7_rv64 shiftImmArms
    else matchArms insn insnPc funct3 opImmArms
  | 0b0010111 => .ok <$> OpCode.new insn insnPc "AUIPC" 22 1
  | 0b0100011 => .ok <$> matchArms insn insnPc funct3 storeArms
  | 0b0110011 => .ok <$> matchArms insn insnPc (funct3, funct7) opArms
  | 0b0101111 => .ok <$> matchArms insn insnPc (funct3, funct5) amoArms
  | 0b0110111 => .ok <$> OpCode.new insn insnPc "LUI" 21 1
  | 0b1100011 => .ok <$> matchArms insn insnPc funct3 branchArms
  | 0b1100111 => .ok <$> matchArms insn insnPc funct3 jalrArms
  | 0b0011011 => .ok <$> matchArms insn insnPc funct3 opImm32Arms
  | 0b0111011 => .ok <$> matchArms insn insnPc (funct3, funct7) op32Arms
  | 0b1101111 => .ok <$> OpCode.new insn insnPc "JAL" 19 1
  | 0b1110011 => .ok <$>
    if funct3 = 0x0 then
      if rs2 = 0x0 ∧ funct7 = 0x0 then .ret (OpCode.withMajorMinor insn insnPc "ECALL" .ECall 0 1)
      else if rs2 = 0x1 ∧ funct7 = 0x0 then
        .ret (OpCode.withMajorMinor insn insnPc "EBREAK" .ECall 1 1)
      else unreachable
    else if funct3 = 0b010 then OpCode.new insn insnPc "RDTIME" 0 1
    else unreachable
  | 0b0001111 => .ok <$> OpCode.new insn insnPc "FENCE" 0 1
  | _ => .ret (.error ("Illegal opcode: 0b" ++ binary7 opcode))

def OpCode.decode (insn : BitVec 32) (insnPc : BitVec 64) : Outcome (Except String OpCode) :=
  decodeFields insn insnPc (opcodeOf insn) (rs2Of insn) (funct3Of insn) (funct7Of insn)
    (funct7Rv64Of insn) (funct5Of insn)

/-! ## Where `decode` panics -/

/-- The major opcodes `decode` knows. -/
def knownOpcodes : List Nat :=
  [0b0000011, 0b0010011, 0b0010111, 0b0100011, 0b0110011, 0b0101111, 0b0110111, 0b1100011,
   0b1100111, 0b0011011, 0b0111011, 0b1101111, 0b1110011, 0b0001111]

/-- The words whose major opcode `decode` knows but whose sub-fields no arm matches. -/
def decodeGap (opcode rs2 funct3 funct7 funct7_rv64 funct5 : Nat) : Bool :=
  match opcode with
  | 0b0000011 => funct3 = 7
  | 0b0010011 => funct3 = 5 ∧ funct7_rv64 ≠ 0 ∧ funct7_rv64 ≠ 0b010000
  | 0b0100011 => 4 ≤ funct3
  | 0b0110011 => funct7 ≠ 0 ∧ funct7 ≠ 1 ∧ ¬(funct7 = 0x20 ∧ (funct3 = 0 ∨ funct3 = 5))
  | 0b0101111 => ¬((funct3 = 0b010 ∧ funct5 ∈ [0, 1, 2, 3, 8, 12]) ∨ (funct3 = 0b011 ∧ funct5 < 4))
  | 0b1100011 => funct3 = 2 ∨ funct3 = 3
  | 0b1100111 => funct3 ≠ 0
  | 0b0011011 => funct3 ≠ 0
  | 0b0111011 => ¬(funct7 = 1 ∧ (funct3 = 0 ∨ funct3 = 7))
  | 0b1110011 => (funct3 = 0 ∧ ¬(funct7 = 0 ∧ (rs2 = 0 ∨ rs2 = 1))) ∨ (funct3 ≠ 0 ∧ funct3 ≠ 2)
  | _ => false

theorem OpCode.new_eq {idx : Nat} (insn : BitVec 32) (insnPc : BitVec 64) (mnemonic : String)
    (cycles : Nat) (h : idx < 112) : ∃ major, OpCode.new insn insnPc mnemonic idx cycles =
      .ret ⟨insn, insnPc, mnemonic, major, idx % 8, cycles⟩ := by
  have : ∃ major, MajorType.fromU32 (idx / 8) = some major := by
    match hk : idx / 8, (show idx / 8 < 14 by omega) with
    | 0, _ | 1, _ | 2, _ | 3, _ | 4, _ | 5, _ | 6, _ | 7, _ | 8, _ | 9, _ | 10, _ | 11, _
    | 12, _ | 13, _ => exact ⟨_, rfl⟩
  obtain ⟨major, hm⟩ := this
  exact ⟨major, by simp [OpCode.new, hm, unwrap]⟩

/-- `matchArms` panics exactly when no arm matches (its indices in range of `MajorType`). -/
theorem matchArms_isPanic {κ : Type} [DecidableEq κ] (insn : BitVec 32) (insnPc : BitVec 64)
    (key : κ) : ∀ {arms : List (Arm κ)}, (∀ a ∈ arms, a.idx < 112) →
      (matchArms insn insnPc key arms).isPanic = !(arms.any fun a => key = a.key)
  | [], _ => rfl
  | a :: arms, h => by
    by_cases hk : key = a.key
    · obtain ⟨_, hn⟩ := OpCode.new_eq insn insnPc a.mnemonic a.cycles (h a (List.mem_cons_self _ _))
      simp [matchArms, hk, hn]
    · simp [matchArms, hk, matchArms_isPanic insn insnPc key fun b hb => h b (List.mem_cons_of_mem _ hb)]

theorem isPanic_ok_map (x : Outcome OpCode) :
    (Except.ok <$> x : Outcome (Except String OpCode)).isPanic = x.isPanic := by
  cases x <;> rfl

/-! Where each table panics. -/

section
variable (insn : BitVec 32) (insnPc : BitVec 64)

theorem load_isPanic {funct3 : Nat} (h : funct3 < 8) :
    (matchArms insn insnPc funct3 loadArms).isPanic = decide (funct3 = 7) := by
  rw [matchArms_isPanic _ _ _ (by decide)]; revert funct3; decide

theorem opImm_isPanic {funct3 : Nat} (h : funct3 < 8) (h5 : funct3 ≠ 5) :
    (matchArms insn insnPc funct3 opImmArms).isPanic = false := by
  rw [matchArms_isPanic _ _ _ (by decide)]; revert funct3; decide

theorem shiftImm_isPanic (funct7_rv64 : Nat) :
    (matchArms insn insnPc funct7_rv64 shiftImmArms).isPanic =
      decide (funct7_rv64 ≠ 0 ∧ funct7_rv64 ≠ 0b010000) := by
  rw [matchArms_isPanic _ _ _ (by decide)]; simp [shiftImmArms]

theorem store_isPanic {funct3 : Nat} (h : funct3 < 8) :
    (matchArms insn insnPc funct3 storeArms).isPanic = decide (4 ≤ funct3) := by
  rw [matchArms_isPanic _ _ _ (by decide)]; revert funct3; decide

/-- The `OP` arms cover `funct7 ∈ {0, 1}` for every `funct3`, and `funct7 = 0x20` for
    `ADD`'s and `SRL`'s `funct3` only. -/
theorem op_isPanic {funct3 : Nat} (funct7 : Nat) (h : funct3 < 8) :
    (matchArms insn insnPc (funct3, funct7) opArms).isPanic =
      decide (funct7 ≠ 0 ∧ funct7 ≠ 1 ∧ ¬(funct7 = 0x20 ∧ (funct3 = 0 ∨ funct3 = 5))) := by
  rw [matchArms_isPanic _ _ _ (by decide)]
  by_cases h7 : funct7 = 0 ∨ funct7 = 1 ∨ funct7 = 0x20
  · rcases h7 with rfl | rfl | rfl <;> revert funct3 <;> decide
  · simp only [not_or] at h7
    simp [opArms, h7.1, h7.2.1, h7.2.2]

theorem amo_isPanic {funct3 funct5 : Nat} (h : funct3 < 8) (h5 : funct5 < 32) :
    (matchArms insn insnPc (funct3, funct5) amoArms).isPanic =
      decide (¬((funct3 = 0b010 ∧ funct5 ∈ [0, 1, 2, 3, 8, 12]) ∨ (funct3 = 0b011 ∧ funct5 < 4))) := by
  rw [matchArms_isPanic _ _ _ (by decide)]
  rcases (by omega : funct3 = 2 ∨ funct3 = 3 ∨ (funct3 ≠ 2 ∧ funct3 ≠ 3)) with rfl | rfl | ⟨h2, h3⟩
  · revert funct5; decide
  · revert funct5; decide
  · simp [amoArms, h2, h3]

theorem branch_isPanic {funct3 : Nat} (h : funct3 < 8) :
    (matchArms insn insnPc funct3 branchArms).isPanic = decide (funct3 = 2 ∨ funct3 = 3) := by
  rw [matchArms_isPanic _ _ _ (by decide)]; revert funct3; decide

theorem jalr_isPanic (funct3 : Nat) :
    (matchArms insn insnPc funct3 jalrArms).isPanic = decide (funct3 ≠ 0) := by
  rw [matchArms_isPanic _ _ _ (by decide)]; simp [jalrArms]

theorem opImm32_isPanic (funct3 : Nat) :
    (matchArms insn insnPc funct3 opImm32Arms).isPanic = decide (funct3 ≠ 0) := by
  rw [matchArms_isPanic _ _ _ (by decide)]; simp [opImm32Arms]

theorem op32_isPanic (funct3 funct7 : Nat) :
    (matchArms insn insnPc (funct3, funct7) op32Arms).isPanic =
      decide (¬(funct7 = 1 ∧ (funct3 = 0 ∨ funct3 = 7))) := by
  rw [matchArms_isPanic _ _ _ (by decide)]
  by_cases h7 : funct7 = 1 <;> simp [op32Arms, h7]

theorem system_isPanic (rs2 funct3 funct7 : Nat) :
    ((if funct3 = 0x0 then
        if rs2 = 0x0 ∧ funct7 = 0x0 then .ret (OpCode.withMajorMinor insn insnPc "ECALL" .ECall 0 1)
        else if rs2 = 0x1 ∧ funct7 = 0x0 then
          .ret (OpCode.withMajorMinor insn insnPc "EBREAK" .ECall 1 1)
        else unreachable
      else if funct3 = 0b010 then OpCode.new insn insnPc "RDTIME" 0 1
      else unreachable : Outcome OpCode)).isPanic =
      decide ((funct3 = 0 ∧ ¬(funct7 = 0 ∧ (rs2 = 0 ∨ rs2 = 1))) ∨ (funct3 ≠ 0 ∧ funct3 ≠ 2)) := by
  by_cases h0 : funct3 = 0
  · by_cases hA : rs2 = 0 ∧ funct7 = 0
    · rw [if_pos h0, if_pos hA, decide_eq_false (by omega)]; rfl
    · by_cases hB : rs2 = 1 ∧ funct7 = 0
      · rw [if_pos h0, if_neg hA, if_pos hB, decide_eq_false (by omega)]; rfl
      · rw [if_pos h0, if_neg hA, if_neg hB, decide_eq_true (Or.inl ⟨h0, by omega⟩)]; rfl
  · by_cases h2 : funct3 = 2
    · rw [if_neg h0, if_pos h2, decide_eq_false (by omega)]; rfl
    · rw [if_neg h0, if_neg h2, decide_eq_true (Or.inr ⟨h0, h2⟩)]; rfl

end

theorem decodeFields_isPanic (insn : BitVec 32) (insnPc : BitVec 64)
    (opcode rs2 funct3 funct7 funct7_rv64 funct5 : Nat) (h3 : funct3 < 8) (h5 : funct5 < 32) :
    (decodeFields insn insnPc opcode rs2 funct3 funct7 funct7_rv64 funct5).isPanic =
      decodeGap opcode rs2 funct3 funct7 funct7_rv64 funct5 := by
  unfold decodeFields decodeGap
  split <;> simp only [isPanic_ok_map]
  · exact load_isPanic _ _ h3
  · by_cases h : funct3 = 5
    · rw [if_pos h, shiftImm_isPanic]; simp [h]
    · rw [if_neg h, opImm_isPanic _ _ h3 h]; simp [h]
  · rfl
  · exact store_isPanic _ _ h3
  · exact op_isPanic _ _ _ h3
  · exact amo_isPanic _ _ h3 h5
  · rfl
  · exact branch_isPanic _ _ h3
  · exact jalr_isPanic _ _ _
  · exact opImm32_isPanic _ _ _
  · exact op32_isPanic _ _ _ _
  · rfl
  · exact system_isPanic _ _ _ _ _
  · rfl
  · rfl

theorem funct3Of_lt (insn : BitVec 32) : funct3Of insn < 8 := by
  have : (insn &&& 0x00007000).toNat ≤ 0x7000 := by rw [BitVec.toNat_and]; exact Nat.and_le_right
  rw [funct3Of, BitVec.toNat_ushiftRight, Nat.shiftRight_eq_div_pow]
  omega

theorem funct5Of_lt (insn : BitVec 32) : funct5Of insn < 32 := by
  have := (insn &&& 0xf8000000).isLt
  simp only [funct5Of, BitVec.toNat_ushiftRight, Nat.shiftRight_eq_div_pow]
  omega

/-- `decode` panics exactly on the words of `decodeGap`: a major opcode it knows, with
    sub-fields none of that opcode's arms matches. -/
theorem decode_isPanic_eq_decodeGap (insn : BitVec 32) (insnPc : BitVec 64) :
    (OpCode.decode insn insnPc).isPanic =
      decodeGap (opcodeOf insn) (rs2Of insn) (funct3Of insn) (funct7Of insn) (funct7Rv64Of insn)
        (funct5Of insn) :=
  decodeFields_isPanic _ _ _ _ _ _ _ _ (funct3Of_lt insn) (funct5Of_lt insn)

/-- `ADDW x0, x0, x0`, an `OP-32` word other than `MULW` and `REMUW`, lies in a gap: `decode`
    reaches `unreachable!()`. -/
theorem decode_isPanic_eq_decodeGap_addw :
    OpCode.decode 0x0000003b 0 = .panic "internal error: entered unreachable code" ∧
      decodeGap (opcodeOf 0x0000003b) (rs2Of 0x0000003b) (funct3Of 0x0000003b) (funct7Of 0x0000003b)
        (funct7Rv64Of 0x0000003b) (funct5Of 0x0000003b) = true :=
  ⟨rfl, (decode_isPanic_eq_decodeGap 0x0000003b 0).symm.trans rfl⟩

/-! ## Where `decode` fails -/

theorem ok_map_ne_error (x : Outcome OpCode) (e : String) :
    (Except.ok <$> x : Outcome (Except String OpCode)) ≠ .ret (.error e) := by
  cases x <;> nofun

theorem decodeFields_eq_error (insn : BitVec 32) (insnPc : BitVec 64)
    (opcode rs2 funct3 funct7 funct7_rv64 funct5 : Nat) (e : String) :
    decodeFields insn insnPc opcode rs2 funct3 funct7 funct7_rv64 funct5 = .ret (.error e) ↔
      opcode ∉ knownOpcodes ∧ e = "Illegal opcode: 0b" ++ binary7 opcode := by
  unfold decodeFields
  split
  case h_15 =>
    have hk : opcode ∉ knownOpcodes := by simp_all [knownOpcodes]
    simp [hk, eq_comm]
  all_goals exact iff_of_false (ok_map_ne_error _ _) fun h => h.1 (by decide)

/-- `decode` returns `Err` exactly on a major opcode it does not know, and the error names
    that opcode in seven binary digits. -/
theorem decode_eq_error_iff (insn : BitVec 32) (insnPc : BitVec 64) (e : String) :
    OpCode.decode insn insnPc = .ret (.error e) ↔
      opcodeOf insn ∉ knownOpcodes ∧ e = "Illegal opcode: 0b" ++ binary7 (opcodeOf insn) :=
  decodeFields_eq_error _ _ _ _ _ _ _ _ e

end ZkvmRv64
