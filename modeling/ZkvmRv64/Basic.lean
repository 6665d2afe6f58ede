import Mathlib.Algebra.Group.Nat.Basic
import Mathlib.Algebra.Group.Int
/-
  ZkvmRv64.Basic — the values the execution core passes around: what a call of Rust code
  comes to (a value or a panic), memory access sizes, little-endian packing
  (`to_le_bytes` / `from_le_bytes`), the `as` casts between integer widths, and the
  platform's memory-map constants.

  Integers are `BitVec`s of the code's widths. Rust's `+`, `-` and `*` on them are modelled
  as in a release build: they wrap (a debug build panics instead).

  Proved:
  - `fromLeBytes_toLeBytes`: packing the low `n` bytes of a value and reading them back
    gives the value mod `2^(8n)`.
  - `alignUp_spec`: `align_up(addr, 2^k)` is the least multiple of `2^k` not below `addr`,
    when `addr + 2^k - 1` does not wrap.
-/

namespace ZkvmRv64

/-- What a call of Rust code comes to: its value, or a panic with the message Rust prints. -/
inductive Outcome (α : Type) where
  | ret (a : α)
  | panic (msg : String)
  deriving DecidableEq, Repr

namespace Outcome

def bind {α β : Type} : Outcome α → (α → Outcome β) → Outcome β
  | ret a, f => f a
  | panic m, _ => panic m

instance : Monad Outcome where
  pure := ret
  bind := bind

def isPanic {α : Type} : Outcome α → Bool
  | ret _ => false
  | panic _ => true

variable {α β : Type}

@[simp] theorem ret_bind (a : α) (f : α → Outcome β) : (ret a >>= f) = f a := rfl
@[simp] theorem panic_bind (m : String) (f : α → Outcome β) : (panic m >>= f) = panic m := rfl
@[simp] theorem pure_eq (a : α) : (pure a : Outcome α) = ret a := rfl
@[simp] theorem isPanic_ret (a : α) : (ret a).isPanic = false := rfl
@[simp] theorem isPanic_panic (m : String) : (panic m : Outcome α).isPanic = true := rfl

theorem bind_assoc {γ : Type} (x : Outcome α) (f : α → Outcome β) (g : β → Outcome γ) :
    (x >>= f >>= g) = x >>= fun a => f a >>= g := by
  cases x <;> rfl

theorem bind_eq_ret {x : Outcome α} {f : α → Outcome β} {b : β} :
    (x >>= f) = ret b ↔ ∃ a, x = ret a ∧ f a = ret b := by
  cases x <;> simp

theorem bind_isPanic {x : Outcome α} {f : α → Outcome β} :
    (x >>= f).isPanic = true ↔ x.isPanic = true ∨ ∃ a, x = ret a ∧ (f a).isPanic = true := by
  cases x <;> simp

end Outcome

/-- The message of a failed `assert_eq!(left, right, msg)` on integers, as
    `core::panicking::assert_failed` formats it (`Debug` of an integer is its decimal). -/
def assertFailed (msg : String) (left right : Nat) : String :=
  "assertion `left == right` failed: " ++ msg ++ "\n  left: " ++ toString left ++
    "\n right: " ++ toString right

/-- `assert_eq!(left, right, msg)`. -/
def assertEq (left right : Nat) (msg : String) : Outcome Unit :=
  if left = right then .ret () else .panic (assertFailed msg left right)

/-- The message of `Option::unwrap` on `None` (`core::option::unwrap_failed`). -/
def unwrapFailed : String := "called `Option::unwrap()` on a `None` value"

/-- `Option::unwrap`. -/
def unwrap {α : Type} : Option α → Outcome α
  | some a => .ret a
  | none => .panic unwrapFailed

@[simp] theorem assertEq_self (n : Nat) (msg : String) : assertEq n n msg = .ret () := by
  simp [assertEq]

@[simp] theorem unwrap_some {α : Type} (a : α) : unwrap (some a) = .ret a := rfl
@[simp] theorem unwrap_none {α : Type} : (unwrap none : Outcome α).isPanic = true := rfl

/-! ## Access sizes -/

/-- `rrs_lib::MemAccessSize`. -/
inductive MemAccessSize where
  | Byte
  | HalfWord
  | Word
  | DoubleWord
  deriving DecidableEq, Repr

def MemAccessSize.bytes : MemAccessSize → Nat
  | .Byte => 1
  | .HalfWord => 2
  | .Word => 4
  | .DoubleWord => 8

theorem MemAccessSize.bytes_le_eight (s : MemAccessSize) : s.bytes ≤ 8 := by
  cases s <;> decide

theorem MemAccessSize.bytes_pos (s : MemAccessSize) : 0 < s.bytes := by
  cases s <;> decide

/-! ## Casts and little-endian packing -/

/-- `x as i32 as i64 as u64`: the low 32 bits, sign-extended. -/
def sext32 (x : BitVec 64) : BitVec 64 := (x.setWidth 32).signExtend 64

/-- `x as u32 as u64`: the low 32 bits, zero-extended. -/
def zext32 (x : BitVec 64) : BitVec 64 := (x.setWidth 32).setWidth 64

/-- `uN::to_le_bytes` of the low `n` bytes of `data`, low byte first. -/
def toLeBytes : Nat → BitVec 64 → List (BitVec 8)
  | 0, _ => []
  | n + 1, data => data.setWidth 8 :: toLeBytes n (data >>> 8)

/-- `uN::from_le_bytes`, widened to `u64`. -/
def fromLeBytes : List (BitVec 8) → BitVec 64
  | [] => 0
  | b :: bs => b.setWidth 64 ||| (fromLeBytes bs <<< 8)

@[simp] theorem length_toLeBytes (n : Nat) (v : BitVec 64) : (toLeBytes n v).length = n := by
  induction n generalizing v <;> simp [toLeBytes, *]

theorem getLsbD_fromLeBytes_toLeBytes (n : Nat) (v : BitVec 64) (i : Nat) :
    (fromLeBytes (toLeBytes n v)).getLsbD i = (v.getLsbD i && decide (i < 8 * n)) := by
  induction n generalizing v i with
  | zero => simp [toLeBytes, fromLeBytes]
  | succ n ih =>
    simp only [toLeBytes, fromLeBytes, BitVec.getLsbD_or, BitVec.getLsbD_setWidth,
      BitVec.getLsbD_shiftLeft, ih, BitVec.getLsbD_ushiftRight]
    by_cases h : i < 8
    · simp [h, show i < 8 * (n + 1) by omega, show i < 64 by omega]
    · by_cases hi : i < 64
      · simp [h, hi, show 8 + (i - 8) = i by omega, show (i - 8 < 8 * n) = (i < 8 * (n + 1)) by
          simp only [eq_iff_iff]; omega]
      · simp [h, hi, BitVec.getLsbD_ge v i (by omega)]

/-- Packing the low `n` bytes of `v` and reading them back gives `v mod 2^(8n)`. -/
theorem fromLeBytes_toLeBytes (n : Nat) (v : BitVec 64) :
    fromLeBytes (toLeBytes n v) = BitVec.ofNat 64 (v.toNat % 2 ^ (8 * n)) := by
  ext i
  rw [getLsbD_fromLeBytes_toLeBytes, BitVec.getLsbD_ofNat, Nat.testBit_mod_two_pow]
  simp [BitVec.testBit_toNat, Bool.and_comm]

/-! ## Rounding up -/

/-- `align_up` (lib.rs): `addr` rounded up to a multiple of `align`, which the source requires
    to be a power of two. -/
def alignUp (addr align : BitVec 64) : BitVec 64 := (addr + align - 1) &&& ~~~(align - 1)

/-- Clearing the low `k` bits rounds down to a multiple of `2^k`. -/
theorem toNat_and_not_low_mask (x : BitVec 64) {k : Nat} (hk : k < 64) :
    (x &&& ~~~(BitVec.ofNat 64 (2 ^ k - 1))).toNat = 2 ^ k * (x.toNat / 2 ^ k) := by
  apply Nat.eq_of_testBit_eq
  intro i
  rw [BitVec.testBit_toNat, Nat.testBit_mul_pow_two, ← Nat.shiftRight_eq_div_pow, Nat.testBit_shiftRight]
  simp only [BitVec.getLsbD_and, BitVec.getLsbD_not, BitVec.getLsbD_ofNat, Nat.testBit_two_pow_sub_one]
  by_cases hi : i < 64
  · by_cases hki : k ≤ i
    · simp [hi, hki, Nat.not_lt.mpr hki, Nat.add_sub_cancel' hki, BitVec.testBit_toNat]
    · simp [hi, hki, Nat.lt_of_not_le hki]
  · rw [BitVec.getLsbD_ge x i (by omega), Nat.testBit_lt_two_pow
      (Nat.lt_of_lt_of_le x.isLt (Nat.pow_le_pow_right (by decide) (by omega))), Bool.false_and,
      Bool.and_false]

/-- For `align = 2^k` and an `addr` whose `addr + align - 1` does not wrap, `align_up` is the
    least multiple of `align` not below `addr`. -/
theorem alignUp_spec (addr : BitVec 64) {k : Nat} (hk : k < 64)
    (hfit : addr.toNat + 2 ^ k - 1 < 2 ^ 64) :
    (alignUp addr (BitVec.ofNat 64 (2 ^ k))).toNat % 2 ^ k = 0 ∧
      addr.toNat ≤ (alignUp addr (BitVec.ofNat 64 (2 ^ k))).toNat ∧
      (alignUp addr (BitVec.ofNat 64 (2 ^ k))).toNat < addr.toNat + 2 ^ k := by
  have hpos : 0 < 2 ^ k := Nat.two_pow_pos k
  have hlt : 2 ^ k < 2 ^ 64 := Nat.pow_lt_pow_of_lt (by decide) hk
  have hm : BitVec.ofNat 64 (2 ^ k) - 1 = BitVec.ofNat 64 (2 ^ k - 1) := by bv_omega
  have hs : (addr + BitVec.ofNat 64 (2 ^ k) - 1).toNat = addr.toNat + 2 ^ k - 1 := by bv_omega
  rw [alignUp, hm, toNat_and_not_low_mask _ hk, hs]
  refine ⟨Nat.mul_mod_right _ _, ?_, ?_⟩
  · have := Nat.div_add_mod (addr.toNat + 2 ^ k - 1) (2 ^ k)
    have := Nat.mod_lt (addr.toNat + 2 ^ k - 1) hpos
    omega
  · have := Nat.mul_div_le (addr.toNat + 2 ^ k - 1) (2 ^ k)
    omega

/-- A page boundary: `0x1001` rounds up to `0x2000`. -/
theorem alignUp_spec_page :
    12 < 64 ∧ (0x1001 : BitVec 64).toNat + 2 ^ 12 - 1 < 2 ^ 64 ∧
      (alignUp 0x1001 (BitVec.ofNat 64 (2 ^ 12))).toNat % 2 ^ 12 = 0 ∧
      (0x1001 : BitVec 64).toNat ≤ (alignUp 0x1001 (BitVec.ofNat 64 (2 ^ 12))).toNat ∧
      (alignUp 0x1001 (BitVec.ofNat 64 (2 ^ 12))).toNat < (0x1001 : BitVec 64).toNat + 2 ^ 12 :=
  ⟨by decide, by decide, alignUp_spec 0x1001 (by decide) (by decide)⟩

example : alignUp 0x1001 0x1000 = 0x2000 := by decide

/-! ## The platform -/

/-- The memory-map constants of `risc0_zkvm_platform::memory` (not in the sources), with what
    the spec says of them: `MEM_SIZE` is a multiple of 8, and the primary region `[0, MEM_SIZE)`
    is disjoint from the playground region at `0xd0_0000_0000`. -/
structure Platform where
  MEM_SIZE : Nat
  STACK_INITIAL_ADDRESS : Nat
  /-- `SYSTEM.start()`: the base of the register file's shadow, `x_i` at `+ 8 * i`. -/
  SYSTEM_start : Nat
  memSizeMul8 : MEM_SIZE % 8 = 0
  memSizeLe : MEM_SIZE ≤ 0xd000000000

/-- A platform for the concrete traces: 4 KiB of primary memory, the register file at `0x800`,
    the stack from `0xff0`. -/
def Platform.small : Platform := ⟨0x1000, 0xff0, 0x800, by decide, by decide⟩

end ZkvmRv64
