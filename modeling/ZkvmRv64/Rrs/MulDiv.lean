import ZkvmRv64.Rrs.Executor

/-
  ZkvmRv64.Rrs.MulDiv — the M extension's 64-bit handlers (instruction_executor.rs 667-676).

  `MUL` is `wrapping_mul`; `MULHU`, `MULH` and `MULHSU` widen both operands to 128 bits
  (`as u128`, `sign_extend_u64`, `as i128`), multiply with wrapping, shift right by 64 (an
  arithmetic shift on `i128`) and keep the low 64 bits. No 128-bit product wraps, since
  both factors fit in 64 bits, so the three high halves are exact: over the integers, the
  high half times `2^64` plus `MUL`'s low half is the product of the operands read unsigned,
  signed, or signed by unsigned (`MulHalves`).

  `DIV`, `DIVU`, `REM` and `REMU` test the divisor for zero before they divide, so the Rust
  primitives' zero-divisor panic is never reached (`div_fns_eq`); `i64::wrapping_div` and
  `wrapping_rem` take `i64::MIN` by `-1` to `i64::MIN` and `0` without a panic. Read as
  integers, `sdiv` and `srem` are the quotient truncated toward zero and its remainder
  (`toInt_sdiv`, `toInt_srem`), the one exception being `i64::MIN / -1`, whose quotient
  `2^63` wraps (`DivRem`).

  Proved:
  - `mul_high_halves_exact`: the values `MUL`, `MULH`, `MULHU` and `MULHSU` write to `rd`,
    as integer identities, and no intermediate product wraps.
  - `div_rem_laws`: `DIV`, `DIVU`, `REM` and `REMU` never panic, the values they write satisfy
    `DivRem` for a nonzero divisor, and `i64::MIN / -1` gives `i64::MIN` remainder `0`.
-/

namespace ZkvmRv64

/-! ## Signed readings of 64- and 128-bit values -/

theorem toInt_bounds64 (x : BitVec 64) : -2 ^ 63 ≤ x.toInt ∧ x.toInt < 2 ^ 63 := by
  rw [BitVec.toInt_eq_toNat_cond]; have := x.isLt; split <;> omega

theorem natAbs_toInt_le (x : BitVec 64) : x.toInt.natAbs ≤ 2 ^ 63 := by
  have := toInt_bounds64 x; omega

theorem toInt_emod64 (x : BitVec 64) : x.toInt % 2 ^ 64 = x.toNat := by
  rw [BitVec.toInt_eq_toNat_cond]; have := x.isLt; split <;> omega

theorem bmod128_of_bounds {x : Int} (h1 : -2 ^ 127 ≤ x) (h2 : x < 2 ^ 127) : x.bmod (2 ^ 128) = x := by
  rw [Int.bmod_def]; split <;> omega

theorem bmod64_of_bounds {x : Int} (h1 : -2 ^ 63 ≤ x) (h2 : x < 2 ^ 63) : x.bmod (2 ^ 64) = x := by
  rw [Int.bmod_def]; split <;> omega

theorem toInt_of_toNat_lt {x : BitVec 64} (h : x.toNat < 2 ^ 63) : x.toInt = x.toNat := by
  rw [BitVec.toInt_eq_toNat_cond]; split <;> omega

theorem toInt_neg_of_toNat_le {x : BitVec 64} (h : x.toNat ≤ 2 ^ 63) :
    (-x).toInt = -(x.toNat : Int) := by
  rw [BitVec.toInt_eq_toNat_cond, BitVec.toNat_neg]; split <;> omega

theorem toNat_lt_of_msb_false {x : BitVec 64} (h : x.msb = false) : x.toNat < 2 ^ 63 := by
  have := BitVec.msb_eq_false_iff_two_mul_lt.mp h; omega

/-- A negative value is minus its negation, which is at most `2^63` and not zero. -/
theorem toInt_of_msb_true {x : BitVec 64} (h : x.msb = true) :
    (-x).toNat ≤ 2 ^ 63 ∧ 0 < (-x).toNat ∧ x.toInt = -((-x).toNat : Int) := by
  have hx := BitVec.msb_eq_true_iff_two_mul_ge.mp h
  have hl := x.isLt
  have hn : (-x).toNat = 2 ^ 64 - x.toNat := by rw [BitVec.toNat_neg]; omega
  have h' := @toInt_neg_of_toNat_le (-x) (by omega)
  rw [BitVec.neg_neg] at h'
  exact ⟨by omega, by omega, h'⟩

theorem toInt_signExtendU64 (a : BitVec 64) : (signExtendU64 a).toInt = a.toInt := by
  have := toInt_bounds64 a
  rw [signExtendU64, BitVec.signExtend, BitVec.toInt_ofInt]
  exact bmod128_of_bounds (by omega) (by omega)

theorem toInt_setWidth_128 (b : BitVec 64) : (b.setWidth 128).toInt = b.toNat := by
  have := b.isLt
  rw [BitVec.toInt_eq_toNat_cond, BitVec.toNat_setWidth, Nat.mod_eq_of_lt (by omega)]
  split <;> omega

theorem Int.shiftRight_64 (z : Int) : z >>> (64 : Nat) = z / 2 ^ 64 := by
  cases z with
  | ofNat n =>
    show Int.ofNat (n >>> 64) = _
    simp only [Nat.shiftRight_eq_div_pow, Int.ofNat_eq_coe]; omega
  | negSucc n =>
    show Int.negSucc (n >>> 64) = _
    simp only [Nat.shiftRight_eq_div_pow, Int.negSucc_eq]; omega

/-- The high half of a 128-bit value, shifted arithmetically and cut to 64 bits, is its
    signed reading divided by `2^64`, rounded down. -/
theorem toInt_sshiftRight_setWidth (p : BitVec 128) :
    ((p.sshiftRight 64).setWidth 64).toInt = p.toInt / 2 ^ 64 := by
  have hp : -2 ^ 127 ≤ p.toInt ∧ p.toInt < 2 ^ 127 := by
    rw [BitVec.toInt_eq_toNat_cond]; have := p.isLt; split <;> omega
  have : (p.sshiftRight 64).setWidth 64 = BitVec.ofInt 64 (p.toInt / 2 ^ 64) := by
    apply BitVec.eq_of_toNat_eq
    rw [BitVec.sshiftRight, Int.shiftRight_64, BitVec.toNat_setWidth, BitVec.toNat_ofInt,
      BitVec.toNat_ofInt]
    omega
  rw [this, BitVec.toInt_ofInt]
  exact bmod64_of_bounds (by omega) (by omega)

theorem toNat_ushiftRight_setWidth (p : BitVec 128) :
    ((p >>> 64).setWidth 64).toNat = p.toNat / 2 ^ 64 := by
  have := p.isLt
  rw [BitVec.toNat_setWidth, BitVec.toNat_ushiftRight, Nat.shiftRight_eq_div_pow]
  omega

/-- A 64-bit product's low half, from any integers congruent to its factors. -/
theorem toNat_mul_emod (a b : BitVec 64) {x y : Int} (hx : x % 2 ^ 64 = a.toNat)
    (hy : y % 2 ^ 64 = b.toNat) : ((a * b).toNat : Int) = x * y % 2 ^ 64 := by
  rw [BitVec.toNat_mul, Int.mul_emod, hx, hy]
  omega

/-! ## Ring facts of `BitVec` negation -/

theorem neg_bmod_bmod (z : Int) (m : Nat) : (-(z.bmod m)).bmod m = (-z).bmod m := by
  rw [← Int.zero_sub, Int.sub_bmod_bmod, Int.zero_sub]

theorem bv_neg_mul {w : Nat} (x y : BitVec w) : -x * y = -(x * y) := by
  apply BitVec.eq_of_toInt_eq
  rw [BitVec.toInt_mul, BitVec.toInt_neg, BitVec.toInt_neg, BitVec.toInt_mul, Int.bmod_mul_bmod,
    neg_bmod_bmod, Int.neg_mul]

theorem bv_mul_neg {w : Nat} (x y : BitVec w) : x * -y = -(x * y) := by
  rw [BitVec.mul_comm, bv_neg_mul, BitVec.mul_comm]

theorem bv_neg_add {w : Nat} (x y : BitVec w) : -(x + y) = -x + -y := by
  apply BitVec.eq_of_toInt_eq
  rw [BitVec.toInt_neg, BitVec.toInt_add, BitVec.toInt_add, BitVec.toInt_neg, BitVec.toInt_neg,
    neg_bmod_bmod, Int.bmod_add_bmod_congr, Int.add_bmod_bmod, Int.neg_add]

theorem udiv_mul_add_umod {w : Nat} (x y : BitVec w) : x.udiv y * y + x % y = x := by
  apply BitVec.eq_of_toNat_eq
  have h : x.toNat / y.toNat * y.toNat + x.toNat % y.toNat = x.toNat := by
    rw [Nat.mul_comm]; exact Nat.div_add_mod _ _
  have hx := x.isLt
  rw [BitVec.toNat_add, BitVec.toNat_mul, BitVec.toNat_umod, BitVec.udiv_eq, BitVec.toNat_udiv,
    Nat.mod_eq_of_lt (show x.toNat / y.toNat * y.toNat < 2 ^ w by omega), h, Nat.mod_eq_of_lt hx]

/-- `sdiv` and `srem` of the same operands rebuild the dividend, modulo `2^w`: in each sign
    case they are the unsigned pair of the magnitudes, negated. -/
theorem sdiv_mul_add_srem {w : Nat} (x y : BitVec w) : x.sdiv y * y + x.srem y = x := by
  rw [BitVec.sdiv_eq, BitVec.srem_eq]
  cases x.msb <;> cases y.msb <;> dsimp only
  · exact udiv_mul_add_umod x y
  · rw [bv_neg_mul, ← bv_mul_neg, udiv_mul_add_umod]
  · rw [bv_neg_mul, ← bv_neg_add, udiv_mul_add_umod, BitVec.neg_neg]
  · have h : (-x).udiv (-y) * y = -((-x).udiv (-y) * -y) := by rw [bv_mul_neg, BitVec.neg_neg]
    rw [h, ← bv_neg_add, udiv_mul_add_umod, BitVec.neg_neg]

/-- The signed remainder is smaller than the divisor in magnitude, and is zero or of the
    dividend's sign. -/
theorem srem_bounds (a b : BitVec 64) (hb : b ≠ 0) :
    (a.srem b).toInt.natAbs < b.toInt.natAbs ∧
      ((a.srem b).toInt = 0 ∨ ((a.srem b).toInt < 0 ↔ a.toInt < 0)) := by
  have hb0 : 0 < b.toNat := by
    have : b.toNat ≠ 0 := fun h => hb (BitVec.eq_of_toNat_eq h)
    omega
  rw [BitVec.srem_eq]
  cases hma : a.msb <;> cases hmb : b.msb <;> dsimp only
  · have ha := toNat_lt_of_msb_false hma
    have hb' := toNat_lt_of_msb_false hmb
    have hr := Nat.mod_lt a.toNat hb0
    rw [toInt_of_toNat_lt (by rw [BitVec.toNat_umod]; omega), BitVec.toNat_umod,
      toInt_of_toNat_lt ha, toInt_of_toNat_lt hb']
    omega
  · have ha := toNat_lt_of_msb_false hma
    obtain ⟨hb1, hb2, hb'⟩ := toInt_of_msb_true hmb
    have hr := Nat.mod_lt a.toNat hb2
    rw [toInt_of_toNat_lt (by rw [BitVec.toNat_umod]; omega), BitVec.toNat_umod,
      toInt_of_toNat_lt ha, hb']
    omega
  · obtain ⟨ha1, ha2, ha'⟩ := toInt_of_msb_true hma
    have hb' := toNat_lt_of_msb_false hmb
    have hr := Nat.mod_lt (-a).toNat hb0
    rw [toInt_neg_of_toNat_le (by rw [BitVec.toNat_umod]; omega), BitVec.toNat_umod,
      ha', toInt_of_toNat_lt hb']
    omega
  · obtain ⟨ha1, ha2, ha'⟩ := toInt_of_msb_true hma
    obtain ⟨hb1, hb2, hb'⟩ := toInt_of_msb_true hmb
    have hr := Nat.mod_lt (-a).toNat hb2
    rw [toInt_neg_of_toNat_le (by rw [BitVec.toNat_umod]; omega), BitVec.toNat_umod, ha', hb']
    omega

/-! ## Truncating division -/

theorem toNat_udiv_eq (x y : BitVec 64) : (x.udiv y).toNat = x.toNat / y.toNat := by
  rw [BitVec.udiv_eq, BitVec.toNat_udiv]

theorem Int.neg_ofNat_tmod (m n : Nat) : (-(m : Int)).tmod n = -((m % n : Nat) : Int) := by
  cases m with
  | zero => simp
  | succ k => rfl

/-- A negative `x` is `i64::MIN` exactly when its negation's magnitude is `2^63`. -/
theorem eq_intMin_iff {x : BitVec 64} (h : x.msb = true) :
    x = BitVec.intMin 64 ↔ (-x).toNat = 2 ^ 63 := by
  have hx := BitVec.msb_eq_true_iff_two_mul_ge.mp h
  have hl := x.isLt
  rw [BitVec.toNat_neg, BitVec.toNat_eq, show (BitVec.intMin 64).toNat = 2 ^ 63 from rfl]
  omega

theorem eq_neg_one_iff (x : BitVec 64) : x = -1 ↔ (-x).toNat = 1 := by
  have hl := x.isLt
  rw [BitVec.toNat_neg, BitVec.toNat_eq, show (-1 : BitVec 64).toNat = 2 ^ 64 - 1 from rfl]
  omega

/-- `sdiv` reads as the integer quotient truncated toward zero, but for `i64::MIN / -1`: in
    each sign case it is the quotient of the magnitudes, negated, and that quotient fits in
    63 bits unless it is `2^63 / 1`. -/
theorem toInt_sdiv (a b : BitVec 64) (hx : ¬ (a = BitVec.intMin 64 ∧ b = -1)) :
    (a.sdiv b).toInt = a.toInt.tdiv b.toInt := by
  rw [BitVec.sdiv_eq]
  cases hma : a.msb <;> cases hmb : b.msb <;> dsimp only
  · have ha := toNat_lt_of_msb_false hma
    rw [toInt_of_toNat_lt (by rw [toNat_udiv_eq]; exact Nat.lt_of_le_of_lt (Nat.div_le_self _ _) ha),
      toNat_udiv_eq, toInt_of_toNat_lt ha, toInt_of_toNat_lt (toNat_lt_of_msb_false hmb)]
    rfl
  · have ha := toNat_lt_of_msb_false hma
    obtain ⟨-, -, hb'⟩ := toInt_of_msb_true hmb
    rw [toInt_neg_of_toNat_le
        (by rw [toNat_udiv_eq]; exact Nat.le_of_lt (Nat.lt_of_le_of_lt (Nat.div_le_self _ _) ha)),
      toNat_udiv_eq, toInt_of_toNat_lt ha, hb', Int.tdiv_neg]
    rfl
  · obtain ⟨ha1, -, ha'⟩ := toInt_of_msb_true hma
    rw [toInt_neg_of_toNat_le (by rw [toNat_udiv_eq]; exact Nat.le_trans (Nat.div_le_self _ _) ha1),
      toNat_udiv_eq, ha', toInt_of_toNat_lt (toNat_lt_of_msb_false hmb), Int.neg_tdiv]
    rfl
  · obtain ⟨ha1, -, ha'⟩ := toInt_of_msb_true hma
    obtain ⟨-, hb2, hb'⟩ := toInt_of_msb_true hmb
    have hq : (-a).toNat / (-b).toNat < 2 ^ 63 := by
      rw [eq_intMin_iff hma, eq_neg_one_iff] at hx
      rcases Nat.lt_or_ge (-b).toNat 2 with h1 | h2
      · rw [show (-b).toNat = 1 by omega, Nat.div_one]; omega
      · exact Nat.lt_of_le_of_lt (Nat.div_le_div_left h2 (by decide)) (by omega)
    rw [toInt_of_toNat_lt (by rwa [toNat_udiv_eq]), toNat_udiv_eq, ha', hb', Int.neg_tdiv_neg]
    rfl

/-- `srem` reads as the remainder of the integer division truncated toward zero. -/
theorem toInt_srem (a b : BitVec 64) : (a.srem b).toInt = a.toInt.tmod b.toInt := by
  rw [BitVec.srem_eq]
  cases hma : a.msb <;> cases hmb : b.msb <;> dsimp only
  · have ha := toNat_lt_of_msb_false hma
    rw [toInt_of_toNat_lt (by rw [BitVec.toNat_umod]; exact Nat.lt_of_le_of_lt (Nat.mod_le _ _) ha),
      BitVec.toNat_umod, toInt_of_toNat_lt ha, toInt_of_toNat_lt (toNat_lt_of_msb_false hmb)]
    rfl
  · have ha := toNat_lt_of_msb_false hma
    obtain ⟨-, -, hb'⟩ := toInt_of_msb_true hmb
    rw [toInt_of_toNat_lt (by rw [BitVec.toNat_umod]; exact Nat.lt_of_le_of_lt (Nat.mod_le _ _) ha),
      BitVec.toNat_umod, toInt_of_toNat_lt ha, hb', Int.tmod_neg]
    rfl
  · obtain ⟨ha1, -, ha'⟩ := toInt_of_msb_true hma
    rw [toInt_neg_of_toNat_le (by rw [BitVec.toNat_umod]; exact Nat.le_trans (Nat.mod_le _ _) ha1),
      BitVec.toNat_umod, ha', toInt_of_toNat_lt (toNat_lt_of_msb_false hmb), Int.neg_ofNat_tmod]
  · obtain ⟨ha1, -, ha'⟩ := toInt_of_msb_true hma
    obtain ⟨-, -, hb'⟩ := toInt_of_msb_true hmb
    rw [toInt_neg_of_toNat_le (by rw [BitVec.toNat_umod]; exact Nat.le_trans (Nat.mod_le _ _) ha1),
      BitVec.toNat_umod, ha', hb', Int.tmod_neg, Int.neg_ofNat_tmod]

/-! ## Multiplication -/

/-- What the four multiplications write, `lo`, `hi`, `hu` and `hsu`, from `a` and `b`: `MUL`
    the low half and the others the high half of the product, read unsigned, signed, or
    signed by unsigned; and the 128-bit products the high halves are taken from are the
    exact products. -/
structure MulHalves (a b lo hi hu hsu : BitVec 64) : Prop where
  mulhu : 2 ^ 64 * hu.toNat + lo.toNat = a.toNat * b.toNat
  mulh : 2 ^ 64 * hi.toInt + lo.toNat = a.toInt * b.toInt
  mulhsu : 2 ^ 64 * hsu.toInt + lo.toNat = a.toInt * b.toNat
  mulhuExact : (a.setWidth 128 * b.setWidth 128).toNat = a.toNat * b.toNat
  mulhExact : (signExtendU64 a * signExtendU64 b).toInt = a.toInt * b.toInt
  mulhsuExact : (signExtendU64 a * b.setWidth 128).toInt = a.toInt * b.toNat

theorem mulhu_product_exact (a b : BitVec 64) :
    (a.setWidth 128 * b.setWidth 128).toNat = a.toNat * b.toNat := by
  have h : a.toNat * b.toNat < 2 ^ 128 :=
    Nat.lt_of_lt_of_le (Nat.mul_lt_mul_of_lt_of_le a.isLt (Nat.le_of_lt b.isLt) (by decide)) (by decide)
  have ha : a.toNat % 2 ^ 128 = a.toNat := Nat.mod_eq_of_lt (by omega)
  have hb : b.toNat % 2 ^ 128 = b.toNat := Nat.mod_eq_of_lt (by omega)
  rw [BitVec.toNat_mul, BitVec.toNat_setWidth, BitVec.toNat_setWidth, ha, hb, Nat.mod_eq_of_lt h]

theorem mulh_product_exact (a b : BitVec 64) :
    (signExtendU64 a * signExtendU64 b).toInt = a.toInt * b.toInt := by
  have h : (a.toInt * b.toInt).natAbs ≤ 2 ^ 126 := by
    rw [Int.natAbs_mul]
    exact Nat.le_trans (Nat.mul_le_mul (natAbs_toInt_le a) (natAbs_toInt_le b)) (by decide)
  rw [BitVec.toInt_mul, toInt_signExtendU64, toInt_signExtendU64]
  exact bmod128_of_bounds (by omega) (by omega)

/-- `-2^63 * (2^64 - 1)` is the extreme `MULHSU` product, and it still fits in `i128`. -/
theorem mulhsu_product_exact (a b : BitVec 64) :
    (signExtendU64 a * b.setWidth 128).toInt = a.toInt * b.toNat := by
  have h : (a.toInt * b.toNat).natAbs < 2 ^ 127 := by
    rw [Int.natAbs_mul, Int.natAbs_ofNat]
    exact Nat.lt_of_le_of_lt (Nat.mul_le_mul (natAbs_toInt_le a) (Nat.le_pred_of_lt b.isLt))
      (by decide)
  rw [BitVec.toInt_mul, toInt_signExtendU64, toInt_setWidth_128]
  exact bmod128_of_bounds (by omega) (by omega)

theorem mulHalves_closures (a b : BitVec 64) :
    MulHalves a b (mulFn a b) (mulhFn a b) (mulhuFn a b) (mulhsuFn a b) where
  mulhu := by
    rw [mulhuFn, toNat_ushiftRight_setWidth, mulhu_product_exact, mulFn, BitVec.toNat_mul]
    exact Nat.div_add_mod _ _
  mulh := by
    rw [mulhFn, toInt_sshiftRight_setWidth, mulh_product_exact, mulFn,
      toNat_mul_emod a b (toInt_emod64 a) (toInt_emod64 b)]
    exact Int.ediv_add_emod _ _
  mulhsu := by
    rw [mulhsuFn, toInt_sshiftRight_setWidth, mulhsu_product_exact, mulFn,
      toNat_mul_emod a b (toInt_emod64 a)
        (show (b.toNat : Int) % 2 ^ 64 = b.toNat by have := b.isLt; omega)]
    exact Int.ediv_add_emod _ _
  mulhuExact := mulhu_product_exact a b
  mulhExact := mulh_product_exact a b
  mulhsuExact := mulhsu_product_exact a b

/-- `MUL`, `MULH`, `MULHU` and `MULHSU` write to `rd` the low half and the three high halves
    of the product of `x[rs1]` and `x[rs2]`. -/
theorem mul_high_halves_exact {σ : Type} (e : InstructionExecutor σ) (d : RType) :
    ∃ lo hi hu hsu : BitVec 64,
      e.processMul d = .ret (.ok false, e.writeRegister d.rd lo) ∧
      e.processMulh d = .ret (.ok false, e.writeRegister d.rd hi) ∧
      e.processMulhu d = .ret (.ok false, e.writeRegister d.rd hu) ∧
      e.processMulhsu d = .ret (.ok false, e.writeRegister d.rd hsu) ∧
      MulHalves (e.readRegister d.rs1) (e.readRegister d.rs2) lo hi hu hsu :=
  ⟨_, _, _, _, rfl, rfl, rfl, rfl, mulHalves_closures _ _⟩

/-! ## Division -/

/-- The zero test comes first, so no closure reaches its primitive's panic. -/
theorem div_fns_eq (a b : BitVec 64) :
    divFn a b = .ret (if b = 0 then 0xffffffffffffffff else a.sdiv b) ∧
      divuFn a b = .ret (if b = 0 then 0xffffffffffffffff else a / b) ∧
      remFn a b = .ret (if b = 0 then a else a.srem b) ∧
      remuFn a b = .ret (if b = 0 then a else a % b) := by
  by_cases hb : b = 0 <;>
    simp only [divFn, divuFn, remFn, remuFn, i64WrappingDiv, i64WrappingRem, u64Div,
      u64Rem, hb, if_true, if_false, and_self]

/-- The laws of a quotient and remainder pair: `qu`, `ru` unsigned, `q`, `r` signed. The
    signed pair rebuilds `a` modulo `2^64`, and exactly over the integers but for
    `i64::MIN / -1`; `r` is below `b` in magnitude and zero or of `a`'s sign; and `q`, `r` are
    the integer quotient truncated toward zero and its remainder. -/
structure DivRem (a b q qu r ru : BitVec 64) : Prop where
  unsigned : qu.toNat * b.toNat + ru.toNat = a.toNat
  unsignedLt : ru.toNat < b.toNat
  signed : q * b + r = a
  signedExact : ¬ (a = BitVec.intMin 64 ∧ b = -1) → q.toInt * b.toInt + r.toInt = a.toInt
  signedLt : r.toInt.natAbs < b.toInt.natAbs
  sign : r = 0 ∨ (r.toInt < 0 ↔ a.toInt < 0)
  truncates : ¬ (a = BitVec.intMin 64 ∧ b = -1) → q.toInt = a.toInt.tdiv b.toInt
  remainder : r.toInt = a.toInt.tmod b.toInt

theorem divRem_of_ne_zero (a b : BitVec 64) (hb : b ≠ 0) :
    DivRem a b (a.sdiv b) (a / b) (a.srem b) (a % b) := by
  have hb0 : 0 < b.toNat := by
    have : b.toNat ≠ 0 := fun h => hb (BitVec.eq_of_toNat_eq h)
    omega
  obtain ⟨hlt, hsign⟩ := srem_bounds a b hb
  refine ⟨?_, ?_, sdiv_mul_add_srem a b, fun hx => ?_, hlt, ?_, toInt_sdiv a b, toInt_srem a b⟩
  · rw [BitVec.toNat_udiv, BitVec.toNat_umod, Nat.mul_comm]
    exact Nat.div_add_mod _ _
  · rw [BitVec.toNat_umod]
    exact Nat.mod_lt _ hb0
  · rw [toInt_sdiv a b hx, toInt_srem]
    exact Int.tdiv_add_tmod' _ _
  · rcases hsign with h | h
    · exact .inl (BitVec.eq_of_toInt_eq (by rw [h]; rfl))
    · exact .inr h

/-- `DIV`, `DIVU`, `REM` and `REMU` return without a panic for every pair of `x[rs1]` and
    `x[rs2]`, zero divisors included, and write to `rd` a quotient and remainder pair with
    the laws of `DivRem` when `x[rs2] ≠ 0`; `i64::MIN / -1` writes `i64::MIN` and `0`. -/
theorem div_rem_laws {σ : Type} (e : InstructionExecutor σ) (d : RType) :
    ∃ q qu r ru : BitVec 64,
      e.processDiv d = .ret (.ok false, e.writeRegister d.rd q) ∧
      e.processDivu d = .ret (.ok false, e.writeRegister d.rd qu) ∧
      e.processRem d = .ret (.ok false, e.writeRegister d.rd r) ∧
      e.processRemu d = .ret (.ok false, e.writeRegister d.rd ru) ∧
      (e.readRegister d.rs2 ≠ 0 → DivRem (e.readRegister d.rs1) (e.readRegister d.rs2) q qu r ru) ∧
      (e.readRegister d.rs1 = BitVec.intMin 64 → e.readRegister d.rs2 = -1 →
        q = BitVec.intMin 64 ∧ r = 0) := by
  obtain ⟨h1, h2, h3, h4⟩ := div_fns_eq (e.readRegister d.rs1) (e.readRegister d.rs2)
  refine ⟨_, _, _, _, InstructionExecutor.aluOpRegFnM_ret h1, InstructionExecutor.aluOpRegFnM_ret h2,
    InstructionExecutor.aluOpRegFnM_ret h3, InstructionExecutor.aluOpRegFnM_ret h4, fun hb => ?_,
    fun ha hb => ?_⟩
  · simp only [if_neg hb]
    exact divRem_of_ne_zero _ _ hb
  · rw [ha, hb]
    decide

end ZkvmRv64
