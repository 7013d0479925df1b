import Mathlib.Data.Rat.Floor
import TurtleLogo.Proofs.Finite

/-! # Numbers as quantities

    Finite numbers, whole and real, stand for rationals, and what is done with
    them is about these.

    * Two numbers are in the order of their quantities (`Number.lt_iff`,
      `Number.le_iff`).
    * Rounding does not take a quotient past a number, from above
      (`magnitude_ofScaled_le_of_le`) or from below (`le_magnitude_ofScaled`), so
      what a number can hold is not changed (`magnitude_ofScaled_of_eq`).
    * Numbers of opposite signs come closer to zero (`magnitude_add_opposite`). -/

namespace TurtleLogo

/-! ## Rounding -/

namespace Binary64

/-- A number of the other sign has the quantity of the other sign. -/
theorem value_neg (x : Binary64) : x.neg.value = -x.value := by
  rw [value_eq, value_eq, magnitude_neg]
  cases x with
  | finite s m q h => cases s <;> simp [neg, isNeg]
  | infinite s => cases s <;> simp [neg, isNeg, magnitude]
  | nan k => simp [neg, isNeg, magnitude, undefined]

theorem magnitude_abs (x : Binary64) : x.abs.magnitude = x.magnitude := by
  cases x <;> rfl

/-- The absolute value has the absolute quantity. -/
theorem value_abs (x : Binary64) : x.abs.value = |x.value| := by
  rw [value_eq, abs_value, magnitude_abs]
  cases x <;> rfl

/-- A number that is not negative stands for its magnitude. -/
theorem value_of_isNeg {x : Binary64} (h : x.isNeg = false) : x.value = x.magnitude := by
  rw [value_eq, h]
  rfl

section

variable {a d : ℕ} {e : ℤ} (hd : 0 < d) {y : Binary64} (hy : y.isFinite = true)
include hd hy

/-- A quotient is not rounded past a number below it. -/
theorem le_magnitude_ofScaled (h : y.magnitude ≤ (a : ℚ) / d * 2 ^ e) {neg : Bool}
    (hfinite : (ofScaled neg a d e).isFinite = true) :
    y.magnitude ≤ (ofScaled neg a d e).magnitude := by
  rcases Nat.eq_zero_or_pos a with rfl | ha
  · rw [magnitude_ofScaled_zero]
    simpa using h
  rw [magnitude_ofScaled ha hfinite]
  cases y with
  | finite t n r hr =>
      change (n : ℚ) * 2 ^ r ≤ _ at h
      show (n : ℚ) * 2 ^ r ≤ _
      rcases le_or_gt (unitExponent a d e) r with hunit | hunit
      · -- in units of the last bit of the quotient, the number is whole
        obtain ⟨k, hk⟩ : ∃ k : ℕ, r = unitExponent a d e + k :=
          ⟨(r - unitExponent a d e).toNat, by omega⟩
        have hvalue : (n : ℚ) * 2 ^ r = ((n * 2 ^ k : ℕ) : ℚ) * 2 ^ unitExponent a d e := by
          rw [hk, zpow_add₀ (by norm_num), zpow_natCast]
          push_cast
          ring
        rw [hvalue] at h ⊢
        have hdigits : n * 2 ^ k ≤ digits a d e := by
          refine le_roundHalfEven (shifted_pos hd _) ?_
          have hpos : (0 : ℚ) < ((d <<< (unitExponent a d e - e).toNat : ℕ) : ℚ) :=
            Nat.cast_pos.2 (shifted_pos hd _)
          rw [← le_div_iff₀ (zpow_pos (by norm_num) _), ← shifted_eq, le_div_iff₀ hpos] at h
          exact_mod_cast h
        gcongr
      · -- otherwise all its digits are below those of the quotient
        have hfull : (fullWidth : ℚ) ≤ digits a d e := by
          exact_mod_cast le_digits ha hd (lt_of_le_of_lt hr.2.1 hunit)
        have hn : (n : ℚ) ≤ 2 * fullWidth := by exact_mod_cast hr.1.le
        calc (n : ℚ) * 2 ^ r ≤ 2 * fullWidth * 2 ^ r := by gcongr
          _ = fullWidth * 2 ^ (r + 1) := by
              rw [zpow_add₀ (by norm_num), zpow_one]
              ring
          _ ≤ digits a d e * 2 ^ unitExponent a d e := by
              gcongr
              · norm_num
              · omega
  | _ => cases hy

/-- The quantity of a number is not changed by rounding. -/
theorem magnitude_ofScaled_of_eq (h : (a : ℚ) / d * 2 ^ e = y.magnitude) (neg : Bool) :
    (ofScaled neg a d e).isFinite = true ∧ (ofScaled neg a d e).magnitude = y.magnitude := by
  obtain ⟨hfinite, hle⟩ := magnitude_ofScaled_le_of_le hd hy h.le neg
  exact ⟨hfinite, hle.antisymm (le_magnitude_ofScaled hd hy h.ge hfinite)⟩

end

/-- A power of two is a number. -/
theorem exists_power {k : ℤ} (hlow : -1022 ≤ k) (hhigh : k ≤ 1023) :
    ∃ y : Binary64, y.isFinite = true ∧ y.magnitude = 2 ^ k := by
  refine ⟨.finite false fullWidth (k - 52) ⟨by decide, by omega, by omega, .inl le_rfl⟩, rfl, ?_⟩
  show ((fullWidth : ℕ) : ℚ) * 2 ^ (k - 52) = 2 ^ k
  rw [zpow_sub₀ (by norm_num)]
  norm_num
  ring

/-- What is between two powers of two stays between them. -/
theorem magnitude_ofScaled_mem {a d : ℕ} {e j k : ℤ} (hd : 0 < d) (hj : -1022 ≤ j)
    (hk : k ≤ 1023) (hlow : (2 : ℚ) ^ j ≤ (a : ℚ) / d * 2 ^ e)
    (hhigh : (a : ℚ) / d * 2 ^ e ≤ 2 ^ k) (neg : Bool) :
    (ofScaled neg a d e).isFinite = true ∧ (2 : ℚ) ^ j ≤ (ofScaled neg a d e).magnitude
      ∧ (ofScaled neg a d e).magnitude ≤ 2 ^ k := by
  have hjk : j ≤ k := (zpow_le_zpow_iff_right₀ (by norm_num)).1 (hlow.trans hhigh)
  obtain ⟨y, hy, hyk⟩ := exists_power (hj.trans hjk) hk
  obtain ⟨z, hz, hzj⟩ := exists_power hj (hjk.trans hk)
  rw [← hyk] at hhigh ⊢
  rw [← hzj] at hlow ⊢
  obtain ⟨hfinite, hle⟩ := magnitude_ofScaled_le_of_le hd hy hhigh neg
  exact ⟨hfinite, le_magnitude_ofScaled hd hz hlow hfinite, hle⟩

/-! ## Sums and products -/

section

variable {x y : Binary64} (hx : x.isFinite = true) (hy : y.isFinite = true)
include hx hy

/-- A number on the other side of zero, and at most twice as far from it, is not
    farther when the two are added. -/
theorem magnitude_add_opposite (hsign : x.isNeg = !y.isNeg)
    (hle : x.magnitude ≤ 2 * y.magnitude) :
    (add x y).isFinite = true ∧ (add x y).magnitude ≤ y.magnitude := by
  obtain ⟨neg, a, e, hsum, hadd⟩ := add_eq hx hy
  have hx0 := x.magnitude_nonneg
  rw [hadd]
  refine magnitude_ofScaled_le_of_le Nat.one_pos hy ?_ neg
  rw [Nat.cast_one, div_one, hsum, value_eq, value_eq, hsign, abs_le]
  cases y.isNeg with
  | true =>
      simp only [Bool.not_true, Bool.false_eq_true, if_false, if_true]
      constructor <;> linarith
  | false =>
      simp only [Bool.not_false, Bool.false_eq_true, if_false, if_true]
      constructor <;> linarith

/-- The remainder by a number is not farther from zero. -/
theorem magnitude_mod_le (hzero : y.isZero = false) :
    (mod x y).isFinite = true ∧ (mod x y).magnitude ≤ y.magnitude := by
  obtain ⟨hfinite, hle⟩ := rem_spec hx hy hzero
  have hy0 := y.magnitude_nonneg
  rcases mod_cases hx hy hzero with hmod | ⟨hmod, -⟩ | ⟨hmod, hsign⟩
  · have hnothing : (zero y.isNeg).magnitude = 0 := by simp [zero, magnitude]
    rw [hmod, hnothing]
    exact ⟨rfl, hy0⟩
  · rw [hmod]
    exact ⟨hfinite, hle⟩
  · rw [hmod]
    exact magnitude_add_opposite hfinite hy hsign (by linarith)

omit hx in
/-- A number that is not huge can be doubled. -/
theorem exists_double (hsmall : y.magnitude < 2 ^ (969 : ℤ)) :
    ∃ z : Binary64, z.isFinite = true ∧ z.magnitude = 2 * y.magnitude := by
  cases y with
  | finite t n r hr =>
      change (n : ℚ) * 2 ^ r < 2 ^ (969 : ℤ) at hsmall
      obtain ⟨hlarge, hlow, -, hwidth⟩ := id hr
      rcases Nat.lt_or_ge n fullWidth with hn | hn
      · -- among the least numbers there is room for more digits
        have hr' : r = -1074 := hwidth.resolve_left (not_le.2 hn)
        refine ⟨.finite t (2 * n) r ⟨by omega, hlow, by omega, .inr hr'⟩, rfl, ?_⟩
        show ((2 * n : ℕ) : ℚ) * 2 ^ r = 2 * (n * 2 ^ r)
        push_cast
        ring
      · have hexp : (2 : ℚ) ^ (52 + r) < 2 ^ (969 : ℤ) := by
          refine lt_of_le_of_lt ?_ hsmall
          rw [zpow_add₀ (by norm_num)]
          gcongr
          exact_mod_cast hn
        rw [zpow_lt_zpow_iff_right₀ (by norm_num)] at hexp
        refine ⟨.finite t n (r + 1) ⟨hlarge, by omega, by omega, .inl hn⟩, rfl, ?_⟩
        show (n : ℚ) * 2 ^ (r + 1) = 2 * (n * 2 ^ r)
        rw [zpow_add₀ (by norm_num), zpow_one]
        ring
  | _ => cases hy

end

/-- A positive real between two powers of two. -/
structure Within (j k : ℤ) (x : Binary64) : Prop where
  finite : x.isFinite = true
  sign : x.isNeg = false
  low : (2 : ℚ) ^ j ≤ x.magnitude
  high : x.magnitude ≤ 2 ^ k

namespace Within

variable {j k : ℤ} {x y : Binary64}

theorem value (h : x.Within j k) : x.value = x.magnitude := value_of_isNeg h.sign

theorem positive (h : x.Within j k) : 0 < x.magnitude :=
  (zpow_pos (by norm_num) j).trans_le h.low

/-- A positive real between powers of two is not zero. -/
theorem isZero (h : x.Within j k) : x.isZero = false := by
  rw [← Bool.not_eq_true, isZero_iff h.finite]
  exact h.positive.ne'

/-- A quotient between two powers of two is rounded to a number between them. -/
theorem ofScaled {a d : ℕ} {e : ℤ} (hd : 0 < d) (hj : -1022 ≤ j) (hk : k ≤ 1023)
    (hlow : (2 : ℚ) ^ j ≤ (a : ℚ) / d * 2 ^ e) (hhigh : (a : ℚ) / d * 2 ^ e ≤ 2 ^ k) :
    (ofScaled false a d e).Within j k := by
  obtain ⟨hfinite, hlow, hhigh⟩ := magnitude_ofScaled_mem hd hj hk hlow hhigh false
  exact ⟨hfinite, isNeg_ofScaled _ _ _ _, hlow, hhigh⟩

/-- A ratio between two powers of two is rounded to a real between them. -/
theorem ofRatio {m n : ℤ} (hm : 0 ≤ m) (hn : 0 < n) (hj : -1022 ≤ j) (hk : k ≤ 1023)
    (hlow : (2 : ℚ) ^ j ≤ (m : ℚ) / n) (hhigh : (m : ℚ) / n ≤ 2 ^ k) :
    (ofRatio m n).Within j k := by
  have hcast : ((m.natAbs : ℕ) : ℚ) / (n.natAbs : ℕ) * 2 ^ (0 : ℤ) = m / n := by
    rw [Nat.cast_natAbs, Nat.cast_natAbs, abs_of_nonneg hm, abs_of_pos hn, zpow_zero, mul_one]
  rw [Binary64.ofRatio, decide_eq_false (not_lt.2 hm), decide_eq_false (not_lt.2 hn.le)]
  exact ofScaled (Int.natAbs_pos.2 hn.ne') hj hk (hlow.trans_eq hcast.symm) (hcast.trans_le hhigh)

/-- A whole number between two powers of two is rounded to a real between them. -/
theorem ofInt {n : ℤ} (hn : 0 ≤ n) (hj : -1022 ≤ j) (hk : k ≤ 1023) (hlow : (2 : ℚ) ^ j ≤ n)
    (hhigh : (n : ℚ) ≤ 2 ^ k) : (Binary64.ofInt n).Within j k := by
  have hcast : ((n.natAbs : ℕ) : ℚ) / (1 : ℕ) * 2 ^ (0 : ℤ) = n := by
    rw [Nat.cast_natAbs, abs_of_nonneg hn, Nat.cast_one, div_one, zpow_zero, mul_one]
  rw [Binary64.ofInt, decide_eq_false (not_lt.2 hn)]
  exact ofScaled Nat.one_pos hj hk (hlow.trans_eq hcast.symm) (hcast.trans_le hhigh)

/-- A product is between the products of the powers. -/
theorem mul {j' k' : ℤ} (hx : x.Within j k) (hy : y.Within j' k') (hj : -1022 ≤ j + j')
    (hk : k + k' ≤ 1023) : (x.mul y).Within (j + j') (k + k') := by
  obtain ⟨a, e, hvalue, hmul⟩ := mul_eq hx.finite hy.finite
  rw [hmul, hx.sign, hy.sign]
  refine ofScaled Nat.one_pos hj hk ?_ ?_
  · rw [Nat.cast_one, div_one, hvalue, zpow_add₀ (by norm_num)]
    exact mul_le_mul hx.low hy.low (zpow_nonneg (by norm_num) _) hx.positive.le
  · rw [Nat.cast_one, div_one, hvalue, zpow_add₀ (by norm_num)]
    exact mul_le_mul hx.high hy.high hy.positive.le (zpow_nonneg (by norm_num) _)

/-- A quotient is between the quotients of the powers. -/
theorem div {j' k' : ℤ} (hx : x.Within j k) (hy : y.Within j' k') (hj : -1022 ≤ j - k')
    (hk : k - j' ≤ 1023) : (x.div y).Within (j - k') (k - j') := by
  obtain ⟨a, d, e, hd, hvalue, hdiv⟩ := div_eq hx.finite hy.finite hy.isZero
  rw [hdiv, hx.sign, hy.sign]
  refine ofScaled hd hj hk ?_ ?_
  · rw [hvalue, zpow_sub₀ (by norm_num)]
    exact div_le_div₀ hx.positive.le hx.low hy.positive hy.high
  · rw [hvalue, zpow_sub₀ (by norm_num)]
    exact div_le_div₀ (zpow_nonneg (by norm_num) _) hx.high (zpow_pos (by norm_num) _) hy.low

end Within

end Binary64

/-! ## Order -/

/-- Dyadic fractions are compared as quantities. -/
theorem Exact.compareDyadic_eq (n e k f : ℤ) :
    (compareDyadic n e k f = .lt ↔ (n : ℚ) * 2 ^ e < k * 2 ^ f)
      ∧ (compareDyadic n e k f = .eq ↔ (n : ℚ) * 2 ^ e = k * 2 ^ f) := by
  have hpow : (0 : ℚ) < 2 ^ min e f := zpow_pos (by norm_num) _
  have hpart : ∀ (i g : ℤ), ((i * (1 <<< (g - min e f).toNat : ℕ) : ℤ) : ℚ) * 2 ^ min e f
      = if min e f ≤ g then (i : ℚ) * 2 ^ g else i * 2 ^ min e f := by
    intro i g
    rw [Nat.one_shiftLeft]
    push_cast
    split
    · rw [mul_assoc, ← zpow_natCast, ← zpow_add₀ (by norm_num), Int.toNat_of_nonneg (by omega),
        sub_add_cancel]
    · rw [show (g - min e f).toNat = 0 by omega, pow_zero, mul_one]
  -- both sides are whole in units of the lower exponent
  have hleft := hpart n e
  have hright := hpart k f
  rw [if_pos (min_le_left e f)] at hleft
  rw [if_pos (min_le_right e f)] at hright
  have hshift : (e - f).toNat = (e - min e f).toNat ∧ (f - e).toNat = (f - min e f).toNat := by
    omega
  rw [compareDyadic, hshift.1, hshift.2, ← hleft, ← hright, compare_lt_iff_lt, compare_eq_iff_eq,
    mul_lt_mul_iff_of_pos_right hpow, mul_left_inj' hpow.ne', Int.cast_lt, Int.cast_inj]
  exact ⟨Iff.rfl, Iff.rfl⟩

namespace Number

/-- The quantity that a finite number stands for. -/
def value : Number → ℚ
  | .int n => n
  | .real x => x.value

/-- A finite number is exactly a dyadic fraction. -/
theorem exact_value {a : Number} (h : a.isFinite = true) :
    ∃ n e : ℤ, a.exact = .dyadic n e ∧ a.value = n * 2 ^ e := by
  cases a with
  | int n => exact ⟨n, 0, rfl, by rw [zpow_zero, mul_one]; rfl⟩
  | real x =>
      cases x with
      | finite s m q hq => exact ⟨_, _, rfl, rfl⟩
      | _ => cases h

section

variable {a b : Number} (ha : a.isFinite = true) (hb : b.isFinite = true)
include ha hb

/-- Finite numbers are compared by their quantities. -/
theorem lt_iff : lt a b = true ↔ a.value < b.value := by
  obtain ⟨n, e, hn, hvalue⟩ := exact_value ha
  obtain ⟨k, f, hk, hvalue'⟩ := exact_value hb
  rw [lt, compare?_eq, hn, hk, hvalue, hvalue', beq_iff_eq, Exact.compare?, Option.some_inj]
  exact (Exact.compareDyadic_eq n e k f).1

/-- Finite numbers are compared by their quantities where equality is included. -/
theorem le_iff : le a b = true ↔ a.value ≤ b.value := by
  have hlt := lt_iff ha hb
  obtain ⟨n, e, hn, hvalue⟩ := exact_value ha
  obtain ⟨k, f, hk, hvalue'⟩ := exact_value hb
  rw [le, Bool.or_eq_true, hlt, eq, compare?_eq, hn, hk, hvalue, hvalue', beq_iff_eq,
    Exact.compare?, Option.some_inj, (Exact.compareDyadic_eq n e k f).2, le_iff_lt_or_eq]

end

/-- A quotient by a real that is not zero is a quotient of reals. -/
theorem div_by_real {a : Number} {y : Binary64} (hy : y.isZero = false) :
    div a (.real y) = combine (fun _ _ => 0) Binary64.div a (.real y) := by
  have hzero : isZero (.real y) = false := hy
  cases a <;> simp only [div, hzero] <;> rfl

/-- The negation of a number stands for the quantity of the other sign. -/
theorem value_neg (a : Number) : a.neg.value = -a.value := by
  cases a with
  | int n => exact Int.cast_neg n
  | real x => exact x.value_neg

/-- The absolute value of a number stands for the absolute quantity. -/
theorem value_abs (a : Number) : a.abs.value = |a.value| := by
  cases a with
  | int n =>
      show (((n.natAbs : ℕ) : ℤ) : ℚ) = |(n : ℚ)|
      rw [Int.cast_natCast, Nat.cast_natAbs, Int.cast_abs]
  | real x => exact x.value_abs

/-- A number of the other sign is finite as well. -/
theorem isFinite_neg (a : Number) : a.neg.isFinite = a.isFinite := by
  cases a with
  | int n => rfl
  | real x => exact x.isFinite_neg

/-- The absolute value of a number is finite as the number is. -/
theorem isFinite_abs (a : Number) : a.abs.isFinite = a.isFinite := by
  cases a with
  | int n => rfl
  | real x => cases x <;> rfl

end Number

/-! ## Whole parts -/

/-- The whole part of a dyadic fraction is that of its quantity. -/
theorem Binary64.floorDyadic_eq (n e : ℤ) : floorDyadic n e = ⌊(n : ℚ) * 2 ^ e⌋ := by
  rw [floorDyadic]
  split
  · rename_i he
    obtain ⟨j, rfl⟩ := Int.eq_ofNat_of_zero_le he
    have hwhole : (n : ℚ) * 2 ^ (j : ℤ) = ((n * (2 ^ j : ℕ) : ℤ) : ℚ) := by
      push_cast
      rfl
    rw [Int.toNat_natCast, Nat.one_shiftLeft, hwhole, Int.floor_intCast]
  · rename_i he
    obtain ⟨j, hj⟩ : ∃ j : ℕ, e = -(j : ℤ) := ⟨(-e).toNat, by omega⟩
    subst hj
    rw [neg_neg, Int.toNat_natCast, Nat.one_shiftLeft,
      Int.fdiv_eq_ediv_of_nonneg _ (by positivity), zpow_neg, zpow_natCast, ← div_eq_mul_inv,
      ← Rat.floor_intCast_div_natCast]
    push_cast
    rfl

/-- The whole part of a finite number is that of its quantity. -/
theorem Number.floor_eq {a : Number} (h : a.isFinite = true) : a.floor = .ok ⌊a.value⌋ := by
  cases a with
  | int n => exact congrArg Except.ok (Int.floor_intCast n).symm
  | real x =>
      cases x with
      | finite s m q hq => exact congrArg Except.ok (Binary64.floorDyadic_eq _ q)
      | _ => cases h

/-- The whole part of a dyadic number that is not negative. -/
theorem Binary64.floorDyadic_spec (m : ℕ) (q : ℤ) : ∃ k : ℕ, floorDyadic m q = k
    ∧ (k : ℚ) ≤ m * 2 ^ q ∧ (m : ℚ) * 2 ^ q < k + 1 := by
  rw [floorDyadic]
  split
  · rename_i hq
    obtain ⟨j, rfl⟩ := Int.eq_ofNat_of_zero_le hq
    refine ⟨m * 2 ^ j, ?_, ?_, ?_⟩
    · rw [Int.toNat_natCast, Nat.one_shiftLeft]
      push_cast
      rfl
    · rw [zpow_natCast]
      push_cast
      exact le_rfl
    · rw [zpow_natCast]
      push_cast
      exact lt_add_one _
  · rename_i hq
    obtain ⟨j, hj⟩ : ∃ j : ℕ, q = -(j : ℤ) := ⟨(-q).toNat, by omega⟩
    subst hj
    have hpos : (0 : ℚ) < 2 ^ j := pow_pos (by norm_num) j
    refine ⟨m / 2 ^ j, ?_, ?_, ?_⟩
    · rw [neg_neg, Int.toNat_natCast, Nat.one_shiftLeft,
        Int.fdiv_eq_ediv_of_nonneg _ (by positivity)]
      norm_cast
    · rw [zpow_neg, zpow_natCast, ← div_eq_mul_inv, le_div_iff₀ hpos]
      exact_mod_cast Nat.div_mul_le_self m (2 ^ j)
    · rw [zpow_neg, zpow_natCast, ← div_eq_mul_inv, div_lt_iff₀ hpos]
      exact_mod_cast Nat.lt_mul_of_div_lt (Nat.lt_succ_self _) (Nat.two_pow_pos j)

/-- The whole part of a finite number, towards zero. -/
theorem Number.trunc_real {x : Binary64} (hx : x.isFinite = true) : ∃ k : ℕ,
    trunc (.real x) = .ok (if x.isNeg then -(k : ℤ) else k)
      ∧ (k : ℚ) ≤ x.magnitude ∧ x.magnitude < k + 1 := by
  cases x with
  | finite s m q h =>
      obtain ⟨k, hk, hle, hlt⟩ := Binary64.floorDyadic_spec m q
      refine ⟨k, ?_, hle, hlt⟩
      cases s with
      | false =>
          show Except.ok (if (m : ℤ) < 0 then -Binary64.floorDyadic (-m) q
            else Binary64.floorDyadic m q) = .ok (k : ℤ)
          rw [if_neg (by omega), hk]
      | true =>
          show Except.ok (if -(m : ℤ) < 0 then -Binary64.floorDyadic (- -(m : ℤ)) q
            else Binary64.floorDyadic (-m) q) = .ok (-(k : ℤ))
          rw [neg_neg, hk]
          split
          · rfl
          · -- zero below zero
            rename_i hm
            have hm : m = 0 := by omega
            subst hm
            rw [← hk]
            show Except.ok (Binary64.floorDyadic (-0) q) = .ok (-Binary64.floorDyadic 0 q)
            rw [neg_zero, Binary64.floorDyadic]
            split <;> simp
  | _ => cases hx

/-! ## Decimals -/

namespace Binary64

/-- The limit is not a power of two yet. -/
theorem limit_lt_power : limit < 2 ^ (1024 : ℤ) := by
  have hpos : (0 : ℚ) < 2 ^ (970 : ℤ) := zpow_pos (by norm_num) _
  rw [limit, show (1024 : ℤ) = (54 : ℕ) + 970 from rfl, zpow_add₀ (by norm_num), zpow_natCast]
  exact mul_lt_mul_of_pos_right (by norm_num) hpos

/-- A decimal as a quotient of naturals. -/
theorem decimal_eq (n : ℕ) (e : ℤ) :
    ((n * Nat.pow 10 e.toNat : ℕ) : ℚ) / (Nat.pow 10 (-e).toNat : ℕ) * 2 ^ (0 : ℤ)
      = n * 10 ^ e := by
  have hpow : (10 : ℚ) ^ e = 10 ^ e.toNat / 10 ^ (-e).toNat := by
    rw [← zpow_natCast, ← zpow_natCast, ← zpow_sub₀ (by norm_num)]
    congr 1
    omega
  rw [hpow, zpow_zero, mul_one, Nat.cast_mul, mul_div_assoc]
  norm_num [Nat.pow_eq]

/-- A decimal is smaller than the power of ten with its size. -/
theorem lt_size (n : ℕ) : n < 10 ^ (n.log2 / 3 + 1) := by
  calc n < 2 ^ (n.log2 + 1) := Nat.lt_log2_self
    _ ≤ 2 ^ (3 * (n.log2 / 3 + 1)) := Nat.pow_le_pow_right (by decide) (by omega)
    _ = 8 ^ (n.log2 / 3 + 1) := by rw [Nat.pow_mul]
    _ ≤ 10 ^ (n.log2 / 3 + 1) := Nat.pow_le_pow_left (by decide) _

/-- A decimal with an exponent that large is past the limit. -/
theorem power_lt_decimal {n : ℕ} (hn : n ≠ 0) {e : ℤ} (he : 400 < e) :
    (2 : ℚ) ^ (1024 : ℤ) < n * 10 ^ e := by
  have hone : (1 : ℚ) ≤ n := by exact_mod_cast Nat.one_le_iff_ne_zero.2 hn
  calc (2 : ℚ) ^ (1024 : ℤ) < 2 ^ (3 * e) := zpow_lt_zpow_right₀ (by norm_num) (by omega)
    _ = 8 ^ e := by rw [zpow_mul]; norm_num
    _ ≤ 10 ^ e := zpow_le_zpow_left₀ (by omega) (by norm_num) (by norm_num)
    _ ≤ n * 10 ^ e := le_mul_of_one_le_left (zpow_nonneg (by norm_num) e) hone

/-- A decimal that is that small is below the least number. -/
theorem decimal_lt_power {n : ℕ} {e : ℤ} (he : e + ((n.log2 : ℤ) / 3 + 1) < -400) :
    (n : ℚ) * 10 ^ e < 2 ^ (-1076 : ℤ) := by
  have hsize : (n : ℚ) < 10 ^ ((n.log2 / 3 + 1 : ℕ) : ℤ) := by
    rw [zpow_natCast]
    exact_mod_cast lt_size n
  calc (n : ℚ) * 10 ^ e < 10 ^ ((n.log2 / 3 + 1 : ℕ) : ℤ) * 10 ^ e :=
        mul_lt_mul_of_pos_right hsize (zpow_pos (by norm_num) e)
    _ = 10 ^ (((n.log2 / 3 + 1 : ℕ) : ℤ) + e) := (zpow_add₀ (by norm_num) _ _).symm
    _ ≤ 10 ^ (-400 : ℤ) := zpow_le_zpow_right₀ (by norm_num) (by push_cast; omega)
    _ ≤ 8 ^ (-400 : ℤ) := by
        rw [zpow_neg, zpow_neg]
        exact inv_anti₀ (zpow_pos (by norm_num) _)
          (zpow_le_zpow_left₀ (by norm_num) (by norm_num) (by norm_num))
    _ = 2 ^ (3 * (-400) : ℤ) := by rw [zpow_mul]; norm_num
    _ ≤ 2 ^ (-1076 : ℤ) := zpow_le_zpow_right₀ (by norm_num) (by norm_num)

/-- A decimal that is neither is rounded as the quotient it is. -/
theorem ofDecimal_eq {n : ℕ} {e : ℤ} (hlow : (2 : ℚ) ^ (-1076 : ℤ) ≤ n * 10 ^ e)
    (hhigh : (n : ℚ) * 10 ^ e ≤ 2 ^ (1024 : ℤ)) (neg : Bool) : ofDecimal neg n e
      = ofScaled neg (n * Nat.pow 10 e.toNat) (Nat.pow 10 (-e).toNat) 0 := by
  have hn : n ≠ 0 := by
    rintro rfl
    rw [Nat.cast_zero, zero_mul] at hlow
    exact absurd hlow (not_le.2 (zpow_pos (by norm_num) _))
  rw [ofDecimal, if_neg hn]
  dsimp only
  rw [if_neg fun he => absurd hhigh (not_le.2 (power_lt_decimal hn he)),
    if_neg fun he => absurd hlow (not_le.2 (decimal_lt_power he))]

/-- A decimal without an exponent is rounded like a whole number. -/
theorem ofDecimal_whole (neg : Bool) (n : ℕ) :
    ofDecimal neg n 0 = ofScaled neg n 1 0 := by
  rw [ofDecimal]
  split
  · rename_i hzero
    rw [hzero]
    rfl
  · dsimp only
    rw [if_neg (by decide), if_neg (by omega), neg_zero, Int.toNat_zero]
    show ofScaled neg (n * 1) 1 0 = _
    rw [Nat.mul_one]

/-- A decimal from `1` to `10` is read as a number from `1` to `10`. -/
theorem ofDecimal_mem {n : ℕ} {e : ℤ} (hlow : (1 : ℚ) ≤ n * 10 ^ e)
    (hhigh : (n : ℚ) * 10 ^ e ≤ 10) (neg : Bool) :
    (ofDecimal neg n e).isFinite = true ∧ (ofDecimal neg n e).isNeg = neg
      ∧ 1 ≤ (ofDecimal neg n e).magnitude
      ∧ (ofDecimal neg n e).magnitude ≤ 10 := by
  have hone : one.magnitude = 1 := by
    rw [one, magnitude, fullWidth]
    norm_num
  have hten : (finite false 5629499534213120 (-49) (by decide)).magnitude = 10 := by
    rw [magnitude]
    norm_num
  have hpos : 0 < Nat.pow 10 (-e).toNat := Nat.pow_pos (by decide)
  have hleast : (2 : ℚ) ^ (-1076 : ℤ) ≤ 1 := zpow_le_one_of_nonpos₀ (by norm_num) (by norm_num)
  have hmost : (10 : ℚ) ≤ 2 ^ (1024 : ℤ) := by
    calc (10 : ℚ) ≤ 2 ^ (4 : ℤ) := by norm_num
      _ ≤ 2 ^ (1024 : ℤ) := zpow_le_zpow_right₀ (by norm_num) (by norm_num)
  rw [ofDecimal_eq (hleast.trans hlow) (hhigh.trans hmost)]
  rw [← decimal_eq] at hlow hhigh
  obtain ⟨hfinite, hle⟩ := magnitude_ofScaled_le_of_le hpos rfl (hhigh.trans_eq hten.symm) neg
  refine ⟨hfinite, isNeg_ofScaled _ _ _ _, ?_, hle.trans_eq hten⟩
  exact hone.symm.trans_le (le_magnitude_ofScaled hpos rfl (hone.trans_le hlow) hfinite)

/-- A decimal is read as a finite number exactly if it is below the limit. -/
theorem isFinite_ofDecimal (neg : Bool) (n : ℕ) (e : ℤ) :
    (ofDecimal neg n e).isFinite = true ↔ (n : ℚ) * 10 ^ e < limit := by
  have hlimit : 0 < limit := (magnitude_nonneg one).trans_lt (magnitude_lt_limit one)
  rw [ofDecimal]
  split
  · rename_i hn
    rw [hn]
    exact ⟨fun _ => by simpa using hlimit, fun _ => rfl⟩
  · rename_i hn
    dsimp only
    split
    · -- too many digits in any case
      rename_i he
      refine ⟨fun h => absurd h Bool.false_ne_true, fun h => absurd h (not_lt.2 ?_)⟩
      exact limit_lt_power.le.trans (power_lt_decimal hn he).le
    · split
      · -- too few
        rename_i he
        refine ⟨fun _ => (decimal_lt_power he).trans (lt_of_le_of_lt ?_ million_lt_limit),
          fun _ => rfl⟩
        exact (zpow_le_one_of_nonpos₀ (by norm_num) (by norm_num)).trans (by norm_num)
      · have hten : 0 < Nat.pow 10 (-e).toNat := Nat.pow_pos (by decide)
        rw [isFinite_ofScaled hten, ← decimal_eq, zpow_zero, mul_one]

/-- A decimal is read as a finite number or as an infinity of its sign. -/
theorem ofDecimal_cases (neg : Bool) (n : ℕ) (e : ℤ) :
    (ofDecimal neg n e).isFinite = true ∨ ofDecimal neg n e = .infinite neg := by
  rw [ofDecimal]
  dsimp only
  split
  · exact .inl rfl
  · split
    · exact .inr rfl
    · split
      · exact .inl rfl
      · exact ofScaled_cases _ _ _ _

end Binary64

end TurtleLogo
