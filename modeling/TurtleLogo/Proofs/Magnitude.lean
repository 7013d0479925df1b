import Mathlib.Algebra.Order.Field.Basic
import Mathlib.Algebra.Order.Field.Power
import Mathlib.Algebra.Order.Field.Rat
import Mathlib.Data.Rat.Cast.Order
import Mathlib.Tactic.FieldSimp
import Mathlib.Tactic.Linarith
import Mathlib.Tactic.Ring
import TurtleLogo.Number.Elementary
import TurtleLogo.Proofs.Divisor

/-! # Magnitudes

    When a computation with double-precision numbers gets too big.  A quotient
    is rounded to an infinity exactly if it is not less than `Binary64.limit`,
    half a unit past the largest number (`isFinite_ofScaled`), so each operation
    overflows by what its exact result is.  Rounding keeps the order of
    magnitudes (`magnitude_mono`). -/

namespace TurtleLogo.Binary64

/-- The least magnitude that is rounded to an infinity. -/
def limit : ℚ := (2 ^ 54 - 1) * 2 ^ (970 : ℤ)

/-- The magnitude of a finite number. -/
def magnitude : Binary64 → ℚ
  | .finite _ m q _ => m * 2 ^ q
  | _ => 0

/-- No magnitude is negative. -/
theorem magnitude_nonneg (x : Binary64) : 0 ≤ x.magnitude := by
  cases x with
  | finite s m q h => exact mul_nonneg (Nat.cast_nonneg m) (zpow_nonneg (by norm_num) q)
  | _ => exact le_refl 0

/-- No finite number comes near the limit. -/
theorem magnitude_add_le_limit (x : Binary64) : x.magnitude + 2 ^ (970 : ℤ) ≤ limit := by
  have hpos : (0 : ℚ) < 2 ^ (970 : ℤ) := zpow_pos (by norm_num) _
  cases x with
  | finite s m q h =>
      have hm : (m : ℚ) + 1 ≤ 2 ^ 53 := by exact_mod_cast h.1
      have hq : (2 : ℚ) ^ q ≤ 2 ^ (1 + 970 : ℤ) := zpow_le_zpow_right₀ (by norm_num) h.2.2.1
      rw [zpow_add₀ (by norm_num), zpow_one] at hq
      rw [magnitude, limit]
      generalize (2 : ℚ) ^ (970 : ℤ) = u at *
      calc (m : ℚ) * 2 ^ q + u ≤ m * (2 * u) + u := by gcongr
        _ = (2 * (m + 1) - 1) * u := by ring
        _ ≤ (2 * 2 ^ 53 - 1) * u := by gcongr
        _ = (2 ^ 54 - 1) * u := by ring
  | _ =>
      rw [limit]
      generalize (2 : ℚ) ^ (970 : ℤ) = u at *
      show 0 + u ≤ _
      linarith

/-- Every number is below the limit. -/
theorem magnitude_lt_limit (x : Binary64) : x.magnitude < limit := by
  have hpos : (0 : ℚ) < 2 ^ (970 : ℤ) := zpow_pos (by norm_num) _
  exact lt_of_lt_of_le (lt_add_of_pos_right _ hpos) (magnitude_add_le_limit x)

/-! ## Rounding a quotient -/

section

variable {a b d n : Nat} (hd : 0 < d)
include hd

/-- A quotient that is not greater than a number is not rounded past it. -/
theorem roundHalfEven_le (h : a ≤ n * d) : roundHalfEven a d ≤ n := by
  have hdiv : a / d ≤ n := Nat.div_le_of_le_mul (by rwa [Nat.mul_comm])
  rcases roundHalfEven_cases a d with ⟨hr, -⟩ | ⟨hr, hmod⟩
  · rw [hr]
    exact hdiv
  · -- a remainder is left, so the quotient is less
    have hlt : a / d < n := by
      rcases Nat.lt_or_eq_of_le hdiv with hlt | heq
      · exact hlt
      · have := Nat.div_add_mod a d
        rw [heq, Nat.mul_comm] at this
        omega
    omega

/-- A whole number that is not above a quotient is not above it when rounded. -/
theorem le_roundHalfEven (h : n * d ≤ a) : n ≤ roundHalfEven a d := by
  have hdiv : n ≤ a / d := (Nat.le_div_iff_mul_le hd).2 h
  rcases roundHalfEven_cases a d with ⟨hr, -⟩ | ⟨hr, -⟩ <;> omega

/-- Rounding keeps the order of quotients. -/
theorem roundHalfEven_mono (h : a ≤ b) : roundHalfEven a d ≤ roundHalfEven b d := by
  have hdiv : a / d ≤ b / d := Nat.div_le_div_right h
  have ha := Nat.div_add_mod a d
  have hb := Nat.div_add_mod b d
  rcases Nat.lt_or_eq_of_le hdiv with hlt | heq
  · have hlow : b / d ≤ roundHalfEven b d := le_roundHalfEven hd (Nat.div_mul_le_self b d)
    rcases roundHalfEven_cases a d with ⟨hr, -⟩ | ⟨hr, -⟩ <;> omega
  · -- with the same whole part, the remainders are in order
    have hmod : a % d ≤ b % d := by
      rw [heq] at ha
      omega
    simp only [roundHalfEven, heq]
    split <;> split <;> omega

/-- What is rounded up to an even number: halfway goes to it. -/
theorem le_roundHalfEven_iff (hn : 0 < n) (heven : n % 2 = 0) :
    n ≤ roundHalfEven a d ↔ (2 * n - 1) * d ≤ 2 * a := by
  have ha := Nat.div_add_mod a d
  have hmod := Nat.mod_lt a hd
  obtain ⟨k, rfl⟩ : ∃ k, n = k + 1 := ⟨n - 1, by omega⟩
  have hhalf : (2 * (k + 1) - 1) * d = 2 * (d * k) + d := by
    rw [show 2 * (k + 1) - 1 = 2 * k + 1 by omega]
    ring
  rw [hhalf]
  rcases Nat.lt_trichotomy (a / d) k with hlt | heq | hgt
  · have hle : d * (a / d + 1) ≤ d * k := Nat.mul_le_mul_left d hlt
    rw [Nat.mul_add, Nat.mul_one] at hle
    rcases roundHalfEven_cases a d with ⟨hr, -⟩ | ⟨hr, -⟩ <;> omega
  · rw [heq] at ha
    simp only [roundHalfEven, heq]
    split <;> omega
  · have hle : d * (k + 1) ≤ d * (a / d) := Nat.mul_le_mul_left d hgt
    rw [Nat.mul_add, Nat.mul_one] at hle
    rcases roundHalfEven_cases a d with ⟨hr, -⟩ | ⟨hr, -⟩ <;> omega

end

/-! ## The place of the last bit -/

/-- The exponent of the first significant bit of a quotient. -/
def firstExponent (a d : Nat) : ℤ :=
  if d <<< (a.log2 - d.log2) ≤ a <<< (d.log2 - a.log2) then (a.log2 : ℤ) - d.log2
  else (a.log2 : ℤ) - d.log2 - 1

/-- The last bit is 52 places behind the first, or the last one that there is. -/
theorem unitExponent_eq (a d : Nat) (e : ℤ) :
    unitExponent a d e = max (e + firstExponent a d - 52) (-1074) := rfl

section

variable {a b d : Nat} {e : ℤ} (ha : 0 < a) (hd : 0 < d)
include ha hd

/-- A quotient is between the power of two of its first bit and the next. -/
theorem firstExponent_spec : (2 : ℚ) ^ firstExponent a d ≤ (a : ℚ) / d
    ∧ (a : ℚ) / d < 2 ^ (firstExponent a d + 1) := by
  have hdq : (0 : ℚ) < d := Nat.cast_pos.2 hd
  have hpow : ∀ k : ℕ, (0 : ℚ) < 2 ^ k := fun k => pow_pos (by norm_num) k
  have halow : ((2 : ℚ) ^ a.log2) ≤ a := by exact_mod_cast Nat.log2_self_le ha.ne'
  have hahigh : (a : ℚ) < 2 ^ a.log2 * 2 := by
    rw [← pow_succ]
    exact_mod_cast Nat.lt_log2_self
  have hdlow : ((2 : ℚ) ^ d.log2) ≤ d := by exact_mod_cast Nat.log2_self_le hd.ne'
  have hdhigh : (d : ℚ) < 2 ^ d.log2 * 2 := by
    rw [← pow_succ]
    exact_mod_cast Nat.lt_log2_self
  have hratio : (2 : ℚ) ^ ((a.log2 : ℤ) - d.log2) = 2 ^ a.log2 / 2 ^ d.log2 := by
    rw [zpow_sub₀ (by norm_num), zpow_natCast, zpow_natCast]
  -- both shifts bring the numbers to the same place
  have hshift : d <<< (a.log2 - d.log2) ≤ a <<< (d.log2 - a.log2)
      ↔ (d : ℚ) * 2 ^ a.log2 ≤ a * 2 ^ d.log2 := by
    rw [Nat.shiftLeft_eq, Nat.shiftLeft_eq,
      ← Nat.mul_le_mul_right_iff (Nat.two_pow_pos (min a.log2 d.log2)), Nat.mul_assoc,
      Nat.mul_assoc, ← Nat.pow_add, ← Nat.pow_add,
      show a.log2 - d.log2 + min a.log2 d.log2 = a.log2 by omega,
      show d.log2 - a.log2 + min a.log2 d.log2 = d.log2 by omega]
    exact_mod_cast Iff.rfl
  rw [firstExponent]
  split
  · rename_i hle
    rw [hshift] at hle
    constructor
    · rw [hratio, div_le_div_iff₀ (hpow _) hdq]
      linarith
    · rw [zpow_add₀ (by norm_num), hratio, zpow_one, div_mul_eq_mul_div,
        div_lt_div_iff₀ hdq (hpow _)]
      calc (a : ℚ) * 2 ^ d.log2 < 2 ^ a.log2 * 2 * 2 ^ d.log2 := by gcongr
        _ ≤ 2 ^ a.log2 * 2 * d := by gcongr
  · rename_i hlt
    rw [hshift, not_le] at hlt
    constructor
    · rw [zpow_sub₀ (by norm_num), hratio, zpow_one, div_div, div_le_div_iff₀ (by positivity) hdq]
      calc (2 : ℚ) ^ a.log2 * d ≤ 2 ^ a.log2 * (2 ^ d.log2 * 2) := by gcongr
        _ ≤ a * (2 ^ d.log2 * 2) := by gcongr
    · rw [sub_add_cancel, hratio, div_lt_div_iff₀ hdq (hpow _)]
      linarith

/-- The first bit of a greater quotient is no farther behind. -/
theorem firstExponent_mono (h : a ≤ b) : firstExponent a d ≤ firstExponent b d := by
  have hle : (a : ℚ) / d ≤ b / d := by gcongr
  have hlow := (firstExponent_spec ha hd).1
  have hhigh := (firstExponent_spec (lt_of_lt_of_le ha h) hd).2
  have := lt_of_le_of_lt (hlow.trans hle) hhigh
  rw [zpow_lt_zpow_iff_right₀ (by norm_num)] at this
  omega

omit ha hd in
/-- A quotient in units of a bit. -/
theorem shifted_eq (a d : Nat) (e p : ℤ) :
    ((a <<< (e - p).toNat : ℕ) : ℚ) / ((d <<< (p - e).toNat : ℕ) : ℚ)
      = (a : ℚ) / d * 2 ^ e / 2 ^ p := by
  have hpow : (2 : ℚ) ^ e / 2 ^ p = 2 ^ (e - p).toNat / 2 ^ (p - e).toNat := by
    rw [← zpow_natCast, ← zpow_natCast, ← zpow_sub₀ (by norm_num), ← zpow_sub₀ (by norm_num)]
    congr 1
    omega
  rw [Nat.shiftLeft_eq, Nat.shiftLeft_eq, mul_div_assoc, hpow]
  push_cast
  ring

/-- Where a quotient lies, by the place of its last bit. -/
theorem lt_of_unitExponent : (a : ℚ) / d * 2 ^ e < 2 ^ (unitExponent a d e + 53) := by
  calc (a : ℚ) / d * 2 ^ e < 2 ^ (firstExponent a d + 1) * 2 ^ e := by
        gcongr
        exact (firstExponent_spec ha hd).2
    _ = 2 ^ (firstExponent a d + 1 + e) := (zpow_add₀ (by norm_num) _ _).symm
    _ ≤ 2 ^ (unitExponent a d e + 53) := by
        refine zpow_le_zpow_right₀ (by norm_num) ?_
        rw [unitExponent_eq]
        omega

/-- A quotient whose last bit is not the last one that there is fills all 53 bits. -/
theorem le_of_unitExponent (h : -1074 < unitExponent a d e) :
    (2 : ℚ) ^ (unitExponent a d e + 52) ≤ (a : ℚ) / d * 2 ^ e := by
  rw [unitExponent_eq] at h
  have hunit : unitExponent a d e + 52 = firstExponent a d + e := by
    rw [unitExponent_eq]
    omega
  rw [hunit, zpow_add₀ (by norm_num)]
  gcongr
  exact (firstExponent_spec ha hd).1

end

/-! ## Rounding to a number -/

/-- The significand to which a quotient is rounded, in units of its last bit. -/
def digits (a d : Nat) (e : ℤ) : Nat :=
  roundHalfEven (a <<< (e - unitExponent a d e).toNat) (d <<< (unitExponent a d e - e).toNat)

/-- A quotient is rounded to a significand, and to the next power of two if that
    gets too wide. -/
theorem ofScaled_eq {a : Nat} (ha : 0 < a) (neg : Bool) (d : Nat) (e : ℤ) :
    ofScaled neg a d e = if digits a d e = 2 * fullWidth
      then ofMagnitude neg fullWidth (unitExponent a d e + 1)
      else ofMagnitude neg (digits a d e) (unitExponent a d e) := by
  rw [ofScaled, if_neg ha.ne']
  rfl

section

variable {a b d : Nat} {e : ℤ} (ha : 0 < a) (hd : 0 < d)
include ha hd

omit ha in
theorem shifted_pos (k : Nat) : 0 < d <<< k := Nat.shiftLeft_pos_iff.2 hd

/-- A significand is at most twice the full width. -/
theorem digits_le : digits a d e ≤ 2 * fullWidth := by
  refine roundHalfEven_le (shifted_pos hd _) ?_
  have hpos : (0 : ℚ) < ((d <<< (unitExponent a d e - e).toNat : ℕ) : ℚ) :=
    Nat.cast_pos.2 (shifted_pos hd _)
  have hlt := lt_of_unitExponent (e := e) ha hd
  rw [zpow_add₀ (by norm_num), ← div_lt_iff₀' (zpow_pos (by norm_num) _), ← shifted_eq,
    div_lt_iff₀ hpos] at hlt
  exact_mod_cast hlt.le

/-- A significand is of full width unless its last bit is the last one that there
    is. -/
theorem le_digits (h : -1074 < unitExponent a d e) : fullWidth ≤ digits a d e := by
  refine le_roundHalfEven (shifted_pos hd _) ?_
  have hpos : (0 : ℚ) < ((d <<< (unitExponent a d e - e).toNat : ℕ) : ℚ) :=
    Nat.cast_pos.2 (shifted_pos hd _)
  have hle := le_of_unitExponent ha hd h
  rw [zpow_add₀ (by norm_num), ← le_div_iff₀' (zpow_pos (by norm_num) _), ← shifted_eq,
    le_div_iff₀ hpos] at hle
  exact_mod_cast hle

/-- A quotient is rounded to a finite number exactly if its last bit is not too far
    out. -/
theorem isFinite_ofScaled_iff (neg : Bool) : (ofScaled neg a d e).isFinite = true
    ↔ unitExponent a d e ≤ 970 ∨ unitExponent a d e = 971 ∧ digits a d e < 2 * fullWidth := by
  have hle := digits_le (e := e) ha hd
  have hge : -1074 < unitExponent a d e → fullWidth ≤ digits a d e := le_digits ha hd
  have hunit : -1074 ≤ unitExponent a d e := by
    rw [unitExponent_eq]
    omega
  have hmagnitude : ∀ m q, (ofMagnitude neg m q).isFinite = true ↔ Canonical m q := by
    intro m q
    rw [ofMagnitude]
    split
    · rename_i hcanonical
      exact ⟨fun _ => hcanonical, fun _ => rfl⟩
    · rename_i hcanonical
      exact ⟨fun h => absurd h Bool.false_ne_true, fun h => absurd h hcanonical⟩
  rw [ofScaled_eq ha]
  rw [fullWidth] at hle hge ⊢
  split
  · rw [hmagnitude, Canonical, fullWidth]
    omega
  · rw [hmagnitude, Canonical, fullWidth]
    omega

omit hd in
/-- The magnitude of a rounded quotient is its significand in units of the last bit. -/
theorem magnitude_ofScaled {neg : Bool} (h : (ofScaled neg a d e).isFinite = true) :
    (ofScaled neg a d e).magnitude = digits a d e * 2 ^ unitExponent a d e := by
  have hmagnitude : ∀ m q, (ofMagnitude neg m q).isFinite = true →
      (ofMagnitude neg m q).magnitude = m * 2 ^ q := by
    intro m q hm
    rw [ofMagnitude] at hm ⊢
    split at hm
    · rename_i hcanonical
      rw [dif_pos hcanonical]
      rfl
    · cases hm
  rw [ofScaled_eq ha] at h ⊢
  split at h
  · rename_i hdigits
    rw [if_pos hdigits, hmagnitude _ _ h, hdigits, zpow_add₀ (by norm_num)]
    push_cast
    ring
  · rename_i hdigits
    rw [if_neg hdigits, hmagnitude _ _ h]

omit ha in
/-- A quotient is rounded to a finite number exactly if it is below the limit. -/
theorem isFinite_ofScaled (neg : Bool) :
    (ofScaled neg a d e).isFinite = true ↔ (a : ℚ) / d * 2 ^ e < limit := by
  have hpos : (0 : ℚ) < 2 ^ (970 : ℤ) := zpow_pos (by norm_num) _
  rcases Nat.eq_zero_or_pos a with rfl | ha
  · have hlimit : 0 < limit := mul_pos (by norm_num) hpos
    exact ⟨fun _ => by simpa using hlimit, fun _ => rfl⟩
  have hsplit : ∀ k : ℕ, (2 : ℚ) ^ ((k : ℤ) + 970) = 2 ^ k * 2 ^ (970 : ℤ) := by
    intro k
    rw [zpow_add₀ (by norm_num), zpow_natCast]
  rw [isFinite_ofScaled_iff ha hd, limit]
  rcases lt_trichotomy (unitExponent a d e) 971 with hlow | hunit | hhigh
  · have hlt := lt_of_unitExponent (e := e) ha hd
    have hle : (2 : ℚ) ^ (unitExponent a d e + 53) ≤ 2 ^ (((53 : ℕ) : ℤ) + 970) :=
      zpow_le_zpow_right₀ (by norm_num) (by omega)
    rw [hsplit] at hle
    generalize (2 : ℚ) ^ (970 : ℤ) = u at *
    refine ⟨fun _ => ?_, fun _ => .inl (by omega)⟩
    linarith
  · -- the last place: the significand has one more bit from halfway on
    have hDpos : (0 : ℚ) < ((d <<< (971 - e).toNat : ℕ) : ℚ) := Nat.cast_pos.2 (shifted_pos hd _)
    have hlast : (2 : ℚ) ^ (971 : ℤ) = 2 * 2 ^ (970 : ℤ) := by
      rw [show (971 : ℤ) = (1 : ℕ) + 970 from rfl, hsplit, pow_one]
    have hiff : digits a d e < 2 * fullWidth
        ↔ 2 * (a <<< (e - 971).toNat) < (2 ^ 54 - 1) * d <<< (971 - e).toNat := by
      rw [← not_le, digits, hunit,
        le_roundHalfEven_iff (shifted_pos hd _) (by decide) (by decide), not_le]
      rfl
    have hcast : 2 * (a <<< (e - 971).toNat) < (2 ^ 54 - 1) * d <<< (971 - e).toNat
        ↔ (a : ℚ) / d * 2 ^ e < (2 ^ 54 - 1) * 2 ^ (970 : ℤ) := by
      have hvalue := shifted_eq a d e 971
      rw [hlast, eq_div_iff (by positivity)] at hvalue
      rw [← hvalue]
      generalize (2 : ℚ) ^ (970 : ℤ) = u at *
      rw [← Nat.cast_lt (α := ℚ)]
      generalize a <<< (e - 971).toNat = A at *
      generalize d <<< (971 - e).toNat = D at *
      push_cast
      rw [div_mul_eq_mul_div, div_lt_iff₀ hDpos, show (A : ℚ) * (2 * u) = 2 * A * u by ring,
        show (2 ^ 54 - 1) * u * (D : ℚ) = 18014398509481983 * D * u by ring,
        mul_lt_mul_iff_of_pos_right hpos]
    rw [hiff, hcast, hunit]
    exact ⟨fun h => h.elim (fun h => absurd h (by decide)) (·.2), fun h => .inr ⟨rfl, h⟩⟩
  · have hle := le_of_unitExponent (e := e) ha hd (by omega)
    have hlt : (2 : ℚ) ^ (((54 : ℕ) : ℤ) + 970) ≤ 2 ^ (unitExponent a d e + 52) :=
      zpow_le_zpow_right₀ (by norm_num) (by omega)
    rw [hsplit] at hlt
    generalize (2 : ℚ) ^ (970 : ℤ) = u at *
    refine ⟨fun h => by omega, fun h => ?_⟩
    linarith

omit ha hd in
/-- A quotient of zero is rounded to zero. -/
theorem magnitude_ofScaled_zero (neg : Bool) (d : ℕ) (e : ℤ) :
    (ofScaled neg 0 d e).magnitude = 0 := by
  simp [ofScaled, zero, magnitude]

omit ha in
/-- Rounding at most doubles what is not tiny. -/
theorem magnitude_ofScaled_le (neg : Bool) :
    (ofScaled neg a d e).magnitude ≤ 2 * ((a : ℚ) / d * 2 ^ e) + 1 := by
  have hvalue : 0 ≤ (a : ℚ) / d * 2 ^ e :=
    mul_nonneg (div_nonneg (Nat.cast_nonneg a) (Nat.cast_nonneg d)) (zpow_nonneg (by norm_num) e)
  rcases Nat.eq_zero_or_pos a with rfl | ha
  · rw [magnitude_ofScaled_zero]
    linarith
  by_cases hfinite : (ofScaled neg a d e).isFinite = true
  · have hdigits : (digits a d e : ℚ) ≤ 2 ^ 53 := by exact_mod_cast digits_le (e := e) ha hd
    have hle : (ofScaled neg a d e).magnitude ≤ 2 ^ (unitExponent a d e + 53) := by
      rw [magnitude_ofScaled ha hfinite, show unitExponent a d e + 53 = 53 + unitExponent a d e by
        ring, zpow_add₀ (by norm_num)]
      gcongr
      exact_mod_cast hdigits
    rcases lt_or_ge (-1074) (unitExponent a d e) with hunit | hunit
    · have hlow := le_of_unitExponent ha hd hunit
      rw [show unitExponent a d e + 53 = 1 + (unitExponent a d e + 52) by ring,
        zpow_add₀ (by norm_num), zpow_one] at hle
      linarith
    · have hone : (2 : ℚ) ^ (unitExponent a d e + 53) ≤ 1 :=
        zpow_le_one_of_nonpos₀ (by norm_num) (by omega)
      linarith
  · have hzero : (ofScaled neg a d e).magnitude = 0 := by
      cases h : ofScaled neg a d e with
      | finite s m q hq =>
          rw [h] at hfinite
          exact absurd rfl hfinite
      | _ => rfl
    rw [hzero]
    linarith

omit ha in
/-- Rounding keeps the order of magnitudes. -/
theorem magnitude_mono {s t : Bool} (h : a ≤ b) (hfinite : (ofScaled t b d e).isFinite = true) :
    (ofScaled s a d e).magnitude ≤ (ofScaled t b d e).magnitude := by
  rcases Nat.eq_zero_or_pos a with rfl | ha
  · rw [magnitude_ofScaled_zero]
    exact magnitude_nonneg _
  have hb : 0 < b := lt_of_lt_of_le ha h
  have ha' : (ofScaled s a d e).isFinite = true := by
    rw [isFinite_ofScaled hd] at hfinite ⊢
    refine lt_of_le_of_lt ?_ hfinite
    gcongr
  rw [magnitude_ofScaled ha ha', magnitude_ofScaled hb hfinite]
  have hunit : unitExponent a d e ≤ unitExponent b d e := by
    have := firstExponent_mono ha hd h
    rw [unitExponent_eq, unitExponent_eq]
    omega
  rcases eq_or_lt_of_le hunit with heq | hlt
  · -- in the same units
    have hdigits : digits a d e ≤ digits b d e := by
      rw [digits, digits, heq]
      refine roundHalfEven_mono (shifted_pos hd _) ?_
      rw [Nat.shiftLeft_eq, Nat.shiftLeft_eq]
      exact Nat.mul_le_mul_right _ h
    rw [heq]
    gcongr
  · have hlow : -1074 < unitExponent b d e := by
      refine lt_of_le_of_lt ?_ hlt
      rw [unitExponent_eq]
      omega
    have hda : (digits a d e : ℚ) ≤ 2 * fullWidth := by exact_mod_cast digits_le (e := e) ha hd
    have hdb : (fullWidth : ℚ) ≤ digits b d e := by exact_mod_cast le_digits hb hd hlow
    calc (digits a d e : ℚ) * 2 ^ unitExponent a d e
        ≤ 2 * fullWidth * 2 ^ unitExponent a d e := by gcongr
      _ = fullWidth * 2 ^ (unitExponent a d e + 1) := by
          rw [zpow_add₀ (by norm_num), zpow_one]
          ring
      _ ≤ digits b d e * 2 ^ unitExponent b d e := by
          gcongr
          · norm_num
          · omega

end

/-! ## Operations -/

/-- A whole number is rounded to a finite one exactly below the limit. -/
theorem isFinite_ofInt (n : ℤ) : (ofInt n).isFinite = true ↔ (n.natAbs : ℚ) < limit := by
  rw [ofInt, isFinite_ofScaled Nat.one_pos]
  simp

/-- Rounding a whole number at most doubles it, and one more. -/
theorem magnitude_ofInt_le (n : ℤ) : (ofInt n).magnitude ≤ 2 * n.natAbs + 1 := by
  have hround := magnitude_ofScaled_le (a := n.natAbs) (e := 0) Nat.one_pos (decide (n < 0))
  rw [Nat.cast_one, div_one, zpow_zero, mul_one] at hround
  exact hround

/-- Rounding keeps the order of whole numbers. -/
theorem magnitude_ofInt_mono {i j : ℕ} (h : i ≤ j) (hj : (ofInt j).isFinite = true) :
    (ofInt i).magnitude ≤ (ofInt j).magnitude :=
  magnitude_mono Nat.one_pos (by simpa using h) hj

/-- At least one stays at least one. -/
theorem one_le_magnitude_ofInt {n : ℕ} (hn : 0 < n) (h : (ofInt n).isFinite = true) :
    1 ≤ (ofInt n).magnitude := by
  have hone : (ofInt ((1 : ℕ) : ℤ)).magnitude = 1 := by
    rw [show ofInt ((1 : ℕ) : ℤ) = one from rfl, one, magnitude, fullWidth]
    norm_num
  rw [← hone]
  exact magnitude_ofInt_mono hn h

/-- A ratio is rounded to a finite number exactly below the limit. -/
theorem isFinite_ofRatio (a : ℤ) {b : ℤ} (hb : b ≠ 0) :
    (ofRatio a b).isFinite = true ↔ (a.natAbs : ℚ) / b.natAbs < limit := by
  rw [ofRatio, isFinite_ofScaled (Int.natAbs_pos.2 hb)]
  simp

section

variable {x y : Binary64} (hx : x.isFinite = true) (hy : y.isFinite = true)
include hx hy

/-- The exact product of two finite numbers, and how it is rounded. -/
theorem mul_eq : ∃ (a : ℕ) (e : ℤ), (a : ℚ) * 2 ^ e = x.magnitude * y.magnitude
    ∧ mul x y = ofScaled (x.isNeg != y.isNeg) a 1 e := by
  cases x with
  | finite s m q hq =>
      cases y with
      | finite t n r hr =>
          refine ⟨m * n, q + r, ?_, rfl⟩
          show ((m * n : ℕ) : ℚ) * 2 ^ (q + r) = m * 2 ^ q * (n * 2 ^ r)
          rw [zpow_add₀ (by norm_num)]
          push_cast
          ring
      | _ => cases hy
  | _ => cases hx

/-- The exact quotient of two finite numbers, and how it is rounded. -/
theorem div_eq (hzero : y.isZero = false) : ∃ (a d : ℕ) (e : ℤ), 0 < d
    ∧ (a : ℚ) / d * 2 ^ e = x.magnitude / y.magnitude
    ∧ div x y = ofScaled (x.isNeg != y.isNeg) a d e := by
  cases x with
  | finite s m q hq =>
      cases y with
      | finite t n r hr =>
          have hn : n ≠ 0 := by simpa [isZero] using hzero
          refine ⟨m, n, q - r, Nat.pos_of_ne_zero hn, ?_, by rw [div, if_neg hn]; rfl⟩
          show (m : ℚ) / n * 2 ^ (q - r) = m * 2 ^ q / (n * 2 ^ r)
          rw [zpow_sub₀ (by norm_num), mul_div_mul_comm]
      | _ => cases hy
  | _ => cases hx

/-- A product is finite exactly if the exact one is below the limit. -/
theorem isFinite_mul : (mul x y).isFinite = true ↔ x.magnitude * y.magnitude < limit := by
  obtain ⟨a, e, hvalue, hmul⟩ := mul_eq hx hy
  rw [hmul, isFinite_ofScaled Nat.one_pos, Nat.cast_one, div_one, hvalue]

/-- A product is at most twice the exact one, and one more. -/
theorem magnitude_mul_le : (mul x y).magnitude ≤ 2 * (x.magnitude * y.magnitude) + 1 := by
  obtain ⟨a, e, hvalue, hmul⟩ := mul_eq hx hy
  have hround := magnitude_ofScaled_le (a := a) (e := e) Nat.one_pos (x.isNeg != y.isNeg)
  rwa [Nat.cast_one, div_one, hvalue, ← hmul] at hround

/-- A quotient is finite exactly if the exact one is below the limit. -/
theorem isFinite_div (hzero : y.isZero = false) :
    (div x y).isFinite = true ↔ x.magnitude / y.magnitude < limit := by
  obtain ⟨a, d, e, hd, hvalue, hdiv⟩ := div_eq hx hy hzero
  rw [hdiv, isFinite_ofScaled hd, hvalue]

end

/-- A number is zero exactly if its magnitude is. -/
theorem isZero_iff {x : Binary64} (hx : x.isFinite = true) : x.isZero = true ↔ x.magnitude = 0 := by
  cases x with
  | finite s m q h =>
      show (m == 0) = true ↔ (m : ℚ) * 2 ^ q = 0
      have hpow : (2 : ℚ) ^ q ≠ 0 := (zpow_pos (by norm_num) q).ne'
      rw [beq_iff_eq, mul_eq_zero, or_iff_left hpow, Nat.cast_eq_zero]
  | _ => cases hx

/-- A quotient is rounded to a finite number or to an infinity. -/
theorem ofScaled_cases (neg : Bool) (a d : ℕ) (e : ℤ) :
    (ofScaled neg a d e).isFinite = true ∨ ofScaled neg a d e = .infinite neg := by
  have hmagnitude : ∀ m q, (ofMagnitude neg m q).isFinite = true
      ∨ ofMagnitude neg m q = .infinite neg := by
    intro m q
    rw [ofMagnitude]
    split
    · exact .inl rfl
    · exact .inr rfl
  rw [ofScaled]
  dsimp only
  split
  · exact .inl rfl
  · split
    · exact hmagnitude _ _
    · exact hmagnitude _ _

/-- A product of finite numbers is finite, or past the largest number. -/
theorem mul_cases {x y : Binary64} (hx : x.isFinite = true) (hy : y.isFinite = true) :
    (mul x y).isFinite = true ∨ ∃ neg, mul x y = .infinite neg := by
  obtain ⟨a, e, -, hmul⟩ := mul_eq hx hy
  rw [hmul]
  exact (ofScaled_cases _ a 1 e).imp id fun h => ⟨_, h⟩

/-- A significand in units of a lower bit. -/
theorem shifted_value (m : ℕ) {q e : ℤ} (h : e ≤ q) :
    ((m <<< (q - e).toNat : ℕ) : ℚ) * 2 ^ e = m * 2 ^ q := by
  rw [Nat.shiftLeft_eq, Nat.cast_mul, Nat.cast_pow, Nat.cast_ofNat, mul_assoc, ← zpow_natCast,
    ← zpow_add₀ (by norm_num), Int.toNat_of_nonneg (by omega), sub_add_cancel]

/-- The quantity that a finite number stands for. -/
def value : Binary64 → ℚ
  | .finite s m q _ => signed s m * 2 ^ q
  | _ => 0

/-- A number is its magnitude with its sign. -/
theorem value_eq (x : Binary64) : x.value = if x.isNeg then -x.magnitude else x.magnitude := by
  cases x with
  | finite s m q h =>
      cases s with
      | false => rfl
      | true =>
          show ((-(m : ℤ) : ℤ) : ℚ) * 2 ^ q = -(m * 2 ^ q)
          push_cast
          ring
  | infinite s => cases s <;> rfl
  | nan k => rfl

/-- The absolute value of a number is its magnitude. -/
theorem abs_value (x : Binary64) : |x.value| = x.magnitude := by
  rw [value_eq]
  split
  · rw [abs_neg, abs_of_nonneg x.magnitude_nonneg]
  · exact abs_of_nonneg x.magnitude_nonneg

/-- The exact sum of two finite numbers is what is rounded. -/
theorem add_eq_ofDyadic {x y : Binary64} (hx : x.isFinite = true) (hy : y.isFinite = true) :
    ∃ k e : ℤ, (k : ℚ) * 2 ^ e = x.value + y.value
      ∧ add x y = ofDyadic (x.isNeg && y.isNeg) k e := by
  cases x with
  | finite s m q hq =>
      cases y with
      | finite t n r hr =>
          have hshift : ∀ (neg : Bool) (k i : ℕ), signed neg (k <<< i) = signed neg k * 2 ^ i := by
            intro neg k i
            cases neg <;> simp [signed, Nat.shiftLeft_eq]
          have hpart : ∀ (neg : Bool) (k : ℕ) {i e : ℤ}, e ≤ i →
              ((signed neg (k <<< (i - e).toNat) : ℤ) : ℚ) * 2 ^ e = signed neg k * 2 ^ i := by
            intro neg k i e he
            rw [hshift, Int.cast_mul, Int.cast_pow, Int.cast_ofNat, mul_assoc, ← zpow_natCast,
              ← zpow_add₀ (by norm_num), Int.toNat_of_nonneg (by omega), sub_add_cancel]
          refine ⟨_, min q r, ?_, rfl⟩
          rw [Int.cast_add, add_mul, hpart s m (min_le_left q r), hpart t n (min_le_right q r)]
          rfl
      | _ => cases hy
  | _ => cases hx

/-- A dyadic number without its sign. -/
theorem natAbs_mul_zpow (k e : ℤ) : (k.natAbs : ℚ) * 2 ^ e = |(k : ℚ) * 2 ^ e| := by
  rw [abs_mul, abs_of_pos (zpow_pos (by norm_num : (0 : ℚ) < 2) e), Nat.cast_natAbs, Int.cast_abs]

/-- The exact sum of two finite numbers, and how it is rounded. -/
theorem add_eq {x y : Binary64} (hx : x.isFinite = true) (hy : y.isFinite = true) :
    ∃ (neg : Bool) (a : ℕ) (e : ℤ), (a : ℚ) * 2 ^ e = |x.value + y.value|
      ∧ add x y = ofScaled neg a 1 e := by
  obtain ⟨k, e, hsum, hadd⟩ := add_eq_ofDyadic hx hy
  rw [← hsum, hadd, ofDyadic]
  split
  · rename_i hzero
    exact ⟨_, 0, e, by rw [← natAbs_mul_zpow, hzero, Int.natAbs_zero], rfl⟩
  · exact ⟨_, k.natAbs, e, natAbs_mul_zpow k e, rfl⟩

/-- A sum that is not zero is rounded with its sign. -/
theorem add_eq_signed {x y : Binary64} (hx : x.isFinite = true) (hy : y.isFinite = true)
    (hne : x.value + y.value ≠ 0) : ∃ (a : ℕ) (e : ℤ), (a : ℚ) * 2 ^ e = |x.value + y.value|
      ∧ add x y = ofScaled (decide (x.value + y.value < 0)) a 1 e := by
  obtain ⟨k, e, hsum, hadd⟩ := add_eq_ofDyadic hx hy
  have hpower : (0 : ℚ) < 2 ^ e := zpow_pos (by norm_num) e
  rw [← hsum] at hne ⊢
  have hk : k ≠ 0 := by
    rintro rfl
    rw [Int.cast_zero, zero_mul] at hne
    exact hne rfl
  have hsign : (k : ℚ) * 2 ^ e < 0 ↔ k < 0 := by
    rw [← neg_pos, ← neg_mul, mul_pos_iff_of_pos_right hpower, neg_pos, Int.cast_lt_zero]
  refine ⟨k.natAbs, e, natAbs_mul_zpow k e, ?_⟩
  rw [hadd, ofDyadic, if_neg hk, decide_eq_decide.2 hsign]

/-- The exact sum of two finite numbers is not greater than their magnitudes together. -/
theorem abs_add_value_le (x y : Binary64) : |x.value + y.value| ≤ x.magnitude + y.magnitude := by
  rw [← abs_value, ← abs_value]
  exact abs_add_le _ _

/-- A sum is finite if the magnitudes together are below the limit. -/
theorem isFinite_add {x y : Binary64} (hx : x.isFinite = true) (hy : y.isFinite = true)
    (h : x.magnitude + y.magnitude < limit) : (add x y).isFinite = true := by
  obtain ⟨neg, a, e, hsum, hadd⟩ := add_eq hx hy
  rw [hadd, isFinite_ofScaled Nat.one_pos, Nat.cast_one, div_one, hsum]
  exact lt_of_le_of_lt (abs_add_value_le x y) h

/-- A sum is at most twice the magnitudes together, and one more. -/
theorem magnitude_add_le {x y : Binary64} (hx : x.isFinite = true) (hy : y.isFinite = true) :
    (add x y).magnitude ≤ 2 * (x.magnitude + y.magnitude) + 1 := by
  obtain ⟨neg, a, e, hsum, hadd⟩ := add_eq hx hy
  have hround := magnitude_ofScaled_le (a := a) (e := e) Nat.one_pos neg
  have hle := abs_add_value_le x y
  rw [Nat.cast_one, div_one, hsum] at hround
  rw [hadd]
  linarith

/-! ## Small numbers -/

/-- Undefined, or too small to take a finite number past the limit. -/
def Modest (x : Binary64) : Prop :=
  x.isNan = true ∨ x.isFinite = true ∧ x.magnitude < 2 ^ (970 : ℤ)

/-- Neither of the infinities. -/
def Bounded (x : Binary64) : Prop := ∀ neg, x ≠ .infinite neg

/-- A finite number is no infinity. -/
theorem bounded_of_isFinite {x : Binary64} (h : x.isFinite = true) : x.Bounded := by
  rintro neg rfl
  cases h

/-- A modest number and a finite one have a sum that is not infinite. -/
theorem Modest.add {x y : Binary64} (hx : x.Modest) (hy : y.isFinite = true) :
    (add x y).Bounded := by
  rcases hx with hnan | ⟨hfinite, hsmall⟩
  · cases x with
    | nan mark =>
        rintro neg h
        cases h
    | _ => cases hnan
  · refine bounded_of_isFinite (isFinite_add hfinite hy ?_)
    have := magnitude_add_le_limit y
    linarith

/-- A million is small. -/
theorem million_lt : (1000000 : ℚ) < 2 ^ (970 : ℤ) := by
  have : (2 : ℚ) ^ (20 : ℤ) < 2 ^ (970 : ℤ) := zpow_lt_zpow_right₀ (by norm_num) (by norm_num)
  refine lt_trans ?_ this
  norm_num

/-- A million is far below the limit. -/
theorem million_lt_limit : (1000000 : ℚ) < limit := by
  have := magnitude_add_le_limit undefined
  rw [show undefined.magnitude = 0 from rfl, zero_add] at this
  exact million_lt.trans_le this

/-- What is at most a million is modest. -/
theorem modest_of_le {x : Binary64} (hx : x.isFinite = true) (h : x.magnitude ≤ 1000000) :
    x.Modest :=
  .inr ⟨hx, h.trans_lt million_lt⟩

/-- The exact remainder of finite numbers, and how it is rounded. -/
theorem rem_of_finite {x y : Binary64} (hx : x.isFinite = true) (hy : y.isFinite = true)
    (hzero : y.isZero = false) : ∃ (neg : Bool) (a : ℕ) (e : ℤ), (a : ℚ) * 2 ^ e ≤ y.magnitude
      ∧ rem x y = ofScaled neg a 1 e := by
  cases x with
  | finite s m q hq =>
      cases y with
      | finite t n r hr =>
          have hn : n ≠ 0 := by simpa [isZero] using hzero
          refine ⟨s, (m <<< (q - min q r).toNat) % (n <<< (r - min q r).toNat), min q r, ?_,
            by simp only [rem, if_neg hn]⟩
          show _ ≤ (n : ℚ) * 2 ^ r
          rw [← shifted_value n (min_le_right q r)]
          gcongr
          exact (Nat.mod_lt _ (shifted_pos (Nat.pos_of_ne_zero hn) _)).le
      | _ => cases hy
  | _ => cases hx

/-- A remainder by a finite number is undefined, or not greater than it. -/
theorem rem_eq (x : Binary64) {y : Binary64} (hy : y.isFinite = true) :
    rem x y = undefined ∨ ∃ (neg : Bool) (a : ℕ) (e : ℤ), (a : ℚ) * 2 ^ e ≤ y.magnitude
      ∧ rem x y = ofScaled neg a 1 e := by
  cases y with
  | finite t n r hr =>
      cases x with
      | finite s m q hq =>
          by_cases hn : n = 0
          · exact .inl (by simp only [rem, if_pos hn])
          · exact .inr (rem_of_finite rfl rfl (by simpa [isZero] using hn))
      | _ => exact .inl rfl
  | _ => cases hy

/-- A remainder by a small number is small. -/
theorem modest_mod (x : Binary64) {y : Binary64} (hy : y.isFinite = true)
    (hsmall : y.magnitude ≤ 1000) : (mod x y).Modest := by
  rcases rem_eq x hy with hrem | ⟨neg, a, e, hle, hrem⟩
  · refine .inl ?_
    rw [mod, hrem]
    rfl
  · have hmillion := million_lt_limit
    have hfinite : (rem x y).isFinite = true := by
      rw [hrem, isFinite_ofScaled Nat.one_pos, Nat.cast_one, div_one]
      linarith
    have hround := magnitude_ofScaled_le (a := a) (e := e) Nat.one_pos neg
    rw [← hrem, Nat.cast_one, div_one] at hround
    have hsum : (add (rem x y) y).Modest :=
      modest_of_le (isFinite_add hfinite hy (by linarith))
        (le_trans (magnitude_add_le hfinite hy) (by linarith))
    have hself : (rem x y).Modest := modest_of_le hfinite (by linarith)
    rw [mod]
    cases h : rem x y with
    | nan mark => exact .inl rfl
    | infinite s =>
        rw [h] at hfinite
        cases hfinite
    | finite s m q hq =>
        rw [h] at hsum hself
        dsimp only
        split
        · exact modest_of_le rfl (by simp [zero, magnitude])
        · split
          · exact hself
          · exact hsum

/-- Part of a finite number, in pieces: if all pieces together do not get past
    the limit, some of them do not. -/
theorem bounded_pieces {x s y z : Binary64} (hx : x.Modest) (hs : s.isFinite = true)
    (hy : y.isFinite = true) (hz : z.isFinite = true) (hone : 1 ≤ z.magnitude)
    (hle : y.magnitude ≤ z.magnitude) (h : (add x ((s.mul z).div z)).Bounded) :
    (add x ((s.mul y).div z)).Bounded := by
  have hadd : x.isNan = true ∨ (s.mul z).isFinite = true := by
    rcases hx with hnan | ⟨hfinite, -⟩
    · exact .inl hnan
    · rcases mul_cases hs hz with hproduct | ⟨neg, hproduct⟩
      · exact .inr hproduct
      · -- from an infinite product there is no way back
        rw [hproduct] at h
        cases z with
        | finite t n r hr =>
            cases x with
            | finite u m q hq => exact absurd rfl (h (neg != t))
            | _ => cases hfinite
        | _ => cases hz
  rcases hadd with hnan | hproduct
  · cases x with
    | nan mark =>
        rintro neg hneg
        cases hneg
    | _ => cases hnan
  · refine hx.add ?_
    have hproduct' : (s.mul y).isFinite = true := by
      rw [isFinite_mul hs hz] at hproduct
      rw [isFinite_mul hs hy]
      exact lt_of_le_of_lt (mul_le_mul_of_nonneg_left hle (magnitude_nonneg s)) hproduct
    have hzero : z.isZero = false := by
      rw [← Bool.not_eq_true, isZero_iff hz]
      intro hnone
      linarith
    rw [isFinite_div hproduct' hz hzero]
    exact lt_of_le_of_lt (div_le_self (magnitude_nonneg _) hone) (magnitude_lt_limit _)

/-- The factor from degrees to radians is a fraction that is not zero. -/
theorem degree_spec : ∃ s m q h, degree = .finite s m q h ∧ m ≠ 0 ∧ q ≤ -53 := by
  have htried : (match degree with
      | .finite _ m q _ => decide (m ≠ 0 ∧ q ≤ -53)
      | _ => false) = true := by decide +kernel
  split at htried
  · rename_i s m q h hdegree
    exact ⟨s, m, q, h, hdegree, of_decide_eq_true htried⟩
  · cases htried

end TurtleLogo.Binary64
