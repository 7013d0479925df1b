/-! # Double-precision numbers

    The numbers of the IEEE 754 binary64 format, as exact data: a finite
    number is `± m · 2 ^ q` with its significand and exponent in the one
    canonical form, so that two numbers are the same datum exactly when they
    are the same number (the two zeros apart).

    * `ofScaled` rounds an exact quotient to the nearest number, ties to the
      even significand.  Every operation is its exact result, rounded by it.
    * `roundHalfEven_mul` and the bounds beside it say what rounding a quotient
      of naturals means. -/

namespace TurtleLogo

/-- The least significand of full width, two to the fifty-second. -/
abbrev Binary64.fullWidth : Nat := 0x10000000000000

/-- The one form that the significand and exponent of a finite number have. -/
def Binary64.Canonical (m : Nat) (q : Int) : Prop :=
  m < 2 * fullWidth ∧ -1074 ≤ q ∧ q ≤ 971 ∧ (fullWidth ≤ m ∨ q = -1074)

instance (m : Nat) (q : Int) : Decidable (Binary64.Canonical m q) :=
  inferInstanceAs (Decidable
    (m < 2 * Binary64.fullWidth ∧ -1074 ≤ q ∧ q ≤ 971 ∧ (Binary64.fullWidth ≤ m ∨ q = -1074)))

/-- A double-precision number.  The undefined number bears a mark by which a
    host can tell the results of two computations apart; no arithmetic looks at
    it. -/
inductive Binary64 where
  | nan (mark : Nat)
  | infinite (neg : Bool)
  | finite (neg : Bool) (m : Nat) (q : Int) (canonical : Binary64.Canonical m q)
deriving DecidableEq

namespace Binary64

/-- The zero of either sign. -/
def zero (neg : Bool) : Binary64 :=
  .finite neg 0 (-1074) (by decide)

instance : Inhabited Binary64 := ⟨zero false⟩

/-- The undefined number as computations give it, without a mark. -/
def undefined : Binary64 := .nan 0

/-- The number `1`. -/
def one : Binary64 :=
  .finite false fullWidth (-52) (by decide)

/-- Neither infinite nor undefined. -/
def isFinite : Binary64 → Bool
  | .finite .. => true
  | _ => false

/-- The undefined number. -/
def isNan : Binary64 → Bool
  | .nan _ => true
  | _ => false

/-- Either zero. -/
def isZero : Binary64 → Bool
  | .finite _ m _ _ => m == 0
  | _ => false

/-- The sign bit; the undefined number counts as positive. -/
def isNeg : Binary64 → Bool
  | .nan _ => false
  | .infinite s => s
  | .finite s .. => s

/-- The same magnitude with the other sign. -/
def neg : Binary64 → Binary64
  | .nan _ => undefined
  | .infinite s => .infinite (!s)
  | .finite s m q h => .finite (!s) m q h

/-- The magnitude. -/
def abs : Binary64 → Binary64
  | .nan _ => undefined
  | .infinite _ => .infinite false
  | .finite _ m q h => .finite false m q h

/-! ## Rounding -/

/-- The natural number nearest to `a / d`, the even one of two. -/
def roundHalfEven (a d : Nat) : Nat :=
  let f := a / d
  let r := a % d
  if 2 * r < d ∨ (2 * r = d ∧ f % 2 = 0) then f else f + 1

/-- The exponent of the last significant bit of `(a / d) · 2 ^ e`. -/
def unitExponent (a d : Nat) (e : Int) : Int :=
  let la := a.log2
  let ld := d.log2
  let k : Int := if d <<< (la - ld) ≤ a <<< (ld - la) then (la : Int) - ld else (la : Int) - ld - 1
  max (e + k - 52) (-1074)

/-- A magnitude in canonical form, or the infinity past the largest one. -/
def ofMagnitude (neg : Bool) (m : Nat) (q : Int) : Binary64 :=
  if h : Canonical m q then .finite neg m q h else .infinite neg

/-- The number nearest to `± (a / d) · 2 ^ e`. -/
def ofScaled (neg : Bool) (a d : Nat) (e : Int) : Binary64 :=
  if a = 0 then zero neg
  else
    let p := unitExponent a d e
    let m := roundHalfEven (a <<< (e - p).toNat) (d <<< (p - e).toNat)
    if m = 2 * fullWidth then ofMagnitude neg fullWidth (p + 1) else ofMagnitude neg m p

/-- The number nearest to a whole number; infinite when there is none. -/
def ofInt (n : Int) : Binary64 :=
  ofScaled (n < 0) n.natAbs 1 0

/-- The number nearest to the quotient of two whole numbers. -/
def ofRatio (a b : Int) : Binary64 :=
  ofScaled (decide (a < 0) != decide (b < 0)) a.natAbs b.natAbs 0

/-- The number nearest to `n · 2 ^ e`, with `zeroNeg` the sign of a zero. -/
def ofDyadic (zeroNeg : Bool) (n : Int) (e : Int) : Binary64 :=
  if n = 0 then zero zeroNeg else ofScaled (n < 0) n.natAbs 1 e

/-! ## What rounding a quotient does -/

/-- Rounding a quotient takes its floor or the next number, and the
    remainder says which. -/
theorem roundHalfEven_cases (a d : Nat) :
    (roundHalfEven a d = a / d ∧ 2 * (a % d) ≤ d)
      ∨ (roundHalfEven a d = a / d + 1 ∧ d ≤ 2 * (a % d)) := by
  by_cases h : 2 * (a % d) < d ∨ (2 * (a % d) = d ∧ a / d % 2 = 0)
  · refine Or.inl ⟨if_pos h, ?_⟩
    omega
  · refine Or.inr ⟨if_neg h, ?_⟩
    omega

/-- A multiple of the divisor is its own rounding. -/
theorem roundHalfEven_mul (k d : Nat) (hd : 0 < d) : roundHalfEven (k * d) d = k := by
  have h1 : k * d / d = k := Nat.mul_div_cancel k hd
  have h2 : k * d % d = 0 := Nat.mul_mod_left k d
  have h : 2 * (k * d % d) < d ∨ (2 * (k * d % d) = d ∧ k * d / d % 2 = 0) := by
    rw [h2]; exact Or.inl (by omega)
  rw [roundHalfEven, if_pos h, h1]

end Binary64

end TurtleLogo
