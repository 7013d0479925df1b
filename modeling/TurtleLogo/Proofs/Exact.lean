import Mathlib.Algebra.Group.ModEq
import Mathlib.Algebra.Order.Field.Basic
import Mathlib.Algebra.Order.Floor.Ring
import Mathlib.Data.Rat.Floor
import Mathlib.Tactic.FieldSimp
import Mathlib.Tactic.Linarith
import Mathlib.Tactic.Ring
import TurtleLogo.Proofs.Canvas

/-! # Exact arithmetic

    The geometry over numbers that are never rounded: any ordered field with whole
    parts, such as the rationals.  The lengths and directions of a plane are no
    operations of a field, so they are parameters (`Trigonometry`).

    Of the remainders that normal headings and wrapped coordinates are made of, two
    facts are all that is needed: where they are, and that they are congruent to what
    they are remainders of (`remainder_mem`, `remainder_modEq`). -/

namespace TurtleLogo

/-- The lengths of vectors and the unit vectors of bearings. -/
class Trigonometry (K : Type) where
  hypot : K → K → K
  direction : K → K × K

section

variable {K : Type} [Field K] [LinearOrder K] [FloorRing K]

/-- What a division by `b` that goes as far as whole numbers do leaves of `a`. -/
def remainder (a b : K) : K := Int.fract (a / b) * b

/-- The nearest whole number, the even one of two. -/
def nearestEven (a : K) : ℤ :=
  if (⌊a + 1 / 2⌋ : K) = a + 1 / 2 ∧ ⌊a + 1 / 2⌋ % 2 = 1 then ⌊a + 1 / 2⌋ - 1 else ⌊a + 1 / 2⌋

/-- Arithmetic without rounding, which only fails where something is divided by
    zero. -/
instance (priority := low) exactScalar [Trigonometry K] : Scalar K where
  ofInt n := n
  ofFraction n d := n / d
  add a b := .ok (a + b)
  sub a b := .ok (a - b)
  mul a b := .ok (a * b)
  div a b := if b = 0 then .error .zeroDivisor else .ok (a / b)
  mod a b := if b = 0 then .error .zeroDivisor else .ok (remainder a b)
  neg a := -a
  abs a := |a|
  lt a b := decide (a < b)
  le a b := decide (a ≤ b)
  isZero a := decide (a = 0)
  ceil a := .ok ⌈a⌉
  round a := .ok (nearestEven a)
  hypot x y := .ok (Trigonometry.hypot x y)
  direction a := .ok (Trigonometry.direction a)

namespace Scalar

variable [Trigonometry K]

/-- A product is exact. -/
@[simp] theorem exact_mul (a b : K) : mul a b = .ok (a * b) := rfl

/-- A whole number is exact. -/
@[simp] theorem exact_ofInt (n : ℤ) : (ofInt n : K) = n := rfl

/-- A quotient by a number that is not zero is exact. -/
theorem exact_div (a : K) {b : K} (hb : b ≠ 0) : div a b = .ok (a / b) := if_neg hb

/-- The rest of a division is the exact remainder. -/
theorem exact_mod (a : K) {b : K} (hb : b ≠ 0) : mod a b = .ok (remainder a b) := if_neg hb

end Scalar

variable [IsStrictOrderedRing K]

/-! ## Remainders -/

omit [IsStrictOrderedRing K] in
/-- A remainder is congruent to what it is a remainder of. -/
theorem remainder_modEq (a : K) {b : K} (hb : b ≠ 0) :
    remainder a b ≡ a [PMOD b] :=
  AddCommGroup.modEq_iff_zsmul'.2
    ⟨⌊a / b⌋, sub_eq_of_eq_add' (Int.fract_div_mul_self_add_zsmul_eq b a hb).symm⟩

/-- A remainder is between zero and the divisor. -/
theorem remainder_mem (a : K) {b : K} (hb : 0 < b) : remainder a b ∈ Set.Ico 0 b :=
  Int.fract_div_mul_self_mem_Ico b a hb

/-- Two congruent numbers of the first period are the same: a whole number of periods
    that is shorter than one period is none. -/
theorem eq_of_modEq {a b p : K} (hmod : a ≡ b [PMOD p]) (ha : a ∈ Set.Ico 0 p)
    (hb : b ∈ Set.Ico 0 p) : a = b := by
  obtain ⟨n, hn⟩ := AddCommGroup.modEq_iff_zsmul.1 hmod
  have hp : 0 < p := ha.1.trans_lt ha.2
  have hlt : |b - a| < p := abs_sub_lt_of_nonneg_of_lt hb.1 hb.2 ha.1 ha.2
  rw [← hn, zsmul_eq_mul, abs_mul, abs_of_pos hp, mul_lt_iff_lt_one_left hp] at hlt
  have hnone : n = 0 := Int.abs_lt_one_iff.1 (by exact_mod_cast hlt)
  rw [hnone, zero_zsmul] at hn
  exact (sub_eq_zero.1 hn.symm).symm

end

/-! ## Scenes -/

/-- Draws shapes one after another. -/
def Scene.emitAll {α : Type} (s : Scene α) (shapes : List (Shape α)) : Scene α :=
  shapes.foldl Scene.emit s

namespace Scene

variable {α : Type}

/-- Shapes that are drawn come last in the log. -/
@[simp] theorem log_emitAll (s : Scene α) (shapes : List (Shape α)) :
    (s.emitAll shapes).log.toList = s.log.toList ++ shapes := by
  induction shapes generalizing s with
  | nil => simp [emitAll]
  | cons shape shapes ih =>
      rw [emitAll, List.foldl_cons, ← emitAll, ih]
      simp [emit]

/-- Drawing shapes leaves the turtles. -/
@[simp] theorem turtles_emitAll (s : Scene α) (shapes : List (Shape α)) :
    (s.emitAll shapes).turtles = s.turtles := by
  induction shapes generalizing s with
  | nil => rfl
  | cons shape shapes ih => exact ih (s.emit shape)

/-- Drawing shapes leaves the name of the current turtle. -/
@[simp] theorem current_emitAll (s : Scene α) (shapes : List (Shape α)) :
    (s.emitAll shapes).current = s.current := by
  induction shapes generalizing s with
  | nil => rfl
  | cons shape shapes ih => exact ih (s.emit shape)

/-- Drawing shapes leaves the current turtle. -/
@[simp] theorem turtle?_emitAll (s : Scene α) (shapes : List (Shape α)) :
    (s.emitAll shapes).turtle? = s.turtle? := by
  simp [turtle?]

end Scene

/-! ## The plane of the rationals -/

/-- The length of the way along the axes, and the last quarter turn before a bearing:
    a length and a direction are rational at least along the axes. -/
instance : Trigonometry ℚ where
  hypot x y := |x| + |y|
  direction a :=
    if ⌊a / 90⌋ % 4 = 0 then (0, 1)
    else if ⌊a / 90⌋ % 4 = 1 then (1, 0)
    else if ⌊a / 90⌋ % 4 = 2 then (0, -1)
    else (-1, 0)

/-- A new canvas of 400 by 300 pixels. -/
def exactSheet : Canvas ℚ :=
  ⟨Scene.new ⟨200, 150, 1, 0, 0⟩, .new .recording 400 300 (.empty [])⟩

end TurtleLogo
