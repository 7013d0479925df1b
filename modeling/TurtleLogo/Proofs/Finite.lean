import TurtleLogo.Drawing.Canvas
import TurtleLogo.Proofs.Outline

/-! # Results that are finite

    What becomes of numbers that are not finite when a turtle moves or turns.

    * A heading in normal form is undefined, or it is a number from `0` up to
      `360` (`upright_or_undefined`): the remainder of a finite angle is exact, and
      one that is not finite has none.
    * A coordinate that is stopped at an edge is finite whatever it was
      (`isFinite_clampCoordinate`), and one that is wrapped is if it was before
      (`isFinite_wrapCoordinate`), as long as the edge is not too far out.
    * The hops of a move can only be counted if the move is finite
      (`isFinite_of_hopCount`). -/

namespace TurtleLogo

/-! ## Rounding -/

namespace Binary64

/-- A quotient is not rounded past a number. -/
theorem magnitude_ofScaled_le_of_le {a d : ℕ} {e : ℤ} (hd : 0 < d) {y : Binary64}
    (hy : y.isFinite = true) (h : (a : ℚ) / d * 2 ^ e ≤ y.magnitude) (neg : Bool) :
    (ofScaled neg a d e).isFinite = true ∧ (ofScaled neg a d e).magnitude ≤ y.magnitude := by
  have hfinite : (ofScaled neg a d e).isFinite = true :=
    (isFinite_ofScaled hd neg).2 (h.trans_lt (magnitude_lt_limit y))
  refine ⟨hfinite, ?_⟩
  rcases Nat.eq_zero_or_pos a with rfl | ha
  · rw [magnitude_ofScaled_zero]
    exact magnitude_nonneg y
  cases y with
  | finite t n r hr =>
      change _ ≤ (n : ℚ) * 2 ^ r at h
      show _ ≤ (n : ℚ) * 2 ^ r
      -- the last bit of the quotient is not above that of the number
      have hunit : unitExponent a d e ≤ r := by
        rcases eq_or_lt_of_le (show -1074 ≤ unitExponent a d e by
          rw [unitExponent_eq]; omega) with heq | hlt
        · rw [← heq]
          exact hr.2.1
        · have hn : (n : ℚ) < 2 ^ (53 : ℤ) := by exact_mod_cast hr.1
          have hle : (2 : ℚ) ^ (unitExponent a d e + 52) < 2 ^ (53 + r) := by
            calc (2 : ℚ) ^ (unitExponent a d e + 52) ≤ (a : ℚ) / d * 2 ^ e :=
                  le_of_unitExponent ha hd hlt
              _ ≤ n * 2 ^ r := h
              _ < 2 ^ (53 : ℤ) * 2 ^ r := by gcongr
              _ = 2 ^ (53 + r) := (zpow_add₀ (by norm_num) _ _).symm
          rw [zpow_lt_zpow_iff_right₀ (by norm_num)] at hle
          omega
      obtain ⟨k, hk⟩ : ∃ k : ℕ, r = unitExponent a d e + k :=
        ⟨(r - unitExponent a d e).toNat, by omega⟩
      have hvalue : (n : ℚ) * 2 ^ r = ((n * 2 ^ k : ℕ) : ℚ) * 2 ^ unitExponent a d e := by
        rw [hk, zpow_add₀ (by norm_num), zpow_natCast]
        push_cast
        ring
      have hdigits : digits a d e ≤ n * 2 ^ k := by
        refine roundHalfEven_le (shifted_pos hd _) ?_
        have hpos : (0 : ℚ) < ((d <<< (unitExponent a d e - e).toNat : ℕ) : ℚ) :=
          Nat.cast_pos.2 (shifted_pos hd _)
        rw [hvalue, ← div_le_iff₀ (zpow_pos (by norm_num) _), ← shifted_eq, div_le_iff₀ hpos] at h
        exact_mod_cast h
      rw [magnitude_ofScaled ha hfinite, hvalue]
      gcongr
  | _ => cases hy

/-- Rounding keeps the sign. -/
theorem isNeg_ofScaled (neg : Bool) (a d : ℕ) (e : ℤ) : (ofScaled neg a d e).isNeg = neg := by
  have hmagnitude : ∀ m q, (ofMagnitude neg m q).isNeg = neg := by
    intro m q
    rw [ofMagnitude]
    split <;> rfl
  rw [ofScaled]
  split
  · rfl
  · dsimp only
    split
    · exact hmagnitude _ _
    · exact hmagnitude _ _

/-! ## Remainders -/

section

variable {x y : Binary64} (hx : x.isFinite = true) (hy : y.isFinite = true)
include hx hy

/-- The remainder of finite numbers is not greater than the divisor. -/
theorem rem_spec (hzero : y.isZero = false) :
    (rem x y).isFinite = true ∧ (rem x y).magnitude ≤ y.magnitude := by
  obtain ⟨neg, a, e, hle, hrem⟩ := rem_of_finite hx hy hzero
  rw [hrem]
  exact magnitude_ofScaled_le_of_le Nat.one_pos hy (by simpa using hle) neg

/-- A remainder may have to be moved to the side of the divisor. -/
theorem mod_cases (hzero : y.isZero = false) : mod x y = zero y.isNeg
    ∨ mod x y = rem x y ∧ (rem x y).isNeg = y.isNeg
    ∨ mod x y = add (rem x y) y ∧ (rem x y).isNeg = !y.isNeg := by
  have hfinite := (rem_spec hx hy hzero).1
  rw [mod]
  cases hrem : rem x y with
  | finite s m q hq =>
      dsimp only
      split
      · exact .inl rfl
      · split
        · rename_i hsame
          exact .inr (.inl ⟨rfl, eq_of_beq hsame⟩)
        · rename_i hother
          refine .inr (.inr ⟨rfl, ?_⟩)
          cases hs : (finite s m q hq).isNeg <;> cases ht : y.isNeg <;> simp_all
  | _ =>
      rw [hrem] at hfinite
      cases hfinite

/-- The remainder by a number that is not huge is finite. -/
theorem mod_spec (hzero : y.isZero = false) (hsmall : 2 * y.magnitude < limit) :
    (mod x y).isFinite = true ∧ (mod x y).magnitude ≤ 4 * y.magnitude + 1 := by
  obtain ⟨hfinite, hle⟩ := rem_spec hx hy hzero
  have hnonneg := magnitude_nonneg y
  rcases mod_cases hx hy hzero with hmod | ⟨hmod, -⟩ | ⟨hmod, -⟩
  · have hnothing : (zero y.isNeg).magnitude = 0 := by simp [zero, magnitude]
    rw [hmod, hnothing]
    exact ⟨rfl, by linarith⟩
  · rw [hmod]
    exact ⟨hfinite, by linarith⟩
  · rw [hmod]
    exact ⟨isFinite_add hfinite hy (by linarith),
      (magnitude_add_le hfinite hy).trans (by linarith)⟩

/-- A sum has the sign of the greater number. -/
theorem isNeg_add (hneg : x.isNeg = true) (hpos : y.isNeg = false)
    (hle : x.magnitude ≤ y.magnitude) : (add x y).isNeg = false := by
  obtain ⟨k, e, hsum, hadd⟩ := add_eq_ofDyadic hx hy
  have hk : 0 ≤ k := by
    have hnonneg : 0 ≤ (k : ℚ) * 2 ^ e := by
      rw [hsum, value_eq, value_eq, hneg, hpos, if_pos rfl, if_neg Bool.false_ne_true]
      linarith
    exact_mod_cast nonneg_of_mul_nonneg_left hnonneg (zpow_pos (by norm_num) e)
  rw [hadd, ofDyadic, hneg, hpos]
  split
  · rfl
  · rw [isNeg_ofScaled]
    exact decide_eq_false hk.not_gt

/-- A remainder by a positive number is not negative. -/
theorem isNeg_mod (hzero : y.isZero = false) (hpos : y.isNeg = false) :
    (mod x y).isNeg = false := by
  obtain ⟨hfinite, hle⟩ := rem_spec hx hy hzero
  rcases mod_cases hx hy hzero with hmod | ⟨hmod, hsign⟩ | ⟨hmod, hsign⟩
  · rw [hmod, hpos]
    rfl
  · rw [hmod, hsign, hpos]
  · rw [hmod]
    rw [hpos] at hsign
    exact isNeg_add hfinite hy hsign hpos hle

end

end Binary64

/-! ## Order -/

namespace Number

/-- Numbers are compared as their exact quantities. -/
theorem compare?_eq (a b : Number) : compare? a b = Exact.compare? a.exact b.exact := by
  cases a with
  | int n =>
      cases b with
      | int k =>
          show some (compare n k) = some (compare (n * ((1 <<< 0 : ℕ) : ℤ)) (k * ((1 <<< 0 : ℕ) : ℤ)))
          rw [Nat.shiftLeft_zero, Nat.cast_one, mul_one, mul_one]
      | real y => rfl
  | real x => rfl

/-- The exact value of a finite number. -/
theorem exact_of_isFinite {a : Number} (h : a.isFinite = true) : ∃ n e, a.exact = .dyadic n e := by
  cases a with
  | int n => exact ⟨n, 0, rfl⟩
  | real x =>
      cases x with
      | finite s m q hq => exact ⟨_, _, rfl⟩
      | _ => cases h

/-- Finite numbers are in order. -/
theorem lt_of_not_le {a b : Number} (ha : a.isFinite = true) (hb : b.isFinite = true)
    (h : le a b = false) : lt b a = true := by
  obtain ⟨n, e, hn⟩ := exact_of_isFinite ha
  obtain ⟨k, f, hk⟩ := exact_of_isFinite hb
  rw [le, lt, eq, compare?_eq, hn, hk] at h
  rw [lt, compare?_eq, hn, hk]
  simp only [Exact.compare?, Exact.compareDyadic] at h ⊢
  generalize n * _ = i at h ⊢
  generalize k * _ = j at h ⊢
  rcases lt_trichotomy i j with hlt | rfl | hgt
  · simp [compare_lt_iff_lt.2 hlt] at h
  · simp at h
  · simp [compare_lt_iff_lt.2 hgt]

/-- A whole number that is not negative is not below zero. -/
theorem zero_le_int {n : ℤ} (hn : 0 ≤ n) : le (.int 0) (.int n) = true := by
  cases hle : le (.int 0) (.int n) with
  | true => rfl
  | false =>
      have hlt : lt (.int n) (.int 0) = true := lt_of_not_le rfl rfl hle
      change (some (compare n 0) == some Ordering.lt) = true at hlt
      rw [beq_iff_eq, Option.some.injEq, compare_lt_iff_lt] at hlt
      exact absurd hlt (not_lt.2 hn)

/-- A finite real without a minus sign is not below zero. -/
theorem zero_le_real {x : Binary64} (hx : x.isFinite = true) (hneg : x.isNeg = false) :
    le (.int 0) (.real x) = true := by
  cases hle : le (.int 0) (.real x) with
  | true => rfl
  | false =>
      have hlt : lt (.real x) (.int 0) = true := lt_of_not_le (a := .int 0) rfl hx hle
      cases x with
      | finite s m q hq =>
          change s = false at hneg
          subst hneg
          rw [lt, compare?_eq] at hlt
          change (some (compare ((m : ℤ) * _) (0 * _)) == some Ordering.lt) = true at hlt
          rw [zero_mul, beq_iff_eq, Option.some.injEq, compare_lt_iff_lt] at hlt
          exact absurd hlt (not_lt.2 (by positivity))
      | _ => cases hx

/-- What lies between two numbers is finite. -/
theorem isFinite_of_between {a b v : Number} (hlow : lt a v = true) (hhigh : lt v b = true) :
    v.isFinite = true := by
  cases v with
  | int n => rfl
  | real x =>
      rw [lt, compare?_eq, beq_iff_eq] at hlow hhigh
      cases x with
      | finite s m q hq => rfl
      | nan k => cases hhigh
      | infinite s =>
          change Exact.compare? a.exact (.infinite s) = some .lt at hlow
          change Exact.compare? (.infinite s) b.exact = some .lt at hhigh
          cases s with
          | true =>
              cases ha : a.exact with
              | infinite t => cases t <;> simp [ha, Exact.compare?] at hlow
              | _ => simp [ha, Exact.compare?] at hlow
          | false =>
              cases hb : b.exact with
              | infinite t => cases t <;> simp [hb, Exact.compare?] at hhigh
              | _ => simp [hb, Exact.compare?] at hhigh

/-- A heading in normal form. -/
structure IsHeading (h : Number) : Prop where
  finite : h.isFinite = true
  low : le (.int 0) h = true
  high : lt h (.int 360) = true

end Number

/-! ## Headings -/

/-- A full circle is far below the limit. -/
theorem magnitude_circle : 2 * (Binary64.ofInt 360).magnitude < Binary64.limit := by
  have hle := Binary64.magnitude_ofInt_le 360
  have hlimit := Binary64.million_lt_limit
  norm_num at hle
  linarith

/-- What is brought into normal form is a heading, unless it is undefined. -/
theorem upright_or_undefined {h r : Number} (hr : normalizeHeading h = .ok r) :
    r.IsHeading ∨ r = .real .undefined := by
  obtain ⟨s, hs, hr⟩ := Except.bind_eq_ok hr
  have hmod : s.isFinite = true ∧ Number.le (.int 0) s = true ∨ s = .real .undefined := by
    cases h with
    | int n =>
        cases hs
        have hlow := Int.fmod_nonneg_of_pos n (show (0 : ℤ) < 360 by decide)
        exact .inl ⟨rfl, Number.zero_le_int hlow⟩
    | real x =>
        change Number.combine Int.fmod Binary64.mod (.real x) (.int 360) = .ok s at hs
        obtain ⟨y, hy, rfl⟩ := Number.combine_right_ok hs
        obtain ⟨rfl, hfinite⟩ := Number.toReal_int_ok hy
        cases hx : x.isFinite with
        | true =>
            obtain ⟨hmod, -⟩ := Binary64.mod_spec hx hfinite (by decide +kernel) magnitude_circle
            exact .inl ⟨hmod, Number.zero_le_real hmod
              (Binary64.isNeg_mod hx hfinite (by decide +kernel) (by decide +kernel))⟩
        | false =>
            refine .inr ?_
            cases x with
            | finite _ _ _ _ => cases hx
            | nan k => rfl
            | infinite neg =>
                -- an infinity has no remainder by a finite number
                cases hcircle : Binary64.ofInt 360 with
                | finite t n r hr => rfl
                | _ =>
                    rw [hcircle] at hfinite
                    cases hfinite
  cases hr
  split
  · exact .inl ⟨rfl, rfl, rfl⟩
  · rename_i hturn
    rcases hmod with ⟨hfinite, hlow⟩ | rfl
    · exact .inl ⟨hfinite, hlow, Number.lt_of_not_le rfl hfinite (eq_false_of_ne_true hturn)⟩
    · exact .inr rfl

/-! ## Places -/

namespace Binary64

/-- A sum is finite only if its parts are. -/
theorem isFinite_of_add {x y : Binary64} (h : (add x y).isFinite = true) : x.isFinite = true := by
  cases x with
  | finite s m q hq => rfl
  | nan k => cases h
  | infinite s =>
      cases y with
      | infinite t =>
          rw [add] at h
          split at h <;> cases h
      | _ => cases h

/-- A quotient is finite only if the dividend is. -/
theorem isFinite_of_div {x y : Binary64} (hy : y.isFinite = true)
    (h : (div x y).isFinite = true) : x.isFinite = true := by
  cases x with
  | finite s m q hq => rfl
  | nan k => cases h
  | infinite s =>
      cases y with
      | finite t n r hr => cases h
      | _ => cases hy

/-- A distance is finite only if both coordinates are. -/
theorem isFinite_of_hypot {x y : Binary64} (h : (hypot x y).isFinite = true) :
    x.isFinite = true ∧ y.isFinite = true := by
  cases x <;> cases y <;> first | exact ⟨rfl, rfl⟩ | cases h

theorem isFinite_neg (x : Binary64) : x.neg.isFinite = x.isFinite := by
  cases x <;> rfl

theorem magnitude_neg (x : Binary64) : x.neg.magnitude = x.magnitude := by
  cases x <;> rfl

/-- A finite number can be brought back over an edge that is not too far out. -/
theorem isFinite_wrapped {x y z : Binary64} (hx : x.isFinite = true) (hy : y.isFinite = true)
    (hz : z.isFinite = true) (hfactor : z.magnitude ≤ 5) (hsmall : y.magnitude < 2 ^ (961 : ℤ))
    (hzero : (mul z y).isZero = false) :
    (sub (mod (add x y) (mul z y)) y).isFinite = true := by
  have hlimit := magnitude_add_le_limit x
  have hone : (1 : ℚ) < 2 ^ (961 : ℤ) := one_lt_zpow₀ (by norm_num) (by norm_num)
  rw [show (970 : ℤ) = 9 + 961 from rfl, zpow_add₀ (by norm_num),
    show (2 : ℚ) ^ (9 : ℤ) = 512 by norm_num] at hlimit
  generalize (2 : ℚ) ^ (961 : ℤ) = u at hsmall hlimit hone
  have hyz : z.magnitude * y.magnitude ≤ 5 * y.magnitude :=
    mul_le_mul_of_nonneg_right hfactor (magnitude_nonneg y)
  have hx0 := magnitude_nonneg x
  have hwidth : (mul z y).isFinite = true := (isFinite_mul hz hy).2 (by linarith)
  have hwide := magnitude_mul_le hz hy
  have hshifted : (add x y).isFinite = true := isFinite_add hx hy (by linarith)
  obtain ⟨hmod, hrest⟩ := mod_spec hshifted hwidth hzero (by linarith)
  refine isFinite_add hmod ((isFinite_neg y).trans hy) ?_
  rw [magnitude_neg]
  linarith

end Binary64

namespace Number

/-- A number is finite exactly if the real that it is made is. -/
theorem isFinite_of_toReal {a : Number} {x : Binary64} (h : a.toReal = .ok x) :
    a.isFinite = true ↔ x.isFinite = true := by
  cases a with
  | int n => exact ⟨fun _ => (toReal_int_ok h).2, fun _ => rfl⟩
  | real y =>
      cases h
      exact Iff.rfl

/-- What a finite difference is taken from is finite. -/
theorem isFinite_of_sub {a b d : Number} (h : sub a b = .ok d) (hd : d.isFinite = true) :
    a.isFinite = true := by
  cases a with
  | int n => rfl
  | real x =>
      obtain ⟨y, -, rfl⟩ := combine_right_ok h
      exact Binary64.isFinite_of_add hd

/-- Only a finite number has a whole part. -/
theorem isFinite_of_ceil {x : Binary64} {n : ℤ} (h : ceil (.real x) = .ok n) :
    x.isFinite = true := by
  cases x with
  | finite s m q hq => rfl
  | _ => cases h

end Number

/-- The hops of a move can only be counted if it is finite. -/
theorem Canvas.isFinite_of_hopCount {dx dy : Number} {steps : ℕ}
    (h : hopCount dx dy = .ok steps) : dx.isFinite = true ∧ dy.isFinite = true := by
  obtain ⟨d, hd, h⟩ := Except.bind_eq_ok h
  obtain ⟨q, hq, h⟩ := Except.bind_eq_ok h
  obtain ⟨n, hn, -⟩ := Except.bind_eq_ok h
  obtain ⟨x, hx, hd⟩ := Except.bind_eq_ok hd
  obtain ⟨y, hy, hd⟩ := Except.bind_eq_ok hd
  cases hd
  change Number.combine (fun _ _ => 0) Binary64.div (.real (x.hypot y)) (.int 10) = .ok q at hq
  obtain ⟨z, hz, rfl⟩ := Number.combine_right_ok hq
  have hlength := Binary64.isFinite_of_div (Number.toReal_int_ok hz).2 (Number.isFinite_of_ceil hn)
  rw [Number.isFinite_of_toReal hx, Number.isFinite_of_toReal hy]
  exact Binary64.isFinite_of_hypot hlength

/-- A coordinate that is stopped at an edge is finite, whatever it was. -/
theorem isFinite_clampCoordinate (v : Number) {half : Number} (h : half.isFinite = true) :
    (clampCoordinate v half).isFinite = true := by
  have hneg : half.neg.isFinite = true := by
    cases half with
    | int n => rfl
    | real x => exact (Binary64.isFinite_neg x).trans h
  show (if Number.lt half.neg (if Number.lt v half then v else half)
    then (if Number.lt v half then v else half) else half.neg).isFinite = true
  by_cases hv : Number.lt v half = true
  · rw [if_pos hv]
    split
    · rename_i hlow
      exact Number.isFinite_of_between hlow hv
    · exact hneg
  · rw [if_neg hv]
    split
    · exact h
    · exact hneg

/-- Half the side of a surface that is not huge. -/
def Number.IsHalf (half : Number) : Prop :=
  ∃ y, half = .real y ∧ y.isFinite = true ∧ y.magnitude < 2 ^ (961 : ℤ)

/-- Half a side is finite. -/
theorem Number.IsHalf.finite {half : Number} (h : half.IsHalf) : half.isFinite = true := by
  obtain ⟨y, rfl, hy, -⟩ := h
  exact hy

/-- Half of a whole number that is not huge. -/
theorem Number.isHalf_div {n : ℤ} {half : Number} (hn : n.natAbs < 2 ^ 960)
    (h : Number.div (.int n) (.int 2) = .ok half) : half.IsHalf := by
  rw [div_int (by decide)] at h
  split at h
  · rename_i hfinite
    cases h
    refine ⟨_, rfl, hfinite, ?_⟩
    have hround := Binary64.magnitude_ofScaled_le (a := n.natAbs) (d := 2) (e := 0) Nat.two_pos
      (decide (n < 0) != decide ((2 : ℤ) < 0))
    have hsize : (n.natAbs : ℚ) < 2 ^ (960 : ℤ) := by exact_mod_cast hn
    have hone : (1 : ℚ) < 2 ^ (960 : ℤ) := one_lt_zpow₀ (by norm_num) (by norm_num)
    rw [show (961 : ℤ) = 1 + 960 from rfl, zpow_add₀ (by norm_num), zpow_one]
    generalize (2 : ℚ) ^ (960 : ℤ) = u at hsize hone ⊢
    refine hround.trans_lt ?_
    push_cast
    linarith
  · cases h

/-- A finite coordinate that is wrapped is finite. -/
theorem isFinite_wrapCoordinate {v half r : Number} (hv : v.isFinite = true) (hhalf : half.IsHalf)
    (h : wrapCoordinate v half = .ok r) : r.isFinite = true := by
  obtain ⟨y, rfl, hy, hsmall⟩ := hhalf
  rw [wrapCoordinate] at h
  split at h
  · cases h
    exact hv
  · obtain ⟨shifted, hshifted, h⟩ := Except.bind_eq_ok h
    obtain ⟨width, hwidth, h⟩ := Except.bind_eq_ok h
    obtain ⟨rest, hrest, h⟩ := Except.bind_eq_ok h
    change Number.combine (· * ·) Binary64.mul (.int 2) (.real y) = .ok width at hwidth
    obtain ⟨x, hx, rfl⟩ := Number.combine_left_ok hshifted
    obtain ⟨z, hz, rfl⟩ := Number.combine_left_ok hwidth
    obtain ⟨rfl, htwo⟩ := Number.toReal_int_ok hz
    change Number.mod (.real (x.add y)) (.real ((Binary64.ofInt 2).mul y)) = .ok rest at hrest
    rw [Number.mod] at hrest
    split at hrest
    · cases hrest
    · rename_i hzero
      cases hrest
      cases h
      refine Binary64.isFinite_wrapped ((Number.isFinite_of_toReal hx).1 hv) hy htwo ?_ hsmall
        (eq_false_of_ne_true hzero)
      refine (Binary64.magnitude_ofInt_le 2).trans ?_
      norm_num

end TurtleLogo
