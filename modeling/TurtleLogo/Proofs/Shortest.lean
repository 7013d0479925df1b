import TurtleLogo.Proofs.Quantity

/-! # Shortest decimals

    The digits that are written for a number are read back as that number.

    * A quotient is rounded to `m · 2 ^ q` exactly if it is in an interval around
      it, which is narrower below the first number of its units (`Rounds`,
      `ofScaled_of_rounds`).
    * On the grid of a power of ten, one of the two points next to the number is
      taken if it is in that interval (`neighbour?_cases`), and a grid with
      seventeen digits has such a point (`neighbour?_isSome`).
    * So the digits that are found read back, and they do not fall short of the
      power of ten below the number (`shortest_spec`, `ofDecimal_of_rounds`). -/

namespace TurtleLogo.Binary64

/-! ## What is rounded to a number -/

/-- Up to half a unit around a whole number, a quotient is rounded to it, the
    ends included if it is even. -/
theorem roundHalfEven_eq {a d n : ℕ} (hd : 0 < d) (hlow : 2 * (n * d) ≤ 2 * a + d)
    (hhigh : 2 * a ≤ 2 * (n * d) + d)
    (hodd : n % 2 = 1 → 2 * (n * d) < 2 * a + d ∧ 2 * a < 2 * (n * d) + d) :
    roundHalfEven a d = n := by
  have ha := Nat.div_add_mod' a d
  have hmod := Nat.mod_lt a hd
  rcases Nat.lt_trichotomy n (a / d) with hlt | heq | hgt
  · have hle : (n + 1) * d ≤ a / d * d := Nat.mul_le_mul_right d hlt
    rw [Nat.succ_mul] at hle
    omega
  · rw [← heq] at ha
    simp only [roundHalfEven, ← heq]
    split <;> omega
  · rcases Nat.eq_or_lt_of_le (Nat.succ_le_of_lt hgt) with heq | hgt
    · subst heq
      rw [Nat.succ_mul (a / d) d] at hlow hhigh hodd
      simp only [roundHalfEven]
      split <;> omega
    · have hle : (a / d + 2) * d ≤ n * d := Nat.mul_le_mul_right d hgt
      rw [Nat.add_mul] at hle
      omega

/-- The quantities that are rounded to `m · 2 ^ q`: from half a unit below, or a
    quarter where the units change, to half a unit above, and both ends only if
    `m` is even. -/
structure Rounds (m : ℕ) (q : ℤ) (v : ℚ) : Prop where
  low : (roundingFloor m q).1 * (2 : ℚ) ^ (q - 2) ≤ v
  high : v ≤ (4 * m + 2) * (2 : ℚ) ^ (q - 2)
  odd : m % 2 = 1 →
    (roundingFloor m q).1 * (2 : ℚ) ^ (q - 2) < v ∧ v < (4 * m + 2) * (2 : ℚ) ^ (q - 2)

section

variable {a d : ℕ} {e : ℤ} (ha : 0 < a) (hd : 0 < d)
include ha hd

/-- The last bit of a quotient is settled by the powers of two around it. -/
theorem unitExponent_eq_of {p : ℤ} (hp : -1074 ≤ p) (hlt : (a : ℚ) / d * 2 ^ e < 2 ^ (p + 53))
    (hle : p = -1074 ∨ (2 : ℚ) ^ (p + 52) ≤ (a : ℚ) / d * 2 ^ e) : unitExponent a d e = p := by
  have hunit : -1074 ≤ unitExponent a d e := by
    rw [unitExponent_eq]
    omega
  refine le_antisymm (not_lt.1 fun h => ?_) (not_lt.1 fun h => ?_)
  · have := (le_of_unitExponent (e := e) ha hd (hp.trans_lt h)).trans_lt hlt
    rw [zpow_lt_zpow_iff_right₀ (by norm_num)] at this
    omega
  · have := (hle.resolve_left (by omega)).trans_lt (lt_of_unitExponent ha hd)
    rw [zpow_lt_zpow_iff_right₀ (by norm_num)] at this
    omega

omit ha in
/-- The digits of a quotient up to half a unit around a whole number. -/
theorem digits_eq {n : ℕ} {v : ℚ} (hv : v = (a : ℚ) / d * 2 ^ e / 2 ^ unitExponent a d e)
    (hlow : (n : ℚ) - 1 / 2 ≤ v) (hhigh : v ≤ n + 1 / 2)
    (hodd : n % 2 = 1 → (n : ℚ) - 1 / 2 < v ∧ v < n + 1 / 2) : digits a d e = n := by
  rw [← shifted_eq] at hv
  have hD := shifted_pos hd (unitExponent a d e - e).toNat
  have hDq := Nat.cast_pos (α := ℚ).2 hD
  subst hv
  rw [digits]
  generalize d <<< (unitExponent a d e - e).toNat = D at *
  generalize a <<< (e - unitExponent a d e).toNat = A at *
  refine roundHalfEven_eq hD ?_ ?_ fun hn => ?_
  · rw [le_div_iff₀ hDq] at hlow
    have : 2 * ((n : ℚ) * D) ≤ 2 * A + D := by linarith
    exact_mod_cast this
  · rw [div_le_iff₀ hDq] at hhigh
    have : 2 * (A : ℚ) ≤ 2 * (n * D) + D := by linarith
    exact_mod_cast this
  · obtain ⟨hlow, hhigh⟩ := hodd hn
    rw [lt_div_iff₀ hDq] at hlow
    rw [div_lt_iff₀ hDq] at hhigh
    have hleft : 2 * ((n : ℚ) * D) < 2 * A + D := by linarith
    have hright : 2 * (A : ℚ) < 2 * (n * D) + D := by linarith
    exact ⟨by exact_mod_cast hleft, by exact_mod_cast hright⟩

end

/-- The interval below a number ends less than half a unit away. -/
theorem roundingFloor_mem {m : ℕ} (hm : 0 < m) (q : ℤ) :
    4 * (m : ℚ) - 2 ≤ (roundingFloor m q).1 ∧ ((roundingFloor m q).1 : ℚ) ≤ 4 * m - 1 := by
  have hnat : 4 * m ≤ (roundingFloor m q).1 + 2 ∧ (roundingFloor m q).1 + 1 ≤ 4 * m := by
    rw [roundingFloor]
    dsimp only
    split <;> omega
  have hlow : 4 * (m : ℚ) ≤ (roundingFloor m q).1 + 2 := by exact_mod_cast hnat.1
  have hhigh : ((roundingFloor m q).1 : ℚ) + 1 ≤ 4 * m := by exact_mod_cast hnat.2
  constructor <;> linarith

/-- Powers of two are counted in quarters of a unit. -/
theorem power_units (q : ℤ) (k : ℕ) : (2 : ℚ) ^ (q - 2 + k) = 2 ^ k * 2 ^ (q - 2) := by
  rw [zpow_add₀ (by norm_num), zpow_natCast]
  ring

/-- Numbers are counted in quarters of a unit. -/
theorem quarters_eq (m : ℕ) (q : ℤ) : (m : ℚ) * 2 ^ q = 4 * m * 2 ^ (q - 2) := by
  rw [zpow_sub₀ (by norm_num)]
  norm_num
  ring

section

variable {m a d : ℕ} {q e : ℤ} (hm : 0 < m) (hd : 0 < d)
  (hr : Rounds m q ((a : ℚ) / d * 2 ^ e))

include hm hr

/-- What is rounded to a number is less than half a unit below it. -/
theorem Rounds.le : (4 * (m : ℚ) - 2) * 2 ^ (q - 2) ≤ (a : ℚ) / d * 2 ^ e :=
  (mul_le_mul_of_nonneg_right (roundingFloor_mem hm q).1 (zpow_nonneg (by norm_num) _)).trans hr.low

/-- What is rounded to a number that is not zero is not zero. -/
theorem Rounds.pos : 0 < a := by
  have hone : (1 : ℚ) ≤ m := by exact_mod_cast hm
  have hpos : (0 : ℚ) < (4 * m - 2) * 2 ^ (q - 2) :=
    mul_pos (by linarith) (zpow_pos (by norm_num) _)
  refine Nat.pos_of_ne_zero fun hzero => ?_
  have hle := hr.le hm
  rw [hzero, Nat.cast_zero, zero_div, zero_mul] at hle
  exact absurd hpos (not_lt.2 hle)

include hd

omit hm in
/-- Below the first number of its units, a quotient has units half as large. -/
theorem Rounds.below (hfirst : m = fullWidth) (hq : -1074 < q)
    (hlt : (a : ℚ) / d * 2 ^ e < 2 ^ (q + 52)) :
    unitExponent a d e = q - 1 ∧ digits a d e = 2 * fullWidth := by
  subst hfirst
  have hlow := hr.low
  rw [show (roundingFloor fullWidth q).1 = 4 * fullWidth - 1 by
    rw [roundingFloor, if_pos ⟨rfl, hq⟩]] at hlow
  have hunit : unitExponent a d e = q - 1 := by
    refine unitExponent_eq_of (hr.pos (by decide)) hd (by omega) ?_ (.inr (le_trans ?_ hlow))
    · rw [show q - 1 + 53 = q + 52 by ring]
      exact hlt
    · rw [show q - 1 + 52 = q - 2 + (53 : ℕ) by push_cast; ring, power_units]
      gcongr
      norm_num
  refine ⟨hunit, digits_eq hd rfl ?_ ?_ fun hodd => absurd hodd (by decide)⟩
  · rw [hunit, le_div_iff₀ (zpow_pos (by norm_num) _)]
    refine le_trans (le_of_eq ?_) hlow
    rw [show q - 1 = q - 2 + (1 : ℕ) by push_cast; ring, power_units]
    norm_num
    ring
  · rw [hunit, div_le_iff₀ (zpow_pos (by norm_num) _)]
    refine hlt.le.trans ?_
    rw [show q + 52 = q - 2 + (54 : ℕ) by push_cast; ring,
      show q - 1 = q - 2 + (1 : ℕ) by push_cast; ring, power_units, power_units, ← mul_assoc]
    gcongr
    norm_num

/-- Anywhere else, a quotient has the units of the number it is rounded to. -/
theorem Rounds.level (h : Canonical m q)
    (hstep : m = fullWidth → -1074 < q → (2 : ℚ) ^ (q + 52) ≤ (a : ℚ) / d * 2 ^ e) :
    unitExponent a d e = q ∧ digits a d e = m := by
  obtain ⟨hlarge, hleast, -, hwidth⟩ := id h
  have hunit : unitExponent a d e = q := by
    refine unitExponent_eq_of (hr.pos hm) hd hleast (hr.high.trans_lt ?_) ?_
    · rw [show q + 53 = q - 2 + (55 : ℕ) by push_cast; ring, power_units]
      gcongr
      have hcast : (m : ℚ) + 1 ≤ 2 ^ 53 := by exact_mod_cast hlarge
      linarith
    · refine (eq_or_ne q (-1074)).imp_right fun hq => ?_
      rcases eq_or_lt_of_le (hwidth.resolve_right hq) with heq | hmore
      · exact hstep heq.symm (by omega)
      · refine le_trans ?_ (hr.le hm)
        rw [show q + 52 = q - 2 + (54 : ℕ) by push_cast; ring, power_units]
        gcongr
        have hcast : (2 : ℚ) ^ 52 + 1 ≤ m := by exact_mod_cast hmore
        linarith
  have hquarter : (2 : ℚ) ^ q = 4 * 2 ^ (q - 2) := by
    have hone := quarters_eq 1 q
    rwa [Nat.cast_one, one_mul, mul_one] at hone
  have hpos : (0 : ℚ) < 4 * 2 ^ (q - 2) := by positivity
  have hle := hr.le hm
  refine ⟨hunit, digits_eq hd rfl ?_ ?_ fun hodd => ?_⟩
  · rw [hunit, hquarter, le_div_iff₀ hpos]
    linarith
  · rw [hunit, hquarter, div_le_iff₀ hpos]
    linarith [hr.high]
  · obtain ⟨hlow, hhigh⟩ := hr.odd hodd
    have hfloor := mul_le_mul_of_nonneg_right (roundingFloor_mem hm q).1
      (zpow_nonneg (show (0 : ℚ) ≤ 2 by norm_num) (q - 2))
    rw [hunit, hquarter, lt_div_iff₀ hpos, div_lt_iff₀ hpos]
    constructor <;> linarith

/-- What is rounded to a number. -/
theorem ofScaled_of_rounds (h : Canonical m q) (neg : Bool) :
    ofScaled neg a d e = .finite neg m q h := by
  rw [ofScaled_eq (hr.pos hm)]
  by_cases hstep : m = fullWidth → -1074 < q → (2 : ℚ) ^ (q + 52) ≤ (a : ℚ) / d * 2 ^ e
  · obtain ⟨hunit, hdigits⟩ := hr.level hm hd h hstep
    have hlarge := h.1
    rw [if_neg (by omega), hdigits, hunit, ofMagnitude, dif_pos h]
  · simp only [not_forall, not_le] at hstep
    obtain ⟨hfirst, hq, hlt⟩ := hstep
    obtain ⟨hunit, hdigits⟩ := hr.below hd hfirst hq hlt
    subst hfirst
    rw [if_pos hdigits, hunit, ofMagnitude, sub_add_cancel, dif_pos h]

end

/-! ## Neighbours -/

section

variable {m : ℕ} {q k : ℤ}

/-- How the grid and the quarters of a unit are brought to naturals. -/
theorem exists_scale (q k : ℤ) : ∃ s : ℚ, 0 < s
    ∧ ((Nat.pow 10 (-k).toNat <<< (q - 2).toNat : ℕ) : ℚ) * s = 2 ^ (q - 2)
    ∧ ((Nat.pow 10 k.toNat <<< (2 - q).toNat : ℕ) : ℚ) * s = 10 ^ k := by
  have htwo : (2 : ℚ) ^ (q - 2) * 2 ^ (2 - q).toNat = 2 ^ (q - 2).toNat := by
    rw [← zpow_natCast, ← zpow_natCast, ← zpow_add₀ (by norm_num)]
    congr 1
    omega
  have hten : (10 : ℚ) ^ k * 10 ^ (-k).toNat = 10 ^ k.toNat := by
    rw [← zpow_natCast, ← zpow_natCast, ← zpow_add₀ (by norm_num)]
    congr 1
    omega
  refine ⟨(10 ^ (-k).toNat * 2 ^ (2 - q).toNat)⁻¹, by positivity, ?_, ?_⟩
  · rw [mul_inv_eq_iff_eq_mul₀ (by positivity), Nat.shiftLeft_eq, Nat.pow_eq]
    push_cast
    rw [← htwo]
    ring
  · rw [mul_inv_eq_iff_eq_mul₀ (by positivity), Nat.shiftLeft_eq, Nat.pow_eq]
    push_cast
    rw [← hten]
    ring

/-- The end of the interval belongs to it exactly if the number is even. -/
theorem roundingFloor_closed (m : ℕ) (q : ℤ) : (roundingFloor m q).2 = true ↔ m % 2 = 0 :=
  beq_iff_eq

/-- Below a number, only the lower end of what is rounded to it matters. -/
theorem rounds_below_iff {v : ℚ} (hv : v ≤ m * 2 ^ q) : Rounds m q v ↔
    (roundingFloor m q).1 * (2 : ℚ) ^ (q - 2) < v
      ∨ m % 2 = 0 ∧ v = (roundingFloor m q).1 * (2 : ℚ) ^ (q - 2) := by
  have hu : (0 : ℚ) < 2 ^ (q - 2) := zpow_pos (by norm_num) _
  have hhigh : v < (4 * m + 2) * 2 ^ (q - 2) := by
    rw [quarters_eq] at hv
    linarith
  constructor
  · intro h
    rcases Nat.mod_two_eq_zero_or_one m with heven | hodd
    · exact (lt_or_eq_of_le h.low).imp id fun heq => ⟨heven, heq.symm⟩
    · exact .inl (h.odd hodd).1
  · rintro (hlt | ⟨heven, rfl⟩)
    · exact ⟨hlt.le, hhigh.le, fun _ => ⟨hlt, hhigh⟩⟩
    · exact ⟨le_rfl, hhigh.le, fun hodd => by omega⟩

/-- Above a number, only the upper end matters. -/
theorem rounds_above_iff (hm : 0 < m) {v : ℚ} (hv : m * 2 ^ q ≤ v) : Rounds m q v ↔
    v < (4 * m + 2) * (2 : ℚ) ^ (q - 2) ∨ m % 2 = 0 ∧ v = (4 * m + 2) * (2 : ℚ) ^ (q - 2) := by
  have hu : (0 : ℚ) < 2 ^ (q - 2) := zpow_pos (by norm_num) _
  have hlow : (roundingFloor m q).1 * 2 ^ (q - 2) < v := by
    rw [quarters_eq] at hv
    refine lt_of_lt_of_le (mul_lt_mul_of_pos_right ?_ hu) hv
    linarith [(roundingFloor_mem hm q).2]
  constructor
  · intro h
    rcases Nat.mod_two_eq_zero_or_one m with heven | hodd
    · exact (lt_or_eq_of_le h.high).imp id fun heq => ⟨heven, heq⟩
    · exact .inl (h.odd hodd).2
  · rintro (hlt | ⟨heven, rfl⟩)
    · exact ⟨hlow.le, hlt.le, fun _ => ⟨hlow, hlt⟩⟩
    · exact ⟨hlow.le, le_rfl, fun hodd => by omega⟩

/-- A quarter of a unit of `2 ^ q`, in what also a step of the grid is measured in. -/
def quarterUnits (q k : ℤ) : ℕ := Nat.pow 10 (-k).toNat <<< (q - 2).toNat

/-- A step of the grid `10 ^ k`. -/
def gridUnits (q k : ℤ) : ℕ := Nat.pow 10 k.toNat <<< (2 - q).toNat

/-- Quarters of a unit and points of the grid compare like naturals. -/
theorem compare_units (q k : ℤ) (i j : ℕ) :
    ((i : ℚ) * 2 ^ (q - 2) < j * 10 ^ k ↔ i * quarterUnits q k < j * gridUnits q k)
      ∧ ((j : ℚ) * 10 ^ k < i * 2 ^ (q - 2) ↔ j * gridUnits q k < i * quarterUnits q k)
      ∧ ((j : ℚ) * 10 ^ k = i * 2 ^ (q - 2) ↔ j * gridUnits q k = i * quarterUnits q k) := by
  obtain ⟨s, hs, hup, hgrid⟩ := exists_scale q k
  rw [← hup, ← hgrid, ← mul_assoc, ← mul_assoc, mul_lt_mul_iff_of_pos_right hs,
    mul_lt_mul_iff_of_pos_right hs, mul_left_inj' hs.ne']
  refine ⟨?_, ?_, ?_⟩ <;> rw [quarterUnits, gridUnits] <;> norm_cast

/-- The point of a grid that is next below a number. -/
theorem grid_point (m : ℕ) (q k : ℤ) :
    ((4 * m * quarterUnits q k / gridUnits q k : ℕ) : ℚ) * 10 ^ k ≤ m * 2 ^ q
      ∧ (m : ℚ) * 2 ^ q < (4 * m * quarterUnits q k / gridUnits q k + 1 : ℕ) * 10 ^ k := by
  have hgrid : 0 < gridUnits q k := Nat.shiftLeft_pos_iff.2 (Nat.pow_pos (by decide))
  have hquarters : (m : ℚ) * 2 ^ q = (4 * m : ℕ) * 2 ^ (q - 2) := by
    rw [quarters_eq]
    push_cast
    ring
  rw [hquarters]
  constructor
  · rw [← not_lt, (compare_units _ _ _ _).1, not_lt]
    exact Nat.div_mul_le_self _ _
  · rw [(compare_units _ _ _ _).1, Nat.mul_comm _ (gridUnits q k)]
    exact Nat.lt_mul_div_succ _ hgrid

/-- Whether a point below a number reads back. -/
theorem fits_below_iff {c : ℕ} (hc : (c : ℚ) * 10 ^ k ≤ m * 2 ^ q) :
    (decide ((roundingFloor m q).1 * quarterUnits q k < c * gridUnits q k)
      || (roundingFloor m q).2 && c * gridUnits q k == (roundingFloor m q).1 * quarterUnits q k)
        = true ↔ Rounds m q (c * 10 ^ k) := by
  obtain ⟨hlt, -, heq⟩ := compare_units q k (roundingFloor m q).1 c
  rw [rounds_below_iff hc, hlt, heq, Bool.or_eq_true, Bool.and_eq_true, decide_eq_true_eq,
    beq_iff_eq, roundingFloor_closed]

/-- Whether a point above a number reads back. -/
theorem fits_above_iff (hm : 0 < m) {c : ℕ} (hc : m * 2 ^ q ≤ (c : ℚ) * 10 ^ k) :
    (decide (c * gridUnits q k < (4 * m + 2) * quarterUnits q k)
      || (roundingFloor m q).2 && c * gridUnits q k == (4 * m + 2) * quarterUnits q k)
        = true ↔ Rounds m q (c * 10 ^ k) := by
  obtain ⟨-, hlt, heq⟩ := compare_units q k (4 * m + 2) c
  push_cast at hlt heq
  rw [rounds_above_iff hm hc, hlt, heq, Bool.or_eq_true, Bool.and_eq_true, decide_eq_true_eq,
    beq_iff_eq, roundingFloor_closed]

/-- The neighbours of a number on a grid: the one below or the one above, if it
    reads back. -/
theorem neighbour?_cases (hm : 0 < m) (q k : ℤ) : ∃ c : ℕ,
    (c : ℚ) * 10 ^ k ≤ m * 2 ^ q ∧ (m : ℚ) * 2 ^ q < (c + 1 : ℕ) * 10 ^ k
    ∧ (Rounds m q (c * 10 ^ k) ∧ neighbour? m q k = some c
      ∨ Rounds m q ((c + 1 : ℕ) * 10 ^ k) ∧ neighbour? m q k = some (c + 1)
      ∨ ¬Rounds m q (c * 10 ^ k) ∧ ¬Rounds m q ((c + 1 : ℕ) * 10 ^ k)
        ∧ neighbour? m q k = none) := by
  obtain ⟨hle, hlt⟩ := grid_point m q k
  refine ⟨_, hle, hlt, ?_⟩
  rw [← fits_below_iff hle, ← fits_above_iff hm hlt.le, neighbour?]
  dsimp only
  rw [← quarterUnits, ← gridUnits]
  generalize 4 * m * quarterUnits q k / gridUnits q k = c
  rw [Nat.succ_mul c]
  generalize (decide ((roundingFloor m q).1 * _ < _) || _) = below
  generalize (decide (_ < (4 * m + 2) * _) || _) = above
  cases below with
  | false => cases above <;> simp
  | true =>
      cases above with
      | false => exact .inl ⟨rfl, rfl⟩
      | true =>
          -- the nearer of the two, whichever it is
          simp only [Bool.and_self, if_true, true_and, Option.some_inj]
          split
          · exact .inl rfl
          · exact .inr (.inl rfl)

/-- A neighbour reads back, and is not below any point of the grid that the
    number is not below. -/
theorem neighbour?_spec (hm : 0 < m) {c : ℕ} (h : neighbour? m q k = some c) :
    Rounds m q (c * 10 ^ k) ∧ ∀ i : ℕ, (i : ℚ) * 10 ^ k ≤ m * 2 ^ q → i ≤ c := by
  have hten : (0 : ℚ) < 10 ^ k := zpow_pos (by norm_num) k
  obtain ⟨b, -, hlt, hcases⟩ := neighbour?_cases hm q k
  have hle : ∀ i : ℕ, (i : ℚ) * 10 ^ k ≤ m * 2 ^ q → i ≤ b := by
    intro i hi
    have := hi.trans_lt hlt
    rw [mul_lt_mul_iff_of_pos_right hten, Nat.cast_lt] at this
    exact Nat.le_of_lt_succ this
  rw [h] at hcases
  rcases hcases with ⟨hr, hsome⟩ | ⟨hr, hsome⟩ | ⟨-, -, hnone⟩
  · cases hsome
    exact ⟨hr, hle⟩
  · cases hsome
    exact ⟨hr, fun i hi => (hle i hi).trans (Nat.le_succ b)⟩
  · cases hnone

/-- A grid with seventeen digits before its unit has a neighbour that reads back. -/
theorem neighbour?_isSome (hm : 0 < m) (h : Canonical m q)
    (hfine : (10 : ℚ) ^ k * 10 ^ 16 ≤ m * 2 ^ q) : ∃ c, neighbour? m q k = some c := by
  obtain ⟨c, hle, hlt, ⟨-, hc⟩ | ⟨-, hc⟩ | ⟨hbelow, habove, -⟩⟩ := neighbour?_cases hm q k
  · exact ⟨_, hc⟩
  · exact ⟨_, hc⟩
  -- the grid would be wider than what is rounded to the number
  have hu : (0 : ℚ) < 2 ^ (q - 2) := zpow_pos (by norm_num) _
  rw [rounds_below_iff hle, not_or, not_lt] at hbelow
  rw [rounds_above_iff hm hlt.le, not_or, not_lt] at habove
  have hwide : (4 * m + 2 - (roundingFloor m q).1 : ℚ) * 2 ^ (q - 2) ≤ 10 ^ k := by
    have hb := hbelow.1
    have ha := habove.1
    push_cast at ha
    linarith
  have hsmall : 4 * (m : ℚ) < (4 * m + 2 - (roundingFloor m q).1) * 10 ^ 16 := by
    rcases eq_or_ne m fullWidth with rfl | hne
    · have hfloor := (roundingFloor_mem hm q).2
      have hfull : (fullWidth : ℚ) = 2 ^ 52 := by norm_num
      rw [hfull] at hfloor ⊢
      linarith
    · have hfloor : 4 * (m : ℚ) = (roundingFloor m q).1 + 2 := by
        rw [roundingFloor, if_neg fun hstep => hne hstep.1]
        exact_mod_cast (show 4 * m = 4 * m - 2 + 2 by omega)
      have hlarge : (m : ℚ) < 2 ^ 53 := by exact_mod_cast h.1
      linarith
  rw [quarters_eq] at hfine
  have := mul_lt_mul_of_pos_right hsmall hu
  linarith

end

/-! ## Digits -/

/-- The first grid with a neighbour is one of the first seventeen. -/
theorem shortestFrom_spec {m : ℕ} {q lead : ℤ} (hm : 0 < m) (h : Canonical m q)
    (hlead : (10 : ℚ) ^ lead ≤ m * 2 ^ q) {fuel n : ℕ} (hn : 1 ≤ n) (hfuel : n + fuel = 17) :
    Rounds m q ((shortestFrom m q lead fuel n).digits * 10 ^ (shortestFrom m q lead fuel n).exp)
      ∧ (10 : ℚ) ^ lead
        ≤ (shortestFrom m q lead fuel n).digits * 10 ^ (shortestFrom m q lead fuel n).exp := by
  -- what is found on a grid reads back, and has a digit at the leading place
  have hfound : ∀ (n c : ℕ), 1 ≤ n → neighbour? m q (lead - n + 1) = some c →
      Rounds m q (c * 10 ^ (lead - n + 1)) ∧ (10 : ℚ) ^ lead ≤ c * 10 ^ (lead - n + 1) := by
    intro n c hn hc
    obtain ⟨hr, hle⟩ := neighbour?_spec hm hc
    refine ⟨hr, ?_⟩
    have hpower : (10 : ℚ) ^ lead = (10 ^ (n - 1) : ℕ) * 10 ^ (lead - n + 1) := by
      rw [Nat.cast_pow, ← zpow_natCast, Nat.cast_ofNat, ← zpow_add₀ (by norm_num)]
      congr 1
      omega
    rw [hpower] at hlead ⊢
    gcongr
    exact_mod_cast hle _ hlead
  induction fuel generalizing n with
  | zero =>
      obtain rfl : n = 17 := hfuel
      obtain ⟨c, hc⟩ := neighbour?_isSome (k := lead - (17 : ℕ) + 1) hm h (by
        rw [← zpow_natCast (10 : ℚ) 16, ← zpow_add₀ (by norm_num)]
        refine le_trans (le_of_eq ?_) hlead
        congr 1
        omega)
      rw [shortestFrom, hc]
      exact hfound 17 c hn hc
  | succ fuel ih =>
      rw [shortestFrom]
      split
      · rename_i c hc
        exact hfound n c hn hc
      · exact ih (by omega) (by omega)

end TurtleLogo.Binary64

namespace TurtleLogo.Decimal

/-- The test of powers of ten is exact. -/
theorem powerFits_iff {e : ℤ} {num den : ℕ} (hden : 0 < den) :
    powerFits e num den = true ↔ (10 : ℚ) ^ e ≤ (num : ℚ) / den := by
  have hten : (10 : ℚ) ^ e * 10 ^ (-e).toNat = 10 ^ e.toNat := by
    rw [← zpow_natCast, ← zpow_natCast, ← zpow_add₀ (by norm_num)]
    congr 1
    omega
  rw [powerFits, decide_eq_true_iff, le_div_iff₀ (Nat.cast_pos.2 hden),
    ← mul_le_mul_iff_of_pos_right (show (0 : ℚ) < 10 ^ (-e).toNat by positivity),
    mul_right_comm, hten, Nat.pow_eq, Nat.pow_eq]
  exact_mod_cast Iff.rfl

/-- Climbing stops at the last power of ten that fits. -/
theorem climb_spec {num den fuel : ℕ} {e : ℤ} (h : powerFits e num den = true)
    (hend : powerFits (e + fuel + 1) num den = false) :
    powerFits (climb num den fuel e) num den = true
      ∧ powerFits (climb num den fuel e + 1) num den = false := by
  induction fuel generalizing e with
  | zero => exact ⟨h, by simpa [climb] using hend⟩
  | succ fuel ih =>
      rw [climb]
      split
      · rename_i hnext
        refine ih hnext ?_
        rw [← hend]
        congr 1
        push_cast
        ring
      · rename_i hnext
        exact ⟨h, Bool.not_eq_true _ ▸ hnext⟩

/-- Where the climb starts for a number from `2 ^ k` on. -/
theorem guess_fits : ((List.range 2098).all fun i =>
    let k : ℤ := (i : ℤ) - 1074
    powerFits ((k - 1) * 30103 / 100000 - 1) (2 ^ k.toNat) (2 ^ (-k).toNat)
      && !powerFits ((k - 1) * 30103 / 100000 - 1 + 6) (2 ^ (k + 1).toNat) (2 ^ (-(k + 1)).toNat))
      = true := by
  decide +kernel

/-- The exponent of the first digit, for what lies between two powers of two. -/
theorem leading_spec {num den : ℕ} (hden : 0 < den) {k : ℤ}
    (hk : (num.log2 : ℤ) - den.log2 = k) (hleast : -1074 ≤ k) (hmost : k ≤ 1023)
    (hlow : (2 : ℚ) ^ k ≤ (num : ℚ) / den) (hhigh : (num : ℚ) / den < 2 ^ (k + 1)) :
    (10 : ℚ) ^ leading num den ≤ (num : ℚ) / den
      ∧ (num : ℚ) / den < 10 ^ (leading num den + 1) := by
  have hpower : ∀ k : ℤ, ((2 ^ k.toNat : ℕ) : ℚ) / (2 ^ (-k).toNat : ℕ) = 2 ^ k := by
    intro k
    rw [Nat.cast_pow, Nat.cast_pow, Nat.cast_ofNat, ← zpow_natCast, ← zpow_natCast,
      ← zpow_sub₀ (by norm_num)]
    congr 1
    omega
  have hguess := List.all_eq_true.1 guess_fits (k + 1074).toNat (List.mem_range.2 (by omega))
  rw [show (((k + 1074).toNat : ℕ) : ℤ) - 1074 = k by omega] at hguess
  dsimp only at hguess
  rw [Bool.and_eq_true, Bool.not_eq_true', ← Bool.not_eq_true,
    powerFits_iff (Nat.two_pow_pos _), powerFits_iff (Nat.two_pow_pos _), hpower, hpower,
    not_le] at hguess
  obtain ⟨hfit, hend⟩ := hguess
  rw [leading, hk, ← powerFits_iff hden, ← not_le, ← powerFits_iff hden, Bool.not_eq_true]
  refine climb_spec ((powerFits_iff hden).2 (hfit.trans hlow)) ?_
  rw [← Bool.not_eq_true, powerFits_iff hden, not_le]
  refine hhigh.trans (lt_of_lt_of_eq hend ?_)
  congr 1
  push_cast
  ring

/-- Zeros at the end do not matter. -/
theorem strip_spec (fuel : ℕ) (d : Decimal) :
    ((strip fuel d).digits : ℚ) * 10 ^ (strip fuel d).exp = d.digits * 10 ^ d.exp := by
  induction fuel generalizing d with
  | zero => rfl
  | succ fuel ih =>
      rw [strip]
      split
      · rename_i hzero
        rw [ih]
        obtain ⟨n, hn⟩ : ∃ n, d.digits = 10 * n := ⟨d.digits / 10, by omega⟩
        rw [hn, Nat.mul_div_cancel_left n (by decide), zpow_add₀ (by norm_num)]
        push_cast
        ring
      · rfl

end TurtleLogo.Decimal

namespace TurtleLogo.Binary64

section

variable {m : ℕ} {q : ℤ} (hm : 0 < m) (h : Canonical m q)
include hm h

/-- The exponent of the first digit of a number. -/
theorem leadingDigit_spec : (10 : ℚ) ^ leadingDigit m q ≤ m * 2 ^ q
    ∧ (m : ℚ) * 2 ^ q < 10 ^ (leadingDigit m q + 1) := by
  have hden : 0 < 1 <<< (-q).toNat := Nat.shiftLeft_pos_iff.2 Nat.one_pos
  have hvalue : ((m <<< q.toNat : ℕ) : ℚ) / (1 <<< (-q).toNat : ℕ) = m * 2 ^ q := by
    have hshift := shifted_eq m 1 q 0
    rw [sub_zero, zero_sub, zpow_zero, div_one, Nat.cast_one, div_one] at hshift
    exact hshift
  have hone : (1 : ℚ) ≤ m := by exact_mod_cast hm
  have hnum : m <<< q.toNat ≠ 0 := (Nat.shiftLeft_pos_iff.2 hm).ne'
  have hdenq : (0 : ℚ) < (1 <<< (-q).toNat : ℕ) := Nat.cast_pos.2 hden
  obtain ⟨k, hk⟩ : ∃ k : ℤ, ((m <<< q.toNat).log2 : ℤ) - (1 <<< (-q).toNat).log2 = k := ⟨_, rfl⟩
  -- the divisor is a power of two
  have hlog : ∀ i : ℤ,
      (2 : ℚ) ^ (k + i) = 2 ^ ((m <<< q.toNat).log2 + i) / (1 <<< (-q).toNat : ℕ) := by
    intro i
    rw [← hk, Nat.one_shiftLeft, Nat.log2_two_pow, sub_add_eq_add_sub, zpow_sub₀ (by norm_num),
      Nat.cast_pow, zpow_natCast, Nat.cast_ofNat]
  have hlow : (2 : ℚ) ^ k ≤ m * 2 ^ q := by
    rw [← add_zero k, hlog, ← hvalue, div_le_div_iff_of_pos_right hdenq, add_zero, zpow_natCast]
    exact_mod_cast Nat.log2_self_le hnum
  have hhigh : (m : ℚ) * 2 ^ q < 2 ^ (k + 1) := by
    rw [hlog, ← hvalue, div_lt_div_iff_of_pos_right hdenq]
    exact_mod_cast Nat.lt_log2_self
  have hleast : (2 : ℚ) ^ (-1074 : ℤ) ≤ m * 2 ^ q := by
    calc (2 : ℚ) ^ (-1074 : ℤ) ≤ 2 ^ q := zpow_le_zpow_right₀ (by norm_num) h.2.1
      _ ≤ m * 2 ^ q := le_mul_of_one_le_left (zpow_nonneg (by norm_num) q) hone
  have hmost : (m : ℚ) * 2 ^ q < 2 ^ (1024 : ℤ) :=
    (magnitude_lt_limit (.finite false m q h)).trans limit_lt_power
  have hrange := hleast.trans_lt hhigh
  have hrange' := hlow.trans_lt hmost
  rw [zpow_lt_zpow_iff_right₀ (by norm_num)] at hrange hrange'
  rw [← hvalue] at hlow hhigh ⊢
  exact Decimal.leading_spec hden hk (by omega) (by omega) hlow hhigh

/-- The shortest digits read back, and the first of them has the place of the
    first digit of the number. -/
theorem shortest_spec : Rounds m q ((shortest m q).digits * 10 ^ (shortest m q).exp)
    ∧ (10 : ℚ) ^ leadingDigit m q ≤ (shortest m q).digits * 10 ^ (shortest m q).exp := by
  rw [shortest, Decimal.strip_spec]
  exact shortestFrom_spec hm h (leadingDigit_spec hm h).1 le_rfl rfl

/-- The digits of a number that is not zero are not zero. -/
theorem shortest_digits_ne_zero : (shortest m q).digits ≠ 0 := by
  intro hzero
  have hlead := (shortest_spec hm h).2
  rw [hzero, Nat.cast_zero, zero_mul] at hlead
  exact absurd hlead (not_le.2 (zpow_pos (by norm_num) _))

/-- What is below the least magnitude in positional notation stays below it. -/
theorem shortest_lt (hsmall : (m : ℚ) * 2 ^ q < 10 ^ (-4 : ℤ)) :
    ((shortest m q).digits : ℚ) * 10 ^ (shortest m q).exp < 10 ^ (-4 : ℤ) := by
  have hu : (0 : ℚ) < 2 ^ (q - 2) := zpow_pos (by norm_num) _
  refine (shortest_spec hm h).1.high.trans_lt ?_
  rcases le_or_gt q (-67) with hq | hq
  · have hlarge : (m : ℚ) + 1 ≤ 2 ^ 53 := by exact_mod_cast h.1
    calc (4 * (m : ℚ) + 2) * 2 ^ (q - 2) ≤ 2 ^ 55 * 2 ^ (-69 : ℤ) := by
          gcongr
          · linarith
          · norm_num
          · omega
      _ < 10 ^ (-4 : ℤ) := by norm_num
  · -- the units in which the bound lies
    have hwidth : fullWidth ≤ m := h.2.2.2.resolve_right (by omega)
    have hunit : q = -66 := by
      have hlow : (2 : ℚ) ^ (52 + q) < 2 ^ (-13 : ℤ) := by
        calc (2 : ℚ) ^ (52 + q) = 2 ^ 52 * 2 ^ q := by
              rw [zpow_add₀ (by norm_num)]
              norm_num
          _ ≤ m * 2 ^ q := by
              gcongr
              exact_mod_cast hwidth
          _ < 10 ^ (-4 : ℤ) := hsmall
          _ < 2 ^ (-13 : ℤ) := by norm_num
      rw [zpow_lt_zpow_iff_right₀ (by norm_num)] at hlow
      omega
    subst hunit
    have hdigits : m < 7378697629483821 := by
      have hcast : (m : ℚ) < 7378697629483821 := by
        rw [← lt_div_iff₀ (by positivity)] at hsmall
        refine hsmall.trans ?_
        norm_num
      exact_mod_cast hcast
    have hle : (m : ℚ) ≤ 7378697629483820 := by exact_mod_cast Nat.le_of_lt_succ hdigits
    calc (4 * (m : ℚ) + 2) * 2 ^ (-66 - 2 : ℤ)
        ≤ (4 * 7378697629483820 + 2) * 2 ^ (-66 - 2 : ℤ) := by gcongr
      _ < 10 ^ (-4 : ℤ) := by norm_num

/-- A decimal that is rounded to a number is read as it. -/
theorem ofDecimal_of_rounds {n : ℕ} {e : ℤ} (hr : Rounds m q (n * 10 ^ e)) (neg : Bool) :
    ofDecimal neg n e = .finite neg m q h := by
  have hu : (0 : ℚ) < 2 ^ (q - 2) := zpow_pos (by norm_num) _
  have hone : (1 : ℚ) ≤ m := by exact_mod_cast hm
  have hlow : (2 : ℚ) ^ (-1076 : ℤ) ≤ n * 10 ^ e := by
    calc (2 : ℚ) ^ (-1076 : ℤ) ≤ 2 ^ (q - 2) :=
          zpow_le_zpow_right₀ (by norm_num) (by have := h.2.1; omega)
      _ ≤ (roundingFloor m q).1 * 2 ^ (q - 2) :=
          le_mul_of_one_le_left hu.le (by linarith [(roundingFloor_mem hm q).1])
      _ ≤ n * 10 ^ e := hr.low
  have hhigh : (n : ℚ) * 10 ^ e ≤ 2 ^ (1024 : ℤ) := by
    have hlarge : (m : ℚ) + 1 ≤ 2 ^ 53 := by exact_mod_cast h.1
    calc (n : ℚ) * 10 ^ e ≤ (4 * m + 2) * 2 ^ (q - 2) := hr.high
      _ ≤ 2 ^ 55 * 2 ^ (q - 2) := by
          gcongr
          linarith
      _ = 2 ^ (q + 53) := by
          rw [← zpow_natCast, ← zpow_add₀ (by norm_num)]
          congr 1
          push_cast
          ring
      _ ≤ 2 ^ (1024 : ℤ) := zpow_le_zpow_right₀ (by norm_num) (by have := h.2.2.1; omega)
  rw [ofDecimal_eq hlow hhigh]
  have hten : 0 < Nat.pow 10 (-e).toNat := Nat.pow_pos (by decide)
  refine ofScaled_of_rounds hm hten ?_ h neg
  rw [decimal_eq]
  exact hr

end

end TurtleLogo.Binary64
