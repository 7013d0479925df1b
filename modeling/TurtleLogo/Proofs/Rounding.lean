import TurtleLogo.Proofs.Rest
import TurtleLogo.Proofs.Shortest

/-! # Rounding whole numbers

    To round a number, one half is added to it, and the fraction of the sum is cut off.
    That sum is one of reals, so a whole number is first taken for the real that is nearest
    to it, and the sum is rounded to a real again.

    * Up to two to the fifty-second, all whole numbers and all halves between them are
      reals, and nothing is lost (`Binary64.value_add_half`).
    * Up to two to the fifty-third, whole numbers are reals, but the halves between them
      are not, and the sum is rounded to the even one of the two whole numbers around it.
    * Past that, one half is lost (`Binary64.add_half_of_large`), but so are already the odd
      numbers, and then ever more of them.

    So there are whole numbers that are not rounded to themselves, and the first of them above zero is
    `Session.round_whole_odd`.  `Session.round_whole` says which ones are, and what is found
    for the others. -/

namespace TurtleLogo

namespace Binary64

/-- A number of units that fits the width of a significand is a real. -/
theorem exists_units {k : ℕ} {u : ℤ} (hk : k < 2 * fullWidth) (hlow : -1074 ≤ u)
    (hhigh : u ≤ 971) : ∃ y : Binary64, y.isFinite = true ∧ y.magnitude = k * 2 ^ u := by
  obtain ⟨i, rfl⟩ : ∃ i : ℕ, u = i - 1074 := ⟨(u + 1074).toNat, by omega⟩
  -- by how far the units are above the least
  induction i generalizing k with
  | zero => exact ⟨.finite false k _ ⟨hk, hlow, hhigh, .inr rfl⟩, rfl, rfl⟩
  | succ i ih =>
      rcases Nat.lt_or_ge k fullWidth with hnarrow | hfull
      · -- twice as many units that are half as large
        obtain ⟨y, hy, hmagnitude⟩ := ih (k := 2 * k) (by omega) (by omega) (by omega)
        refine ⟨y, hy, hmagnitude.trans ?_⟩
        have hunit : ((i + 1 : ℕ) : ℤ) - 1074 = (i - 1074) + 1 := by
          push_cast
          ring
        rw [hunit, zpow_add_one₀ (by norm_num)]
        push_cast
        ring
      · exact ⟨.finite false k _ ⟨hk, hlow, hhigh, .inl hfull⟩, rfl, rfl⟩

section

variable {a j : ℕ} {e : ℤ} (neg : Bool)

/-- What is in the middle between two whole numbers of full width is rounded to the even
    one. -/
theorem magnitude_ofScaled_tie (hvalue : (a : ℚ) * 2 ^ e = j + 1 / 2) (hlow : 2 ^ 52 ≤ j)
    (hhigh : j < 2 ^ 53) : (ofScaled neg a 1 e).isFinite = true
      ∧ (ofScaled neg a 1 e).magnitude = (j + j % 2 : ℕ) := by
  have hquotient : (a : ℚ) / (1 : ℕ) * 2 ^ e = j + 1 / 2 := by rwa [Nat.cast_one, div_one]
  have hlowq : (2 : ℚ) ^ 52 ≤ j := by exact_mod_cast hlow
  have hhighq : (j : ℚ) + 1 ≤ 2 ^ 53 := by exact_mod_cast hhigh
  have ha : 0 < a := by
    refine Nat.pos_of_ne_zero fun hzero => ?_
    rw [hzero, Nat.cast_zero, zero_mul] at hvalue
    linarith
  have hunit : unitExponent a 1 e = 0 := by
    refine unitExponent_eq_of ha Nat.one_pos (by norm_num) ?_ (.inr ?_)
    · rw [hquotient]
      norm_num
      linarith
    · rw [hquotient]
      norm_num
      linarith
  have hfinite : (ofScaled neg a 1 e).isFinite = true :=
    (isFinite_ofScaled_iff ha Nat.one_pos neg).2 (.inl (by omega))
  -- both whole numbers are half a unit away, so nothing but the even one can be taken
  have hdigits : digits a 1 e = j + j % 2 := by
    have hbelow : (j : ℚ) ≤ (j + j % 2 : ℕ) := by exact_mod_cast Nat.le_add_right j (j % 2)
    have habove : ((j + j % 2 : ℕ) : ℚ) ≤ j + 1 := by
      exact_mod_cast Nat.add_le_add_left (Nat.le_of_lt_succ (Nat.mod_lt j two_pos)) j
    refine digits_eq (v := j + 1 / 2) Nat.one_pos ?_ ?_ ?_ fun hodd => by omega
    · rw [hunit, hquotient, zpow_zero, div_one]
    · linarith
    · linarith
  refine ⟨hfinite, ?_⟩
  rw [magnitude_ofScaled ha hfinite, hunit, hdigits, zpow_zero, mul_one]

/-- Half of an odd number is a real if it is small enough, and else rounded. -/
theorem magnitude_ofScaled_half (hvalue : (a : ℚ) * 2 ^ e = j + 1 / 2) (hj : j < 2 ^ 53) :
    (ofScaled neg a 1 e).isFinite = true ∧ (ofScaled neg a 1 e).magnitude
      = if j < 2 ^ 52 then (j : ℚ) + 1 / 2 else ((j + j % 2 : ℕ) : ℚ) := by
  split
  · rename_i hlow
    obtain ⟨y, hy, hmagnitude⟩ :=
      exists_units (k := 2 * j + 1) (u := -1) (by norm_num; omega) (by norm_num) (by norm_num)
    have hexact : (a : ℚ) / (1 : ℕ) * 2 ^ e = y.magnitude := by
      rw [Nat.cast_one, div_one, hvalue, hmagnitude]
      push_cast
      ring
    obtain ⟨hfinite, heq⟩ := magnitude_ofScaled_of_eq Nat.one_pos hy hexact neg
    exact ⟨hfinite, by rw [heq, ← hexact, Nat.cast_one, div_one, hvalue]⟩
  · rename_i hlow
    exact magnitude_ofScaled_tie neg hvalue (not_lt.1 hlow) hj

end

/-- One half. -/
def half : Binary64 := ofRatio 1 2

/-- One half is a real. -/
theorem value_half : half.isFinite = true ∧ half.value = 1 / 2 := by
  have hhalf : half = .finite false fullWidth (-53) (by decide) := by decide +kernel
  rw [hhalf]
  refine ⟨rfl, ?_⟩
  show (((fullWidth : ℕ) : ℤ) : ℚ) * 2 ^ (-53 : ℤ) = 1 / 2
  norm_num

section

variable {x : Binary64} (hx : x.isFinite = true)
include hx

/-- The sum of a whole number and one half, where the numbers from a half on are no
    farther apart than one. -/
theorem value_add_half {n : ℤ} (hvalue : x.value = n) (hlow : -2 ^ 53 ≤ n) (hhigh : n < 2 ^ 53) :
    (add x half).isFinite = true ∧ (add x half).value
      = if -2 ^ 52 ≤ n ∧ n < 2 ^ 52 then (n : ℚ) + 1 / 2 else ((n + n % 2 : ℤ) : ℚ) := by
  have hne : (n : ℚ) + 1 / 2 ≠ 0 := by
    intro hzero
    have hodd : (2 : ℚ) * n + 1 = 0 := by linarith
    have : 2 * n + 1 = 0 := by exact_mod_cast hodd
    omega
  obtain ⟨a, e, hdistance, hadd⟩ := add_eq_signed hx value_half.1 (by rwa [hvalue, value_half.2])
  rw [hvalue, value_half.2] at hdistance hadd
  rw [value_eq, hadd, isNeg_ofScaled]
  rcases lt_or_ge n 0 with hneg | hpos
  · -- below zero the middle is as far from zero as the one behind the number after
    obtain ⟨j, rfl⟩ : ∃ j : ℕ, n = -(j : ℤ) - 1 := ⟨(-n - 1).toNat, by omega⟩
    have hmiddle : ((-(j : ℤ) - 1 : ℤ) : ℚ) + 1 / 2 = -(j + 1 / 2) := by
      push_cast
      ring
    have hbelow : ((-(j : ℤ) - 1 : ℤ) : ℚ) + 1 / 2 < 0 := by
      rw [hmiddle, neg_lt_zero]
      positivity
    rw [abs_of_neg hbelow, hmiddle, neg_neg] at hdistance
    obtain ⟨hfinite, hmagnitude⟩ := magnitude_ofScaled_half true hdistance (by omega)
    rw [decide_eq_true hbelow, hmagnitude, if_pos rfl]
    refine ⟨hfinite, ?_⟩
    by_cases hj : j < 2 ^ 52
    · rw [if_pos hj, if_pos ⟨by omega, by omega⟩, hmiddle]
    · rw [if_neg hj, if_neg (by omega), ← Int.cast_natCast, ← Int.cast_neg]
      congr 1
      omega
  · obtain ⟨j, rfl⟩ := Int.eq_ofNat_of_zero_le hpos
    have habove : 0 ≤ ((j : ℤ) : ℚ) + 1 / 2 := by positivity
    rw [abs_of_nonneg habove, Int.cast_natCast] at hdistance
    obtain ⟨hfinite, hmagnitude⟩ := magnitude_ofScaled_half false hdistance (by omega)
    rw [decide_eq_false habove.not_gt, hmagnitude, if_neg Bool.false_ne_true]
    refine ⟨hfinite, ?_⟩
    by_cases hj : j < 2 ^ 52
    · rw [if_pos hj, if_pos ⟨by omega, by omega⟩, Int.cast_natCast]
    · rw [if_neg hj, if_neg (by omega)]
      push_cast
      rfl

/-- The sum of a whole number and one half, up to the width of a significand.  Of the two
    whole numbers around it the even one is taken where it is no real itself. -/
theorem floor_add_half {n : ℤ} (hvalue : x.value = n) (hn : n.natAbs < 2 ^ 53) :
    (add x half).isFinite = true
      ∧ ⌊(add x half).value⌋ = if n.natAbs ≤ 2 ^ 52 then n else n + n % 2 := by
  obtain ⟨hfinite, hsum⟩ := value_add_half hx hvalue (by omega) (by omega)
  rw [hsum]
  refine ⟨hfinite, ?_⟩
  by_cases hnarrow : -2 ^ 52 ≤ n ∧ n < 2 ^ 52
  · rw [if_pos hnarrow, if_pos (by omega), Int.floor_eq_iff]
    constructor <;> linarith
  · rw [if_neg hnarrow, Int.floor_intCast]
    split <;> omega

end

section

variable {m : ℕ} {q : ℤ} (hlarge : (2 : ℚ) ^ 53 ≤ m * 2 ^ q)
include hlarge

/-- A large real is not zero. -/
theorem pos_of_large : 0 < m := by
  refine Nat.pos_of_ne_zero fun hzero => ?_
  rw [hzero, Nat.cast_zero, zero_mul] at hlarge
  norm_num at hlarge

variable (h : Canonical m q)
include h

/-- Numbers past the width of a significand are at least two apart. -/
theorem one_le_exponent : 1 ≤ q := by
  refine not_lt.1 fun hq => ?_
  have hunit : (2 : ℚ) ^ q ≤ 2 ^ (0 : ℤ) := zpow_le_zpow_right₀ (by norm_num) (by omega)
  have hm : (m : ℚ) < 2 ^ 53 := by exact_mod_cast h.1
  rw [zpow_zero] at hunit
  have hle : (m : ℚ) * 2 ^ q ≤ m := mul_le_of_le_one_right (Nat.cast_nonneg m) hunit
  linarith

/-- What is no farther than one half from such a number is rounded to it. -/
theorem rounds_of_large {v : ℚ} (hlow : m * 2 ^ q - 1 / 2 ≤ v) (hhigh : v ≤ m * 2 ^ q + 1 / 2) :
    Rounds m q v := by
  have hq := one_le_exponent hlarge h
  have hm := pos_of_large hlarge
  -- units are at least two, and below the first of its units a number has a quarter of one
  have hquarter : (1 / 2 : ℚ) ≤ 2 ^ (q - 2) := by
    have hle : (2 : ℚ) ^ (-1 : ℤ) ≤ 2 ^ (q - 2) := zpow_le_zpow_right₀ (by norm_num) (by omega)
    rwa [zpow_neg_one, inv_eq_one_div] at hle
  have hfloor : ((roundingFloor m q).1 : ℚ) * 2 ^ (q - 2) ≤ (4 * m - 1) * 2 ^ (q - 2) :=
    mul_le_mul_of_nonneg_right (roundingFloor_mem hm q).2 (by positivity)
  rw [quarters_eq] at hlow hhigh
  refine ⟨by linarith, by linarith, fun hodd => ⟨?_, by linarith⟩⟩
  -- an odd number is not the first of its units
  have hfirst : (roundingFloor m q).1 = 4 * m - 2 := by
    rw [roundingFloor, if_neg]
    rintro ⟨rfl, -⟩
    exact absurd hodd (by decide)
  rw [hfirst, Nat.cast_sub (by omega)]
  push_cast
  linarith

end

/-- One half is lost on such a number. -/
theorem add_half_of_large {x : Binary64} (hx : x.isFinite = true) (h : 2 ^ 53 ≤ x.magnitude) :
    add x half = x := by
  cases x with
  | finite s m q hcanonical =>
      have hlarge : (2 : ℚ) ^ 53 ≤ m * 2 ^ q := h
      have hround : ∀ {a : ℕ} {e : ℤ} (neg), (m : ℚ) * 2 ^ q - 1 / 2 ≤ a * 2 ^ e →
          (a : ℚ) * 2 ^ e ≤ m * 2 ^ q + 1 / 2 →
          ofScaled neg a 1 e = .finite neg m q hcanonical := by
        intro a e neg hlow hhigh
        refine ofScaled_of_rounds (pos_of_large hlarge) Nat.one_pos ?_ hcanonical neg
        rw [Nat.cast_one, div_one]
        exact rounds_of_large hlarge hcanonical hlow hhigh
      have hvalue : (finite s m q hcanonical).value = if s then -(m * 2 ^ q : ℚ) else m * 2 ^ q :=
        value_eq _
      cases s with
      | false =>
          have hpos : 0 < (finite false m q hcanonical).value + half.value := by
            rw [hvalue, value_half.2, if_neg Bool.false_ne_true]
            linarith
          obtain ⟨a, e, hdistance, hadd⟩ := add_eq_signed hx value_half.1 hpos.ne'
          rw [abs_of_pos hpos, hvalue, value_half.2, if_neg Bool.false_ne_true] at hdistance
          rw [hadd, decide_eq_false hpos.not_gt]
          exact hround false (by linarith) (by linarith)
      | true =>
          have hneg : (finite true m q hcanonical).value + half.value < 0 := by
            rw [hvalue, value_half.2, if_pos rfl]
            linarith
          obtain ⟨a, e, hdistance, hadd⟩ := add_eq_signed hx value_half.1 hneg.ne
          rw [abs_of_neg hneg, hvalue, value_half.2, if_pos rfl] at hdistance
          rw [hadd, decide_eq_true hneg]
          exact hround true (by linarith) (by linarith)
  | _ => cases hx

/-- Such a number is even. -/
theorem even_of_large {x : Binary64} (hx : x.isFinite = true) (h : 2 ^ 53 ≤ x.magnitude) :
    ∃ i : ℤ, x.value = (2 * i : ℤ) := by
  cases x with
  | finite s m q hcanonical =>
      obtain ⟨j, hj⟩ : ∃ j : ℕ, q = j + 1 :=
        ⟨(q - 1).toNat, by have := one_le_exponent h hcanonical; omega⟩
      refine ⟨signed s m * 2 ^ j, ?_⟩
      show (signed s m : ℚ) * 2 ^ q = _
      rw [hj, zpow_add_one₀ (by norm_num), zpow_natCast]
      push_cast
      ring
  | _ => cases hx

/-! ## Whole numbers as reals -/

/-- A whole number that is as far from zero as a real is taken for what it is. -/
theorem value_ofInt {n : ℤ} {y : Binary64} (hy : y.isFinite = true)
    (hmagnitude : y.magnitude = n.natAbs) :
    (ofInt n).isFinite = true ∧ (ofInt n).value = n := by
  have hexact : (n.natAbs : ℚ) / (1 : ℕ) * 2 ^ (0 : ℤ) = y.magnitude := by
    rw [Nat.cast_one, div_one, zpow_zero, mul_one, hmagnitude]
  obtain ⟨hfinite, heq⟩ := magnitude_ofScaled_of_eq Nat.one_pos hy hexact (n < 0)
  refine ⟨hfinite, ?_⟩
  rw [value_eq, ofInt, isNeg_ofScaled, heq, hmagnitude, Nat.cast_natAbs]
  rcases lt_or_ge n 0 with hneg | hpos
  · rw [decide_eq_true hneg, if_pos rfl, abs_of_neg hneg, Int.cast_neg, neg_neg]
  · rw [decide_eq_false hpos.not_gt, if_neg Bool.false_ne_true, abs_of_nonneg hpos]

/-- Up to the width of a significand all whole numbers are. -/
theorem value_ofInt_of_lt {n : ℤ} (hn : n.natAbs < 2 ^ 53) :
    (ofInt n).isFinite = true ∧ (ofInt n).value = n := by
  obtain ⟨y, hy, hmagnitude⟩ := exists_units (u := 0) hn (by norm_num) (by norm_num)
  exact value_ofInt hy (by rw [hmagnitude, zpow_zero, mul_one])

/-- A whole number is a real exactly if it is the real it is taken for. -/
theorem exists_real_iff {n : ℤ} : (∃ x : Binary64, x.isFinite = true ∧ x.value = n)
    ↔ (ofInt n).isFinite = true ∧ (ofInt n).value = n := by
  refine ⟨?_, fun h => ⟨_, h⟩⟩
  rintro ⟨x, hx, hvalue⟩
  refine value_ofInt hx ?_
  rw [← abs_value, hvalue, Nat.cast_natAbs, Int.cast_abs]

/-- A large whole number is rounded to a large real. -/
theorem large_ofInt {n : ℤ} (hn : 2 ^ 53 ≤ n.natAbs) (hfinite : (ofInt n).isFinite = true) :
    2 ^ 53 ≤ (ofInt n).magnitude := by
  obtain ⟨y, hy, hmagnitude⟩ := exists_power (k := 53) (by norm_num) (by norm_num)
  have hle : y.magnitude ≤ (n.natAbs : ℚ) / (1 : ℕ) * 2 ^ (0 : ℤ) := by
    rw [hmagnitude, Nat.cast_one, div_one, zpow_zero, mul_one]
    exact_mod_cast hn
  have hround := le_magnitude_ofScaled Nat.one_pos hy hle hfinite
  rwa [hmagnitude] at hround

end Binary64

namespace Session

open Binary64

/-- A whole number is taken for a real before one half is added. -/
theorem roundUp_eq (n : ℤ) : roundUp (.int n)
    = Number.realOfInt n >>= fun x => wholeNumber (Number.floor (.real (add x half))) := by
  show ((Number.realOfInt n >>= fun x => Except.ok (Number.real (add x half))) >>= fun y =>
    wholeNumber y.floor) = _
  cases Number.realOfInt n <;> rfl

/-- A whole number is rounded to the whole part of its sum with one half. -/
theorem roundUp_of_isFinite {n : ℤ} (hn : (ofInt n).isFinite = true)
    (hsum : (add (ofInt n) half).isFinite = true) :
    roundUp (.int n) = .ok (.int ⌊(add (ofInt n) half).value⌋) := by
  rw [roundUp_eq, Number.realOfInt, if_pos hn]
  have hfloor := Number.floor_eq (a := .real (add (ofInt n) half)) hsum
  show wholeNumber (Number.floor (.real (add (ofInt n) half))) = _
  rw [hfloor]
  rfl

/-- Below two to the fifty-third it is itself, or the even number next to it. -/
theorem roundUp_of_lt {n : ℤ} (hn : n.natAbs < 2 ^ 53) :
    roundUp (.int n) = .ok (.int (if n.natAbs ≤ 2 ^ 52 then n else n + n % 2)) := by
  obtain ⟨hfinite, hvalue⟩ := value_ofInt_of_lt hn
  obtain ⟨hsum, hfloor⟩ := floor_add_half hfinite hvalue hn
  rw [roundUp_of_isFinite hfinite hsum, hfloor]

/-- A whole number past the width of a significand is rounded to the nearest real. -/
theorem roundUp_of_le {n : ℤ} (hn : 2 ^ 53 ≤ n.natAbs) (hlimit : (n.natAbs : ℚ) < limit) :
    ∃ i : ℤ, (ofInt n).value = (2 * i : ℤ) ∧ roundUp (.int n) = .ok (.int (2 * i)) := by
  have hfinite := (isFinite_ofInt n).2 hlimit
  have hlarge := large_ofInt hn hfinite
  have hsum := add_half_of_large hfinite hlarge
  obtain ⟨i, hi⟩ := even_of_large hfinite hlarge
  refine ⟨i, hi, ?_⟩
  rw [roundUp_of_isFinite hfinite (by rwa [hsum]), hsum, hi, Int.floor_intCast]

/-- A whole number past the limit is too big. -/
theorem roundUp_tooBig {n : ℤ} (hn : limit ≤ n.natAbs) : roundUp (.int n) = .error .tooBig := by
  have hnot : ¬(ofInt n).isFinite = true := fun h => not_lt.2 hn ((isFinite_ofInt n).1 h)
  rw [roundUp_eq, Number.realOfInt, if_neg hnot]
  rfl

/-- A whole number is rounded to itself exactly if it is a real, and even where one half
    after it there is none. -/
theorem roundUp_eq_iff (n : ℤ) : roundUp (.int n) = .ok (.int n)
    ↔ (∃ x : Binary64, x.isFinite = true ∧ x.value = n) ∧ (n.natAbs ≤ 2 ^ 52 ∨ n % 2 = 0) := by
  rw [exists_real_iff]
  rcases lt_or_ge n.natAbs (2 ^ 53) with hsmall | hlarge
  · rw [roundUp_of_lt hsmall, and_iff_right (value_ofInt_of_lt hsmall), Except.ok.injEq,
      Number.int.injEq]
    split <;> omega
  · -- of that size only even numbers are reals, so the second condition asks for nothing more
    rcases lt_or_ge (n.natAbs : ℚ) limit with hlimit | hlimit
    · obtain ⟨i, hvalue, hround⟩ := roundUp_of_le hlarge hlimit
      rw [hround, hvalue, Except.ok.injEq, Number.int.injEq, Int.cast_inj]
      constructor
      · rintro rfl
        exact ⟨⟨(isFinite_ofInt _).2 hlimit, rfl⟩, .inr (Int.mul_emod_right 2 i)⟩
      · exact fun h => h.1.2
    · rw [roundUp_tooBig hlimit]
      refine iff_of_false (fun h => by cases h) fun h => ?_
      exact not_lt.2 hlimit ((isFinite_ofInt n).1 h.1.1)

/-! ## What the function gives -/

section

variable {who : Text} {f : Number → Except ArithmeticFault Number} {n m : ℤ}

/-- A function of one number, where it has a whole number for a whole number. -/
theorem mathematics_int (h : f (.int n) = .ok (.int m)) (w : World) :
    mathematics who f (.ofInt n) w = .ok (.ofInt m) w := by
  have hnumber : number (.ofInt n) who w = .ok (.int n) w := rfl
  rw [mathematics, bind_of_ok hnumber, h]
  rfl

/-- Where it has no value, the fault says so and with which input. -/
theorem mathematics_error {fault : ArithmeticFault} (h : f (.int n) = .error fault) (w : World) :
    ∃ g, mathematics who f (.ofInt n) w = .error g w
      ∧ ∀ t, (Value.ofInt n).text = .ok t → g = .cannotWork who t := by
  have hnumber : number (.ofInt n) who w = .ok (.int n) w := rfl
  rw [mathematics, bind_of_ok hnumber, h]
  show ∃ g, (compute (Value.ofInt n).text >>= fun t => throw (.cannotWork who t)) w = .error g w
    ∧ _
  cases ht : (Value.ofInt n).text with
  | ok t =>
      refine ⟨.cannotWork who t, rfl, fun t' ht' => ?_⟩
      cases ht'
      rfl
  | error fault => exact ⟨.arithmetic fault, rfl, fun t' ht' => by cases ht'⟩

end

/-- What is rounded is whole. -/
theorem whole_of_roundUp {x y : Number} (h : roundUp x = .ok y) : ∃ i : ℤ, y = .int i := by
  obtain ⟨z, -, h⟩ := Except.bind_eq_ok h
  cases hz : z.floor with
  | ok i =>
      rw [hz] at h
      cases h
      exact ⟨i, rfl⟩
  | error fault =>
      rw [hz] at h
      cases h

/-- The function rounds a number as the definition says, and changes nothing. -/
theorem apply_round_iff (n m : ℤ) (w : World) :
    apply .round [.ofInt n] w = .ok (.ofInt m) w ↔ roundUp (.int n) = .ok (.int m) := by
  refine ⟨fun h => ?_, fun h => mathematics_int h w⟩
  cases hround : roundUp (.int n) with
  | ok y =>
      obtain ⟨i, rfl⟩ := whole_of_roundUp hround
      cases h.symm.trans (mathematics_int hround w)
      rfl
  | error fault =>
      obtain ⟨g, hg, -⟩ : ∃ g, apply .round [.ofInt n] w = .error g w ∧ _ :=
        mathematics_error hround w
      cases h.symm.trans hg

/-- What ROUND gives for a whole number, in whatever state: that number exactly if it is
    a real, and no further from zero than two to the fifty-second or even.  Up to the width
    of a significand it is otherwise the even number after it, past that the real that is
    nearest, and from the limit of the reals on nothing. -/
theorem round_whole (n : ℤ) (w : World) :
    (apply .round [.ofInt n] w = .ok (.ofInt n) w
      ↔ (∃ x : Binary64, x.isFinite = true ∧ x.value = n) ∧ (n.natAbs ≤ 2 ^ 52 ∨ n % 2 = 0))
    ∧ (n.natAbs < 2 ^ 53 → apply .round [.ofInt n] w
      = .ok (.ofInt (if n.natAbs ≤ 2 ^ 52 then n else n + n % 2)) w)
    ∧ (2 ^ 53 ≤ n.natAbs → (n.natAbs : ℚ) < limit →
      ∃ m : ℤ, (ofInt n).value = m ∧ apply .round [.ofInt n] w = .ok (.ofInt m) w)
    ∧ (limit ≤ n.natAbs → ∃ g, apply .round [.ofInt n] w = .error g w
      ∧ ∀ t, (Value.ofInt n).text = .ok t → g = .cannotWork "ROUND" t) := by
  refine ⟨?_, fun hsmall => ?_, fun hlarge hlimit => ?_, fun hlimit => ?_⟩
  · rw [apply_round_iff, roundUp_eq_iff]
  · exact mathematics_int (roundUp_of_lt hsmall) w
  · obtain ⟨i, hvalue, hround⟩ := roundUp_of_le hlarge hlimit
    exact ⟨2 * i, hvalue, mathematics_int hround w⟩
  · exact mathematics_error (roundUp_tooBig hlimit) w

/-- A whole number that INT gets is given back as it is, of any size. -/
theorem int_whole (n : ℤ) (w : World) : apply .int [.ofInt n] w = .ok (.ofInt n) w := by
  have htrunc : wholeNumber (Number.trunc (.int n)) = .ok (.int n) := rfl
  exact mathematics_int (f := fun x => wholeNumber x.trunc) htrunc w

/-- The whole number that is the value of a program which is one expression. -/
def wholeOf (source : Text) (w : World) : Option ℤ :=
  match Token.tokenize source with
  | .error _ => none
  | .ok ts =>
      match (engine ⟨40, 5⟩).expression ts w with
      | .ok (.number (.int n), []) _ => some n
      | _ => none

/-- The whole number after two to the fifty-second is a real, but the number one half after
    it is none, and the even number after that is taken.  INT leaves it alone. -/
theorem round_whole_odd : ∃ w, quietSession = .ok w
    ∧ wholeOf "INT 4503599627370497" w = some 4503599627370497
    ∧ wholeOf "ROUND 4503599627370497" w = some 4503599627370498 := by
  obtain ⟨w, hnew, htried⟩ := quietSession_of (P := fun w => decide
    (wholeOf "INT 4503599627370497" w = some 4503599627370497
      ∧ wholeOf "ROUND 4503599627370497" w = some 4503599627370498)) (by decide +kernel)
  exact ⟨w, hnew, of_decide_eq_true htried⟩

end Session

end TurtleLogo
