import TurtleLogo.Drawing.Shape
import TurtleLogo.Proofs.Magnitude

/-! # Outlines that can be traced

    A point along an arc can be found if its centre and radius are not too big
    for reals and its bearing is not infinite.  The bearings along an arc get
    bigger in magnitude from its start to its end, so an arc whose end can be
    found can be traced (`direction_sweepBearing`).  `Shape.Traceable` says when
    a shape can be a part of a filled outline (`outlineOnto_iff`). -/

namespace TurtleLogo

/-! ## Numbers that reals can hold -/

namespace Number

/-- A number that is not too big for a real. -/
def Fits (n : Number) : Prop := ∃ x, n.toReal = .ok x

theorem fits_real (x : Binary64) : Fits (.real x) := ⟨x, rfl⟩

/-- A whole number whose rounding is finite can be made a real. -/
theorem toReal_int {n : ℤ} (h : (Binary64.ofInt n).isFinite = true) :
    toReal (.int n) = .ok (Binary64.ofInt n) := by
  rw [toReal, realOfInt, if_pos h]

/-- A whole number that can be made a real is rounded to a finite one. -/
theorem toReal_int_ok {n : ℤ} {x : Binary64} (h : toReal (.int n) = .ok x) :
    x = Binary64.ofInt n ∧ x.isFinite = true := by
  rw [toReal, realOfInt] at h
  split at h
  · rename_i hfinite
    cases h
    exact ⟨rfl, hfinite⟩
  · cases h

/-- Reals can hold a whole number exactly if its rounding is finite. -/
theorem fits_int_iff (n : ℤ) : Fits (.int n) ↔ (Binary64.ofInt n).isFinite = true := by
  constructor
  · rintro ⟨x, hx⟩
    obtain ⟨rfl, hfinite⟩ := toReal_int_ok hx
    exact hfinite
  · intro h
    exact ⟨_, toReal_int h⟩

/-- Reals can hold a number exactly if they can hold its absolute value. -/
theorem fits_abs_iff (n : Number) : Fits n.abs ↔ Fits n := by
  cases n with
  | int n =>
      rw [abs, fits_int_iff, fits_int_iff, Binary64.isFinite_ofInt, Binary64.isFinite_ofInt,
        Int.natAbs_natCast]
  | real x => exact ⟨fun _ => fits_real x, fun _ => fits_real _⟩

section

variable {f : ℤ → ℤ → ℤ} {g : Binary64 → Binary64 → Binary64} {a r : Number} {x y : Binary64}

/-- An operation with a real on the right is one of reals. -/
theorem combine_left (h : a.toReal = .ok x) : combine f g a (.real y) = .ok (.real (g x y)) := by
  cases a with
  | int n =>
      rw [toReal] at h
      rw [combine, h]
      rfl
  | real z =>
      cases h
      rfl

/-- An operation with a real on the left is one of reals. -/
theorem combine_right (h : a.toReal = .ok y) : combine f g (.real x) a = .ok (.real (g x y)) := by
  cases a with
  | int n =>
      rw [toReal] at h
      rw [combine, h]
      rfl
  | real z =>
      cases h
      rfl

/-- An operation with a real on the right succeeds only if the other number can be
    made a real. -/
theorem combine_left_ok (h : combine f g a (.real y) = .ok r) :
    ∃ x, a.toReal = .ok x ∧ r = .real (g x y) := by
  cases a with
  | int n =>
      obtain ⟨x, hx, h⟩ := Except.bind_eq_ok h
      cases h
      exact ⟨x, hx, rfl⟩
  | real z =>
      cases h
      exact ⟨z, rfl, rfl⟩

/-- An operation with a real on the left succeeds only if the other number can be
    made a real. -/
theorem combine_right_ok (h : combine f g (.real x) a = .ok r) :
    ∃ y, a.toReal = .ok y ∧ r = .real (g x y) := by
  cases a with
  | int n =>
      obtain ⟨y, hy, h⟩ := Except.bind_eq_ok h
      cases h
      exact ⟨y, hy, rfl⟩
  | real z =>
      cases h
      exact ⟨z, rfl, rfl⟩

end

/-- A quotient of whole numbers is a real unless it is too big. -/
theorem div_int {a : ℤ} {k : ℤ} (hk : k ≠ 0) : div (.int a) (.int k)
    = if (Binary64.ofRatio a k).isFinite then .ok (.real (Binary64.ofRatio a k))
      else .error .tooBig := by
  have hzero : isZero (.int k) = false := by simpa [isZero] using hk
  rw [div, hzero]
  rfl

/-- A real is divided by a whole number as by a real. -/
theorem div_real {x : Binary64} {k : ℤ} (hk : k ≠ 0) : div (.real x) (.int k)
    = combine (fun _ _ => 0) Binary64.div (.real x) (.int k) := by
  have hzero : isZero (.int k) = false := by simpa [isZero] using hk
  simp only [div, hzero]
  rfl

end Number

/-! ## Directions -/

namespace Binary64

/-- An angle that is not infinite is not infinite in radians. -/
theorem bounded_mul_degree {x : Binary64} (h : x.Bounded) : (x.mul degree).Bounded := by
  obtain ⟨s, m, q, hcanonical, hdegree, -, hq⟩ := degree_spec
  rw [hdegree]
  cases x with
  | nan mark =>
      rintro neg h
      cases h
  | infinite neg => exact absurd rfl (h neg)
  | finite t n r hr =>
      -- a degree is less than a radian
      refine bounded_of_isFinite ((isFinite_mul rfl rfl).2 ?_)
      have hm : (m : ℚ) ≤ 2 ^ (53 : ℤ) := by exact_mod_cast hcanonical.1.le
      have hq : (2 : ℚ) ^ q ≤ 2 ^ (-53 : ℤ) := zpow_le_zpow_right₀ (by norm_num) hq
      have hone : (finite s m q hcanonical).magnitude ≤ 1 := by
        refine le_trans (mul_le_mul hm hq (zpow_nonneg (by norm_num) _)
          (zpow_nonneg (by norm_num) _)) (le_of_eq ?_)
        rw [← zpow_add₀ (by norm_num), add_neg_cancel, zpow_zero]
      have hle := mul_le_mul_of_nonneg_left hone (magnitude_nonneg (finite t n r hr))
      rw [mul_one] at hle
      exact lt_of_le_of_lt hle (magnitude_lt_limit _)

/-- An angle that is not infinite has a sine. -/
theorem sin_of_bounded {x : Binary64} (h : x.Bounded) : ∃ y, x.sin? = some y := by
  cases x with
  | nan mark => exact ⟨_, rfl⟩
  | infinite neg => exact absurd rfl (h neg)
  | finite s m q hq =>
      rw [sin?]
      split
      · exact ⟨_, rfl⟩
      · exact ⟨_, rfl⟩

/-- An angle that is not infinite has a cosine. -/
theorem cos_of_bounded {x : Binary64} (h : x.Bounded) : ∃ y, x.cos? = some y := by
  cases x with
  | nan mark => exact ⟨_, rfl⟩
  | infinite neg => exact absurd rfl (h neg)
  | finite s m q hq =>
      rw [cos?]
      split
      · exact ⟨_, rfl⟩
      · exact ⟨_, rfl⟩

end Binary64

namespace Number

/-- A bearing that is not infinite has a direction. -/
theorem direction_of_bounded {b : Number} {x : Binary64} (hb : b.toReal = .ok x)
    (hx : x.Bounded) : ∃ dx dy, b.direction = .ok (.real dx, .real dy) := by
  obtain ⟨s, hs⟩ := Binary64.sin_of_bounded (Binary64.bounded_mul_degree hx)
  obtain ⟨c, hc⟩ := Binary64.cos_of_bounded (Binary64.bounded_mul_degree hx)
  refine ⟨s, c, ?_⟩
  have hradians : b.radians = .ok (x.mul Binary64.degree) := by
    rw [radians, hb]
    rfl
  rw [direction, hradians]
  show (defined (x.mul Binary64.degree).sin? >>= fun s =>
    defined (x.mul Binary64.degree).cos? >>= fun c => .ok (s, c)) = _
  rw [hs, hc]
  rfl

/-- A bearing that has a direction is not infinite. -/
theorem direction_ok {b : Number} {p : Point Number} (h : b.direction = .ok p) :
    ∃ x dx dy, b.toReal = .ok x ∧ x.Bounded ∧ p = (.real dx, .real dy) := by
  obtain ⟨z, hz, h⟩ := Except.bind_eq_ok h
  obtain ⟨s, hs, h⟩ := Except.bind_eq_ok h
  obtain ⟨c, hc, h⟩ := Except.bind_eq_ok h
  cases h
  obtain ⟨x, hx, hz⟩ := Except.bind_eq_ok hz
  cases hz
  have hdefined : ∀ {o : Option Binary64} {n : Number}, defined o = .ok n → ∃ y, n = .real y := by
    intro o n h
    cases o with
    | some y =>
        cases h
        exact ⟨y, rfl⟩
    | none => cases h
  obtain ⟨dx, rfl⟩ := hdefined hs
  obtain ⟨dy, rfl⟩ := hdefined hc
  refine ⟨x, dx, dy, hx, ?_, rfl⟩
  rintro neg rfl
  obtain ⟨t, m, q, hcanonical, hdegree, hm, -⟩ := Binary64.degree_spec
  rw [hdegree] at hs
  simp only [Binary64.mul, if_neg hm, Binary64.sin?, defined] at hs
  cases hs

end Number

/-! ## Points -/

/-- A point can be found if its bearing has a direction and reals can hold the rest. -/
theorem pointAt_of_fits {x y radius bearing : Number} {d : Point Number}
    (hd : bearing.direction = .ok d) (hx : x.Fits) (hy : y.Fits) (hradius : radius.Fits) :
    ∃ px py, pointAt x y radius bearing = .ok (.real px, .real py) := by
  obtain ⟨-, dx, dy, -, -, rfl⟩ := Number.direction_ok hd
  obtain ⟨x', hx⟩ := hx
  obtain ⟨y', hy⟩ := hy
  obtain ⟨r', hradius⟩ := hradius
  refine ⟨x'.add (r'.mul dx), y'.add (r'.mul dy), ?_⟩
  show (bearing.direction >>= fun d => radius.mul d.1 >>= fun rx => x.add rx >>= fun px =>
    radius.mul d.2 >>= fun ry => y.add ry >>= fun py => .ok (px, py)) = _
  rw [hd]
  show (radius.mul (.real dx) >>= fun rx => x.add rx >>= fun px =>
    radius.mul (.real dy) >>= fun ry => y.add ry >>= fun py => .ok (px, py)) = _
  rw [Number.mul, Number.combine_left hradius, Number.mul, Number.combine_left hradius]
  show (x.add (.real (r'.mul dx)) >>= fun px =>
    y.add (.real (r'.mul dy)) >>= fun py => .ok (px, py)) = _
  rw [Number.add, Number.combine_left hx, Number.add, Number.combine_left hy]
  rfl

/-- A point is found only if its bearing has a direction and reals can hold the
    rest. -/
theorem pointAt_ok {x y radius bearing : Number} {p : Point Number}
    (h : pointAt x y radius bearing = .ok p) :
    (∃ d, bearing.direction = .ok d) ∧ x.Fits ∧ y.Fits ∧ radius.Fits
      ∧ ∃ px py, p = (.real px, .real py) := by
  obtain ⟨d, hd, h⟩ := Except.bind_eq_ok h
  obtain ⟨-, dx, dy, -, -, rfl⟩ := Number.direction_ok hd
  obtain ⟨rx, hrx, h⟩ := Except.bind_eq_ok h
  obtain ⟨px, hpx, h⟩ := Except.bind_eq_ok h
  obtain ⟨ry, hry, h⟩ := Except.bind_eq_ok h
  obtain ⟨py, hpy, h⟩ := Except.bind_eq_ok h
  cases h
  obtain ⟨r', hradius, rfl⟩ := Number.combine_left_ok hrx
  obtain ⟨_, _, rfl⟩ := Number.combine_left_ok hry
  obtain ⟨x', hx, rfl⟩ := Number.combine_left_ok hpx
  obtain ⟨y', hy, rfl⟩ := Number.combine_left_ok hpy
  exact ⟨⟨_, hd⟩, ⟨x', hx⟩, ⟨y', hy⟩, ⟨r', hradius⟩, _, _, rfl⟩

/-! ## Arcs -/

/-- A heading in normal form is modest. -/
theorem normalizeHeading_modest {h first : Number} (hfirst : normalizeHeading h = .ok first) :
    ∃ x, first.toReal = .ok x ∧ x.Modest := by
  have hwhole : ∀ k : ℤ, k.natAbs ≤ 360 → ∃ x, Number.toReal (.int k) = .ok x ∧ x.Modest := by
    intro k hk
    have hle : (k.natAbs : ℚ) ≤ 360 := by exact_mod_cast hk
    have hfinite : (Binary64.ofInt k).isFinite = true := by
      rw [Binary64.isFinite_ofInt]
      linarith [Binary64.million_lt_limit]
    refine ⟨_, Number.toReal_int hfinite, Binary64.modest_of_le hfinite ?_⟩
    linarith [Binary64.magnitude_ofInt_le k]
  have hcircle : (Binary64.ofInt 360).magnitude ≤ 1000 := by
    refine le_trans (Binary64.magnitude_ofInt_le 360) ?_
    norm_num
  obtain ⟨r, hr, hfirst⟩ := Except.bind_eq_ok hfirst
  cases hfirst
  split
  · exact hwhole 0 (by decide)
  · cases h with
    | int n =>
        cases hr
        refine hwhole _ ?_
        have hlow := Int.fmod_nonneg_of_pos n (show (0 : ℤ) < 360 by decide)
        have hhigh := Int.fmod_lt_of_pos n (show (0 : ℤ) < 360 by decide)
        omega
    | real x =>
        change Number.combine Int.fmod Binary64.mod (.real x) (.int 360) = .ok r at hr
        obtain ⟨y, hy, rfl⟩ := Number.combine_right_ok hr
        obtain ⟨rfl, hfinite⟩ := Number.toReal_int_ok hy
        exact ⟨_, rfl, Binary64.modest_mod x hfinite hcircle⟩

/-- Only a finite sweep has a number of pieces. -/
theorem isFinite_of_sweepSteps {s : Binary64} {least steps : ℕ}
    (h : sweepSteps least 5 (Number.real s) = .ok steps) : s.isFinite = true := by
  obtain ⟨q, hq, h⟩ := Except.bind_eq_ok h
  obtain ⟨n, hn, -⟩ := Except.bind_eq_ok h
  change Number.combine (fun _ _ => 0) Binary64.div (.real s.abs) (.int 5) = .ok q at hq
  obtain ⟨y, hy, rfl⟩ := Number.combine_right_ok hq
  obtain ⟨-, hfinite⟩ := Number.toReal_int_ok hy
  cases y with
  | finite t k r hr =>
      cases s with
      | nan mark => cases hn
      | infinite neg => cases hn
      | finite neg m q hq => rfl
  | _ => cases hfinite

section

variable {start b : Number} {x s : Binary64} {n : ℤ} {steps i : ℕ}

/-- The bearings along an arc whose sweep is whole. -/
theorem sweepBearing_int (hstart : start.toReal = .ok x) (hsteps : 0 < steps)
    (h : (Binary64.ofRatio (n * i) steps).isFinite = true) :
    sweepBearing start (.int n) steps i
      = .ok (.real (x.add (Binary64.ofRatio (n * i) steps))) := by
  show (Number.div (.int (n * i)) (.int steps) >>= fun turned => start.add turned) = _
  rw [Number.div_int (by omega), if_pos h]
  exact Number.combine_left hstart

/-- A bearing along a whole sweep is found only if its part of the sweep is not too
    big. -/
theorem sweepBearing_int_ok (hsteps : 0 < steps)
    (h : sweepBearing start (.int n) steps i = .ok b) :
    (Binary64.ofRatio (n * i) steps).isFinite = true := by
  change (Number.div (.int (n * i)) (.int steps) >>= fun turned => start.add turned) = .ok b at h
  obtain ⟨turned, hturned, -⟩ := Except.bind_eq_ok h
  rw [Number.div_int (by omega)] at hturned
  split at hturned
  · assumption
  · cases hturned

/-- The bearings along an arc whose sweep is real. -/
theorem sweepBearing_real {y z : Binary64} (hstart : start.toReal = .ok x) (hsteps : 0 < steps)
    (hi : Number.toReal (.int i) = .ok y) (hk : Number.toReal (.int steps) = .ok z) :
    sweepBearing start (.real s) steps i = .ok (.real (x.add ((s.mul y).div z))) := by
  show (Number.combine (· * ·) Binary64.mul (.real s) (.int i) >>= fun part =>
    part.div (.int steps) >>= fun turned => start.add turned) = _
  rw [Number.combine_right hi]
  show (Number.div (.real (s.mul y)) (.int steps) >>= fun turned => start.add turned) = _
  rw [Number.div_real (by omega), Number.combine_right hk]
  exact Number.combine_left hstart

/-- A bearing along a real sweep is the start and a part of the sweep. -/
theorem sweepBearing_real_ok (hstart : start.toReal = .ok x) (hsteps : 0 < steps)
    (h : sweepBearing start (.real s) steps i = .ok b) :
    ∃ y z, Number.toReal (.int i) = .ok y ∧ Number.toReal (.int steps) = .ok z
      ∧ b = .real (x.add ((s.mul y).div z)) := by
  have hbearing := h
  change (Number.combine (· * ·) Binary64.mul (.real s) (.int i) >>= fun part =>
    part.div (.int steps) >>= fun turned => start.add turned) = .ok b at h
  obtain ⟨part, hpart, h⟩ := Except.bind_eq_ok h
  obtain ⟨y, hy, rfl⟩ := Number.combine_right_ok hpart
  obtain ⟨turned, hturned, -⟩ := Except.bind_eq_ok h
  rw [Number.div_real (by omega)] at hturned
  obtain ⟨z, hz, -⟩ := Number.combine_right_ok hturned
  refine ⟨y, z, hy, hz, ?_⟩
  rw [sweepBearing_real hstart hsteps hy hz] at hbearing
  exact (Except.ok.inj hbearing).symm

end

/-- If the end of an arc has a direction from its centre, so has every point
    along it. -/
theorem direction_sweepBearing {start sweep last : Number} {x : Binary64} {d : Point Number}
    {steps i : ℕ} (hstart : start.toReal = .ok x) (hmodest : x.Modest)
    (hsteps : sweepSteps 1 5 sweep = .ok steps)
    (hlast : sweepBearing start sweep steps steps = .ok last) (hd : last.direction = .ok d)
    (hi : i ≤ steps) :
    ∃ b e, sweepBearing start sweep steps i = .ok b ∧ b.direction = .ok e := by
  have hpos : 0 < steps := sweepSteps_le hsteps
  cases sweep with
  | int n =>
      have hend := sweepBearing_int_ok hpos hlast
      have hpart : (Binary64.ofRatio (n * i) steps).isFinite = true := by
        rw [Binary64.isFinite_ofRatio _ (by omega)] at hend ⊢
        refine lt_of_le_of_lt ?_ hend
        rw [Int.natAbs_mul, Int.natAbs_mul, Int.natAbs_natCast, Int.natAbs_natCast]
        gcongr
      obtain ⟨dx, dy, hdirection⟩ :=
        Number.direction_of_bounded (b := .real _) rfl (hmodest.add hpart)
      exact ⟨_, _, sweepBearing_int hstart hpos hpart, hdirection⟩
  | real s =>
      obtain ⟨_, z, hz', hz, rfl⟩ := sweepBearing_real_ok hstart hpos hlast
      obtain rfl := Except.ok.inj (hz'.symm.trans hz)
      obtain ⟨b, -, -, hb, hbounded, -⟩ := Number.direction_ok hd
      cases hb
      obtain ⟨rfl, hzfinite⟩ := Number.toReal_int_ok hz
      -- as many pieces as there are get no bigger when rounded
      have hy : (Binary64.ofInt i).isFinite = true := by
        rw [Binary64.isFinite_ofInt] at hzfinite ⊢
        refine lt_of_le_of_lt ?_ hzfinite
        exact_mod_cast hi
      have hpieces := Binary64.bounded_pieces hmodest (isFinite_of_sweepSteps hsteps) hy hzfinite
        (Binary64.one_le_magnitude_ofInt hpos hzfinite)
        (Binary64.magnitude_ofInt_mono hi hzfinite) hbounded
      obtain ⟨dx, dy, hdirection⟩ := Number.direction_of_bounded (b := .real _) rfl hpieces
      exact ⟨_, _, sweepBearing_real hstart hpos (Number.toReal_int hy) hz, hdirection⟩

/-- The end of an arc has a direction from its centre. -/
def HasEnd (start sweep : Number) : Prop :=
  ∃ steps last d, sweepSteps 1 5 sweep = .ok steps
    ∧ sweepBearing start sweep steps steps = .ok last ∧ last.direction = .ok d

theorem toReal_home : Number.toReal (.int 0) = .ok (Binary64.ofInt 0) := rfl

/-- Zero is a small real. -/
theorem modest_home : (Binary64.ofInt 0).Modest := by
  refine Binary64.modest_of_le rfl ?_
  rw [Binary64.ofInt, Int.natAbs_zero, Binary64.magnitude_ofScaled_zero]
  norm_num

/-- Full circles have an end, either way round. -/
theorem hasEnd_circle (radius : Number) :
    HasEnd (.int 0) (.int (if Scalar.le Scalar.zero radius then 360 else -360)) := by
  have hend : ∀ n : ℤ, sweepSteps 1 5 (.int n : Number) = .ok 72 → n.natAbs = 360 →
      HasEnd (.int 0) (.int n) := by
    intro n hsteps hn
    have hfinite : (Binary64.ofRatio (n * (72 : ℕ)) (72 : ℕ)).isFinite = true := by
      rw [Binary64.isFinite_ofRatio _ (by decide), Int.natAbs_mul, hn]
      refine lt_trans ?_ Binary64.million_lt_limit
      norm_num
    obtain ⟨dx, dy, hdirection⟩ :=
      Number.direction_of_bounded (b := .real _) rfl (modest_home.add hfinite)
    exact ⟨72, _, _, hsteps, sweepBearing_int toReal_home (by decide) hfinite, hdirection⟩
  split
  · exact hend 360 rfl rfl
  · exact hend (-360) rfl rfl

/-! ## Points along an arc -/

/-- Points whose coordinates reals can hold. -/
def Placed (ps : List (Point Number)) : Prop := ∀ p ∈ ps, p.1.Fits ∧ p.2.Fits

theorem placed_nil : Placed [] := fun _ hp => absurd hp List.not_mem_nil

/-- A further point is placed if reals can hold its coordinates. -/
theorem Placed.cons {p : Point Number} {ps : List (Point Number)} (hx : p.1.Fits) (hy : p.2.Fits)
    (h : Placed ps) : Placed (p :: ps) :=
  List.forall_mem_cons.2 ⟨⟨hx, hy⟩, h⟩

/-- Points along a curve are placed if each of them can be found. -/
theorem samplePoints_placed {place : ℕ → Except ArithmeticFault (Point Number)} {count i : ℕ}
    {sofar : List (Point Number)} (hsofar : Placed sofar)
    (h : ∀ j, i ≤ j → j < i + count → ∃ px py, place j = .ok (.real px, .real py)) :
    ∃ ps, samplePoints place count i sofar = .ok ps ∧ Placed ps := by
  induction count generalizing i sofar with
  | zero => exact ⟨sofar, rfl, hsofar⟩
  | succ count ih =>
      obtain ⟨px, py, hp⟩ := h i (le_refl i) (by omega)
      have hmore : Placed ((.real px, .real py) :: sofar) :=
        .cons (Number.fits_real px) (Number.fits_real py) hsofar
      obtain ⟨ps, hps, hplaced⟩ := ih (i := i + 1) hmore fun j hj hlt => h j (by omega) (by omega)
      refine ⟨ps, ?_, hplaced⟩
      rw [samplePoints, hp]
      exact hps

/-- Points along a curve are found only if each of them is. -/
theorem samplePoints_ok {place : ℕ → Except ArithmeticFault (Point Number)} {count i : ℕ}
    {sofar ps : List (Point Number)} (h : samplePoints place count i sofar = .ok ps) :
    (∀ j, i ≤ j → j < i + count → ∃ p, place j = .ok p) ∧ ∀ p ∈ sofar, p ∈ ps := by
  induction count generalizing i sofar with
  | zero =>
      cases h
      exact ⟨fun j hj hlt => by omega, fun p hp => hp⟩
  | succ count ih =>
      obtain ⟨p, hp, h⟩ := Except.bind_eq_ok h
      obtain ⟨hplace, hmem⟩ := ih h
      refine ⟨fun j hj hlt => ?_, fun q hq => hmem q (List.mem_cons_of_mem p hq)⟩
      rcases eq_or_lt_of_le hj with rfl | hlt'
      · exact ⟨p, hp⟩
      · exact hplace j hlt' (by omega)

/-- An arc can be traced if its centre, its radius and its end can be found. -/
theorem arcPointsOnto_iff {x y radius start sweep : Number} {z : Binary64}
    (hstart : start.toReal = .ok z) (hmodest : z.Modest) (sofar : List (Point Number)) :
    (∃ ps, arcPointsOnto x y radius start sweep sofar = .ok ps ∧ Placed ps)
      ↔ (x.Fits ∧ y.Fits ∧ radius.Fits ∧ HasEnd start sweep) ∧ Placed sofar := by
  constructor
  · rintro ⟨ps, hps, hplaced⟩
    obtain ⟨steps, hsteps, hps⟩ := Except.bind_eq_ok hps
    obtain ⟨hplace, hmem⟩ := samplePoints_ok hps
    obtain ⟨p, hp⟩ := hplace steps (Nat.zero_le _) (by omega)
    obtain ⟨last, hlast, hp⟩ := Except.bind_eq_ok hp
    obtain ⟨⟨d, hd⟩, hx, hy, hradius, -⟩ := pointAt_ok hp
    exact ⟨⟨hx, hy, hradius, steps, last, d, hsteps, hlast, hd⟩, fun q hq => hplaced q (hmem q hq)⟩
  · rintro ⟨⟨hx, hy, hradius, steps, last, d, hsteps, hlast, hd⟩, hsofar⟩
    rw [arcPointsOnto, hsteps]
    refine samplePoints_placed hsofar fun j _ hj => ?_
    obtain ⟨b, e, hb, he⟩ :=
      direction_sweepBearing hstart hmodest hsteps hlast hd (show j ≤ steps by omega)
    obtain ⟨px, py, hp⟩ := pointAt_of_fits he hx hy hradius
    refine ⟨px, py, ?_⟩
    rw [hb]
    exact hp

/-! ## Shapes -/

namespace Shape

mutual
/-- A shape that can be drawn: an arc has been placed by its centre, and starts
    at a heading in normal form. -/
def Drawable : Shape Number → Prop
  | .line .. | .circle .. => True
  | .arc x y radius start _ _ =>
      (∃ a b side, pointAt a b radius side = .ok (x, y)) ∧ ∃ h, normalizeHeading h = .ok start
  | .fill _ _ parts _ => AllDrawable parts
/-- Shapes that can be drawn. -/
def AllDrawable : List (Shape Number) → Prop
  | [] => True
  | s :: ss => Drawable s ∧ AllDrawable ss
end

mutual
/-- A shape that can be a part of a filled outline. -/
def Traceable : Shape Number → Prop
  | .line x1 y1 x2 y2 _ => (x1.Fits ∧ y1.Fits) ∧ x2.Fits ∧ y2.Fits
  | .circle x y radius _ => x.Fits ∧ y.Fits ∧ radius.Fits
  | .arc _ _ _ start sweep _ => HasEnd start sweep
  | .fill x y parts _ => (x.Fits ∧ y.Fits) ∧ AllTraceable parts
/-- Shapes that can be parts of a filled outline. -/
def AllTraceable : List (Shape Number) → Prop
  | [] => True
  | s :: ss => Traceable s ∧ AllTraceable ss
end

mutual
/-- A drawn shape is a part of an outline exactly if it can be traced. -/
theorem outlineOnto_iff : ∀ (s : Shape Number) (sofar : List (Point Number)), s.Drawable →
    ((∃ ps, s.outlineOnto sofar = .ok ps ∧ Placed ps) ↔ s.Traceable ∧ Placed sofar)
  | .line x1 y1 x2 y2 pen, sofar, _ => by
      rw [outlineOnto, Traceable]
      constructor
      · rintro ⟨ps, hps, hplaced⟩
        cases hps
        obtain ⟨h2, hplaced⟩ := List.forall_mem_cons.1 hplaced
        obtain ⟨h1, hplaced⟩ := List.forall_mem_cons.1 hplaced
        exact ⟨⟨h1, h2⟩, hplaced⟩
      · rintro ⟨⟨h1, h2⟩, hplaced⟩
        exact ⟨_, rfl, .cons h2.1 h2.2 (.cons h1.1 h1.2 hplaced)⟩
  | .circle x y radius pen, sofar, _ => by
      rw [outlineOnto, Traceable]
      refine (arcPointsOnto_iff toReal_home modest_home sofar).trans ?_
      constructor
      · rintro ⟨⟨hx, hy, hradius, -⟩, hsofar⟩
        exact ⟨⟨hx, hy, (Number.fits_abs_iff radius).1 hradius⟩, hsofar⟩
      · rintro ⟨⟨hx, hy, hradius⟩, hsofar⟩
        exact ⟨⟨hx, hy, (Number.fits_abs_iff radius).2 hradius, hasEnd_circle radius⟩, hsofar⟩
  | .arc x y radius start sweep pen, sofar, hs => by
      obtain ⟨⟨a, b, side, hcentre⟩, h, hstart⟩ := hs
      obtain ⟨-, -, -, hradius, px, py, hp⟩ := pointAt_ok hcentre
      obtain ⟨z, hz, hmodest⟩ := normalizeHeading_modest hstart
      cases hp
      rw [outlineOnto, Traceable, arcPointsOnto_iff hz hmodest]
      constructor
      · rintro ⟨⟨-, -, -, hend⟩, hsofar⟩
        exact ⟨hend, hsofar⟩
      · rintro ⟨hend, hsofar⟩
        exact ⟨⟨Number.fits_real px, Number.fits_real py, hradius, hend⟩, hsofar⟩
  | .fill x y parts color, sofar, hs => by
      rw [outlineOnto, Traceable, outlinesOnto_iff parts _ hs]
      constructor
      · rintro ⟨hparts, hplaced⟩
        obtain ⟨hstart, hsofar⟩ := List.forall_mem_cons.1 hplaced
        exact ⟨⟨hstart, hparts⟩, hsofar⟩
      · rintro ⟨⟨hstart, hparts⟩, hsofar⟩
        exact ⟨hparts, .cons hstart.1 hstart.2 hsofar⟩
/-- An outline of several shapes can be traced exactly if each of them can be. -/
theorem outlinesOnto_iff : ∀ (ss : List (Shape Number)) (sofar : List (Point Number)),
    AllDrawable ss →
    ((∃ ps, outlinesOnto ss sofar = .ok ps ∧ Placed ps) ↔ AllTraceable ss ∧ Placed sofar)
  | [], sofar, _ => by
      rw [outlinesOnto, AllTraceable]
      constructor
      · rintro ⟨ps, hps, hplaced⟩
        cases hps
        exact ⟨trivial, hplaced⟩
      · rintro ⟨-, hplaced⟩
        exact ⟨sofar, rfl, hplaced⟩
  | s :: ss, sofar, hs => by
      rw [outlinesOnto, AllTraceable]
      constructor
      · rintro ⟨ps, hps, hplaced⟩
        obtain ⟨mid, hmid, hps⟩ := Except.bind_eq_ok hps
        obtain ⟨hss, hplaced⟩ := (outlinesOnto_iff ss mid hs.2).1 ⟨ps, hps, hplaced⟩
        obtain ⟨hs', hsofar⟩ := (outlineOnto_iff s sofar hs.1).1 ⟨mid, hmid, hplaced⟩
        exact ⟨⟨hs', hss⟩, hsofar⟩
      · rintro ⟨⟨hs', hss⟩, hsofar⟩
        obtain ⟨mid, hmid, hplaced⟩ := (outlineOnto_iff s sofar hs.1).2 ⟨hs', hsofar⟩
        obtain ⟨ps, hps, hplaced⟩ := (outlinesOnto_iff ss mid hs.2).2 ⟨hss, hplaced⟩
        exact ⟨ps, by rw [hmid]; exact hps, hplaced⟩
end

end Shape

end TurtleLogo
