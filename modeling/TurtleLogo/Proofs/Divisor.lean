import Mathlib.Algebra.Group.Nat.Defs
import TurtleLogo.Drawing.Canvas

/-! # Nothing is divided by zero

    Arithmetic has three faults, and two of them are put in friendly words at
    the end of a run; the third, a divisor of zero, is not.  `Usual r` says that
    the computation `r` does not end with it.  Every operation on numbers is
    usual, those apart that divide by an input; the geometry of the turtle
    divides by whole constants, by counts of steps, by the zoom and by twice
    the half extents, and none of these can be zero. -/

namespace TurtleLogo

/-- A computation that does not divide by zero. -/
def Usual {α : Type} (r : Except ArithmeticFault α) : Prop :=
  r ≠ .error .zeroDivisor

namespace Usual

variable {α β : Type}

theorem ok (a : α) : Usual (.ok a) := by
  intro h; cases h

theorem tooBig : Usual (.error .tooBig : Except ArithmeticFault α) := by
  intro h; cases h

theorem notUsable : Usual (.error .notUsable : Except ArithmeticFault α) := by
  intro h; cases h

/-- Sequencing, where what the first computation gives may be used. -/
theorem bind_of {r : Except ArithmeticFault α} {k : α → Except ArithmeticFault β}
    (hr : Usual r) (hk : ∀ a, r = .ok a → Usual (k a)) : Usual (r >>= k) := by
  cases r with
  | ok a => exact hk a rfl
  | error f =>
      intro h
      cases f with
      | zeroDivisor => exact hr rfl
      | tooBig => cases h
      | notUsable => cases h

/-- Usual computations in a row are usual. -/
theorem bind {r : Except ArithmeticFault α} {k : α → Except ArithmeticFault β}
    (hr : Usual r) (hk : ∀ a, Usual (k a)) : Usual (r >>= k) :=
  bind_of hr fun a _ => hk a

end Usual

/-- What a sequence needs to give a result. -/
theorem Except.bind_eq_ok {ε α β : Type} {r : Except ε α} {k : α → Except ε β} {b : β}
    (h : (r >>= k) = .ok b) : ∃ a, r = .ok a ∧ k a = .ok b := by
  cases r with
  | ok a => exact ⟨a, rfl, h⟩
  | error e => cases h

/-- A sequence goes on with the result of its first part. -/
theorem Except.bind_of_ok {ε α β : Type} {r : Except ε α} {a : α} (h : r = .ok a)
    (k : α → Except ε β) : (r >>= k) = k a := by
  rw [h]
  rfl

/-! ## Numbers -/

namespace Number

/-- A whole number may be too big for a real, and that is all. -/
theorem usual_realOfInt (n : Int) : Usual (realOfInt n) := by
  rw [realOfInt]
  split
  · exact .ok _
  · exact .tooBig

/-- Making a number a real does not divide. -/
theorem usual_toReal (a : Number) : Usual a.toReal := by
  cases a with
  | int n => exact usual_realOfInt n
  | real x => exact .ok x

/-- An operation that is exact on whole numbers is usual. -/
theorem usual_combine (f : Int → Int → Int) (g : Binary64 → Binary64 → Binary64)
    (a b : Number) : Usual (combine f g a b) := by
  cases a with
  | int m =>
      cases b with
      | int n => exact .ok _
      | real y => exact .bind (usual_realOfInt m) fun _ => .ok _
  | real x =>
      cases b with
      | int n => exact .bind (usual_realOfInt n) fun _ => .ok _
      | real y => exact .ok _

theorem usual_add (a b : Number) : Usual (a.add b) := usual_combine _ _ a b

theorem usual_sub (a b : Number) : Usual (a.sub b) := usual_combine _ _ a b

theorem usual_mul (a b : Number) : Usual (a.mul b) := usual_combine _ _ a b

/-- A quotient is usual if the divisor is not zero. -/
theorem usual_div {a b : Number} (hb : b.isZero = false) : Usual (a.div b) := by
  unfold div
  rw [if_neg (by simp [hb])]
  split
  · dsimp only
    split
    · exact .ok _
    · exact .tooBig
  · exact usual_combine _ _ _ _

/-- The remainder with the sign of the divisor divides by zero only if the divisor
    is zero. -/
theorem usual_mod {a b : Number} (hb : b.isZero = false) : Usual (a.mod b) := by
  rw [mod, if_neg (by simp [hb])]
  exact usual_combine _ _ a b

/-- The remainder with the sign of the dividend divides by zero only if the divisor
    is zero. -/
theorem usual_rem {a b : Number} (hb : b.isZero = false) : Usual (a.rem b) := by
  unfold rem
  rw [if_neg (by simp [hb])]
  split
  · exact .ok _
  · refine .bind (usual_toReal _) fun x => .bind (usual_toReal _) fun y => ?_
    dsimp only
    split
    · exact .notUsable
    · exact .ok _

/-- A whole part is usual. -/
theorem usual_whole (f : Int → Int → Int) (a : Number) : Usual (whole f a) := by
  cases a with
  | int n => exact .ok n
  | real x =>
      rw [whole]
      split
      · exact .notUsable
      · exact .tooBig
      · exact .ok _

/-- A value that may not exist is usual. -/
theorem usual_defined (x : Option Binary64) : Usual (defined x) := by
  cases x with
  | none => exact .notUsable
  | some x => exact .ok _

theorem usual_radians (a : Number) : Usual a.radians :=
  .bind (usual_toReal a) fun _ => .ok _

theorem usual_bearing (y x : Number) : Usual (bearing y x) :=
  .bind (usual_toReal y) fun _ => .bind (usual_toReal x) fun _ => .ok _

theorem usual_hypot (x y : Number) : Usual (hypot x y) :=
  .bind (usual_toReal x) fun _ => .bind (usual_toReal y) fun _ => .ok _

/-- The unit vector of a bearing is usual. -/
theorem usual_direction (a : Number) : Usual a.direction :=
  .bind (usual_radians a) fun x => .bind (usual_defined x.sin?) fun _ =>
    .bind (usual_defined x.cos?) fun _ => .ok _

/-- The text of a whole number is usual. -/
theorem usual_intText (n : Int) : Usual (intText n) := by
  rw [intText]
  split
  · exact .notUsable
  · exact .ok _

/-- The text of a number is usual. -/
theorem usual_text (a : Number) : Usual a.text := by
  cases a with
  | int n => exact usual_intText n
  | real x =>
      rw [text]
      split
      · exact .bind (usual_whole _ _) fun n => usual_intText n
      · exact .ok _

end Number

/-! ## Values -/

namespace Value

/-- The text of a value that is no list is usual. -/
theorem usual_atomText (v : Value) : Usual v.atomText := by
  cases v with
  | number n => exact Number.usual_text n
  | truth b => cases b <;> exact .ok _
  | nothing => exact .ok _
  | word s => exact .ok _
  | list vs => exact .ok _

mutual
/-- The text of a value is usual. -/
theorem usual_text : ∀ v : Value, Usual v.text
  | .list items => by
      rw [text]
      exact .bind (usual_texts items) fun _ => .ok _
  | .nothing | .truth _ | .number _ | .word _ => by
      simp only [text]
      exact usual_atomText _
/-- The texts of the items of a list are usual. -/
theorem usual_texts : ∀ vs : List Value, Usual (texts vs)
  | [] => .ok _
  | v :: vs => by
      rw [texts]
      exact .bind (usual_text v) fun _ => .bind (usual_texts vs) fun _ => .ok _
end

mutual
/-- The shown text of a value is usual. -/
theorem usual_shown : ∀ v : Value, Usual v.shown
  | .list items => by
      rw [shown]
      exact .bind (usual_showns items) fun _ => .ok _
  | .nothing | .truth _ | .number _ | .word _ => by
      simp only [shown]
      exact usual_atomText _
/-- The shown texts of the items of a list are usual. -/
theorem usual_showns : ∀ vs : List Value, Usual (showns vs)
  | [] => .ok _
  | v :: vs => by
      rw [showns]
      exact .bind (usual_shown v) fun _ => .bind (usual_showns vs) fun _ => .ok _
end

/-- The way a message names a value is usual. -/
theorem usual_described (v : Value) : Usual v.described := by
  cases v with
  | list items => exact .bind (usual_shown _) fun _ => .ok _
  | nothing => exact .ok _
  | word s => exact .ok _
  | number n => exact usual_text _
  | truth b => exact usual_text _

end Value

/-- The text of the colour that a value names is usual. -/
theorem Colour.usual_resolve (v : Value) : Usual (Colour.resolve v) := by
  simp only [resolve]
  split
  · exact .bind (Value.usual_text _) fun _ => .bind (Value.usual_text _) fun _ =>
      .bind (Value.usual_text _) fun _ => .ok _
  · split <;> exact .ok _
  · exact .ok _

/-! ## Products that are not zero -/

namespace Binary64

/-- A quotient that is not less than one is not rounded to zero. -/
theorem roundHalfEven_pos {a d : Nat} (hd : 0 < d) (h : d ≤ a) : 0 < roundHalfEven a d := by
  have hq : 1 ≤ a / d := (Nat.one_le_div_iff hd).2 h
  rcases roundHalfEven_cases a d with ⟨h1, _⟩ | ⟨h1, _⟩ <;> omega

/-- A magnitude with a digit is not zero. -/
theorem isZero_ofMagnitude {neg : Bool} {m : Nat} {q : Int} (hm : 0 < m) :
    (ofMagnitude neg m q).isZero = false := by
  rw [ofMagnitude]
  split
  · show (m == 0) = false
    simpa using Nat.ne_of_gt hm
  · rfl

/-- The exponent of the last bit of a whole multiple of `2 ^ e`. -/
theorem unitExponent_one {a : Nat} (ha : a ≠ 0) (e : Int) :
    unitExponent a 1 e = max (e + a.log2 - 52) (-1074) := by
  have hlog : 1 <<< (a.log2 - Nat.log2 1) ≤ a <<< (Nat.log2 1 - a.log2) := by
    have h1 : Nat.log2 1 = 0 := by decide
    rw [h1, Nat.sub_zero, Nat.zero_sub, Nat.shiftLeft_zero, Nat.one_shiftLeft]
    exact Nat.log2_self_le ha
  rw [unitExponent]
  rw [if_pos hlog]
  have h1 : Nat.log2 1 = 0 := by decide
  rw [h1]
  omega

/-- Nothing that is at least as big as the least number is rounded to zero. -/
theorem isZero_ofScaled {neg : Bool} {a : Nat} {e : Int} (ha : a ≠ 0)
    (h : 2 ^ (-1074 - e).toNat ≤ a) : (ofScaled neg a 1 e).isZero = false := by
  have hunit := unitExponent_one ha e
  have hround : 0 < roundHalfEven (a <<< (e - unitExponent a 1 e).toNat)
      (1 <<< (unitExponent a 1 e - e).toNat) := by
    rw [Nat.one_shiftLeft]
    refine roundHalfEven_pos (Nat.two_pow_pos _) ?_
    refine Nat.le_trans ?_ Nat.le_shiftLeft
    by_cases hle : e + a.log2 - 52 ≤ -1074
    · rw [hunit, Int.max_eq_right hle]; exact h
    · -- the last bit stands no higher than the first
      refine Nat.le_trans (Nat.pow_le_pow_right (by decide) ?_) (Nat.log2_self_le ha)
      omega
  rw [ofScaled, if_neg ha]
  dsimp only
  split
  · exact isZero_ofMagnitude (by decide)
  · exact isZero_ofMagnitude hround

/-- A number that is not zero, times one that is not less than one, is not
    zero. -/
theorem isZero_mul {x : Binary64} {t : Bool} {n : Nat} {r : Int} {hn : Canonical n r}
    (hx : x.isZero = false) (hw : fullWidth ≤ n) (hr : -52 ≤ r) :
    (mul x (.finite t n r hn)).isZero = false := by
  have hn0 : n ≠ 0 := by rw [fullWidth] at hw; omega
  cases x with
  | nan k => rfl
  | infinite s => simp only [mul, if_neg hn0]; rfl
  | finite s m q hq =>
      have hm0 : m ≠ 0 := by simpa [isZero] using hx
      -- the product has at least the bits of the second factor
      refine isZero_ofScaled (Nat.mul_ne_zero hm0 hn0) ?_
      have hexp : (-1074 - (q + r)).toNat ≤ 52 := by
        have := hq.2.1
        omega
      calc 2 ^ (-1074 - (q + r)).toNat ≤ 2 ^ 52 := Nat.pow_le_pow_right (by decide) hexp
        _ ≤ n := hw
        _ ≤ m * n := Nat.le_mul_of_pos_left n (Nat.pos_of_ne_zero hm0)

/-- The factors of a product can change places. -/
theorem mul_comm (x y : Binary64) : mul x y = mul y x := by
  have hsign : ∀ s t : Bool, (s != t) = (t != s) := by decide
  cases x <;> cases y <;> simp [mul, Nat.mul_comm, Int.add_comm, hsign]

end Binary64

namespace Number

/-- The real nearest to a whole number is zero only for zero. -/
theorem isZero_realOfInt {n : Int} {x : Binary64} (hn : n ≠ 0) (h : realOfInt n = .ok x) :
    x.isZero = false := by
  have hx : Binary64.ofInt n = x := by
    rw [realOfInt] at h
    split at h
    · cases h; rfl
    · cases h
  rw [← hx]
  exact Binary64.isZero_ofScaled (Int.natAbs_ne_zero.2 hn) (Int.natAbs_pos.2 hn)

/-- A product with two. -/
theorem isZero_twice {a b : Number} (ha : a.isZero = false) (h : mul (.int 2) a = .ok b) :
    b.isZero = false := by
  cases a with
  | int n =>
      cases h
      have hn : n ≠ 0 := by simpa [isZero] using ha
      simp [isZero, hn]
  | real x =>
      have h2 : realOfInt 2 = .ok (.finite false Binary64.fullWidth (-51) (by decide)) := by rfl
      simp only [mul, combine, h2] at h
      cases h
      show (Binary64.mul _ x).isZero = false
      rw [Binary64.mul_comm]
      exact Binary64.isZero_mul ha (by decide) (by decide)

/-- A number that is not zero, from closer. -/
theorem isZero_mul_zoomFactor {a b : Number} (ha : a.isZero = false)
    (h : a.mul (View.zoomFactor : Number) = .ok b) : b.isZero = false := by
  have hfactor : Binary64.ofRatio 6 5 = .finite false 5404319552844595 (-52) (by decide) := by rfl
  have hnonzero : ∀ x : Binary64, x.isZero = false →
      (x.mul (Binary64.ofRatio 6 5)).isZero = false := by
    intro x hx
    rw [hfactor]
    exact Binary64.isZero_mul hx (by decide) (by decide)
  cases a with
  | int n =>
      obtain ⟨x, hx, h⟩ := Except.bind_eq_ok h
      cases h
      exact hnonzero x (isZero_realOfInt (by simpa [isZero] using ha) hx)
  | real x =>
      cases h
      exact hnonzero x ha

/-- The exact value of a zero. -/
theorem exact_of_isZero {a : Number} (h : a.isZero = true) : ∃ e, a.exact = .dyadic 0 e := by
  cases a with
  | int n =>
      have hn : n = 0 := by simpa [isZero] using h
      exact ⟨0, by rw [hn]; rfl⟩
  | real x =>
      cases x with
      | nan k => cases h
      | infinite s => cases h
      | finite s m q hq =>
          have hm : m = 0 := by simpa [isZero, Binary64.isZero] using h
          subst hm
          exact ⟨q, by cases s <;> rfl⟩

/-- A zero is not greater than zero. -/
theorem le_zero {a : Number} (h : a.isZero = true) : a.le (.int 0) = true := by
  obtain ⟨e, he⟩ := exact_of_isZero h
  have hcmp : compare? a (.int 0) = some .eq := by
    cases a with
    | int n =>
        have hn : n = 0 := by simpa [isZero] using h
        rw [hn]
        rfl
    | real x =>
        show Exact.compare? (Number.real x).exact (.dyadic 0 0) = _
        rw [he]
        show some (compare _ _) = some Ordering.eq
        rw [Int.zero_mul, Int.zero_mul]
        rfl
  simp [le, eq, hcmp]

/-- What is greater than a real that is not negative is not zero. -/
theorem isZero_of_lt {x : Binary64} {b : Number} {n : Nat} {q : Int}
    (hx : x.exact = .dyadic n q) (h : lt (.real x) b = true) : b.isZero = false := by
  cases hz : b.isZero with
  | false => rfl
  | true =>
      obtain ⟨e, he⟩ := exact_of_isZero hz
      have hcmp : compare? (.real x) b = some (Exact.compareDyadic n q 0 e) := by
        have : compare? (.real x) b = Exact.compare? x.exact b.exact := by cases b <;> rfl
        rw [this, hx, he]
        rfl
      have hlt : Exact.compareDyadic n q 0 e = .lt := by
        rw [lt] at h
        rw [hcmp] at h
        simpa using h
      rw [Exact.compareDyadic] at hlt
      rw [Int.compare_eq_lt, Int.zero_mul] at hlt
      have := Int.mul_nonneg (Int.natCast_nonneg n) (Int.natCast_nonneg (1 <<< (q - e).toNat))
      omega

end Number

/-! ## Geometry -/

theorem usual_normalizeHeading (h : Number) : Usual (normalizeHeading h) :=
  .bind (Number.usual_mod rfl) fun _ => .ok _

/-- Bringing a coordinate back into range is usual. -/
theorem usual_wrapCoordinate (v half : Number) : Usual (wrapCoordinate v half) := by
  rw [wrapCoordinate]
  split
  · exact .ok _
  · rename_i hin
    -- a half that is zero is not greater than zero
    have hhalf : half.isZero = false := by
      cases hz : half.isZero with
      | false => rfl
      | true =>
          refine absurd ?_ hin
          have hle : Scalar.le half Scalar.zero = true := Number.le_zero hz
          rw [hle]
          rfl
    refine .bind (Number.usual_add _ _) fun _ => ?_
    refine .bind_of (Number.usual_mul _ _) fun width hwidth => ?_
    exact .bind (Number.usual_mod (Number.isZero_twice hhalf hwidth)) fun _ => Number.usual_sub _ _

/-- The point at a bearing and distance is usual. -/
theorem usual_pointAt (x y radius bearing : Number) : Usual (pointAt x y radius bearing) :=
  .bind (Number.usual_direction _) fun _ => .bind (Number.usual_mul _ _) fun _ =>
    .bind (Number.usual_add _ _) fun _ => .bind (Number.usual_mul _ _) fun _ =>
      .bind (Number.usual_add _ _) fun _ => .ok _

/-- The number of pieces of a sweep is usual if a piece is not empty. -/
theorem usual_sweepSteps (least : Nat) {step : Int} (hstep : step ≠ 0) (sweep : Number) :
    Usual (sweepSteps least step sweep) :=
  .bind (Number.usual_div (by simpa [Scalar.ofInt, Number.isZero] using hstep)) fun _ =>
    .bind (Number.usual_whole _ _) fun _ => .ok _

/-- There are at least as many pieces as there have to be. -/
theorem sweepSteps_le {least steps : Nat} {step : Int} {sweep : Number}
    (h : sweepSteps least step sweep = .ok steps) : least ≤ steps := by
  obtain ⟨q, -, h⟩ := Except.bind_eq_ok h
  obtain ⟨n, -, h⟩ := Except.bind_eq_ok h
  cases h
  exact Nat.le_max_left _ _

/-- The bearing after a piece is usual if there are pieces. -/
theorem usual_sweepBearing (start sweep : Number) {steps : Nat} (hsteps : steps ≠ 0) (i : Nat) :
    Usual (sweepBearing start sweep steps i) :=
  .bind (Number.usual_mul _ _) fun _ =>
    .bind (Number.usual_div (by simpa [Scalar.ofInt, Number.isZero] using hsteps)) fun _ =>
      Number.usual_add _ _

/-- Points that are usual one by one are usual together. -/
theorem usual_samplePoints {place : Nat → Except ArithmeticFault (Point Number)}
    (h : ∀ i, Usual (place i)) (count i : Nat) (sofar : List (Point Number)) :
    Usual (samplePoints place count i sofar) := by
  induction count generalizing i sofar with
  | zero => exact .ok _
  | succ count ih => exact .bind (h i) fun _ => ih _ _

/-- The points along an arc are usual. -/
theorem usual_arcPointsOnto (x y radius start sweep : Number) (sofar : List (Point Number)) :
    Usual (arcPointsOnto x y radius start sweep sofar) := by
  -- the bearings are divided by the number of steps, of which there is one
  refine .bind_of (usual_sweepSteps 1 (by decide) sweep) fun steps hsteps => ?_
  have hpos : steps ≠ 0 := Nat.ne_of_gt (sweepSteps_le hsteps)
  exact usual_samplePoints (fun i => .bind (usual_sweepBearing start sweep hpos i) fun _ =>
    usual_pointAt x y radius _) _ _ _

mutual
/-- The points of a shape are usual. -/
theorem Shape.usual_outlineOnto : ∀ (s : Shape Number) (sofar : List (Point Number)),
    Usual (s.outlineOnto sofar)
  | .line .., _ => by
      rw [outlineOnto]
      exact .ok _
  | .circle .., _ => by
      rw [outlineOnto]
      exact usual_arcPointsOnto _ _ _ _ _ _
  | .arc .., _ => by
      rw [outlineOnto]
      exact usual_arcPointsOnto _ _ _ _ _ _
  | .fill _ _ parts _, _ => by
      rw [outlineOnto]
      exact usual_outlinesOnto parts _
/-- The points of several shapes are usual. -/
theorem Shape.usual_outlinesOnto : ∀ (ss : List (Shape Number)) (sofar : List (Point Number)),
    Usual (Shape.outlinesOnto ss sofar)
  | [], _ => by
      rw [outlinesOnto]
      exact .ok _
  | s :: ss, _ => by
      rw [outlinesOnto]
      exact .bind (usual_outlineOnto s _) fun _ => usual_outlinesOnto ss _
end

theorem Shape.usual_outline (s : Shape Number) : Usual s.outline :=
  .bind (s.usual_outlineOnto []) fun _ => .ok _

/-- The number of hops of a wrapped move. -/
theorem Canvas.usual_hopCount (dx dy : Number) : Usual (hopCount dx dy) :=
  .bind (Number.usual_hypot _ _) fun _ => .bind (Number.usual_div rfl) fun _ =>
    .bind (Number.usual_whole _ _) fun _ => .ok _

/-- A move on the wrapped canvas has a hop at least. -/
theorem Canvas.hopCount_pos {dx dy : Number} {steps : Nat} (h : hopCount dx dy = .ok steps) :
    0 < steps := by
  obtain ⟨d, -, h⟩ := Except.bind_eq_ok h
  obtain ⟨q, -, h⟩ := Except.bind_eq_ok h
  obtain ⟨n, -, h⟩ := Except.bind_eq_ok h
  cases h
  show 0 < Nat.min (Nat.max 1 n.toNat) maxWrapSteps
  have h1 : 1 ≤ Nat.max 1 n.toNat := Nat.le_max_left _ _
  exact Nat.lt_min.2 ⟨h1, by decide⟩

/-! ## Views -/

namespace View

theorem usual_centreAcross (v : View Number) (width : Number) : Usual (v.centreAcross width) :=
  .bind (Number.usual_div rfl) fun _ => .ok _

theorem usual_centreDown (v : View Number) (height : Number) : Usual (v.centreDown height) :=
  .bind (Number.usual_div rfl) fun _ => .ok _

/-- The place of a point on the canvas is usual. -/
theorem usual_toCanvas (v : View Number) (x y : Number) : Usual (v.toCanvas x y) :=
  .bind (Number.usual_add _ _) fun _ => .bind (Number.usual_mul _ _) fun _ =>
    .bind (Number.usual_add _ _) fun _ => .bind (Number.usual_add _ _) fun _ =>
      .bind (Number.usual_mul _ _) fun _ => .bind (Number.usual_sub _ _) fun _ => .ok _

/-- The point at a place on the canvas is usual if the zoom is not zero. -/
theorem usual_toLogical {v : View Number} (hz : v.zoom.isZero = false) (px py : Number) :
    Usual (v.toLogical px py) :=
  .bind (Number.usual_sub _ _) fun _ => .bind (Number.usual_div hz) fun _ =>
    .bind (Number.usual_sub _ _) fun _ => .bind (Number.usual_sub _ _) fun _ =>
      .bind (Number.usual_div hz) fun _ => .bind (Number.usual_sub _ _) fun _ => .ok _

/-- The places of several points are usual. -/
theorem usual_placesOnto (v : View Number) (ps sofar : List (Point Number)) :
    Usual (v.placesOnto ps sofar) := by
  induction ps generalizing sofar with
  | nil => exact .ok _
  | cons q ps ih => exact .bind (v.usual_toCanvas _ _) fun _ => ih _

theorem usual_zoomIn (v : View Number) : Usual v.zoomIn :=
  .bind (Number.usual_mul _ _) fun _ => .ok _

theorem usual_zoomOut (v : View Number) : Usual v.zoomOut :=
  .bind (Number.usual_div rfl) fun _ => .ok _

/-- A zoom that is not zero does not become zero from closer. -/
theorem isZero_zoomIn {v v' : View Number} (hz : v.zoom.isZero = false) (h : v.zoomIn = .ok v') :
    v'.zoom.isZero = false := by
  obtain ⟨z, hmul, h⟩ := Except.bind_eq_ok h
  cases h
  show (Scalar.min maxZoom z : Number).isZero = false
  rw [Scalar.min]
  split
  · exact Number.isZero_mul_zoomFactor hz hmul
  · rfl

/-- From farther away the zoom is not zero, whatever it was. -/
theorem isZero_zoomOut {v v' : View Number} (h : v.zoomOut = .ok v') :
    v'.zoom.isZero = false := by
  obtain ⟨z, -, h⟩ := Except.bind_eq_ok h
  cases h
  show (Scalar.max minZoom z : Number).isZero = false
  rw [Scalar.max]
  split
  · rename_i hlt
    have hquarter : (Binary64.ofRatio 1 4).exact = .dyadic (Binary64.fullWidth : Nat) (-54) := rfl
    exact Number.isZero_of_lt hquarter hlt
  · rfl

end View

/-- The call that shows a shape is usual. -/
theorem Shape.usual_call (v : View Number) (background : Text) (s : Shape Number) :
    Usual (s.call v background) := by
  cases s with
  | line =>
      exact .bind (v.usual_toCanvas _ _) fun ⟨_, _⟩ => .bind (v.usual_toCanvas _ _) fun ⟨_, _⟩ =>
        .bind (Number.usual_mul _ _) fun _ => .ok _
  | circle | arc =>
      exact .bind (v.usual_toCanvas _ _) fun ⟨_, _⟩ => .bind (Number.usual_mul _ _) fun _ =>
        .bind (Number.usual_mul _ _) fun _ => .ok _
  | fill =>
      exact .bind (Shape.usual_outline _) fun _ => .bind (v.usual_placesOnto _ _) fun _ => .ok _

theorem Turtle.usual_call (v : View Number) (t : Turtle Number) : Usual (t.call v) :=
  .bind (v.usual_toCanvas _ _) fun ⟨_, _⟩ => .bind (Number.usual_mul _ _) fun _ => .ok _

end TurtleLogo
