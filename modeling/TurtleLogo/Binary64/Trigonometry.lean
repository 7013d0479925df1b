import TurtleLogo.Binary64.Arithmetic
import TurtleLogo.Binary64.Root
import TurtleLogo.Binary64.Enclosure

/-! # Trigonometry

    Sine, cosine and tangent of an angle in radians, and the inverse tangent of
    a number and of a vector, all correctly rounded.  Angles are first reduced
    to an eighth of a turn with as many bits of `π` as their size asks for. -/

namespace TurtleLogo.Binary64

/-- The sum of the terms `± xᵏ / k!` with every second `k`, where `square` is
    `x²` to `p` bits and `term` the first of them. -/
def alternatingSeries (square p : Nat) : Nat → Nat → Nat → Bool → Int → Int
  | 0, _, _, _, acc => acc
  | fuel + 1, k, term, minus, acc =>
      if term = 0 then acc
      else
        alternatingSeries square p fuel (k + 2) (((term * square) >>> p) / (k * (k + 1)))
          (!minus) (if minus then acc - term else acc + term)

/-- The sine of an angle of at most an eighth of a turn, to `p` bits. -/
def sinSmall (r p : Nat) : Nat :=
  (alternatingSeries ((r * r) >>> p) p (p + 1) 2 r false 0).toNat

/-- The cosine of an angle of at most an eighth of a turn, to `p` bits. -/
def cosSmall (r p : Nat) : Nat :=
  (alternatingSeries ((r * r) >>> p) p (p + 1) 1 (1 <<< p) false 0).toNat

/-- An angle as a number of quarter turns and a rest of at most an eighth of a
    turn, forwards or back. -/
structure Reduced where
  quarters : Nat
  back : Bool
  rest : Nat

/-- The angle `m · 2 ^ q`, reduced, its rest to `p` bits. -/
def reduce (m : Nat) (q : Int) (p : Nat) : Reduced :=
  let guard := (q + (m.log2 : Int) + 6).toNat
  let w := p + guard
  let half := piFixed (w + 1) >>> 2
  let x := fixed m q w
  let k := (x + half / 2) / half
  let r : Int := (x : Int) - (k * half : Nat)
  ⟨k, r < 0, r.natAbs >>> guard⟩

namespace Reduced

/-- Whether the sine is negative. -/
def sinNeg (a : Reduced) : Bool :=
  match a.quarters % 4 with
  | 0 => a.back
  | 1 => false
  | 2 => !a.back
  | _ => true

/-- The magnitude of the sine, to `p` bits. -/
def sinSize (a : Reduced) (p : Nat) : Nat :=
  if a.quarters % 2 = 0 then sinSmall a.rest p else cosSmall a.rest p

/-- The angle one quarter turn on, whose sine is the cosine. -/
def next (a : Reduced) : Reduced := { a with quarters := a.quarters + 1 }

end Reduced

/-- The precision at which a number of magnitude `m · 2 ^ q` is first tried. -/
def firstPrecision (m : Nat) (q : Int) : Nat :=
  160 + (-(q + (m.log2 : Int))).toNat

/-- The sine; an infinite angle has none. -/
def sin? : Binary64 → Option Binary64
  | .nan _ => some undefined
  | .infinite _ => none
  | .finite s m q h =>
      if m = 0 then some (.finite s m q h)
      else
        let first := firstPrecision m q
        let neg := (reduce m q (first + 64)).sinNeg
        some (Enclosure.value (s != neg) first fun p =>
          .around ((reduce m q p).sinSize p) slack (-(p : Int)))

/-- The cosine; an infinite angle has none. -/
def cos? : Binary64 → Option Binary64
  | .nan _ => some undefined
  | .infinite _ => none
  | .finite _ m q _ =>
      if m = 0 then some one
      else
        let neg := (reduce m q 256).next.sinNeg
        some (Enclosure.value neg 160 fun p =>
          .around ((reduce m q p).next.sinSize p) slack (-(p : Int)))

/-- The tangent; an infinite angle has none. -/
def tan? : Binary64 → Option Binary64
  | .nan _ => some undefined
  | .infinite _ => none
  | .finite s m q h =>
      if m = 0 then some (.finite s m q h)
      else
        let first := firstPrecision m q
        let a := reduce m q (first + 64)
        some (Enclosure.value (s != (a.sinNeg != a.next.sinNeg)) first fun p =>
          let a := reduce m q p
          .quotient (.around (a.sinSize p) slack 0) (.around (a.next.sinSize p) slack 0) p)

/-! ## Inverse tangents -/

/-- Halves an angle given by its tangent, to `p` bits. -/
def halveTangent (t p : Nat) : Nat :=
  let unit := 1 <<< p
  (t <<< p) / (unit + wholeRoot (unit * unit + t * t))

/-- The inverse tangent of `a / b`, at most `1`, to `p` bits. -/
def arctanSmall (a b p : Nat) : Nat :=
  let t := (a <<< p) / b
  8 * arctanSeries (halveTangent (halveTangent (halveTangent t p) p) p) p

/-- The inverse tangent of `a / b`, to `p` bits. -/
def arctanFixed (a b p : Nat) : Nat :=
  if a ≤ b then arctanSmall a b p else (piFixed p >>> 1) - arctanSmall b a p

/-- A magnitude as a quotient of naturals. -/
def magnitudeRatio (m : Nat) (q : Int) : Nat × Nat :=
  (m <<< q.toNat, 1 <<< (-q).toNat)

/-- The precision at which a quotient is first tried. -/
def firstRatioPrecision (a b : Nat) : Nat :=
  160 + (b.log2 - a.log2)

/-- The inverse tangent. -/
def atan : Binary64 → Binary64
  | .nan _ => undefined
  | .infinite s => Enclosure.value s 160 fun p => .around (piFixed p) 2 (-(p : Int) - 1)
  | .finite s m q h =>
      if m = 0 then .finite s m q h
      else
        let (a, b) := magnitudeRatio m q
        Enclosure.value s (firstRatioPrecision a b) fun p =>
          .around (arctanFixed a b p) slack (-(p : Int))

/-- The multiple `k / 4` of `π`. -/
def quarterPi (neg : Bool) (k : Nat) : Binary64 :=
  Enclosure.value neg 160 fun p => .around (k * piFixed p) 8 (-(p : Int) - 2)

/-- The angle of the vector with height `y` and width `x`. -/
def atan2 : Binary64 → Binary64 → Binary64
  | .nan _, _ => undefined
  | _, .nan _ => undefined
  | .infinite s, .infinite t => quarterPi s (if t then 3 else 1)
  | .infinite s, .finite .. => quarterPi s 2
  | .finite s .., .infinite t => if t then quarterPi s 4 else zero s
  | .finite s m q _, .finite t n r _ =>
      if m = 0 then if t then quarterPi s 4 else zero s
      else if n = 0 then quarterPi s 2
      else
        let e := min q r
        let a := m <<< (q - e).toNat
        let b := n <<< (r - e).toNat
        if t then
          Enclosure.value s 160 fun p =>
            .around (piFixed p - arctanFixed a b p) slack (-(p : Int))
        else
          Enclosure.value s (firstRatioPrecision a b) fun p =>
            .around (arctanFixed a b p) slack (-(p : Int))

/-- The constant `π`. -/
def pi : Binary64 := quarterPi false 4

/-- Radians in a degree. -/
def degree : Binary64 := div pi (ofInt 180)

/-- Degrees in a radian. -/
def radian : Binary64 := div (ofInt 180) pi

end TurtleLogo.Binary64
