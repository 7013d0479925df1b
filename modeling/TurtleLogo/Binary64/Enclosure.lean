import TurtleLogo.Binary64.Basic

/-! # Enclosures

    An elementary function is computed in fixed point with a bound on the
    error, at growing precision, until the whole enclosure rounds to one
    number: that number is the correctly rounded value.  A value that lies
    exactly between two numbers never settles that way; at the last precision
    the enclosure is read as the one coarse dyadic number inside it. -/

namespace TurtleLogo

/-- A positive real between `lo · 2 ^ e` and `hi · 2 ^ e`. -/
structure Enclosure where
  lo : Nat
  hi : Nat
  e : Int

namespace Enclosure

/-- All reals within `slack` units of a fixed-point number. -/
def around (a slack : Nat) (e : Int) : Enclosure :=
  ⟨a - slack, a + slack, e⟩

/-- The quotients of two enclosed reals, to `p` bits; when the divisor may be
    zero nothing is known. -/
def quotient (x y : Enclosure) (p : Nat) : Enclosure :=
  if y.lo = 0 then ⟨0, 1 <<< p, x.e - y.e⟩
  else ⟨(x.lo <<< p) / y.hi, (x.hi <<< p) / y.lo + 1, x.e - y.e - p⟩

/-- The one number to which the whole enclosure rounds. -/
def rounded? (neg : Bool) (c : Enclosure) : Option Binary64 :=
  let x := Binary64.ofScaled neg c.lo 1 c.e
  if x = Binary64.ofScaled neg c.hi 1 c.e then some x else none

/-- The rounding of the multiple of a power of two above the width that lies in
    the enclosure, or else of its upper end. -/
def snapped (neg : Bool) (c : Enclosure) : Binary64 :=
  let j := (c.hi - c.lo).log2 + 1
  let a := (c.hi >>> j) <<< j
  Binary64.ofScaled neg (if c.lo ≤ a then a else c.hi) 1 c.e

/-- The correctly rounded value of a real that can be enclosed at any
    precision, trying the given precisions in turn. -/
def settle (neg : Bool) (enclose : Nat → Enclosure) : List Nat → Nat → Binary64
  | [], last => snapped neg (enclose last)
  | p :: ps, last =>
      match rounded? neg (enclose p) with
      | some x => x
      | none => settle neg enclose ps last

/-- The correctly rounded value, from a first precision upwards. -/
def value (neg : Bool) (first : Nat) (enclose : Nat → Enclosure) : Binary64 :=
  settle neg enclose [first, 2 * first, 4 * first, 8 * first] (first + 8192)

end Enclosure

/-! ## Series and constants in fixed point -/

/-- A bound on the error, in last places, of every fixed-point result below. -/
def slack : Nat := 65536

/-- The sum of `± term / k` for odd `k`, each term `x²` times the one before,
    where `square` is `x²` to `p` bits; `alternate` gives the signs of the
    inverse tangent, otherwise those of the inverse hyperbolic tangent. -/
def oddSeries (square p : Nat) (alternate : Bool) : Nat → Nat → Nat → Bool → Int → Int
  | 0, _, _, _, acc => acc
  | fuel + 1, k, term, minus, acc =>
      if term = 0 then acc
      else
        let t : Int := term / k
        oddSeries square p alternate fuel (k + 2) ((term * square) >>> p) (minus != alternate)
          (if minus then acc - t else acc + t)

/-- The inverse tangent of `x / 2 ^ p`, for a small `x`. -/
def arctanSeries (x p : Nat) : Nat :=
  (oddSeries ((x * x) >>> p) p true (p + 1) 1 x false 0).toNat

/-- The inverse hyperbolic tangent of `x / 2 ^ p`, for a small `x`. -/
def artanhSeries (x p : Nat) : Nat :=
  (oddSeries ((x * x) >>> p) p false (p + 1) 1 x false 0).toNat

/-- Machin's formula for `π`, to `p` bits. -/
def piSeries (p : Nat) : Nat :=
  let w := p + 32
  (16 * arctanSeries ((1 <<< w) / 5) w - 4 * arctanSeries ((1 <<< w) / 239) w) >>> 32

/-- The natural logarithm of two, to `p` bits. -/
def ln2Series (p : Nat) : Nat :=
  let w := p + 32
  (18 * artanhSeries ((1 <<< w) / 26) w + 8 * artanhSeries ((1 <<< w) / 8749) w
    - 2 * artanhSeries ((1 <<< w) / 4801) w) >>> 32

/-- The number of bits to which the two constants are kept ready. -/
def readyBits : Nat := 1536

/-- The constant `π`, ready. -/
def piReady : Nat := piSeries readyBits

/-- The natural logarithm of two, ready. -/
def ln2Ready : Nat := ln2Series readyBits

/-- The constant `π`, to `p` bits. -/
def piFixed (p : Nat) : Nat :=
  if p ≤ readyBits then piReady >>> (readyBits - p) else piSeries p

/-- The natural logarithm of two, to `p` bits. -/
def ln2Fixed (p : Nat) : Nat :=
  if p ≤ readyBits then ln2Ready >>> (readyBits - p) else ln2Series p

/-- The magnitude `m · 2 ^ q` to `p` bits, rounded down. -/
def fixed (m : Nat) (q : Int) (p : Nat) : Nat :=
  let e := q + p
  if 0 ≤ e then m <<< e.toNat else m >>> (-e).toNat

end TurtleLogo
