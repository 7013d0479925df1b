import TurtleLogo.Binary64.Arithmetic
import TurtleLogo.Binary64.Enclosure

/-! # Exponentials and logarithms

    The exponential, the natural and the common logarithm and the power,
    correctly rounded.  A power is the exponential of a multiple of a
    logarithm, which is taken with so many bits more that the product is still
    good to the precision asked for. -/

namespace TurtleLogo.Binary64

/-- The sum of `xᵏ / k!`, where `term` is the first of the terms left. -/
def exponentialSeries (x p : Nat) : Nat → Nat → Nat → Nat → Nat
  | 0, _, _, acc => acc
  | fuel + 1, k, term, acc =>
      if term = 0 then acc
      else exponentialSeries x p fuel (k + 1) (((term * x) >>> p) / k) (acc + term)

/-- The exponential of `y / 2 ^ p`. -/
def expEnclosure (y : Int) (p : Nat) : Enclosure :=
  let ln2 := ln2Fixed p
  let k := y.fdiv ln2
  let r := (y - k * ln2).toNat
  .around (exponentialSeries r p (p + 1) 1 (1 <<< p) 0) slack (k - p)

/-- The natural logarithm of `m · 2 ^ e`, to `p` bits. -/
def lnFixed (m : Nat) (e : Int) (p : Nat) : Int :=
  let l := m.log2
  let l := if m * m > 1 <<< (2 * l + 1) then l + 1 else l
  let one := 1 <<< l
  let below := m < one
  let u := ((if below then one - m else m - one) <<< p) / (m + one)
  let s : Int := 2 * artanhSeries u p
  (e + l) * ln2Fixed p + (if below then -s else s)

/-- The exponential; past the largest number it is infinite. -/
def exp : Binary64 → Binary64
  | .nan _ => undefined
  | .infinite s => if s then zero false else .infinite false
  | .finite s m q _ =>
      if m = 0 then one
      else if 11 < q + (m.log2 : Int) then if s then zero false else .infinite false
      else
        Enclosure.value false 160 fun p =>
          let y : Int := fixed m q p
          expEnclosure (if s then -y else y) p

/-- The natural logarithm; zero and negative numbers have none. -/
def ln? : Binary64 → Option Binary64
  | .nan _ => some undefined
  | .infinite s => if s then none else some (.infinite false)
  | .finite s m q _ =>
      if m = 0 ∨ s then none
      else if m = fullWidth ∧ q = -52 then some (zero false)
      else
        some (Enclosure.value (lnFixed m q 256 < 0) 224 fun p =>
          .around (lnFixed m q p).natAbs slack (-(p : Int)))

/-- The common logarithm; zero and negative numbers have none. -/
def log10? : Binary64 → Option Binary64
  | .nan _ => some undefined
  | .infinite s => if s then none else some (.infinite false)
  | .finite s m q _ =>
      if m = 0 ∨ s then none
      else if m = fullWidth ∧ q = -52 then some (zero false)
      else
        some (Enclosure.value (lnFixed m q 256 < 0) 224 fun p =>
          .quotient (.around (lnFixed m q p).natAbs slack 0)
            (.around (lnFixed 10 0 p).natAbs slack 0) p)

/-- The power of a positive magnitude `m · 2 ^ q` other than one to a finite
    exponent `± n · 2 ^ r` other than zero, with a sign. -/
def powMagnitude (neg : Bool) (m : Nat) (q : Int) (down : Bool) (n : Nat) (r : Int) : Binary64 :=
  -- A rough logarithm tells how large the power is.
  let l := lnFixed m q 192
  let shrink := decide (l < 0) != down
  if 11 < (l.natAbs.log2 : Int) - 192 + (n.log2 : Int) + r then
    if shrink then zero neg else .infinite neg
  else
    Enclosure.value neg 160 fun p =>
      let w := p + 96
      let y : Int := fixed ((lnFixed m q w).natAbs * n) (r - w) p
      expEnclosure (if shrink then -y else y) p

/-- A finite number that is an odd whole number. -/
def isOddWhole : Binary64 → Bool
  | .finite _ m q _ =>
      if 0 ≤ q then q == 0 && m % 2 == 1
      else m % (1 <<< (-q).toNat) == 0 && (m >>> (-q).toNat) % 2 == 1
  | _ => false

/-- The magnitude `1`. -/
def isUnit : Binary64 → Bool
  | .finite _ m q _ => m == fullWidth && q == -52
  | _ => false

/-- The power of a negative base is defined for whole exponents only; a power
    of zero with a negative exponent is not defined either. -/
def pow? : Binary64 → Binary64 → Option Binary64
  | x, .finite s n r h =>
      if n = 0 then some one
      else
        let odd := isOddWhole (.finite s n r h)
        match x with
        | .nan _ => some undefined
        | .infinite t => some (if s then zero (t && odd) else .infinite (t && odd))
        | .finite t m q _ =>
            if m = 0 then if s then none else some (zero (t && odd))
            else if t && !isWhole (.finite s n r h) then none
            else if m = fullWidth ∧ q = -52 then some (if t && odd then neg one else one)
            else some (powMagnitude (t && odd) m q s n r)
  | .nan _, _ => some undefined
  | x, .nan _ => some (if isUnit x && !x.isNeg then one else undefined)
  | .infinite _, .infinite s => some (if s then zero false else .infinite false)
  | .finite t m q h, .infinite s =>
      if isUnit (.finite t m q h) then some one
      else
        let big : Bool := decide (0 ≤ q + 52)
        some (if big != s then .infinite false else zero false)

end TurtleLogo.Binary64
