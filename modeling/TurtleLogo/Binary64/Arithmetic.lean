import TurtleLogo.Binary64.Basic

/-! # Arithmetic of double-precision numbers

    Sums, products, quotients and remainders are exact results, rounded once.
    Comparison goes through `Exact`, which whole numbers share: a whole number
    and a double-precision number are compared as they are, without rounding
    either. -/

namespace TurtleLogo

/-- A number as exact data: `n · 2 ^ e`, an infinity, or undefined. -/
inductive Exact where
  | undefined
  | infinite (neg : Bool)
  | dyadic (n : Int) (e : Int)
deriving DecidableEq

namespace Exact

/-- The order of `n · 2 ^ e` and `k · 2 ^ f`. -/
def compareDyadic (n e k f : Int) : Ordering :=
  compare (n * (1 <<< (e - f).toNat : Nat)) (k * (1 <<< (f - e).toNat : Nat))

/-- The order of two numbers; the undefined one has none. -/
def compare? : Exact → Exact → Option Ordering
  | .undefined, _ => none
  | _, .undefined => none
  | .infinite s, .infinite t => some (if s == t then .eq else if s then .lt else .gt)
  | .infinite s, .dyadic .. => some (if s then .lt else .gt)
  | .dyadic .., .infinite t => some (if t then .gt else .lt)
  | .dyadic n e, .dyadic k f => some (compareDyadic n e k f)

end Exact

namespace Binary64

/-- A significand with its sign. -/
def signed (neg : Bool) (m : Nat) : Int :=
  if neg then -(m : Int) else m

/-- The exact value. -/
def exact : Binary64 → Exact
  | .nan _ => .undefined
  | .infinite s => .infinite s
  | .finite s m q _ => .dyadic (signed s m) q

/-- The sum. -/
def add : Binary64 → Binary64 → Binary64
  | .nan _, _ => undefined
  | _, .nan _ => undefined
  | .infinite s, .infinite t => if s == t then .infinite s else undefined
  | .infinite s, .finite .. => .infinite s
  | .finite .., .infinite t => .infinite t
  | .finite s m q _, .finite t n r _ =>
      let e := min q r
      ofDyadic (s && t) (signed s (m <<< (q - e).toNat) + signed t (n <<< (r - e).toNat)) e

/-- The difference. -/
def sub (x y : Binary64) : Binary64 :=
  add x (neg y)

/-- The product. -/
def mul : Binary64 → Binary64 → Binary64
  | .nan _, _ => undefined
  | _, .nan _ => undefined
  | .infinite s, .infinite t => .infinite (s != t)
  | .infinite s, .finite t n _ _ => if n = 0 then undefined else .infinite (s != t)
  | .finite s m _ _, .infinite t => if m = 0 then undefined else .infinite (s != t)
  | .finite s m q _, .finite t n r _ => ofScaled (s != t) (m * n) 1 (q + r)

/-- The quotient; a divisor of zero gives an infinity or the undefined number. -/
def div : Binary64 → Binary64 → Binary64
  | .nan _, _ => undefined
  | _, .nan _ => undefined
  | .infinite _, .infinite _ => undefined
  | .infinite s, .finite t _ _ _ => .infinite (s != t)
  | .finite s _ _ _, .infinite t => zero (s != t)
  | .finite s m q _, .finite t n r _ =>
      if n = 0 then if m = 0 then undefined else .infinite (s != t)
      else ofScaled (s != t) m n (q - r)

/-- The remainder with the sign of the dividend, which is always exact. -/
def rem : Binary64 → Binary64 → Binary64
  | .nan _, _ => undefined
  | _, .nan _ => undefined
  | .infinite _, _ => undefined
  | x, .infinite _ => x
  | .finite s m q _, .finite _ n r _ =>
      if n = 0 then undefined
      else
        let e := min q r
        ofScaled s ((m <<< (q - e).toNat) % (n <<< (r - e).toNat)) 1 e

/-- The remainder with the sign of the divisor, a zero included. -/
def mod (x y : Binary64) : Binary64 :=
  let r := rem x y
  match r with
  | .nan _ => undefined
  | .infinite s => .infinite s
  | .finite _ m _ _ =>
      if m = 0 then zero y.isNeg
      else if r.isNeg == y.isNeg then r
      else add r y

/-- The order of two numbers; the undefined one has none. -/
def compare? (x y : Binary64) : Option Ordering :=
  Exact.compare? x.exact y.exact

/-! ## Whole parts -/

/-- The greatest whole number not above `n · 2 ^ e`. -/
def floorDyadic (n e : Int) : Int :=
  if 0 ≤ e then n * (1 <<< e.toNat : Nat) else n.fdiv (1 <<< (-e).toNat : Nat)

/-- The whole number nearest to `n · 2 ^ e`, the even one of two. -/
def nearestDyadic (n e : Int) : Int :=
  let a : Nat := roundHalfEven (n.natAbs <<< e.toNat) (1 <<< (-e).toNat)
  if n < 0 then -(a : Int) else a

/-- Whether a finite number is whole. -/
def isWhole : Binary64 → Bool
  | .finite _ m q _ => decide (0 ≤ q) || m % (1 <<< (-q).toNat) == 0
  | _ => false

end Binary64

end TurtleLogo
