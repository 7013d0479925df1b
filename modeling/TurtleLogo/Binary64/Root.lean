import TurtleLogo.Binary64.Basic

/-! # Square roots

    The whole part of a square root by the method that halves the sum of a
    guess and its quotient, and from it the correctly rounded square root and
    length of a vector: one extra bit tells whether the root is exact. -/

namespace TurtleLogo

/-- Improves a guess that is not below the root until it stops falling. -/
def improveRoot (n : Nat) : Nat → Nat → Nat
  | 0, guess => guess
  | fuel + 1, guess =>
      let next := (guess + n / guess) / 2
      if next < guess then improveRoot n fuel next else guess

/-- The whole part of the square root. -/
def wholeRoot (n : Nat) : Nat :=
  if n = 0 then 0
  else improveRoot n (n.log2 + 2) (1 <<< (n.log2 / 2 + 1))

namespace Binary64

/-- The number nearest to the square root of `n · 2 ^ e`. -/
def rootOfDyadic (n : Nat) (e : Int) : Binary64 :=
  if n = 0 then zero false
  else
    -- Enough bits for the root to have sixty, at an even exponent.
    let want : Int := 128 - (n.log2 : Int)
    let shift : Int := if (e - want) % 2 = 0 then want else want + 1
    let up := if 0 ≤ shift then shift.toNat else if e % 2 = 0 then 0 else 1
    let a := n <<< up
    let r := wholeRoot a
    let sticky := if r * r = a then 0 else 1
    ofScaled false (2 * r + sticky) 1 ((e - up) / 2 - 1)

/-- The square root; negative numbers have none. -/
def sqrt? : Binary64 → Option Binary64
  | .nan _ => some undefined
  | .infinite s => if s then none else some (.infinite false)
  | .finite s m q h =>
      if m = 0 then some (.finite s m q h)
      else if s then none
      else some (rootOfDyadic m q)

/-- The length of the vector with the given sides. -/
def hypot : Binary64 → Binary64 → Binary64
  | .infinite _, _ => .infinite false
  | _, .infinite _ => .infinite false
  | .nan _, _ => undefined
  | _, .nan _ => undefined
  | .finite _ m q _, .finite _ n r _ =>
      let e := min q r
      let a := m <<< (q - e).toNat
      let b := n <<< (r - e).toNat
      rootOfDyadic (a * a + b * b) (2 * e)

end Binary64

end TurtleLogo
