import TurtleLogo.Binary64.Basic
import TurtleLogo.Text.Basic

/-! # Decimal texts of double-precision numbers

    * `ofDecimal` reads `digits · 10 ^ exp`, correctly rounded.
    * `shortest` gives the fewest decimal digits that read back, and of those
      the nearest to the number: it tries the grids of one to seventeen digits
      and on each the two neighbours of the number.
    * `significant` rounds to a given number of digits.
    * `Notation` says how such digits are laid out: where positional notation
      ends and whether a whole number keeps a point. -/

namespace TurtleLogo

/-- A decimal magnitude `digits · 10 ^ exp`. -/
structure Decimal where
  digits : Nat
  exp : Int
deriving DecidableEq

namespace Decimal

/-- The number of digits of a natural number. -/
def size (n : Nat) : Nat := (Nat.toDigits 10 n).length

/-- Whether `10 ^ e` is at most `num / den`. -/
def powerFits (e : Int) (num den : Nat) : Bool :=
  Nat.pow 10 e.toNat * den ≤ num * Nat.pow 10 (-e).toNat

/-- Raises an exponent while the next power of ten still fits. -/
def climb (num den : Nat) : Nat → Int → Int
  | 0, e => e
  | fuel + 1, e => if powerFits (e + 1) num den then climb num den fuel (e + 1) else e

/-- The exponent of the first digit of `num / den`. -/
def leading (num den : Nat) : Int :=
  let k : Int := (num.log2 : Int) - den.log2
  climb num den 5 ((k - 1) * 30103 / 100000 - 1)

/-- The same magnitude without zeros at the end. -/
def strip : Nat → Decimal → Decimal
  | 0, d => d
  | fuel + 1, d =>
      if d.digits ≠ 0 ∧ d.digits % 10 = 0 then strip fuel ⟨d.digits / 10, d.exp + 1⟩ else d

/-- A digit string: the digits and the exponent of the first of them. -/
def spread (d : Decimal) : List Char × Int :=
  let ds := Nat.toDigits 10 d.digits
  (ds, d.exp + ds.length - 1)

end Decimal

/-- How decimal digits are laid out: positional notation is used from the
    exponent `-4` to below `limit`, and a whole number ends in `.0` if
    `point` says so. -/
structure DecimalLayout where
  limit : Int
  point : Bool

namespace DecimalLayout

/-- An exponent with its sign and at least two digits. -/
def exponent (e : Int) : List Char :=
  let ds := Nat.toDigits 10 e.natAbs
  (if e < 0 then '-' else '+') :: (if ds.length < 2 then '0' :: ds else ds)

/-- The digits `ds`, the first of which stands for `10 ^ e`. -/
def lay (f : DecimalLayout) (ds : List Char) (e : Int) : List Char :=
  if -4 ≤ e ∧ e < f.limit then
    if e < 0 then '0' :: '.' :: (List.replicate (-e - 1).toNat '0' ++ ds)
    else
      let n := e.toNat + 1
      if ds.length ≤ n then
        ds ++ List.replicate (n - ds.length) '0' ++ (if f.point then ['.', '0'] else [])
      else ds.take n ++ '.' :: ds.drop n
  else
    match ds with
    | [] => []
    | [d] => d :: 'e' :: exponent e
    | d :: ds => d :: '.' :: ds ++ 'e' :: exponent e

end DecimalLayout

namespace Binary64

/-- The number nearest to `± digits · 10 ^ exp`. -/
def ofDecimal (neg : Bool) (digits : Nat) (exp : Int) : Binary64 :=
  if digits = 0 then zero neg
  else
    let size : Int := digits.log2 / 3 + 1
    if 400 < exp then .infinite neg
    else if exp + size < -400 then zero neg
    else ofScaled neg (digits * Nat.pow 10 exp.toNat) (Nat.pow 10 (-exp).toNat) 0

/-- The interval of reals that round to `m · 2 ^ q`, in quarters of a unit:
    its lower end, and whether the ends belong to it. -/
def roundingFloor (m : Nat) (q : Int) : Nat × Bool :=
  (4 * m - (if m = fullWidth ∧ -1074 < q then 1 else 2), m % 2 == 0)

/-- The neighbour of `m · 2 ^ q` on the grid `10 ^ k` that reads back, the
    nearer of two. -/
def neighbour? (m : Nat) (q : Int) (k : Int) : Option Nat :=
  let up := Nat.pow 10 (-k).toNat <<< (q - 2).toNat
  let grid := Nat.pow 10 k.toNat <<< (2 - q).toNat
  let (low, closed) := roundingFloor m q
  let value := 4 * m * up
  let bottom := low * up
  let top := (4 * m + 2) * up
  let c := value / grid
  let below := c * grid
  let above := below + grid
  let fitsBelow := decide (bottom < below) || (closed && below == bottom)
  let fitsAbove := decide (above < top) || (closed && above == top)
  if fitsBelow && fitsAbove then
    let lower := value - below
    let upper := above - value
    some (if lower < upper || (lower == upper && c % 2 == 0) then c else c + 1)
  else if fitsBelow then some c
  else if fitsAbove then some (c + 1)
  else none

/-- The first grid, from the given number of digits on, with a neighbour that
    reads back. -/
def shortestFrom (m : Nat) (q : Int) (lead : Int) : Nat → Nat → Decimal
  | 0, n =>
      let k := lead - n + 1
      ⟨(neighbour? m q k).getD 0, k⟩
  | fuel + 1, n =>
      let k := lead - n + 1
      match neighbour? m q k with
      | some c => ⟨c, k⟩
      | none => shortestFrom m q lead fuel (n + 1)

/-- The exponent of the first decimal digit of a magnitude. -/
def leadingDigit (m : Nat) (q : Int) : Int :=
  Decimal.leading (m <<< q.toNat) (1 <<< (-q).toNat)

/-- The fewest digits that read back. -/
def shortest (m : Nat) (q : Int) : Decimal :=
  Decimal.strip 20 (shortestFrom m q (leadingDigit m q) 16 1)

/-- A magnitude to `n` significant digits, a tie going to the even digit. -/
def significant (n m : Nat) (q : Int) : Decimal :=
  let k := leadingDigit m q - n + 1
  let num := m <<< q.toNat * Nat.pow 10 (-k).toNat
  let den := 1 <<< (-q).toNat * Nat.pow 10 k.toNat
  Decimal.strip (n + 1) ⟨roundHalfEven num den, k⟩

/-- The text of a number, its digits chosen by `choose` and laid out by `f`. -/
def textBy (f : DecimalLayout) (choose : Nat → Int → Decimal) : Binary64 → Text
  | .nan _ => "nan"
  | .infinite s => if s then "-inf" else "inf"
  | .finite s m q _ =>
      let cs :=
        if m = 0 then f.lay ['0'] 0
        else
          let (ds, e) := (choose m q).spread
          f.lay ds e
      Text.ofChars (if s then '-' :: cs else cs)

/-- Whole numbers keep a point, and exponents are written from `10 ^ 16` on. -/
def fullLayout : DecimalLayout := ⟨16, true⟩

/-- Six digits at most, without a point after whole numbers. -/
def briefLayout : DecimalLayout := ⟨6, false⟩

/-- The shortest text that reads back. -/
def text (x : Binary64) : Text :=
  textBy fullLayout shortest x

/-- The text with six significant digits. -/
def briefText (x : Binary64) : Text :=
  textBy briefLayout (significant 6) x

end Binary64

end TurtleLogo
