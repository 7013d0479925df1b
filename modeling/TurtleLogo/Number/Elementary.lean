import TurtleLogo.Number.Basic
import TurtleLogo.Binary64.Root
import TurtleLogo.Binary64.Trigonometry
import TurtleLogo.Binary64.Exponential

/-! # Elementary functions of numbers

    Each function rounds its input to a real, refuses inputs at which it has
    no value, and reports results past the largest real. -/

namespace TurtleLogo.Number

/-- A value that exists, as a number. -/
def defined : Option Binary64 → Except ArithmeticFault Number
  | some x => .ok (.real x)
  | none => .error .notUsable

/-- The square root. -/
def sqrt (a : Number) : Except ArithmeticFault Number := do
  let x ← a.toReal
  defined x.sqrt?

/-- An angle in degrees, as radians. -/
def radians (a : Number) : Except ArithmeticFault Binary64 := do
  let x ← a.toReal
  .ok (x.mul Binary64.degree)

/-- An angle in radians, as degrees. -/
def degrees (x : Binary64) : Number :=
  .real (x.mul Binary64.radian)

/-- The sine of an angle in degrees. -/
def sin (a : Number) : Except ArithmeticFault Number := do
  let x ← a.radians
  defined x.sin?

/-- The cosine of an angle in degrees. -/
def cos (a : Number) : Except ArithmeticFault Number := do
  let x ← a.radians
  defined x.cos?

/-- The tangent of an angle in degrees. -/
def tan (a : Number) : Except ArithmeticFault Number := do
  let x ← a.radians
  defined x.tan?

/-- The inverse tangent, in degrees. -/
def arctan (a : Number) : Except ArithmeticFault Number := do
  let x ← a.toReal
  .ok (degrees x.atan)

/-- The angle of a vector in degrees, from its height and width. -/
def bearing (y x : Number) : Except ArithmeticFault Number := do
  let y ← y.toReal
  let x ← x.toReal
  .ok (degrees (y.atan2 x))

/-- The length of a vector. -/
def hypot (x y : Number) : Except ArithmeticFault Number := do
  let x ← x.toReal
  let y ← y.toReal
  .ok (.real (x.hypot y))

/-- A result for finite inputs must be finite itself. -/
def bounded (finiteInputs : Bool) (x : Binary64) : Except ArithmeticFault Number :=
  match x with
  | .infinite _ => if finiteInputs then .error .tooBig else .ok (.real x)
  | x => .ok (.real x)

/-- The exponential. -/
def exp (a : Number) : Except ArithmeticFault Number := do
  let x ← a.toReal
  bounded x.isFinite x.exp

/-- The power, of reals. -/
def pow (a b : Number) : Except ArithmeticFault Number := do
  let x ← a.toReal
  let y ← b.toReal
  match x.pow? y with
  | some z => bounded (x.isFinite && y.isFinite) z
  | none => .error .notUsable

/-- A positive whole number as `x · 2 ^ e` with `x` from a half to one. -/
def halfScaled (n : Nat) : Binary64 × Int :=
  let size : Int := n.log2 + 1
  let x := Binary64.ofScaled false n 1 (-size)
  if x = Binary64.one then (Binary64.ofRatio 1 2, size + 1) else (x, size)

/-- A logarithm.  A whole number too big for a real is split into a factor
    and a power of two first. -/
def logBy (log? : Binary64 → Option Binary64) : Number → Except ArithmeticFault Number
  | .real x => defined (log? x)
  | .int n =>
      if n ≤ 0 then .error .notUsable
      else
        let x := Binary64.ofInt n
        if x.isFinite then defined (log? x)
        else
          let (y, e) := halfScaled n.natAbs
          match log? y, log? (Binary64.ofInt 2) with
          | some a, some b => .ok (.real (a.add (b.mul (Binary64.ofInt e))))
          | _, _ => .error .notUsable

/-- The natural logarithm. -/
def ln (a : Number) : Except ArithmeticFault Number := logBy Binary64.ln? a

/-- The common logarithm. -/
def log10 (a : Number) : Except ArithmeticFault Number := logBy Binary64.log10? a

/-- The remainder with the sign of the dividend; an infinite dividend has
    none. -/
def rem (a b : Number) : Except ArithmeticFault Number :=
  if b.isZero then .error .zeroDivisor
  else
    match a, b with
    | .int m, .int n => .ok (.int (m.tmod n))
    | a, b => do
        let x ← a.toReal
        let y ← b.toReal
        let r := x.rem y
        if r.isNan && !x.isNan && !y.isNan then .error .notUsable else .ok (.real r)

end TurtleLogo.Number
