import TurtleLogo.Number.Elementary

/-! # Scalars

    The arithmetic that the turtle's geometry needs, as a class.  The program
    runs on `Number`; statements that only hold in exact arithmetic are about
    the same geometry over another scalar.  Operations may fail, as those on
    numbers do when a number is too big or undefined. -/

namespace TurtleLogo

/-- The arithmetic of coordinates, lengths and angles in degrees. -/
class Scalar (α : Type) where
  ofInt : Int → α
  /-- The scalar nearest to a fraction. -/
  ofFraction : Int → Nat → α
  add : α → α → Except ArithmeticFault α
  sub : α → α → Except ArithmeticFault α
  mul : α → α → Except ArithmeticFault α
  div : α → α → Except ArithmeticFault α
  /-- The remainder with the sign of the divisor. -/
  mod : α → α → Except ArithmeticFault α
  neg : α → α
  abs : α → α
  lt : α → α → Bool
  le : α → α → Bool
  isZero : α → Bool
  ceil : α → Except ArithmeticFault Int
  /-- The nearest whole number, the even one of two. -/
  round : α → Except ArithmeticFault Int
  /-- The length of a vector. -/
  hypot : α → α → Except ArithmeticFault α
  /-- The unit vector of a bearing, clockwise from straight up. -/
  direction : α → Except ArithmeticFault (α × α)

namespace Scalar

variable {α : Type} [Scalar α]

/-- The first scalar unless the second is greater. -/
def max (a b : α) : α := if lt a b then b else a

/-- The first scalar unless the second is less. -/
def min (a b : α) : α := if lt b a then b else a

/-- Zero. -/
def zero : α := ofInt 0

end Scalar

/-- The unit vector of a bearing in degrees. -/
def Number.direction (a : Number) : Except ArithmeticFault (Number × Number) := do
  let x ← a.radians
  let s ← defined x.sin?
  let c ← defined x.cos?
  .ok (s, c)

instance : Scalar Number where
  ofInt n := .int n
  ofFraction n d := .real (Binary64.ofRatio n d)
  add := Number.add
  sub := Number.sub
  mul := Number.mul
  div := Number.div
  mod := Number.mod
  neg := Number.neg
  abs := Number.abs
  lt := Number.lt
  le := Number.le
  isZero := Number.isZero
  ceil := Number.ceil
  round := Number.round
  hypot := Number.hypot
  direction := Number.direction

end TurtleLogo
