import TurtleLogo.Binary64.Arithmetic

/-! # Numbers

    A number is whole, of any size, or real, of double precision.  Whole
    numbers stay whole under `+`, `-` and `*`; a whole number that meets a
    real one is rounded first, and one that is too big for that is a fault.
    Comparison never rounds. -/

namespace TurtleLogo

/-- What can go wrong in arithmetic. -/
inductive ArithmeticFault where
  /-- A result or a conversion is past the largest real. -/
  | tooBig
  /-- The operation has no value there, or its text is too long. -/
  | notUsable
  /-- The divisor is zero. -/
  | zeroDivisor
deriving DecidableEq

/-- A whole or a real number. -/
inductive Number where
  | int (n : Int)
  | real (x : Binary64)
deriving DecidableEq

namespace Number

instance : Inhabited Number := ⟨.int 0⟩

/-- The real nearest to a whole number. -/
def realOfInt (n : Int) : Except ArithmeticFault Binary64 :=
  let x := Binary64.ofInt n
  if x.isFinite then .ok x else .error .tooBig

/-- A number as a real. -/
def toReal : Number → Except ArithmeticFault Binary64
  | .int n => realOfInt n
  | .real x => .ok x

/-- Does an operation on whole numbers exactly and any other on reals. -/
def combine (whole : Int → Int → Int) (real : Binary64 → Binary64 → Binary64) :
    Number → Number → Except ArithmeticFault Number
  | .int a, .int b => .ok (.int (whole a b))
  | .real x, .real y => .ok (.real (real x y))
  | .int a, .real y => do
      let x ← realOfInt a
      .ok (.real (real x y))
  | .real x, .int b => do
      let y ← realOfInt b
      .ok (.real (real x y))

/-- The sum. -/
def add (a b : Number) : Except ArithmeticFault Number :=
  combine (· + ·) Binary64.add a b

/-- The difference. -/
def sub (a b : Number) : Except ArithmeticFault Number :=
  combine (· - ·) Binary64.sub a b

/-- The product. -/
def mul (a b : Number) : Except ArithmeticFault Number :=
  combine (· * ·) Binary64.mul a b

/-- The opposite. -/
def neg : Number → Number
  | .int n => .int (-n)
  | .real x => .real x.neg

/-- The magnitude. -/
def abs : Number → Number
  | .int n => .int n.natAbs
  | .real x => .real x.abs

/-- Whether a number is zero, of either sign. -/
def isZero : Number → Bool
  | .int n => n == 0
  | .real x => x.isZero

/-- The quotient, which is always real: that of two whole numbers is rounded
    once, however big they are. -/
def div (a b : Number) : Except ArithmeticFault Number :=
  if b.isZero then .error .zeroDivisor
  else
    match a, b with
    | .int m, .int n =>
        let x := Binary64.ofRatio m n
        if x.isFinite then .ok (.real x) else .error .tooBig
    | a, b => combine (fun _ _ => 0) Binary64.div a b

/-- The remainder with the sign of the divisor. -/
def mod (a b : Number) : Except ArithmeticFault Number :=
  if b.isZero then .error .zeroDivisor else combine Int.fmod Binary64.mod a b

/-! ## Order -/

/-- The exact value. -/
def exact : Number → Exact
  | .int n => .dyadic n 0
  | .real x => x.exact

/-- The order of two numbers; the undefined real has none. -/
def compare? : Number → Number → Option Ordering
  | .int a, .int b => some (compare a b)
  | a, b => Exact.compare? a.exact b.exact

/-- The same number. -/
def eq (a b : Number) : Bool := compare? a b == some .eq

/-- Strictly less. -/
def lt (a b : Number) : Bool := compare? a b == some .lt

/-- Less or the same. -/
def le (a b : Number) : Bool := lt a b || eq a b

/-- The first number unless the second is greater. -/
def max (a b : Number) : Number := if lt a b then b else a

/-- The first number unless the second is less. -/
def min (a b : Number) : Number := if lt b a then b else a

/-- A number that is neither infinite nor undefined. -/
def isFinite : Number → Bool
  | .int _ => true
  | .real x => x.isFinite

/-! ## Whole parts -/

/-- A whole part, chosen by `f` from `n · 2 ^ e`; infinities are too big for
    one and the undefined number has none. -/
def whole (f : Int → Int → Int) : Number → Except ArithmeticFault Int
  | .int n => .ok n
  | .real x =>
      match x.exact with
      | .undefined => .error .notUsable
      | .infinite _ => .error .tooBig
      | .dyadic n e => .ok (f n e)

/-- The greatest whole number not above. -/
def floor : Number → Except ArithmeticFault Int :=
  whole Binary64.floorDyadic

/-- The least whole number not below. -/
def ceil : Number → Except ArithmeticFault Int :=
  whole fun n e => -Binary64.floorDyadic (-n) e

/-- The whole number next towards zero. -/
def trunc : Number → Except ArithmeticFault Int :=
  whole fun n e => if n < 0 then -Binary64.floorDyadic (-n) e else Binary64.floorDyadic n e

/-- The nearest whole number, the even one of two. -/
def round : Number → Except ArithmeticFault Int :=
  whole Binary64.nearestDyadic

end Number

end TurtleLogo
