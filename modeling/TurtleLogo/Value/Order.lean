import TurtleLogo.Value.Basic

/-! # Equality and order of values

    Numbers are equal as numbers, words letter by letter, lists item by item;
    values of different kinds are never equal.  Only two numbers or two words
    have an order.  Turtles are named by values, and there a truth value
    stands for the number one or zero. -/

namespace TurtleLogo

/-- The comparisons of the language. -/
inductive Comparison where
  | eq
  | ne
  | lt
  | gt
  | le
  | ge
deriving DecidableEq

/-- The sign of a comparison. -/
def Comparison.symbol : Comparison → String
  | .eq => "="
  | .ne => "<>"
  | .lt => "<"
  | .gt => ">"
  | .le => "<="
  | .ge => ">="

namespace Value

mutual
/-- Equality of values. -/
def same : Value → Value → Bool
  | .number a, .number b => a.eq b
  | .truth a, .truth b => a == b
  | .nothing, .nothing => true
  | .word a, .word b => a == b
  | .list as, .list bs => sameItems as bs
  | _, _ => false
/-- Equality of lists, item by item. -/
def sameItems : List Value → List Value → Bool
  | [], [] => true
  | a :: as, b :: bs => same a b && sameItems as bs
  | _, _ => false
end

/-- The order of two numbers or two words, as a sign: numbers without an order
    have the sign zero. -/
def order (a b : Value) : Except Fault Int :=
  match a, b with
  | .number x, .number y =>
      .ok (match x.compare? y with
        | some .lt => -1
        | some .gt => 1
        | _ => 0)
  | .word s, .word t => .ok (if s < t then -1 else if t < s then 1 else 0)
  | a, b => do
      let left ← liftArithmetic a.described
      let right ← liftArithmetic b.described
      .error (.incomparable left right)

/-- The outcome of a comparison. -/
def compare (c : Comparison) (a b : Value) : Except Fault Bool :=
  match c with
  | .eq => .ok (same a b)
  | .ne => .ok (!same a b)
  | .lt => do
      let s ← order a b
      .ok (decide (s < 0))
  | .gt => do
      let s ← order a b
      .ok (decide (s > 0))
  | .le => do
      let s ← order a b
      .ok (decide (s ≤ 0))
  | .ge => do
      let s ← order a b
      .ok (decide (s ≥ 0))

/-! ## Values as names of turtles -/

/-- The number that a value stands for in the name of a turtle. -/
def keyNumber? : Value → Option Number
  | .number n => some n
  | .truth b => some (.int (if b then 1 else 0))
  | _ => none

/-- Whether two values name one turtle. -/
def sameKey (a b : Value) : Bool :=
  match a.keyNumber?, b.keyNumber? with
  | some x, some y => x.eq y || x == y
  | none, none => same a b
  | _, _ => false

end Value

end TurtleLogo
