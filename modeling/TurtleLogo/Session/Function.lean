import TurtleLogo.Vocabulary
import TurtleLogo.Session.World

/-! # The built-in functions

    What each function gives back for its inputs.  Functions read the session
    but change nothing in it, random numbers used up and undefined numbers
    counted apart. -/

namespace TurtleLogo.Session

/-- The number that an input must be. -/
def number (v : Value) (who : Text) : SessionM Number := do
  let n ← attempt (v.asNumber who)
  fresh n

/-- The value of a computed number. -/
def result (n : Except ArithmeticFault Number) : SessionM Value := do
  let x ← compute n
  let y ← fresh x
  pure (.number y)

/-- The text of an input. -/
def text (v : Value) : SessionM Text :=
  compute v.text

/-- A function of one number that may have no value there. -/
def mathematics (who : Text) (f : Number → Except ArithmeticFault Number) (v : Value) :
    SessionM Value := do
  let x ← number v who
  match f x with
  | .ok y => result (.ok y)
  | .error _ => do
      let t ← text (.number x)
      throw (.cannotWork who t)

/-- A whole part as a number. -/
def wholeNumber (n : Except ArithmeticFault Int) : Except ArithmeticFault Number :=
  n.map .int

/-- Halves round up. -/
def roundUp (x : Number) : Except ArithmeticFault Number := do
  let y ← x.add (.real (Binary64.ofRatio 1 2))
  wholeNumber y.floor

/-- The sign of a number. -/
def sign (x : Number) : Number :=
  .int (if Number.lt (.int 0) x then 1 else if x.lt (.int 0) then -1 else 0)

/-- A whole number from zero to below the input, as chance will have it. -/
def randomBelow (v : Value) : SessionM Value := do
  let n ← number v "RANDOM"
  if n.le (.int 0) then pure (.ofInt 0)
  else
    let r ← random
    mathematics "RANDOM" (fun n => do
      let x ← r.mul n
      wholeNumber x.floor) (.number n)

/-- The greatest exponent for which powers of whole numbers are whole. -/
def wholePowerLimit : Int := 1024

/-- A power: exact for whole numbers and a small whole exponent. -/
def power (a b : Value) : SessionM Value := do
  let x ← number a "POWER"
  let y ← number b "POWER"
  let raised : Except ArithmeticFault Number :=
    match x, y with
    | .int m, .int n =>
        if 0 ≤ n ∧ n ≤ wholePowerLimit then .ok (.int (m.pow n.toNat)) else x.pow y
    | _, _ => x.pow y
  match raised with
  | .ok z => result (.ok z)
  | .error _ => do
      let s ← text (.number x)
      let t ← text (.number y)
      throw (.cannotRaise s t)

/-- A divisor, which must not be zero. -/
def divisor (v : Value) (who : Text) : SessionM Number := do
  let n ← number v who
  if n.isZero then throw .divideByZero
  pure n

/-- The two coordinates of a point. -/
def point (v : Value) (who : Text) : SessionM (Number × Number) := do
  match v with
  | .list (a :: b :: _) => do
      let x ← number a who
      let y ← number b who
      pure (x, y)
  | _ => throw (.needsPoint who)

/-- The direction from the current turtle to a point. -/
def towards (v : Value) : SessionM Value := do
  let (x, y) ← point v "TOWARDS"
  let t ← turtle
  let dx ← compute (x.sub t.x)
  let dy ← compute (y.sub t.y)
  let angle ← compute (Number.bearing dx dy)
  result (if angle.lt (.int 0) then angle.add (.int 360) else .ok angle)

/-- The distance from the current turtle to a point. -/
def distance (v : Value) : SessionM Value := do
  let (x, y) ← point v "DISTANCE"
  let t ← turtle
  let dx ← compute (x.sub t.x)
  let dy ← compute (y.sub t.y)
  result (Number.hypot dx dy)

/-- The greatest code of a character. -/
def maxCode : Int := 1114111

/-- The word of the one code point with the given number. -/
def character (v : Value) : SessionM Value := do
  let code ← number v "CHAR"
  let refuse : SessionM Value := do
    let t ← text (.number code)
    throw (.noCharacter t)
  match code.trunc with
  | .error _ => refuse
  | .ok n =>
      if n < 0 ∨ maxCode < n then refuse else pure (.word [.ofNat n.toNat])

/-! ## Sequences -/

/-- A list or a word, as a sequence of parts. -/
inductive Sequence where
  | items (vs : List Value)
  | characters (cs : Text)

namespace Sequence

/-- The kind of a sequence. -/
def kind : Sequence → SequenceKind
  | .items _ => .items
  | .characters _ => .characters

/-- The number of parts. -/
def size : Sequence → Nat
  | .items vs => vs.length
  | .characters cs => cs.length

/-- A part, from zero. -/
def get? : Sequence → Nat → Option Value
  | .items vs, i => vs[i]?
  | .characters cs, i => cs[i]?.map fun c => .word [c]

/-- The value put together again. -/
def value : Sequence → Value
  | .items vs => .list vs
  | .characters cs => .word cs

/-- The same change of order or extent for lists and words. -/
def map (f : {α : Type} → List α → List α) : Sequence → Sequence
  | .items vs => .items (f vs)
  | .characters cs => .characters (f cs)

end Sequence

/-- The list or word that an input must be. -/
def sequence (v : Value) (who : Text) : SessionM Sequence := do
  match v with
  | .list vs => pure (.items vs)
  | .word s => pure (.characters s)
  | _ => throw (.needsSequence who)

/-- The part at one end of a sequence that must not be empty. -/
def endPart (v : Value) (who : Text) (place : Nat → Nat) : SessionM Value := do
  let s ← sequence v who
  match s.get? (place s.size) with
  | some part => pure part
  | none => throw (.emptySequence who s.kind)

/-- The part of a sequence at a place, from one. -/
def item (index v : Value) : SessionM Value := do
  let s ← sequence v "ITEM"
  let i ← number index "ITEM"
  if s.size == 0 then throw (.nothingToGet s.kind)
  let n ← compute i.trunc
  let found := if i.eq (.int n) ∧ 1 ≤ n then s.get? (n - 1).toNat else none
  match found with
  | some part => pure part
  | none => do
      let t ← text (.number i)
      throw (.noSuchPlace s.kind t s.size)

/-- Whether a text occurs in another. -/
def occurs (part : Text) : Text → Bool
  | [] => part.isEmpty
  | c :: cs => part.isPrefixOf (c :: cs) || occurs part cs

/-- Whether a value is an item of a list, or its text occurs in a word. -/
def isMember (v whole : Value) : SessionM Bool := do
  match whole with
  | .list vs => pure (vs.any (v.same ·))
  | .word s => do
      let t ← text v
      pure (occurs t s)
  | _ => pure false

/-- The value of a function for its inputs, where `a` and `b` are the first
    two. -/
def applyTo (f : Function) (a b : Value) : SessionM Value := do
  match f with
  | .sqrt => mathematics "SQRT" Number.sqrt a
  | .sin => mathematics "SIN" Number.sin a
  | .cos => mathematics "COS" Number.cos a
  | .tan => mathematics "TAN" Number.tan a
  | .arctan => mathematics "ARCTAN" Number.arctan a
  | .abs => mathematics "ABS" (fun x => .ok x.abs) a
  | .int => mathematics "INT" (fun x => wholeNumber x.trunc) a
  | .round => mathematics "ROUND" roundUp a
  | .random => randomBelow a
  | .exp => mathematics "EXP" Number.exp a
  | .log => mathematics "LOG" Number.ln a
  | .ln => mathematics "LN" Number.ln a
  | .log10 => mathematics "LOG10" Number.log10 a
  | .sign => mathematics "SIGN" (fun x => .ok (sign x)) a
  | .power => power a b
  | .remainder => do
      let x ← number a "REMAINDER"
      let y ← divisor b "REMAINDER"
      result (x.rem y)
  | .modulo => do
      let x ← number a "MODULO"
      let y ← divisor b "MODULO"
      result (x.mod y)
  | .min => do
      let x ← number a "MIN"
      let y ← number b "MIN"
      pure (.number (x.min y))
  | .max => do
      let x ← number a "MAX"
      let y ← number b "MAX"
      pure (.number (x.max y))
  | .xcor => return .number (← turtle).x
  | .ycor => return .number (← turtle).y
  | .heading => return .number (← turtle).heading
  | .pos => do
      let t ← turtle
      pure (.list [.number t.x, .number t.y])
  | .penSize => return .number (← turtle).pen.width
  | .penColor => return .word (← turtle).pen.color
  | .who => return (← get).canvas.scene.current
  | .turtles => return .list (← get).canvas.scene.ids
  | .word => do
      let s ← text a
      let t ← text b
      pure (.word (s ++ t))
  | .char => character a
  | .ascii => do
      let s ← text a
      match s with
      | [] => throw .needsCharacter
      | c :: _ => pure (.ofInt c.toNat)
  | .uppercase => return .word (Text.upper (← text a))
  | .lowercase => return .word (Text.lower (← text a))
  | .towards => towards a
  | .distance => distance a
  | .first => endPart a "FIRST" fun _ => 0
  | .last => endPart a "LAST" fun n => n - 1
  | .butFirst => return ((← sequence a "BUTFIRST").map fun l => l.drop 1).value
  | .butLast => return ((← sequence a "BUTLAST").map fun l => l.dropLast).value
  | .count => return .ofInt (← sequence a "COUNT").size
  | .item => item a b
  | .list => pure (.list [a, b])
  | .sentence => pure (.list (Value.sentence [a, b]))
  | .fput => do
      match b with
      | .list vs => pure (.list (a :: vs))
      | _ => throw .needsListFront
  | .lput => do
      match b with
      | .list vs => pure (.list (vs ++ [a]))
      | _ => throw .needsListEnd
  | .isEmpty =>
      pure (.truth (match a with
        | .list vs => vs.isEmpty
        | .word s => s.isEmpty
        | _ => false))
  | .isList => pure (.truth a.isList)
  | .isNumber => pure (.truth a.isNumber)
  | .isWord => pure (.truth a.isWord)
  | .isMember => return .truth (← isMember a b)
  | .reverse => return ((← sequence a "REVERSE").map fun l => l.reverse).value
  | .and => pure (.truth (a.isTruthy && b.isTruthy))
  | .or => pure (.truth (a.isTruthy || b.isTruthy))
  | .not => pure (.truth (!a.isTruthy))
  | .true => pure (.truth true)
  | .false => pure (.truth false)
  | .thing => do
      let name ← text a
      let s ← store
      attempt (s.get name)
  | .repcount => do
      let s ← store
      pure (.ofInt (match s.repcount with
        | some n => if n = 0 then 1 else n
        | none => 1))

/-- The value of a function for a list of inputs. -/
def apply (f : Function) (args : List Value) : SessionM Value :=
  applyTo f (args.getD 0 .nothing) (args.getD 1 .nothing)

/-- The texts of several values, joined. -/
def joined : List Value → SessionM Text
  | [] => pure []
  | v :: vs => do
      let t ← text v
      let ts ← joined vs
      pure (t ++ ts)

/-- The value of a function that takes any number of inputs. -/
def applyVariadic (f : Variadic) (args : List Value) : SessionM Value := do
  match f with
  | .list => pure (.list args)
  | .word => return .word (← joined args)
  | .sentence => pure (.list (Value.sentence args))

end TurtleLogo.Session
