import TurtleLogo.Number.Basic
import TurtleLogo.Binary64.Decimal
import TurtleLogo.Text.Blank
import TurtleLogo.Text.Digit

/-! # Numbers as text

    Whole numbers of up to `digitLimit` digits have a text; a real that is
    whole and not huge is written without a point.

    `read?` accepts what people write: blanks around the number, a sign,
    digits of any script, single underscores between digits, and for reals a
    point, an exponent, and the words for infinity and the undefined number.
    A whole number past the limit reads as a real. -/

namespace TurtleLogo.Number

/-- The greatest number of digits in the text of a whole number. -/
def digitLimit : Nat := 4300

/-- The least magnitude whose text is too long. -/
def tooLong : Nat := Nat.pow 10 digitLimit

/-- The digits of a whole number, with its sign. -/
def digits (n : Int) : Text :=
  let ds := Nat.toDigits 10 n.natAbs
  Text.ofChars (if n < 0 then '-' :: ds else ds)

/-- The text of a whole number that is not too long. -/
def intText (n : Int) : Except ArithmeticFault Text :=
  if tooLong ≤ n.natAbs then .error .notUsable else .ok (digits n)

/-- The text that tells whole and real numbers apart. -/
def listing : Number → Except ArithmeticFault Text
  | .int n => intText n
  | .real x => .ok x.text

/-- The bound below which a whole real is written without a point. -/
def plainBound : Number := .int 10000000000000000

/-- The text of a number as people see it. -/
def text : Number → Except ArithmeticFault Text
  | .int n => intText n
  | .real x =>
      if x.isWhole && lt (.real x.abs) plainBound then do
        let n ← trunc (.real x)
        intText n
      else .ok x.text

/-! ## Reading -/

/-- A blank around a number. -/
def isMargin (c : Char) : Bool :=
  (9 ≤ c.toNat && c.toNat ≤ 13) || c.toNat == 32 || (127 < c.toNat && Text.isBlank (.char c))

/-- The characters of a number with its digits as ASCII ones and no blanks
    around. -/
def plain (cs : List Char) : List Char :=
  Text.trimBy isMargin (cs.map fun c =>
    match Text.digit? c with
    | some d => Nat.digitChar d
    | none => c)

/-- A sign and what follows it. -/
def takeSign : List Char → Bool × List Char
  | '-' :: cs => (true, cs)
  | '+' :: cs => (false, cs)
  | cs => (false, cs)

/-- Drops the underscores of a text in which each stands between two digits;
    `sofar` is what has been kept, in reverse. -/
def joinDigits? : List Char → List Char → Option (List Char)
  | sofar, [] => some sofar.reverse
  | sofar, '_' :: cs =>
      match sofar, cs with
      | b :: before, c :: rest =>
          if b.isDigit && c.isDigit then joinDigits? (c :: b :: before) rest else none
      | _, _ => none
  | sofar, c :: cs => joinDigits? (c :: sofar) cs

/-- The natural number that a list of ASCII digits spells. -/
def ofDigits (ds : List Char) : Nat :=
  ds.foldl (fun n c => 10 * n + (c.toNat - 48)) 0

/-- Reads a whole number of at most `digitLimit` digits. -/
def readInt? (t : Text) : Option Int := do
  let cs ← t.chars?
  let (neg, cs) := takeSign (plain cs)
  let ds ← joinDigits? [] cs
  if ds.isEmpty || !ds.all Char.isDigit || digitLimit < ds.length then none
  else some (if neg then -(ofDigits ds : Int) else ofDigits ds)

/-- Reads the exponent that ends a decimal number. -/
def readExponent? : List Char → Option Int
  | [] => some 0
  | c :: cs =>
      if c == 'e' || c == 'E' then
        let (neg, ds) := takeSign cs
        if ds.isEmpty || !ds.all Char.isDigit then none
        else some (if neg then -(ofDigits ds : Int) else ofDigits ds)
      else none

/-- Reads an unsigned decimal number with digits, a point and an exponent. -/
def readDecimal? (cs : List Char) : Option Decimal := do
  let whole := cs.takeWhile Char.isDigit
  let rest := cs.dropWhile Char.isDigit
  let (fraction, rest) :=
    match rest with
    | '.' :: rest => (rest.takeWhile Char.isDigit, rest.dropWhile Char.isDigit)
    | rest => ([], rest)
  if whole.isEmpty && fraction.isEmpty then none
  else
    let e ← readExponent? rest
    some ⟨ofDigits (whole ++ fraction), e - fraction.length⟩

/-- Reads a real number. -/
def readReal? (t : Text) : Option Binary64 := do
  let cs ← t.chars?
  let cs ← joinDigits? [] (plain cs)
  let (neg, cs) := takeSign cs
  let name := String.ofList (cs.map Char.toLower)
  if name == "inf" || name == "infinity" then some (.infinite neg)
  else if name == "nan" then some .undefined
  else
    let d ← readDecimal? cs
    some (Binary64.ofDecimal neg d.digits d.exp)

/-- Reads a whole number or else a real one. -/
def read? (t : Text) : Option Number :=
  match readInt? t with
  | some n => some (.int n)
  | none => (readReal? t).map .real

end TurtleLogo.Number
