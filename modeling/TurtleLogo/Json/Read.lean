import TurtleLogo.Json.Basic

/-! # Reading JSON

    `Json.read` reads a whole text.  Beyond the standard it takes the words
    `NaN`, `Infinity` and `-Infinity` for numbers; it refuses raw control
    characters in strings and whole numbers with more digits than a number may
    have.

    There is room for a limited number of brackets inside each other.  A bracket
    for which there is none ends the reading with a fault of its own, unless the
    text was malformed before it.

    A string is read in two steps.  `readPieces` takes it apart into code
    points and escaped units; `joinPieces` makes code points of them, one of
    two where both halves of a surrogate pair are escaped.  A half that stands
    alone stays what it is. -/

namespace TurtleLogo.Json

/-- The blanks between the parts of a JSON text. -/
def isSpace (c : CodePoint) : Bool :=
  c == .char ' ' || c == .char '\n' || c == .char '\r' || c == .char '\t'

/-- A text without the blanks at its start. -/
def skipSpace (cs : Text) : Text := cs.dropWhile isSpace

/-! ## Strings -/

/-- The value of a hexadecimal digit. -/
def hexValue? : CodePoint → Option Nat
  | .char c =>
      if c.isDigit then some (c.toNat - 48)
      else if 'a' ≤ c && c ≤ 'f' then some (c.toNat - 87)
      else if 'A' ≤ c && c ≤ 'F' then some (c.toNat - 55)
      else none
  | .half _ => none

/-- The number that four hexadecimal digits spell. -/
def hexUnit? (a b c d : CodePoint) : Option Nat := do
  let w ← hexValue? a
  let x ← hexValue? b
  let y ← hexValue? c
  let z ← hexValue? d
  some (((w * 16 + x) * 16 + y) * 16 + z)

/-- The character that is escaped by a single letter. -/
def letterEscape? : CodePoint → Option CodePoint
  | .char '"' => some (.ofNat 34)
  | .char '\\' => some (.ofNat 92)
  | .char '/' => some (.ofNat 47)
  | .char 'b' => some (.ofNat 8)
  | .char 'f' => some (.ofNat 12)
  | .char 'n' => some (.ofNat 10)
  | .char 'r' => some (.ofNat 13)
  | .char 't' => some (.ofNat 9)
  | _ => none

/-- A piece of a string: a code point, or a unit that is escaped by its
    number. -/
inductive Piece where
  | point (c : CodePoint)
  | unit (u : Nat)

/-- The pieces of a string up to its closing quote, and the text after it. -/
def readPieces : Text → Option (List Piece × Text)
  | [] => none
  | .char '"' :: cs => some ([], cs)
  | .char '\\' :: .char 'u' :: a :: b :: c :: d :: cs => do
      let u ← hexUnit? a b c d
      let r ← readPieces cs
      some (.unit u :: r.1, r.2)
  | .char '\\' :: c :: cs => do
      let c ← letterEscape? c
      let r ← readPieces cs
      some (.point c :: r.1, r.2)
  | c :: cs =>
      if c.toNat < 32 || c == .char '\\' then none
      else do
        let r ← readPieces cs
        some (.point c :: r.1, r.2)

/-- A unit that starts a pair. -/
def isHigh (u : Nat) : Bool := 0xD800 ≤ u && u < 0xDC00

/-- A unit that ends a pair. -/
def isLow (u : Nat) : Bool := 0xDC00 ≤ u && u < 0xE000

/-- The code that a pair of units stands for. -/
def pairCode (high low : Nat) : Nat :=
  0x10000 + (high - 0xD800) * 0x400 + (low - 0xDC00)

/-- The code points of a list of pieces. -/
def joinPieces : List Piece → Text
  | .unit high :: .unit low :: ps =>
      if isHigh high && isLow low then .ofNat (pairCode high low) :: joinPieces ps
      else .ofNat high :: joinPieces (.unit low :: ps)
  | .unit u :: ps => .ofNat u :: joinPieces ps
  | .point c :: ps => c :: joinPieces ps
  | [] => []

/-- A string from the text after its opening quote, and the text after it. -/
def readString (cs : Text) : Option (Text × Text) := do
  let r ← readPieces cs
  some (joinPieces r.1, r.2)

/-! ## Numbers -/

/-- The digits at the start of a text, and the text after them. -/
def takeDigits : Text → List Char × Text
  | .char c :: cs =>
      if c.isDigit then
        let r := takeDigits cs
        (c :: r.1, r.2)
      else ([], .char c :: cs)
  | cs => ([], cs)

/-- The digits at the start of a text, if there are any, and the text after
    them. -/
def takeDigits? (cs : Text) : Option (List Char × Text) :=
  match takeDigits cs with
  | ([], _) => none
  | r => some r

/-- The whole part of a number: a zero, or digits that do not start with one. -/
def takeWhole : Text → Option (List Char × Text)
  | .char '0' :: cs => some (['0'], cs)
  | cs => takeDigits? cs

/-- The digits after a point, if there are any. -/
def takeFraction? : Text → Option (List Char × Text)
  | .char '.' :: cs => takeDigits? cs
  | _ => none

/-- The digits of an exponent, if there are any. -/
def takeExponentDigits? (neg : Bool) (cs : Text) : Option (Int × Text) := do
  let (ds, rest) ← takeDigits? cs
  let n : Int := Number.ofDigits ds
  some (if neg then -n else n, rest)

/-- An exponent, if there is one. -/
def takeExponent? : Text → Option (Int × Text)
  | c :: cs =>
      if c == .char 'e' || c == .char 'E' then
        match cs with
        | .char '-' :: cs => takeExponentDigits? true cs
        | .char '+' :: cs => takeExponentDigits? false cs
        | cs => takeExponentDigits? false cs
      else none
  | [] => none

/-- A number without its sign, and the text after it; a fraction or an
    exponent makes it real. -/
def readUnsigned (neg : Bool) (cs : Text) : Option (Number × Text) := do
  let (whole, rest) ← takeWhole cs
  let real (fraction : List Char) (exp : Int) : Number :=
    .real (Binary64.ofDecimal neg (Number.ofDigits (whole ++ fraction)) (exp - fraction.length))
  match takeFraction? rest with
  | some (fraction, rest) =>
      match takeExponent? rest with
      | some (exp, rest) => some (real fraction exp, rest)
      | none => some (real fraction 0, rest)
  | none =>
      match takeExponent? rest with
      | some (exp, rest) => some (real [] exp, rest)
      | none =>
          if Number.digitLimit < whole.length then none
          else
            let n : Int := Number.ofDigits whole
            some (.int (if neg then -n else n), rest)

/-! ## Values -/

/-- What follows a word that the text must start with. -/
def afterWord : Text → Text → Option Text
  | [], cs => some cs
  | w :: ws, c :: cs => if w = c then afterWord ws cs else none
  | _ :: _, [] => none

/-- A value that is a single word, and the text after it. -/
def readWord (word : Text) (v : Json) (cs : Text) : Option (Json × Text) := do
  let rest ← afterWord word cs
  some (v, rest)

/-- A value that is neither an array nor an object, and the text after it. -/
def readAtom : Text → Option (Json × Text)
  | .char '"' :: cs => do
      let (s, rest) ← readString cs
      some (.text s, rest)
  | .char 'n' :: cs => readWord "null" .null (.char 'n' :: cs)
  | .char 't' :: cs => readWord "true" (.truth true) (.char 't' :: cs)
  | .char 'f' :: cs => readWord "false" (.truth false) (.char 'f' :: cs)
  | .char 'N' :: cs => readWord "NaN" (.number (.real .undefined)) (.char 'N' :: cs)
  | .char 'I' :: cs => readWord "Infinity" (.number (.real (.infinite false))) (.char 'I' :: cs)
  | .char '-' :: .char 'I' :: cs =>
      readWord "Infinity" (.number (.real (.infinite true))) (.char 'I' :: cs)
  | .char '-' :: cs => do
      let (n, rest) ← readUnsigned true cs
      some (.number n, rest)
  | cs => do
      let (n, rest) ← readUnsigned false cs
      some (.number n, rest)

/-- A name and the colon after it. -/
def readName : Text → Option (Text × Text)
  | .char '"' :: cs => do
      let (name, rest) ← readString cs
      match skipSpace rest with
      | .char ':' :: rest => some (name, skipSpace rest)
      | _ => none
  | _ => none

/-- Why a text is not read. -/
inductive ReadFault where
  /-- The text is no JSON. -/
  | malformed
  /-- There is no room for a bracket inside the others. -/
  | tooDeep
deriving DecidableEq

/-- What was read, if anything was. -/
def orMalformed {α : Type} : Option α → Except ReadFault α
  | some a => .ok a
  | none => .error .malformed

/-- Something was read exactly if there is something. -/
theorem orMalformed_eq_ok {α : Type} {r : Option α} {a : α} :
    orMalformed r = .ok a ↔ r = some a := by
  cases r <;> simp [orMalformed]

mutual
/-- A value at the start of a text, and the text after it.  The first argument
    bounds the number of steps into the text, the second one is the number of
    brackets that there is room for. -/
def readValue : Nat → Nat → Text → Except ReadFault (Json × Text)
  | 0, _, _ => .error .malformed
  | _ + 1, 0, .char '[' :: _ => .error .tooDeep
  | _ + 1, 0, .char '\x7b' :: _ => .error .tooDeep
  | n + 1, room + 1, .char '[' :: cs => do
      match skipSpace cs with
      | .char ']' :: rest => .ok (.array [], rest)
      | cs => do
          let (items, rest) ← readItems n room cs
          .ok (.array items, rest)
  | n + 1, room + 1, .char '\x7b' :: cs => do
      match skipSpace cs with
      | .char '\x7d' :: rest => .ok (.object [], rest)
      | cs => do
          let (fields, rest) ← readFields n room [] cs
          .ok (.object fields, rest)
  | _, _, cs => orMalformed (readAtom cs)
/-- The items of an array up to its end, and the text after it. -/
def readItems : Nat → Nat → Text → Except ReadFault (List Json × Text)
  | 0, _, _ => .error .malformed
  | n + 1, room, cs => do
      let (v, rest) ← readValue n room cs
      match skipSpace rest with
      | .char ',' :: rest => do
          let (vs, rest) ← readItems n room (skipSpace rest)
          .ok (v :: vs, rest)
      | .char ']' :: rest => .ok ([v], rest)
      | _ => .error .malformed
/-- The fields of an object up to its end, added to those so far, and the text
    after it. -/
def readFields : Nat → Nat → List (Text × Json) → Text →
    Except ReadFault (List (Text × Json) × Text)
  | 0, _, _, _ => .error .malformed
  | n + 1, room, sofar, cs => do
      let (name, rest) ← orMalformed (readName cs)
      let (v, rest) ← readValue n room rest
      let fields := setField sofar name v
      match skipSpace rest with
      | .char ',' :: rest => readFields n room fields (skipSpace rest)
      | .char '\x7d' :: rest => .ok (fields, rest)
      | _ => .error .malformed
end

/-- Reads a whole text, with room for a number of brackets inside each other.
    Every two steps use up a character at least. -/
def read (room : Nat) (cs : Text) : Except ReadFault Json := do
  let (v, rest) ← readValue (2 * cs.length + 2) room (skipSpace cs)
  if (skipSpace rest).isEmpty then .ok v else .error .malformed

end TurtleLogo.Json
