import TurtleLogo.Value.Basic
import TurtleLogo.Text.LetterCase

/-! # Colours

    A program names a colour by a word or by a list of three numbers;
    `Colour.resolve` turns either into the text that the drawing keeps.
    `Rgb.parseWith` is how a screen reads that text: `rgb(r, g, b)`, a text by
    which the screen knows a colour, and black for everything else. -/

namespace TurtleLogo

/-- A colour by its red, green and blue, each from `0` to `255`. -/
structure Rgb where
  red : Nat
  green : Nat
  blue : Nat
deriving DecidableEq

namespace Colour

/-- The colours that programs can name. -/
def names : List (Text × Rgb) := Text.keyed [
  ("black", ⟨0, 0, 0⟩), ("white", ⟨255, 255, 255⟩), ("red", ⟨255, 0, 0⟩),
  ("green", ⟨0, 128, 0⟩), ("blue", ⟨0, 0, 255⟩), ("yellow", ⟨255, 255, 0⟩),
  ("cyan", ⟨0, 255, 255⟩), ("magenta", ⟨255, 0, 255⟩), ("orange", ⟨255, 165, 0⟩),
  ("purple", ⟨128, 0, 128⟩), ("pink", ⟨255, 192, 203⟩), ("brown", ⟨139, 69, 19⟩),
  ("gray", ⟨128, 128, 128⟩), ("grey", ⟨128, 128, 128⟩), ("lime", ⟨0, 255, 0⟩),
  ("navy", ⟨0, 0, 128⟩), ("teal", ⟨0, 128, 128⟩), ("maroon", ⟨128, 0, 0⟩),
  ("olive", ⟨128, 128, 0⟩), ("aqua", ⟨0, 255, 255⟩), ("silver", ⟨192, 192, 192⟩),
  ("gold", ⟨255, 215, 0⟩), ("violet", ⟨238, 130, 238⟩), ("indigo", ⟨75, 0, 130⟩),
  ("coral", ⟨255, 127, 80⟩), ("turquoise", ⟨64, 224, 208⟩)]

/-- The text of a colour given by three texts. -/
def rgbText (r g b : Text) : Text :=
  "rgb(" ++ r ++ ", " ++ g ++ ", " ++ b ++ ")"

/-- The text of the colour that a value names. -/
def resolve : Value → Except ArithmeticFault Text
  | .list (r :: g :: b :: _) => do
      let r ← r.text
      let g ← g.text
      let b ← b.text
      .ok (rgbText r g b)
  | .word s =>
      match names.lookup (Text.lower s) with
      | some c => .ok (rgbText (Text.ofNat c.red) (Text.ofNat c.green) (Text.ofNat c.blue))
      | none => .ok s
  | _ => .ok "black"

end Colour

namespace Rgb

/-- Black, which stands for what cannot be read. -/
def black : Rgb := ⟨0, 0, 0⟩

/-- A whole number brought between `0` and `255`. -/
def clampChannel (n : Int) : Nat :=
  (max 0 (min 255 n)).toNat

/-- The characters of a number in a colour. -/
def isChannelChar (c : CodePoint) : Bool :=
  c == .char '-' || c == .char '.' || Text.isDigit c

/-- One channel at the start of a text, with blanks around it, and the rest. -/
def takeChannel (t : Text) : Option (Text × Text) :=
  let cs := t.dropWhile Text.isBlank
  let digits := cs.takeWhile isChannelChar
  if digits.isEmpty then none
  else some (digits, (cs.dropWhile isChannelChar).dropWhile Text.isBlank)

/-- The text after a comma. -/
def afterComma : Text → Option Text
  | .char ',' :: cs => some cs
  | _ => none

/-- The text after the word and the parenthesis with which channels start. -/
def afterOpening : Text → Option Text
  | .char 'r' :: .char 'g' :: .char 'b' :: .char '(' :: cs => some cs
  | .char 'r' :: .char 'g' :: .char 'b' :: .char 'a' :: .char '(' :: cs => some cs
  | _ => none

/-- The three channels of a text that starts like `rgb(r, g, b`. -/
def channels? (t : Text) : Option (Text × Text × Text) := do
  let cs ← afterOpening t
  let (r, cs) ← takeChannel cs
  let cs ← afterComma cs
  let (g, cs) ← takeChannel cs
  let cs ← afterComma cs
  let (b, _) ← takeChannel cs
  some (r, g, b)

/-- The value of a channel: its whole part, brought into range. -/
def readChannel (s : Text) : Except ArithmeticFault Nat :=
  match Number.readReal? s with
  | none => .error .notUsable
  | some x => do
      let n ← Number.trunc (.real x)
      .ok (clampChannel n)

/-- The colour that a text means on a screen with its own way to know colours. -/
def parseWith (known : Text → Option Rgb) (s : Text) : Except ArithmeticFault Rgb :=
  let s := Text.trim s
  match channels? s with
  | some (r, g, b) => do
      let r ← readChannel r
      let g ← readChannel g
      let b ← readChannel b
      .ok ⟨r, g, b⟩
  | none => .ok ((known (Text.lower s)).getD black)

/-- The colour that a value means on a screen; only texts mean any but
    black. -/
def ofValue (known : Text → Option Rgb) : Value → Except ArithmeticFault Rgb
  | .word s => parseWith known s
  | _ => .ok black

end Rgb

end TurtleLogo
