import TurtleLogo.Drawing.Colour

/-! # The colours of the screen

    `Rgb.named?` is what the program's own screen knows colours by: a few names
    with any spaces in them, and six or eight hexadecimal digits.  Nothing but
    the program itself depends on it; surfaces are given what their screen
    knows. -/

namespace TurtleLogo.Rgb

/-- The names that the screen knows. -/
def screenNames : List (Text × Rgb) := Text.keyed [
  ("red", ⟨255, 0, 0⟩), ("blue", ⟨0, 0, 255⟩), ("white", ⟨255, 255, 255⟩),
  ("black", ⟨0, 0, 0⟩), ("yellow", ⟨255, 255, 0⟩)]

/-- The value of a hexadecimal digit. -/
def hexValue? (c : Char) : Option Nat :=
  if c.isDigit then some (c.toNat - 48)
  else if 'a' ≤ c && c ≤ 'f' then some (c.toNat - 87)
  else none

/-- The number that two hexadecimal digits spell. -/
def hexPair? (a b : Char) : Option Nat := do
  let x ← hexValue? a
  let y ← hexValue? b
  some (16 * x + y)

/-- Six hexadecimal digits, or eight, of which the last two say how opaque the
    colour is. -/
def ofHex? : List Char → Option Rgb
  | [a, b, c, d, e, f] => do
      some ⟨← hexPair? a b, ← hexPair? c d, ← hexPair? e f⟩
  | [a, b, c, d, e, f, g, h] => do
      let _ ← hexPair? g h
      some ⟨← hexPair? a b, ← hexPair? c d, ← hexPair? e f⟩
  | _ => none

/-- A colour by hexadecimal digits; the zero character ends them. -/
def digital? (s : Text) : Option Rgb := do
  let cs ← s.chars?
  match cs.takeWhile (· != Char.ofNat 0) with
  | '#' :: cs => ofHex? cs
  | '0' :: 'x' :: cs => ofHex? cs
  | _ => none

/-- A colour by its name, whatever spaces are in it. -/
def byName? (s : Text) : Option Rgb :=
  screenNames.lookup (s.filter (· != .char ' '))

/-- A colour by name or by hexadecimal digits. -/
def named? (s : Text) : Option Rgb :=
  match byName? s with
  | some c => some c
  | none => digital? s

end TurtleLogo.Rgb
