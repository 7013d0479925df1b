import TurtleLogo.Text.Basic

/-! # Decimal digits

    Every script's decimal digits come as ten code points in a row, from zero
    to nine, so the list of zeros determines the value of each digit. -/

namespace TurtleLogo.Text

/-- The digit zero of every script with decimal digits (Unicode 14). -/
def zeroDigits : List Nat := [
  48, 1632, 1776, 1984, 2406, 2534, 2662, 2790, 2918, 3046, 3174, 3302, 3430, 3558, 3664, 3792,
  3872, 4160, 4240, 6112, 6160, 6470, 6608, 6784, 6800, 6992, 7088, 7232, 7248, 42528, 43216,
  43264, 43472, 43504, 43600, 44016, 65296, 66720, 68912, 69734, 69872, 69942, 70096, 70384,
  70736, 70864, 71248, 71360, 71472, 71904, 72016, 72784, 73040, 73120, 92768, 92864, 93008,
  120782, 120792, 120802, 120812, 120822, 123200, 123632, 125264, 130032]

/-- The value of a decimal digit of any script. -/
def digit? (c : Char) : Option Nat :=
  if c.toNat < 128 then
    if c.isDigit then some (c.toNat - 48) else none
  else
    (zeroDigits.find? fun z => z ≤ c.toNat && c.toNat < z + 10).map (c.toNat - ·)

/-- Whether a code point is a decimal digit of any script. -/
def isDigit (c : CodePoint) : Bool :=
  c.satisfies fun c => (digit? c).isSome

end TurtleLogo.Text
