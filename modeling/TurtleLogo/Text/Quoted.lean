import TurtleLogo.Text.Printable

/-! # Quoted texts

    A text between quotes, as listings of data show it.  The quote is the
    single one unless the text holds it and no double one; the quote in use,
    the backslash and every character that cannot be printed are escaped. -/

namespace TurtleLogo.Text

/-- The last `width` hexadecimal digits of a number, in small letters. -/
def hexDigits : Nat → Nat → List Char
  | 0, _ => []
  | width + 1, n => hexDigits width (n / 16) ++ [Nat.digitChar (n % 16)]

/-- A backslash and a letter before hexadecimal digits. -/
def hexEscape (letter : Char) (width n : Nat) : Text :=
  ofChars ('\\' :: letter :: hexDigits width n)

/-- One code point inside quotes of the given kind. -/
def escapePoint (quote c : CodePoint) : Text :=
  let n := c.toNat
  if c == quote || n == 92 then [.char '\\', c]
  else if n == 9 then "\\t"
  else if n == 10 then "\\n"
  else if n == 13 then "\\r"
  else if isPrintable c then [c]
  else if n < 256 then hexEscape 'x' 2 n
  else if n < 65536 then hexEscape 'u' 4 n
  else hexEscape 'U' 8 n

/-- The single quote. -/
def singleQuote : CodePoint := .ofNat 39

/-- The double quote. -/
def doubleQuote : CodePoint := .ofNat 34

/-- A text between quotes. -/
def quoted (t : Text) : Text :=
  let quote := if t.contains singleQuote && !t.contains doubleQuote then doubleQuote
    else singleQuote
  quote :: t.flatMap (escapePoint quote) ++ [quote]

end TurtleLogo.Text
