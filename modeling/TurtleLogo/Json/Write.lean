import TurtleLogo.Json.Basic

/-! # Writing JSON

    Texts are written in ASCII: the double quote, the backslash and all
    characters that are not printable ASCII are escaped, and a character past
    the first plane becomes an escaped pair of surrogates.  `compact` writes
    any value on one line; `writeObject` writes an object of texts with one
    field a line. -/

namespace TurtleLogo.Json

/-- The escape of a code unit by its number. -/
def unitEscape (u : Nat) : Text := Text.hexEscape 'u' 4 u

/-- One code point inside a string. -/
def writePoint (c : CodePoint) : Text :=
  let n := c.toNat
  if n == 34 || n == 92 then [.char '\\', c]
  else if n == 10 then "\\n"
  else if n == 13 then "\\r"
  else if n == 9 then "\\t"
  else if n == 12 then "\\f"
  else if n == 8 then "\\b"
  else if 32 ≤ n && n ≤ 126 then [c]
  else if n < 0x10000 then unitEscape n
  else unitEscape (0xD800 + (n - 0x10000) / 0x400) ++ unitEscape (0xDC00 + (n - 0x10000) % 0x400)

/-- The code points of a string, and its closing quote. -/
def writePoints (t : Text) : Text :=
  t.flatMap writePoint ++ [.char '"']

/-- A text between quotes. -/
def writeString (t : Text) : Text :=
  .char '"' :: writePoints t

mutual
/-- A value on one line, without blanks, before a text that follows it. -/
def writeOnto : Json → Text → Text
  | .null, rest => "null" ++ rest
  | .truth true, rest => "true" ++ rest
  | .truth false, rest => "false" ++ rest
  | .number n, rest => numberListing n ++ rest
  | .text t, rest => writeString t ++ rest
  | .array items, rest => .char '[' :: writeItems items (.char ']' :: rest)
  | .object fields, rest => .char '\x7b' :: writeMembers fields (.char '\x7d' :: rest)
/-- The items of an array with commas between, before a text that follows. -/
def writeItems : List Json → Text → Text
  | [], rest => rest
  | [v], rest => writeOnto v rest
  | v :: vs, rest => writeOnto v (.char ',' :: writeItems vs rest)
/-- The fields of an object with commas between, before a text that follows. -/
def writeMembers : List (Text × Json) → Text → Text
  | [], rest => rest
  | [(name, v)], rest => writeString name ++ .char ':' :: writeOnto v rest
  | (name, v) :: fs, rest =>
      writeString name ++ .char ':' :: writeOnto v (.char ',' :: writeMembers fs rest)
end

/-- A value on one line, without blanks. -/
def compact (v : Json) : Text := writeOnto v []

/-- The line of one field. -/
def writeField (field : Text × Text) : Text :=
  "  " ++ writeString field.1 ++ ": " ++ writeString field.2

/-- The lines of some fields. -/
def writeFields : List (Text × Text) → Text
  | [] => []
  | [f] => writeField f ++ "\n"
  | f :: fs => writeField f ++ ",\n" ++ writeFields fs

/-- An object of texts, one field a line. -/
def writeObject (fields : List (Text × Text)) : Text :=
  "\x7b\n" ++ writeFields fields ++ "\x7d"

end TurtleLogo.Json
