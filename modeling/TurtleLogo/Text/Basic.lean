/-! # Texts

    A text is a list of code points.  A code point is a character, or one half
    of a surrogate pair that stands alone: programs and JSON escapes can make
    such halves, and texts carry them like any character.

    * A plain string is a text (`Text.ofString`), and literals are used as
      texts.
    * Texts are ordered by the numbers of their code points.
    * `Text.chars?` gives the characters of a text without halves, and
      `chars?_ofChars` says that nothing is lost on the way. -/

namespace TurtleLogo

/-- A character, or half of a surrogate pair that stands alone. -/
inductive CodePoint where
  | char (c : Char)
  | half (n : Fin 0x800)
deriving DecidableEq

namespace CodePoint

/-- The number of a code point. -/
def toNat : CodePoint → Nat
  | .char c => c.toNat
  | .half n => 0xD800 + n.val

/-- The code point of a number; numbers past the last one have the zero
    character. -/
def ofNat (n : Nat) : CodePoint :=
  if h : 0xD800 ≤ n ∧ n < 0xE000 then .half ⟨n - 0xD800, by omega⟩ else .char (Char.ofNat n)

/-- Whether a code point is a character with a property. -/
def satisfies (p : Char → Bool) : CodePoint → Bool
  | .char c => p c
  | .half _ => false

instance : LT CodePoint := ⟨fun a b => a.toNat < b.toNat⟩

instance (a b : CodePoint) : Decidable (a < b) :=
  inferInstanceAs (Decidable (a.toNat < b.toNat))

instance : Inhabited CodePoint := ⟨.char ' '⟩

/-- A character is no half of a pair. -/
theorem toNat_char (c : Char) : c.toNat < 0xD800 ∨ 0xE000 ≤ c.toNat ∧ c.toNat < 0x110000 := by
  rcases c.valid with h | h
  · exact .inl h
  · exact .inr ⟨h.1, h.2⟩

/-- Code points are in the range of Unicode. -/
theorem toNat_lt (c : CodePoint) : c.toNat < 0x110000 := by
  cases c with
  | char c =>
      have hvalid := toNat_char c
      show c.toNat < 0x110000
      omega
  | half n =>
      have hn := n.isLt
      show 0xD800 + n.val < 0x110000
      omega

/-- A code point has its own number. -/
theorem ofNat_toNat (c : CodePoint) : ofNat c.toNat = c := by
  cases c with
  | char c =>
      have hvalid := toNat_char c
      show ofNat c.toNat = _
      rw [ofNat, dif_neg (by omega), Char.ofNat_toNat]
  | half n =>
      have hn := n.isLt
      show ofNat (0xD800 + n.val) = _
      rw [ofNat, dif_pos (by omega)]
      refine congrArg half (Fin.ext ?_)
      show 0xD800 + n.val - 0xD800 = n.val
      exact Nat.add_sub_cancel_left _ _

/-- Code points with the same number are the same. -/
theorem eq_of_toNat {c d : CodePoint} (h : c.toNat = d.toNat) : c = d := by
  rw [← ofNat_toNat c, h, ofNat_toNat]

end CodePoint

/-- A text. -/
abbrev Text := List CodePoint

namespace Text

/-- Characters as a text. -/
def ofChars (cs : List Char) : Text := cs.map .char

/-- A plain string as a text. -/
def ofString (s : String) : Text := ofChars s.toList

instance : Coe String Text := ⟨ofString⟩

/-- A table with its keys as texts. -/
def keyed {α : Type} (table : List (String × α)) : List (Text × α) :=
  table.map fun (key, a) => (ofString key, a)

/-- The decimal digits of a natural number. -/
def ofNat (n : Nat) : Text := ofChars (Nat.toDigits 10 n)

/-- The characters of a text in which no half of a pair stands alone, put
    behind the reversed characters so far. -/
def charsOnto? : List Char → Text → Option (List Char)
  | sofar, [] => some sofar.reverse
  | sofar, .char c :: t => charsOnto? (c :: sofar) t
  | _, .half _ :: _ => none

/-- The characters of a text in which no half of a pair stands alone. -/
def chars? (t : Text) : Option (List Char) := charsOnto? [] t

/-- The character that is shown in place of a lone half. -/
def replacement : Char := Char.ofNat 0xFFFD

/-- A text as a plain string, in which lone halves cannot be shown. -/
def display (t : Text) : String :=
  String.ofList (t.map fun
    | .char c => c
    | .half _ => replacement)

/-- Several texts with another between each two. -/
def joinWith (separator : Text) (ts : List Text) : Text :=
  List.intercalate separator ts

/-- Whether a text ends in another. -/
def endsIn (ending t : Text) : Bool := ending.isSuffixOf t

/-- Characters that make a text are found behind those so far. -/
theorem charsOnto?_ofChars (sofar cs : List Char) :
    charsOnto? sofar (ofChars cs) = some (sofar.reverse ++ cs) := by
  induction cs generalizing sofar with
  | nil => simp [ofChars, charsOnto?]
  | cons c cs ih =>
      have h : charsOnto? sofar (ofChars (c :: cs)) = charsOnto? (c :: sofar) (ofChars cs) := rfl
      rw [h, ih]
      simp

/-- The characters of a text made of characters are those characters. -/
theorem chars?_ofChars (cs : List Char) : chars? (ofChars cs) = some cs := by
  rw [chars?, charsOnto?_ofChars]
  simp

end Text

end TurtleLogo
