import TurtleLogo.Text.Basic
import TurtleLogo.Text.LetterCase.Table

/-! # Letter case

    `upper` and `lower` change the case of a whole text.  A letter may grow
    (`ß` becomes `SS`), and the capital sigma at the end of a word has a small
    form of its own, so both are functions on texts and not on characters. -/

namespace TurtleLogo

namespace Text

/-- The shift that a table of runs gives a code point. -/
def shiftIn (runs : List CaseRun) (n : Nat) : Option Int :=
  (runs.find? (·.covers n)).map (·.shift)

/-- The upper case of one character. -/
def upperChar (c : Char) : Text :=
  let n := c.toNat
  if n < 128 then [.char c.toUpper]
  else
    match upperExpansions.find? (·.1 == n) with
    | some (_, cs) => cs.map .ofNat
    | none =>
        match shiftIn upperRuns n with
        | some d => [.ofNat ((n : Int) + d).toNat]
        | none => [.char c]

/-- The upper case of one code point; half of a pair has none. -/
def upperPoint : CodePoint → Text
  | .char c => upperChar c
  | .half n => [.half n]

/-- A text in capitals. -/
def upper (t : Text) : Text := t.flatMap upperPoint

/-- The lower case of one character, the place in the text left aside. -/
def lowerChar (c : Char) : Text :=
  let n := c.toNat
  if n < 128 then [.char c.toLower]
  else if n == 304 then [.char 'i', .ofNat 775]
  else
    match shiftIn lowerRuns n with
    | some d => [.ofNat ((n : Int) + d).toNat]
    | none => [.char c]

/-- The lower case of one code point, the place in the text left aside. -/
def lowerPoint : CodePoint → Text
  | .char c => lowerChar c
  | .half n => [.half n]

/-- Whether the nearest letter that is not skipped has case. -/
def meetsCased (t : Text) : Bool :=
  match t.dropWhile fun c => skippedSpans.any (·.covers c.toNat) with
  | [] => false
  | c :: _ => casedSpans.any (·.covers c.toNat)

/-- A text in small letters behind the reversed result so far, given the
    reversed text before it. -/
def lowerOnto : Text → Text → Text → Text
  | sofar, _, [] => sofar.reverse
  | sofar, before, c :: cs =>
      let here : Text :=
        if c.toNat == 931 then
          if meetsCased before && !meetsCased cs then [.ofNat 962] else [.ofNat 963]
        else lowerPoint c
      lowerOnto (here.reverse ++ sofar) (c :: before) cs

/-- A text in small letters. -/
def lower (t : Text) : Text := lowerOnto [] [] t

/-- Capitals of an ASCII letter. -/
theorem upperChar_of_ascii {c : Char} (h : c.toNat < 128) : upperChar c = [.char c.toUpper] := by
  rw [upperChar, if_pos h]

end Text

/-! ## ASCII letters -/

/-- The small letters of ASCII have the numbers from `97` to `122`. -/
theorem isLower_iff {c : Char} : c.isLower = true ↔ 97 ≤ c.toNat ∧ c.toNat ≤ 122 := by
  change (decide ('a'.val ≤ c.val) && decide (c.val ≤ 'z'.val)) = true ↔ _
  rw [Bool.and_eq_true, decide_eq_true_eq, decide_eq_true_eq]
  exact Iff.rfl

/-- The capitals of ASCII have the numbers from `65` to `90`. -/
theorem isUpper_iff {c : Char} : c.isUpper = true ↔ 65 ≤ c.toNat ∧ c.toNat ≤ 90 := by
  change decide ('A'.val ≤ c.val ∧ c.val ≤ 'Z'.val) = true ↔ _
  rw [decide_eq_true_eq]
  exact Iff.rfl

/-- A small letter is a letter. -/
theorem isAlpha_of_isLower {c : Char} (h : c.isLower = true) : c.isAlpha = true :=
  Bool.or_eq_true_iff.2 (.inr h)

/-- A capital is a letter. -/
theorem isAlpha_of_isUpper {c : Char} (h : c.isUpper = true) : c.isAlpha = true :=
  Bool.or_eq_true_iff.2 (.inl h)

/-- A character that is no small letter is its own capital. -/
theorem toUpper_of_not_isLower {c : Char} (h : c.isLower = false) : c.toUpper = c :=
  dif_neg fun hrange => Bool.eq_false_iff.1 h (isLower_iff.2 hrange)

/-- A small letter in capitals has a number less by `32`. -/
theorem toNat_toUpper {c : Char} (h : c.isLower = true) : c.toUpper.toNat + 32 = c.toNat := by
  have hrange := isLower_iff.1 h
  have hval : 'a'.val ≤ c.val ∧ c.val ≤ 'z'.val := by
    rwa [UInt32.le_iff_toNat_le, UInt32.le_iff_toNat_le]
  have hupper : c.toUpper.val = c.val + ('A'.val - 'a'.val) := by
    delta Char.toUpper
    rw [dif_pos hval]
  rw [Char.toNat] at hrange ⊢
  rw [hupper, UInt32.toNat_add]
  change (c.val.toNat + 4294967264) % 2 ^ 32 + 32 = c.val.toNat
  omega

/-- A small letter in capitals is a capital letter. -/
theorem isUpper_toUpper {c : Char} (h : c.isLower = true) : c.toUpper.isUpper = true := by
  have hrange := isLower_iff.1 h
  have hshift := toNat_toUpper h
  exact isUpper_iff.2 (by omega)

/-- A capital letter is no small one. -/
theorem not_isLower_of_isUpper {c : Char} (h : c.isUpper = true) : c.isLower = false :=
  Bool.eq_false_iff.2 fun hlower => by
    have hrange := isUpper_iff.1 h
    have hrange' := isLower_iff.1 hlower
    omega

/-- What is in capitals stays as it is. -/
theorem toUpper_toUpper (c : Char) : c.toUpper.toUpper = c.toUpper := by
  cases h : c.isLower with
  | false => rw [toUpper_of_not_isLower h, toUpper_of_not_isLower h]
  | true => exact toUpper_of_not_isLower (not_isLower_of_isUpper (isUpper_toUpper h))

end TurtleLogo
