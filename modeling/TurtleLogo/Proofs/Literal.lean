import TurtleLogo.Token.Scan
import TurtleLogo.Text.LetterCase

/-! # Whole numbers in the text of a program

    Reading one token leaves an ending of the text (`lex_suffix`), so all that
    is read stands in the text.  Reading fails only at a whole number with more
    than `Number.digitLimit` digits, and that number stands in the text
    (`tokenize_error`). -/

namespace TurtleLogo

/-- A result that is found by running. -/
theorem Except.ok_of_toOption {ε α : Type} {r : Except ε α} {x : α} (h : r.toOption = some x) :
    r = .ok x := by
  cases r with
  | error e => cases h
  | ok y => exact congrArg Except.ok (Option.some.inj h)

namespace Text

theorem ofChars_append (cs ds : List Char) : ofChars (cs ++ ds) = ofChars cs ++ ofChars ds :=
  List.map_append

/-- The characters of a text are the text. -/
theorem ofChars_of_charsOnto? {sofar cs : List Char} {t : Text}
    (h : charsOnto? sofar t = some cs) : ofChars cs = ofChars sofar.reverse ++ t := by
  induction t generalizing sofar with
  | nil =>
      cases h
      exact (List.append_nil _).symm
  | cons p t ih =>
      cases p with
      | half n => cases h
      | char c =>
          rw [ih h, List.reverse_cons, ofChars_append, List.append_assoc]
          rfl

theorem ofChars_of_chars? {cs : List Char} {t : Text} (h : chars? t = some cs) : ofChars cs = t :=
  ofChars_of_charsOnto? h

end Text

namespace Token

/-- A fault about a whole number that stands in a text and has too many digits. -/
def LongNumber (f : Fault) (t : Text) : Prop :=
  ∃ (neg : Bool) (ds : List Char), f = .longNumber neg ds.length ∧
    Number.digitLimit < ds.length ∧ (∀ d ∈ ds, d.isDigit = true) ∧ Text.ofChars ds <:+: t

/-- A number that stands in a text stands in every text around it. -/
theorem LongNumber.within {f : Fault} {t u : Text} (h : LongNumber f t) (htu : t <:+: u) :
    LongNumber f u := by
  obtain ⟨neg, ds, hf, hlong, hdigits, hin⟩ := h
  exact ⟨neg, ds, hf, hlong, hdigits, hin.trans htu⟩

/-! ## Single tokens -/

/-- The run of digits and points that is read stands at the start. -/
theorem numericRun_start (t : Text) : Text.ofChars (numericRun t) <+: t := by
  rw [numericRun]
  cases h : Text.chars? (t.takeWhile isNumeric) with
  | none => exact List.nil_prefix
  | some cs =>
      show Text.ofChars cs <+: t
      rw [Text.ofChars_of_chars? h]
      exact List.takeWhile_prefix _

/-- Reading a run of digits fails only if they are too many. -/
theorem readRun_error {neg : Bool} {t : Text} {f : Fault}
    (h : readRun neg (numericRun t) = .error f) : LongNumber f t := by
  rw [readRun] at h
  dsimp only at h
  split at h
  · split at h <;> cases h
  · split at h
    · rename_i hlong
      cases h
      refine ⟨neg, _, rfl, hlong, fun d hd => ?_, ?_⟩
      · exact List.all_eq_true.1 List.all_takeWhile d hd
      · have hwhole : Text.ofChars ((numericRun t).takeWhile Char.isDigit)
            <+: Text.ofChars (numericRun t) :=
          List.IsPrefix.map _ ( List.takeWhile_prefix _)
        exact (hwhole.trans (numericRun_start t)).isInfix
    · cases h

/-- A character with a property is none of those without it. -/
theorem beq_false_of {p : Char → Bool} {c d : Char} (hc : p c = true) (hd : p d = false) :
    (c == d) = false := by
  rw [beq_eq_false_iff_ne]
  rintro rfl
  rw [hc] at hd
  cases hd

/-- Letters have codes in one of two ranges. -/
theorem toNat_of_isAlpha {c : Char} (h : c.isAlpha = true) :
    (65 ≤ c.toNat ∧ c.toNat ≤ 90) ∨ (97 ≤ c.toNat ∧ c.toNat ≤ 122) := by
  obtain hupper | hlower := Bool.or_eq_true_iff.1 h
  · exact .inl (isUpper_iff.1 hupper)
  · exact .inr (isLower_iff.1 hlower)

/-- A letter is no digit. -/
theorem isDigit_of_isAlpha {c : Char} (h : c.isAlpha = true) : c.isDigit = false := by
  cases hdigit : c.isDigit with
  | false => rfl
  | true =>
      change (decide (48 ≤ c.val) && decide (c.val ≤ 57)) = true at hdigit
      rw [Bool.and_eq_true, decide_eq_true_eq, decide_eq_true_eq, UInt32.le_iff_toNat_le,
        UInt32.le_iff_toNat_le] at hdigit
      have hhigh : c.toNat ≤ 57 := hdigit.2
      have hrange := toNat_of_isAlpha h
      omega

/-- No printable ASCII character but the space is blank. -/
theorem isBlank_of_ascii {c : Char} (hlow : 32 < c.toNat) (hhigh : c.toNat < 127) :
    Text.isBlank (.char c) = false := by
  rw [Text.isBlank, CodePoint.toNat]
  generalize c.toNat = n at hlow hhigh
  simp
  omega

/-- A digit is not blank. -/
theorem isBlank_of_isDigit {c : Char} (h : c.isDigit = true) : Text.isBlank (.char c) = false := by
  rw [Char.isDigit, Bool.and_eq_true, decide_eq_true_eq, decide_eq_true_eq] at h
  have hrange : 48 ≤ c.toNat ∧ c.toNat ≤ 57 := h
  exact isBlank_of_ascii (by omega) (by omega)

/-- What starts a bare word is not blank. -/
theorem isBlank_of_isWordStart {c : Char} (h : isWordStart c = true) :
    Text.isBlank (.char c) = false := by
  rw [isWordStart, Bool.or_eq_true, Bool.or_eq_true, beq_iff_eq, beq_iff_eq] at h
  obtain (h | rfl) | rfl := h
  · have hrange := toNat_of_isAlpha h
    exact isBlank_of_ascii (by omega) (by omega)
  · rfl
  · rfl

/-- What starts a bare word is part of one. -/
theorem isWordChar_of_isWordStart {c : Char} (h : isWordStart c = true) :
    isWordChar (.char c) = true := by
  rw [isWordStart, Bool.or_eq_true, Bool.or_eq_true] at h
  rw [isWordChar, CodePoint.satisfies, Char.isAlphanum]
  obtain (h | h) | h := h
  all_goals simp [h]

/-- The first character of a word starts nothing else. -/
theorem lexChar_word (depth : Int) (afterValue : Bool) {c : Char} (hc : isWordStart c = true)
    (cs : Text) :
    lexChar depth afterValue c cs
      = (.ok (some (.word ((.char c :: cs.takeWhile isWordChar).map capital))),
        cs.dropWhile isWordChar) := by
  have hne : ∀ d : Char, isWordStart d = false → (c == d) = false := fun _ => beq_false_of hc
  have hdigit : c.isDigit = false := by
    rw [isWordStart, Bool.or_eq_true, Bool.or_eq_true, beq_iff_eq, beq_iff_eq] at hc
    obtain (hc | rfl) | rfl := hc
    · exact isDigit_of_isAlpha hc
    · rfl
    · rfl
  simp only [lexChar]
  split
  all_goals try cases hc
  rw [hne '=' rfl, hne '<' rfl, hne '>' rfl, hdigit, hne '.' rfl, hc]
  rfl

/-- A digit starts a number. -/
theorem lexChar_digit (depth : Int) (afterValue : Bool) {c : Char} (hc : c.isDigit = true)
    (cs : Text) :
    lexChar depth afterValue c cs
      = ((readRun false (numericRun (.char c :: cs))).map fun n => some (.number n),
        cs.dropWhile isNumeric) := by
  have hne : ∀ d : Char, d.isDigit = false → (c == d) = false := fun _ => beq_false_of hc
  simp only [lexChar]
  split
  all_goals try cases hc
  rw [hne '=' rfl, hne '<' rfl, hne '>' rfl, hc]
  rfl

/-- A quoted word ends at a blank or at what stops it. -/
theorem takeQuoted_stop {c : CodePoint} (cs : Text)
    (h : (Text.isBlank c || isQuoteStop c) = true) : takeQuoted (c :: cs) = ([], c :: cs) := by
  generalize hd : c :: cs = ds
  fun_cases takeQuoted ds with
  | case1 cs' r => cases hd; exact absurd h (by decide)
  | case2 c' cs' hspace hstop => rfl
  | case3 c' cs' hspace hstop => cases hd; exact absurd h hstop
  | case4 => cases hd

/-- Anything else is part of it, unless it escapes a space. -/
theorem takeQuoted_plain {c : CodePoint} {cs : Text}
    (h : ¬(Text.isBlank c || isQuoteStop c) = true)
    (hspace : ∀ ds, c = .char '\\' → cs ≠ .char ' ' :: ds) :
    takeQuoted (c :: cs) = (c :: (takeQuoted cs).1, (takeQuoted cs).2) := by
  generalize hd : c :: cs = ds
  fun_cases takeQuoted ds with
  | case1 cs' r => cases hd; exact absurd rfl (hspace cs' rfl)
  | case2 c' cs' hspace hstop => cases hd; exact absurd hstop h
  | case3 c' cs' hspace hstop => cases hd; rfl
  | case4 => cases hd

section

variable {depth : Int} {afterValue : Bool} {c : Char} {cs : Text}
  {r : Except Fault (Option Token) × Text}

/-- The kinds of tokens exclude each other, so that `Lexed` says what `lexChar`
    gives. -/
theorem Lexed.eq (h : Lexed depth afterValue cs c r) : lexChar depth afterValue c cs = r := by
  cases h with
  | comment => rfl
  | symbol h =>
      simp only [symbol?] at h
      split at h <;> cases h <;> rfl
  | signed h => exact if_pos h
  | minus h => exact if_neg (Bool.eq_false_iff.1 h)
  | name => rfl
  | quoted => rfl
  | comparison h =>
      simp only [Bool.or_eq_true, beq_iff_eq] at h
      obtain (rfl | rfl) | rfl := h <;> rfl
  | number h =>
      rw [Bool.or_eq_true, Bool.and_eq_true, beq_iff_eq] at h
      obtain hdigit | ⟨rfl, hdigit⟩ := h
      · exact lexChar_digit depth afterValue hdigit cs
      · exact if_pos (by rw [hdigit]; rfl)
  | word h => exact lexChar_word depth afterValue h cs
  | skipped hsymbol hmark hcomparison hnumber hword =>
      simp only [lexChar]
      split
      all_goals try simp_all [symbol?]

/-- A number token is not read only if it has too many digits. -/
theorem number_error {neg : Bool} {t : Text} {f : Fault}
    (h : (readRun neg (numericRun t)).map (fun n => some (Token.number n)) = .error f) :
    LongNumber f t := by
  cases hread : readRun neg (numericRun t) with
  | ok n => rw [hread] at h; cases h
  | error g => rw [hread] at h; cases h; exact readRun_error hread

/-- A token that starts with a character fails only at a number with too many
    digits. -/
theorem Lexed.error {f : Fault} (h : Lexed depth afterValue cs c r) (hf : r.1 = .error f) :
    LongNumber f (.char c :: cs) := by
  cases h with
  | signed => exact (number_error hf).within (List.suffix_cons _ _).isInfix
  | number => exact number_error hf
  | comment | symbol | minus | name | quoted | comparison | word | skipped => cases hf

end

/-- Any token fails only at a number with too many digits. -/
theorem lex_error {depth : Int} {afterValue : Bool} {c : CodePoint} {cs : Text} {f : Fault}
    (h : (lex depth afterValue c cs).1 = .error f) : LongNumber f (c :: cs) := by
  simp only [lex] at h
  split at h
  · cases h
  · split at h
    · cases h
    · exact (lexed depth afterValue _ cs).error h

/-! ## Whole texts -/

section

variable {depth : Int} {afterValue : Bool} {c : CodePoint} {cs rest : Text} {f : Fault} {t : Token}

/-- A token that fails ends the scanning. -/
theorem scan_of_error (h : lex depth afterValue c cs = (.error f, rest)) :
    scan depth afterValue (c :: cs) = .error f := by
  rw [scan]
  split <;> simp_all

/-- What is no token is passed over. -/
theorem scan_of_none (h : lex depth afterValue c cs = (.ok none, rest)) :
    scan depth afterValue (c :: cs) = scan depth afterValue rest := by
  rw [scan]
  split <;> simp_all

/-- A token comes before those of the rest. -/
theorem scan_of_some (h : lex depth afterValue c cs = (.ok (some t), rest)) :
    scan depth afterValue (c :: cs)
      = (scan (t.depthAfter depth) t.endsValue rest).map (t :: ·) := by
  rw [scan]
  split
  · simp_all
  · simp_all
  · rename_i hlex
    rw [h] at hlex
    cases hlex
    cases scan (t.depthAfter depth) t.endsValue rest <;> rfl

end

/-- Scanning fails only at a number that stands in the text. -/
theorem scan_error {depth : Int} {afterValue : Bool} {t : Text} {f : Fault}
    (h : scan depth afterValue t = .error f) : LongNumber f t := by
  fun_induction scan depth afterValue t with
  | case1 => cases h
  | case2 depth afterValue c cs g _ hlex =>
      cases h
      exact lex_error (by rw [hlex])
  | case3 depth afterValue c cs rest hlex _ ih =>
      have hsuffix := lex_suffix depth afterValue c cs
      rw [hlex] at hsuffix
      exact (ih h).within (hsuffix.trans (List.suffix_cons _ _)).isInfix
  | case4 depth afterValue c cs t rest hlex _ ih =>
      have hsuffix := lex_suffix depth afterValue c cs
      rw [hlex] at hsuffix
      cases hscan : scan (t.depthAfter depth) t.endsValue rest with
      | ok ts => rw [hscan] at h; cases h
      | error g =>
          rw [hscan] at h
          cases h
          exact (ih hscan).within (hsuffix.trans (List.suffix_cons _ _)).isInfix

/-- The text of a program cannot be read only where a whole number in it is too
    long. -/
theorem tokenize_error {code : Text} {f : Fault} (h : tokenize code = .error f) :
    LongNumber f code := scan_error h

end Token

end TurtleLogo
