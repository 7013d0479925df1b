import TurtleLogo.Token.Basic

/-! # From text to tokens

    `lex` reads one token, or skips one piece of text that is none, and hands
    back the rest; `scan` repeats it.  Scanning never complains about the
    text: what cannot be placed is skipped.  All it remembers is the bracket
    depth and whether the last token ended a value, which together decide
    whether a minus sign belongs to a number: inside brackets `-150 -10` are
    two numbers, outside `10 -5` is a subtraction.  It fails only for a whole
    number with more digits than a number may have. -/

namespace TurtleLogo.Token

/-- The characters of a number after its first one. -/
def isNumeric (c : CodePoint) : Bool := c.satisfies fun c => c.isDigit || c == '.'

/-- The characters of the name of a variable. -/
def isNameChar (c : CodePoint) : Bool :=
  c.satisfies fun c => c.isAlphanum || c == '_' || c == '.'

/-- The first character of a word. -/
def isWordStart (c : Char) : Bool := c.isAlpha || c == '_' || c == '?'

/-- The characters of a word. -/
def isWordChar (c : CodePoint) : Bool :=
  c.satisfies fun c => c.isAlphanum || c == '_' || c == '?'

/-- The characters that end a quoted word, blanks apart. -/
def isQuoteStop (c : CodePoint) : Bool :=
  c.satisfies fun c => c == '[' || c == ']' || c == '(' || c == ')' || c == ';'

/-- Reads the longest number at the start of a run of digits and points: a
    point makes it real, and a second point ends it. -/
def readRun (neg : Bool) (run : List Char) : Except Fault Number :=
  let whole := run.takeWhile Char.isDigit
  match run.dropWhile Char.isDigit with
  | '.' :: rest =>
      let fraction := rest.takeWhile Char.isDigit
      if whole.isEmpty && fraction.isEmpty then .ok (.int 0)
      else
        .ok (.real (Binary64.ofDecimal neg (Number.ofDigits (whole ++ fraction))
          (-(fraction.length : Int))))
  | _ =>
      if Number.digitLimit < whole.length then .error (.longNumber neg whole.length)
      else
        let n : Int := Number.ofDigits whole
        .ok (.int (if neg then -n else n))

/-- The run of digits and points at the start of a text. -/
def numericRun (text : Text) : List Char :=
  (Text.chars? (text.takeWhile isNumeric)).getD []

/-- The text of a quoted word and what follows it; a backslash before a space
    makes the space part of the word. -/
def takeQuoted : Text → Text × Text
  | .char '\\' :: .char ' ' :: cs =>
      let r := takeQuoted cs
      (.char ' ' :: r.1, r.2)
  | c :: cs =>
      if Text.isBlank c || isQuoteStop c then ([], c :: cs)
      else
        let r := takeQuoted cs
        (c :: r.1, r.2)
  | [] => ([], [])

/-- Whether a text starts with a digit. -/
def startsWithDigit : Text → Bool
  | c :: _ => c.satisfies Char.isDigit
  | [] => false

/-- A comparison sign that starts with `c`, and what follows it. -/
def takeComparison (c : Char) (cs : Text) : Comparison × Text :=
  match c, cs with
  | '<', .char '=' :: rest => (.le, rest)
  | '>', .char '=' :: rest => (.ge, rest)
  | '<', .char '>' :: rest => (.ne, rest)
  | '<', rest => (.lt, rest)
  | '>', rest => (.gt, rest)
  | _, rest => (.eq, rest)

/-- An ASCII letter in capitals, and any other code point as it is. -/
def capital : CodePoint → CodePoint
  | .char c => .char c.toUpper
  | .half n => .half n

/-- One token at the start of `c :: cs`, or none for text that is skipped, and
    the rest of the text. -/
def lexChar (depth : Int) (afterValue : Bool) (c : Char) (cs : Text) :
    Except Fault (Option Token) × Text :=
  let symbol (t : Token) : Except Fault (Option Token) × Text :=
    (.ok (some t), cs)
  let numberFrom (neg : Bool) (text : Text) : Except Fault (Option Token) :=
    (readRun neg (numericRun text)).map fun n => some (.number n)
  match c with
  | ';' => (.ok none, cs.dropWhile (· != .char '\n'))
  | '[' => symbol .openBracket
  | ']' => symbol .closeBracket
  | '(' => symbol .openParen
  | ')' => symbol .closeParen
  | '+' => symbol (.operator .plus)
  | '*' => symbol (.operator .times)
  | '/' => symbol (.operator .over)
  | '-' =>
      if startsWithDigit cs && (decide (0 < depth) || !afterValue) then
        (numberFrom true cs, cs.dropWhile isNumeric)
      else symbol (.operator .minus)
  | ':' =>
      let name := cs.takeWhile isNameChar
      (.ok (if name.isEmpty then none else some (.varref name)), cs.dropWhile isNameChar)
  | '"' =>
      let r := takeQuoted cs
      (.ok (some (.quoted r.1)), r.2)
  | c =>
      if c == '=' || c == '<' || c == '>' then
        let r := takeComparison c cs
        (.ok (some (.comparison r.1)), r.2)
      else if c.isDigit || (c == '.' && startsWithDigit cs) then
        (numberFrom false (.char c :: cs), cs.dropWhile isNumeric)
      else if isWordStart c then
        (.ok (some (.word ((.char c :: cs.takeWhile isWordChar).map capital))),
          cs.dropWhile isWordChar)
      else (.ok none, cs)

/-- One token at the start of `c :: cs`, or none for text that is skipped, and
    the rest of the text. -/
def lex (depth : Int) (afterValue : Bool) (c : CodePoint) (cs : Text) :
    Except Fault (Option Token) × Text :=
  match c with
  | .half _ => (.ok none, cs)
  | .char d =>
      if Text.isBlank (.char d) then (.ok none, cs) else lexChar depth afterValue d cs

/-! ## How a token is read -/

/-- The token that a character is by itself, whatever stands behind it. -/
def symbol? : Char → Option Token
  | '[' => some .openBracket
  | ']' => some .closeBracket
  | '(' => some .openParen
  | ')' => some .closeParen
  | '+' => some (.operator .plus)
  | '*' => some (.operator .times)
  | '/' => some (.operator .over)
  | _ => none

/-- What `lexChar` gives, by what the first character starts.  All that is said
    about single tokens is said case by case about this. -/
inductive Lexed (depth : Int) (afterValue : Bool) (cs : Text) :
    Char → Except Fault (Option Token) × Text → Prop where
  | comment : Lexed depth afterValue cs ';' (.ok none, cs.dropWhile (· != .char '\n'))
  | symbol {c : Char} {t : Token} (h : symbol? c = some t) :
      Lexed depth afterValue cs c (.ok (some t), cs)
  /-- The minus sign of a number. -/
  | signed (h : (startsWithDigit cs && (decide (0 < depth) || !afterValue)) = true) :
      Lexed depth afterValue cs '-'
        ((readRun true (numericRun cs)).map fun n => some (.number n), cs.dropWhile isNumeric)
  /-- The minus sign of a subtraction. -/
  | minus (h : (startsWithDigit cs && (decide (0 < depth) || !afterValue)) = false) :
      Lexed depth afterValue cs '-' (.ok (some (.operator .minus)), cs)
  | name :
      Lexed depth afterValue cs ':'
        (.ok (if (cs.takeWhile isNameChar).isEmpty then none
          else some (.varref (cs.takeWhile isNameChar))), cs.dropWhile isNameChar)
  | quoted :
      Lexed depth afterValue cs '"' (.ok (some (.quoted (takeQuoted cs).1)), (takeQuoted cs).2)
  | comparison {c : Char} (h : (c == '=' || c == '<' || c == '>') = true) :
      Lexed depth afterValue cs c
        (.ok (some (.comparison (takeComparison c cs).1)), (takeComparison c cs).2)
  | number {c : Char} (h : (c.isDigit || c == '.' && startsWithDigit cs) = true) :
      Lexed depth afterValue cs c
        ((readRun false (numericRun (.char c :: cs))).map fun n => some (.number n),
          cs.dropWhile isNumeric)
  | word {c : Char} (h : isWordStart c = true) :
      Lexed depth afterValue cs c
        (.ok (some (.word ((.char c :: cs.takeWhile isWordChar).map capital))),
          cs.dropWhile isWordChar)
  | skipped {c : Char} (hsymbol : symbol? c = none) (hmark : c ∉ [';', '-', ':', '"'])
      (hcomparison : (c == '=' || c == '<' || c == '>') = false)
      (hnumber : (c.isDigit || c == '.' && startsWithDigit cs) = false)
      (hword : isWordStart c = false) : Lexed depth afterValue cs c (.ok none, cs)

/-- Every token is read in one of these ways. -/
theorem lexed (depth : Int) (afterValue : Bool) (c : Char) (cs : Text) :
    Lexed depth afterValue cs c (lexChar depth afterValue c cs) := by
  fun_cases lexChar depth afterValue c cs
  all_goals first
    | exact .comment
    | exact .name
    | exact .quoted
    | exact .symbol rfl
    | exact .signed ‹_›
    | exact .minus (Bool.eq_false_iff.2 ‹_›)
    | exact .comparison ‹_›
    | exact .number ‹_›
    | exact .word ‹_›
    | skip
  -- what is left is the character that starts nothing
  refine .skipped ?_ ?_ ?_ ?_ ?_
  all_goals simp_all [symbol?]

/-! ## The rest is an ending of the text -/

/-- What is left after a quoted word is an ending of the text. -/
theorem takeQuoted_suffix (cs : Text) : (takeQuoted cs).2 <:+ cs := by
  fun_induction takeQuoted cs with
  | case1 cs r ih => exact (ih.trans (List.suffix_cons _ _)).trans (List.suffix_cons _ _)
  | case2 => exact List.suffix_refl _
  | case3 c cs _ _ r ih => exact ih.trans (List.suffix_cons _ _)
  | case4 => exact List.suffix_refl _

/-- What is left after a comparison is an ending of the text. -/
theorem takeComparison_suffix (c : Char) (cs : Text) : (takeComparison c cs).2 <:+ cs := by
  fun_cases takeComparison c cs
  all_goals first
    | exact List.suffix_cons _ _
    | exact List.suffix_refl _

/-- What is left after a token that starts with a character is an ending of the
    text. -/
theorem Lexed.suffix {depth : Int} {afterValue : Bool} {c : Char} {cs : Text}
    {r : Except Fault (Option Token) × Text} (h : Lexed depth afterValue cs c r) : r.2 <:+ cs := by
  cases h with
  | comment | signed | name | number | word => exact List.dropWhile_suffix _
  | quoted => exact takeQuoted_suffix cs
  | comparison => exact takeComparison_suffix c cs
  | symbol | minus | skipped => exact List.suffix_refl _

/-- What is left after any token is an ending of the text. -/
theorem lex_suffix (depth : Int) (afterValue : Bool) (c : CodePoint) (cs : Text) :
    (lex depth afterValue c cs).2 <:+ cs := by
  unfold lex
  split
  · exact List.suffix_refl _
  · split
    · exact List.suffix_refl _
    · exact (lexed depth afterValue _ cs).suffix

/-- Reading one token uses up at least its first code point. -/
theorem lex_length_le (depth : Int) (afterValue : Bool) (c : CodePoint) (cs : Text) :
    (lex depth afterValue c cs).2.length ≤ cs.length :=
  (lex_suffix depth afterValue c cs).length_le

/-- The tokens of a text that follows text of the given bracket depth. -/
def scan (depth : Int) (afterValue : Bool) : Text → Except Fault (List Token)
  | [] => .ok []
  | c :: cs =>
      match h : lex depth afterValue c cs with
      | (.error f, _) => .error f
      | (.ok none, rest) =>
          have : rest.length < cs.length + 1 := by
            have := lex_length_le depth afterValue c cs
            rw [h] at this
            exact Nat.lt_succ_of_le this
          scan depth afterValue rest
      | (.ok (some t), rest) => do
          have : rest.length < cs.length + 1 := by
            have := lex_length_le depth afterValue c cs
            rw [h] at this
            exact Nat.lt_succ_of_le this
          let ts ← scan (t.depthAfter depth) t.endsValue rest
          .ok (t :: ts)
termination_by cs => cs.length

/-- The tokens of a program. -/
def tokenize (source : Text) : Except Fault (List Token) :=
  scan 0 false source

end TurtleLogo.Token
