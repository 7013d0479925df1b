import TurtleLogo.Proofs.Pairing
import TurtleLogo.Proofs.Rest

/-! # Capitals and small letters

    Outside quoted words the case of a letter does not matter.  `Text.folded`
    puts every letter that is not part of a quoted word in capitals, so two
    texts that differ in nothing else are folded to the same text.  Scanning
    commutes with it (`Token.tokenize_folded`): bare words are in capitals
    anyway, and what is left of the spelling are the names of variables.

    Two worlds that differ at most in these names, within the bodies of
    procedures, are `Recased`.  They make a pairing with all the laws, so two
    programs that are folded to the same text do the same. -/

namespace TurtleLogo

/-- Where in a program a code point stands. -/
inductive Place where
  | code
  | comment
  | quoted
  /-- Behind a backslash in a quoted word. -/
  | escaped
deriving DecidableEq

namespace Place

/-- The place behind a code point in code. -/
def afterCode (c : CodePoint) : Place :=
  if c = .char '"' then .quoted else if c = .char ';' then .comment else .code

/-- The place behind a code point that goes on with a quoted word or ends it. -/
def afterQuoted (c : CodePoint) : Place :=
  if Text.isBlank c || Token.isQuoteStop c then afterCode c
  else if c = .char '\\' then .escaped else .quoted

/-- The place behind a code point. -/
def after (c : CodePoint) : Place → Place
  | .code => afterCode c
  | .comment => if c = .char '\n' then .code else .comment
  | .quoted => afterQuoted c
  | .escaped => if c = .char ' ' then .quoted else afterQuoted c

/-- Whether a letter in a place is part of a quoted word. -/
def isQuoted : Place → Bool
  | .quoted | .escaped => true
  | .code | .comment => false

end Place

/-- A text with every ASCII letter in capitals that is not part of a quoted
    word, where the text starts at the given place. -/
def Text.foldedFrom : Place → Text → Text
  | _, [] => []
  | p, c :: cs => (if p.isQuoted then c else Token.capital c) :: foldedFrom (p.after c) cs

/-- A program with every ASCII letter in capitals that is not part of a quoted
    word. -/
def Text.folded (source : Text) : Text := foldedFrom .code source

/-- A token with the name of a variable in capitals. -/
def Token.folded : Token → Token
  | .varref name => .varref (name.map capital)
  | t => t

/-! ## Capitals -/

namespace Token

/-- Putting a letter in capitals twice changes no more than once. -/
theorem capital_capital (c : CodePoint) : capital (capital c) = capital c := by
  cases c with
  | half n => rfl
  | char c =>
      exact congrArg CodePoint.char (toUpper_toUpper c)

/-- A property of code points for which the case of ASCII letters does not
    matter. -/
def Caseless (p : CodePoint → Bool) : Prop := ∀ c, p (capital c) = p c

/-- A test of characters that treats all letters alike is caseless. -/
theorem caseless_satisfies {p : Char → Bool}
    (h : ∀ c d : Char, c.isLower = true → d.isUpper = true → p d = p c) :
    Caseless (·.satisfies p) := by
  intro c
  cases c with
  | half n => rfl
  | char c =>
      show p c.toUpper = p c
      cases hc : c.isLower with
      | false => rw [toUpper_of_not_isLower hc]
      | true => exact h c _ hc (isUpper_toUpper hc)

theorem isAlphanum_of_isLower {c : Char} (h : c.isLower = true) : c.isAlphanum = true := by
  simp [Char.isAlphanum, isAlpha_of_isLower h]

theorem isAlphanum_of_isUpper {c : Char} (h : c.isUpper = true) : c.isAlphanum = true := by
  simp [Char.isAlphanum, isAlpha_of_isUpper h]

/-- Names are made of small letters and capitals alike. -/
theorem caseless_isNameChar : Caseless isNameChar :=
  caseless_satisfies fun c d hc hd => by
    simp [isAlphanum_of_isLower hc, isAlphanum_of_isUpper hd]

/-- Bare words are made of small letters and capitals alike. -/
theorem caseless_isWordChar : Caseless isWordChar :=
  caseless_satisfies fun c d hc hd => by
    simp [isAlphanum_of_isLower hc, isAlphanum_of_isUpper hd]

/-- A bare word starts with a letter of either case. -/
theorem caseless_isWordStart : Caseless (·.satisfies isWordStart) :=
  caseless_satisfies fun c d hc hd => by
    simp [isWordStart, isAlpha_of_isLower hc, isAlpha_of_isUpper hd]

/-- A property that no letter has. -/
theorem caseless_of_unlettered {p : Char → Bool}
    (h : ∀ c : Char, c.isAlpha = true → p c = false) : Caseless (·.satisfies p) :=
  caseless_satisfies fun c d hc hd => by
    rw [h c (isAlpha_of_isLower hc), h d (isAlpha_of_isUpper hd)]

/-- A letter is none of the other characters. -/
theorem ne_of_isAlpha {c : Char} (h : c.isAlpha = true) (d : Char) (hd : d.isAlpha = false) :
    (c == d) = false :=
  beq_false_of h hd

/-- No letter is a digit or a dot. -/
theorem unlettered_isNumeric {c : Char} (hc : c.isAlpha = true) :
    (c.isDigit || c == '.') = false := by
  rw [isDigit_of_isAlpha hc, ne_of_isAlpha hc '.' rfl]
  rfl

/-- What ends a quoted word is no letter. -/
theorem unlettered_isQuoteStop {c : Char} (hc : c.isAlpha = true) :
    (c == '[' || c == ']' || c == '(' || c == ')' || c == ';') = false := by
  rw [ne_of_isAlpha hc '[' rfl, ne_of_isAlpha hc ']' rfl, ne_of_isAlpha hc '(' rfl,
    ne_of_isAlpha hc ')' rfl, ne_of_isAlpha hc ';' rfl]
  rfl

/-- Whether a code point is part of a number does not depend on its case. -/
theorem caseless_isNumeric : Caseless isNumeric :=
  caseless_of_unlettered fun _ => unlettered_isNumeric

theorem caseless_isDigit : Caseless (·.satisfies Char.isDigit) :=
  caseless_of_unlettered fun _ => isDigit_of_isAlpha

/-- Whether a code point is a given one that is no letter does not depend on its
    case. -/
theorem caseless_beq (d : Char) (hd : d.isAlpha = false) : Caseless (· == .char d) := by
  have h := caseless_of_unlettered (p := (· == d)) fun c hc => ne_of_isAlpha hc d hd
  have hbeq : ∀ c : CodePoint, (c == .char d) = c.satisfies (· == d) := by
    intro c
    cases c <;> simp [CodePoint.satisfies, beq_eq_decide]
  intro c
  exact (hbeq _).trans ((h c).trans (hbeq c).symm)

/-- A letter is not blank. -/
theorem unlettered_isBlank {c : Char} (hc : c.isAlpha = true) : Text.isBlank (.char c) = false := by
  have hrange := toNat_of_isAlpha hc
  exact isBlank_of_ascii (by omega) (by omega)

/-- Whether a code point is blank does not depend on its case. -/
theorem caseless_isBlank : Caseless Text.isBlank := by
  intro c
  have h := caseless_of_unlettered (p := fun c => Text.isBlank (.char c))
    (fun _ => unlettered_isBlank) c
  cases c with
  | half n => rfl
  | char c => exact h

end Token

/-! ## Scanning -/

namespace Text

/-- In code the first letter is put in capitals. -/
theorem foldedFrom_code (c : CodePoint) (cs : Text) :
    foldedFrom .code (c :: cs) = Token.capital c :: foldedFrom (.afterCode c) cs := rfl

/-- Code goes on behind a code point that opens nothing. -/
theorem afterCode_eq {c : CodePoint} (hq : c ≠ .char '"') (hs : c ≠ .char ';') :
    Place.afterCode c = .code := by
  rw [Place.afterCode, if_neg hq, if_neg hs]

end Text

namespace Token

open Text

/-- A property that neither a quote nor the start of a comment has. -/
structure Coded (p : CodePoint → Bool) : Prop where
  caseless : Caseless p
  quote : p (.char '"') = false
  comment : p (.char ';') = false

theorem coded_isNameChar : Coded isNameChar := ⟨caseless_isNameChar, rfl, rfl⟩

theorem coded_isWordChar : Coded isWordChar := ⟨caseless_isWordChar, rfl, rfl⟩

theorem coded_isNumeric : Coded isNumeric := ⟨caseless_isNumeric, rfl, rfl⟩

namespace Coded

variable {p : CodePoint → Bool} (h : Coded p)
include h

/-- Code goes on behind a code point with the property. -/
theorem afterCode {c : CodePoint} (hc : p c = true) : Place.afterCode c = .code := by
  refine afterCode_eq ?_ ?_
  · rintro rfl
    rw [h.quote] at hc
    cases hc
  · rintro rfl
    rw [h.comment] at hc
    cases hc

/-- A run of such code points in a folded text is the run, in capitals. -/
theorem takeWhile (cs : Text) :
    (foldedFrom .code cs).takeWhile p = (cs.takeWhile p).map capital := by
  induction cs with
  | nil => rfl
  | cons c cs ih =>
      rw [foldedFrom_code, List.takeWhile_cons, List.takeWhile_cons, h.caseless c]
      by_cases hc : p c = true
      · rw [if_pos hc, if_pos hc, h.afterCode hc, ih, List.map_cons]
      · rw [if_neg hc, if_neg hc, List.map_nil]

/-- What follows the run in a folded text is what followed it, folded. -/
theorem dropWhile (cs : Text) :
    (foldedFrom .code cs).dropWhile p = foldedFrom .code (cs.dropWhile p) := by
  induction cs with
  | nil => rfl
  | cons c cs ih =>
      rw [foldedFrom_code, List.dropWhile_cons, List.dropWhile_cons, h.caseless c]
      by_cases hc : p c = true
      · rw [if_pos hc, if_pos hc, h.afterCode hc, ih]
      · rw [if_neg hc, if_neg hc, foldedFrom_code]

end Coded

/-- A code point that is no letter is its own capital. -/
theorem capital_of_unlettered {p : Char → Bool}
    (h : ∀ c : Char, c.isAlpha = true → p c = false) {c : CodePoint}
    (hc : c.satisfies p = true) : capital c = c := by
  cases c with
  | half n => rfl
  | char c =>
      have hpc : p c = true := hc
      show CodePoint.char c.toUpper = _
      cases hlower : c.isLower with
      | false => rw [toUpper_of_not_isLower hlower]
      | true =>
          rw [h c (isAlpha_of_isLower hlower)] at hpc
          cases hpc

/-- A character that is no letter stays as it is in capitals. -/
theorem toUpper_of_unlettered {p : Char → Bool}
    (h : ∀ c : Char, c.isAlpha = true → p c = false) {c : Char} (hc : p c = true) :
    c.toUpper = c :=
  CodePoint.char.inj (capital_of_unlettered h (c := .char c) hc)

/-- A folded text starts with the same number. -/
theorem numericRun_folded (cs : Text) : numericRun (foldedFrom .code cs) = numericRun cs := by
  have hmap : (cs.takeWhile isNumeric).map capital = cs.takeWhile isNumeric := by
    conv_rhs => rw [← List.map_id (cs.takeWhile isNumeric)]
    refine List.map_congr_left fun c hc => capital_of_unlettered (fun _ => unlettered_isNumeric) ?_
    exact List.all_eq_true.1 List.all_takeWhile c hc
  rw [numericRun, numericRun, coded_isNumeric.takeWhile, hmap]

/-- A folded text starts with a digit exactly if the text does. -/
theorem startsWithDigit_folded (cs : Text) :
    startsWithDigit (foldedFrom .code cs) = startsWithDigit cs := by
  cases cs with
  | nil => rfl
  | cons c cs => exact caseless_isDigit c

/-- A comment ends in the same place. -/
theorem dropWhile_comment (cs : Text) :
    (foldedFrom .comment cs).dropWhile (· != .char '\n')
      = foldedFrom .code (cs.dropWhile (· != .char '\n')) := by
  induction cs with
  | nil => rfl
  | cons c cs ih =>
      have hcapital : (capital c == .char '\n') = (c == .char '\n') :=
        caseless_beq '\n' rfl c
      have hfold : foldedFrom .comment (c :: cs)
          = capital c :: foldedFrom (if c = .char '\n' then .code else .comment) cs := rfl
      rw [hfold, List.dropWhile_cons, List.dropWhile_cons, bne, bne, hcapital]
      by_cases hc : c = .char '\n'
      · subst hc
        rfl
      · have hne : (!(c == .char '\n')) = true := by simp [hc]
        rw [if_pos hne, if_pos hne, if_neg hc, ih]

/-- What ends a quoted word is no letter. -/
theorem capital_of_stop {c : CodePoint} (h : (Text.isBlank c || isQuoteStop c) = true) :
    capital c = c := by
  cases c with
  | half n => rfl
  | char c =>
      refine capital_of_unlettered (p := fun c => isBlank (.char c) || isQuoteStop (.char c)) ?_ h
      intro c hc
      rw [unlettered_isBlank hc]
      exact unlettered_isQuoteStop hc

/-- A backslash matters only before a space. -/
theorem foldedFrom_escaped {cs : Text} (h : ∀ ds, cs ≠ .char ' ' :: ds) :
    foldedFrom .escaped cs = foldedFrom .quoted cs := by
  cases cs with
  | nil => rfl
  | cons c cs =>
      have hc : c ≠ .char ' ' := fun hc => h cs (by rw [hc])
      show c :: foldedFrom (if c = .char ' ' then .quoted else .afterQuoted c) cs = _
      rw [if_neg hc]
      rfl

/-- A quoted word is read as it stands. -/
theorem takeQuoted_folded (cs : Text) :
    takeQuoted (foldedFrom .quoted cs)
      = ((takeQuoted cs).1, foldedFrom .code (takeQuoted cs).2) := by
  fun_induction takeQuoted cs with
  | case1 cs r ih =>
      show (CodePoint.char ' ' :: (takeQuoted (foldedFrom .quoted cs)).1,
        (takeQuoted (foldedFrom .quoted cs)).2) = _
      rw [ih]
  | case2 c cs hspace hstop =>
      have hafter : Place.afterQuoted c = .afterCode c := by rw [Place.afterQuoted, if_pos hstop]
      show takeQuoted (c :: foldedFrom (.afterQuoted c) cs) = _
      rw [takeQuoted_stop _ hstop, foldedFrom_code, capital_of_stop hstop, hafter]
  | case3 c cs hspace hstop r ih =>
      have hrest : foldedFrom (.afterQuoted c) cs = foldedFrom .quoted cs := by
        rw [Place.afterQuoted, if_neg hstop]
        split
        · exact foldedFrom_escaped fun ds hds => hspace ds ‹_› hds
        · rfl
      have hhead : ∀ ds, c = .char '\\' → foldedFrom .quoted cs ≠ .char ' ' :: ds := by
        intro ds hc hds
        cases cs with
        | nil => cases hds
        | cons d cs => exact hspace cs hc (congrArg (· :: cs) (List.cons.inj hds).1)
      show takeQuoted (c :: foldedFrom (.afterQuoted c) cs) = _
      rw [hrest, takeQuoted_plain hstop hhead, ih]
  | case4 => rfl

/-- A character that is no letter stands at the start of both texts. -/
theorem foldedFrom_head {cs ds : Text} {d : Char} (hd : d.isAlpha = false)
    (h : foldedFrom .code cs = .char d :: ds) : ∃ rest, cs = .char d :: rest := by
  cases cs with
  | nil => cases h
  | cons c cs =>
      have hc : (capital c == .char d) = (c == .char d) := caseless_beq d hd c
      rw [foldedFrom_code, List.cons.injEq] at h
      rw [beq_iff_eq.2 h.1, eq_comm, beq_iff_eq] at hc
      exact ⟨cs, by rw [hc]⟩

/-- The comparison that a folded text starts with is the same. -/
theorem takeComparison_folded (c : Char) (cs : Text) :
    takeComparison c (foldedFrom .code cs)
      = ((takeComparison c cs).1, foldedFrom .code (takeComparison c cs).2) := by
  -- the second sign is read in both texts or in none
  have hsecond : ∀ {d : Char}, d.isAlpha = false → (∀ rest, cs ≠ .char d :: rest) →
      ∀ rest, foldedFrom .code cs ≠ .char d :: rest := by
    intro d hd hnone rest hrest
    obtain ⟨_, hcs⟩ := foldedFrom_head hd hrest
    exact hnone _ hcs
  fun_cases takeComparison c cs with
  | case1 => rfl
  | case2 => rfl
  | case3 => rfl
  | case4 cs heq hgt =>
      have hfoldeq := hsecond (d := '=') rfl heq
      have hfoldgt := hsecond (d := '>') rfl hgt
      generalize foldedFrom .code cs = fs at hfoldeq hfoldgt
      simp only [takeComparison]
  | case5 cs heq =>
      have hfoldeq := hsecond (d := '=') rfl heq
      generalize foldedFrom .code cs = fs at hfoldeq
      simp only [takeComparison]
  | case6 =>
      simp only [takeComparison]
      split <;> simp_all

/-- Capitals stay capitals. -/
theorem map_capital_capital (cs : Text) : (cs.map capital).map capital = cs.map capital := by
  rw [List.map_map]
  exact List.map_congr_left fun c _ => capital_capital c

/-- A number has no letters. -/
theorem map_folded_number (r : Except Fault Number) :
    (r.map fun n => some (number n)).map (Option.map folded) = r.map fun n => some (number n) := by
  cases r <;> rfl

/-- Reading a token of the folded text. -/
theorem Lexed.folded {depth : Int} {afterValue : Bool} {c : Char} {cs : Text}
    {r : Except Fault (Option Token) × Text} (h : Lexed depth afterValue cs c r) :
    lexChar depth afterValue c.toUpper (foldedFrom (.afterCode (.char c)) cs)
      = (r.1.map (Option.map Token.folded), foldedFrom .code r.2) := by
  cases h with
  | comment =>
      show lexChar depth afterValue ';' (foldedFrom .comment cs) = _
      rw [Lexed.comment.eq, dropWhile_comment]
      rfl
  | symbol h =>
      simp only [symbol?] at h
      split at h <;> cases h <;> rfl
  | signed h =>
      show lexChar depth afterValue '-' (foldedFrom .code cs) = _
      rw [(Lexed.signed (by rwa [startsWithDigit_folded])).eq, numericRun_folded,
        coded_isNumeric.dropWhile, map_folded_number]
  | minus h =>
      show lexChar depth afterValue '-' (foldedFrom .code cs) = _
      exact (Lexed.minus (by rwa [startsWithDigit_folded])).eq
  | name =>
      show lexChar depth afterValue ':' (foldedFrom .code cs) = _
      rw [Lexed.name.eq, coded_isNameChar.takeWhile, coded_isNameChar.dropWhile]
      cases cs.takeWhile isNameChar <;> rfl
  | quoted =>
      show lexChar depth afterValue '"' (foldedFrom .quoted cs) = _
      rw [Lexed.quoted.eq, takeQuoted_folded]
      rfl
  | comparison h =>
      have hcode : lexChar depth afterValue c (foldedFrom .code cs) = _ := (Lexed.comparison h).eq
      rw [takeComparison_folded] at hcode
      simp only [Bool.or_eq_true, beq_iff_eq] at h
      obtain (rfl | rfl) | rfl := h <;> exact hcode
  | number h =>
      have hnumeric : (c.isDigit || c == '.') = true := by
        simp only [Bool.or_eq_true, Bool.and_eq_true] at h ⊢
        exact h.imp_right And.left
      have hcode : Place.afterCode (.char c) = .code := coded_isNumeric.afterCode hnumeric
      have hsame : c.toUpper = c := toUpper_of_unlettered (fun _ => unlettered_isNumeric) hnumeric
      have hrun := numericRun_folded (.char c :: cs)
      rw [foldedFrom_code, capital, hsame, hcode] at hrun
      rw [hsame, hcode, (Lexed.number (by rwa [startsWithDigit_folded])).eq, hrun,
        coded_isNumeric.dropWhile, map_folded_number]
  | word h =>
      have hcode : Place.afterCode (.char c) = .code :=
        coded_isWordChar.afterCode (isWordChar_of_isWordStart h)
      have hupper : isWordStart c.toUpper = true := (caseless_isWordStart (.char c)).trans h
      rw [hcode, (Lexed.word hupper).eq, coded_isWordChar.takeWhile, coded_isWordChar.dropWhile]
      show (Except.ok (some (Token.word
        (((.char c :: cs.takeWhile isWordChar).map capital).map capital))), _) = _
      rw [map_capital_capital]
      rfl
  | skipped hsymbol hmark hcomparison hnumber hword =>
      -- a letter would start a word
      have hlower : c.isLower = false := Bool.eq_false_iff.2 fun hlower => by
        simp [isWordStart, isAlpha_of_isLower hlower] at hword
      have hcode : Place.afterCode (.char c) = .code := afterCode_eq (by simp_all) (by simp_all)
      rw [hcode, toUpper_of_not_isLower hlower]
      exact (Lexed.skipped hsymbol hmark hcomparison (by rwa [startsWithDigit_folded]) hword).eq

/-- One token of a folded text is the token, folded, and the rest is the rest,
    folded. -/
theorem lex_folded (depth : Int) (afterValue : Bool) (c : CodePoint) (cs : Text) :
    lex depth afterValue (capital c) (foldedFrom (.afterCode c) cs)
      = ((lex depth afterValue c cs).1.map (Option.map folded),
        foldedFrom .code (lex depth afterValue c cs).2) := by
  cases c with
  | half n => rfl
  | char c =>
      have hblank : isBlank (.char c.toUpper) = isBlank (.char c) := caseless_isBlank (.char c)
      show (if isBlank (.char c.toUpper) then _ else _) = _
      rw [hblank, lex]
      by_cases h : isBlank (.char c) = true
      · have hcode : Place.afterCode (.char c) = .code :=
          afterCode_eq (by rintro hc; cases hc; cases h) (by rintro hc; cases hc; cases h)
        rw [if_pos h, if_pos h, hcode]
        rfl
      · rw [if_neg h, if_neg h]
        exact (lexed depth afterValue c cs).folded

/-- A token opens and closes as many brackets when its variable is in capitals. -/
theorem depthAfter_folded (depth : Int) (t : Token) :
    t.folded.depthAfter depth = t.depthAfter depth := by
  cases t <;> rfl

/-- A token ends a value exactly if it does so folded. -/
theorem endsValue_folded (t : Token) : t.folded.endsValue = t.endsValue := by
  cases t <;> rfl

/-- The tokens of a folded text are the tokens of the text, folded. -/
theorem scan_folded (depth : Int) (afterValue : Bool) (t : Text) :
    scan depth afterValue (foldedFrom .code t)
      = (scan depth afterValue t).map (List.map folded) := by
  fun_induction scan depth afterValue t with
  | case1 => rw [foldedFrom, scan]; rfl
  | case2 depth afterValue c cs f rest hlex =>
      have hfold := lex_folded depth afterValue c cs
      rw [hlex] at hfold
      rw [foldedFrom_code, scan_of_error hfold]
      rfl
  | case3 depth afterValue c cs rest hlex _ ih =>
      have hfold := lex_folded depth afterValue c cs
      rw [hlex] at hfold
      rw [foldedFrom_code, scan_of_none hfold, ih]
  | case4 depth afterValue c cs t rest hlex _ ih =>
      have hfold := lex_folded depth afterValue c cs
      rw [hlex] at hfold
      rw [foldedFrom_code, scan_of_some hfold, depthAfter_folded, endsValue_folded, ih]
      cases scan (t.depthAfter depth) t.endsValue rest <;> rfl

/-- Scanning a folded text folds the tokens. -/
theorem tokenize_folded (source : Text) :
    tokenize (Text.folded source) = (tokenize source).map (List.map folded) :=
  scan_folded 0 false source

end Token

/-! ## Names -/

/-- Spellings that differ at most in the case of ASCII letters. -/
def Recase (a b : Text) : Prop := a.map Token.capital = b.map Token.capital

/-- All capitals are the same whether a letter was put in ASCII capitals before or
    not. -/
theorem Text.upperPoint_capital (c : CodePoint) : upperPoint (Token.capital c) = upperPoint c := by
  cases c with
  | half n => rfl
  | char c =>
      show upperChar c.toUpper = upperChar c
      cases h : c.isLower with
      | false => rw [toUpper_of_not_isLower h]
      | true =>
          have hupper := isUpper_toUpper h
          have hrange := Token.toNat_of_isAlpha (c := c) (isAlpha_of_isLower h)
          have hrange' := Token.toNat_of_isAlpha (c := c.toUpper) (isAlpha_of_isUpper hupper)
          rw [upperChar_of_ascii (by omega), upperChar_of_ascii (by omega),
            toUpper_toUpper]

/-- Such spellings are the same in capitals. -/
theorem Recase.upper {a b : Text} (h : Recase a b) : Text.upper a = Text.upper b := by
  have hmap : ∀ a : Text, Text.upper a = Text.upper (a.map Token.capital) := by
    intro a
    rw [Text.upper, Text.upper, List.flatMap_map]
    exact congrArg (a.flatMap ·) (funext fun c => (Text.upperPoint_capital c).symm)
  rw [hmap a, hmap b, h]

/-- Tokens that are folded to the same token are alike. -/
theorem Token.like_of_folded {t u : Token} (h : t.folded = u.folded) : t.Like Recase u := by
  have heq : ∀ {t u : Token}, t = u → t.Like Recase u := by
    rintro t _ rfl
    exact .same t
  cases t with
  | varref a =>
      cases u with
      | varref b => exact .varref (Token.varref.inj h)
      | _ => cases h
  | _ =>
      cases u with
      | varref b => cases h
      | _ => exact heq h

/-- Lists of tokens that are folded to the same list are alike. -/
theorem tokensLike_of_folded {ts us : List Token} (h : ts.map Token.folded = us.map Token.folded) :
    TokensLike Recase ts us := by
  induction ts generalizing us with
  | nil =>
      cases us with
      | nil => exact .nil
      | cons u us => cases h
  | cons t ts ih =>
      cases us with
      | nil => cases h
      | cons u us =>
          rw [List.map_cons, List.map_cons, List.cons.injEq] at h
          exact .cons (Token.like_of_folded h.1) (ih h.2)

/-- Texts that are folded to the same text have tokens that differ at most in
    the case of the names of variables. -/
theorem matched_tokenize {s t : Text} (h : Text.folded s = Text.folded t) :
    Matched (TokensLike Recase) (Token.tokenize s) (Token.tokenize t) := by
  have hmap : (Token.tokenize s).map (List.map Token.folded)
      = (Token.tokenize t).map (List.map Token.folded) := by
    rw [← Token.tokenize_folded, ← Token.tokenize_folded, h]
  generalize hs : Token.tokenize s = r at hmap
  generalize Token.tokenize t = r' at hmap
  cases r with
  | ok ts =>
      cases r' with
      | ok us => exact .ok (tokensLike_of_folded (Except.ok.inj hmap))
      | error f => cases hmap
  | error f =>
      cases r' with
      | ok us => cases hmap
      | error g =>
          cases hmap
          exact .error (Token.unlimited_tokenize hs)

/-! ## Runs -/

namespace Session

/-- Worlds that differ at most in how names are spelled in the bodies of
    procedures. -/
structure Recased (w v : World) : Prop where
  store : w.store.Like Recase v.store
  rest : { w with store := v.store } = v

theorem Recased.refl (w : World) : Recased w w := ⟨.refl _, rfl⟩

namespace Recased

variable {w v : World} (h : Recased w v)
include h

/-- A change of anything but the names. -/
theorem change (g : World → World) (hstore : ∀ w, (g w).store = w.store)
    (hrest : ∀ w s, { g w with store := s } = g { w with store := s }) : Recased (g w) (g v) := by
  refine ⟨?_, ?_⟩
  · rw [hstore, hstore]
    exact h.store
  · rw [hstore, hrest, h.rest]

/-- Stores that are alike make worlds that are recased. -/
theorem names {s t : Store} (hst : s.Like Recase t) :
    Recased { w with store := s } { v with store := t } :=
  ⟨hst, congrArg (fun v : World => { v with store := t }) h.rest⟩

/-- Recased worlds are close and heed the same. -/
theorem close : Close w v ∧ Heeds w v := by
  have hclose : ∀ s, { w with store := s } = v → Close w v ∧ Heeds w v := by
    rintro s rfl
    exact ⟨⟨rfl, rfl, rfl, rfl, rfl, rfl, rfl⟩, rfl, rfl, rfl⟩
  exact hclose _ h.rest

theorem running : w.running = v.running :=
  (congrArg World.running h.rest :)

end Recased

/-- Runs of a program in two spellings. -/
def recasing : Pairing where
  spelled := Recase
  fits _ := True
  rel w v := Recased w v ∧ v.running = true
  allowed _ := True
  draws _ := True
  asks _ := True

/-- Everything that a host does to recased worlds leaves them recased. -/
theorem hostLaws_recasing : recasing.HostLaws where
  upper _ _ := Recase.upper
  allowed _ _ := trivial
  close hr := hr.1.close.1
  store hr := ⟨hr.1.store, fun _ _ => trivial⟩
  undefined n hr := ⟨hr.1.change (fun w => { w with undefined := n }) (fun _ => rfl) fun _ _ => rfl,
    hr.2⟩
  draw hr := ⟨hr.1.change Aside.draw.apply (fun _ => rfl) fun _ _ => rfl, hr.2⟩
  question prompt hr :=
    ⟨hr.1.change (Aside.question prompt).apply (fun _ => rfl) fun _ _ => rfl, hr.2⟩
  replies rs hr := ⟨hr.1.change (Aside.replies rs).apply (fun _ => rfl) fun _ _ => rfl, hr.2⟩
  names hr hst _ := ⟨hr.1.names hst, hr.2⟩
  pacer {_ _ q} hr _ :=
    ⟨hr.1.change (fun w => { w with pacer := q }) (fun _ => rfl) fun _ _ => rfl, hr.2⟩
  canvas {_ _ _ _ d j} _ hr _ :=
    ⟨hr.1.change (fun w => { w with canvas := d, undefined := j }) (fun _ => rfl) fun _ _ => rfl,
      hr.2⟩
  tell _ := trivial
  beginFill := trivial
  endFill := trivial
  cancelFill := trivial
  running hr := ⟨hr.1.running.trans hr.2, hr.2⟩
  heeds hr := hr.1.close.2
  asked _ _ _ _ _ := trivial
  said text mode hr _ :=
    ⟨hr.1.change (printed text mode) (fun _ => by cases mode <;> rfl) fun _ _ => by
      cases mode <;> rfl, by cases mode <;> exact hr.2⟩
  heard text mode hr _ :=
    ⟨hr.1.change (heard text mode) (fun _ => by cases mode <;> rfl) fun _ _ => by
      cases mode <;> rfl, by cases mode <;> exact hr.2⟩
  panel q hr := ⟨hr.1.change (Aside.panel q).apply (fun _ => rfl) fun _ _ => rfl, hr.2⟩
  refused hr :=
    ⟨hr.1.change (fun w => { w with host := w.host.refuse }) (fun _ => rfl) fun _ _ => rfl, hr.2⟩
  window _ _ _ _ := trivial

/-- A run from recased worlds ends in recased worlds. -/
theorem between_recasing : recasing.Between Recased Recased where
  running hr := hr.running
  refused hr _ := hr
  started hr _ := ⟨hr.change started (fun _ => rfl) fun _ _ => rfl, rfl⟩
  ended hr := hr.1.change ended (fun _ => rfl) fun _ _ => rfl
  told message hr := hr.change (told message) (fun w => by rw [told]; split <;> rfl) fun w s => by
    by_cases h : w.host.listening = true
    · rw [told, told, if_pos h, if_pos h]
    · rw [told, told, if_neg h, if_neg h]

/-- Blocks in two spellings. -/
theorem block_recased (limits : Limits) (ts us : List Token) (h : TokensLike Recase ts us) :
    recasing.likeness.alike (Flow.Like Recase us.length) ((engine limits).block ts)
      ((engine limits).block us) :=
  (hostLaws_recasing.commands fun _ => trivial).block (fun _ => Pairing.Laws.throw trivial)
    (fun _ => trivial) limits ts us h

/-- Outside quoted words the case of letters does not matter. -/
theorem execute_folded (limits : Limits) {s t : Text} (h : Text.folded s = Text.folded t)
    (w : World) :
    Matched (TokensLike Recase) (Token.tokenize s) (Token.tokenize t)
      ∧ SameEnd Recased (run limits s w) (run limits t w)
      ∧ SameEnd Recased (execute limits s w) (execute limits t w) :=
  have hcode := matched_tokenize h
  ⟨hcode, between_recasing.runWith hcode (block_recased limits) (.refl w),
    between_recasing.executeWith hcode (block_recased limits) (.refl w)⟩

/-- The law at a program with a procedure, a comment and a quoted word. -/
theorem execute_folded_call : ∃ w, quietSession = .ok w ∧
    SameEnd Recased (execute ⟨40, 5⟩ "to F :x PRINT :X end f \"Ab ; as \"is" w)
      (execute ⟨40, 5⟩ "TO f :X print :x END F \"Ab ; AS \"Is" w) := by
  obtain ⟨w, hnew, -⟩ := quietSession_of (P := fun _ => true) rfl
  exact ⟨w, hnew, (execute_folded ⟨40, 5⟩ (by decide) w).2.2⟩

end Session

end TurtleLogo
