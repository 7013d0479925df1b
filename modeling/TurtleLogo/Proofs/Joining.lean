import TurtleLogo.Proofs.Literal

/-! # Programs one after the other

    A line end stops whatever is being read: a comment, a word, a number, a
    name, a quoted word even behind a backslash.  So each token of the first
    text is read from a longer text as it is read from the first alone
    (`lex_lineEnd`), and two texts with a line end between them give the tokens
    of the first and then those of the second (`scan_lineEnd`), where the second
    is scanned with what the first leaves behind: its bracket depth, and whether
    its last token ends a value.

    * The depth is the same where the brackets are balanced
      (`foldl_depthAfter`).
    * The last token matters only to a minus sign right before a digit, and only
      where it starts the first token (`scan_of_not_opensSigned`). -/

namespace TurtleLogo

/-! ## A place where reading stops -/

/-- A run ends before an item that is not of its kind. -/
theorem takeWhile_stop {α : Type} {p : α → Bool} {c : α} (hc : p c = false) (a b : List α) :
    (a ++ c :: b).takeWhile p = a.takeWhile p := by
  rw [List.takeWhile_append]
  split
  · rename_i hall
    rw [List.takeWhile_cons_of_neg (by simp [hc]), List.append_nil,
      (List.takeWhile_prefix p).eq_of_length hall]
  · rfl

/-- What is left after it begins there at the latest. -/
theorem dropWhile_stop {α : Type} {p : α → Bool} {c : α} (hc : p c = false) (a b : List α) :
    (a ++ c :: b).dropWhile p = a.dropWhile p ++ c :: b := by
  induction a with
  | nil => rw [List.nil_append, List.dropWhile_cons_of_neg (by simp [hc])]; rfl
  | cons d a ih =>
      rw [List.cons_append, List.dropWhile_cons, List.dropWhile_cons]
      split
      · exact ih
      · rfl

namespace Token

variable (a b : Text)

/-- A number ends before a line end. -/
theorem numericRun_lineEnd : numericRun (a ++ .char '\n' :: b) = numericRun a := by
  rw [numericRun, takeWhile_stop (p := isNumeric) rfl, numericRun]

/-- A line end is no digit. -/
theorem startsWithDigit_lineEnd :
    startsWithDigit (a ++ .char '\n' :: b) = startsWithDigit a := by
  cases a <;> rfl

/-- A comparison ends before a line end. -/
theorem takeComparison_lineEnd (c : Char) :
    takeComparison c (a ++ .char '\n' :: b)
      = ((takeComparison c a).1, (takeComparison c a).2 ++ .char '\n' :: b) := by
  -- a sign of one character is read as such, whatever is behind it
  have hsecond : ∀ {d : Char}, d ≠ '\n' → (∀ rest, a ≠ .char d :: rest) →
      ∀ rest, a ++ .char '\n' :: b ≠ .char d :: rest := by
    intro d hd hnone rest hrest
    cases a with
    | nil => exact hd (CodePoint.char.inj (List.cons.inj hrest).1).symm
    | cons p a => exact hnone a (congrArg (· :: a) (List.cons.inj hrest).1)
  fun_cases takeComparison c a with
  | case4 a heq hgt =>
      have heq := hsecond (d := '=') (by decide) heq
      have hgt := hsecond (d := '>') (by decide) hgt
      generalize a ++ .char '\n' :: b = t at heq hgt
      simp only [takeComparison]
  | case5 a heq =>
      have heq := hsecond (d := '=') (by decide) heq
      generalize a ++ .char '\n' :: b = t at heq
      simp only [takeComparison]
  | case6 =>
      simp only [takeComparison]
      split <;> simp_all
  | _ => rfl

/-- A quoted word ends before a line end. -/
theorem takeQuoted_lineEnd :
    takeQuoted (a ++ .char '\n' :: b)
      = ((takeQuoted a).1, (takeQuoted a).2 ++ .char '\n' :: b) := by
  fun_induction takeQuoted a with
  | case1 a r ih =>
      show (CodePoint.char ' ' :: (takeQuoted (a ++ .char '\n' :: b)).1,
        (takeQuoted (a ++ .char '\n' :: b)).2) = _
      rw [ih]
  | case2 c a hspace hstop => exact takeQuoted_stop _ hstop
  | case3 c a hspace hstop r ih =>
      have hplain : ∀ ds, c = .char '\\' → a ++ .char '\n' :: b ≠ .char ' ' :: ds := by
        intro ds hc hds
        cases a with
        | nil => exact absurd (List.cons.inj hds).1 (by decide)
        | cons d a => exact hspace a hc (congrArg (· :: a) (List.cons.inj hds).1)
      rw [List.cons_append, takeQuoted_plain hstop hplain, ih]
  | case4 => exact takeQuoted_stop b rfl

/-- Every token ends before a line end. -/
theorem Lexed.lineEnd {depth : Int} {afterValue : Bool} {c : Char} {a : Text}
    {r : Except Fault (Option Token) × Text} (h : Lexed depth afterValue a c r) (b : Text) :
    lexChar depth afterValue c (a ++ .char '\n' :: b) = (r.1, r.2 ++ .char '\n' :: b) := by
  cases h with
  | comment => rw [Lexed.comment.eq, dropWhile_stop (p := fun c : CodePoint => c != .char '\n') rfl]
  | symbol h => exact (Lexed.symbol h).eq
  | signed h =>
      rw [(Lexed.signed (by rwa [startsWithDigit_lineEnd])).eq, numericRun_lineEnd,
        dropWhile_stop (p := isNumeric) rfl]
  | minus h => exact (Lexed.minus (by rwa [startsWithDigit_lineEnd])).eq
  | name =>
      rw [Lexed.name.eq, takeWhile_stop (p := isNameChar) rfl, dropWhile_stop (p := isNameChar) rfl]
  | quoted => rw [Lexed.quoted.eq, takeQuoted_lineEnd]
  | comparison h => rw [(Lexed.comparison h).eq, takeComparison_lineEnd]
  | number h =>
      rw [(Lexed.number (by rwa [startsWithDigit_lineEnd])).eq, ← List.cons_append,
        numericRun_lineEnd, dropWhile_stop (p := isNumeric) rfl]
  | word h =>
      rw [(Lexed.word h).eq, takeWhile_stop (p := isWordChar) rfl,
        dropWhile_stop (p := isWordChar) rfl]
  | skipped hsymbol hmark hcomparison hnumber hword =>
      exact (Lexed.skipped hsymbol hmark hcomparison (by rwa [startsWithDigit_lineEnd]) hword).eq

variable (depth : Int) (afterValue : Bool)

/-- A token is read from a longer text as it is read from the text before the
    line end. -/
theorem lex_lineEnd (c : CodePoint) :
    lex depth afterValue c (a ++ .char '\n' :: b)
      = ((lex depth afterValue c a).1, (lex depth afterValue c a).2 ++ .char '\n' :: b) := by
  cases c with
  | half n => rfl
  | char c =>
      rw [lex, lex]
      by_cases h : Text.isBlank (.char c) = true
      · rw [if_pos h, if_pos h]
      · rw [if_neg h, if_neg h]
        exact (lexed depth afterValue c a).lineEnd b

/-! ## Whole texts -/

/-- The second text is scanned with the bracket depth of the first and with its
    last token in mind. -/
theorem scan_lineEnd :
    scan depth afterValue (a ++ .char '\n' :: b)
      = (do
          let ts ← scan depth afterValue a
          let us ← scan (ts.foldl depthAfter depth) (ts.foldl (fun _ t => t.endsValue) afterValue) b
          .ok (ts ++ us)) := by
  fun_induction scan depth afterValue a with
  | case1 depth afterValue =>
      have hblank : scan depth afterValue (.char '\n' :: b) = scan depth afterValue b :=
        scan_of_none rfl
      rw [List.nil_append, hblank]
      show scan depth afterValue b = scan depth afterValue b >>= Except.ok
      exact (bind_pure (scan depth afterValue b)).symm
  | case2 depth afterValue c a f rest hlex =>
      rw [List.cons_append, scan_of_error (by rw [lex_lineEnd, hlex])]
      rfl
  | case3 depth afterValue c a rest hlex _ ih =>
      rw [List.cons_append, scan_of_none (by rw [lex_lineEnd, hlex]), ih]
  | case4 depth afterValue c a t rest hlex _ ih =>
      rw [List.cons_append, scan_of_some (by rw [lex_lineEnd, hlex]), ih]
      cases scan (t.depthAfter depth) t.endsValue rest with
      | error f => rfl
      | ok ts =>
          show Except.map (t :: ·) (scan (ts.foldl depthAfter (t.depthAfter depth))
              (ts.foldl (fun _ t => t.endsValue) t.endsValue) b >>= fun us => .ok (ts ++ us))
            = (scan (ts.foldl depthAfter (t.depthAfter depth))
              (ts.foldl (fun _ t => t.endsValue) t.endsValue) b >>= fun us => .ok (t :: ts ++ us))
          cases scan (ts.foldl depthAfter (t.depthAfter depth))
            (ts.foldl (fun _ t => t.endsValue) t.endsValue) b <;> rfl

/-- The depth behind tokens counts their brackets. -/
theorem foldl_depthAfter (ts : List Token) :
    ts.foldl depthAfter depth
      = depth + ts.count .openBracket - ts.count .closeBracket := by
  induction ts generalizing depth with
  | nil => simp
  | cons t ts ih =>
      rw [List.foldl_cons, ih]
      cases t <;> simp [depthAfter] <;> omega

/-- Whether the tokens end a value depends on the last one. -/
theorem foldl_endsValue (ts : List Token) :
    ts.foldl (fun _ t => t.endsValue) afterValue
      = (ts.getLast?.map endsValue).getD afterValue := by
  induction ts generalizing afterValue with
  | nil => rfl
  | cons t ts ih =>
      rw [List.foldl_cons, ih]
      cases ts with
      | nil => rfl
      | cons u ts => rw [List.getLast?_cons_cons]; simp [List.getLast?_cons]

/-! ## Minus signs -/

/-- Whether the first token of a text starts with a minus sign right before a
    digit. -/
def opensSigned : Text → Bool
  | [] => false
  | c :: cs =>
      match h : lex 0 false c cs with
      | (.ok none, rest) =>
          have : rest.length < cs.length + 1 := by
            have := lex_length_le 0 false c cs
            rw [h] at this
            exact Nat.lt_succ_of_le this
          opensSigned rest
      | _ => c == .char '-' && startsWithDigit cs
termination_by cs => cs.length

/-- Only a minus sign right before a digit is read with the token before it in
    mind. -/
theorem lex_of_unsigned {c : CodePoint} {cs : Text}
    (h : (c == .char '-' && startsWithDigit cs) = false) (before after : Bool) :
    lex depth before c cs = lex depth after c cs := by
  cases c with
  | half n => rfl
  | char c =>
      rw [lex, lex]
      split
      · rfl
      · by_cases hc : c = '-'
        · subst hc
          have hdigit : startsWithDigit cs = false := h
          simp only [lexChar, hdigit, Bool.false_and]
        · simp only [lexChar]
          split
          all_goals first | rfl | exact absurd rfl hc

/-- Such a minus sign starts a number, unless it follows a value. -/
theorem lex_of_signed {c : CodePoint} {cs rest : Text}
    (h : (c == .char '-' && startsWithDigit cs) = true) :
    lex 0 false c cs ≠ (.ok none, rest) := by
  obtain ⟨hc, hdigit⟩ := Bool.and_eq_true _ _ ▸ h
  rw [beq_iff_eq.1 hc]
  show lexChar 0 false '-' cs ≠ (.ok none, rest)
  rw [(Lexed.signed (by rw [hdigit]; rfl)).eq]
  cases readRun true (numericRun cs) <;> simp [Except.map]

/-- Without such a minus sign at its start a text is scanned alike after any token. -/
theorem scan_of_not_opensSigned {t : Text} (h : opensSigned t = false) (afterValue : Bool) :
    scan 0 afterValue t = scan 0 false t := by
  fun_induction opensSigned t with
  | case1 => rw [scan, scan]
  | case2 c cs rest hlex _ ih =>
      have hunsigned : (c == .char '-' && startsWithDigit cs) = false :=
        Bool.eq_false_iff.2 fun hsigned => lex_of_signed hsigned hlex
      rw [scan_of_none hlex, scan_of_none ((lex_of_unsigned 0 hunsigned _ false).trans hlex), ih h]
  | case3 c cs hlex =>
      have hsame := lex_of_unsigned 0 h afterValue false
      cases hread : lex 0 false c cs with
      | mk r rest =>
          rw [hread] at hsame
          rcases r with f | - | t
          · rw [scan_of_error hread, scan_of_error hsame]
          · exact absurd hread (hlex rest)
          · rw [scan_of_some hread, scan_of_some hsame]

/-! ## Two programs -/

/-- What the tokens of one text leave behind does not matter to another. -/
structure Joins (ts : List Token) (b : Text) : Prop where
  balanced : ts.count .openBracket = ts.count .closeBracket
  apart : (∀ t, ts.getLast? = some t → t.endsValue = false) ∨ opensSigned b = false

/-- A text that joins on to some tokens is scanned after them as it is alone. -/
theorem Joins.scan {ts : List Token} {b : Text} (h : Joins ts b) :
    scan (ts.foldl depthAfter 0) (ts.foldl (fun _ t => t.endsValue) false) b = tokenize b := by
  have hdepth : (0 : Int) + ts.count .openBracket - ts.count .closeBracket = 0 := by
    rw [h.balanced, Int.zero_add, Int.sub_self]
  rw [foldl_depthAfter, hdepth]
  obtain hlast | hsigned := h.apart
  · have hvalue : (ts.getLast?.map endsValue).getD false = false := by
      cases hts : ts.getLast? with
      | none => rfl
      | some t => exact hlast t hts
    rw [foldl_endsValue, hvalue]
    rfl
  · exact scan_of_not_opensSigned hsigned _

/-- Two texts with a line end between them give the tokens of the first and then
    those of the second, and they can be read where no whole number in them is too
    long. -/
theorem tokenize_joined (a b : Text) (h : ∀ ts, tokenize a = .ok ts → Joins ts b) :
    tokenize (a ++ .char '\n' :: b)
        = (do
            let ts ← tokenize a
            let us ← tokenize b
            .ok (ts ++ us))
      ∧ ((∀ f, ¬LongNumber f a) → (∀ f, ¬LongNumber f b) →
          ∃ ts us, tokenize a = .ok ts ∧ tokenize b = .ok us
            ∧ tokenize (a ++ .char '\n' :: b) = .ok (ts ++ us)) := by
  have hjoin : tokenize (a ++ .char '\n' :: b)
      = (do
          let ts ← tokenize a
          let us ← tokenize b
          .ok (ts ++ us)) := by
    rw [tokenize, scan_lineEnd]
    cases ha : scan 0 false a with
    | error f => simp only [tokenize, ha]; rfl
    | ok ts =>
        have hsecond := (h ts ha).scan
        simp only [tokenize, ha, bind, Except.bind] at hsecond ⊢
        rw [hsecond]
  refine ⟨hjoin, fun ha hb => ?_⟩
  cases hta : tokenize a with
  | error f => exact absurd (tokenize_error hta) (ha f)
  | ok ts =>
      cases htb : tokenize b with
      | error f => exact absurd (tokenize_error htb) (hb f)
      | ok us => exact ⟨ts, us, rfl, rfl, by rw [hjoin, hta, htb]; rfl⟩

/-- The law at a backslash before the line end and a minus sign after it. -/
theorem tokenize_joined_quoted :
    tokenize (Text.ofString "] [ SHOW \"A\\" ++ .char '\n' :: Text.ofString "-5")
      = .ok [.closeBracket, .openBracket, .word "SHOW", .quoted "A\\", .number (.int (-5))] := by
  have ha : tokenize "] [ SHOW \"A\\"
      = .ok [.closeBracket, .openBracket, .word "SHOW", .quoted "A\\"] :=
    Except.ok_of_toOption (by decide +kernel)
  have hb : tokenize "-5" = .ok [.number (.int (-5))] := Except.ok_of_toOption (by decide +kernel)
  have hjoins : Joins [.closeBracket, .openBracket, .word "SHOW", .quoted "A\\"] "-5" :=
    ⟨by decide, .inl fun t ht => by cases ht; rfl⟩
  rw [(tokenize_joined _ _ fun ts hts => ?_).1, ha, hb]
  · rfl
  · rw [ha] at hts
    cases hts
    exact hjoins

end Token

end TurtleLogo
