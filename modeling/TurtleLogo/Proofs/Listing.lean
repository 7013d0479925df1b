import TurtleLogo.Proofs.Boundary
import TurtleLogo.Proofs.Literal
import TurtleLogo.Proofs.Numeral

/-! # Lists that read back

    A list of whole numbers, bare words and such lists is shown as a list
    literal with the same value, however deep it nests.

    * `Shows` says of a value what its text is, how that text is scanned and how
      the tokens are matched and assembled again; `ShowsItems` says the same of
      the items of a list.  There is one lemma for each kind of value and two
      for items.
    * A minus sign belongs to the number after it, because an item of a list is
      always scanned within brackets.
    * An item ends before a space or a closing bracket (`Ends`), so two items do
      not run together. -/

namespace TurtleLogo

/-! ## Literals -/

/-- The first character of a word in capitals. -/
def isBareStart (c : CodePoint) : Bool :=
  c.satisfies fun c => c.isUpper || c == '_' || c == '?'

/-- The characters of a word in capitals. -/
def isBareChar (c : CodePoint) : Bool :=
  c.satisfies fun c => c.isUpper || c.isDigit || c == '_' || c == '?'

/-- A word in capitals, as scanning gives it. -/
def isBareWord : Text → Bool
  | [] => false
  | c :: cs => isBareStart c && cs.all isBareChar

/-- A value that can be written down: a whole number that is not too long, a
    word in capitals, or a list of such values. -/
inductive Value.Literal : Value → Prop where
  | number {n : Int} (h : n.natAbs < Number.tooLong) : Literal (.number (.int n))
  | word {s : Text} (h : isBareWord s = true) : Literal (.word s)
  | list {items : List Value} (h : ∀ v ∈ items, Literal v) : Literal (.list items)

/-- A text before which an item ends. -/
def Ends (rest : Text) : Prop := ∀ c ∈ rest.head?, c = .char ' ' ∨ c = .char ']'

/-- Before an end nothing goes on that goes on at neither a space nor a bracket. -/
theorem Ends.stops {rest : Text} (h : Ends rest) {p : CodePoint → Bool} (hspace : p (.char ' ') = false)
    (hclose : p (.char ']') = false) : ∀ c ∈ rest.head?, p c = false := by
  intro c hc
  obtain rfl | rfl := h c hc
  · exact hspace
  · exact hclose

namespace Token

/-! ## Atoms -/

/-- A run of digits that is not too long is read as its number. -/
theorem readRun_digits (neg : Bool) {ds : List Char} (hds : ∀ d ∈ ds, d.isDigit = true)
    (hshort : ds.length ≤ Number.digitLimit) :
    readRun neg ds = .ok (.int (if neg then -(Number.ofDigits ds : Int) else Number.ofDigits ds)) := by
  obtain ⟨htake, hdrop⟩ := Number.takeWhile_isDigit ds [] hds (by rintro d ⟨⟩)
  rw [List.append_nil] at htake hdrop
  rw [readRun]
  simp only [htake, hdrop, if_neg (Nat.not_lt.2 hshort)]

/-- Digits before the end of an item are read to the last. -/
theorem numericRun_digits {ds : List Char} (hds : ∀ d ∈ ds, d.isDigit = true) {rest : Text}
    (hrest : Ends rest) :
    numericRun (Text.ofChars ds ++ rest) = ds
      ∧ (Text.ofChars ds ++ rest).dropWhile isNumeric = rest := by
  have hnumeric : ∀ c ∈ Text.ofChars ds, isNumeric c = true := by
    intro c hc
    obtain ⟨d, hd, rfl⟩ := List.mem_map.1 hc
    show (d.isDigit || d == '.') = true
    rw [hds d hd, Bool.true_or]
  obtain ⟨htake, hdrop⟩ := takeWhile_head hnumeric (hrest.stops (p := isNumeric) rfl rfl)
  exact ⟨by rw [numericRun, htake, Text.chars?_ofChars]; rfl, hdrop⟩

/-- Within brackets a whole number is read from its digits, up to the end of an
    item. -/
theorem lex_number {n : Int} (hn : n.natAbs < Number.tooLong) {depth : Int} (hdepth : 0 < depth)
    (afterValue : Bool) {rest : Text} (hrest : Ends rest) :
    ∃ c cs, Number.digits n ++ rest = c :: cs
      ∧ lex depth afterValue c cs = (.ok (some (.number (.int n))), rest) := by
  have hshort : (Nat.toDigits 10 n.natAbs).length ≤ Number.digitLimit :=
    Number.lt_tooLong_iff.1 hn
  have hvalue := Number.ofDigits_toDigits n.natAbs
  have hdigits : ∀ c ∈ Nat.toDigits 10 n.natAbs, c.isDigit = true :=
    fun c hc => Number.isDigit_toDigits hc
  obtain ⟨d, ds, hds⟩ := List.exists_cons_of_ne_nil (Nat.toDigits_ne_nil (n := n.natAbs) (b := 10))
  rw [hds] at hshort hvalue hdigits
  obtain ⟨hrun, hdrop⟩ := numericRun_digits hdigits hrest
  have hd : d.isDigit = true := hdigits d List.mem_cons_self
  by_cases hneg : n < 0
  · refine ⟨.char '-', Text.ofChars (d :: ds) ++ rest, ?_, ?_⟩
    · rw [Number.digits, if_pos hneg, hds]
      rfl
    · have hsign : (startsWithDigit (Text.ofChars (d :: ds) ++ rest)
          && (decide (0 < depth) || !afterValue)) = true := by
        rw [decide_eq_true hdepth, Bool.true_or, Bool.and_true]
        exact hd
      have habs : -(n.natAbs : Int) = n := by omega
      show lexChar depth afterValue '-' (Text.ofChars (d :: ds) ++ rest) = _
      rw [(Lexed.signed hsign).eq, hrun, hdrop, readRun_digits true hdigits hshort, hvalue,
        if_pos rfl, habs]
      rfl
  · refine ⟨.char d, Text.ofChars ds ++ rest, ?_, ?_⟩
    · rw [Number.digits, if_neg hneg, hds]
      rfl
    · have hrest' := (numericRun_digits (fun c hc => hdigits c (List.mem_cons_of_mem d hc)) hrest).2
      have htext : CodePoint.char d :: (Text.ofChars ds ++ rest) = Text.ofChars (d :: ds) ++ rest :=
        rfl
      have habs : (n.natAbs : Int) = n := by omega
      rw [lex, isBlank_of_isDigit hd, if_neg Bool.false_ne_true,
        lexChar_digit depth afterValue hd, htext, hrun, readRun_digits false hdigits hshort, hvalue,
        hrest', if_neg Bool.false_ne_true, habs]
      rfl

/-- A capital word starts like a bare word. -/
theorem isWordStart_of_bare {c : Char} (h : isBareStart (.char c) = true) :
    isWordStart c = true := by
  have hc : (c.isUpper || c == '_' || c == '?') = true := h
  rw [Bool.or_eq_true, Bool.or_eq_true] at hc
  rw [isWordStart, Bool.or_eq_true, Bool.or_eq_true]
  exact hc.imp_left (Or.imp_left isAlpha_of_isUpper)

/-- What starts a capital word can stand in it. -/
theorem isBareChar_of_start {c : CodePoint} (h : isBareStart c = true) : isBareChar c = true := by
  cases c with
  | half n => cases h
  | char c =>
      have hc : (c.isUpper || c == '_' || c == '?') = true := h
      show (c.isUpper || c.isDigit || c == '_' || c == '?') = true
      revert hc
      cases c.isUpper <;> cases c.isDigit <;> simp

/-- What stands in a capital word can stand in a bare word. -/
theorem isWordChar_of_bare {c : CodePoint} (h : isBareChar c = true) : isWordChar c = true := by
  cases c with
  | half n => cases h
  | char c =>
      have hc : (c.isUpper || c.isDigit || c == '_' || c == '?') = true := h
      show (c.isUpper || c.isLower || c.isDigit || c == '_' || c == '?') = true
      revert hc
      cases c.isUpper <;> cases c.isLower <;> cases c.isDigit <;> simp

/-- Scanning puts a word in capitals, so one in capitals stays as it is. -/
theorem capital_of_bare {c : CodePoint} (h : isBareChar c = true) : capital c = c := by
  cases c with
  | half n => cases h
  | char c =>
      refine congrArg CodePoint.char (toUpper_of_not_isLower ?_)
      have hc : (c.isUpper || c.isDigit || c == '_' || c == '?') = true := h
      simp only [Bool.or_eq_true, beq_iff_eq] at hc
      obtain ((hc | hc) | rfl) | rfl := hc
      · exact not_isLower_of_isUpper hc
      · refine Bool.eq_false_iff.2 fun hlower => ?_
        have hdigit := Char.isDigit_iff_toNat.1 hc
        have hrange := isLower_iff.1 hlower
        simp at hdigit
        omega
      · rfl
      · rfl

/-- A word in capitals is read as it stands, up to the end of an item. -/
theorem lex_word {s : Text} (hs : isBareWord s = true) (depth : Int) (afterValue : Bool)
    {rest : Text} (hrest : Ends rest) :
    ∃ c cs, s ++ rest = c :: cs
      ∧ lex depth afterValue c cs = (.ok (some (.word s)), rest) := by
  cases s with
  | nil => cases hs
  | cons p s =>
      rw [isBareWord, Bool.and_eq_true] at hs
      obtain ⟨hstart, hchars⟩ := hs
      refine ⟨p, s ++ rest, rfl, ?_⟩
      cases p with
      | half n => cases hstart
      | char c =>
          have hbare : ∀ p ∈ CodePoint.char c :: s, isBareChar p = true :=
            List.forall_mem_cons.2 ⟨isBareChar_of_start hstart, List.all_eq_true.1 hchars⟩
          have hword : ∀ p ∈ s, isWordChar p = true :=
            fun p hp => isWordChar_of_bare (hbare p (List.mem_cons_of_mem _ hp))
          have hcapital : (CodePoint.char c :: s).map capital = CodePoint.char c :: s := by
            conv_rhs => rw [← List.map_id (CodePoint.char c :: s)]
            exact List.map_congr_left fun p hp => capital_of_bare (hbare p hp)
          have hc := isWordStart_of_bare hstart
          obtain ⟨htake, hdrop⟩ := takeWhile_head hword (hrest.stops (p := isWordChar) rfl rfl)
          rw [lex, isBlank_of_isWordStart hc, if_neg Bool.false_ne_true,
            lexChar_word depth afterValue hc, htake, hdrop, hcapital]

end Token

/-! ## Shown values -/

open Token

/-- Tokens with balanced brackets are passed over in the search for a partner. -/
def Balanced (ts : List Token) : Prop :=
  ∀ depth rest, splitClose depth (ts ++ rest)
    = (splitClose depth rest).map fun r => (ts ++ r.1, r.2)

/-- A text is scanned to some tokens within brackets, where a value is what the
    text before the end of an item should leave behind. -/
def Scans (t : Text) (ts : List Token) : Prop :=
  ∀ {depth : Int}, 0 < depth → ∀ afterValue {rest : Text}, Ends rest →
    scan depth afterValue (t ++ rest) = (scan depth true rest).map (ts ++ ·)

/-- The text, the tokens and the nesting of a value that reads back. -/
structure Shows (v : Value) (t : Text) (ts : List Token) (n : Nested) : Prop where
  shown : v.shown = .ok t
  scans : Scans t ts
  balanced : Balanced ts
  nested : ∀ stack current rest, Nested.assembleFrom stack current (ts ++ rest)
    = Nested.assembleFrom stack (n :: current) rest
  value : ∀ get, Nested.value get n = .ok v

/-- The same for the items of a list. -/
structure ShowsItems (vs : List Value) (parts : List Text) (ts : List Token) (ns : List Nested) :
    Prop where
  shown : Value.showns vs = .ok parts
  scans : ∀ {depth : Int}, 0 < depth → ∀ afterValue rest,
    scan depth afterValue (Text.joinWith " " parts ++ .char ']' :: rest)
      = (scan (depth - 1) true rest).map ((ts ++ [.closeBracket]) ++ ·)
  balanced : Balanced ts
  nested : ∀ stack current rest, Nested.assembleFrom stack current (ts ++ rest)
    = Nested.assembleFrom stack (ns.reverse ++ current) rest
  values : ∀ get, Nested.values get ns = .ok vs

/-- A whole number reads back. -/
theorem shows_number {n : Int} (h : n.natAbs < Number.tooLong) :
    Shows (.number (.int n)) (Number.digits n) [.number (.int n)] (.leaf (.number (.int n))) where
  shown := by
    rw [Value.shown, Value.atomText, Number.text, Number.intText_ok h]
    rintro _ ⟨⟩
  scans := by
    intro depth hdepth afterValue rest hrest
    obtain ⟨c, cs, htext, hlex⟩ := lex_number h hdepth afterValue hrest
    rw [htext, scan_of_some hlex]
    rfl
  balanced depth rest := by cases depth <;> rfl
  nested stack current rest := by cases stack <;> rfl
  value get := rfl

/-- A word in capitals reads back. -/
theorem shows_word {s : Text} (h : isBareWord s = true) :
    Shows (.word s) s [.word s] (.leaf (.word s)) where
  shown := rfl
  scans := by
    intro depth hdepth afterValue rest hrest
    obtain ⟨c, cs, htext, hlex⟩ := lex_word h depth afterValue hrest
    rw [htext, scan_of_some hlex]
    rfl
  balanced depth rest := by cases depth <;> rfl
  nested stack current rest := by cases stack <;> rfl
  value get := rfl

/-- No items read back as none. -/
theorem showsItems_nil : ShowsItems [] [] [] [] where
  shown := by rw [Value.showns]
  scans _ afterValue rest := scan_of_some rfl
  balanced depth rest := by
    show splitClose depth rest = (splitClose depth rest).map id
    rw [Option.map_id]
    rfl
  nested stack current rest := rfl
  values get := by rw [Nested.values]

/-- Two functions of a result are one after the other. -/
theorem Except.map_map {ε α β γ : Type} (r : Except ε α) (f : α → β) (g : β → γ) :
    (r.map f).map g = r.map fun a => g (f a) := by
  cases r <;> rfl

/-- Balanced tokens in a row are balanced. -/
theorem Balanced.append {ts us : List Token} (hts : Balanced ts) (hus : Balanced us) :
    Balanced (ts ++ us) := by
  intro depth rest
  rw [List.append_assoc, hts, hus, Option.map_map]
  refine congrArg (Option.map · _) (funext fun r => ?_)
  exact congrArg (·, r.2) (List.append_assoc ts us r.1).symm

/-- A space or the closing bracket of the list stands behind each item. -/
theorem ShowsItems.cons {vs : List Value} {parts : List Text} {ts : List Token} {ns : List Nested}
    (hvs : ShowsItems vs parts ts ns) {v : Value} {t : Text} {us : List Token} {n : Nested}
    (hv : Shows v t us n) :
    ShowsItems (v :: vs) (t :: parts) (us ++ ts) (n :: ns) where
  shown := by
    rw [Value.showns, hv.shown, hvs.shown]
    rfl
  scans := by
    intro depth hdepth afterValue rest
    have hitems : scan depth true (Text.joinWith " " parts ++ .char ']' :: rest) = _ :=
      hvs.scans hdepth true rest
    cases parts with
    | nil =>
        have hends : Ends (.char ']' :: rest) := by
          rintro c ⟨⟩
          exact .inr rfl
        have hclose : scan depth true (.char ']' :: rest) = _ := hitems
        rw [Text.joinWith, List.intercalate_singleton, hv.scans hdepth afterValue hends, hclose,
          Except.map_map]
        simp only [List.append_assoc]
    | cons p parts =>
        have hends : Ends (.char ' ' :: (Text.joinWith " " (p :: parts) ++ .char ']' :: rest)) := by
          rintro c ⟨⟩
          exact .inl rfl
        have hjoin : Text.joinWith " " (t :: p :: parts) ++ .char ']' :: rest
            = t ++ .char ' ' :: (Text.joinWith " " (p :: parts) ++ .char ']' :: rest) := by
          rw [Text.joinWith, List.intercalate_cons_cons, List.append_assoc, List.append_assoc]
          rfl
        rw [hjoin, hv.scans hdepth afterValue hends, scan_of_none rfl, hitems, Except.map_map]
        simp only [List.append_assoc]
  balanced := hv.balanced.append hvs.balanced
  nested stack current rest := by
    rw [List.append_assoc, hv.nested, hvs.nested, List.reverse_cons, List.append_assoc]
    rfl
  values get := by
    rw [Nested.values, hv.value, hvs.values]
    rfl

section

variable {vs : List Value} {parts : List Text} {ts : List Token} {ns : List Nested}
  (h : ShowsItems vs parts ts ns)
include h

/-- A whole list is scanned alike at the top and within brackets. -/
theorem ShowsItems.scan_list {depth : Int} (hdepth : 0 ≤ depth) (afterValue : Bool) (rest : Text) :
    scan depth afterValue ("[" ++ Text.joinWith " " parts ++ "]" ++ rest)
      = (scan depth true rest).map (.openBracket :: (ts ++ [.closeBracket]) ++ ·) := by
  have htext : Text.ofString "[" ++ Text.joinWith " " parts ++ Text.ofString "]" ++ rest
      = .char '[' :: (Text.joinWith " " parts ++ .char ']' :: rest) := by
    rw [List.append_assoc, List.append_assoc]
    rfl
  have hitems : scan (depth + 1) false (Text.joinWith " " parts ++ .char ']' :: rest)
      = (scan depth true rest).map ((ts ++ [.closeBracket]) ++ ·) := by
    rw [h.scans (Int.lt_add_one_of_le hdepth), Int.add_sub_cancel]
  rw [htext, scan_of_some rfl]
  show Except.map _ (scan (depth + 1) false _) = _
  rw [hitems, Except.map_map]
  rfl

/-- The brackets of a list are partners, with the items between them. -/
theorem ShowsItems.balanced_list : Balanced (.openBracket :: (ts ++ [.closeBracket])) := by
  intro depth rest
  have hopen : splitClose depth (.openBracket :: (ts ++ [.closeBracket]) ++ rest)
      = (splitClose (depth + 1) (ts ++ .closeBracket :: rest)).map
        fun r => (.openBracket :: r.1, r.2) := by
    rw [List.cons_append, List.append_assoc]
    cases depth <;> rfl
  rw [hopen, h.balanced]
  show ((((splitClose depth rest).map _).map _).map _) = _
  rw [Option.map_map, Option.map_map]
  refine congrArg (Option.map · _) (funext fun r => ?_)
  exact congrArg (.openBracket :: ·, r.2) (List.append_assoc ts [.closeBracket] r.1).symm

/-- A list of items that read back reads back. -/
theorem ShowsItems.list :
    Shows (.list vs) ("[" ++ Text.joinWith " " parts ++ "]")
      (.openBracket :: (ts ++ [.closeBracket])) (.group ns) where
  shown := by
    rw [Value.shown, h.shown]
    rfl
  scans hdepth afterValue rest _ := h.scan_list (Int.le_of_lt hdepth) afterValue rest
  balanced := h.balanced_list
  nested stack current rest := by
    show Nested.assembleFrom (current :: stack) [] (ts ++ [.closeBracket] ++ rest) = _
    rw [List.append_assoc, h.nested, List.append_nil]
    show Nested.assembleFrom stack (.group ns.reverse.reverse :: current) rest = _
    rw [List.reverse_reverse]
  value get := by
    rw [Nested.value, h.values]
    rfl

end

/-- Items that read back do so in a row. -/
theorem exists_showsItems {vs : List Value} (h : ∀ v ∈ vs, ∃ t ts n, Shows v t ts n) :
    ∃ parts ts ns, ShowsItems vs parts ts ns := by
  induction vs with
  | nil => exact ⟨_, _, _, showsItems_nil⟩
  | cons v vs ih =>
      obtain ⟨t, us, n, hv⟩ := h v List.mem_cons_self
      obtain ⟨parts, ts, ns, hvs⟩ := ih fun u hu => h u (List.mem_cons_of_mem v hu)
      exact ⟨_, _, _, hvs.cons hv⟩

/-- Every value that can be written down reads back. -/
theorem Value.Literal.shows {v : Value} (h : v.Literal) : ∃ t ts n, Shows v t ts n := by
  induction h with
  | number h => exact ⟨_, _, _, shows_number h⟩
  | word h => exact ⟨_, _, _, shows_word h⟩
  | list _ ih =>
      obtain ⟨parts, ts, ns, hitems⟩ := exists_showsItems ih
      exact ⟨_, _, _, hitems.list⟩

/-! ## Evaluation -/

namespace Session

/-- An operand at the end of the tokens is the whole expression. -/
theorem operations_of_last (level : Operator → Bool) {operand : List Token → SessionM Reading}
    {ts : List Token} {v : Value} (h : operand ts = pure (v, [])) :
    operations level operand ts = pure (v, []) := by
  rw [operations, h]
  rfl

variable {items : List Value} {parts : List Text} {ts : List Token} {ns : List Nested}

/-- The tokens of a list are a single value. -/
theorem primary_list (h : ShowsItems items parts ts ns) (E : Engine) (rest : List Token) :
    primary E (.openBracket :: (ts ++ [.closeBracket]) ++ rest) = pure (.list items, rest) := by
  have hinside : Token.inside (ts ++ [.closeBracket] ++ rest) = .ok (ts, rest) := by
    rw [Token.inside, List.append_assoc, h.balanced]
    show Except.ok (ts ++ [], rest) = _
    rw [List.append_nil]
  have hassemble : Nested.assemble ts = ns := by
    have hnested := h.nested [] [] []
    rw [List.append_nil, List.append_nil] at hnested
    rw [Nested.assemble, hnested]
    exact List.reverse_reverse ns
  funext w
  show (attempt (Token.inside (ts ++ [.closeBracket] ++ rest)) >>= fun r => store >>= fun s =>
    attempt (Nested.values s.get (Nested.assemble r.1)) >>= fun vs =>
      (pure (Value.list vs, r.2) : SessionM Reading)) w = _
  rw [hinside]
  show (attempt (Nested.values w.store.get (Nested.assemble ts)) >>= fun vs =>
    (pure (Value.list vs, rest) : SessionM Reading)) w = _
  rw [hassemble, h.values]
  rfl

/-- What `SHOW` gives for a list of whole numbers, words in capitals and such
    lists is, in any session, an expression with that list as its value and no
    tokens left. -/
theorem expression_shown (limits : Limits) (hdepth : 7 ≤ limits.depth) {items : List Value}
    (h : (Value.list items).Literal) (w : World) :
    ∃ t ts, (Value.list items).shown = .ok t ∧ Token.tokenize t = .ok ts
      ∧ (engine limits).expression ts w = .ok (.list items, []) w := by
  cases h with
  | list h =>
      obtain ⟨parts, ts, ns, hitems⟩ := exists_showsItems fun v hv => (h v hv).shows
      refine ⟨_, .openBracket :: (ts ++ [.closeBracket]), hitems.list.shown, ?_, ?_⟩
      · have hscan := hitems.scan_list (Int.le_refl 0) false []
        rw [List.append_nil, scan] at hscan
        rw [Token.tokenize, hscan]
        show Except.ok (.openBracket :: (ts ++ [.closeBracket]) ++ []) = _
        rw [List.append_nil]
      · obtain ⟨d, hd⟩ : ∃ d, limits.depth = d + 7 := ⟨limits.depth - 7, by omega⟩
        let E : Engine := ⟨expressionAt limits.patience d, blockAtDepth limits.patience d⟩
        have hunary : unary E (.openBracket :: (ts ++ [.closeBracket])) = pure (.list items, []) := by
          have hprimary := primary_list hitems E []
          rw [List.append_nil] at hprimary
          exact hprimary
        have hsum := operations_of_last isTermSign (operations_of_last isFactorSign hunary)
        show expressionAt limits.patience limits.depth _ w = _
        rw [hd, expressionAt]
        exact congrFun hsum w

/-- The law at a list of lists. -/
theorem expression_shown_nested : ∃ w, quietSession = .ok w
    ∧ ∃ ts, Token.tokenize "[[] [-7 A?1 [0]]]" = .ok ts
      ∧ (engine .usual).expression ts w
        = .ok (.list [.list [], .list [.ofInt (-7), .word "A?1", .list [.ofInt 0]]], []) w := by
  have hliteral : (Value.list
      [.list [], .list [.ofInt (-7), .word "A?1", .list [.ofInt 0]]]).Literal := by
    have hseven : (Value.ofInt (-7)).Literal := .number (by decide +kernel)
    have hzero : (Value.ofInt 0).Literal := .number (by decide +kernel)
    have hword : (Value.word "A?1").Literal := .word rfl
    have hinner : (Value.list [.ofInt 0]).Literal := .list (by simpa using hzero)
    have hempty : (Value.list []).Literal := .list (by simp)
    exact .list (by simpa using ⟨hempty, .list (by simpa using ⟨hseven, hword, hinner⟩)⟩)
  have hshown : (Value.list
      [.list [], .list [.ofInt (-7), .word "A?1", .list [.ofInt 0]]]).shown
        = .ok "[[] [-7 A?1 [0]]]" := Except.ok_of_toOption (by decide +kernel)
  obtain ⟨w, hw, -⟩ := quietSession_of (P := fun _ => true) rfl
  obtain ⟨t, ts, ht, hts, hvalue⟩ := expression_shown .usual (by decide) hliteral w
  rw [hshown] at ht
  cases ht
  exact ⟨w, hw, ts, hts, hvalue⟩

end Session

end TurtleLogo
