import TurtleLogo.Proofs.Literal
import TurtleLogo.Proofs.Readback

/-! # Replies that read back

    A list without lists in it is printed as the texts of its items with spaces
    between, and a reply is read by cutting it at its blanks.

    * Blanks are where words end, whatever stands around them (`Text.pieces_append`),
      so words that are joined with spaces are cut apart again
      (`Text.pieces_joinWith`).
    * The digits of a whole number are such a word, and read as that number
      (`Number.readInt?_digits`); a bare word spells none, and stays a word. -/

namespace TurtleLogo

namespace Text

/-- A text that cutting at blanks leaves in one piece. -/
structure IsPiece (w : Text) : Prop where
  ne_nil : w ≠ []
  blankless : ∀ c ∈ w, isBlank c = false

/-- A text is cut at a blank into the pieces before it and those after. -/
theorem piecesFrom_append (x : Text) {c : CodePoint} (hc : isBlank c = true) (y word : Text) :
    piecesFrom (x ++ c :: y) word = piecesFrom x word ++ piecesFrom y [] := by
  -- whatever word has been begun in front of the text
  induction x generalizing word with
  | nil =>
      rw [List.nil_append, piecesFrom.eq_def (c :: y), piecesFrom.eq_def []]
      simp only [hc, if_true]
      split <;> rfl
  | cons d x ih =>
      rw [List.cons_append, piecesFrom, piecesFrom]
      split
      · split
        · exact ih []
        · rw [ih, List.cons_append]
      · exact ih _

/-- The words of two texts with a blank between them are those of the one and then
    those of the other. -/
theorem pieces_append (x : Text) {c : CodePoint} (hc : isBlank c = true) (y : Text) :
    pieces (x ++ c :: y) = pieces x ++ pieces y :=
  piecesFrom_append x hc y []

/-- A text without blanks is one piece. -/
theorem IsPiece.pieces_eq {w : Text} (h : IsPiece w) : pieces w = [w] := by
  obtain ⟨c, cs, rfl⟩ := List.exists_cons_of_ne_nil h.ne_nil
  have hc : isBlank c = false := h.blankless c List.mem_cons_self
  rw [pieces, piecesFrom, hc, if_neg Bool.false_ne_true]
  exact piecesFrom_word cs [c] (fun d hd => h.blankless d (List.mem_cons_of_mem c hd)) (by simp)

end Text

namespace Number

/-- The characters of numerals are ASCII. -/
theorem ascii_of_numeral : ∀ c ∈ numeralChars, ascii c = c :=
  forall_numeralChars (by decide)

/-- A numeral has no blanks around it and no digits but ASCII ones. -/
theorem plain_of_numeral {cs : List Char} (h : ∀ c ∈ cs, c ∈ numeralChars) : plain cs = cs := by
  have hascii : cs.map ascii = cs :=
    (List.map_congr_left fun c hc => ascii_of_numeral c (h c hc)).trans (List.map_id cs)
  rw [show plain cs = Text.trimBy isMargin (cs.map ascii) from rfl, hascii]
  exact Text.trimBy_eq_self fun c hc => (numeralChars_spec c (h c hc)).1

/-- A sign and digits are read as the number they spell. -/
theorem readInt?_signed (neg : Bool) {ds : List Char} (hds : ∀ c ∈ ds, c.isDigit = true)
    (hne : ds ≠ []) (hshort : ds.length ≤ digitLimit) :
    readInt? (Text.ofChars (if neg then '-' :: ds else ds))
      = some (if neg then -(ofDigits ds : ℤ) else ofDigits ds) := by
  obtain ⟨c, cs, rfl⟩ := List.exists_cons_of_ne_nil hne
  have hnumeral : ∀ d ∈ c :: cs, d ∈ numeralChars :=
    fun d hd => mem_numeralChars_of_isDigit (hds d hd)
  have hplain : plain (if neg then '-' :: c :: cs else c :: cs)
      = if neg then '-' :: c :: cs else c :: cs := by
    apply plain_of_numeral
    cases neg with
    | true => exact List.forall_mem_cons.2 ⟨by decide, hnumeral⟩
    | false => exact hnumeral
  have hsign : takeSign (if neg then '-' :: c :: cs else c :: cs) = (neg, c :: cs) := by
    cases neg with
    | true => rfl
    | false => exact takeSign_of_isDigit (hds c List.mem_cons_self)
  have hjoin : joinDigits? [] (c :: cs) = some (c :: cs) :=
    joinDigits?_eq (fun d hd => (numeralChars_spec d (hnumeral d hd)).2.1) []
  have hall : (c :: cs).all Char.isDigit = true := List.all_eq_true.2 hds
  rw [readInt?, Text.chars?_ofChars]
  simp only [Option.bind_eq_bind, Option.bind_some, hplain, hsign, hjoin, hall,
    Nat.not_lt.2 hshort, List.isEmpty_cons, Bool.not_true, Bool.or_self, decide_false,
    Bool.false_eq_true, if_false]

/-- The digits of a whole number that is not too long are read as that number. -/
theorem readInt?_digits {n : ℤ} (h : (Nat.toDigits 10 n.natAbs).length ≤ digitLimit) :
    readInt? (digits n) = some n := by
  have htext : digits n = Text.ofChars (if decide (n < 0) = true then
      '-' :: Nat.toDigits 10 n.natAbs else Nat.toDigits 10 n.natAbs) := by
    simp only [digits, decide_eq_true_eq]
  rw [htext, readInt?_signed _ (fun c hc => isDigit_toDigits hc) Nat.toDigits_ne_nil h,
    ofDigits_toDigits, Option.some_inj]
  simp only [decide_eq_true_eq]
  split <;> omega

/-- The digits of a number are one piece. -/
theorem isPiece_digits (n : ℤ) : Text.IsPiece (digits n) := by
  have hdigit : ∀ c ∈ Nat.toDigits 10 n.natAbs, Text.isBlank (.char c) = false :=
    fun c hc => Token.isBlank_of_isDigit (isDigit_toDigits hc)
  rw [digits]
  split
  · exact ⟨by simp [Text.ofChars], by
      simpa [Text.ofChars] using ⟨by decide, hdigit⟩⟩
  · exact ⟨by simp [Text.ofChars], by simpa [Text.ofChars] using hdigit⟩

end Number

namespace Value

/-- An item that a reply can consist of: a whole number with so many digits, or a word
    that has no blanks in it and spells no number. -/
inductive Replied : Value → Prop where
  | number {n : Int} (h : (Nat.toDigits 10 n.natAbs).length ≤ 4300) : Replied (.number (.int n))
  | word {s : Text} (hne : s ≠ []) (hblank : ∀ c ∈ s, Text.isBlank c = false)
      (hint : Number.readInt? s = none) (hreal : Number.readReal? s = none) : Replied (.word s)

/-- A reply is read piece by piece. -/
theorem ofReply_append (x : Text) {c : CodePoint} (hc : Text.isBlank c = true) (y : Text) :
    ofReply (x ++ c :: y) = ofReply x ++ ofReply y := by
  rw [ofReply, Text.pieces_append x hc, List.map_append]
  rfl

/-- An item is read back from its text. -/
theorem Replied.spec {v : Value} (h : Replied v) : ∃ t, v.text = .ok t ∧ ofReply t = [v] := by
  cases h with
  | @number n h =>
      have hshort : n.natAbs < Number.tooLong := Number.lt_tooLong_iff.2 h
      refine ⟨Number.digits n, ?_, ?_⟩
      · rw [text, atomText, Number.text, Number.intText_ok hshort]
        rintro _ ⟨⟩
      · rw [ofReply, (Number.isPiece_digits n).pieces_eq, List.map_singleton, Number.read?,
          Number.readInt?_digits h]
  | @word s hne hblank hint hreal =>
      have hpiece : Text.IsPiece s := ⟨hne, hblank⟩
      refine ⟨s, ?_, ?_⟩
      · rw [text, atomText]
        rintro _ ⟨⟩
      · rw [ofReply, hpiece.pieces_eq, List.map_singleton, Number.read?, hint, hreal]
        rfl

/-- The texts of some items, with spaces between, are read as these items. -/
theorem texts_of_replied {items : List Value} (h : ∀ v ∈ items, Replied v) :
    ∃ parts, texts items = .ok parts ∧ ofReply (Text.joinWith " " parts) = items := by
  induction items with
  | nil => exact ⟨[], by rw [texts], rfl⟩
  | cons v items ih =>
      obtain ⟨t, ht, hv⟩ := (h v List.mem_cons_self).spec
      obtain ⟨parts, hparts, hitems⟩ := ih fun u hu => h u (List.mem_cons_of_mem v hu)
      refine ⟨t :: parts, by rw [texts, ht, hparts]; rfl, ?_⟩
      cases parts with
      | nil =>
          -- the last item has no space behind it
          have hnone : items = [] := hitems.symm
          rw [Text.joinWith, List.intercalate_singleton, hv, hnone]
      | cons p parts =>
          have hjoin : Text.joinWith " " (t :: p :: parts)
              = t ++ .char ' ' :: Text.joinWith " " (p :: parts) := by
            rw [Text.joinWith, List.intercalate_cons_cons, List.append_assoc]
            rfl
          rw [hjoin, ofReply_append t rfl, hv, hitems]
          rfl

/-- A list of whole numbers and of words that spell none has a text, and as a reply that
    text is the list. -/
theorem ofReply_text {items : List Value} (h : ∀ v ∈ items, Replied v) :
    ∃ t, text (.list items) = .ok t ∧ ofReply t = items := by
  obtain ⟨parts, hparts, hitems⟩ := texts_of_replied h
  refine ⟨Text.joinWith " " parts, ?_, hitems⟩
  rw [text, hparts]
  rfl

/-- A sign, an underscore and an exponent alone do not make a number. -/
theorem ofReply_text_signs : ∃ items : List Value,
    items = [.number (.int (-5)), .word "-", .word "1__0", .word "1e", .word "na", .number (.int 0)]
      ∧ (∀ v ∈ items, Replied v) ∧ ∃ t, text (.list items) = .ok t ∧ ofReply t = items := by
  have hitems : ∀ v ∈ ([.number (.int (-5)), .word "-", .word "1__0", .word "1e", .word "na",
      .number (.int 0)] : List Value), Replied v := by
    simp only [List.forall_mem_cons]
    refine ⟨.number (by decide), .word ?_ ?_ ?_ ?_, .word ?_ ?_ ?_ ?_, .word ?_ ?_ ?_ ?_,
      .word ?_ ?_ ?_ ?_, .number (by decide), by simp⟩ <;> decide +kernel
  exact ⟨_, rfl, hitems, ofReply_text hitems⟩

end Value

end TurtleLogo
