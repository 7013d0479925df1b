import Mathlib.Data.List.Chain
import TurtleLogo.Project

/-! # Strings in JSON

    A text that is written as a JSON string is read back from it, quotes,
    backslashes, control characters and all, unless a half of a surrogate pair
    stands right before the other half: as escapes the two would be read as one
    character.

    * `Text.Unpaired` says that no such halves meet.  The texts that reading
      gives are of that kind, as long as there are no halves in what is read
      (`readString_unpaired`).
    * Each code point is written as pieces that spell it (`Spells`), and the
      pieces of a text are joined to that text (`readString_writePoints`). -/

namespace TurtleLogo

/-! ## Halves of pairs -/

/-- A text in which no half that starts a pair stands right before one that ends
    a pair. -/
def Text.Unpaired (t : Text) : Prop :=
  t.IsChain fun a b => (Json.isHigh a.toNat && Json.isLow b.toNat) = false

/-- A text without halves of pairs. -/
def Text.Whole (t : Text) : Prop := ∀ c ∈ t, ∃ ch, c = .char ch

/-- The units that start a pair are a range. -/
theorem Json.isHigh_iff {u : Nat} : isHigh u = true ↔ 0xD800 ≤ u ∧ u < 0xDC00 := by
  rw [isHigh, Bool.and_eq_true, decide_eq_true_eq, decide_eq_true_eq]

/-- The units that end a pair are a range. -/
theorem Json.isLow_iff {u : Nat} : isLow u = true ↔ 0xDC00 ≤ u ∧ u < 0xE000 := by
  rw [isLow, Bool.and_eq_true, decide_eq_true_eq, decide_eq_true_eq]

namespace CodePoint

/-- A character is no half that starts a pair. -/
theorem isHigh_char (c : Char) : Json.isHigh (CodePoint.char c).toNat = false := by
  have hvalid := toNat_char c
  refine Bool.eq_false_iff.2 fun h => ?_
  have hrange : 0xD800 ≤ c.toNat ∧ c.toNat < 0xDC00 := Json.isHigh_iff.1 h
  omega

/-- A character is no half that ends a pair. -/
theorem isLow_char (c : Char) : Json.isLow (CodePoint.char c).toNat = false := by
  have hvalid := toNat_char c
  refine Bool.eq_false_iff.2 fun h => ?_
  have hrange : 0xDC00 ≤ c.toNat ∧ c.toNat < 0xE000 := Json.isLow_iff.1 h
  omega

/-- The code point of the number of a half is that half, and no other number has
    a half. -/
theorem ofNat_cases (n : Nat) : (ofNat n).toNat = n
    ∨ ((∃ c, ofNat n = .char c) ∧ Json.isHigh n = false ∧ Json.isLow n = false) := by
  rw [ofNat]
  split
  · rename_i h
    left
    show 0xD800 + (n - 0xD800) = n
    omega
  · rename_i h
    refine .inr ⟨⟨_, rfl⟩, Bool.eq_false_iff.2 fun hn => ?_, Bool.eq_false_iff.2 fun hn => ?_⟩
    · have hrange := Json.isHigh_iff.1 hn
      omega
    · have hrange := Json.isLow_iff.1 hn
      omega

/-- Whether a code is that of a first half does not change when it becomes a code
    point. -/
theorem isHigh_ofNat (n : Nat) : Json.isHigh (ofNat n).toNat = Json.isHigh n := by
  obtain h | ⟨⟨c, hc⟩, hhigh, -⟩ := ofNat_cases n
  · rw [h]
  · rw [hc, isHigh_char, hhigh]

/-- Whether a code is that of a second half does not change when it becomes a code
    point. -/
theorem isLow_ofNat (n : Nat) : Json.isLow (ofNat n).toNat = Json.isLow n := by
  obtain h | ⟨⟨c, hc⟩, -, hlow⟩ := ofNat_cases n
  · rw [h]
  · rw [hc, isLow_char, hlow]

end CodePoint

namespace Text

/-- What is left of a text without halves has none. -/
theorem Whole.of_suffix {t u : Text} (h : Whole t) (hu : u <:+ t) : Whole u :=
  fun c hc => h c (hu.subset hc)

theorem Whole.tail {c : CodePoint} {t : Text} (h : Whole (c :: t)) : Whole t :=
  h.of_suffix (List.suffix_cons c t)

/-- Without halves none meet. -/
theorem Whole.unpaired {t : Text} (h : Whole t) : Unpaired t := by
  induction t with
  | nil => exact .nil
  | cons c t ih =>
      refine List.IsChain.cons (ih h.tail) fun d hd => ?_
      obtain ⟨ch, rfl⟩ := h c List.mem_cons_self
      rw [CodePoint.isHigh_char, Bool.false_and]

/-- A text without halves consists of characters. -/
theorem Whole.exists_ofChars {t : Text} (h : Whole t) : ∃ cs, t = ofChars cs := by
  induction t with
  | nil => exact ⟨[], rfl⟩
  | cons c t ih =>
      obtain ⟨ch, rfl⟩ := h c List.mem_cons_self
      obtain ⟨cs, rfl⟩ := ih h.tail
      exact ⟨ch :: cs, rfl⟩

/-- A text of characters has no halves. -/
theorem whole_ofChars (cs : List Char) : Whole (ofChars cs) := by
  intro c hc
  obtain ⟨ch, _, rfl⟩ := List.mem_map.1 hc
  exact ⟨ch, rfl⟩

theorem whole_ofString (s : String) : Whole s := whole_ofChars s.toList

end Text

namespace Json

open Text

/-! ## What reading gives -/

/-- What a letter escapes is a character. -/
theorem letterEscape?_char {c d : CodePoint} (h : letterEscape? c = some d) :
    ∃ ch, d = .char ch := by
  rw [letterEscape?.eq_def] at h
  split at h <;> cases h
  all_goals exact ⟨_, rfl⟩

/-- The pieces of a text without halves are characters and escaped units, and the
    rest has no halves. -/
theorem readPieces_whole {cs rest : Text} {ps : List Piece}
    (h : readPieces cs = some (ps, rest)) (hcs : Whole cs) :
    Whole rest ∧ ∀ c, .point c ∈ ps → ∃ ch, c = .char ch := by
  fun_induction readPieces cs generalizing ps with
  | case1 => cases h
  | case2 cs =>
      cases h
      exact ⟨hcs.tail, fun c hc => by cases hc⟩
  | case3 a b c d cs ih =>
      obtain ⟨u, -, h⟩ := Option.bind_eq_some_iff.1 h
      obtain ⟨⟨qs, end'⟩, hr, h⟩ := Option.bind_eq_some_iff.1 h
      cases h
      have hrest := ih hr (hcs.tail.tail.tail.tail.tail.tail)
      refine ⟨hrest.1, fun p hp => ?_⟩
      cases hp with
      | tail _ hp => exact hrest.2 p hp
  | case4 c cs _ ih =>
      obtain ⟨d, hd, h⟩ := Option.bind_eq_some_iff.1 h
      obtain ⟨⟨qs, end'⟩, hr, h⟩ := Option.bind_eq_some_iff.1 h
      cases h
      have hrest := ih hr hcs.tail.tail
      refine ⟨hrest.1, fun p hp => ?_⟩
      cases hp with
      | head => exact letterEscape?_char hd
      | tail _ hp => exact hrest.2 p hp
  | case5 => cases h
  | case6 c cs _ _ _ _ ih =>
      obtain ⟨⟨qs, end'⟩, hr, h⟩ := Option.bind_eq_some_iff.1 h
      cases h
      have hrest := ih hr hcs.tail
      refine ⟨hrest.1, fun p hp => ?_⟩
      cases hp with
      | head => exact hcs c List.mem_cons_self
      | tail _ hp => exact hrest.2 p hp

/-- A pair stands for a character past the halves. -/
theorem le_pairCode (high low : Nat) : 0x10000 ≤ pairCode high low :=
  (Nat.le_add_right _ _).trans (Nat.le_add_right _ _)

/-- A pair does not become a first half. -/
theorem isHigh_pairCode (high low : Nat) : isHigh (pairCode high low) = false := by
  have hle := le_pairCode high low
  refine Bool.eq_false_iff.2 fun h => ?_
  have hrange := isHigh_iff.1 h
  omega

/-- A pair does not become a second half. -/
theorem isLow_pairCode (high low : Nat) : isLow (pairCode high low) = false := by
  have hle := le_pairCode high low
  refine Bool.eq_false_iff.2 fun h => ?_
  have hrange := isLow_iff.1 h
  omega

/-- A unit that is not joined to the next piece stands for itself. -/
theorem joinPieces_unit {u : Nat} {ps : List Piece}
    (h : ∀ low tail, ps = .unit low :: tail → (isHigh u && isLow low) = false) :
    joinPieces (.unit u :: ps) = .ofNat u :: joinPieces ps := by
  cases ps with
  | nil => rfl
  | cons p ps =>
      cases p with
      | point c => rfl
      | unit low => rw [joinPieces, h low ps rfl, if_neg Bool.false_ne_true]

/-- Only a unit gives a half that ends a pair. -/
theorem joinPieces_head {ps : List Piece} (h : ∀ c, .point c ∈ ps → ∃ ch, c = .char ch)
    {c : CodePoint} (hc : c ∈ (joinPieces ps).head?) (hlow : isLow c.toNat = true) :
    ∃ low tail, ps = .unit low :: tail ∧ isLow low = true := by
  cases ps with
  | nil => cases hc
  | cons p ps =>
      cases p with
      | point d =>
          rw [joinPieces, List.head?_cons, Option.mem_some_iff] at hc
          subst hc
          obtain ⟨ch, rfl⟩ := h d List.mem_cons_self
          rw [CodePoint.isLow_char] at hlow
          cases hlow
      | unit u =>
          refine ⟨u, ps, rfl, ?_⟩
          by_cases hpair : ∃ low tail, ps = .unit low :: tail ∧ (isHigh u && isLow low) = true
          · obtain ⟨low, tail, rfl, hpair⟩ := hpair
            rw [joinPieces, if_pos hpair, List.head?_cons, Option.mem_some_iff] at hc
            rw [← hc, CodePoint.isLow_ofNat, isLow_pairCode] at hlow
            cases hlow
          · rw [joinPieces_unit, List.head?_cons, Option.mem_some_iff] at hc
            · rw [← hc, CodePoint.isLow_ofNat] at hlow
              exact hlow
            · intro low tail hps
              exact Bool.eq_false_iff.2 fun hboth => hpair ⟨low, tail, hps, hboth⟩

/-- Joining leaves no two halves that could have been joined. -/
theorem joinPieces_unpaired {ps : List Piece} (h : ∀ c, .point c ∈ ps → ∃ ch, c = .char ch) :
    Unpaired (joinPieces ps) := by
  fun_induction joinPieces ps with
  | case1 high low ps hpair ih =>
      refine List.IsChain.cons (ih fun c hc => h c ?_) fun d hd => ?_
      · exact List.mem_cons_of_mem _ (List.mem_cons_of_mem _ hc)
      · rw [CodePoint.isHigh_ofNat, isHigh_pairCode, Bool.false_and]
  | case2 high low ps hpair ih =>
      have htail : ∀ c, .point c ∈ .unit low :: ps → ∃ ch, c = .char ch :=
        fun c hc => h c (List.mem_cons_of_mem _ hc)
      refine List.IsChain.cons (ih htail) fun d hd => Bool.eq_false_iff.2 fun hboth => hpair ?_
      rw [CodePoint.isHigh_ofNat, Bool.and_eq_true] at hboth
      obtain ⟨low', tail, heq, hlow⟩ := joinPieces_head htail hd hboth.2
      cases heq
      rw [hboth.1, hlow, Bool.and_self]
  | case3 u ps hnext ih =>
      have htail : ∀ c, .point c ∈ ps → ∃ ch, c = .char ch :=
        fun c hc => h c (List.mem_cons_of_mem _ hc)
      refine List.IsChain.cons (ih htail) fun d hd => Bool.eq_false_iff.2 fun hboth => ?_
      rw [Bool.and_eq_true] at hboth
      obtain ⟨low, tail, heq, -⟩ := joinPieces_head htail hd hboth.2
      exact hnext low tail heq
  | case4 c ps ih =>
      refine List.IsChain.cons (ih fun d hd => h d (List.mem_cons_of_mem _ hd)) fun d hd => ?_
      obtain ⟨ch, rfl⟩ := h c List.mem_cons_self
      rw [CodePoint.isHigh_char, Bool.false_and]
  | case5 => exact .nil

/-- A string read from a text without halves has no two halves of one pair side
    by side. -/
theorem readString_spec {cs s rest : Text} (h : readString cs = some (s, rest))
    (hcs : Whole cs) : Unpaired s ∧ Whole rest := by
  obtain ⟨⟨ps, end'⟩, hread, hs⟩ := Option.bind_eq_some_iff.1 h
  cases hs
  obtain ⟨hrest, hpoints⟩ := readPieces_whole hread hcs
  exact ⟨joinPieces_unpaired hpoints, hrest⟩

/-! ## What writing gives -/

/-- A hexadecimal digit that is written is read back. -/
theorem hexValue?_digitChar : ∀ k < 16, hexValue? (.char (Nat.digitChar k)) = some k := by
  decide

/-- The escape of a unit is read as that unit. -/
theorem readPieces_unitEscape {u : Nat} (hu : u < 0x10000) (rest : Text) :
    readPieces (unitEscape u ++ rest)
      = (readPieces rest).map fun r => (.unit u :: r.1, r.2) := by
  have htext : unitEscape u ++ rest = .char '\\' :: .char 'u'
      :: .char (Nat.digitChar (u / 16 / 16 / 16 % 16)) :: .char (Nat.digitChar (u / 16 / 16 % 16))
      :: .char (Nat.digitChar (u / 16 % 16)) :: .char (Nat.digitChar (u % 16)) :: rest := rfl
  have hunit : hexUnit? (.char (Nat.digitChar (u / 16 / 16 / 16 % 16)))
      (.char (Nat.digitChar (u / 16 / 16 % 16))) (.char (Nat.digitChar (u / 16 % 16)))
      (.char (Nat.digitChar (u % 16))) = some u := by
    have hdigit : ∀ n, hexValue? (.char (Nat.digitChar (n % 16))) = some (n % 16) :=
      fun n => hexValue?_digitChar _ (Nat.mod_lt n (by decide))
    rw [hexUnit?, hdigit, hdigit, hdigit, hdigit]
    refine congrArg some ?_
    omega
  rw [htext, readPieces, hunit]
  cases readPieces rest <;> rfl

/-- A letter behind a backslash, unless it starts the escape of a unit. -/
theorem readPieces_letter {l c : CodePoint} (hl : letterEscape? l = some c) (rest : Text) :
    readPieces (.char '\\' :: l :: rest)
      = (readPieces rest).map fun r => (.point c :: r.1, r.2) := by
  rw [readPieces, hl]
  · cases readPieces rest <;> rfl
  · rintro _ _ _ _ _ rfl
    cases hl

/-- A code point that needs no escape. -/
theorem readPieces_plain {c : CodePoint} (hc : 32 ≤ c.toNat) (hquote : c ≠ .char '"')
    (hslash : c ≠ .char '\\') (rest : Text) :
    readPieces (c :: rest) = (readPieces rest).map fun r => (.point c :: r.1, r.2) := by
  have hplain : ¬(decide (c.toNat < 32) || c == .char '\\') = true := by
    simp [Nat.not_lt.2 hc, hslash]
  rw [readPieces, if_neg hplain]
  · cases readPieces rest <;> rfl
  · exact hquote
  · rintro _ _ _ _ _ h _
    exact hslash h
  · rintro _ _ h _
    exact hslash h

/-- What the pieces of one code point are. -/
inductive Spells : CodePoint → List Piece → Prop where
  | point (c : CodePoint) : Spells c [.point c]
  | unit (c : CodePoint) : Spells c [.unit c.toNat]
  | pair {c : CodePoint} {high low : Nat} (hhigh : isHigh high = true) (hlow : isLow low = true)
      (hcode : c.toNat = pairCode high low) : Spells c [.unit high, .unit low]

/-- The code points with an escape of their own. -/
theorem readPieces_escaped {c : CodePoint} {n : Nat} (hn : c.toNat = n) {l : Char}
    (hl : letterEscape? (.char l) = some (.ofNat n))
    (hwrite : writePoint (.ofNat n) = [.char '\\', .char l]) (rest : Text) :
    readPieces (writePoint c ++ rest)
      = (readPieces rest).map fun r => (.point c :: r.1, r.2) := by
  have hc := CodePoint.ofNat_toNat c
  rw [hn] at hc
  rw [← hc, hwrite]
  exact readPieces_letter hl rest

theorem CodePoint.ne_of_toNat {c d : CodePoint} (h : c.toNat ≠ d.toNat) : c ≠ d :=
  fun heq => h (congrArg CodePoint.toNat heq)

/-- A code point is written as pieces that spell it. -/
theorem readPieces_writePoint (c : CodePoint) : ∃ ps, Spells c ps ∧ ∀ rest,
    readPieces (writePoint c ++ rest) = (readPieces rest).map fun r => (ps ++ r.1, r.2) := by
  by_cases hquote : c.toNat = 34
  · exact ⟨_, .point c, readPieces_escaped hquote (l := '"') rfl rfl⟩
  by_cases hslash : c.toNat = 92
  · exact ⟨_, .point c, readPieces_escaped hslash (l := '\\') rfl rfl⟩
  by_cases hline : c.toNat = 10
  · exact ⟨_, .point c, readPieces_escaped hline (l := 'n') rfl rfl⟩
  by_cases hreturn : c.toNat = 13
  · exact ⟨_, .point c, readPieces_escaped hreturn (l := 'r') rfl rfl⟩
  by_cases htab : c.toNat = 9
  · exact ⟨_, .point c, readPieces_escaped htab (l := 't') rfl rfl⟩
  by_cases hpage : c.toNat = 12
  · exact ⟨_, .point c, readPieces_escaped hpage (l := 'f') rfl rfl⟩
  by_cases hback : c.toNat = 8
  · exact ⟨_, .point c, readPieces_escaped hback (l := 'b') rfl rfl⟩
  have hwrite : writePoint c = if 32 ≤ c.toNat ∧ c.toNat ≤ 126 then [c]
      else if c.toNat < 0x10000 then unitEscape c.toNat
      else unitEscape (0xD800 + (c.toNat - 0x10000) / 0x400)
        ++ unitEscape (0xDC00 + (c.toNat - 0x10000) % 0x400) := by
    simp [writePoint, hquote, hslash, hline, hreturn, htab, hpage, hback]
  by_cases hplain : 32 ≤ c.toNat ∧ c.toNat ≤ 126
  · rw [hwrite, if_pos hplain]
    exact ⟨_, .point c, readPieces_plain hplain.1 (CodePoint.ne_of_toNat hquote)
      (CodePoint.ne_of_toNat hslash)⟩
  by_cases hunit : c.toNat < 0x10000
  · rw [hwrite, if_neg hplain, if_pos hunit]
    exact ⟨_, .unit c, readPieces_unitEscape hunit⟩
  -- what is left is past the first plane, and below the end of the last one
  rw [hwrite, if_neg hplain, if_neg hunit]
  have hlt := c.toNat_lt
  generalize hhigh : 0xD800 + (c.toNat - 0x10000) / 0x400 = high
  generalize hlow : 0xDC00 + (c.toNat - 0x10000) % 0x400 = low
  have hcode : c.toNat = pairCode high low := by
    unfold pairCode
    omega
  refine ⟨_, .pair (isHigh_iff.2 (by omega)) (isLow_iff.2 (by omega)) hcode, fun rest => ?_⟩
  rw [List.append_assoc, readPieces_unitEscape (by omega), readPieces_unitEscape (by omega),
    Option.map_map]
  rfl

/-- The pieces of a code point are joined to it, before pieces that do not go on
    with a pair. -/
theorem Spells.joinPieces {c : CodePoint} {ps : List Piece} (h : Spells c ps) {qs : List Piece}
    (hqs : ∀ low tail, qs = .unit low :: tail → (isHigh c.toNat && isLow low) = false) :
    Json.joinPieces (ps ++ qs) = c :: Json.joinPieces qs := by
  cases h with
  | point => rfl
  | unit =>
      rw [List.singleton_append, joinPieces_unit hqs, CodePoint.ofNat_toNat]
  | pair hhigh hlow hcode =>
      have hpair : (isHigh _ && isLow _) = true := Bool.and_eq_true_iff.2 ⟨hhigh, hlow⟩
      show Json.joinPieces (.unit _ :: .unit _ :: qs) = _
      rw [Json.joinPieces, if_pos hpair, ← hcode, CodePoint.ofNat_toNat]

/-- The first piece of a code point ends a pair only if the code point does. -/
theorem Spells.head {c : CodePoint} {ps : List Piece} (h : Spells c ps) {low : Nat}
    {tail qs : List Piece} (heq : ps ++ qs = .unit low :: tail) (hlow : isLow low = true) :
    isLow c.toNat = true := by
  cases h with
  | point => cases heq
  | unit =>
      cases heq
      exact hlow
  | pair hhigh _ _ =>
      cases heq
      have hrange := isHigh_iff.1 hhigh
      have hrange' := isLow_iff.1 hlow
      omega

/-- A text is written as pieces that are joined to it. -/
theorem readPieces_written {s : Text} (h : Unpaired s) : ∃ ps, joinPieces ps = s
    ∧ (∀ low tail, ps = .unit low :: tail → isLow low = true →
        ∃ c ∈ s.head?, isLow c.toNat = true)
    ∧ ∀ rest, readPieces (s.flatMap writePoint ++ rest)
        = (readPieces rest).map fun r => (ps ++ r.1, r.2) := by
  induction s with
  | nil =>
      refine ⟨[], rfl, (by rintro _ _ ⟨⟩), fun rest => ?_⟩
      show readPieces rest = (readPieces rest).map id
      rw [Option.map_id]
      rfl
  | cons c s ih =>
      obtain ⟨qs, hjoin, hhead, hread⟩ := ih h.tail
      obtain ⟨ps, hps, hc⟩ := readPieces_writePoint c
      have hnext : ∀ low tail, qs = .unit low :: tail → (isHigh c.toNat && isLow low) = false := by
        intro low tail hqs
        refine Bool.eq_false_iff.2 fun hboth => ?_
        rw [Bool.and_eq_true] at hboth
        obtain ⟨d, hd, hlow⟩ := hhead low tail hqs hboth.2
        have happart := (List.isChain_cons.1 h).1 d hd
        rw [hboth.1, hlow] at happart
        cases happart
      refine ⟨ps ++ qs, by rw [hps.joinPieces hnext, hjoin], fun low tail heq hlow => ?_,
        fun rest => ?_⟩
      · exact ⟨c, rfl, hps.head heq hlow⟩
      · rw [List.flatMap_cons, List.append_assoc, hc, hread, Option.map_map]
        simp only [List.append_assoc]
        rfl

/-- A string is read back as it was written. -/
theorem readString_writePoints {s : Text} (h : Unpaired s) (rest : Text) :
    readString (writePoints s ++ rest) = some (s, rest) := by
  obtain ⟨ps, hjoin, -, hread⟩ := readPieces_written h
  have hend : readPieces (.char '"' :: rest) = some ([], rest) := by rw [readPieces]
  rw [readString, writePoints, List.append_assoc, List.singleton_append, hread, hend]
  show some (joinPieces (ps ++ []), rest) = _
  rw [List.append_nil, hjoin]

end Json

end TurtleLogo
