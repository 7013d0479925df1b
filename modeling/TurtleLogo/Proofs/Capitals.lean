import TurtleLogo.Proofs.Casing

/-! # Names in capitals

    A text in capitals stays as it is when it is put in capitals again
    (`Text.upper_upper`).  That is a fact about the tables of letters: what they
    make of a letter has no other upper case.  A few thousand letters are too
    many to look each of them up, so the numbers of all letters with another
    upper case are kept as the bits of one number.

    The words of a program are in capitals (`Token.upper_word`), so that a
    procedure is found under the word as it stands. -/

namespace TurtleLogo

namespace Text

/-- The numbers in a run. -/
def CaseRun.members (r : CaseRun) : List Nat :=
  (List.range ((r.last - r.first) / r.stride + 1)).map (r.first + · * r.stride)

/-- A set of numbers as the bits of one. -/
def bits : List Nat → Nat
  | [] => 0
  | n :: ns => bits ns ||| 1 <<< n

/-- The numbers of all letters with another upper case. -/
def lettered : Nat := bits (upperExpansions.map (·.1) ++ upperRuns.flatMap CaseRun.members)

/-- A run of letters lists all that it covers. -/
theorem CaseRun.mem_members {r : CaseRun} {n : Nat} (h : r.covers n = true) : n ∈ r.members := by
  rw [covers, Bool.and_eq_true, Bool.and_eq_true, decide_eq_true_eq, decide_eq_true_eq,
    beq_iff_eq] at h
  obtain ⟨⟨hfirst, hlast⟩, hstride⟩ := h
  have hsteps : (n - r.first) / r.stride * r.stride = n - r.first :=
    Nat.div_mul_cancel (Nat.dvd_of_mod_eq_zero hstride)
  have hindex : (n - r.first) / r.stride ≤ (r.last - r.first) / r.stride :=
    Nat.div_le_div_right (Nat.sub_le_sub_right hlast _)
  refine List.mem_map.2 ⟨_, List.mem_range.2 (Nat.lt_succ_of_le hindex), ?_⟩
  rw [hsteps]
  omega

/-- The bits of some numbers have a one for each of them. -/
theorem testBit_bits {n : Nat} {ns : List Nat} (h : n ∈ ns) : (bits ns).testBit n = true := by
  induction ns with
  | nil => cases h
  | cons m ms ih =>
      rw [bits, Nat.testBit_or]
      cases h with
      | head => simp [Nat.testBit_shiftLeft]
      | tail _ h => rw [ih h, Bool.true_or]

/-- A letter with several capitals is kept in the table of bits. -/
theorem lettered_of_expansion {e : Nat × List Nat} (h : e ∈ upperExpansions) :
    lettered.testBit e.1 = true :=
  testBit_bits (List.mem_append_left _ (List.mem_map.2 ⟨e, h, rfl⟩))

/-- A letter that a run covers is kept in the table of bits. -/
theorem lettered_of_covers {r : CaseRun} (h : r ∈ upperRuns) {n : Nat} (hn : r.covers n = true) :
    lettered.testBit n = true :=
  testBit_bits (List.mem_append_right _ (List.mem_flatMap.2 ⟨r, h, r.mem_members hn⟩))

/-! ## Capitals of capitals -/

/-- The small letters of ASCII are in the first run. -/
theorem lettered_of_isLower {c : Char} (h : c.isLower = true) :
    lettered.testBit c.toNat = true := by
  have hrange := isLower_iff.1 h
  refine lettered_of_covers (r := ⟨97, 122, 1, -32⟩) List.mem_cons_self ?_
  rw [CaseRun.covers, decide_eq_true hrange.1, decide_eq_true hrange.2, Nat.mod_one]
  rfl

/-- What the tables make of a character that is not ASCII. -/
theorem upperChar_cases {c : Char} (hascii : ¬c.toNat < 128) :
    (∃ e ∈ upperExpansions, e.1 = c.toNat ∧ upperChar c = e.2.map .ofNat)
      ∨ (∃ r ∈ upperRuns, r.covers c.toNat = true
        ∧ upperChar c = [.ofNat ((c.toNat : Int) + r.shift).toNat])
      ∨ upperChar c = [.char c] := by
  simp only [upperChar, if_neg hascii]
  split
  · rename_i n ns hfind
    exact .inl ⟨(n, ns), List.mem_of_find?_eq_some hfind,
      by simpa using List.find?_some hfind, rfl⟩
  · split
    · rename_i shift hshift
      obtain ⟨r, hfind, rfl⟩ := Option.map_eq_some_iff.1 hshift
      exact .inr (.inl ⟨r, List.mem_of_find?_eq_some hfind, by simpa using List.find?_some hfind,
        rfl⟩)
    · exact .inr (.inr rfl)

/-- Other letters have no other upper case. -/
theorem upperPoint_of_unlettered {c : CodePoint} (h : lettered.testBit c.toNat = false) :
    upperPoint c = [c] := by
  cases c with
  | half n => rfl
  | char c =>
      have hnone : lettered.testBit c.toNat ≠ true := by
        rw [show lettered.testBit c.toNat = false from h]
        exact Bool.false_ne_true
      by_cases hascii : c.toNat < 128
      · have hlower : c.isLower = false := Bool.eq_false_iff.2 fun hl => hnone (lettered_of_isLower hl)
        rw [upperPoint, upperChar_of_ascii hascii, toUpper_of_not_isLower hlower]
      · obtain ⟨e, he, hkey, -⟩ | ⟨r, hr, hcovers, -⟩ | hsame := upperChar_cases hascii
        · exact absurd (hkey ▸ lettered_of_expansion he) hnone
        · exact absurd (lettered_of_covers hr hcovers) hnone
        · exact hsame

/-- None of several capitals of a letter has another upper case. -/
theorem unlettered_expansions : (upperExpansions.all fun e => e.2.all fun n =>
    !lettered.testBit (CodePoint.ofNat n).toNat) = true := by
  decide +kernel

/-- The capital of a letter in a run has no other upper case. -/
theorem unlettered_runs : (upperRuns.all fun r => r.members.all fun n =>
    !lettered.testBit (CodePoint.ofNat ((n : Int) + r.shift).toNat).toNat) = true := by
  decide +kernel

/-- What the tables make of a letter has no other upper case. -/
theorem upperPoint_upperPoint (c : CodePoint) : ∀ d ∈ upperPoint c, upperPoint d = [d] := by
  intro d hd
  cases c with
  | half n =>
      rw [List.mem_singleton.1 hd]
      rfl
  | char c =>
      change d ∈ upperChar c at hd
      by_cases hascii : c.toNat < 128
      · have hcapital := upperPoint_capital (.char c)
        rw [upperPoint, upperChar_of_ascii hascii] at hcapital
        rw [upperChar_of_ascii hascii] at hd
        rw [List.mem_singleton.1 hd]
        exact hcapital
      · obtain ⟨e, he, -, hupper⟩ | ⟨r, hr, hcovers, hupper⟩ | hupper := upperChar_cases hascii
        all_goals rw [hupper] at hd
        · obtain ⟨n, hn, rfl⟩ := List.mem_map.1 hd
          have hall := List.all_eq_true.1 (List.all_eq_true.1 unlettered_expansions e he) n hn
          exact upperPoint_of_unlettered (by simpa using hall)
        · have hall := List.all_eq_true.1 (List.all_eq_true.1 unlettered_runs r hr) _
            (r.mem_members hcovers)
          rw [List.mem_singleton.1 hd]
          exact upperPoint_of_unlettered (by simpa using hall)
        · rw [List.mem_singleton.1 hd]
          exact hupper

/-- A text of which each code point is its own upper case. -/
theorem upper_of_forall {t : Text} (h : ∀ c ∈ t, upperPoint c = [c]) : upper t = t := by
  induction t with
  | nil => rfl
  | cons c t ih =>
      rw [upper, List.flatMap_cons, h c List.mem_cons_self]
      exact congrArg (c :: ·) (ih fun d hd => h d (List.mem_cons_of_mem _ hd))

/-- A text in capitals stays as it is. -/
theorem upper_upper (t : Text) : upper (upper t) = upper t := by
  refine upper_of_forall fun d hd => ?_
  obtain ⟨c, -, hd⟩ := List.mem_flatMap.1 hd
  exact upperPoint_upperPoint c d hd

end Text

/-! ## Words -/

namespace Token

open Text

/-- Bare words are made of ASCII characters. -/
theorem ascii_of_isWordChar {c : Char} (h : isWordChar (.char c) = true) : c.toNat < 128 := by
  rw [isWordChar, CodePoint.satisfies, Char.isAlphanum, Bool.or_eq_true, Bool.or_eq_true,
    Bool.or_eq_true, beq_iff_eq, beq_iff_eq] at h
  obtain ((halpha | hdigit) | rfl) | rfl := h
  · have hrange := toNat_of_isAlpha halpha
    omega
  · rw [Char.isDigit, Bool.and_eq_true, decide_eq_true_eq, decide_eq_true_eq] at hdigit
    have hhigh : c.toNat ≤ 57 := hdigit.2
    omega
  · decide
  · decide

/-- The characters of a word are ASCII, so that its capitals are those of the
    whole text. -/
theorem upper_map_capital {cs : Text} (h : ∀ c ∈ cs, isWordChar c = true) :
    upper (cs.map capital) = cs.map capital := by
  refine upper_of_forall fun d hd => ?_
  obtain ⟨c, hc, rfl⟩ := List.mem_map.1 hd
  rw [upperPoint_capital]
  have hword := h c hc
  cases c with
  | half n => cases hword
  | char c => exact upperChar_of_ascii (ascii_of_isWordChar hword)

/-- A bare word that is read is in capitals. -/
theorem Lexed.upper {depth : Int} {afterValue : Bool} {c : Char} {cs name : Text}
    {r : Except Fault (Option Token) × Text} (h : Lexed depth afterValue cs c r)
    (hname : r.1 = .ok (some (.word name))) : upper name = name := by
  cases h with
  | word hstart =>
      cases hname
      refine upper_map_capital fun d hd => ?_
      cases hd with
      | head => exact isWordChar_of_isWordStart hstart
      | tail _ hd => exact List.all_eq_true.1 List.all_takeWhile d hd
  | symbol h =>
      cases hname
      simp only [symbol?] at h
      split at h <;> cases h
  | signed => cases hread : readRun true (numericRun cs) <;> rw [hread] at hname <;> cases hname
  | number =>
      cases hread : readRun false (numericRun (.char c :: cs)) <;> rw [hread] at hname <;> cases hname
  | name =>
      simp only [Except.ok.injEq] at hname
      split at hname <;> cases hname
  | comment | minus | quoted | comparison | skipped => cases hname

/-- A bare word that is read as a token is in capitals. -/
theorem upper_lex {depth : Int} {afterValue : Bool} {c : CodePoint} {cs name : Text}
    (h : (lex depth afterValue c cs).1 = .ok (some (.word name))) : upper name = name := by
  simp only [lex] at h
  split at h
  · cases h
  · split at h
    · cases h
    · exact (lexed depth afterValue _ cs).upper h

/-- All bare words of a text are in capitals. -/
theorem upper_scan {depth : Int} {afterValue : Bool} {t : Text} {ts : List Token} {name : Text}
    (h : scan depth afterValue t = .ok ts) (hname : .word name ∈ ts) : upper name = name := by
  fun_induction scan depth afterValue t generalizing ts with
  | case1 =>
      cases h
      cases hname
  | case2 => cases h
  | case3 _ _ _ _ _ _ _ ih => exact ih h hname
  | case4 depth afterValue c cs u rest hlex _ ih =>
      obtain ⟨us, hscan, hts⟩ := Except.bind_eq_ok h
      cases hts
      cases hname with
      | head => exact upper_lex (congrArg Prod.fst hlex)
      | tail _ hname => exact ih hscan hname

/-- The words of a program are in capitals. -/
theorem upper_word {code : Text} {ts : List Token} {name : Text} (h : tokenize code = .ok ts)
    (hname : .word name ∈ ts) : upper name = name :=
  upper_scan h hname

end Token

end TurtleLogo
