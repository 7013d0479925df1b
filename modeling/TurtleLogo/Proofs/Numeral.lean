import Mathlib.Data.Int.Notation
import Mathlib.Data.List.Basic
import TurtleLogo.Drawing.Colour

/-! # Numerals

    How texts are read that consist of signs, points and digits, as the channels
    of a colour do.

    * Such a text has no blanks, underscores or letters, so only its sign and its
      digits matter (`readReal?_eq`).
    * It can be read exactly if, after the sign, it has digits and no more than
      one point (`spelled?_isSome_iff`).
    * The digits of a natural number spell that number (`ofDigits_toDigits`). -/

namespace TurtleLogo

/-- Items with a property, up to the first one without it. -/
theorem takeWhile_head {α : Type} {p : α → Bool} {l rest : List α} (hl : ∀ a ∈ l, p a = true)
    (hrest : ∀ a ∈ rest.head?, p a = false) :
    (l ++ rest).takeWhile p = l ∧ (l ++ rest).dropWhile p = rest := by
  rw [List.takeWhile_append_of_pos hl, List.dropWhile_append_of_pos hl]
  cases rest with
  | nil => exact ⟨List.append_nil l, rfl⟩
  | cons a rest =>
      have ha := hrest a rfl
      rw [List.takeWhile_cons, List.dropWhile_cons, ha, if_neg Bool.false_ne_true,
        if_neg Bool.false_ne_true, List.append_nil]
      exact ⟨rfl, rfl⟩

/-- A list without anything to cut off. -/
theorem Text.trimBy_eq_self {α : Type} {p : α → Bool} {l : List α} (h : ∀ a ∈ l, p a = false) :
    trimBy p l = l := by
  have hdrop : ∀ l : List α, (∀ a ∈ l, p a = false) → l.dropWhile p = l := by
    intro l h
    cases l with
    | nil => rfl
    | cons a l => rw [List.dropWhile_cons, h a List.mem_cons_self, if_neg Bool.false_ne_true]
  rw [trimBy, hdrop l h, hdrop l.reverse fun a ha => h a (List.mem_reverse.1 ha),
    List.reverse_reverse]

/-- A text of characters. -/
theorem Text.exists_ofChars {p : CodePoint → Bool} (hhalf : ∀ n, p (.half n) = false) {t : Text}
    (h : ∀ c ∈ t, p c = true) : ∃ cs, t = ofChars cs := by
  induction t with
  | nil => exact ⟨[], rfl⟩
  | cons c t ih =>
      obtain ⟨cs, rfl⟩ := ih fun d hd => h d (List.mem_cons_of_mem c hd)
      cases c with
      | char c => exact ⟨c :: cs, rfl⟩
      | half n =>
          have hc := h (.half n) List.mem_cons_self
          rw [hhalf] at hc
          cases hc

/-- A decimal digit is less than ten. -/
theorem Text.digit?_lt {c : Char} {d : ℕ} (h : digit? c = some d) : d < 10 := by
  rw [digit?] at h
  split at h
  · split at h
    · rename_i hdigit
      cases h
      have hrange : 48 ≤ c.toNat ∧ c.toNat ≤ 57 := by
        simpa [Char.isDigit, UInt32.le_iff_toNat_le] using hdigit
      omega
    · cases h
  · obtain ⟨z, hz, rfl⟩ := Option.map_eq_some_iff.1 h
    have hrange := List.find?_some hz
    rw [Bool.and_eq_true, decide_eq_true_eq, decide_eq_true_eq] at hrange
    omega

namespace Number

/-! ## Characters -/

/-- The characters of which numerals consist. -/
def numeralChars : List Char :=
  ['0', '1', '2', '3', '4', '5', '6', '7', '8', '9', '-', '.']

/-- A digit of any script as an ASCII one. -/
def ascii (c : Char) : Char :=
  match Text.digit? c with
  | some d => Nat.digitChar d
  | none => c

/-- A character of a channel is one of a numeral in ASCII. -/
theorem ascii_mem {c : Char} (h : Rgb.isChannelChar (.char c) = true) : ascii c ∈ numeralChars := by
  rw [Rgb.isChannelChar, Bool.or_eq_true, Bool.or_eq_true] at h
  rcases h with (h | h) | h
  · cases eq_of_beq h
    decide
  · cases eq_of_beq h
    decide
  · obtain ⟨d, hd⟩ := Option.isSome_iff_exists.1 (show (Text.digit? c).isSome = true from h)
    have hall : ∀ d < 10, Nat.digitChar d ∈ numeralChars := by decide
    rw [ascii, hd]
    exact hall d (Text.digit?_lt hd)

/-- What is tried for each of the characters of numerals. -/
theorem forall_numeralChars {p : Char → Prop} [DecidablePred p]
    (h : (numeralChars.all fun c => decide (p c)) = true) : ∀ c ∈ numeralChars, p c :=
  fun c hc => of_decide_eq_true (List.all_eq_true.1 h c hc)

/-- What matters about the characters of numerals. -/
theorem numeralChars_spec : ∀ c ∈ numeralChars, isMargin c = false ∧ c ≠ '_' ∧ c ≠ '+'
    ∧ c.toLower = c ∧ c ≠ 'i' ∧ c ≠ 'n' ∧ c ≠ 'e' ∧ c ≠ 'E'
    ∧ (c.isDigit = true ∨ c = '-' ∨ c = '.') :=
  forall_numeralChars (by decide)

/-! ## Reading -/

/-- What a text spells whose characters are those of numerals. -/
def spelled? (cs : List Char) : Option Binary64 :=
  (readDecimal? (takeSign cs).2).map fun d => .ofDecimal (takeSign cs).1 d.digits d.exp

/-- Without underscores there is nothing to join. -/
theorem joinDigits?_eq {cs : List Char} (h : ∀ c ∈ cs, c ≠ '_') (sofar : List Char) :
    joinDigits? sofar cs = some (sofar.reverse ++ cs) := by
  induction cs generalizing sofar with
  | nil => rw [joinDigits?, List.append_nil]
  | cons c cs ih =>
      have hc := h c List.mem_cons_self
      rw [joinDigits?, ih fun d hd => h d (List.mem_cons_of_mem c hd), List.reverse_cons,
        List.append_assoc, List.singleton_append]
      exact hc

/-- A numeral is no word. -/
theorem ofList_toLower_ne {cs : List Char} (h : ∀ c ∈ cs, c ∈ numeralChars) {s : String}
    {first : Char} {l : List Char} (hs : s.toList = first :: l)
    (hfirst : first ∉ numeralChars) :
    (String.ofList (cs.map Char.toLower) == s) = false := by
  rw [beq_eq_false_iff_ne]
  rintro rfl
  rw [String.toList_ofList] at hs
  cases cs with
  | nil => cases hs
  | cons c cs =>
      have hc := h c List.mem_cons_self
      rw [List.map_cons, (numeralChars_spec c hc).2.2.2.1] at hs
      cases hs
      exact hfirst hc

/-- What is behind a sign was there before. -/
theorem mem_takeSign {cs : List Char} {c : Char} (h : c ∈ (takeSign cs).2) : c ∈ cs := by
  cases cs with
  | nil => exact h
  | cons d cs =>
      rw [takeSign.eq_def] at h
      split at h
      · rename_i heq
        cases heq
        exact List.mem_cons_of_mem _ h
      · rename_i heq
        cases heq
        exact List.mem_cons_of_mem _ h
      · exact h

/-- A text of the characters of numerals is read by its sign and digits. -/
theorem readReal?_eq {cs : List Char} (h : ∀ c ∈ cs, Rgb.isChannelChar (.char c) = true) :
    readReal? (Text.ofChars cs) = spelled? (cs.map ascii) := by
  have hmem : ∀ c ∈ cs.map ascii, c ∈ numeralChars := by
    intro c hc
    obtain ⟨d, hd, rfl⟩ := List.mem_map.1 hc
    exact ascii_mem (h d hd)
  have hplain : plain cs = cs.map ascii :=
    Text.trimBy_eq_self fun c hc => (numeralChars_spec c (hmem c hc)).1
  have hsign : ∀ c ∈ (takeSign (cs.map ascii)).2, c ∈ numeralChars :=
    fun c hc => hmem c (mem_takeSign hc)
  have hjoin : joinDigits? [] (plain cs) = some (cs.map ascii) := by
    rw [hplain, joinDigits?_eq fun c hc => (numeralChars_spec c (hmem c hc)).2.1]
    rfl
  rw [readReal?, Text.chars?_ofChars]
  show (joinDigits? [] (plain cs) >>= _) = _
  rw [hjoin]
  show (if (String.ofList ((takeSign (cs.map ascii)).2.map Char.toLower) == "inf"
      || String.ofList ((takeSign (cs.map ascii)).2.map Char.toLower) == "infinity") = true
    then some (Binary64.infinite (takeSign (cs.map ascii)).1)
    else if (String.ofList ((takeSign (cs.map ascii)).2.map Char.toLower) == "nan") = true
      then some Binary64.undefined
      else (readDecimal? (takeSign (cs.map ascii)).2).bind fun d =>
        some (Binary64.ofDecimal (takeSign (cs.map ascii)).1 d.digits d.exp)) = _
  rw [ofList_toLower_ne hsign (l := ['n', 'f']) rfl (by decide),
    ofList_toLower_ne hsign (l := "nfinity".toList) rfl (by decide),
    ofList_toLower_ne hsign (l := ['a', 'n']) rfl (by decide)]
  cases hd : readDecimal? (takeSign (cs.map ascii)).2 <;> rw [spelled?, hd] <;> rfl

/-! ## Figures -/

/-- Digits, at least one, and no more than one point. -/
def IsFigure (cs : List Char) : Prop :=
  ∃ whole fraction : List Char, (∀ c ∈ whole ++ fraction, c.isDigit = true)
    ∧ whole ++ fraction ≠ [] ∧ (fraction = [] ∧ cs = whole ∨ cs = whole ++ '.' :: fraction)

/-- A run of digits ends before what is no digit. -/
theorem takeWhile_isDigit (ds rest : List Char) (hds : ∀ c ∈ ds, c.isDigit = true)
    (hrest : ∀ c ∈ rest.head?, c.isDigit = false) :
    (ds ++ rest).takeWhile Char.isDigit = ds ∧ (ds ++ rest).dropWhile Char.isDigit = rest :=
  takeWhile_head hds hrest

/-- How a whole figure is read. -/
theorem readDecimal?_whole {ds : List Char} (hds : ∀ c ∈ ds, c.isDigit = true) (hne : ds ≠ []) :
    readDecimal? ds = some ⟨ofDigits ds, 0⟩ := by
  obtain ⟨htake, hdrop⟩ := takeWhile_isDigit ds [] hds (by rintro c ⟨⟩)
  rw [List.append_nil] at htake hdrop
  cases ds with
  | nil => exact absurd rfl hne
  | cons d ds =>
      rw [readDecimal?]
      simp only [htake, hdrop]
      show some (Decimal.mk (ofDigits (d :: ds ++ [])) (0 - 0)) = _
      rw [List.append_nil]
      rfl

/-- How a figure with a point is read. -/
theorem readDecimal?_point {whole fraction : List Char}
    (hds : ∀ c ∈ whole ++ fraction, c.isDigit = true) (hne : whole ++ fraction ≠ []) :
    readDecimal? (whole ++ '.' :: fraction)
      = some ⟨ofDigits (whole ++ fraction), -(fraction.length : ℤ)⟩ := by
  obtain ⟨htake, hdrop⟩ := takeWhile_isDigit whole ('.' :: fraction)
    (fun c hc => hds c (List.mem_append_left _ hc)) (by rintro c ⟨⟩; rfl)
  obtain ⟨htake', hdrop'⟩ := takeWhile_isDigit fraction []
    (fun c hc => hds c (List.mem_append_right _ hc)) (by rintro c ⟨⟩)
  rw [List.append_nil] at htake' hdrop'
  have hsome : (whole.isEmpty && fraction.isEmpty) = false := by
    cases whole with
    | nil =>
        cases fraction with
        | nil => exact absurd rfl hne
        | cons d ds => rfl
    | cons d ds => rfl
  rw [readDecimal?]
  simp only [htake, hdrop, htake', hdrop', hsome]
  show some (Decimal.mk _ (0 - (fraction.length : ℤ))) = _
  rw [Int.zero_sub]

/-- A numeral has no exponent. -/
theorem eq_nil_of_readExponent? {cs : List Char} (h : ∀ c ∈ cs, c ∈ numeralChars) {e : ℤ}
    (he : readExponent? cs = some e) : cs = [] := by
  cases cs with
  | nil => rfl
  | cons c cs =>
      obtain ⟨-, -, -, -, -, -, hsmall, hcapital, -⟩ := numeralChars_spec c (h c List.mem_cons_self)
      rw [readExponent?, if_neg (by simp [hsmall, hcapital])] at he
      cases he

/-- Only figures can be read. -/
theorem isFigure_of_readDecimal? {cs : List Char} (h : ∀ c ∈ cs, c ∈ numeralChars)
    {d : Decimal} (hd : readDecimal? cs = some d) : IsFigure cs := by
  have hdigits : ∀ ds : List Char, ∀ c ∈ ds.takeWhile Char.isDigit, c.isDigit = true :=
    fun _ c hc => List.all_eq_true.1 List.all_takeWhile c hc
  have hsplit : ∀ ds : List Char, ds.dropWhile Char.isDigit = [] →
      ds.takeWhile Char.isDigit = ds := by
    intro ds hnil
    rw [← List.append_nil (ds.takeWhile Char.isDigit), ← hnil, List.takeWhile_append_dropWhile]
  have hwhole := hdigits cs
  have hcs : cs.takeWhile Char.isDigit ++ cs.dropWhile Char.isDigit = cs :=
    List.takeWhile_append_dropWhile
  have hrest : ∀ c ∈ cs.dropWhile Char.isDigit, c ∈ numeralChars :=
    fun c hc => h c ((List.dropWhile_suffix _).mem hc)
  rw [readDecimal?] at hd
  generalize cs.takeWhile Char.isDigit = whole at hwhole hcs hd
  generalize cs.dropWhile Char.isDigit = rest at hrest hcs hd
  subst hcs
  dsimp only at hd
  split at hd
  · -- a point
    rename_i fraction
    dsimp only at hd
    split at hd
    · cases hd
    · rename_i hempty
      obtain ⟨e, he, -⟩ := Option.bind_eq_some_iff.1 hd
      have hfraction : fraction.takeWhile Char.isDigit = fraction :=
        hsplit fraction (eq_nil_of_readExponent? (fun c hc =>
          hrest c (List.mem_cons_of_mem _ ((List.dropWhile_suffix _).mem hc))) he)
      have hfractionDigits := hdigits fraction
      rw [hfraction] at hempty hfractionDigits
      refine ⟨whole, fraction, fun c hc => ?_, fun hnone => ?_, .inr rfl⟩
      · exact (List.mem_append.1 hc).elim (hwhole c) (hfractionDigits c)
      · obtain ⟨rfl, rfl⟩ := List.append_eq_nil_iff.1 hnone
        exact hempty rfl
  · -- none
    dsimp only at hd
    split at hd
    · cases hd
    · rename_i hempty
      obtain ⟨e, he, -⟩ := Option.bind_eq_some_iff.1 hd
      obtain rfl := eq_nil_of_readExponent? hrest he
      refine ⟨whole, [], by simpa using hwhole, fun hnone => ?_, .inl ⟨rfl, List.append_nil _⟩⟩
      rw [List.append_nil] at hnone
      subst hnone
      exact hempty rfl

/-- What can be read. -/
theorem spelled?_isSome_iff {cs : List Char} (h : ∀ c ∈ cs, c ∈ numeralChars) :
    (spelled? cs).isSome = true ↔ IsFigure (takeSign cs).2 := by
  rw [spelled?, Option.isSome_map]
  constructor
  · intro hsome
    obtain ⟨d, hd⟩ := Option.isSome_iff_exists.1 hsome
    exact isFigure_of_readDecimal? (fun c hc => h c (mem_takeSign hc)) hd
  · rintro ⟨whole, fraction, hds, hne, ⟨rfl, hcs⟩ | hcs⟩
    · rw [List.append_nil] at hds hne
      rw [hcs, readDecimal?_whole hds hne]
      rfl
    · rw [hcs, readDecimal?_point hds hne]
      rfl

/-! ## Digits -/

/-- One more digit multiplies by ten and adds. -/
theorem ofDigits_append_digit (ds : List Char) {d : ℕ} (hd : d < 10) :
    ofDigits (ds ++ [Nat.digitChar d]) = 10 * ofDigits ds + d := by
  rw [ofDigits, List.foldl_append]
  show 10 * ofDigits ds + ((Nat.digitChar d).toNat - 48) = _
  rw [Nat.toNat_digitChar_sub_48_of_lt_ten hd]

/-- The digits of a number spell it. -/
theorem ofDigits_toDigits (n : ℕ) : ofDigits (Nat.toDigits 10 n) = n := by
  induction n using Nat.strongRecOn with
  | ind n ih =>
      rw [Nat.toDigits_eq_if (by decide)]
      split
      · rename_i hn
        have hone := ofDigits_append_digit [] hn
        rw [List.nil_append] at hone
        rw [hone]
        show 10 * 0 + n = n
        omega
      · rename_i hn
        rw [ofDigits_append_digit _ (Nat.mod_lt _ (by decide)), ih (n / 10) (by omega)]
        omega

/-- A number is not too long if its digits are not too many. -/
theorem lt_tooLong_iff {n : ℕ} : n < tooLong ↔ (Nat.toDigits 10 n).length ≤ digitLimit := by
  have hpower : ∀ k, 0 < k → ((Nat.toDigits 10 n).length ≤ k ↔ n < Nat.pow 10 k) :=
    fun k hk => Nat.length_toDigits_le_iff (by decide) hk
  unfold tooLong
  exact (hpower digitLimit (by decide)).symm

/-- A whole number that is not too long has its digits as its text. -/
theorem intText_ok {n : ℤ} (h : n.natAbs < tooLong) : intText n = .ok (digits n) := by
  rw [intText, if_neg (Nat.not_le.2 h)]

/-- Numbers are written in digits. -/
theorem isDigit_toDigits {n : ℕ} {c : Char} (h : c ∈ Nat.toDigits 10 n) : c.isDigit = true :=
  Nat.isDigit_of_mem_toDigits (by decide) (by decide) h

end Number

end TurtleLogo
