import TurtleLogo.Proofs.Colours
import TurtleLogo.Proofs.Readback

/-! # Colours of three numbers

    A colour that a program gives by three numbers goes to the screen as a text,
    and the screen reads the numbers back.

    * A number is plain if its text is a numeral of what reals can hold
      (`Number.Plain`), and scientific if its text has an exponent
      (`Number.Scientific`). The numeral in a text gives the channel that the
      number means if the number is plain, and otherwise only if it is a negative
      real (`Number.exists_reads`).
    * The numerals are found again in the text of the colour up to the first
      exponent (`Rgb.channels?_rgbText`, `Rgb.channels?_exponent`), so either all
      is black or every channel is read for itself (`Rgb.shown_of_scientific`,
      `Rgb.shown_of_not_scientific`), and it is settled which colours show as
      they were chosen (`Rgb.shown_iff`).
    * A cosine that is not quite zero is enough for another colour
      (`Rgb.shown_exponent`). -/

namespace TurtleLogo

/-- The text of a number as a value is that of the number. -/
theorem Value.text_number (n : Number) : (Value.number n).text = n.text := by
  rw [text, atomText]
  rintro _ ⟨⟩

namespace Number

/-! ## Plain numbers -/

/-- A number that is written as a numeral of what reals can hold: a whole number
    below the limit, or a real that is neither so small nor so large that it is
    written with an exponent. -/
def Plain : Number → Prop
  | .int n => (n.natAbs : ℚ) < Binary64.limit
  | .real x => x.isFinite = true ∧ (x.isZero = true ∨ (10 : ℚ) ^ (-4 : ℤ) ≤ x.magnitude)
      ∧ x.magnitude < 10 ^ (16 : ℤ)

/-- Rounding a whole number does not change the channel that it gives. -/
theorem clampChannel_ofInt {n : ℤ} (h : (Binary64.ofInt n).isFinite = true) :
    ∃ i, trunc (.real (Binary64.ofInt n)) = .ok i ∧ Rgb.clampChannel i = Rgb.clampChannel n := by
  have hsmall : ∀ n < 256, trunc (.real (Binary64.ofInt (n : ℕ))) = .ok (n : ℤ) := by
    decide +kernel
  obtain ⟨k, hk, -, hlt⟩ := trunc_real h
  have hsign : (Binary64.ofInt n).isNeg = decide (n < 0) := Binary64.isNeg_ofScaled _ _ _ _
  rcases lt_or_ge n 0 with hneg | hpos
  · rw [hsign, if_pos (decide_eq_true hneg)] at hk
    refine ⟨_, hk, ?_⟩
    rw [Rgb.clampChannel, Rgb.clampChannel]
    omega
  · obtain ⟨j, rfl⟩ := Int.eq_ofNat_of_zero_le hpos
    rcases Nat.lt_or_ge j 256 with hj | hj
    · exact ⟨j, hsmall j hj, rfl⟩
    · -- from the last channel on, it is enough that rounding keeps the order
      rw [hsign, if_neg (by simp)] at hk
      have hbound : (Binary64.ofInt ((256 : ℕ) : ℤ)).magnitude = 256 := by
        have hfinite : Binary64.ofInt ((256 : ℕ) : ℤ)
            = .finite false Binary64.fullWidth (-44) (by decide) := by decide +kernel
        rw [hfinite, Binary64.magnitude]
        norm_num
      have hlarge : (256 : ℚ) < k + 1 :=
        hbound ▸ (Binary64.magnitude_ofInt_mono hj h).trans_lt hlt
      have hk256 : 256 < k + 1 := by exact_mod_cast hlarge
      refine ⟨_, hk, ?_⟩
      rw [Rgb.clampChannel, Rgb.clampChannel]
      omega

/-- A whole number that a real can hold has a text. -/
theorem lt_tooLong {n : ℕ} (h : (n : ℚ) < Binary64.limit) : n < tooLong := by
  have hpower : n < 2 ^ 1024 := by
    have hlt := h.trans Binary64.limit_lt_power
    rw [show (1024 : ℤ) = (1024 : ℕ) from rfl, zpow_natCast] at hlt
    exact_mod_cast hlt
  have hle : ∀ i j : ℕ, i ≤ j → 2 ^ i ≤ Nat.pow 10 j := fun i j hij =>
    (Nat.pow_le_pow_left (by decide) i).trans (Nat.pow_le_pow_right (by decide) hij)
  unfold tooLong
  exact hpower.trans_le (hle 1024 digitLimit (by decide))

/-- Zero is whole. -/
theorem isWhole_of_isZero {x : Binary64} (h : x.isZero = true) : x.isWhole = true := by
  cases x with
  | finite s m q hq =>
      rw [Binary64.isZero, beq_iff_eq] at h
      subst h
      rw [Binary64.isWhole, Nat.zero_mod, beq_self_eq_true, Bool.or_true]
  | _ => cases h

/-- The text of a plain number is a numeral that gives the same channel. -/
theorem Plain.text_spec {a : Number} (h : a.Plain) : ∃ t i, a.text = .ok t ∧ IsNumeral t
    ∧ a.trunc = .ok i ∧ Rgb.readChannel t = .ok (Rgb.clampChannel i) := by
  -- a whole number, as such or as what a real is cut off to
  have hwhole : ∀ n : ℤ, (n.natAbs : ℚ) < Binary64.limit →
      intText n = .ok (digits n) ∧ IsNumeral (digits n)
        ∧ Rgb.readChannel (digits n) = .ok (Rgb.clampChannel n) := by
    intro n hn
    obtain ⟨hnumeral, hread⟩ := readReal?_digits n
    obtain ⟨i, hi, hclamp⟩ := clampChannel_ofInt ((Binary64.isFinite_ofInt n).2 hn)
    refine ⟨intText_ok (lt_tooLong hn), hnumeral, ?_⟩
    rw [Rgb.readChannel, hread, ← hclamp]
    exact Except.bind_of_ok hi _
  cases a with
  | int n =>
      obtain ⟨htext, hnumeral, hread⟩ := hwhole n h
      exact ⟨digits n, n, htext, hnumeral, rfl, hread⟩
  | real x =>
      obtain ⟨hx, hlow, hhigh⟩ := h
      obtain ⟨k, hk, hle, -⟩ := trunc_real hx
      rw [text, (lt_plainBound_iff hx).2 hhigh, Bool.and_true]
      split
      · have habs : (if x.isNeg then -(k : ℤ) else k).natAbs = k := by split <;> omega
        obtain ⟨htext, hnumeral, hread⟩ := hwhole (if x.isNeg then -(k : ℤ) else k) (by
          rw [habs]
          exact hle.trans_lt x.magnitude_lt_limit)
        exact ⟨_, _, (Except.bind_of_ok hk _).trans htext, hnumeral, hk, hread⟩
      · rename_i hfraction
        have hnotzero : ¬x.isZero = true := fun hzero => hfraction (isWhole_of_isZero hzero)
        obtain ⟨hnumeral, hread⟩ := readReal?_text hx (hlow.resolve_left hnotzero) hhigh
        refine ⟨x.text, _, rfl, hnumeral, hk, ?_⟩
        rw [Rgb.readChannel, hread]
        exact Except.bind_of_ok hk _

/-! ## Numbers with an exponent -/

/-- A number that is written with an exponent. -/
def Scientific : Number → Prop
  | .int _ => False
  | .real x => x.isZero = false
      ∧ ¬((10 : ℚ) ^ (-4 : ℤ) ≤ x.magnitude ∧ x.magnitude < 10 ^ (16 : ℤ))

/-- No number is plain and scientific. -/
theorem not_scientific_of_plain {a : Number} (h : a.Plain) : ¬a.Scientific := by
  cases a with
  | int n => exact id
  | real x =>
      obtain ⟨-, hlow, hhigh⟩ := h
      rintro ⟨hzero, hout⟩
      rcases hlow with hlow | hlow
      · rw [hzero] at hlow
        cases hlow
      · exact hout ⟨hlow, hhigh⟩

/-- A finite real that is not plain is scientific. -/
theorem scientific_of_not_plain {x : Binary64} (hx : x.isFinite = true)
    (h : ¬(Number.real x).Plain) : (Number.real x).Scientific := by
  have hzero : x.isZero = false := by
    refine Bool.eq_false_iff.2 fun hzero => h ⟨hx, .inl hzero, ?_⟩
    rw [(Binary64.isZero_iff hx).1 hzero]
    exact zpow_pos (by norm_num) _
  exact ⟨hzero, fun hplace => h ⟨hx, .inr hplace.1, hplace.2⟩⟩

/-- A whole real is not so small that it is written with an exponent. -/
theorem one_le_of_isWhole {x : Binary64} (h : x.isWhole = true) (hzero : x.isZero = false) :
    1 ≤ x.magnitude := by
  cases x with
  | finite s m q hq =>
      have hm : 0 < m := Nat.pos_of_ne_zero (by simpa [Binary64.isZero] using hzero)
      have hone : (1 : ℚ) ≤ m := by exact_mod_cast hm
      show (1 : ℚ) ≤ m * 2 ^ q
      rcases le_or_gt 0 q with hq | hq
      · exact one_le_mul_of_one_le_of_one_le hone (one_le_zpow₀ (by norm_num) hq)
      · obtain ⟨j, rfl⟩ : ∃ j : ℕ, q = -j := ⟨q.natAbs, by omega⟩
        rw [Binary64.isWhole, decide_eq_false (by omega), Bool.false_or, beq_iff_eq, neg_neg,
          Int.toNat_natCast, Nat.one_shiftLeft] at h
        have hle : 2 ^ j ≤ m := Nat.le_of_dvd hm (Nat.dvd_of_mod_eq_zero h)
        rw [zpow_neg, zpow_natCast, ← div_eq_mul_inv, one_le_div (by positivity)]
        exact_mod_cast hle
  | _ => cases h

/-- Cut off at its exponent, a number keeps its channel exactly if it is negative. -/
theorem clampChannel_mantissa {x y : Binary64} (hx : x.isFinite = true)
    (hscientific : (Number.real x).Scientific) (hy : y.isFinite = true)
    (hsign : y.isNeg = x.isNeg) (hlow : 1 ≤ y.magnitude) (hhigh : y.magnitude ≤ 10) :
    ∃ i j, trunc (.real x) = .ok i ∧ trunc (.real y) = .ok j
      ∧ (Rgb.clampChannel j = Rgb.clampChannel i ↔ x.value < 0) := by
  obtain ⟨hzero, hout⟩ := hscientific
  obtain ⟨k, hk, hle, hlt⟩ := trunc_real hx
  obtain ⟨l, hl, hle', hlt'⟩ := trunc_real hy
  refine ⟨_, _, hk, hl, ?_⟩
  have hone : 1 < l + 1 := by exact_mod_cast hlow.trans_lt hlt'
  have hten : l ≤ 10 := by exact_mod_cast hle'.trans hhigh
  -- the number itself is far from what its first digits say
  have hfar : k < 1 ∨ 256 < k + 1 := by
    rcases not_and_or.1 hout with hsmall | hlarge
    · have hnone : (k : ℚ) < 1 := hle.trans_lt ((not_le.1 hsmall).trans (by norm_num))
      exact .inl (by exact_mod_cast hnone)
    · have hlast : (256 : ℚ) < k + 1 := by
        refine lt_of_le_of_lt ?_ ((not_lt.1 hlarge).trans_lt hlt)
        norm_num
      exact .inr (by exact_mod_cast hlast)
  have hpos : 0 < x.magnitude := by
    refine x.magnitude_nonneg.lt_of_ne fun hnull => ?_
    rw [(Binary64.isZero_iff hx).2 hnull.symm] at hzero
    cases hzero
  rw [hsign, Binary64.value_eq, Rgb.clampChannel, Rgb.clampChannel]
  cases x.isNeg with
  | true =>
      rw [if_pos rfl, if_pos rfl, if_pos rfl]
      exact iff_of_true (by omega) (neg_lt_zero.2 hpos)
  | false =>
      rw [if_neg Bool.false_ne_true, if_neg Bool.false_ne_true, if_neg Bool.false_ne_true]
      exact iff_of_false (by omega) (not_lt.2 hpos.le)

/-- A plain or a scientific number has a text. -/
theorem exists_text {a : Number} (h : a.Plain ∨ a.Scientific) : ∃ t, a.text = .ok t := by
  rcases h with h | h
  · obtain ⟨t, -, ht, -⟩ := h.text_spec
    exact ⟨t, ht⟩
  · cases a with
    | int n => cases h
    | real x => exact text_ok (by rintro ⟨⟩)

/-- A finite number has a whole part. -/
theorem exists_trunc {a : Number} (h : a.isFinite = true) : ∃ i, a.trunc = .ok i := by
  cases a with
  | int n => exact ⟨n, rfl⟩
  | real x =>
      obtain ⟨k, hk, -⟩ := trunc_real h
      exact ⟨_, hk⟩

/-! ## Numbers as they are read back -/

/-- How a number with the whole part `i` comes back from a screen: its text is a
    numeral `s` and what follows it. -/
structure Reads (a : Number) (s u : Text) (i : ℤ) : Prop where
  text : a.text = .ok (s ++ u)
  numeral : IsNumeral s
  rest : u = [] ∧ ¬a.Scientific ∨ (∃ t, u = .char 'e' :: t) ∧ a.Scientific
  whole : a.trunc = .ok i
  channel : Rgb.readChannel s = .ok (Rgb.clampChannel i)
    ↔ a.Plain ∨ a.Scientific ∧ a.value < 0

/-- A plain number comes back from the screen. -/
theorem Plain.exists_reads {a : Number} (h : a.Plain) : ∃ s u i, a.Reads s u i := by
  obtain ⟨t, i, ht, hnumeral, hi, hread⟩ := h.text_spec
  refine ⟨t, [], i, ?_, hnumeral, .inl ⟨rfl, not_scientific_of_plain h⟩, hi,
    iff_of_true hread (.inl h)⟩
  rw [List.append_nil, ht]

/-- The digits of a whole number past the limit are read as an infinite real. -/
theorem exists_reads_int {n : ℤ} (htext : ∃ t, (Number.int n).text = .ok t)
    (hplain : ¬(Number.int n).Plain) : ∃ s u i, (Number.int n).Reads s u i := by
  obtain ⟨hnumeral, hread⟩ := readReal?_digits n
  obtain ⟨t, ht⟩ := htext
  have hdigits : (Number.int n).text = .ok (digits n ++ []) := by
    rw [text, intText] at ht
    rw [List.append_nil, text, intText]
    split at ht
    · cases ht
    · rename_i hshort
      rw [if_neg hshort]
  refine ⟨digits n, [], n, hdigits, hnumeral, .inl ⟨rfl, id⟩, rfl, ?_⟩
  refine iff_of_false (fun hok => hplain ((Binary64.isFinite_ofInt n).1 ?_)) fun hor =>
    hor.elim hplain And.left
  rw [Rgb.readChannel, hread] at hok
  obtain ⟨i, hi, -⟩ := Except.bind_eq_ok hok
  cases hreal : Binary64.ofInt n with
  | finite s m q hq => rfl
  | _ =>
      rw [hreal] at hi
      cases hi

/-- Of the text of a scientific number, what stands before the exponent is read. -/
theorem Scientific.exists_reads {x : Binary64} (hx : x.isFinite = true)
    (h : (Number.real x).Scientific) : ∃ s u i, (Number.real x).Reads s u i := by
  obtain ⟨s, tail, y, hs, hnumeral, hread, hy, hsign, hlow, hhigh⟩ := text_exponent hx h.1 h.2
  obtain ⟨i, j, hi, hj, hclamp⟩ := clampChannel_mantissa hx h hy hsign hlow hhigh
  have hlong : ¬(x.isWhole && lt (.real x.abs) plainBound) = true := by
    rw [Bool.and_eq_true]
    rintro ⟨hwhole, hsmall⟩
    refine h.2 ⟨le_trans (by norm_num) (one_le_of_isWhole hwhole h.1), ?_⟩
    exact (lt_plainBound_iff hx).1 hsmall
  have hchannel : Rgb.readChannel s = .ok (Rgb.clampChannel j) := by
    rw [Rgb.readChannel, hread]
    exact Except.bind_of_ok hj _
  refine ⟨s, .char 'e' :: tail, i, ?_, hnumeral, .inr ⟨⟨tail, rfl⟩, h⟩, hi, ?_⟩
  · rw [text, if_neg hlong, hs]
  · rw [hchannel, Except.ok.injEq, hclamp]
    exact ⟨fun hneg => .inr ⟨h, hneg⟩,
      fun hor => (hor.resolve_left fun hplain => not_scientific_of_plain hplain h).2⟩

/-- Every finite number with a text is read back. -/
theorem exists_reads {a : Number} (h : a.isFinite = true) (htext : ∃ t, a.text = .ok t) :
    ∃ s u i, a.Reads s u i := by
  by_cases hplain : a.Plain
  · exact hplain.exists_reads
  · cases a with
    | int n => exact exists_reads_int htext hplain
    | real x => exact Scientific.exists_reads h (scientific_of_not_plain h hplain)

end Number

namespace Rgb

/-! ## Channels in a text -/

/-- The characters of a numeral belong to a channel and are not blank. -/
theorem isChannelChar_numeral {t : Text} (h : Number.IsNumeral t) :
    t ≠ [] ∧ ∀ c ∈ t, isChannelChar c = true ∧ Text.isBlank c = false := by
  have hall : ∀ c ∈ Number.numeralChars,
      isChannelChar (.char c) = true ∧ Text.isBlank (.char c) = false :=
    Number.forall_numeralChars (by decide +kernel)
  obtain ⟨cs, rfl, hne, hcs⟩ := h
  refine ⟨fun hnil => hne (List.map_eq_nil_iff.1 hnil), fun c hc => ?_⟩
  obtain ⟨d, hd, rfl⟩ := List.mem_map.1 hc
  exact hall d (hcs d hd)

/-- Nothing is dropped before what is not blank. -/
theorem dropWhile_isBlank {c : CodePoint} {t : Text} (h : Text.isBlank c = false) :
    (c :: t).dropWhile Text.isBlank = c :: t := by
  rw [List.dropWhile_cons, h, if_neg Bool.false_ne_true]

/-- A numeral before what does not belong to a channel is one channel. -/
theorem takeChannel_numeral {t : Text} (h : Number.IsNumeral t) {c : CodePoint} {u : Text}
    (hend : isChannelChar c = false ∧ Text.isBlank c = false) :
    takeChannel (t ++ c :: u) = some (t, c :: u)
      ∧ takeChannel (.char ' ' :: t ++ c :: u) = some (t, c :: u) := by
  obtain ⟨hne, hchars⟩ := isChannelChar_numeral h
  have hdrop : (t ++ c :: u).dropWhile Text.isBlank = t ++ c :: u := by
    cases t with
    | nil => exact absurd rfl hne
    | cons d t => exact dropWhile_isBlank (hchars d List.mem_cons_self).2
  have htake : (t ++ c :: u).takeWhile isChannelChar = t
      ∧ (t ++ c :: u).dropWhile isChannelChar = c :: u := by
    rw [List.takeWhile_append_of_pos fun d hd => (hchars d hd).1,
      List.dropWhile_append_of_pos fun d hd => (hchars d hd).1, List.takeWhile_cons,
      List.dropWhile_cons, hend.1, if_neg Bool.false_ne_true, if_neg Bool.false_ne_true,
      List.append_nil]
    exact ⟨rfl, rfl⟩
  have hone : takeChannel (t ++ c :: u) = some (t, c :: u) := by
    rw [takeChannel, hdrop, htake.1, htake.2, dropWhile_isBlank hend.2,
      if_neg (by simpa using hne)]
  exact ⟨hone, hone⟩

/-- A text between two characters that are not blank. -/
theorem trim_eq_self {c d : CodePoint} {t : Text} (hc : Text.isBlank c = false)
    (hd : Text.isBlank d = false) : Text.trim (c :: t ++ [d]) = c :: t ++ [d] := by
  rw [Text.trim, Text.trimBy, List.cons_append, dropWhile_isBlank hc, ← List.cons_append,
    List.reverse_append, List.reverse_singleton, List.singleton_append, dropWhile_isBlank hd,
    List.reverse_cons, List.reverse_reverse]

/-- The text of a colour as it is read: after each channel comes what ends it. -/
theorem trim_rgbText (r g b : Text) : Text.trim (Colour.rgbText r g b)
    = Text.ofChars ['r', 'g', 'b', '('] ++ (r ++ .char ',' ::
      (.char ' ' :: g ++ .char ',' :: (.char ' ' :: b ++ .char ')' :: []))) := by
  have htrim : Text.trim (Colour.rgbText r g b) = Colour.rgbText r g b :=
    trim_eq_self (t := Text.ofChars ['g', 'b', '('] ++ r ++ ", " ++ g ++ ", " ++ b)
      (show Text.isBlank (.char 'r') = false by decide)
      (show Text.isBlank (.char ')') = false by decide)
  rw [htrim]
  simp only [Colour.rgbText, List.append_assoc]
  rfl

theorem afterOpening_rgb (t : Text) :
    afterOpening (Text.ofChars ['r', 'g', 'b', '('] ++ t) = some t := rfl

theorem afterComma_comma (t : Text) : afterComma (.char ',' :: t) = some t := rfl

theorem afterComma_exponent (t : Text) : afterComma (.char 'e' :: t) = none := rfl

/-- The characters that end a channel in the text of a colour. -/
theorem ends_channel {c : Char} (h : c = ',' ∨ c = ')' ∨ c = 'e') :
    isChannelChar (.char c) = false ∧ Text.isBlank (.char c) = false := by
  rcases h with rfl | rfl | rfl <;> decide +kernel

section

variable {r g b : Text} (hr : Number.IsNumeral r) (hg : Number.IsNumeral g)

include hr hg

/-- The channels of a colour that is written with numerals; what stands behind the
    last of them is left. -/
theorem channels?_rgbText (hb : Number.IsNumeral b) {w : Text}
    (hw : w = [] ∨ ∃ t, w = .char 'e' :: t) :
    channels? (Text.trim (Colour.rgbText r g (b ++ w))) = some (r, g, b) := by
  have hred := fun u => (takeChannel_numeral hr (ends_channel (.inl rfl)) (u := u)).1
  have hgreen := fun u => (takeChannel_numeral hg (ends_channel (.inl rfl)) (u := u)).2
  have hblue : ∃ u, takeChannel (.char ' ' :: (b ++ w) ++ .char ')' :: []) = some (b, u) := by
    rcases hw with rfl | ⟨t, rfl⟩
    · rw [List.append_nil]
      exact ⟨_, (takeChannel_numeral hb (ends_channel (.inr (.inl rfl)))).2⟩
    · rw [← List.cons_append, List.append_assoc]
      exact ⟨_, (takeChannel_numeral hb (ends_channel (.inr (.inr rfl)))).2⟩
  obtain ⟨u, hblue⟩ := hblue
  rw [trim_rgbText, channels?]
  simp only [afterOpening_rgb, hred, hgreen, hblue, afterComma_comma, Option.bind_eq_bind,
    Option.bind_some]

/-- A red or a green with an exponent leaves a colour without channels. -/
theorem channels?_exponent {u v t : Text}
    (h : (∃ s, u = .char 'e' :: s) ∨ u = [] ∧ ∃ s, v = .char 'e' :: s) :
    channels? (Text.trim (Colour.rgbText (r ++ u) (g ++ v) t)) = none := by
  rw [trim_rgbText, channels?]
  rcases h with ⟨s, rfl⟩ | ⟨rfl, s, rfl⟩
  · have hred := fun u => (takeChannel_numeral hr (ends_channel (.inr (.inr rfl))) (u := u)).1
    simp only [afterOpening_rgb, List.append_assoc, List.cons_append, hred,
      afterComma_exponent, Option.bind_eq_bind, Option.bind_some, Option.bind_none]
  · have hred := fun u => (takeChannel_numeral hr (ends_channel (.inl rfl)) (u := u)).1
    have hgreen := fun u => (takeChannel_numeral hg (ends_channel (.inr (.inr rfl))) (u := u)).2
    simp only [List.cons_append] at hgreen
    simp only [afterOpening_rgb, List.append_nil, List.append_assoc, List.cons_append, hred,
      hgreen, afterComma_comma, afterComma_exponent, Option.bind_eq_bind, Option.bind_some,
      Option.bind_none]

end

/-! ## Names -/

/-- What a text in small letters starts with is settled once it is read. -/
theorem lowerOnto_append (sofar before t : Text) :
    ∃ u, Text.lowerOnto sofar before t = sofar.reverse ++ u := by
  induction t generalizing sofar before with
  | nil => exact ⟨[], (List.append_nil _).symm⟩
  | cons c t ih =>
      rw [Text.lowerOnto]
      obtain ⟨u, hu⟩ := ih _ (c :: before)
      rw [hu, List.reverse_append, List.append_assoc]
      exact ⟨_, rfl⟩

/-- The opening is in small letters already. -/
theorem lower_rgb (t : Text) : ∃ u, Text.lower (Text.ofChars ['r', 'g', 'b', '('] ++ t)
    = Text.ofChars ['r', 'g', 'b', '('] ++ u :=
  lowerOnto_append (Text.ofChars ['(', 'b', 'g', 'r']) (Text.ofChars ['(', 'b', 'g', 'r']) t

/-- Characters that are found are put behind those so far. -/
theorem charsOnto?_append {sofar cs : List Char} {t : Text}
    (h : Text.charsOnto? sofar t = some cs) : ∃ ds, cs = sofar.reverse ++ ds := by
  induction t generalizing sofar with
  | nil =>
      cases h
      exact ⟨[], (List.append_nil _).symm⟩
  | cons c t ih =>
      cases c with
      | char c =>
          obtain ⟨ds, hds⟩ := ih h
          rw [List.reverse_cons, List.append_assoc] at hds
          exact ⟨_, hds⟩
      | half n => cases h

/-- The program's own screen knows no colour whose name starts like channels. -/
theorem named?_rgb (t : Text) : named? (Text.ofChars ['r', 'g', 'b', '('] ++ t) = none := by
  -- no name starts like this, and digits come after another character
  have hname : byName? (Text.ofChars ['r', 'g', 'b', '('] ++ t) = none := by
    have hnone : ∀ p ∈ screenNames, ¬Text.ofChars ['r', 'g', 'b', '('] <+: p.1 := by decide
    rw [byName?, List.lookup_eq_none_iff]
    intro p hp
    rw [bne_iff_ne]
    rintro heq
    exact hnone p hp (heq ▸ ⟨t.filter (· != .char ' '), rfl⟩)
  have hdigital : digital? (Text.ofChars ['r', 'g', 'b', '('] ++ t) = none := by
    rw [digital?]
    cases hcs : (Text.ofChars ['r', 'g', 'b', '('] ++ t).chars? with
    | none => rfl
    | some cs =>
        obtain ⟨ds, rfl⟩ := charsOnto?_append
          (show Text.charsOnto? ['(', 'b', 'g', 'r'] t = some cs from hcs)
        rfl
  rw [named?, hname, hdigital]

/-! ## Chosen colours -/

section

variable {known : Text → Option Rgb} {r g b : Number}

/-- What a screen makes of three numbers that have texts. -/
theorem shown_numbers {s t u : Text} (hs : r.text = .ok s) (ht : g.text = .ok t)
    (hu : b.text = .ok u) : shown known (.list [.number r, .number g, .number b])
      = parseWith known (Colour.rgbText s t u) := by
  rw [shown, Colour.resolve, Value.text_number, Value.text_number, Value.text_number, hs, ht, hu]
  rfl

/-- A colour of three numbers is shown only if each has a text. -/
theorem texts_of_shown {c : Rgb}
    (h : shown known (.list [.number r, .number g, .number b]) = .ok c) :
    ∀ n ∈ [r, g, b], ∃ t, n.text = .ok t := by
  rw [shown, Colour.resolve, Value.text_number, Value.text_number, Value.text_number] at h
  obtain ⟨w, hw, -⟩ := Except.bind_eq_ok h
  obtain ⟨s, hs, hw⟩ := Except.bind_eq_ok hw
  obtain ⟨t, ht, hw⟩ := Except.bind_eq_ok hw
  obtain ⟨u, hu, -⟩ := Except.bind_eq_ok hw
  rw [List.forall_mem_cons, List.forall_mem_cons, List.forall_mem_singleton]
  exact ⟨⟨s, hs⟩, ⟨t, ht⟩, ⟨u, hu⟩⟩

section

variable {s t u s' t' u' : Text} {i j k : ℤ} (hred : r.Reads s s' i) (hgreen : g.Reads t t' j)
  (hblue : b.Reads u u' k)

include hred hgreen hblue

/-- With an exponent in red or green, there are no channels, and a colour that the
    screen does not know by name is black. -/
theorem shown_of_scientific (h : r.Scientific ∨ g.Scientific)
    (hknown : ∀ t, known (Text.ofChars ['r', 'g', 'b', '('] ++ t) = none) :
    shown known (.list [.number r, .number g, .number b]) = .ok black := by
  have hnone : channels? (Text.trim (Colour.rgbText (s ++ s') (t ++ t') (u ++ u'))) = none := by
    refine channels?_exponent hred.numeral hgreen.numeral ?_
    rcases hred.rest with ⟨hs', hnot⟩ | ⟨hs', -⟩
    · rcases hgreen.rest with ⟨-, hnot'⟩ | ⟨ht', -⟩
      · exact absurd h (not_or.2 ⟨hnot, hnot'⟩)
      · exact .inr ⟨hs', ht'⟩
    · exact .inl hs'
  have hlower : ∃ w, Text.lower (Text.trim (Colour.rgbText (s ++ s') (t ++ t') (u ++ u')))
      = Text.ofChars ['r', 'g', 'b', '('] ++ w := by
    rw [trim_rgbText]
    exact lower_rgb _
  obtain ⟨w, hw⟩ := hlower
  rw [shown_numbers hred.text hgreen.text hblue.text, parseWith_none hnone, hw, hknown]
  rfl

/-- Without one, every channel is read for itself. -/
theorem shown_of_not_scientific (hr : ¬r.Scientific) (hg : ¬g.Scientific) :
    shown known (.list [.number r, .number g, .number b])
        = .ok ⟨clampChannel i, clampChannel j, clampChannel k⟩ ↔
      r.Plain ∧ g.Plain ∧ (b.Plain ∨ b.Scientific ∧ b.value < 0) := by
  obtain ⟨hs', -⟩ := hred.rest.resolve_right fun h => hr h.2
  obtain ⟨ht', -⟩ := hgreen.rest.resolve_right fun h => hg h.2
  have hchannels : channels? (Text.trim (Colour.rgbText (s ++ s') (t ++ t') (u ++ u')))
      = some (s, t, u) := by
    rw [hs', ht', List.append_nil, List.append_nil]
    exact channels?_rgbText hred.numeral hgreen.numeral hblue.numeral
      (hblue.rest.imp And.left And.left)
  rw [shown_numbers hred.text hgreen.text hblue.text, parseWith_some hchannels]
  constructor
  · intro h
    obtain ⟨x, hx, h⟩ := Except.bind_eq_ok h
    obtain ⟨y, hy, h⟩ := Except.bind_eq_ok h
    obtain ⟨z, hz, h⟩ := Except.bind_eq_ok h
    cases h
    exact ⟨(hred.channel.1 hx).resolve_right fun h => hr h.1,
      (hgreen.channel.1 hy).resolve_right fun h => hg h.1, hblue.channel.1 hz⟩
  · rintro ⟨hr, hg, hb⟩
    rw [Except.bind_of_ok (hred.channel.2 (.inl hr)),
      Except.bind_of_ok (hgreen.channel.2 (.inl hg)), Except.bind_of_ok (hblue.channel.2 hb)]

end

/-- Three finite numbers show as they were chosen, each cut off towards zero and
    brought into range, exactly if they are plain, where the last one may also be
    negative; or if the choice is black and there are no channels to be found. -/
theorem shown_iff (hknown : ∀ t, known (Text.ofChars ['r', 'g', 'b', '('] ++ t) = none)
    (hr : r.isFinite = true) (hg : g.isFinite = true) (hb : b.isFinite = true) :
    ∃ i j k, r.trunc = .ok i ∧ g.trunc = .ok j ∧ b.trunc = .ok k
      ∧ (shown known (.list [.number r, .number g, .number b])
          = .ok ⟨clampChannel i, clampChannel j, clampChannel k⟩ ↔
        r.Plain ∧ g.Plain ∧ (b.Plain ∨ b.Scientific ∧ b.value < 0)
        ∨ (r.Scientific ∨ g.Scientific) ∧ (∀ n ∈ [r, g, b], ∃ t, n.text = .ok t)
          ∧ (⟨clampChannel i, clampChannel j, clampChannel k⟩ : Rgb) = black) := by
  by_cases htexts : ∀ n ∈ [r, g, b], ∃ t, n.text = .ok t
  · obtain ⟨s, s', i, hred⟩ := Number.exists_reads hr (htexts r (by simp))
    obtain ⟨t, t', j, hgreen⟩ := Number.exists_reads hg (htexts g (by simp))
    obtain ⟨u, u', k, hblue⟩ := Number.exists_reads hb (htexts b (by simp))
    refine ⟨i, j, k, hred.whole, hgreen.whole, hblue.whole, ?_⟩
    by_cases hcut : r.Scientific ∨ g.Scientific
    · rw [shown_of_scientific hred hgreen hblue hcut hknown, Except.ok.injEq]
      constructor
      · exact fun hblack => .inr ⟨hcut, htexts, hblack.symm⟩
      · rintro (⟨hr, hg, -⟩ | ⟨-, -, hblack⟩)
        · exact absurd hcut (not_or.2 ⟨Number.not_scientific_of_plain hr,
            Number.not_scientific_of_plain hg⟩)
        · exact hblack.symm
    · obtain ⟨hnot, hnot'⟩ := not_or.1 hcut
      rw [shown_of_not_scientific hred hgreen hblue hnot hnot']
      exact ⟨.inl, fun hor => hor.resolve_right fun hcontra => hcut hcontra.1⟩
  · -- a number without a text leaves no colour at all
    obtain ⟨i, hi⟩ := Number.exists_trunc hr
    obtain ⟨j, hj⟩ := Number.exists_trunc hg
    obtain ⟨k, hk⟩ := Number.exists_trunc hb
    refine ⟨i, j, k, hi, hj, hk, iff_of_false (fun h => htexts (texts_of_shown h)) ?_⟩
    rintro (⟨hr, hg, hb⟩ | ⟨-, hcontra, -⟩)
    · refine htexts ?_
      rw [List.forall_mem_cons, List.forall_mem_cons, List.forall_mem_singleton]
      exact ⟨Number.exists_text (.inl hr), Number.exists_text (.inl hg),
        Number.exists_text (hb.imp_right And.left)⟩
    · exact htexts hcontra

end

/-- The law at a colour with a channel too big and one too small. -/
theorem shown_iff_list : ∃ half : Binary64, half = Binary64.ofRatio 5 2
    ∧ shown named? (.list [.ofInt 300, .number (.real half), .ofInt (-7)]) = .ok ⟨255, 2, 0⟩ := by
  have hsmall : ∀ n : ℤ, (n.natAbs : ℚ) ≤ 1000000 → (Number.int n).Plain :=
    fun n hn => hn.trans_lt Binary64.million_lt_limit
  have hhalf : (Number.real (.finite false 5629499534213120 (-51) (by decide))).Plain := by
    refine ⟨rfl, .inr ?_, ?_⟩ <;> rw [Binary64.magnitude] <;> norm_num
  have htrunc : Number.trunc (.real (.finite false 5629499534213120 (-51) (by decide)))
      = .ok 2 := by decide +kernel
  obtain ⟨i, j, k, hi, hj, hk, hiff⟩ := shown_iff named?_rgb (r := .int 300)
    (g := .real (.finite false 5629499534213120 (-51) (by decide))) (b := .int (-7)) rfl rfl rfl
  refine ⟨_, by decide +kernel, (hiff.2 (.inl ⟨hsmall 300 (by norm_num), hhalf,
    .inl (hsmall (-7) (by norm_num))⟩)).trans ?_⟩
  cases hi
  cases hk
  rw [htrunc] at hj
  cases hj
  decide

/-- A number that is written with an exponent is no channel: with a red of a
    cosine that is not quite zero, green shows as black. -/
theorem shown_exponent : ∃ r : Number, Number.cos (.int 90) = .ok r ∧ r.isFinite = true
    ∧ r.trunc = .ok 0 ∧ shown named? (.list [.number r, .ofInt 255, .ofInt 0]) = .ok black
    ∧ (⟨clampChannel 0, clampChannel 255, clampChannel 0⟩ : Rgb) ≠ black := by
  refine ⟨.real (.finite false 4967757600021511 (-106) (by decide)), ?_, rfl, ?_, ?_, ?_⟩
  · decide +kernel
  · decide +kernel
  · decide +kernel
  · decide

end Rgb

end TurtleLogo
