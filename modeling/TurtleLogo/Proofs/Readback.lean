import TurtleLogo.Proofs.Numeral
import TurtleLogo.Proofs.Shortest

/-! # Texts that read back

    How the texts of numbers are read as reals.

    * A real from `10 ^ (-4)` to below `10 ^ 16` is written in positional notation
      (`place_iff`) and read back as itself (`readReal?_text`), and the digits of
      a whole number are read as the real nearest to it (`readReal?_digits`).
      Both texts are numerals: they have digits, a sign or a point, and nothing
      else.
    * Any other real but zero has an exponent, and what stands before it is a
      numeral from `1` to `10` (`text_exponent`). -/

namespace TurtleLogo.Number

/-! ## Numerals -/

/-- Digits stand in numerals. -/
theorem mem_numeralChars_of_isDigit {c : Char} (h : c.isDigit = true) : c ∈ numeralChars := by
  have hrange : 48 ≤ c.toNat ∧ c.toNat ≤ 57 := by
    simpa [Char.isDigit, UInt32.le_iff_toNat_le] using h
  have hall : ∀ i < 10, Char.ofNat (48 + i) ∈ numeralChars := by decide
  have hc := hall (c.toNat - 48) (by omega)
  rwa [Nat.add_sub_cancel' hrange.1, Char.ofNat_toNat] at hc

/-- A list of the characters of numerals is a text like that of a channel, and
    its digits are ASCII ones. -/
theorem readReal?_ofChars {cs : List Char} (h : ∀ c ∈ cs, c ∈ numeralChars) :
    readReal? (Text.ofChars cs) = spelled? cs := by
  have hall : ∀ c ∈ numeralChars, Rgb.isChannelChar (.char c) = true ∧ ascii c = c :=
    forall_numeralChars (by decide +kernel)
  rw [readReal?_eq fun c hc => (hall c (h c hc)).1]
  congr 1
  exact (List.map_congr_left fun c hc => (hall c (h c hc)).2).trans (List.map_id cs)

/-- Characters that are neither signs. -/
theorem takeSign_of_isDigit {c : Char} {cs : List Char} (h : c.isDigit = true) :
    takeSign (c :: cs) = (false, c :: cs) := by
  rw [takeSign.eq_def]
  split
  · rename_i heq
    cases heq
    cases h
  · rename_i heq
    cases heq
    cases h
  · rfl

/-- What a numeral with a sign spells. -/
theorem spelled?_signed (neg : Bool) {c : Char} {cs : List Char} (h : c.isDigit = true) :
    spelled? (if neg then '-' :: c :: cs else c :: cs)
      = (readDecimal? (c :: cs)).map fun d => .ofDecimal neg d.digits d.exp := by
  cases neg with
  | true => rfl
  | false =>
      show spelled? (c :: cs) = _
      rw [spelled?, takeSign_of_isDigit h]

/-- Zeros before the digits do not count. -/
theorem ofDigits_zeros_append (k : ℕ) (ds : List Char) :
    ofDigits (List.replicate k '0' ++ ds) = ofDigits ds := by
  induction k with
  | zero => rfl
  | succ k ih => exact ih

/-- Zeros after the digits multiply by ten. -/
theorem ofDigits_append_zeros (ds : List Char) (k : ℕ) :
    ofDigits (ds ++ List.replicate k '0') = ofDigits ds * 10 ^ k := by
  induction k with
  | zero => rw [List.replicate_zero, List.append_nil, Nat.pow_zero, Nat.mul_one]
  | succ k ih =>
      have hzero := ofDigits_append_digit (ds ++ List.replicate k '0') (d := 0) (by decide)
      rw [List.replicate_succ', ← List.append_assoc]
      refine hzero.trans ?_
      rw [ih, Nat.pow_succ]
      ring

/-- A figure with digits before its point can follow a sign, and how it is read. -/
theorem figure_spec {whole fraction : List Char} (hds : ∀ c ∈ whole ++ fraction, c.isDigit = true)
    (hne : whole ≠ []) : ∃ c cs, whole ++ '.' :: fraction = c :: cs ∧ c.isDigit = true
      ∧ (∀ b ∈ c :: cs, b ∈ numeralChars)
      ∧ readDecimal? (c :: cs) = some ⟨ofDigits (whole ++ fraction), -(fraction.length : ℤ)⟩ := by
  cases whole with
  | nil => exact absurd rfl hne
  | cons c cs =>
      refine ⟨c, cs ++ '.' :: fraction, rfl, hds c List.mem_cons_self, fun b hb => ?_,
        readDecimal?_point hds (List.cons_ne_nil c _)⟩
      rcases List.mem_append.1 (show b ∈ (c :: cs) ++ '.' :: fraction from hb) with hb | hb
      · exact mem_numeralChars_of_isDigit (hds b (List.mem_append_left _ hb))
      · rcases List.mem_cons.1 hb with rfl | hb
        · decide
        · exact mem_numeralChars_of_isDigit (hds b (List.mem_append_right _ hb))

/-- Positional notation has digits on both sides of its point, which are those given
    and zeros before or behind them. -/
theorem lay_positional {ds : List Char} {e : ℤ} (hds : ∀ c ∈ ds, c.isDigit = true)
    (hne : ds ≠ []) (hlow : -4 ≤ e) (hhigh : e < 16) : ∃ whole fraction,
    Binary64.fullLayout.lay ds e = whole ++ '.' :: fraction ∧ whole ≠ []
      ∧ (∀ c ∈ whole ++ fraction, c.isDigit = true)
      ∧ (ofDigits (whole ++ fraction) : ℚ) * 10 ^ (-(fraction.length : ℤ))
        = ofDigits ds * 10 ^ (e + 1 - ds.length) := by
  have hzeros : ∀ (k : ℕ), ∀ c ∈ List.replicate k '0', c.isDigit = true := by
    intro k c hc
    rw [List.eq_of_mem_replicate hc]
    rfl
  unfold DecimalLayout.lay
  rw [if_pos ⟨hlow, hhigh⟩]
  split
  · -- zeros come first
    rename_i he
    refine ⟨['0'], List.replicate (-e - 1).toNat '0' ++ ds, rfl, List.cons_ne_nil _ _, ?_, ?_⟩
    · rw [← List.append_assoc]
      exact fun c hc => (List.mem_append.1 hc).elim (hzeros ((-e - 1).toNat + 1) c) (hds c)
    · rw [show ['0'] ++ (List.replicate (-e - 1).toNat '0' ++ ds)
        = List.replicate ((-e - 1).toNat + 1) '0' ++ ds from rfl, ofDigits_zeros_append,
        List.length_append, List.length_replicate]
      congr 2
      push_cast
      omega
  · rename_i he
    dsimp only
    split
    · -- zeros come last
      rename_i hlen
      have hlast : ds ++ List.replicate (e.toNat + 1 - ds.length) '0' ++ ['0']
          = ds ++ List.replicate (e.toNat + 1 - ds.length + 1) '0' := by
        rw [List.append_assoc, ← List.replicate_succ']
      refine ⟨_, ['0'], rfl, List.append_ne_nil_of_left_ne_nil hne _, ?_, ?_⟩
      · rw [hlast]
        exact fun c hc => (List.mem_append.1 hc).elim (hds c) (hzeros _ c)
      · rw [hlast, ofDigits_append_zeros, Nat.cast_mul, Nat.cast_pow, Nat.cast_ofNat, mul_assoc,
          ← zpow_natCast, ← zpow_add₀ (by norm_num), List.length_singleton]
        congr 2
        push_cast
        omega
    · -- the point comes between the digits
      rename_i hlen
      refine ⟨ds.take (e.toNat + 1), ds.drop (e.toNat + 1), rfl, ?_, ?_, ?_⟩
      · cases ds with
        | nil => exact absurd rfl hne
        | cons d ds => exact List.cons_ne_nil _ _
      · rwa [List.take_append_drop]
      · rw [List.take_append_drop, List.length_drop]
        congr 2
        omega

/-- Positional notation keeps the digits and the place of the first of them. -/
theorem lay_spec {ds : List Char} {e : ℤ} (hds : ∀ c ∈ ds, c.isDigit = true)
    (hne : ds ≠ []) (hlow : -4 ≤ e) (hhigh : e < 16) : ∃ c cs d,
    Binary64.fullLayout.lay ds e = c :: cs ∧ c.isDigit = true
      ∧ (∀ b ∈ c :: cs, b ∈ numeralChars) ∧ readDecimal? (c :: cs) = some d
      ∧ (d.digits : ℚ) * 10 ^ d.exp = ofDigits ds * 10 ^ (e + 1 - ds.length) := by
  obtain ⟨whole, fraction, hlay, hwhole, hdigits, hvalue⟩ := lay_positional hds hne hlow hhigh
  obtain ⟨c, cs, heq, hc, hcs, hread⟩ := figure_spec hdigits hwhole
  exact ⟨c, cs, _, hlay.trans heq, hc, hcs, hread, hvalue⟩

/-- With an exponent, the digits before it are those of a number from `1` to
    below `10`. -/
theorem lay_exponent {ds : List Char} {e : ℤ} (hds : ∀ c ∈ ds, c.isDigit = true)
    (hne : ds ≠ []) (hout : ¬(-4 ≤ e ∧ e < 16)) : ∃ c cs tail d,
    Binary64.fullLayout.lay ds e = (c :: cs) ++ 'e' :: tail ∧ c.isDigit = true
      ∧ (∀ b ∈ c :: cs, b ∈ numeralChars) ∧ readDecimal? (c :: cs) = some d
      ∧ (d.digits : ℚ) * 10 ^ d.exp = ofDigits ds * 10 ^ (1 - ds.length : ℤ) := by
  have hout : ¬(-4 ≤ e ∧ e < Binary64.fullLayout.limit) := hout
  cases ds with
  | nil => exact absurd rfl hne
  | cons c cs =>
      unfold DecimalLayout.lay
      rw [if_neg hout]
      cases cs with
      | nil =>
          refine ⟨c, [], DecimalLayout.exponent e, _, rfl, hds c List.mem_cons_self, ?_,
            readDecimal?_whole hds hne, ?_⟩
          · exact fun b hb => mem_numeralChars_of_isDigit (hds b hb)
          · rw [List.length_singleton]
            norm_num
      | cons b bs =>
          obtain ⟨c', cs', heq, hc, hcs, hread⟩ := figure_spec
            (show ∀ a ∈ [c] ++ b :: bs, a.isDigit = true from hds) (List.cons_ne_nil c [])
          cases heq
          refine ⟨c, _, DecimalLayout.exponent e, _, rfl, hc, hcs, hread, ?_⟩
          show ((ofDigits (c :: b :: bs) : ℕ) : ℚ) * 10 ^ (-((b :: bs).length : ℤ)) = _
          congr 2

/-- The digits of a decimal stand for it. -/
theorem spread_spec {d : Decimal} (hd : d.digits ≠ 0) :
    (∀ c ∈ d.spread.1, c.isDigit = true) ∧ d.spread.1 ≠ []
      ∧ ofDigits d.spread.1 * (10 : ℚ) ^ (d.spread.2 + 1 - d.spread.1.length)
        = d.digits * 10 ^ d.exp
      ∧ (10 : ℚ) ^ d.spread.2 ≤ d.digits * 10 ^ d.exp
      ∧ (d.digits : ℚ) * 10 ^ d.exp < 10 ^ (d.spread.2 + 1) := by
  have hlen : 0 < (Nat.toDigits 10 d.digits).length := Nat.length_toDigits_pos
  have hten : (0 : ℚ) < 10 ^ d.exp := zpow_pos (by norm_num) _
  have hfirst : (10 : ℚ) ^ d.spread.2
      = (10 ^ ((Nat.toDigits 10 d.digits).length - 1) : ℕ) * 10 ^ d.exp := by
    rw [Nat.cast_pow, Nat.cast_ofNat, ← zpow_natCast, ← zpow_add₀ (by norm_num)]
    congr 1
    show d.exp + (Nat.toDigits 10 d.digits).length - 1 = _
    omega
  have hnext : (10 : ℚ) ^ (d.spread.2 + 1)
      = (10 ^ (Nat.toDigits 10 d.digits).length : ℕ) * 10 ^ d.exp := by
    rw [Nat.cast_pow, Nat.cast_ofNat, ← zpow_natCast, ← zpow_add₀ (by norm_num)]
    congr 1
    show d.exp + (Nat.toDigits 10 d.digits).length - 1 + 1 = _
    omega
  refine ⟨fun c hc => isDigit_toDigits hc, Nat.toDigits_ne_nil, ?_, ?_, ?_⟩
  · show ofDigits (Nat.toDigits 10 d.digits) * (10 : ℚ) ^ (d.exp + (Nat.toDigits 10 d.digits).length
      - 1 + 1 - (Nat.toDigits 10 d.digits).length) = _
    rw [ofDigits_toDigits]
    congr 2
    omega
  · -- with one digit less the digits would be shorter than they are
    rw [hfirst]
    gcongr
    refine not_lt.1 fun hlt => ?_
    rcases Nat.eq_zero_or_pos ((Nat.toDigits 10 d.digits).length - 1) with hone | hmany
    · rw [hone] at hlt
      omega
    · have := (Nat.length_toDigits_le_iff (by decide) hmany).2 hlt
      omega
  · rw [hnext, mul_lt_mul_iff_of_pos_right hten, Nat.cast_lt]
    exact (Nat.length_toDigits_le_iff (by decide) hlen).1 le_rfl

/-- A text that has only characters of numerals, and at least one. -/
def IsNumeral (t : Text) : Prop :=
  ∃ cs, t = Text.ofChars cs ∧ cs ≠ [] ∧ ∀ c ∈ cs, c ∈ numeralChars

/-- A numeral with a sign, and how it is read. -/
theorem isNumeral_signed (neg : Bool) {c : Char} {cs : List Char} (hc : c.isDigit = true)
    (hcs : ∀ b ∈ c :: cs, b ∈ numeralChars) {d : Decimal} (hd : readDecimal? (c :: cs) = some d) :
    IsNumeral (Text.ofChars (if neg then '-' :: c :: cs else c :: cs))
      ∧ readReal? (Text.ofChars (if neg then '-' :: c :: cs else c :: cs))
        = some (.ofDecimal neg d.digits d.exp) := by
  have hmem : ∀ b ∈ (if neg then '-' :: c :: cs else c :: cs), b ∈ numeralChars := by
    cases neg with
    | true =>
        intro b hb
        rcases List.mem_cons.1 hb with rfl | hb
        · decide
        · exact hcs b hb
    | false => exact hcs
  refine ⟨⟨_, rfl, by cases neg <;> exact List.cons_ne_nil _ _, hmem⟩, ?_⟩
  rw [readReal?_ofChars hmem, spelled?_signed neg hc, hd]
  rfl

/-! ## Texts of numbers -/

/-- The first digit of a number has a place for positional notation exactly if the
    number is neither too small nor too large for it. -/
theorem place_iff {m : ℕ} {q : ℤ} (hm : 0 < m) (h : Binary64.Canonical m q) :
    (-4 ≤ (Binary64.shortest m q).spread.2 ↔ (10 : ℚ) ^ (-4 : ℤ) ≤ m * 2 ^ q)
      ∧ ((Binary64.shortest m q).spread.2 < 16 ↔ (m : ℚ) * 2 ^ q < 10 ^ (16 : ℤ)) := by
  obtain ⟨hr, hlead⟩ := Binary64.shortest_spec hm h
  have hnext := (Binary64.leadingDigit_spec hm h).2
  obtain ⟨-, -, -, hfirst, hafter⟩ := spread_spec (Binary64.shortest_digits_ne_zero hm h)
  have hplace : Binary64.leadingDigit m q ≤ (Binary64.shortest m q).spread.2 := by
    have hlt := hlead.trans_lt hafter
    rw [zpow_lt_zpow_iff_right₀ (by norm_num)] at hlt
    omega
  refine ⟨⟨fun hplace => ?_, fun hlow => ?_⟩, ⟨fun hplace' => ?_, fun hhigh => ?_⟩⟩
  · by_contra hsmall
    have hlt := hfirst.trans_lt (Binary64.shortest_lt hm h (not_le.1 hsmall))
    rw [zpow_lt_zpow_iff_right₀ (by norm_num)] at hlt
    omega
  · have hlt := hlow.trans_lt hnext
    rw [zpow_lt_zpow_iff_right₀ (by norm_num)] at hlt
    omega
  · refine hnext.trans_le (zpow_le_zpow_right₀ (by norm_num) ?_)
    omega
  · -- the bound is a number itself, and rounding does not take the digits past it
    by_contra hlarge
    have hbound : (10 : ℚ) ^ (16 : ℤ)
        ≤ (Binary64.shortest m q).digits * 10 ^ (Binary64.shortest m q).exp :=
      (zpow_le_zpow_right₀ (by norm_num) (not_lt.1 hlarge)).trans hfirst
    have hnumber : (Binary64.finite false 5000000000000000 1 (by decide)).magnitude
        = (10 : ℚ) ^ (16 : ℤ) := by
      rw [Binary64.magnitude]
      norm_num
    have hten : 0 < Nat.pow 10 (-(Binary64.shortest m q).exp).toNat := Nat.pow_pos (by decide)
    rw [← Binary64.decimal_eq] at hr hbound
    have hround := Binary64.ofScaled_of_rounds hm hten hr h false
    rw [← hnumber] at hbound hhigh
    have hle := Binary64.le_magnitude_ofScaled hten rfl hbound
      (congrArg Binary64.isFinite hround)
    rw [hround] at hle
    exact absurd hhigh (not_lt.2 hle)

/-- A real is written with its sign and the shortest digits that read back. -/
theorem text_eq {s : Bool} {m : ℕ} {q : ℤ} {h : Binary64.Canonical m q} (hm : m ≠ 0) :
    Binary64.text (.finite s m q h) = Text.ofChars
      (if s then '-' :: Binary64.fullLayout.lay (Binary64.shortest m q).spread.1
          (Binary64.shortest m q).spread.2
        else Binary64.fullLayout.lay (Binary64.shortest m q).spread.1
          (Binary64.shortest m q).spread.2) := by
  rw [Binary64.text, Binary64.textBy, if_neg hm]

/-- The text of a real in positional notation is read back as it. -/
theorem readReal?_text {x : Binary64} (hx : x.isFinite = true)
    (hlow : (10 : ℚ) ^ (-4 : ℤ) ≤ x.magnitude) (hhigh : x.magnitude < 10 ^ (16 : ℤ)) :
    IsNumeral x.text ∧ readReal? x.text = some x := by
  cases x with
  | finite s m q h =>
      change (10 : ℚ) ^ (-4 : ℤ) ≤ m * 2 ^ q at hlow
      change (m : ℚ) * 2 ^ q < 10 ^ (16 : ℤ) at hhigh
      have hm : m ≠ 0 := by
        rintro rfl
        rw [Nat.cast_zero, zero_mul] at hlow
        exact absurd hlow (not_le.2 (zpow_pos (by norm_num) _))
      have hmpos := Nat.pos_of_ne_zero hm
      obtain ⟨hplace, hplace'⟩ := place_iff hmpos h
      obtain ⟨hds, hne, hvalue, -, -⟩ := spread_spec (Binary64.shortest_digits_ne_zero hmpos h)
      obtain ⟨c, cs, d, hlay, hc, hcs, hread, hd⟩ :=
        lay_spec hds hne (hplace.2 hlow) (hplace'.2 hhigh)
      obtain ⟨hnumeral, hreal⟩ := isNumeral_signed s hc hcs hread
      rw [text_eq hm, hlay]
      refine ⟨hnumeral, ?_⟩
      rw [hreal, Binary64.ofDecimal_of_rounds hmpos h]
      rw [hd, hvalue]
      exact (Binary64.shortest_spec hmpos h).1
  | _ => cases hx

/-- The text of any other real but zero has an exponent, and what stands before
    it is a numeral of the same sign, from `1` to `10`. -/
theorem text_exponent {x : Binary64} (hx : x.isFinite = true) (hzero : x.isZero = false)
    (hout : ¬((10 : ℚ) ^ (-4 : ℤ) ≤ x.magnitude ∧ x.magnitude < 10 ^ (16 : ℤ))) :
    ∃ t tail y, x.text = t ++ .char 'e' :: tail ∧ IsNumeral t ∧ readReal? t = some y
      ∧ y.isFinite = true ∧ y.isNeg = x.isNeg ∧ 1 ≤ y.magnitude ∧ y.magnitude ≤ 10 := by
  cases x with
  | finite s m q h =>
      have hm : m ≠ 0 := by simpa [Binary64.isZero] using hzero
      have hmpos := Nat.pos_of_ne_zero hm
      obtain ⟨hlow, hhigh⟩ := place_iff hmpos h
      change ¬((10 : ℚ) ^ (-4 : ℤ) ≤ m * 2 ^ q ∧ (m : ℚ) * 2 ^ q < 10 ^ (16 : ℤ)) at hout
      rw [← hlow, ← hhigh] at hout
      obtain ⟨hds, hne, hvalue, hfirst, hafter⟩ :=
        spread_spec (Binary64.shortest_digits_ne_zero hmpos h)
      obtain ⟨c, cs, tail, d, hlay, hc, hcs, hread, hd⟩ := lay_exponent hds hne hout
      have htext : Binary64.text (.finite s m q h)
          = Text.ofChars (if s then '-' :: c :: cs else c :: cs)
            ++ .char 'e' :: Text.ofChars tail := by
        rw [text_eq hm, hlay]
        cases s <;> simp [Text.ofChars]
      have hpos : (0 : ℚ) < 10 ^ (Binary64.shortest m q).spread.2 := zpow_pos (by norm_num) _
      -- the numeral is the decimal with its point after the first digit
      have hscale : (d.digits : ℚ) * 10 ^ d.exp * 10 ^ (Binary64.shortest m q).spread.2
          = (Binary64.shortest m q).digits * 10 ^ (Binary64.shortest m q).exp := by
        rw [hd, ← hvalue, mul_assoc, ← zpow_add₀ (by norm_num)]
        congr 2
        ring
      rw [← hscale] at hfirst hafter
      rw [zpow_add₀ (by norm_num), zpow_one, mul_comm _ (10 : ℚ), mul_lt_mul_iff_of_pos_right hpos]
        at hafter
      have hone : (1 : ℚ) ≤ d.digits * 10 ^ d.exp := by
        rwa [← mul_le_mul_iff_of_pos_right hpos, one_mul]
      obtain ⟨hnumeral, hreal⟩ := isNumeral_signed s hc hcs hread
      obtain ⟨hfinite, hneg, hge, hle⟩ := Binary64.ofDecimal_mem hone hafter.le s
      exact ⟨_, _, _, htext, hnumeral, hreal, hfinite, hneg, hge, hle⟩
  | _ => cases hx

/-- The digits of a whole number are read as the real nearest to it. -/
theorem readReal?_digits (n : ℤ) :
    IsNumeral (digits n) ∧ readReal? (digits n) = some (Binary64.ofInt n) := by
  obtain ⟨c, cs, hds⟩ := List.exists_cons_of_ne_nil (Nat.toDigits_ne_nil (n := n.natAbs) (b := 10))
  have hdigit : ∀ b ∈ c :: cs, b.isDigit = true := by
    rw [← hds]
    exact fun b hb => isDigit_toDigits hb
  have hread := readDecimal?_whole hdigit (List.cons_ne_nil c cs)
  rw [← hds, ofDigits_toDigits, hds] at hread
  obtain ⟨hnumeral, hreal⟩ := isNumeral_signed (decide (n < 0)) (hdigit c List.mem_cons_self)
    (fun b hb => mem_numeralChars_of_isDigit (hdigit b hb)) hread
  have htext : digits n
      = Text.ofChars (if decide (n < 0) = true then '-' :: c :: cs else c :: cs) := by
    simp only [digits, hds, decide_eq_true_eq]
  rw [htext]
  refine ⟨hnumeral, hreal.trans ?_⟩
  rw [Option.some_inj]
  exact Binary64.ofDecimal_whole _ _

end TurtleLogo.Number
