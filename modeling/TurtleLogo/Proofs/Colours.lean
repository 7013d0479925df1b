import TurtleLogo.CommandLine.Screen
import TurtleLogo.Proofs.Numeral
import TurtleLogo.Proofs.Quantity
import TurtleLogo.Proofs.Showing

/-! # Colours that a screen can show

    What becomes of the colour that a value names, on a screen that knows some
    colours by their names.

    * A value has a text unless a whole number in it is too long
      (`Value.text_error_iff`).
    * A channel can be read exactly if it is a numeral of a number that is not
      past the largest real (`Rgb.readChannel_ok_iff`).
    * Whatever a value is, its colour is in range, or black, or its text starts
      like the channels of a colour without having any that can be read
      (`Rgb.shown_spec`). -/

namespace TurtleLogo

/-- A computation fails exactly if it gives nothing. -/
theorem Except.error_iff {ε α : Type} {x : Except ε α} :
    (∃ f, x = .error f) ↔ ¬∃ a, x = .ok a := by
  cases x with
  | ok a => simp
  | error f => simp

/-! ## Texts of values -/

/-- A value with a whole number in it whose text is too long. -/
inductive Value.Overlong : Value → Prop
  | number {n : ℤ} (h : Number.tooLong ≤ n.natAbs) : Overlong (.number (.int n))
  | item {items : List Value} {v : Value} (hmem : v ∈ items) (h : Overlong v) :
      Overlong (.list items)

/-- A number that is written in full is not too long. -/
theorem Number.plain_lt_tooLong : 10000000000000000 ≤ tooLong := by
  have hle : ∀ k, 16 ≤ k → 10000000000000000 ≤ Nat.pow 10 k :=
    fun k hk => Nat.pow_le_pow_right (show 0 < 10 by decide) hk
  unfold tooLong
  exact hle digitLimit (by decide)

/-- The bound for whole reals, as a bound on magnitudes. -/
theorem Number.lt_plainBound_iff {x : Binary64} (hx : x.isFinite = true) :
    lt (.real x.abs) plainBound = true ↔ x.magnitude < 10 ^ (16 : ℤ) := by
  rw [lt_iff (a := .real x.abs) (b := plainBound) ((isFinite_abs (.real x)).trans hx) rfl]
  show x.abs.value < ((10000000000000000 : ℤ) : ℚ) ↔ _
  rw [Binary64.value_abs, Binary64.abs_value]
  norm_num

/-- A real that is not huge has a whole part with a text. -/
theorem Number.trunc_plain {x : Binary64} (h : lt (.real x.abs) plainBound = true)
    (hx : x.isFinite = true) : ∃ n, trunc (.real x) = .ok n ∧ n.natAbs < tooLong := by
  obtain ⟨k, hk, hle, -⟩ := trunc_real hx
  have hlt : k < 10000000000000000 := by
    have hcast : (k : ℚ) < 10 ^ (16 : ℤ) := hle.trans_lt ((lt_plainBound_iff hx).1 h)
    norm_num at hcast
    exact_mod_cast hcast
  refine ⟨_, hk, lt_of_lt_of_le ?_ plain_lt_tooLong⟩
  split
  · rw [Int.natAbs_neg]
    exact hlt
  · exact hlt

/-- A number that is not too long has a text. -/
theorem Number.text_ok {n : Number} (h : ¬(Value.number n).Overlong) : ∃ t, n.text = .ok t := by
  cases n with
  | int n => exact ⟨_, intText_ok (not_le.1 fun hn => h (.number hn))⟩
  | real x =>
      rw [text]
      split
      · rename_i hplain
        rw [Bool.and_eq_true] at hplain
        obtain ⟨hwhole, hsmall⟩ := hplain
        have hx : x.isFinite = true := by
          cases x with
          | finite s m q hq => rfl
          | _ => cases hwhole
        obtain ⟨n, hn, hlt⟩ := trunc_plain hsmall hx
        exact ⟨digits n, (Except.bind_of_ok hn _).trans (intText_ok hlt)⟩
      · exact ⟨_, rfl⟩

mutual
/-- A value without a number that is too long has a text. -/
theorem Value.text_ok : ∀ {v : Value}, ¬v.Overlong → ∃ t, v.text = .ok t
  | .list items, h => by
      obtain ⟨ts, hts⟩ := texts_ok fun v hv hlong => h (.item hv hlong)
      exact ⟨_, by rw [text, hts]; rfl⟩
  | .nothing, _ => ⟨_, by rw [text, atomText]; rintro _ ⟨⟩⟩
  | .truth true, _ => ⟨_, by rw [text, atomText]; rintro _ ⟨⟩⟩
  | .truth false, _ => ⟨_, by rw [text, atomText]; rintro _ ⟨⟩⟩
  | .number n, h => by
      obtain ⟨t, ht⟩ := Number.text_ok h
      exact ⟨t, by rw [text, atomText, ht]; rintro _ ⟨⟩⟩
  | .word s, _ => ⟨s, by rw [text, atomText]; rintro _ ⟨⟩⟩
/-- Values without a number that is too long have texts. -/
theorem Value.texts_ok : ∀ {vs : List Value}, (∀ v ∈ vs, ¬v.Overlong) → ∃ ts, texts vs = .ok ts
  | [], _ => ⟨[], by rw [texts]⟩
  | v :: vs, h => by
      obtain ⟨t, ht⟩ := text_ok (h v List.mem_cons_self)
      obtain ⟨ts, hts⟩ := texts_ok fun u hu => h u (List.mem_cons_of_mem v hu)
      exact ⟨t :: ts, by rw [texts, ht, hts]; rfl⟩
end

/-- Several values have no texts if one of them has none. -/
theorem Value.texts_error {vs : List Value} {v : Value} {f : ArithmeticFault} (hv : v ∈ vs)
    (h : v.text = .error f) : ∃ g, texts vs = .error g := by
  induction vs with
  | nil => cases hv
  | cons u us ih =>
      rw [texts]
      cases hu : u.text with
      | error g => exact ⟨g, rfl⟩
      | ok t =>
          rcases List.mem_cons.1 hv with rfl | hv
          · rw [h] at hu
            cases hu
          · obtain ⟨g, hg⟩ := ih hv
            exact ⟨g, by rw [hg]; rfl⟩

/-- A value has no text exactly if a whole number in it is too long. -/
theorem Value.text_error_iff (v : Value) : (∃ f, v.text = .error f) ↔ v.Overlong := by
  constructor
  · rintro ⟨f, hf⟩
    by_contra hlong
    obtain ⟨t, ht⟩ := text_ok hlong
    rw [ht] at hf
    cases hf
  · intro h
    induction h with
    | @number n h =>
        refine ⟨.notUsable, ?_⟩
        rw [text, atomText, Number.text, Number.intText, if_pos h]
        rintro _ ⟨⟩
    | item hmem _ ih =>
        obtain ⟨f, hf⟩ := ih
        obtain ⟨g, hg⟩ := texts_error hmem hf
        exact ⟨g, by rw [text, hg]; rfl⟩

/-- The text of a colour cannot be written exactly if one of its channels is too
    long. -/
theorem Colour.resolve_error_iff (v : Value) : (∃ f, resolve v = .error f) ↔
    ∃ r g b rest, v = .list (r :: g :: b :: rest) ∧ (r.Overlong ∨ g.Overlong ∨ b.Overlong) := by
  constructor
  · rintro ⟨f, hf⟩
    rw [resolve.eq_def] at hf
    split at hf
    · rename_i r g b rest
      refine ⟨r, g, b, rest, rfl, ?_⟩
      by_contra hnone
      simp only [not_or] at hnone
      obtain ⟨s, hs⟩ := Value.text_ok hnone.1
      obtain ⟨t, ht⟩ := Value.text_ok hnone.2.1
      obtain ⟨u, hu⟩ := Value.text_ok hnone.2.2
      rw [hs, ht, hu] at hf
      cases hf
    · split at hf <;> cases hf
    · cases hf
  · rintro ⟨r, g, b, rest, rfl, h⟩
    simp only [← Value.text_error_iff, Except.error_iff] at h
    rw [Except.error_iff, resolve]
    simp only [Except.exists_bind_iff]
    rintro ⟨s, hs, t, ht, u, hu, -⟩
    rcases h with h | h | h
    · exact h ⟨s, hs⟩
    · exact h ⟨t, ht⟩
    · exact h ⟨u, hu⟩

namespace Rgb

/-! ## Channels -/

/-- A channel that is clamped is in range. -/
theorem clampChannel_le (n : ℤ) : clampChannel n ≤ 255 := by
  rw [clampChannel]
  omega

/-- A text that is a numeral of a number not past the largest real. -/
def Legible (t : Text) : Prop :=
  ∃ cs d, t = Text.ofChars cs ∧ Number.IsFigure (Number.takeSign (cs.map Number.ascii)).2
    ∧ Number.readDecimal? (Number.takeSign (cs.map Number.ascii)).2 = some d
    ∧ (d.digits : ℚ) * 10 ^ d.exp < Binary64.limit

/-- A channel can be read exactly if it is legible. -/
theorem readChannel_ok_iff {t : Text} (h : ∀ c ∈ t, isChannelChar c = true) :
    (∃ n, readChannel t = .ok n) ↔ Legible t := by
  obtain ⟨cs, rfl⟩ := Text.exists_ofChars (fun _ => rfl) h
  have hcs : ∀ c ∈ cs, isChannelChar (.char c) = true :=
    fun c hc => h _ (List.mem_map_of_mem hc)
  have hmem : ∀ c ∈ cs.map Number.ascii, c ∈ Number.numeralChars := by
    intro c hc
    obtain ⟨d, hd, rfl⟩ := List.mem_map.1 hc
    exact Number.ascii_mem (hcs d hd)
  have hread := Number.readReal?_eq hcs
  have hfigure := Number.spelled?_isSome_iff hmem
  rw [Number.spelled?] at hread hfigure
  rw [readChannel, hread]
  constructor
  · rintro ⟨n, hn⟩
    cases hd : Number.readDecimal? (Number.takeSign (cs.map Number.ascii)).2 with
    | none =>
        rw [hd] at hn
        cases hn
    | some d =>
        rw [hd] at hn hfigure
        refine ⟨cs, d, rfl, hfigure.1 rfl, hd, ?_⟩
        rw [← Binary64.isFinite_ofDecimal (Number.takeSign (cs.map Number.ascii)).1]
        refine (Binary64.ofDecimal_cases _ _ _).resolve_right fun hinfinite => ?_
        rw [Option.map_some, hinfinite] at hn
        cases hn
  · rintro ⟨cs', d, heq, -, hd, hlimit⟩
    have heq : cs = cs' :=
      (List.map_injective_iff.2 fun _ _ => CodePoint.char.inj) heq
    subst heq
    rw [hd, Option.map_some]
    rw [← Binary64.isFinite_ofDecimal (Number.takeSign (cs.map Number.ascii)).1] at hlimit
    obtain ⟨k, hk, -, -⟩ := Number.trunc_real hlimit
    exact ⟨_, by dsimp only; rw [hk]; rfl⟩

/-- A channel is a stretch of the characters of numerals. -/
theorem isChannelChar_of_takeChannel {t s rest : Text} (h : takeChannel t = some (s, rest)) :
    ∀ c ∈ s, isChannelChar c = true := by
  rw [takeChannel] at h
  split at h
  · cases h
  · cases h
    exact fun c hc => List.all_eq_true.1 List.all_takeWhile c hc

/-- The channels in a text are made of digits, signs and dots. -/
theorem isChannelChar_of_channels? {t r g b : Text} (h : channels? t = some (r, g, b)) :
    ∀ s ∈ [r, g, b], ∀ c ∈ s, isChannelChar c = true := by
  simp only [channels?, Option.bind_eq_bind, Option.bind_eq_some_iff] at h
  obtain ⟨_, -, ⟨r', t₁⟩, hr, _, -, ⟨g', t₂⟩, hg, _, -, ⟨b', t₃⟩, hb, h⟩ := h
  cases h
  intro s hs
  simp only [List.mem_cons, List.not_mem_nil, or_false] at hs
  rcases hs with rfl | rfl | rfl
  · exact isChannelChar_of_takeChannel hr
  · exact isChannelChar_of_takeChannel hg
  · exact isChannelChar_of_takeChannel hb

/-! ## Screens -/

/-- A colour whose channels are from `0` to `255`. -/
structure InRange (c : Rgb) : Prop where
  red : c.red ≤ 255
  green : c.green ≤ 255
  blue : c.blue ≤ 255

/-- The colour in which a value shows on a screen. -/
def shown (known : Text → Option Rgb) (v : Value) : Except ArithmeticFault Rgb := do
  let s ← Colour.resolve v
  parseWith known s

/-- A channel that is read is in range. -/
theorem readChannel_le {t : Text} {n : ℕ} (h : readChannel t = .ok n) : n ≤ 255 := by
  rw [readChannel] at h
  split at h
  · cases h
  · obtain ⟨k, -, h⟩ := Except.bind_eq_ok h
    cases h
    exact clampChannel_le k

/-- A text with three channels is read channel by channel. -/
theorem parseWith_some {known : Text → Option Rgb} {s r g b : Text}
    (h : channels? (Text.trim s) = some (r, g, b)) : parseWith known s = (do
      let r ← readChannel r
      let g ← readChannel g
      let b ← readChannel b
      .ok ⟨r, g, b⟩) := by
  rw [parseWith, h]

/-- Any other text is a name, or black. -/
theorem parseWith_none {known : Text → Option Rgb} {s : Text}
    (h : channels? (Text.trim s) = none) :
    parseWith known s = .ok ((known (Text.lower (Text.trim s))).getD black) := by
  rw [parseWith, h]

section

variable {known : Text → Option Rgb} (hknown : ∀ s c, known s = some c → c.InRange)
include hknown

/-- Whatever is read is in range, if the colours are that have names. -/
theorem inRange_parseWith {s : Text} {c : Rgb} (h : parseWith known s = .ok c) : c.InRange := by
  cases hchannels : channels? (Text.trim s) with
  | some p =>
      obtain ⟨r, g, b⟩ := p
      rw [parseWith_some hchannels] at h
      obtain ⟨i, hi, h⟩ := Except.bind_eq_ok h
      obtain ⟨j, hj, h⟩ := Except.bind_eq_ok h
      obtain ⟨k, hk, h⟩ := Except.bind_eq_ok h
      cases h
      exact ⟨readChannel_le hi, readChannel_le hj, readChannel_le hk⟩
  | none =>
      rw [parseWith_none hchannels] at h
      cases h
      cases hc : known (Text.lower (Text.trim s)) with
      | some c => exact hknown _ c hc
      | none => exact ⟨by decide, by decide, by decide⟩

omit hknown in
/-- A text cannot be shown exactly if it starts like the channels of a colour and
    one of them is not legible. -/
theorem parseWith_error_iff (s : Text) : (∃ f, parseWith known s = .error f) ↔
    ∃ r g b, channels? (Text.trim s) = some (r, g, b) ∧ ∃ t ∈ [r, g, b], ¬Legible t := by
  cases hchannels : channels? (Text.trim s) with
  | none =>
      rw [parseWith_none hchannels]
      constructor
      · rintro ⟨f, ⟨⟩⟩
      · rintro ⟨r, g, b, ⟨⟩, -⟩
  | some p =>
      obtain ⟨r, g, b⟩ := p
      have hread : ∀ t ∈ [r, g, b], ((∃ n, readChannel t = .ok n) ↔ Legible t) :=
        fun t ht => readChannel_ok_iff (isChannelChar_of_channels? hchannels t ht)
      rw [parseWith_some hchannels, Except.error_iff]
      simp only [Except.exists_bind_iff]
      constructor
      · intro hfails
        refine ⟨r, g, b, rfl, ?_⟩
        by_contra hall
        simp only [not_exists, not_and, not_not] at hall
        obtain ⟨i, hi⟩ := (hread r (by simp)).2 (hall r (by simp))
        obtain ⟨j, hj⟩ := (hread g (by simp)).2 (hall g (by simp))
        obtain ⟨k, hk⟩ := (hread b (by simp)).2 (hall b (by simp))
        exact hfails ⟨i, hi, j, hj, k, hk, _, rfl⟩
      · rintro ⟨r', g', b', heq, t, ht, hlegible⟩ ⟨i, hi, j, hj, k, hk, -⟩
        cases heq
        refine hlegible ((hread t ht).1 ?_)
        simp only [List.mem_cons, List.not_mem_nil, or_false] at ht
        rcases ht with rfl | rfl | rfl
        · exact ⟨i, hi⟩
        · exact ⟨j, hj⟩
        · exact ⟨k, hk⟩

/-- What a screen makes of a value, whatever it is: a colour in range, unless a
    number is too long for a text or a channel is not legible; and black where
    there are no channels and no colour of that name. -/
theorem shown_spec (v : Value) :
    (∀ c, shown known v = .ok c → c.InRange)
      ∧ ((∃ f, shown known v = .error f) ↔
        (∃ r g b rest, v = .list (r :: g :: b :: rest)
          ∧ (r.Overlong ∨ g.Overlong ∨ b.Overlong))
        ∨ ∃ s r g b, Colour.resolve v = .ok s ∧ channels? (Text.trim s) = some (r, g, b)
          ∧ ∃ t ∈ [r, g, b], ¬Legible t)
      ∧ ∀ s, Colour.resolve v = .ok s → channels? (Text.trim s) = none →
        shown known v = .ok ((known (Text.lower (Text.trim s))).getD black) := by
  refine ⟨fun c hc => ?_, ?_, fun s hs hnone => ?_⟩
  · obtain ⟨s, -, hc⟩ := Except.bind_eq_ok hc
    exact inRange_parseWith hknown hc
  · rw [← Colour.resolve_error_iff]
    cases hs : Colour.resolve v with
    | error f =>
        refine ⟨fun _ => .inl ⟨f, rfl⟩, fun _ => ⟨f, ?_⟩⟩
        rw [shown, hs]
        rfl
    | ok s =>
        have hshown : shown known v = parseWith known s := by
          rw [shown, hs]
          rfl
        rw [hshown, parseWith_error_iff]
        constructor
        · rintro ⟨r, g, b, h⟩
          exact .inr ⟨s, r, g, b, rfl, h⟩
        · rintro (⟨f, ⟨⟩⟩ | ⟨s', r, g, b, heq, h⟩)
          cases heq
          exact ⟨r, g, b, h⟩
  · rw [shown, hs]
    exact parseWith_none hnone

end

/-! ## Known colours -/

/-- Two hexadecimal digits are in range. -/
theorem hexPair?_le {a b : Char} {n : ℕ} (h : hexPair? a b = some n) : n ≤ 255 := by
  have hvalue : ∀ {c : Char} {n : ℕ}, hexValue? c = some n → n ≤ 15 := by
    intro c n h
    rw [hexValue?] at h
    split at h
    · rename_i hdigit
      cases h
      have hrange : 48 ≤ c.toNat ∧ c.toNat ≤ 57 := by
        simpa [Char.isDigit, UInt32.le_iff_toNat_le] using hdigit
      omega
    · split at h
      · rename_i hletter
        cases h
        have hrange : 97 ≤ c.toNat ∧ c.toNat ≤ 102 := by
          simpa [Char.le_def, UInt32.le_iff_toNat_le] using hletter
        omega
      · cases h
  simp only [hexPair?, Option.bind_eq_bind, Option.bind_eq_some_iff] at h
  obtain ⟨x, hx, y, hy, h⟩ := h
  cases h
  have := hvalue hx
  have := hvalue hy
  omega

/-- A colour in hexadecimal is in range. -/
theorem inRange_ofHex? {cs : List Char} {c : Rgb} (h : ofHex? cs = some c) : c.InRange := by
  rw [ofHex?.eq_def] at h
  split at h
  · simp only [Option.bind_eq_bind, Option.bind_eq_some_iff] at h
    obtain ⟨r, hr, g, hg, b, hb, h⟩ := h
    cases h
    exact ⟨hexPair?_le hr, hexPair?_le hg, hexPair?_le hb⟩
  · simp only [Option.bind_eq_bind, Option.bind_eq_some_iff] at h
    obtain ⟨_, -, r, hr, g, hg, b, hb, h⟩ := h
    cases h
    exact ⟨hexPair?_le hr, hexPair?_le hg, hexPair?_le hb⟩
  · cases h

/-- Every colour that the program's own screen knows is in range. -/
theorem inRange_named? (s : Text) (c : Rgb) (h : named? s = some c) : c.InRange := by
  rw [named?] at h
  split at h
  · rename_i c' hname
    cases h
    have hall : ∀ p ∈ screenNames, p.2.red ≤ 255 ∧ p.2.green ≤ 255 ∧ p.2.blue ≤ 255 := by decide
    obtain ⟨before, after, hsplit, -⟩ := List.lookup_eq_some_iff.1 hname
    obtain ⟨hred, hgreen, hblue⟩ :=
      hall _ (hsplit ▸ List.mem_append_right _ List.mem_cons_self)
    exact ⟨hred, hgreen, hblue⟩
  · simp only [digital?, Option.bind_eq_bind, Option.bind_eq_some_iff] at h
    obtain ⟨cs, -, h⟩ := h
    split at h
    · exact inRange_ofHex? h
    · exact inRange_ofHex? h
    · cases h

/-- The law at a colour with a channel too big. -/
theorem shown_spec_list : ∃ c, shown named? (.list [.ofInt 300, .ofInt 2, .ofInt 3]) = .ok c
    ∧ c.InRange := by
  have htried : shown named? (.list [.ofInt 300, .ofInt 2, .ofInt 3]) = .ok ⟨255, 2, 3⟩ := by
    decide +kernel
  exact ⟨_, htried, (shown_spec inRange_named? _).1 _ htried⟩

/-- A sign alone starts like a channel and cannot be read. -/
theorem shown_sign :
    shown named? (.list [.word "-", .ofInt 1, .ofInt 2]) = .error .notUsable := by
  decide +kernel

end Rgb

end TurtleLogo
