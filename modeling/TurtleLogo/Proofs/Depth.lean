import TurtleLogo.Proofs.Divisor
import TurtleLogo.Proofs.Strings

/-! # Brackets inside each other

    `Json.nesting` is the greatest number of brackets that are open at once in a
    text.  It knows no JSON but that brackets in strings do not count.

    * Numbers and words have neither quotes nor brackets in them (`Passes`), and a
      string takes its brackets along (`deepest_readPieces`).
    * What a reader takes off a text has the depth that there was room for, and a
      bracket for which there is no room is too deep (`Measured`).
    * So a text that is read has no more brackets inside each other than there is
      room for, and one that is not for lack of room has more (`read_depth`).
      Opening brackets alone are such a text (`read_brackets`). -/

namespace TurtleLogo.Json

/-! ## Brackets of a text -/

/-- A bracket that begins an array or an object. -/
def opens (c : CodePoint) : Bool := c == .char '[' || c == .char '\x7b'

/-- A bracket that ends an array or an object. -/
def closes (c : CodePoint) : Bool := c == .char ']' || c == .char '\x7d'

/-- The greatest number of brackets that are open at once in a text with some of
    them open at its start, inside a string or outside. -/
def deepest : Bool → Nat → Text → Nat
  | _, k, [] => k
  | true, k, .char '\\' :: _ :: cs => deepest true k cs
  | true, k, c :: cs => deepest (c != .char '"') k cs
  | false, k, c :: cs =>
      if opens c then deepest false (k + 1) cs
      else if closes c then max k (deepest false (k - 1) cs)
      else deepest (c == .char '"') k cs

/-- The greatest number of brackets that are open at once in a text. -/
def nesting (t : Text) : Nat := deepest false 0 t

/-- What is open at the start is open at once. -/
theorem le_deepest (inside : Bool) (k : Nat) (cs : Text) : k ≤ deepest inside k cs := by
  fun_induction deepest inside k cs with
  | case1 => exact Nat.le_refl _
  | case2 _ _ _ ih => exact ih
  | case3 _ _ _ _ ih => exact ih
  | case4 _ _ _ _ ih => exact Nat.le_of_succ_le ih
  | case5 => exact Nat.le_max_left _ _
  | case6 _ _ _ _ _ ih => exact ih

/-! ## Numbers and words -/

/-- A character that is no bracket and starts no string. -/
def isPlain (c : CodePoint) : Bool := !opens c && !closes c && c != .char '"'

/-- The second text is what is left of the first after some plain characters. -/
inductive Passes : Text → Text → Prop where
  | refl (cs : Text) : Passes cs cs
  | cons {c : CodePoint} {cs rest : Text} (hc : isPlain c = true) (h : Passes cs rest) :
      Passes (c :: cs) rest

namespace Passes

variable {cs cs' rest : Text}

/-- What is left of what is left. -/
theorem trans (h : Passes cs cs') (h' : Passes cs' rest) : Passes cs rest := by
  induction h with
  | refl => exact h'
  | cons hc _ ih => exact .cons hc (ih h')

/-- What is left is at the end. -/
theorem suffix (h : Passes cs rest) : rest <:+ cs := by
  induction h with
  | refl cs => exact List.suffix_refl cs
  | cons _ _ ih => exact ih.trans (List.suffix_cons _ _)

/-- A word of plain characters is passed. -/
theorem append {word : Text} (hword : ∀ c ∈ word, isPlain c = true) (rest : Text) :
    Passes (word ++ rest) rest := by
  induction word with
  | nil => exact .refl rest
  | cons c word ih =>
      obtain ⟨hc, hword⟩ := List.forall_mem_cons.1 hword
      exact .cons hc (ih hword)

/-- Plain characters open and close nothing. -/
theorem deepest (h : Passes cs rest) (k : Nat) :
    Json.deepest false k cs = Json.deepest false k rest := by
  induction h with
  | refl => rfl
  | cons hc _ ih =>
      simp only [isPlain, Bool.and_eq_true, Bool.not_eq_true', bne_iff_ne] at hc
      obtain ⟨⟨hopens, hcloses⟩, hquote⟩ := hc
      rw [Json.deepest, hopens, hcloses, if_neg Bool.false_ne_true, if_neg Bool.false_ne_true,
        beq_eq_false_iff_ne.2 hquote, ih]

end Passes

/-- A blank is plain. -/
theorem isPlain_of_isSpace {c : CodePoint} (h : isSpace c = true) : isPlain c = true := by
  simp only [isSpace, Bool.or_eq_true, beq_iff_eq] at h
  obtain ((rfl | rfl) | rfl) | rfl := h <;> decide

/-- A digit is plain. -/
theorem isPlain_of_isDigit {c : Char} (h : c.isDigit = true) : isPlain (.char c) = true := by
  have hne : ∀ d : Char, d.isDigit = false → CodePoint.char c ≠ .char d := by
    rintro d hd ⟨⟩
    rw [hd] at h
    cases h
  simp [isPlain, opens, closes, hne '[', hne '\x7b', hne ']', hne '\x7d', hne '"']

/-- Blanks are passed. -/
theorem skipSpace_passes (cs : Text) : Passes cs (skipSpace cs) := by
  have htake : ∀ c ∈ cs.takeWhile isSpace, isPlain c = true :=
    fun c hc => isPlain_of_isSpace (List.all_eq_true.1 List.all_takeWhile c hc)
  have h := Passes.append htake (cs.dropWhile isSpace)
  rw [List.takeWhile_append_dropWhile] at h
  exact h

/-- The digits of a number are passed. -/
theorem takeDigits_passes (cs : Text) : Passes cs (takeDigits cs).2 := by
  fun_induction takeDigits cs with
  | case1 c cs hc r ih => exact .cons (isPlain_of_isDigit hc) ih
  | case2 => exact .refl _
  | case3 => exact .refl _

/-- If there are digits, they are passed. -/
theorem takeDigits?_passes {cs rest : Text} {ds : List Char}
    (h : takeDigits? cs = some (ds, rest)) : Passes cs rest := by
  have hpasses := takeDigits_passes cs
  rw [takeDigits?] at h
  split at h
  · cases h
  · rw [Option.some.inj h] at hpasses
    exact hpasses

/-- The whole part of a number is passed. -/
theorem takeWhole_passes {cs rest : Text} {ds : List Char}
    (h : takeWhole cs = some (ds, rest)) : Passes cs rest := by
  rw [takeWhole.eq_def] at h
  split at h
  · cases h
    exact .cons (by decide) (.refl _)
  · exact takeDigits?_passes h

/-- The digits after a point are passed with the point. -/
theorem takeFraction?_passes {cs rest : Text} {ds : List Char}
    (h : takeFraction? cs = some (ds, rest)) : Passes cs rest := by
  rw [takeFraction?.eq_def] at h
  split at h
  · exact .cons (by decide) (takeDigits?_passes h)
  · cases h

/-- The digits of an exponent are passed. -/
theorem takeExponentDigits?_passes {neg : Bool} {cs rest : Text} {e : Int}
    (h : takeExponentDigits? neg cs = some (e, rest)) : Passes cs rest := by
  obtain ⟨⟨ds, end'⟩, hds, h⟩ := Option.bind_eq_some_iff.1 h
  cases h
  exact takeDigits?_passes hds

/-- An exponent is passed with its letter and its sign. -/
theorem takeExponent?_passes {cs rest : Text} {e : Int}
    (h : takeExponent? cs = some (e, rest)) : Passes cs rest := by
  rw [takeExponent?.eq_def] at h
  split at h
  · rename_i c cs
    split at h
    · rename_i hletter
      have hc : isPlain c = true := by
        rw [Bool.or_eq_true, beq_iff_eq, beq_iff_eq] at hletter
        obtain rfl | rfl := hletter <;> decide
      refine .cons hc ?_
      split at h
      · exact .cons (by decide) (takeExponentDigits?_passes h)
      · exact .cons (by decide) (takeExponentDigits?_passes h)
      · exact takeExponentDigits?_passes h
    · cases h
  · cases h

/-- A number without its sign is passed. -/
theorem readUnsigned_passes {neg : Bool} {cs rest : Text} {n : Number}
    (h : readUnsigned neg cs = some (n, rest)) : Passes cs rest := by
  obtain ⟨⟨whole, afterWhole⟩, hwhole, h⟩ := Option.bind_eq_some_iff.1 h
  refine (takeWhole_passes hwhole).trans ?_
  dsimp only at h
  split at h
  · rename_i fraction afterFraction hfraction
    refine (takeFraction?_passes hfraction).trans ?_
    split at h
    · rename_i e afterExponent hexponent
      cases h
      exact takeExponent?_passes hexponent
    · cases h
      exact .refl _
  · split at h
    · rename_i e afterExponent hexponent
      cases h
      exact takeExponent?_passes hexponent
    · split at h
      · cases h
      · cases h
        exact .refl _

/-- What a text must start with is what it starts with. -/
theorem afterWord_eq {word cs rest : Text} (h : afterWord word cs = some rest) :
    cs = word ++ rest := by
  induction word generalizing cs with
  | nil =>
      cases h
      rfl
  | cons w word ih =>
      cases cs with
      | nil => cases h
      | cons c cs =>
          rw [afterWord] at h
          split at h
          · rename_i hw
            rw [hw, ih h, List.cons_append]
          · cases h

/-- A word gives its value and is passed. -/
theorem readWord_spec {word cs rest : Text} {v u : Json} (h : readWord word v cs = some (u, rest))
    (hword : ∀ c ∈ word, isPlain c = true) : u = v ∧ Passes cs rest := by
  obtain ⟨end', hafter, h⟩ := Option.bind_eq_some_iff.1 h
  cases h
  rw [afterWord_eq hafter]
  exact ⟨rfl, .append hword _⟩

/-! ## Strings -/

/-- Inside a string only a quote or a backslash counts. -/
theorem deepest_inside {c : CodePoint} (hslash : c ≠ .char '\\') (hquote : c ≠ .char '"')
    (k : Nat) (cs : Text) : deepest true k (c :: cs) = deepest true k cs := by
  rw [deepest, bne_iff_ne.2 hquote]
  rintro _ _ rfl
  exact absurd rfl hslash

/-- A hexadecimal digit ends and escapes nothing. -/
theorem ne_of_hexValue? {c : CodePoint} {n : Nat} (h : hexValue? c = some n) :
    c ≠ .char '\\' ∧ c ≠ .char '"' := by
  constructor
  · rintro rfl
    cases h
  · rintro rfl
    cases h

/-- A string takes its brackets along. -/
theorem deepest_readPieces {cs rest : Text} {ps : List Piece} (k : Nat)
    (h : readPieces cs = some (ps, rest)) : deepest true k cs = deepest false k rest := by
  fun_induction readPieces cs generalizing ps with
  | case1 => cases h
  | case2 cs =>
      cases h
      rfl
  | case3 a b c d cs ih =>
      obtain ⟨u, hu, h⟩ := Option.bind_eq_some_iff.1 h
      obtain ⟨⟨qs, end'⟩, hr, h⟩ := Option.bind_eq_some_iff.1 h
      cases h
      obtain ⟨_, ha, hu⟩ := Option.bind_eq_some_iff.1 hu
      obtain ⟨_, hb, hu⟩ := Option.bind_eq_some_iff.1 hu
      obtain ⟨_, hc, hu⟩ := Option.bind_eq_some_iff.1 hu
      obtain ⟨_, hd, -⟩ := Option.bind_eq_some_iff.1 hu
      rw [deepest, deepest_inside (ne_of_hexValue? ha).1 (ne_of_hexValue? ha).2,
        deepest_inside (ne_of_hexValue? hb).1 (ne_of_hexValue? hb).2,
        deepest_inside (ne_of_hexValue? hc).1 (ne_of_hexValue? hc).2,
        deepest_inside (ne_of_hexValue? hd).1 (ne_of_hexValue? hd).2, ih hr]
  | case4 c cs _ ih =>
      obtain ⟨d, hd, h⟩ := Option.bind_eq_some_iff.1 h
      obtain ⟨⟨qs, end'⟩, hr, h⟩ := Option.bind_eq_some_iff.1 h
      cases h
      rw [deepest, ih hr]
  | case5 => cases h
  | case6 c cs hquote _ _ hplain ih =>
      obtain ⟨⟨qs, end'⟩, hr, h⟩ := Option.bind_eq_some_iff.1 h
      cases h
      have hslash : c ≠ .char '\\' := by
        rintro rfl
        exact hplain (Bool.or_eq_true_iff.2 (.inr (beq_self_eq_true _)))
      rw [deepest_inside hslash hquote, ih hr]

/-- The quote before a string counts with it. -/
theorem deepest_readString {cs s rest : Text} (k : Nat) (h : readString cs = some (s, rest)) :
    deepest false k (.char '"' :: cs) = deepest false k rest := by
  obtain ⟨⟨ps, end'⟩, hread, h⟩ := Option.bind_eq_some_iff.1 h
  cases h
  exact deepest_readPieces k hread

/-- What is neither an array nor an object opens and closes nothing. -/
theorem deepest_readAtom {cs rest : Text} {v : Json} (k : Nat)
    (h : readAtom cs = some (v, rest)) : deepest false k cs = deepest false k rest := by
  have hnumber : ∀ {neg : Bool} {cs : Text},
      (readUnsigned neg cs >>= fun r => some (Json.number r.1, r.2)) = some (v, rest) →
      Passes cs rest := by
    intro neg cs h
    obtain ⟨⟨n, end'⟩, hn, h⟩ := Option.bind_eq_some_iff.1 h
    cases h
    exact readUnsigned_passes hn
  rw [readAtom.eq_def] at h
  split at h
  · obtain ⟨⟨s, end'⟩, hs, h⟩ := Option.bind_eq_some_iff.1 h
    cases h
    exact deepest_readString k hs
  · exact (readWord_spec h (by decide +kernel)).2.deepest k
  · exact (readWord_spec h (by decide +kernel)).2.deepest k
  · exact (readWord_spec h (by decide +kernel)).2.deepest k
  · exact (readWord_spec h (by decide +kernel)).2.deepest k
  · exact (readWord_spec h (by decide +kernel)).2.deepest k
  · exact (Passes.cons (by decide) (readWord_spec h (by decide +kernel)).2).deepest k
  · exact (Passes.cons (by decide) (hnumber h)).deepest k
  · exact (hnumber h).deepest k

/-- A name and its colon open and close nothing. -/
theorem deepest_readName {cs name rest : Text} (k : Nat) (h : readName cs = some (name, rest)) :
    deepest false k cs = deepest false k rest := by
  rw [readName.eq_def] at h
  split at h
  · obtain ⟨⟨s, end'⟩, hs, h⟩ := Option.bind_eq_some_iff.1 h
    have hend := (skipSpace_passes end').deepest k
    dsimp only at h
    split at h
    · rename_i cs heq
      cases h
      rw [heq] at hend
      have hcolon : Passes (.char ':' :: cs) (skipSpace cs) :=
        .cons (by decide) (skipSpace_passes cs)
      rw [deepest_readString k hs, hend, hcolon.deepest k]
    · cases h
  · cases h

/-! ## The depth of what is read -/

/-- What a reader gives where the brackets go as deep as `deep`, of which `level`
    are open, with room for some more: a value with brackets for which there was
    room, or one bracket too many.  After the value `k` brackets are open. -/
inductive Measured {α : Type} (room deep level k : Nat) : Except ReadFault (α × Text) → Prop where
  | ok {a : α} {rest : Text} {d : Nat} (hd : d ≤ room)
      (hdeep : deep = max (level + d) (deepest false k rest)) :
      Measured room deep level k (.ok (a, rest))
  | tooDeep (h : level + room < deep) : Measured room deep level k (.error .tooDeep)
  | malformed : Measured room deep level k (.error .malformed)

namespace Measured

variable {α β : Type} {room deep level j k : Nat} {r : Except ReadFault (α × Text)}

/-- A value without brackets takes no room. -/
theorem pure (room k : Nat) (a : α) (rest : Text) :
    Measured room (deepest false k rest) k k (.ok (a, rest)) :=
  .ok (Nat.zero_le room) (Nat.max_eq_right (le_deepest false k rest)).symm

/-- Two readers one after the other have the same room. -/
theorem bind (h : Measured room deep level j r) {f : α × Text → Except ReadFault (β × Text)}
    (hf : ∀ a rest, Measured room (deepest false j rest) level k (f (a, rest))) :
    Measured room deep level k (r >>= f) := by
  cases h with
  | @ok a rest d hd hdeep =>
      have hnext := hf a rest
      show Measured room deep level k (f (a, rest))
      generalize f (a, rest) = q at hnext
      cases hnext with
      | ok hd' hdeep' => exact .ok (Nat.max_le.2 ⟨hd, hd'⟩) (by omega)
      | tooDeep h => exact .tooDeep (by omega)
      | malformed => exact .malformed
  | tooDeep h => exact .tooDeep h
  | malformed => exact .malformed

/-- It does not matter what is made of a value. -/
theorem map (h : Measured room deep level k r) (f : α → β) :
    Measured room deep level k (r >>= fun p => .ok (f p.1, p.2)) := by
  cases h with
  | ok hd hdeep => exact .ok hd hdeep
  | tooDeep h => exact .tooDeep h
  | malformed => exact .malformed

/-- A bracket takes room for one. -/
theorem within (h : Measured room deep (level + 1) k r) : Measured (room + 1) deep level k r := by
  cases h with
  | @ok a rest d hd hdeep => exact .ok (Nat.succ_le_succ hd) (by omega)
  | tooDeep h => exact .tooDeep (by omega)
  | malformed => exact .malformed

end Measured

/-- What the three readers give within a number of steps.  The items and the fields
    are read inside a bracket. -/
structure Measuring (n : Nat) : Prop where
  value : ∀ room k cs, Measured room (deepest false k cs) k k (readValue n room cs)
  items : ∀ room k cs, Measured room (deepest false (k + 1) cs) (k + 1) k (readItems n room cs)
  fields : ∀ room k sofar cs,
    Measured room (deepest false (k + 1) cs) (k + 1) k (readFields n room sofar cs)

/-- The blanks before a character open and close nothing. -/
theorem deepest_of_skipSpace {rest after : Text} {c : CodePoint} (h : skipSpace rest = c :: after)
    (k : Nat) : deepest false k rest = deepest false k (c :: after) := by
  rw [(skipSpace_passes rest).deepest k, h]

/-- What is read after the end of an array or an object is outside it. -/
theorem deepest_of_end {rest after : Text} {c : CodePoint} (h : skipSpace rest = c :: after)
    (hopens : opens c = false) (hcloses : closes c = true) (k : Nat) :
    deepest false (k + 1) rest = max (k + 1) (deepest false k after) := by
  rw [deepest_of_skipSpace h, deepest, hopens, hcloses, if_neg Bool.false_ne_true, if_pos rfl,
    Nat.add_sub_cancel]

/-- A comma and the blanks behind it open and close nothing either. -/
theorem deepest_of_comma {rest after : Text} (h : skipSpace rest = .char ',' :: after) (k : Nat) :
    deepest false k rest = deepest false k (skipSpace after) := by
  have hcomma : Passes (.char ',' :: after) (skipSpace after) :=
    .cons (by decide) (skipSpace_passes after)
  rw [deepest_of_skipSpace h, hcomma.deepest k]

namespace Measuring

variable {n : Nat} (ih : ∀ m < n, Measuring m)
include ih

/-- An array and an object that have no items end at once, and the others are read
    inside one more bracket. -/
theorem value_of_less (room k : Nat) (cs : Text) :
    Measured room (deepest false k cs) k k (readValue n room cs) := by
  have hskip : ∀ cs, deepest false (k + 1) cs = deepest false (k + 1) (skipSpace cs) :=
    fun cs => (skipSpace_passes cs).deepest (k + 1)
  fun_cases readValue n room cs with
  | case1 => exact .malformed
  | case2 _ cs => exact .tooDeep (le_deepest false (k + 1) cs)
  | case3 _ cs => exact .tooDeep (le_deepest false (k + 1) cs)
  | case4 _ room cs rest hend =>
      show Measured (room + 1) (deepest false (k + 1) cs) k k _
      rw [deepest_of_end hend (by decide) (by decide)]
      exact .ok (d := 1) (Nat.le_add_left 1 room) rfl
  | case5 m room cs _ =>
      show Measured (room + 1) (deepest false (k + 1) cs) k k _
      rw [hskip]
      exact ((ih m (Nat.lt_succ_self m)).items room k (skipSpace cs)).within.map Json.array
  | case6 _ room cs rest hend =>
      show Measured (room + 1) (deepest false (k + 1) cs) k k _
      rw [deepest_of_end hend (by decide) (by decide)]
      exact .ok (d := 1) (Nat.le_add_left 1 room) rfl
  | case7 m room cs _ =>
      show Measured (room + 1) (deepest false (k + 1) cs) k k _
      rw [hskip]
      exact ((ih m (Nat.lt_succ_self m)).fields room k [] (skipSpace cs)).within.map Json.object
  | case8 =>
      cases hatom : readAtom cs with
      | none => exact .malformed
      | some r =>
          obtain ⟨v, rest⟩ := r
          rw [deepest_readAtom k hatom]
          exact .pure room k v rest

/-- An item is followed by others, or by the bracket that ends the array. -/
theorem items_of_less (room k : Nat) (cs : Text) :
    Measured room (deepest false (k + 1) cs) (k + 1) k (readItems n room cs) := by
  cases n with
  | zero =>
      rw [readItems]
      exact .malformed
  | succ n =>
      have ih := ih n (Nat.lt_succ_self n)
      rw [readItems]
      refine (ih.value room (k + 1) cs).bind fun v rest => ?_
      dsimp only
      split
      · rename_i after hcomma
        rw [deepest_of_comma hcomma]
        exact (ih.items room k (skipSpace after)).map (v :: ·)
      · rename_i after hend
        rw [deepest_of_end hend (by decide) (by decide)]
        exact .ok (d := 0) (Nat.zero_le room) rfl
      · exact .malformed

/-- A field is followed by others, or by the bracket that ends the object. -/
theorem fields_of_less (room k : Nat) (sofar : List (Text × Json)) (cs : Text) :
    Measured room (deepest false (k + 1) cs) (k + 1) k (readFields n room sofar cs) := by
  cases n with
  | zero =>
      rw [readFields]
      exact .malformed
  | succ n =>
      have ih := ih n (Nat.lt_succ_self n)
      rw [readFields]
      cases hname : readName cs with
      | none => exact .malformed
      | some r =>
          obtain ⟨name, rest⟩ := r
          rw [deepest_readName (k + 1) hname]
          refine (ih.value room (k + 1) rest).bind fun v rest => ?_
          dsimp only
          split
          · rename_i after hcomma
            rw [deepest_of_comma hcomma]
            exact ih.fields room k _ (skipSpace after)
          · rename_i after hend
            rw [deepest_of_end hend (by decide) (by decide)]
            exact .ok (d := 0) (Nat.zero_le room) rfl
          · exact .malformed

end Measuring

/-- The readers use each other with fewer steps, so one induction on the number of
    steps is for all three. -/
theorem measuring (n : Nat) : Measuring n := by
  induction n using Nat.strongRecOn with
  | ind n ih =>
      exact ⟨Measuring.value_of_less ih, Measuring.items_of_less ih, Measuring.fields_of_less ih⟩

/-- A text that is read has no more brackets inside each other than there is room
    for, and a text that is too deep has more. -/
theorem read_depth {room : Nat} {t : Text} :
    (∀ v, read room t = .ok v → nesting t ≤ room)
      ∧ (read room t = .error .tooDeep → room < nesting t) := by
  have h := (measuring (2 * t.length + 2)).value room 0 (skipSpace t)
  rw [← (skipSpace_passes t).deepest 0] at h
  rw [read, nesting]
  generalize readValue (2 * t.length + 2) room (skipSpace t) = r at h
  cases h with
  | @ok v rest d hd hdeep =>
      refine ⟨fun u hu => ?_, fun hr => ?_⟩
      · dsimp only [bind, Except.bind] at hu
        split at hu
        · rename_i hempty
          have hrest : deepest false 0 rest = 0 := by
            rw [(skipSpace_passes rest).deepest 0, List.isEmpty_iff.1 hempty, deepest]
          omega
        · cases hu
      · dsimp only [bind, Except.bind] at hr
        split at hr <;> cases hr
  | tooDeep h => exact ⟨by rintro _ ⟨⟩, fun _ => by omega⟩
  | malformed => exact ⟨by rintro _ ⟨⟩, by rintro ⟨⟩⟩

/-! ## Opening brackets alone -/

/-- Opening brackets alone are too deep if there are more of them than there is room
    for. -/
theorem readValue_brackets {room m n : Nat} (hm : room < m) (hn : 2 * room < n) :
    readValue n room (List.replicate m (.char '[')) = .error .tooDeep := by
  induction room generalizing m n with
  | zero =>
      obtain ⟨m, rfl⟩ : ∃ k, m = k + 1 := ⟨m - 1, by omega⟩
      obtain ⟨n, rfl⟩ : ∃ k, n = k + 1 := ⟨n - 1, by omega⟩
      rfl
  | succ room ih =>
      obtain ⟨m, rfl⟩ : ∃ k, m = k + 2 := ⟨m - 2, by omega⟩
      obtain ⟨n, rfl⟩ : ∃ k, n = k + 2 := ⟨n - 2, by omega⟩
      -- the first bracket is followed by another one, so there are items to read
      show (readItems (n + 1) room (List.replicate (m + 1) (.char '[')) >>= _) = _
      rw [readItems, ih (by omega) (by omega)]
      rfl

/-- Opening brackets are read until there is no room for another one. -/
theorem read_brackets {room m : Nat} (hm : room < m) :
    read room (List.replicate m (.char '[')) = .error .tooDeep := by
  obtain ⟨m, rfl⟩ : ∃ k, m = k + 1 := ⟨m - 1, by omega⟩
  have hskip : skipSpace (List.replicate (m + 1) (.char '[')) = List.replicate (m + 1) (.char '[') :=
    rfl
  rw [read, hskip, readValue_brackets hm (by rw [List.length_replicate]; omega)]
  rfl

end TurtleLogo.Json
