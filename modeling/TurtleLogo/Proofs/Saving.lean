import TurtleLogo.Proofs.Depth

/-! # Saved projects

    A project that is saved and loaded again keeps its name and its code,
    whatever text it was loaded from the first time.  Only a text with too many
    brackets inside each other is not loaded in the first place.

    * The texts in JSON data are `Json.Unpaired` when the data is read from a
      text without halves of pairs (`Json.read_unpaired`), so the name and the
      code of a project can be written and read back.
    * A name that is made of other data is listed in characters
      (`Json.whole_listing`), and no name is empty (`Project.Savable`), so the
      default name is not asked for again.
    * What is written for fields of texts is read as these fields
      (`Json.read_writeObject`). -/

namespace TurtleLogo

namespace Json

open Text

/-! ## Texts in data -/

/-- No two halves of a pair stand side by side in a value that is a text, nor in
    a field that is one. -/
structure Unpaired (v : Json) : Prop where
  text : ∀ s, v = .text s → s.Unpaired
  field : ∀ fields, v = .object fields → ∀ f ∈ fields, ∀ s, f.2 = .text s → s.Unpaired

/-- An atom is read unpaired from a text without halves, and leaves such a text. -/
theorem readAtom_spec {cs rest : Text} {v : Json} (h : readAtom cs = some (v, rest))
    (hcs : Whole cs) : v.Unpaired ∧ Whole rest := by
  have hnumber : ∀ {neg : Bool} {cs : Text}, Whole cs →
      (readUnsigned neg cs >>= fun r => some (Json.number r.1, r.2)) = some (v, rest) →
      v.Unpaired ∧ Whole rest := by
    intro neg cs hcs h
    obtain ⟨⟨n, end'⟩, hn, h⟩ := Option.bind_eq_some_iff.1 h
    cases h
    exact ⟨⟨by rintro _ ⟨⟩, by rintro _ ⟨⟩⟩, hcs.of_suffix (readUnsigned_passes hn).suffix⟩
  have hword : ∀ {word cs : Text} {u : Json}, (∀ s, u ≠ .text s) → (∀ fields, u ≠ .object fields) →
      (∀ c ∈ word, isPlain c = true) → Whole cs → readWord word u cs = some (v, rest) →
      v.Unpaired ∧ Whole rest := by
    intro word cs u hs hf hplain hcs h
    obtain ⟨rfl, hpasses⟩ := readWord_spec h hplain
    exact ⟨⟨fun s hv => absurd hv (hs s), fun fields hv => absurd hv (hf fields)⟩,
      hcs.of_suffix hpasses.suffix⟩
  rw [readAtom.eq_def] at h
  split at h
  · obtain ⟨⟨s, end'⟩, hs, h⟩ := Option.bind_eq_some_iff.1 h
    cases h
    obtain ⟨hpaired, hrest⟩ := readString_spec hs hcs.tail
    exact ⟨⟨by rintro _ ⟨⟩; exact hpaired, by rintro _ ⟨⟩⟩, hrest⟩
  · exact hword (by simp) (by simp) (by decide +kernel) hcs h
  · exact hword (by simp) (by simp) (by decide +kernel) hcs h
  · exact hword (by simp) (by simp) (by decide +kernel) hcs h
  · exact hword (by simp) (by simp) (by decide +kernel) hcs h
  · exact hword (by simp) (by simp) (by decide +kernel) hcs h
  · exact hword (by simp) (by simp) (by decide +kernel) hcs.tail h
  · exact hnumber hcs.tail h
  · exact hnumber hcs h

/-- A name leaves a text without halves. -/
theorem readName_spec {cs name rest : Text} (h : readName cs = some (name, rest))
    (hcs : Whole cs) : Whole rest := by
  rw [readName.eq_def] at h
  split at h
  · obtain ⟨⟨s, end'⟩, hs, h⟩ := Option.bind_eq_some_iff.1 h
    have hend := (readString_spec hs hcs.tail).2.of_suffix (skipSpace_passes _).suffix
    dsimp only at h
    split at h
    · rename_i heq
      cases h
      rw [heq] at hend
      exact hend.tail.of_suffix (skipSpace_passes _).suffix
    · cases h
  · cases h

/-- Setting a field brings in nothing but its value. -/
theorem mem_setField {fields : List (Text × Json)} {name : Text} {v : Json} {f : Text × Json}
    (h : f ∈ setField fields name v) : f.2 = v ∨ f ∈ fields := by
  induction fields with
  | nil =>
      cases List.mem_singleton.1 h
      exact .inl rfl
  | cons g fields ih =>
      rw [setField] at h
      split at h
      · rcases List.mem_cons.1 h with rfl | h
        · exact .inl rfl
        · exact .inr (List.mem_cons_of_mem g h)
      · rcases List.mem_cons.1 h with rfl | h
        · exact .inr List.mem_cons_self
        · exact (ih h).imp_right (List.mem_cons_of_mem g)

/-- An object without fields has no texts. -/
theorem unpaired_nil : (Json.object []).Unpaired where
  text := by rintro _ ⟨⟩
  field := by
    rintro _ ⟨⟩ f hf
    cases hf

/-- A field that is set may be a text as well. -/
theorem Unpaired.setField {sofar : List (Text × Json)} (h : (Json.object sofar).Unpaired)
    {v : Json} (hv : v.Unpaired) (name : Text) :
    (Json.object (Json.setField sofar name v)).Unpaired where
  text := by rintro _ ⟨⟩
  field := by
    rintro _ ⟨⟩ f hf s hs
    rcases mem_setField hf with hvalue | hold
    · exact hv.text s (hvalue ▸ hs)
    · exact h.field sofar rfl f hold s hs

/-- What the three readers leave of a text without halves, and make of it, within
    a number of steps. -/
structure Unpairing (n : Nat) : Prop where
  value : ∀ {room : Nat} {cs rest : Text} {v : Json}, Whole cs →
    readValue n room cs = .ok (v, rest) → v.Unpaired ∧ Whole rest
  items : ∀ {room : Nat} {cs rest : Text} {vs : List Json}, Whole cs →
    readItems n room cs = .ok (vs, rest) → Whole rest
  fields : ∀ {room : Nat} {cs rest : Text} {sofar fields : List (Text × Json)}, Whole cs →
    (Json.object sofar).Unpaired → readFields n room sofar cs = .ok (fields, rest) →
    (Json.object fields).Unpaired ∧ Whole rest

namespace Unpairing

variable {n room : Nat} {cs rest : Text} (ih : ∀ m < n, Unpairing m)
include ih

/-- An array has no fields, and in an object they have no halves to be paired. -/
theorem value_of_less {v : Json} (hcs : Whole cs) (h : readValue n room cs = .ok (v, rest)) :
    v.Unpaired ∧ Whole rest := by
  have hskip : ∀ {c : CodePoint} {cs : Text}, Whole (c :: cs) → Whole (skipSpace cs) :=
    fun hcs => hcs.tail.of_suffix (skipSpace_passes _).suffix
  revert h
  fun_cases readValue n room cs with
  | case1 => rintro ⟨⟩
  | case2 => rintro ⟨⟩
  | case3 => rintro ⟨⟩
  | case4 _ _ cs end' hend =>
      rintro ⟨⟩
      have hrest := hskip hcs
      rw [hend] at hrest
      exact ⟨⟨by rintro _ ⟨⟩, by rintro _ ⟨⟩⟩, hrest.tail⟩
  | case5 m room cs _ =>
      intro h
      obtain ⟨⟨vs, end'⟩, hvs, h⟩ := Except.bind_eq_ok h
      cases h
      exact ⟨⟨by rintro _ ⟨⟩, by rintro _ ⟨⟩⟩, (ih m (Nat.lt_succ_self m)).items (hskip hcs) hvs⟩
  | case6 _ _ cs end' hend =>
      rintro ⟨⟩
      have hrest := hskip hcs
      rw [hend] at hrest
      exact ⟨unpaired_nil, hrest.tail⟩
  | case7 m room cs _ =>
      intro h
      obtain ⟨⟨fields, end'⟩, hfields, h⟩ := Except.bind_eq_ok h
      cases h
      exact (ih m (Nat.lt_succ_self m)).fields (hskip hcs) unpaired_nil hfields
  | case8 => exact fun h => readAtom_spec (orMalformed_eq_ok.1 h) hcs

/-- What is left after an item is left after the items behind it. -/
theorem items_of_less {vs : List Json} (hcs : Whole cs)
    (h : readItems n room cs = .ok (vs, rest)) : Whole rest := by
  cases n with
  | zero =>
      rw [readItems] at h
      cases h
  | succ n =>
      have ih := ih n (Nat.lt_succ_self n)
      rw [readItems] at h
      obtain ⟨⟨v, afterValue⟩, hv, h⟩ := Except.bind_eq_ok h
      have hskip := (ih.value hcs hv).2.of_suffix (skipSpace_passes _).suffix
      dsimp only at h
      split at h
      · rename_i heq
        obtain ⟨⟨us, end'⟩, hus, h⟩ := Except.bind_eq_ok h
        cases h
        rw [heq] at hskip
        exact ih.items (hskip.tail.of_suffix (skipSpace_passes _).suffix) hus
      · rename_i heq
        cases h
        rw [heq] at hskip
        exact hskip.tail
      · cases h

/-- Each field that is set may be a text. -/
theorem fields_of_less {sofar fields : List (Text × Json)} (hcs : Whole cs)
    (hsofar : (Json.object sofar).Unpaired)
    (h : readFields n room sofar cs = .ok (fields, rest)) :
    (Json.object fields).Unpaired ∧ Whole rest := by
  cases n with
  | zero =>
      rw [readFields] at h
      cases h
  | succ n =>
      have ih := ih n (Nat.lt_succ_self n)
      rw [readFields] at h
      obtain ⟨⟨name, afterName⟩, hname, h⟩ := Except.bind_eq_ok h
      obtain ⟨⟨v, afterValue⟩, hv, h⟩ := Except.bind_eq_ok h
      obtain ⟨hpaired, hafter⟩ := ih.value (readName_spec (orMalformed_eq_ok.1 hname) hcs) hv
      have hset := hsofar.setField hpaired name
      have hskip := hafter.of_suffix (skipSpace_passes _).suffix
      dsimp only at h
      split at h
      · rename_i heq
        rw [heq] at hskip
        exact ih.fields (hskip.tail.of_suffix (skipSpace_passes _).suffix) hset h
      · rename_i heq
        cases h
        rw [heq] at hskip
        exact ⟨hset, hskip.tail⟩
      · cases h

end Unpairing

/-- The readers use each other with fewer steps, so one induction on the number of
    steps is for all three. -/
theorem unpairing (n : Nat) : Unpairing n := by
  induction n using Nat.strongRecOn with
  | ind n ih =>
      exact ⟨Unpairing.value_of_less ih, Unpairing.items_of_less ih, Unpairing.fields_of_less ih⟩

/-- The texts in what is read have no halves to be paired. -/
theorem read_unpaired {room : Nat} {t : Text} {v : Json} (h : read room t = .ok v)
    (ht : Whole t) : v.Unpaired := by
  obtain ⟨⟨u, rest⟩, hread, h⟩ := Except.bind_eq_ok h
  dsimp only at h
  split at h
  · cases h
    exact ((unpairing _).value (ht.of_suffix (skipSpace_passes t).suffix) hread).1
  · cases h

/-! ## Listed data -/

/-- A number with digits is laid out in at least one character. -/
theorem lay_ne_nil (f : DecimalLayout) {ds : List Char} (h : ds ≠ []) (e : Int) :
    f.lay ds e ≠ [] := by
  rw [DecimalLayout.lay.eq_def]
  split
  · split
    · exact List.cons_ne_nil _ _
    · dsimp only
      split
      · exact fun hnil => h (List.append_eq_nil_iff.1 (List.append_eq_nil_iff.1 hnil).1).1
      · exact fun hnil => List.cons_ne_nil _ _ (List.append_eq_nil_iff.1 hnil).2
  · cases ds with
    | nil => exact absurd rfl h
    | cons d ds => cases ds <;> exact List.cons_ne_nil _ _

/-- A number is listed in characters. -/
theorem numberListing_spec (n : Number) : Whole (numberListing n) ∧ numberListing n ≠ [] := by
  have hsigned : ∀ (neg : Bool) {cs : List Char}, cs ≠ [] →
      Whole (ofChars (if neg then '-' :: cs else cs))
        ∧ ofChars (if neg then '-' :: cs else cs) ≠ [] := by
    intro neg cs hcs
    refine ⟨whole_ofChars _, ?_⟩
    cases neg
    · exact fun hnil => hcs (List.map_eq_nil_iff.1 hnil)
    · exact List.cons_ne_nil _ _
  cases n with
  | int n =>
      show Whole (Number.digits n) ∧ Number.digits n ≠ []
      rw [Number.digits]
      by_cases hneg : n < 0
      · rw [if_pos hneg]
        exact hsigned true Nat.toDigits_ne_nil
      · rw [if_neg hneg]
        exact hsigned false Nat.toDigits_ne_nil
  | real x =>
      cases x with
      | nan s => exact ⟨whole_ofString "nan", List.cons_ne_nil _ _⟩
      | infinite s =>
          cases s
          · exact ⟨whole_ofString "inf", List.cons_ne_nil _ _⟩
          · exact ⟨whole_ofString "-inf", List.cons_ne_nil _ _⟩
      | finite s m q hq =>
          refine hsigned s ?_
          split
          · exact lay_ne_nil _ (List.cons_ne_nil _ _) 0
          · exact lay_ne_nil _ Nat.toDigits_ne_nil _

/-- A half of a pair is listed by its code. -/
theorem isPrintable_half (n : Fin 0x800) : isPrintable (.half n) = false := by
  have hspans : ∀ s ∈ printableSpans, s.last < 0xD800 ∨ 0xE000 ≤ s.first := by decide +kernel
  have hn : 0xD800 ≤ (CodePoint.half n).toNat ∧ (CodePoint.half n).toNat < 0xE000 := by
    have hlt := n.isLt
    show 0xD800 ≤ 0xD800 + n.val ∧ 0xD800 + n.val < 0xE000
    omega
  rw [isPrintable, if_neg (by omega), List.any_eq_false]
  intro s hs hcovers
  rw [Span.covers, Bool.and_eq_true, decide_eq_true_eq, decide_eq_true_eq] at hcovers
  rcases hspans s hs with h | h <;> omega

theorem whole_append {t u : Text} (ht : Whole t) (hu : Whole u) : Whole (t ++ u) :=
  List.forall_mem_append.2 ⟨ht, hu⟩

/-- A code point that is escaped for a listing is no half. -/
theorem whole_escapePoint {quote : CodePoint} (hquote : ∃ ch, quote = .char ch) (c : CodePoint) :
    Whole (escapePoint quote c) := by
  obtain ⟨q, rfl⟩ := hquote
  cases c with
  | char c =>
      simp only [escapePoint]
      split
      · exact whole_ofChars ['\\', c]
      repeat' split
      all_goals first
        | exact whole_ofChars [c]
        | exact whole_ofChars _
  | half n =>
      have hplain : (CodePoint.half n == .char q || (CodePoint.half n).toNat == 92) = false := by
        have hn : (CodePoint.half n).toNat ≠ 92 := by
          show 0xD800 + n.val ≠ 92
          omega
        simp [hn]
      simp only [escapePoint, hplain, isPrintable_half, if_neg Bool.false_ne_true]
      repeat' split
      all_goals exact whole_ofChars _

/-- Texts are listed without halves. -/
theorem whole_quoted (t : Text) : Whole (quoted t) := by
  have hquote : ∃ ch, (if t.contains singleQuote && !t.contains doubleQuote then doubleQuote
      else singleQuote) = CodePoint.char ch := by
    split
    · exact ⟨'"', rfl⟩
    · exact ⟨'\'', rfl⟩
  rw [quoted]
  refine whole_append (List.forall_mem_cons.2 ⟨hquote, fun c hc => ?_⟩)
    (List.forall_mem_singleton.2 hquote)
  obtain ⟨d, -, hc⟩ := List.mem_flatMap.1 hc
  exact whole_escapePoint hquote d c hc

/-- Texts without halves are joined without halves. -/
theorem whole_joinWith {separator : Text} (hs : Whole separator) {ts : List Text}
    (hts : ∀ t ∈ ts, Whole t) : Whole (joinWith separator ts) := by
  induction ts with
  | nil => exact fun c hc => by cases hc
  | cons t ts ih =>
      obtain ⟨ht, hts⟩ := List.forall_mem_cons.1 hts
      cases ts with
      | nil =>
          rw [joinWith, List.intercalate_singleton]
          exact ht
      | cons u ts =>
          rw [joinWith, List.intercalate_cons_cons]
          exact whole_append (whole_append ht hs) (ih hts)

mutual
/-- A value is listed without halves. -/
theorem whole_listing : ∀ v : Json, Whole v.listing
  | .null => by rw [listing]; exact whole_ofString "None"
  | .truth true => by rw [listing]; exact whole_ofString "True"
  | .truth false => by rw [listing]; exact whole_ofString "False"
  | .number n => by rw [listing]; exact (numberListing_spec n).1
  | .text s => by rw [listing]; exact whole_quoted s
  | .array items => by
      rw [listing]
      exact whole_append (whole_append (whole_ofString "[") (whole_joinWith (whole_ofString ", ")
        (whole_listings items))) (whole_ofString "]")
  | .object fields => by
      rw [listing]
      exact whole_append (whole_append (whole_ofString "\x7b") (whole_joinWith (whole_ofString ", ")
        (whole_fieldListings fields))) (whole_ofString "\x7d")
/-- Several values are listed without halves. -/
theorem whole_listings : ∀ vs : List Json, ∀ t ∈ listings vs, Whole t
  | [] => by
      rw [listings]
      exact List.forall_mem_nil _
  | v :: vs => by
      rw [listings]
      exact List.forall_mem_cons.2 ⟨whole_listing v, whole_listings vs⟩
/-- Fields are listed without halves. -/
theorem whole_fieldListings : ∀ fields : List (Text × Json), ∀ t ∈ fieldListings fields, Whole t
  | [] => by
      rw [fieldListings]
      exact List.forall_mem_nil _
  | (name, v) :: fields => by
      rw [fieldListings]
      exact List.forall_mem_cons.2 ⟨whole_append (whole_append (whole_quoted name)
        (whole_ofString ": ")) (whole_listing v), whole_fieldListings fields⟩
end

/-- No value is listed as an empty text. -/
theorem listing_ne_nil (v : Json) : v.listing ≠ [] := by
  cases v with
  | truth b => cases b <;> rw [listing] <;> exact List.cons_ne_nil _ _
  | number n => rw [listing]; exact (numberListing_spec n).2
  | _ => rw [listing]; exact List.cons_ne_nil _ _

/-! ## Written objects -/

section

variable {f : Text × Text} (hname : f.1.Unpaired) (hvalue : f.2.Unpaired)

include hname in
/-- The name of a written field is read back, and its value is next. -/
theorem readName_writeField (more : Text) :
    readName (skipSpace (writeField f ++ more)) = some (f.1, writeString f.2 ++ more) := by
  have htext : skipSpace (writeField f ++ more)
      = .char '"' :: (writePoints f.1 ++ (.char ':' :: .char ' ' :: (writeString f.2 ++ more))) := by
    simp only [writeField, List.append_assoc]
    rfl
  rw [htext, readName, readString_writePoints hname]
  rfl

include hvalue in
/-- A value that is a text is read as it was written. -/
theorem readValue_writeString (n room : Nat) (more : Text) :
    readValue (n + 1) room (writeString f.2 ++ more) = .ok (.text f.2, more) := by
  have hread : readAtom (.char '"' :: (writePoints f.2 ++ more)) = some (.text f.2, more) := by
    rw [readAtom, readString_writePoints hvalue]
    rfl
  show readValue (n + 1) room (.char '"' :: (writePoints f.2 ++ more)) = _
  rw [readValue, hread]
  · rfl
  · exact Nat.succ_ne_zero n
  · rintro _ _ _ _ ⟨⟩
  · rintro _ _ _ _ ⟨⟩
  · rintro _ _ _ _ _ ⟨⟩
  · rintro _ _ _ _ _ ⟨⟩

end

/-- The fields of texts that an object is read with, after those so far. -/
def textFields (sofar : List (Text × Json)) (fields : List (Text × Text)) : List (Text × Json) :=
  fields.foldl (fun sofar f => setField sofar f.1 (.text f.2)) sofar

/-- Written fields are read back one after another. -/
theorem readFields_writeFields {fields : List (Text × Text)} (hne : fields ≠ [])
    (hfields : ∀ f ∈ fields, f.1.Unpaired ∧ f.2.Unpaired) {n : Nat} (hn : fields.length ≤ n)
    (room : Nat) (sofar : List (Text × Json)) (rest : Text) :
    readFields (n + 1) room sofar (skipSpace (writeFields fields ++ .char '\x7d' :: rest))
      = .ok (textFields sofar fields, rest) := by
  induction fields generalizing n sofar with
  | nil => exact absurd rfl hne
  | cons f fields ih =>
      obtain ⟨⟨hname, hvalue⟩, hfields⟩ := List.forall_mem_cons.1 hfields
      obtain ⟨k, rfl⟩ : ∃ k, n = k + 1 := ⟨n - 1, by simp at hn; omega⟩
      cases fields with
      | nil =>
          have htext : writeFields [f] ++ .char '\x7d' :: rest
              = writeField f ++ (.char '\n' :: .char '\x7d' :: rest) := by
            rw [writeFields, List.append_assoc]
            rfl
          rw [htext, readFields, readName_writeField hname]
          show (readValue (k + 1) room (writeString f.2 ++ _) >>= _) = _
          rw [readValue_writeString hvalue]
          rfl
      | cons g fields =>
          have htext : writeFields (f :: g :: fields) ++ .char '\x7d' :: rest
              = writeField f ++ (.char ',' :: .char '\n'
                :: (writeFields (g :: fields) ++ .char '\x7d' :: rest)) := by
            rw [writeFields, List.append_assoc, List.append_assoc]
            · rfl
            · exact List.cons_ne_nil _ _
          rw [htext, readFields, readName_writeField hname]
          show (readValue (k + 1) room (writeString f.2 ++ _) >>= _) = _
          rw [readValue_writeString hvalue]
          exact ih (List.cons_ne_nil _ _) hfields (Nat.le_of_succ_le_succ hn)
            (setField sofar f.1 (.text f.2))

/-- A field is written in at least one character. -/
theorem length_writeFields (fields : List (Text × Text)) :
    fields.length ≤ (writeFields fields).length := by
  fun_induction writeFields fields with
  | case1 => exact Nat.le_refl 0
  | case2 f =>
      rw [List.length_append]
      exact Nat.le_add_left 1 _
  | case3 f fields hne ih =>
      have hone : 1 ≤ (writeField f ++ Text.ofString ",\n").length := by
        rw [List.length_append]
        exact (Nat.le_add_left 1 1).trans (Nat.le_add_left 2 _)
      rw [List.length_cons, List.length_append, Nat.add_comm]
      exact Nat.add_le_add hone ih

/-- An object of texts is read as it was written, if there is room for a bracket. -/
theorem read_writeObject {fields : List (Text × Text)} (hne : fields ≠ [])
    (hfields : ∀ f ∈ fields, f.1.Unpaired ∧ f.2.Unpaired) (room : Nat) :
    read (room + 1) (writeObject fields) = .ok (.object (textFields [] fields)) := by
  have htext : writeObject fields
      = .char '\x7b' :: .char '\n' :: (writeFields fields ++ [.char '\x7d']) := rfl
  have hlength : fields.length ≤ 2 * (writeObject fields).length := by
    have hle := length_writeFields fields
    rw [htext]
    simp only [List.length_cons, List.length_append]
    omega
  obtain ⟨more, hmore⟩ : ∃ more, skipSpace (.char '\n' :: (writeFields fields ++ [.char '\x7d']))
      = .char '"' :: more := by
    cases fields with
    | nil => exact absurd rfl hne
    | cons f fields => cases fields <;> exact ⟨_, rfl⟩
  have hread : readFields (2 * (writeObject fields).length + 1) room [] (.char '"' :: more)
      = .ok (textFields [] fields, []) := by
    rw [← hmore]
    exact readFields_writeFields hne hfields hlength room [] []
  have hvalue : readValue (2 * (writeObject fields).length + 2) (room + 1)
      (skipSpace (writeObject fields)) = .ok (.object (textFields [] fields), []) := by
    show readValue (2 * (writeObject fields).length + 1 + 1) (room + 1)
      (.char '\x7b' :: .char '\n' :: (writeFields fields ++ [.char '\x7d'])) = _
    rw [readValue, hmore]
    show (readFields (2 * (writeObject fields).length + 1) room [] (.char '"' :: more) >>= _) = _
    rw [hread]
    rfl
  rw [read, hvalue]
  rfl

end Json

namespace Project

open Text

/-- The name and the code of a project can be written and read back, and the
    name is not empty. -/
structure Savable (p : Project) : Prop where
  name : p.name.Unpaired
  named : p.name ≠ []
  code : p.code.Unpaired

/-- The text in a field of an unpaired value is unpaired. -/
theorem unpaired_field? {v u : Json} (hv : v.Unpaired) {name s : Text}
    (h : v.field? name = some u) (hu : u = .text s) : s.Unpaired := by
  cases v with
  | object fields =>
      obtain ⟨before, after, heq, -⟩ := List.lookup_eq_some_iff.1 h
      exact hv.field fields rfl (name, u) (heq ▸ List.mem_append_right _ List.mem_cons_self) s hu
  | _ => cases h

/-- A default name is unpaired and not empty. -/
theorem default_spec {d : String} (hd : d ≠ "") : (ofString d).Unpaired ∧ ofString d ≠ [] :=
  ⟨(whole_ofString d).unpaired, fun h => hd (String.toList_eq_nil_iff.1 (List.map_eq_nil_iff.1 h))⟩

/-- The name of a project is a text of its own or the listing of other data, or
    else the default. -/
theorem givenName_spec {v : Json} (hv : v.Unpaired) {d : String} (hd : d ≠ "") :
    (givenName v d).Unpaired ∧ givenName v d ≠ [] := by
  rw [givenName]
  split
  · exact default_spec hd
  · rename_i u hfield
    split
    · exact default_spec hd
    · rename_i hblank
      cases u with
      | text s =>
          refine ⟨unpaired_field? hv hfield rfl, fun hs => hblank ?_⟩
          have hnil : s = [] := hs
          rw [hnil]
          rfl
      | _ => exact ⟨(Json.whole_listing _).unpaired, Json.listing_ne_nil _⟩

/-- Whatever a project was loaded from, it can be saved. -/
theorem savable_of_parse {room : Nat} {t d : String} (hd : d ≠ "") {p : Project}
    (h : parse room t d = .ok p) : p.Savable := by
  have hplain : Savable ⟨d, t, .null, .null⟩ :=
    ⟨(default_spec hd).1, (default_spec hd).2, (whole_ofString t).unpaired⟩
  rw [parse] at h
  split at h
  · cases h
  · cases h
    exact hplain
  · rename_i v hread
    have hv := Json.read_unpaired hread (whole_ofString t)
    split at h
    · rename_i code hcode
      cases h
      obtain ⟨hname, hnamed⟩ := givenName_spec hv hd
      exact ⟨hname, hnamed, unpaired_field? hv hcode rfl⟩
    · cases h
      exact hplain

/-- Nothing keeps a text from being loaded but that its brackets are nested too
    deeply. -/
theorem parse_error {room : Nat} {t default : Text} {f : ReadFault}
    (h : parse room t default = .error f) : f = .tooDeep ∧ room < Json.nesting t := by
  rw [parse] at h
  split at h
  · rename_i hread
    cases h
    exact ⟨rfl, Json.read_depth.2 hread⟩
  · cases h
  · split at h <;> cases h

/-- What is saved of a project is loaded with its name and its code, whatever the
    default name is. -/
theorem parse_of_envelope {p : Project} (h : p.Savable) (created : String) (room : Nat)
    (default : Text) : parse (room + 1) (envelope p.name p.code created) default
      = .ok ⟨p.name, p.code, .text created, .text formatVersion⟩ := by
  have hwhole : ∀ s : String, (ofString s).Unpaired := fun s => (whole_ofString s).unpaired
  have hfields : ∀ f ∈ [(ofString "name", p.name), (ofString "code", p.code),
      (ofString "created", ofString created), (ofString "version", formatVersion)],
      f.1.Unpaired ∧ f.2.Unpaired := by
    simpa using ⟨⟨hwhole _, h.name⟩, ⟨hwhole _, h.code⟩, ⟨hwhole _, hwhole _⟩, hwhole _, hwhole _⟩
  have hread := Json.read_writeObject (List.cons_ne_nil _ _) hfields room
  have hobject : Json.textFields [] [(ofString "name", p.name), (ofString "code", p.code),
      (ofString "created", ofString created), (ofString "version", formatVersion)]
      = [(ofString "name", .text p.name), (ofString "code", .text p.code),
      (ofString "created", .text created), (ofString "version", .text formatVersion)] := rfl
  have hnamed : p.name.isEmpty = false := List.isEmpty_eq_false_iff.2 h.named
  rw [parse, envelope, hread, hobject]
  show Except.ok (Project.mk (if p.name.isEmpty = true then default else p.name) p.code
    (.text created) (.text formatVersion)) = _
  rw [hnamed, if_neg Bool.false_ne_true]

/-! ## Files -/

/-- A text that a file gives back as it is: it has no halves and no line ends but
    those that files are read with. -/
def Filed (t : Text) : Prop := ∀ c ∈ t, ∃ ch, c = .char ch ∧ ch ≠ '\r'

theorem Filed.append {t u : Text} (ht : Filed t) (hu : Filed u) : Filed (t ++ u) :=
  List.forall_mem_append.2 ⟨ht, hu⟩

/-- Characters are filed if there is no carriage return among them. -/
theorem filed_ofChars {cs : List Char} (h : ∀ ch ∈ cs, ch ≠ '\r') : Filed (ofChars cs) := by
  intro c hc
  obtain ⟨ch, hch, rfl⟩ := List.mem_map.1 hc
  exact ⟨ch, rfl, h ch hch⟩

theorem filed_ofString (s : String) (h : (s.toList.all (· != '\r')) = true) : Filed s :=
  filed_ofChars fun ch hch => by simpa using List.all_eq_true.1 h ch hch

/-- An escaped unit is filed. -/
theorem filed_unitEscape (u : Nat) : Filed (Json.unitEscape u) := by
  have hdigit : ∀ k < 16, Nat.digitChar k ≠ '\r' := by decide
  have hmod : ∀ n, Nat.digitChar (n % 16) ≠ '\r' := fun n => hdigit _ (Nat.mod_lt n (by decide))
  refine filed_ofChars ?_
  simp [hexDigits, hmod]

/-- A code point is a character if it is written as it stands. -/
theorem exists_char {c : CodePoint} (h : c.toNat ≤ 126) : ∃ ch, c = .char ch := by
  cases c with
  | char c => exact ⟨c, rfl⟩
  | half n =>
      have hle : 0xD800 + n.val ≤ 126 := h
      omega

/-- A code point in a written string is filed. -/
theorem filed_writePoint (c : CodePoint) : Filed (Json.writePoint c) := by
  have hplain : c.toNat ≤ 126 → c.toNat ≠ 13 → ∃ ch, c = .char ch ∧ ch ≠ '\r' := by
    intro hle hne
    obtain ⟨ch, rfl⟩ := exists_char hle
    exact ⟨ch, rfl, by rintro rfl; exact hne rfl⟩
  simp only [Json.writePoint, Bool.or_eq_true, beq_iff_eq, Bool.and_eq_true, decide_eq_true_eq]
  split
  · rename_i h
    exact List.forall_mem_cons.2 ⟨⟨'\\', rfl, by decide⟩,
      List.forall_mem_singleton.2 (hplain (by omega) (by omega))⟩
  split
  · exact filed_ofString "\\n" (by decide +kernel)
  split
  · exact filed_ofString "\\r" (by decide +kernel)
  split
  · exact filed_ofString "\\t" (by decide +kernel)
  split
  · exact filed_ofString "\\f" (by decide +kernel)
  split
  · exact filed_ofString "\\b" (by decide +kernel)
  split
  · rename_i h
    exact List.forall_mem_singleton.2 (hplain h.2 (by omega))
  split
  · exact filed_unitEscape _
  · exact (filed_unitEscape _).append (filed_unitEscape _)

/-- Unifying line ends changes nothing if there is no carriage return. -/
theorem unifyLines_eq {cs : List Char} (h : ∀ ch ∈ cs, ch ≠ '\r') : unifyLines cs = cs := by
  fun_induction unifyLines cs with
  | case1 => exact absurd rfl (h _ List.mem_cons_self)
  | case2 => exact absurd rfl (h _ List.mem_cons_self)
  | case3 c cs _ _ ih => rw [ih fun ch hch => h ch (List.mem_cons_of_mem c hch)]
  | case4 => rfl

/-- A string that is encoded can be decoded. -/
theorem fromUTF8?_toUTF8 (s : String) : String.fromUTF8? s.toUTF8 = some s := by
  simp only [String.fromUTF8?, String.toUTF8_eq_toByteArray, dif_pos s.isValidUTF8]
  rfl

/-- Such a text is what its bytes are read as. -/
theorem textOf_display {t : Text} (h : Filed t) : textOf (.bytes (display t).toUTF8) = .ok t := by
  have hwhole : Whole t := fun c hc => by
    obtain ⟨ch, hch, -⟩ := h c hc
    exact ⟨ch, hch⟩
  obtain ⟨cs, rfl⟩ := hwhole.exists_ofChars
  have hcs : ∀ ch ∈ cs, ch ≠ '\r' := by
    intro ch hch
    obtain ⟨_, heq, hne⟩ := h (.char ch) (List.mem_map_of_mem hch)
    cases heq
    exact hne
  have hdisplay : display (ofChars cs) = String.ofList cs := by
    rw [display, ofChars, List.map_map]
    exact congrArg String.ofList (List.map_id cs)
  rw [textOf, fromUTF8?_toUTF8, hdisplay]
  show Except.ok (ofChars (unifyLines (String.ofList cs).toList)) = _
  rw [String.toList_ofList, unifyLines_eq hcs]

/-- Every text is written as a filed one. -/
theorem filed_writeString (t : Text) : Filed (Json.writeString t) := by
  refine List.forall_mem_cons.2 ⟨⟨'"', rfl, by decide⟩, Filed.append (fun c hc => ?_)
    (List.forall_mem_singleton.2 ⟨'"', rfl, by decide⟩)⟩
  obtain ⟨d, -, hc⟩ := List.mem_flatMap.1 hc
  exact filed_writePoint d c hc

/-- A written field is filed. -/
theorem filed_writeField (f : Text × Text) : Filed (Json.writeField f) :=
  (((filed_ofString "  " (by decide +kernel)).append (filed_writeString f.1)).append
    (filed_ofString ": " (by decide +kernel))).append (filed_writeString f.2)

/-- A written object is filed. -/
theorem filed_writeObject (fields : List (Text × Text)) : Filed (Json.writeObject fields) := by
  have hfields : Filed (Json.writeFields fields) := by
    fun_induction Json.writeFields fields with
    | case1 => exact List.forall_mem_nil _
    | case2 f => exact (filed_writeField f).append (filed_ofString "\n" (by decide +kernel))
    | case3 f fields _ ih =>
        exact ((filed_writeField f).append (filed_ofString ",\n" (by decide +kernel))).append ih
  exact ((filed_ofString "\x7b\n" (by decide +kernel)).append hfields).append
    (filed_ofString "\x7d" (by decide +kernel))

/-- A text is loaded unless more brackets are open at once in it than there is room
    for.  A project that was loaded has its name and its code when it is saved and
    loaded again, whatever it was loaded from: the text that is saved is what the
    file is read as, and with room for a bracket it gives the same name and code. -/
theorem parse_envelope (room : Nat) (t d : String) (hd : d ≠ "") :
    (parse room t d = .error .tooDeep ∧ room < Json.nesting t)
      ∨ ∃ p, parse room t d = .ok p ∧ ∀ (created : String) (more : Nat) (default : Text),
        textOf (.bytes (display (envelope p.name p.code created)).toUTF8)
            = .ok (envelope p.name p.code created)
          ∧ parse (more + 1) (envelope p.name p.code created) default
            = .ok ⟨p.name, p.code, .text created, .text formatVersion⟩ := by
  cases hp : parse room t d with
  | error f =>
      obtain ⟨rfl, hdeep⟩ := parse_error hp
      exact .inl ⟨rfl, hdeep⟩
  | ok p =>
      refine .inr ⟨p, rfl, fun created more default => ⟨?_, ?_⟩⟩
      · exact textOf_display (filed_writeObject _)
      · exact parse_of_envelope (savable_of_parse hd hp) created more default

/-- The law at a name that is listed data and a code that ends in a half. -/
theorem parse_envelope_listed :
    parse 1 (envelope "[True]" (ofString "PRINT \"" ++ [.half 0x3D]) "today") "other"
      = .ok ⟨"[True]", ofString "PRINT \"" ++ [.half 0x3D], .text "today", .text formatVersion⟩ := by
  have hname : (parse 2 "\x7b\"code\": \"PRINT \\\"\\ud83d\", \"name\": [true]\x7d" "square").map
      Project.name = .ok "[True]" := by decide +kernel
  have hcode : (parse 2 "\x7b\"code\": \"PRINT \\\"\\ud83d\", \"name\": [true]\x7d" "square").map
      Project.code = .ok (ofString "PRINT \"" ++ [.half 0x3D]) := by decide +kernel
  obtain ⟨h, -⟩ | ⟨p, hp, h⟩ := parse_envelope 2
    "\x7b\"code\": \"PRINT \\\"\\ud83d\", \"name\": [true]\x7d" "square" (by decide)
  · rw [h] at hname
    cases hname
  · rw [hp] at hname hcode
    have hagain := (h "today" 0 "other").2
    rw [show p.name = _ from Except.ok.inj hname, show p.code = _ from Except.ok.inj hcode] at hagain
    exact hagain

/-- Opening brackets alone are not loaded, if there are more than there is room
    for. -/
theorem parse_brackets {room n : Nat} (h : room < n) (default : Text) :
    parse room (List.replicate n (.char '[')) default = .error .tooDeep := by
  rw [parse, Json.read_brackets h]

/-- A thousand opening brackets are code like any other text that is no saved
    project, and yet they are not loaded with room for 990. -/
theorem parse_thousand_brackets :
    parse 990 (List.replicate 1000 (.char '[')) untitled = .error .tooDeep :=
  parse_brackets (by decide) untitled

end Project

end TurtleLogo
