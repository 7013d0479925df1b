import TurtleLogo.Spelling
import Mathlib.Order.Lattice.Nat

/-! # Edits

    An edit inserts a letter into a text, deletes one, or puts another in its
    place, and `Edits n` are `n` of them one after another.  The distance between
    two words is the least number of edits from one to the other
    (`isLeast_editDistance`).

    * Edits may touch any place in any order.  An alignment goes through both texts
      once and counts what it changes (`Aligned`); alignments compose
      (`Aligned.trans`), so that edits can be sorted into one (`Edits.aligned`).
    * The entries of the table of distances are the least costs of alignments
      (`isLeast_entry`).
    * A row that is computed from a row of this table is the next row of it
      (`nextRow_row`), and so the last entry is the one for both whole words
      (`rowDistance_eq`). -/

namespace TurtleLogo.Spelling

/-! ## Edits -/

/-- One letter is inserted, deleted or replaced. -/
inductive Edit : Text → Text → Prop
  | insert (before after : Text) (c : CodePoint) : Edit (before ++ after) (before ++ c :: after)
  | delete (before after : Text) (c : CodePoint) : Edit (before ++ c :: after) (before ++ after)
  | replace (before after : Text) (c d : CodePoint) :
      Edit (before ++ c :: after) (before ++ d :: after)

/-- So many edits, one after another. -/
inductive Edits : Nat → Text → Text → Prop
  | none (a : Text) : Edits 0 a a
  | more {n : Nat} {a b c : Text} (first : Edit a b) (rest : Edits n b c) : Edits (n + 1) a c

/-- The least number of edits that turn one text into another. -/
noncomputable def distance (a b : Text) : Nat := sInf {n | Edits n a b}

theorem Edit.symm {a b : Text} (h : Edit a b) : Edit b a := by
  cases h with
  | insert before after c => exact .delete before after c
  | delete before after c => exact .insert before after c
  | replace before after c d => exact .replace before after d c

/-- An edit can be made behind a further letter. -/
theorem Edit.cons {a b : Text} (x : CodePoint) (h : Edit a b) : Edit (x :: a) (x :: b) := by
  cases h with
  | insert before after c => exact .insert (x :: before) after c
  | delete before after c => exact .delete (x :: before) after c
  | replace before after c d => exact .replace (x :: before) after c d

/-- An edit of two words is one of the reversed words. -/
theorem Edit.reverse {a b : Text} (h : Edit a b) : Edit a.reverse b.reverse := by
  have hsplit : ∀ (before after : Text) (c : CodePoint),
      (before ++ c :: after).reverse = after.reverse ++ c :: before.reverse := by
    intro before after c
    simp
  cases h with
  | insert before after c =>
      rw [hsplit, List.reverse_append]
      exact .insert after.reverse before.reverse c
  | delete before after c =>
      rw [hsplit, List.reverse_append]
      exact .delete after.reverse before.reverse c
  | replace before after c d =>
      rw [hsplit, hsplit]
      exact .replace after.reverse before.reverse c d

/-- An edit shortens a word by one letter at most. -/
theorem Edit.length_le {a b : Text} (h : Edit a b) : a.length ≤ b.length + 1 := by
  cases h with
  | insert before after c => simp; omega
  | delete before after c => simp; omega
  | replace before after c d => simp

namespace Edits

variable {n m : Nat} {a b c : Text}

/-- Edits can follow other edits. -/
theorem append (h : Edits n a b) (h' : Edits m b c) : Edits (n + m) a c := by
  induction h with
  | none a =>
      rw [Nat.zero_add]
      exact h'
  | more first _ ih =>
      rw [Nat.succ_add]
      exact .more first (ih h')

theorem symm (h : Edits n a b) : Edits n b a := by
  induction h with
  | none a => exact .none a
  | more first _ ih => exact ih.append (.more first.symm (.none _))

/-- What turns one edit into another does so with any number of them. -/
theorem map {f : Text → Text} (hf : ∀ {a b : Text}, Edit a b → Edit (f a) (f b))
    (h : Edits n a b) : Edits n (f a) (f b) := by
  induction h with
  | none a => exact .none (f a)
  | more first _ ih => exact .more (hf first) ih

theorem cons (x : CodePoint) (h : Edits n a b) : Edits n (x :: a) (x :: b) :=
  h.map (Edit.cons x)

/-- Edits shorten a word by one letter each at most. -/
theorem length_le (h : Edits n a b) : a.length ≤ b.length + n := by
  induction h with
  | none a => exact Nat.le_refl _
  | more first _ ih =>
      have hfirst := first.length_le
      omega

end Edits

/-- Edits can be read from either end. -/
theorem edits_reverse {n : Nat} {a b : Text} : Edits n a.reverse b.reverse ↔ Edits n a b := by
  constructor
  · intro h
    have hback := h.map Edit.reverse
    rwa [List.reverse_reverse, List.reverse_reverse] at hback
  · exact Edits.map Edit.reverse

/-- There are as many edits one way as the other. -/
theorem edits_comm {n : Nat} {a b : Text} : Edits n a b ↔ Edits n b a :=
  ⟨Edits.symm, Edits.symm⟩

/-- No edits lead from a word to itself only. -/
theorem edits_zero {a b : Text} : Edits 0 a b ↔ a = b := by
  constructor
  · intro h
    cases h
    rfl
  · rintro rfl
    exact .none a

/-! ## Alignments -/

/-- Two texts are gone through together, from one end to the other: a letter of
    one of them is passed alone, or two letters are paired.  The number counts the
    letters that are passed alone and the pairs of unlike letters. -/
inductive Aligned : Text → Text → Nat → Prop
  | nil : Aligned [] [] 0
  | delete {p q : Text} {n : Nat} (c : CodePoint) (h : Aligned p q n) : Aligned (c :: p) q (n + 1)
  | insert {p q : Text} {n : Nat} (d : CodePoint) (h : Aligned p q n) : Aligned p (d :: q) (n + 1)
  | pair {p q : Text} {n : Nat} (c d : CodePoint) (h : Aligned p q n) :
      Aligned (c :: p) (d :: q) (n + if c = d then 0 else 1)

namespace Aligned

variable {p q r : Text} {m n : Nat}

/-- A letter paired with itself costs nothing. -/
theorem keep (c : CodePoint) (h : Aligned p q n) : Aligned (c :: p) (c :: q) n := by
  have hpair := h.pair c c
  rwa [if_pos rfl] at hpair

theorem refl (p : Text) : Aligned p p 0 := by
  induction p with
  | nil => exact .nil
  | cons c p ih => exact ih.keep c

/-- The same beginning can be put before both words at no cost. -/
theorem prepend (before : Text) (h : Aligned p q n) : Aligned (before ++ p) (before ++ q) n := by
  induction before with
  | nil => exact h
  | cons c before ih => exact ih.keep c

/-- An alignment says which edits to make. -/
theorem edits (h : Aligned p q n) : Edits n p q := by
  induction h with
  | nil => exact .none []
  | @delete p q n c _ ih => exact .more (.delete [] p c) ih
  | @insert p q n d _ ih => exact .more (.insert [] p d) (ih.cons d)
  | @pair p q n c d _ ih =>
      by_cases hcd : c = d
      · rw [if_pos hcd, hcd]
        exact ih.cons d
      · rw [if_neg hcd]
        exact .more (.replace [] p c d) (ih.cons d)

/-- Two alignments with one text between them make one without it, which costs no
    more. -/
theorem trans {p q r : Text} {m n : Nat} : Aligned p q m → Aligned q r n →
    ∃ k ≤ m + n, Aligned p r k
  | .nil, .nil => ⟨0, Nat.le_refl _, .nil⟩
  | h, .insert d h' => by
      obtain ⟨k, hk, hpr⟩ := h.trans h'
      exact ⟨k + 1, by omega, hpr.insert d⟩
  | .delete c h, h' => by
      obtain ⟨k, hk, hpr⟩ := h.trans h'
      exact ⟨k + 1, by omega, hpr.delete c⟩
  -- from here on both take up a letter of the text between
  | .insert _ h, .delete _ h' => by
      obtain ⟨k, hk, hpr⟩ := h.trans h'
      exact ⟨k, by omega, hpr⟩
  | .insert _ h, .pair _ e h' => by
      obtain ⟨k, hk, hpr⟩ := h.trans h'
      exact ⟨k + 1, by omega, hpr.insert e⟩
  | .pair c _ h, .delete _ h' => by
      obtain ⟨k, hk, hpr⟩ := h.trans h'
      exact ⟨k + 1, by omega, hpr.delete c⟩
  | .pair c d h, .pair _ e h' => by
      obtain ⟨k, hk, hpr⟩ := h.trans h'
      have hcost : (if c = e then 0 else 1)
          ≤ (if c = d then 0 else 1) + if d = e then 0 else 1 := by
        grind
      exact ⟨_, by omega, hpr.pair c e⟩
termination_by p.length + q.length + r.length

end Aligned

/-- An edit is an alignment that costs one at most. -/
theorem Edit.aligned {a b : Text} (h : Edit a b) : ∃ n ≤ 1, Aligned a b n := by
  cases h with
  | insert before after c =>
      exact ⟨1, Nat.le_refl _, (Aligned.insert c (.refl after)).prepend before⟩
  | delete before after c =>
      exact ⟨1, Nat.le_refl _, (Aligned.delete c (.refl after)).prepend before⟩
  | replace before after c d =>
      refine ⟨_, ?_, (Aligned.pair c d (.refl after)).prepend before⟩
      split <;> omega

/-- Edits in any order can be made on one way through the text. -/
theorem Edits.aligned {n : Nat} {a b : Text} (h : Edits n a b) : ∃ m ≤ n, Aligned a b m := by
  induction h with
  | none a => exact ⟨0, Nat.le_refl _, .refl a⟩
  | more first _ ih =>
      obtain ⟨k, hk, hfirst⟩ := first.aligned
      obtain ⟨m, hm, hrest⟩ := ih
      obtain ⟨l, hl, hboth⟩ := hfirst.trans hrest
      exact ⟨l, by omega, hboth⟩

/-! ## The table -/

/-- The entry of the table of distances for two beginnings of words, which are read
    from their last letters on. -/
def entry : Text → Text → Nat
  | [], q => q.length
  | _ :: p, [] => p.length + 1
  | c :: p, d :: q =>
      min (entry p (d :: q) + 1) (min (entry (c :: p) q + 1) (entry p q + if c = d then 0 else 1))
termination_by p q => p.length + q.length

theorem entry_from_nil (q : Text) : entry [] q = q.length := by
  rw [entry]

/-- To the empty word every letter is deleted. -/
theorem entry_to_nil (p : Text) : entry p [] = p.length := by
  cases p with
  | nil => rw [entry]
  | cons c p => rw [entry, List.length_cons]

/-- An entry inside the table is the least of three that are next to it, with their
    costs. -/
theorem entry_cons_cons (c d : CodePoint) (p q : Text) : entry (c :: p) (d :: q)
    = min (entry p (d :: q) + 1)
        (min (entry (c :: p) q + 1) (entry p q + if c = d then 0 else 1)) := by
  rw [entry]

/-- A further letter of the first word costs one at most. -/
theorem entry_delete_le (c : CodePoint) (p q : Text) : entry (c :: p) q ≤ entry p q + 1 := by
  cases q with
  | nil => rw [entry_to_nil, entry_to_nil, List.length_cons]
  | cons d q =>
      rw [entry_cons_cons]
      exact Nat.min_le_left _ _

/-- A further letter of the second word costs one at most. -/
theorem entry_insert_le (d : CodePoint) (p q : Text) : entry p (d :: q) ≤ entry p q + 1 := by
  cases p with
  | nil => rw [entry_from_nil, entry_from_nil, List.length_cons]
  | cons c p =>
      rw [entry_cons_cons]
      exact (Nat.min_le_right _ _).trans (Nat.min_le_left _ _)

/-- A pair of unlike letters costs one at most, and a pair of the same letter
    nothing. -/
theorem entry_pair_le (c d : CodePoint) (p q : Text) :
    entry (c :: p) (d :: q) ≤ entry p q + if c = d then 0 else 1 := by
  rw [entry_cons_cons]
  exact (Nat.min_le_right _ _).trans (Nat.min_le_right _ _)

/-- An entry is not greater than the cost of any alignment. -/
theorem Aligned.entry_le {p q : Text} {n : Nat} (h : Aligned p q n) : entry p q ≤ n := by
  induction h with
  | nil => rw [entry_to_nil, List.length_nil]
  | @delete p q n c _ ih => exact (entry_delete_le c p q).trans (Nat.succ_le_succ ih)
  | @insert p q n d _ ih => exact (entry_insert_le d p q).trans (Nat.succ_le_succ ih)
  | @pair p q n c d _ ih => exact (entry_pair_le c d p q).trans (Nat.add_le_add_right ih _)

/-- Every word is aligned with the empty one by inserting its letters. -/
theorem aligned_from_nil (q : Text) : Aligned [] q q.length := by
  induction q with
  | nil => exact .nil
  | cons d q ih => exact ih.insert d

/-- Every word is aligned with the empty one by deleting its letters. -/
theorem aligned_to_nil (p : Text) : Aligned p [] p.length := by
  induction p with
  | nil => exact .nil
  | cons c p ih => exact ih.delete c

/-- Which letters to pass and to pair can be read off the table. -/
theorem aligned_entry (p q : Text) : Aligned p q (entry p q) := by
  induction p, q using entry.induct with
  | case1 q =>
      rw [entry_from_nil]
      exact aligned_from_nil q
  | case2 c p =>
      rw [entry_to_nil]
      exact aligned_to_nil (c :: p)
  | case3 c p d q hdelete hinsert hpair =>
      -- whichever of the three is the least is the way to go on
      rw [entry_cons_cons]
      rcases Nat.le_total (entry p (d :: q) + 1)
        (min (entry (c :: p) q + 1) (entry p q + if c = d then 0 else 1)) with hmin | hmin
      · rw [Nat.min_eq_left hmin]
        exact hdelete.delete c
      rw [Nat.min_eq_right hmin]
      rcases Nat.le_total (entry (c :: p) q + 1) (entry p q + if c = d then 0 else 1)
        with hmin | hmin
      · rw [Nat.min_eq_left hmin]
        exact hinsert.insert d
      · rw [Nat.min_eq_right hmin]
        exact hpair.pair c d

/-- An entry of the table is the least number of edits. -/
theorem isLeast_entry (p q : Text) : IsLeast {n | Edits n p q} (entry p q) := by
  refine ⟨(aligned_entry p q).edits, fun n hn => ?_⟩
  obtain ⟨m, hm, haligned⟩ := Edits.aligned hn
  exact haligned.entry_le.trans hm

/-! ## Rows -/

/-- The beginnings of a word that go on from the beginning `q` by some of the
    letters to come, each read from its last letter on. -/
def onward (q : Text) : Text → List Text
  | [] => []
  | d :: ds => (d :: q) :: onward (d :: q) ds

/-- The row of the table for the beginning `p` of the first word. -/
def row (p b : Text) : List Nat := entry p [] :: (onward [] b).map (entry p)

/-- The rest of a row behind the entry for `q` is filled in from the rest of the row
    above it. -/
theorem fillRow_onward (c : CodePoint) (p q ds : Text) :
    fillRow c (entry (c :: p) q) (entry p q) ds ((onward q ds).map (entry p))
      = (onward q ds).map (entry (c :: p)) := by
  induction ds generalizing q with
  | nil => rfl
  | cons d ds ih =>
      simp only [onward, List.map_cons, fillRow]
      -- the new entry is left of the next one, and the one above it in its corner
      rw [← entry_cons_cons, ih (d :: q)]

/-- The next row of a row of the table is the next row of the table. -/
theorem nextRow_row (c : CodePoint) (p b : Text) : nextRow b (row p b) c = row (c :: p) b := by
  have hfirst : entry p [] + 1 = entry (c :: p) [] := by
    rw [entry_to_nil, entry_to_nil, List.length_cons]
  rw [row, nextRow, hfirst, fillRow_onward, row]

/-- The first row counts the letters. -/
theorem map_entry_nil (q ds : Text) :
    (onward q ds).map (entry []) = List.range' (q.length + 1) ds.length := by
  induction ds generalizing q with
  | nil => rfl
  | cons d ds ih =>
      rw [onward, List.map_cons, entry_from_nil, ih (d :: q)]
      rfl

/-- The first row counts the letters. -/
theorem row_nil (b : Text) : row [] b = List.range (b.length + 1) := by
  rw [row, entry_from_nil, map_entry_nil, List.range_eq_range']
  rfl

/-- Row after row, the last one is that of the whole first word. -/
theorem foldl_nextRow (a p b : Text) : a.foldl (nextRow b) (row p b) = row (a.reverse ++ p) b := by
  induction a generalizing p with
  | nil => rfl
  | cons c a ih =>
      rw [List.foldl_cons, nextRow_row, ih (c :: p), List.reverse_cons, List.append_assoc]
      rfl

/-- The last entry of a row is that of the whole second word. -/
theorem getLastD_onward (p q ds : Text) :
    ((onward q ds).map (entry p)).getLastD (entry p q) = entry p (ds.reverse ++ q) := by
  induction ds generalizing q with
  | nil => rfl
  | cons d ds ih =>
      rw [onward, List.map_cons, List.getLastD_cons, ih (d :: q), List.reverse_cons,
        List.append_assoc]
      rfl

/-- The distance found row by row is the entry for both whole words. -/
theorem rowDistance_eq (a b : Text) : rowDistance a b = entry a.reverse b.reverse := by
  rw [rowDistance, ← row_nil, foldl_nextRow, row, List.getLastD_cons, getLastD_onward,
    List.append_nil, List.append_nil]

/-- The distance found row by row is the least number of edits. -/
theorem isLeast_rowDistance (a b : Text) : IsLeast {n | Edits n a b} (rowDistance a b) := by
  have hedits : {n | Edits n a.reverse b.reverse} = {n | Edits n a b} :=
    Set.ext fun _ => edits_reverse
  rw [rowDistance_eq, ← hedits]
  exact isLeast_entry a.reverse b.reverse

/-- The computed distance is the least number of edits. -/
theorem isLeast_editDistance (a b : Text) : IsLeast {n | Edits n a b} (editDistance a b) := by
  have hedits : {n | Edits n b a} = {n | Edits n a b} := Set.ext fun _ => edits_comm
  rw [editDistance]
  split
  · -- the longer word is gone through, so that the edits are read backwards
    rw [← hedits]
    exact isLeast_rowDistance b a
  · exact isLeast_rowDistance a b

/-! ## The distance of two words -/

/-- The distance that is computed is the least number of edits. -/
theorem editDistance_eq (a b : Text) : editDistance a b = distance a b :=
  (isLeast_editDistance a b).csInf_eq.symm

/-- There are as many edits as the distance says. -/
theorem edits_editDistance (a b : Text) : Edits (editDistance a b) a b :=
  (isLeast_editDistance a b).1

/-- There are no fewer edits. -/
theorem editDistance_le {n : Nat} {a b : Text} (h : Edits n a b) : editDistance a b ≤ n :=
  (isLeast_editDistance a b).2 h

/-- The distance is the same both ways. -/
theorem editDistance_comm (a b : Text) : editDistance a b = editDistance b a :=
  Nat.le_antisymm (editDistance_le (edits_editDistance b a).symm)
    (editDistance_le (edits_editDistance a b).symm)

/-- Words are not farther apart in length than in edits. -/
theorem length_le_editDistance (a b : Text) : a.length ≤ b.length + editDistance a b :=
  (edits_editDistance a b).length_le

/-- The distance of two words, whichever is the longer, is the least number of
    letters to insert, delete and replace on the way from one to the other.  So it
    is the same in both directions, zero for equal words only, no longer than a way
    through a third word, and no less than the difference of the lengths. -/
theorem editDistance_counts_edits (a b : Text) :
    IsLeast {n | Edits n a b} (editDistance a b)
      ∧ editDistance a b = editDistance b a
      ∧ (editDistance a b = 0 ↔ a = b)
      ∧ (∀ c, editDistance a c ≤ editDistance a b + editDistance b c)
      ∧ ((a.length : Int) - b.length).natAbs ≤ editDistance a b := by
  refine ⟨isLeast_editDistance a b, editDistance_comm a b, ⟨fun h => ?_, fun h => ?_⟩,
    fun c => ?_, ?_⟩
  · have hnone := edits_editDistance a b
    rw [h] at hnone
    exact edits_zero.1 hnone
  · exact Nat.le_zero.1 (editDistance_le (edits_zero.2 h))
  · exact editDistance_le ((edits_editDistance a b).append (edits_editDistance b c))
  · have hab := length_le_editDistance a b
    have hba := length_le_editDistance b a
    rw [editDistance_comm b a] at hba
    omega

/-- Two letters are replaced and one is put at the end. -/
example : editDistance "KITTEN" "SITTING" = 3 := by decide

end TurtleLogo.Spelling
