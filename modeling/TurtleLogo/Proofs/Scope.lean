import TurtleLogo.Store

/-! # What a program can do to the names of its callers

    Scoping is dynamic: an assignment goes to the innermost frame that has the
    name, which may be that of a caller, or else makes a global.  So the frames
    below the innermost one do change, but never freely.  `Store.Grows s t`
    says what a program that runs in the innermost frame of `s` can have made
    of it:

    * it has closed every frame that it opened;
    * the frames below the innermost one bind the names they bound, the
      innermost one and the globals bind at least those;
    * a binding that a frame further in hides is as it was. -/

namespace TurtleLogo

namespace Frame

@[simp] theorem holds_nil (key : Text) : holds [] key = false := rfl

@[simp] theorem holds_cons (b : Text × Value) (f : Frame) (key : Text) :
    holds (b :: f) key = (b.1 == key || holds f key) := rfl

/-- An assignment binds its name and no other. -/
theorem holds_assign (f : Frame) (key k : Text) (v : Value) :
    (f.assign key v).holds k = (key == k || f.holds k) := by
  induction f with
  | nil => simp [assign]
  | cons b f ih =>
      obtain ⟨n, u⟩ := b
      by_cases hn : n = key
      · subst hn
        simp [assign]
      · have hne : (n == key) = false := by simpa using hn
        simp only [assign, hne, holds_cons]
        simp only [Bool.false_eq_true, if_false, holds_cons, ih, ← Bool.or_assoc, Bool.or_comm]

/-- A name means what was assigned to it. -/
theorem get?_assign_self (f : Frame) (key : Text) (v : Value) :
    (f.assign key v).get? key = some v := by
  induction f with
  | nil => simp [assign, get?]
  | cons b f ih =>
      obtain ⟨n, u⟩ := b
      by_cases hn : n = key
      · simp [assign, get?, hn]
      · have hne : (n == key) = false := by simpa using hn
        rw [assign, hne, if_neg Bool.false_ne_true, get?, List.lookup_cons, BEq.comm, hne]
        exact ih

/-- An assignment leaves the other names alone. -/
theorem get?_assign (f : Frame) {key k : Text} (h : k ≠ key) (v : Value) :
    (f.assign key v).get? k = f.get? k := by
  induction f with
  | nil =>
      have hk : (k == key) = false := by simpa using h
      simp [assign, get?, List.lookup_cons, hk]
  | cons b f ih =>
      obtain ⟨n, u⟩ := b
      by_cases hn : n = key
      · subst hn
        have hk : (k == n) = false := by simpa using h
        simp [assign, get?, List.lookup_cons, hk]
      · have hne : (n == key) = false := by simpa using hn
        simp only [assign, hne, get?] at ih ⊢
        simp only [Bool.false_eq_true, if_false, List.lookup_cons, ih]

end Frame

namespace Store

/-- The frame at a place, the innermost at zero; past the last one there is
    nothing. -/
def frame (s : Store) (i : Nat) : Frame := s.locals.getD i []

@[simp] theorem frame_push_succ (s : Store) (f : Frame) (i : Nat) :
    (s.push f).frame (i + 1) = s.frame i := rfl

/-- Without the innermost frame the others are one place further in. -/
@[simp] theorem frame_pop (s : Store) (i : Nat) : s.pop.frame i = s.frame (i + 1) := by
  cases h : s.locals with
  | nil => simp [frame, pop, h]
  | cons f fs => simp [frame, pop, h]

/-- What a program that runs in the innermost frame can have made of a store. -/
structure Grows (s t : Store) : Prop where
  length : t.locals.length = s.locals.length
  innermost : ∀ {key}, (s.frame 0).holds key = true → (t.frame 0).holds key = true
  below : ∀ i key, (t.frame (i + 1)).holds key = (s.frame (i + 1)).holds key
  globals : ∀ {key}, s.globals.holds key = true → t.globals.holds key = true
  hidden : ∀ {i j key}, j < i → (s.frame j).holds key = true →
    (t.frame i).get? key = (s.frame i).get? key
  hiddenGlobal : ∀ {j key}, (s.frame j).holds key = true →
    t.globals.get? key = s.globals.get? key

namespace Grows

theorem refl (s : Store) : s.Grows s :=
  ⟨rfl, id, fun _ _ => rfl, id, fun _ _ => rfl, fun _ => rfl⟩

/-- What a frame binds it goes on to bind. -/
theorem holds {s t : Store} (h : s.Grows t) {i : Nat} {key : Text}
    (hs : (s.frame i).holds key = true) : (t.frame i).holds key = true := by
  cases i with
  | zero => exact h.innermost hs
  | succ i => rw [h.below]; exact hs

theorem trans {s t u : Store} (h : s.Grows t) (h' : t.Grows u) : s.Grows u where
  length := h'.length.trans h.length
  innermost hs := h'.innermost (h.innermost hs)
  below i key := (h'.below i key).trans (h.below i key)
  globals hs := h'.globals (h.globals hs)
  hidden hji hs := (h'.hidden hji (h.holds hs)).trans (h.hidden hji hs)
  hiddenGlobal hs := (h'.hiddenGlobal (h.holds hs)).trans (h.hiddenGlobal hs)

/-- A change that leaves the variables alone. -/
theorem of_eq {s t : Store} (hl : t.locals = s.locals) (hg : t.globals = s.globals) :
    s.Grows t := by
  have hframe : ∀ i, t.frame i = s.frame i := fun i => by rw [frame, frame, hl]
  refine ⟨by rw [hl], ?_, ?_, ?_, ?_, ?_⟩
  · intro key h; rw [hframe]; exact h
  · intro i key; rw [hframe]
  · intro key h; rw [hg]; exact h
  · intro i j key _ _; rw [hframe]
  · intro j key _; rw [hg]

/-- What a program does in a frame that was opened for it. -/
theorem of_push {s t : Store} {f : Frame} (h : (s.push f).Grows t) : s.Grows t.pop where
  length := by
    have hl := h.length
    simp only [push, List.length_cons] at hl
    simp [pop, hl]
  innermost hs := by
    rw [frame_pop, h.below]
    exact hs
  below i key := by
    rw [frame_pop, h.below, frame_push_succ]
  globals hs := h.globals hs
  hidden {i j key} hji hs := by
    rw [frame_pop, h.hidden (Nat.succ_lt_succ hji) (by rw [frame_push_succ]; exact hs),
      frame_push_succ]
  hiddenGlobal {j key} hs := h.hiddenGlobal (j := j + 1) (by rw [frame_push_succ]; exact hs)

end Grows

/-! ## Assignments -/

/-- Where an assignment goes: to the innermost frame that has the name, or to
    none. -/
theorem assignNearest?_spec (key : Text) (v : Value) (fs : List Frame) :
    (assignNearest? key v fs = none ∧ ∀ i, (fs.getD i []).holds key = false)
      ∨ ∃ j, assignNearest? key v fs = some (fs.set j ((fs.getD j []).assign key v))
          ∧ (fs.getD j []).holds key = true ∧ ∀ i < j, (fs.getD i []).holds key = false := by
  induction fs with
  | nil => exact Or.inl ⟨rfl, fun i => by simp⟩
  | cons f fs ih =>
      by_cases hf : f.holds key = true
      · refine Or.inr ⟨0, ?_, hf, fun i hi => absurd hi (Nat.not_lt_zero i)⟩
        simp [assignNearest?, hf]
      · have hf' : f.holds key = false := by simpa using hf
        rcases ih with ⟨hnone, hall⟩ | ⟨j, hsome, hj, hbefore⟩
        · refine Or.inl ⟨by simp [assignNearest?, hf', hnone], fun i => ?_⟩
          cases i with
          | zero => exact hf'
          | succ i => exact hall i
        · refine Or.inr ⟨j + 1, by simp [assignNearest?, hf', hsome], hj, fun i hi => ?_⟩
          cases i with
          | zero => exact hf'
          | succ i => exact hbefore i (Nat.lt_of_succ_lt_succ hi)

/-- An assignment in the innermost frame, or in the innermost one that has the
    name. -/
theorem grows_assign {s : Store} {j : Nat} {key : Text} (v : Value) (hj : j < s.locals.length)
    (hbound : (s.frame j).holds key = true ∨ j = 0)
    (hbefore : ∀ i < j, (s.frame i).holds key = false) :
    s.Grows { s with locals := s.locals.set j ((s.frame j).assign key v) } := by
  have hframe : ∀ i, frame { s with locals := s.locals.set j ((s.frame j).assign key v) } i
      = if i = j then (s.frame j).assign key v else s.frame i := by
    intro i
    by_cases hi : i = j
    · subst hi
      rw [if_pos rfl]
      simp [frame, List.getD, hj]
    · rw [if_neg hi]
      simp [frame, List.getD, List.getElem?_set_ne (Ne.symm hi)]
  -- no name is lost, and none is new outside the innermost frame
  have hmono : ∀ i k, (s.frame i).holds k = true →
      (frame { s with locals := s.locals.set j ((s.frame j).assign key v) } i).holds k = true := by
    intro i k h
    rw [hframe]
    by_cases hi : i = j
    · subst hi
      rw [if_pos rfl, Frame.holds_assign, h, Bool.or_true]
    · rw [if_neg hi]
      exact h
  refine ⟨by simp, fun h => hmono 0 _ h, ?_, id, ?_, fun _ => rfl⟩
  · intro i k
    rw [hframe]
    by_cases hi : i + 1 = j
    · -- below the innermost frame only a name that is there is assigned
      subst hi
      have hkey : (s.frame (i + 1)).holds key = true := hbound.resolve_right (Nat.succ_ne_zero i)
      rw [if_pos rfl, Frame.holds_assign]
      by_cases hk : key = k
      · subst hk
        simp [hkey]
      · have hk' : (key == k) = false := by simpa using hk
        rw [hk', Bool.false_or]
    · rw [if_neg hi]
  · intro i j' k hlt h
    rw [hframe]
    by_cases hi : i = j
    · -- a name that a frame further in has is not assigned here
      subst hi
      rw [if_pos rfl]
      refine Frame.get?_assign _ (fun hk => ?_) v
      subst hk
      rw [hbefore j' hlt] at h
      cases h
    · rw [if_neg hi]

/-- An assignment to a global that no frame hides. -/
theorem grows_assignGlobal {s : Store} {key : Text} (v : Value)
    (h : ∀ i, (s.frame i).holds key = false) :
    s.Grows { s with globals := s.globals.assign key v } := by
  refine ⟨rfl, id, fun _ _ => rfl, fun hk => ?_, fun _ _ => rfl, fun {j k} hk => ?_⟩
  · rw [Frame.holds_assign, hk, Bool.or_true]
  · refine Frame.get?_assign _ (fun heq => ?_) v
    subst heq
    rw [h j] at hk
    cases hk

/-- An assignment is one of the things that a program can do. -/
theorem grows_set (s : Store) (name : Text) (v : Value) : s.Grows (s.set name v) := by
  rcases assignNearest?_spec (Text.upper name) v s.locals with ⟨hnone, h⟩ | ⟨j, hsome, hj, hbefore⟩
  · simp only [set, hnone]
    exact grows_assignGlobal v h
  · simp only [set, hsome]
    have hlt : j < s.locals.length := by
      rcases Nat.lt_or_ge j s.locals.length with hlt | hge
      · exact hlt
      · simp [List.getD, List.getElem?_eq_none hge] at hj
    exact grows_assign v hlt (Or.inl hj) hbefore

/-- A binding in the innermost frame is one of the things that a program can do. -/
theorem grows_bindInnermost (s : Store) (key : Text) (v : Value) :
    s.Grows (s.bindInnermost key v) := by
  cases h : s.locals with
  | nil => simp only [bindInnermost, h]; exact .refl s
  | cons f fs =>
      have hgrow : s.Grows { s with locals := s.locals.set 0 ((s.frame 0).assign key v) } :=
        grows_assign v (by rw [h]; exact Nat.succ_pos _) (Or.inr rfl)
          fun i hi => absurd hi (Nat.not_lt_zero i)
      simpa [bindInnermost, frame, h] using hgrow

/-- An assignment to a local name is one of the things that a program can do. -/
theorem grows_setLocal (s : Store) (name : Text) (v : Value) : s.Grows (s.setLocal name v) := by
  cases h : s.locals with
  | nil =>
      have hgrow : s.Grows { s with globals := s.globals.assign (Text.upper name) v } :=
        grows_assignGlobal v fun i => by simp [frame, h]
      simpa [setLocal, h] using hgrow
  | cons f fs => simpa [setLocal, bindInnermost, h] using s.grows_bindInnermost (Text.upper name) v

/-- An assignment leaves the count of `REPEAT`. -/
theorem repcount_set (s : Store) (name : Text) (v : Value) :
    (s.set name v).repcount = s.repcount := by
  rw [set]
  split <;> rfl

/-- A binding in the innermost frame leaves the count of `REPEAT`. -/
theorem repcount_bindInnermost (s : Store) (key : Text) (v : Value) :
    (s.bindInnermost key v).repcount = s.repcount := by
  rw [bindInnermost]
  split <;> rfl

/-- An assignment to a local name leaves the count of `REPEAT`. -/
theorem repcount_setLocal (s : Store) (name : Text) (v : Value) :
    (s.setLocal name v).repcount = s.repcount := by
  rw [setLocal]
  split <;> rfl

/-- A definition leaves the names of variables. -/
theorem grows_define (s : Store) (p : Procedure) : s.Grows (s.define p) := .of_eq rfl rfl

end Store

/-! ## The frame of a call -/

namespace Frame

/-- What assignments one after another bind. -/
theorem holds_foldl_assign (g : Text → Text) (bs : List (Text × Value)) (f : Frame) (k : Text) :
    (bs.foldl (fun f b => f.assign (g b.1) b.2) f).holds k
      = (f.holds k || bs.any fun b => g b.1 == k) := by
  induction bs generalizing f with
  | nil => simp
  | cons b bs ih =>
      rw [List.foldl_cons, ih, holds_assign, List.any_cons]
      simp only [Bool.or_assoc, Bool.or_left_comm]

/-- The frame of a call binds every parameter that got a value. -/
theorem holds_ofBindings {bindings : List (Text × Value)} {b : Text × Value}
    (h : b ∈ bindings) : (ofBindings bindings).holds (Text.upper b.1) = true := by
  -- the names are merged as they are spelled, and only then put in capitals
  have hmerged : holds (bindings.foldl (fun f b => assign f b.1 b.2) []) b.1 = true := by
    refine (holds_foldl_assign id bindings [] b.1).trans ?_
    rw [Bool.or_eq_true]
    exact Or.inr (List.any_eq_true.2 ⟨b, h, by simp⟩)
  obtain ⟨c, hc, hname⟩ := List.any_eq_true.1 hmerged
  have hname' : c.1 = b.1 := by simpa using hname
  rw [ofBindings, holds_foldl_assign Text.upper, Bool.or_eq_true]
  exact Or.inr (List.any_eq_true.2 ⟨c, hc, by simp [hname']⟩)

end Frame

end TurtleLogo
