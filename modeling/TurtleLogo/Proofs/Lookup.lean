import TurtleLogo.Proofs.Statement

/-! # Reading names back

    A name means its binding in the innermost frame that has one, and an assignment
    goes to that same frame, or else makes a global.  So the frames of a store, the
    globals last, are one list: a lookup takes the first binding in it
    (`Store.get_eq`), and an assignment, local or not, rebinds one name in one frame
    (`Store.Rebinds`).

    * In front of the rebound frame nothing hides the name, so that is what a lookup
      finds; other names are looked up as before (`Store.Rebinds.get`).
    * A frame made of bindings holds the last of those whose names become the same in
      capitals (`Frame.get?_ofBindings`). -/

namespace TurtleLogo

namespace Frame

/-- A frame with one name bound anew, which is the last name if it was not there. -/
structure Rebound (key : Text) (v : Value) (f g : Frame) : Prop where
  names : g.map (·.1) = if f.holds key then f.map (·.1) else f.map (·.1) ++ [key]
  bound : g.get? key = some v
  others : ∀ k, k ≠ key → g.get? k = f.get? k

/-- A frame that does not bind a name has no value for it. -/
theorem get?_eq_none {f : Frame} {key : Text} (h : f.holds key = false) : f.get? key = none := by
  induction f with
  | nil => rfl
  | cons b f ih =>
      obtain ⟨n, u⟩ := b
      rw [holds_cons, Bool.or_eq_false_iff] at h
      rw [get?, List.lookup_cons, BEq.comm, h.1]
      exact ih h.2

/-- A new name comes last. -/
theorem assign_of_new {f : Frame} {key : Text} (h : f.holds key = false) (v : Value) :
    f.assign key v = f ++ [(key, v)] := by
  induction f with
  | nil => rfl
  | cons b f ih =>
      obtain ⟨n, u⟩ := b
      rw [holds_cons, Bool.or_eq_false_iff] at h
      simp [assign, h.1, ih h.2]

/-- An assignment in a frame adds the name at the end unless it is bound. -/
theorem names_assign (f : Frame) (key : Text) (v : Value) :
    (f.assign key v).map (·.1) = if f.holds key then f.map (·.1) else f.map (·.1) ++ [key] := by
  induction f with
  | nil => rfl
  | cons b f ih =>
      obtain ⟨n, u⟩ := b
      cases hn : n == key with
      | true => simp [assign, hn]
      | false =>
          simp only [assign, hn, holds_cons, Bool.false_or, List.map_cons]
          rw [if_neg Bool.false_ne_true, List.map_cons, ih]
          split <;> rfl

/-- An assignment in a frame rebinds just this name. -/
theorem rebound_assign (f : Frame) (key : Text) (v : Value) :
    f.Rebound key v (f.assign key v) where
  names := names_assign f key v
  bound := get?_assign_self f key v
  others _ hk := get?_assign f hk v

/-! ## Frames of bindings -/

/-- The value that some bindings give to a name, whatever its case: that of the last
    one for it. -/
def lastBound? (bindings : List (Text × Value)) (name : Text) : Option Value :=
  (bindings.reverse.find? fun b => Text.upper b.1 == Text.upper name).map (·.2)

/-- After assignments one after another the last one to a name counts. -/
theorem get?_foldl_assign (g : Text → Text) (bs : List (Text × Value)) (f : Frame) (k : Text) :
    (bs.foldl (fun f b => f.assign (g b.1) b.2) f).get? k
      = ((bs.reverse.find? fun b => g b.1 == k).map (·.2)).or (f.get? k) := by
  induction bs generalizing f with
  | nil => rfl
  | cons b bs ih =>
      rw [List.foldl_cons, ih, List.reverse_cons, List.find?_append, Option.map_or, Option.or_assoc]
      congr 1
      by_cases hk : k = g b.1
      · rw [hk, get?_assign_self]
        simp
      · have hne : (g b.1 == k) = false := beq_false_of_ne (Ne.symm hk)
        rw [get?_assign f hk]
        simp [hne]

/-- Bindings of different names make a frame as they stand. -/
theorem foldl_assign_distinct (bs : List (Text × Value)) (f : Frame)
    (hdistinct : ((f ++ bs).map (·.1)).Nodup) :
    bs.foldl (fun f b => f.assign b.1 b.2) f = f ++ bs := by
  induction bs generalizing f with
  | nil => simp
  | cons b bs ih =>
      -- no name in the frame so far is the next one, so that comes last
      have hnew : f.holds b.1 = false := by
        rw [holds, List.any_eq_false]
        intro c hc heq
        rw [List.map_append, List.nodup_append] at hdistinct
        exact hdistinct.2.2 c.1 (List.mem_map_of_mem hc) b.1 (by simp) (by simpa using heq)
      have hsplit : f ++ b :: bs = f ++ [(b.1, b.2)] ++ bs := by simp
      rw [List.foldl_cons, assign_of_new hnew, ih _ (hsplit ▸ hdistinct), ← hsplit]

/-- Of two names that are one in capitals, the later counts. -/
theorem get?_ofBindings {bindings : List (Text × Value)} (hdistinct : (bindings.map (·.1)).Nodup)
    (name : Text) : (ofBindings bindings).get? (Text.upper name) = lastBound? bindings name := by
  have hmerged := foldl_assign_distinct bindings [] hdistinct
  rw [List.nil_append] at hmerged
  rw [ofBindings, hmerged, get?_foldl_assign Text.upper bindings [], lastBound?]
  exact Option.or_none

end Frame

namespace Store

/-- The frames in which a name is looked up, one after another: the innermost first and
    the globals last. -/
def frames (s : Store) : List Frame := s.locals ++ [s.globals]

/-- A name is looked up from the innermost frame to the globals. -/
theorem find?_eq (key : Text) (fs : List Frame) (globals : Frame) :
    find? key fs globals = (fs ++ [globals]).findSome? (·.get? key) := by
  induction fs with
  | nil =>
      rw [find?, List.nil_append, List.findSome?_singleton]
  | cons f fs ih =>
      rw [find?, List.cons_append, List.findSome?_cons, ih]
      cases f.get? key <;> rfl

/-- A lookup takes the first binding of the name in capitals. -/
theorem get_eq (s : Store) (name : Text) :
    s.get name = (s.frames.findSome? (·.get? (Text.upper name))).elim
      (.error (.unbound (Text.upper name))) .ok := by
  rw [get, find?_eq, frames]
  cases (s.locals ++ [s.globals]).findSome? (·.get? (Text.upper name)) <;> rfl

/-- The first store became the second, and only the binding of one name in one frame
    is another: that frame stands between those further in and those further out. -/
structure Rebinds (key : Text) (v : Value) (inner : List Frame) (f : Frame)
    (outer : List Frame) (s t : Store) : Prop where
  before : s.frames = inner ++ f :: outer
  after : ∃ g, f.Rebound key v g ∧ t.frames = inner ++ g :: outer
  depth : t.locals.length = s.locals.length
  procedures : t.procedures = s.procedures
  repcount : t.repcount = s.repcount

/-- A name that nothing further in hides is looked up as it was bound, and any other
    as before. -/
theorem Rebinds.get {s t : Store} {name : Text} {v : Value} {inner outer : List Frame} {f : Frame}
    (h : Rebinds (Text.upper name) v inner f outer s t)
    (hidden : ∀ g ∈ inner, g.holds (Text.upper name) = false) (m : Text) :
    t.get m = if Text.upper m = Text.upper name then .ok v else s.get m := by
  obtain ⟨g, hg, hafter⟩ := h.after
  rw [get_eq, get_eq, hafter, h.before, List.findSome?_append, List.findSome?_append,
    List.findSome?_cons, List.findSome?_cons]
  by_cases hm : Text.upper m = Text.upper name
  · have hnone : inner.findSome? (·.get? (Text.upper name)) = none :=
      List.findSome?_eq_none_iff.2 fun g hg => Frame.get?_eq_none (hidden g hg)
    rw [if_pos hm, hm, hnone, hg.bound]
    rfl
  · rw [if_neg hm, hg.others _ hm]

/-! ## Assignments -/

/-- An assignment to the innermost frame that has a name, in front of which none has. -/
theorem assignNearest?_split {key : Text} {v : Value} {fs fs' : List Frame}
    (h : assignNearest? key v fs = some fs') : ∃ inner f outer, fs = inner ++ f :: outer
      ∧ fs' = inner ++ f.assign key v :: outer ∧ f.holds key = true
      ∧ ∀ g ∈ inner, g.holds key = false := by
  induction fs generalizing fs' with
  | nil => cases h
  | cons f fs ih =>
      rw [assignNearest?] at h
      split at h
      · rename_i hf
        obtain rfl := Option.some.inj h
        exact ⟨[], f, fs, rfl, rfl, hf, by simp⟩
      · rename_i hf
        obtain ⟨gs, hgs, rfl⟩ := Option.map_eq_some_iff.1 h
        obtain ⟨inner, g, outer, rfl, rfl, hg, hinner⟩ := ih hgs
        exact ⟨f :: inner, g, outer, rfl, rfl, hg,
          List.forall_mem_cons.2 ⟨by simpa using hf, hinner⟩⟩

/-- If no frame can be assigned in then none binds the name. -/
theorem holds_of_assignNearest? {key : Text} {v : Value} {fs : List Frame}
    (h : assignNearest? key v fs = none) : ∀ f ∈ fs, f.holds key = false := by
  intro f hf
  obtain ⟨-, hall⟩ | ⟨j, hsome, -⟩ := assignNearest?_spec key v fs
  · obtain ⟨i, hi, rfl⟩ := List.getElem_of_mem hf
    have hframe := hall i
    rwa [List.getD_eq_getElem?_getD, List.getElem?_eq_getElem hi] at hframe
  · rw [h] at hsome
    cases hsome

/-- An assignment goes to the innermost frame that has the name, or to the globals. -/
theorem set_rebinds (s : Store) (name : Text) (v : Value) : ∃ inner f outer,
    Rebinds (Text.upper name) v inner f outer s (s.set name v)
      ∧ (∀ g ∈ inner, g.holds (Text.upper name) = false)
      ∧ (f.holds (Text.upper name) = true ∨ outer = []) := by
  rw [set]
  split
  · -- a frame of a caller has the name
    rename_i fs hfs
    obtain ⟨inner, f, outer, hlocals, rfl, hf, hinner⟩ := assignNearest?_split hfs
    refine ⟨inner, f, outer ++ [s.globals], ⟨?_, ⟨_, f.rebound_assign _ v, ?_⟩, ?_, rfl, rfl⟩,
      hinner, .inl hf⟩
    · rw [frames, hlocals]
      simp
    · simp [frames]
    · rw [hlocals]
      simp
  · rename_i hnone
    exact ⟨s.locals, s.globals, [], ⟨rfl, ⟨_, s.globals.rebound_assign _ v, rfl⟩, rfl, rfl, rfl⟩,
      holds_of_assignNearest? hnone, .inr rfl⟩

/-- A local assignment goes to the innermost frame, or to the globals when none is open. -/
theorem setLocal_rebinds (s : Store) (name : Text) (v : Value) :
    ∃ f outer, Rebinds (Text.upper name) v [] f outer s (s.setLocal name v) := by
  rw [setLocal]
  split
  · rename_i hnone
    exact ⟨s.globals, [], by rw [frames, hnone],
      ⟨_, s.globals.rebound_assign _ v, by rw [frames, hnone]⟩, by rw [hnone], rfl, rfl⟩
  · rename_i f fs hlocals
    exact ⟨f, fs ++ [s.globals], by rw [frames, hlocals]; rfl,
      ⟨_, f.rebound_assign _ v, rfl⟩, by rw [hlocals]; rfl, rfl, rfl⟩

end Store

/-! ## Scopes -/

/-- A frame that nothing is done in is closed again. -/
theorem Session.inFrame_pure (f : Frame) (w : World) : inFrame f (pure ()) w = .ok () w := by
  have hclose : closeFrame w.store.locals.length { w with store := w.store.push f } = .ok () w :=
    closeFrame_eq rfl
  rw [inFrame_eq]
  exact wrapUp_ok_ok rfl hclose

namespace Store

/-- In a new frame its bindings come first. -/
theorem get_push (s : Store) (f : Frame) (name : Text) :
    (s.push f).get name = (f.get? (Text.upper name)).elim (s.get name) .ok := by
  have hframes : (s.push f).frames = f :: s.frames := rfl
  rw [get_eq, get_eq, hframes, List.findSome?_cons]
  cases f.get? (Text.upper name) <;> rfl

/-- The laws of a store of names, whatever is in it.

    What is written to a name is read back from it, and other names mean what they
    meant; an assignment changes one binding, in the innermost frame that has the name
    or else in the globals, and a local one changes one in the innermost frame.  A scope
    in which nothing happens leaves no trace, and inside one its bindings are read, of
    those that are one name in capitals the last. -/
theorem dynamic_scoping (s : Store) :
    (∀ name v, (∀ m, (s.set name v).get m
          = if Text.upper m = Text.upper name then .ok v else s.get m)
        ∧ ∃ inner f outer, Rebinds (Text.upper name) v inner f outer s (s.set name v)
          ∧ (∀ g ∈ inner, g.holds (Text.upper name) = false)
          ∧ (f.holds (Text.upper name) = true ∨ outer = []))
      ∧ (∀ name v, (∀ m, (s.setLocal name v).get m
          = if Text.upper m = Text.upper name then .ok v else s.get m)
        ∧ ∃ f outer, Rebinds (Text.upper name) v [] f outer s (s.setLocal name v))
      ∧ ∀ bindings, (bindings.map (·.1)).Nodup →
          (s.push (.ofBindings bindings)).pop = s
            ∧ (∀ w : World, w.store = s →
              Session.inFrame (.ofBindings bindings) (pure ()) w = .ok () w)
            ∧ ∀ m, (s.push (.ofBindings bindings)).get m
              = (Frame.lastBound? bindings m).elim (s.get m) .ok := by
  refine ⟨fun name v => ?_, fun name v => ?_, fun bindings hdistinct => ⟨rfl, ?_, fun m => ?_⟩⟩
  · obtain ⟨inner, f, outer, hs, hidden, hplace⟩ := s.set_rebinds name v
    exact ⟨hs.get hidden, inner, f, outer, hs, hidden, hplace⟩
  · obtain ⟨f, outer, hs⟩ := s.setLocal_rebinds name v
    exact ⟨hs.get (by simp), f, outer, hs⟩
  · rintro w rfl
    exact Session.inFrame_pure _ w
  · rw [get_push, Frame.get?_ofBindings hdistinct]

/-- A parameter spelled in two ways, in a scope inside one that has the name too. -/
theorem dynamic_scoping_twice : ∃ s : Store, ∃ bindings : List (Text × Value),
    (bindings.map (·.1)).Nodup
      ∧ s.get "size" = .ok (.ofInt 7)
      ∧ (s.push (.ofBindings bindings)).get "Size" = .ok (.ofInt 2)
      ∧ (s.push (.ofBindings bindings)).get "side" = .ok (.ofInt 5)
      ∧ (s.set "size" (.ofInt 8)).get "SIZE" = .ok (.ofInt 8) := by
  let s : Store := ⟨[], [("SIZE", .ofInt 0), ("SIDE", .ofInt 5)], [[("SIZE", .ofInt 7)]], none⟩
  have hdistinct : (([("size", .ofInt 1), ("SIZE", .ofInt 2)] : List (Text × Value)).map
      (·.1)).Nodup := by decide
  obtain ⟨hset, -, hscope⟩ := dynamic_scoping s
  obtain ⟨-, -, hinside⟩ := hscope _ hdistinct
  refine ⟨s, _, hdistinct, rfl, (hinside _).trans rfl, (hinside _).trans rfl, ?_⟩
  rw [(hset "size" (.ofInt 8)).1]
  rfl

end Store

end TurtleLogo
