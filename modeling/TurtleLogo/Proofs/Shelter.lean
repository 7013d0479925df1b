import TurtleLogo.Proofs.Rest

/-! # Names that a scope shelters

    A procedure call opens a frame that binds its parameters, and a `FOR` loop
    one that binds its variable.  Whatever the body does, and however it ends,
    the frames outside still bind the names they bound, and what they and the
    globals have bound to a parameter or to the loop variable is as it was
    (`scopes_shelter`).  An assignment inside finds the name in the frame of
    the scope, so it never gets past it. -/

namespace TurtleLogo

/-- The frames of a store, and all that they and the globals bind to some
    names, are those of an earlier store. -/
structure Store.Shelters (names : List Text) (s t : Store) : Prop where
  length : t.locals.length = s.locals.length
  frames : ∀ i key, (t.frame i).holds key = (s.frame i).holds key
  globals : ∀ key, s.globals.holds key = true → t.globals.holds key = true
  inFrames : ∀ key ∈ names, ∀ i, (t.frame i).get? key = (s.frame i).get? key
  inGlobals : ∀ key ∈ names, t.globals.get? key = s.globals.get? key

namespace Store.Shelters

theorem refl (names : List Text) (s : Store) : s.Shelters names s :=
  ⟨rfl, fun _ _ => rfl, fun _ h => h, fun _ _ _ => rfl, fun _ _ => rfl⟩

/-- What a program does in a frame that binds some names. -/
theorem of_push {names : List Text} {s t : Store} {f : Frame} (h : (s.push f).Grows t)
    (hf : ∀ key ∈ names, f.holds key = true) : s.Shelters names t.pop where
  length := h.of_push.length
  frames i key := by rw [frame_pop, h.below, frame_push_succ]
  globals _ hs := h.globals hs
  inFrames key hkey i := by
    rw [frame_pop, h.hidden (Nat.succ_pos i) (hf key hkey), frame_push_succ]
  inGlobals key hkey := h.hiddenGlobal (j := 0) (hf key hkey)

end Store.Shelters

namespace Session

variable {β : Type}

/-! ## Frames -/

/-- The store after something was done in a frame of its own. -/
theorem store_inFrame {c : Bool} {m n : SessionM β} {f : Frame} {w : World}
    (hm : ∀ s : Spot, Steps (T := steady) c s m n) :
    (w.store.push f).Grows (endOf (n { w with store := w.store.push f })).store ∧
      (endOf (inFrame f n w)).store
        = (endOf (n { w with store := w.store.push f })).store.pop := by
  obtain ⟨u, hs, -⟩ := steady_end (hm ⟨{ w with store := w.store.push f }, true⟩)
  have hgrows : (w.store.push f).Grows (endOf (n { w with store := w.store.push f })).store :=
    hs.grows
  refine ⟨hgrows, ?_⟩
  rw [inFrame_eq]
  have hclose := closeFrame_eq (w := endOf (n { w with store := w.store.push f })) hgrows.length
  cases hn : n { w with store := w.store.push f } with
  | ok a v => rw [hn] at hclose; rw [wrapUp_ok_ok hn hclose]; rfl
  | error g v => rw [hn] at hclose; rw [wrapUp_error_ok hn hclose]; rfl

/-- As many inputs are read as a word has. -/
theorem length_arguments {E : Engine} {n : Nat} {ts rest : List Token} {args : List Value}
    {w v : World} (h : arguments E n ts w = .ok (args, rest) v) : args.length = n := by
  induction n generalizing ts args rest w v with
  | zero =>
      cases h
      rfl
  | succ n ih =>
      rw [arguments] at h
      obtain ⟨⟨a, more⟩, u, -, h⟩ := bind_eq_ok h
      obtain ⟨⟨as, more⟩, u', has, h⟩ := bind_eq_ok h
      cases h
      rw [List.length_cons, ih has]

/-! ## Passes -/

/-- A look for a stop request changes nothing but the pacer. -/
theorem stopRequested_eq (w : World) :
    ∃ b q, stopRequested w = .ok b { w with pacer := q } := by
  obtain ⟨b, q, hlook⟩ := Pacer.look_eq w.pacer
  exact ⟨b, q, by simp only [stopRequested, onPacer, hlook]⟩

/-- A fresh number changes nothing but which numbers are undefined. -/
theorem fresh_eq (n : Number) (w : World) :
    ∃ m j, fresh n w = .ok m { w with undefined := j } := by
  obtain ⟨m, j, hmark⟩ := World.mark_eq n w.undefined
  exact ⟨m, j, by simp only [fresh, hmark w rfl]⟩

/-- One pass of a loop and what comes after it. -/
theorem runs_onePass {D E : Engine} (hE : EnginesInStep steady true D E) (r : LoopRange)
    (body : List Token) (n pass : Nat) (u : World) : Runs (T := steady) (⟨u, true⟩ : Spot)
      (D.block body >>= fun flow => match flow with
        | .signal s => pure (some s)
        | .done _ => forPasses D r body n (pass + 1))
      (E.block body >>= fun flow => match flow with
        | .signal s => pure (some s)
        | .done _ => forPasses E r body n (pass + 1)) := by
  refine .bind (.uncut (fun _ _ _ h => h) (hE.block _ body)) fun flow => ?_
  cases flow with
  | signal s => exact .pure _
  | done _ => exact steady_laws.forPasses hE r body n (pass + 1)

/-- A `FOR` loop makes no pass and leaves the names alone, or it binds its
    variable first. -/
theorem store_forPasses {D E : Engine} (hE : EnginesInStep steady true D E) (r : LoopRange)
    (body : List Token) (n pass : Nat) (w : World) :
    (endOf (forPasses E r body n pass w)).store = w.store
      ∨ ∃ v, (w.store.bindInnermost r.name v).Grows
        (endOf (forPasses E r body n pass w)).store := by
  obtain ⟨b, q, hstop⟩ := stopRequested_eq w
  cases n with
  | zero =>
      rw [forPasses, bind_of_ok hstop]
      cases b <;> exact Or.inl rfl
  | succ n =>
      rw [forPasses, bind_of_ok hstop]
      cases b with
      | true => exact Or.inl rfl
      | false =>
          simp only [Bool.false_eq_true, if_false]
          cases hvalue : r.valueAt pass with
          | error e => exact Or.inl rfl
          | ok x =>
              obtain ⟨m, j, hfresh⟩ := fresh_eq x { w with pacer := q }
              have hcompute : (compute (.ok x) : SessionM Number) { w with pacer := q }
                  = .ok x { w with pacer := q } := rfl
              rw [bind_of_ok hcompute, bind_of_ok hfresh]
              by_cases hpast : r.isPast m = true
              · rw [if_pos hpast]
                exact Or.inl rfl
              · rw [if_neg hpast]
                -- from here on the variable is bound in the frame of the loop
                let u : World := { w with
                  store := w.store.bindInnermost r.name (.number m), pacer := q, undefined := j }
                obtain ⟨x, hs, -⟩ := steady_end (runs_onePass hE r body n pass u)
                exact Or.inr ⟨.number m, hs.grows⟩

/-! ## Scopes -/

variable {D E : Engine} (hE : EnginesInStep steady true D E)
include hE

/-- A call shelters its parameters. -/
theorem invoke_shelters (p : Procedure) {args : List Value} (hargs : args.length = p.params.length)
    (w : World) :
    w.store.Shelters (p.params.map Text.upper) (endOf (invoke E p args w)).store := by
  have hend : (endOf (invoke E p args w)).store
      = (endOf (inFrame (Frame.ofBindings (p.params.zip args)) (E.block p.body) w)).store := by
    rw [invoke]
    cases hbody : inFrame (Frame.ofBindings (p.params.zip args)) (E.block p.body) w with
    | error f u => rw [bind_of_error hbody]; rfl
    | ok flow u => rw [bind_of_ok hbody]; cases flow <;> rfl
  obtain ⟨hgrows, hpop⟩ := store_inFrame (f := Frame.ofBindings (p.params.zip args)) (w := w)
    fun s => hE.block s p.body
  rw [hend, hpop]
  refine .of_push hgrows fun key hkey => ?_
  -- every parameter has got an input
  obtain ⟨name, hname, rfl⟩ := List.mem_map.1 hkey
  have hzip : name ∈ (p.params.zip args).map (·.1) := by
    rw [List.map_fst_zip (Nat.le_of_eq hargs.symm)]
    exact hname
  obtain ⟨b, hb, rfl⟩ := List.mem_map.1 hzip
  exact Frame.holds_ofBindings hb

/-- A `FOR` shelters its variable. -/
theorem forLoop_shelters (patience : Nat) (r : LoopRange) (body : List Token) (w : World) :
    w.store.Shelters [r.name] (endOf (forLoop E patience r body w)).store := by
  obtain ⟨-, hpop⟩ := store_inFrame (f := []) (w := w)
    fun s => steady_laws.forPasses (p := s) hE r body patience 0
  rw [forLoop, hpop]
  rcases store_forPasses hE r body patience 0 { w with store := w.store.push [] } with
    hsame | ⟨v, hgrows⟩
  · rw [hsame]
    exact .refl _ _
  · have hbound : (w.store.push []).bindInnermost r.name v = w.store.push [(r.name, v)] := rfl
    rw [hbound] at hgrows
    refine .of_push hgrows fun key hkey => ?_
    rw [List.mem_singleton.1 hkey]
    simp

omit hE

/-- Procedure calls and `FOR` loops neither leak nor clobber the names that
    they bind, in any world, whatever their bodies do and however they end.  A
    call has as many inputs as parameters, since that many have been read. -/
theorem scopes_shelter (limits : Limits) (w : World) :
    (∀ (p : Procedure) (args : List Value), args.length = p.params.length →
        w.store.Shelters (p.params.map Text.upper) (endOf (invoke (engine limits) p args w)).store)
      ∧ (∀ (p : Procedure) (ts rest : List Token) (args : List Value) (v : World),
        arguments (engine limits) p.params.length ts w = .ok (args, rest) v →
        v.store.Shelters (p.params.map Text.upper) (endOf (invoke (engine limits) p args v)).store)
      ∧ ∀ (r : LoopRange) (body : List Token), w.store.Shelters [r.name]
        (endOf (forLoop (engine limits) limits.patience r body w)).store := by
  have hE := steady_laws.engines limits.patience limits.depth
  refine ⟨?_, ?_, ?_⟩
  · intro p args hargs
    exact invoke_shelters hE p hargs w
  · intro p ts rest args v hread
    exact invoke_shelters hE p (length_arguments hread) v
  · intro r body
    exact forLoop_shelters hE limits.patience r body w

/-- A call of `F`, whose body is `MAKE "X 3`, with `X` bound globally. -/
theorem scopes_shelter_make : ∃ w : World, w.store.globals.get? "X" = some (.ofInt 1) ∧
    (endOf (invoke (engine ⟨20, 5⟩) ⟨"F", ["X"], [.word "MAKE", .quoted "X", .number (.int 3)]⟩
      [.ofInt 2] w)).store.globals.get? "X" = some (.ofInt 1) := by
  obtain ⟨w, -⟩ := quietSession_of (P := fun _ => true) rfl
  refine ⟨{ w with store := ⟨[], [("X", .ofInt 1)], [], none⟩ }, rfl, ?_⟩
  exact ((scopes_shelter ⟨20, 5⟩ _).1 _ [.ofInt 2] rfl).inGlobals "X" (by decide)

end Session

end TurtleLogo
