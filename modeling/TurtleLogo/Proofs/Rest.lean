import TurtleLogo.Proofs.Steady

/-! # Sessions at rest

    A host may do with a session what `HostCall` lists: run programs, answer,
    stop, reset, and replace itself or the pacer in between.  Whatever it does,
    and however each call ends, the session is at rest afterwards
    (`reachable_atRest`), and its canvas is sane (`Reachable.sane`). -/

namespace TurtleLogo

/-- A session in which no frame, no count and no fill is left open and no
    program is running. -/
structure World.AtRest (w : World) : Prop where
  locals : w.store.locals = []
  repcount : w.store.repcount = none
  fills : w.canvas.scene.fills = []
  running : w.running = false

namespace Canvas

/-- The canvas of a new session. -/
theorem new_spec {surface : Surface Number} {c : Canvas Number} (h : Canvas.new surface = .ok c) :
    c.Sane ∧ c.scene.fills = [] ∧ c.surface.kind = surface.kind := by
  obtain ⟨view, -, hreset⟩ := reset_of_new h
  have hscene : Sane ⟨Scene.new view, surface⟩ := ⟨rfl, rfl, rfl⟩
  have hproper := (proper_reset ⟨Scene.new view, surface⟩).follows
  rw [hreset] at hproper
  exact ⟨hproper.sane hscene, List.eq_nil_of_length_eq_zero (Nat.le_zero.1 hproper.fills),
    hproper.kind⟩

end Canvas

namespace Session

/-! ## What a host may do -/

/-- What a host may do with a session while no program is running. -/
inductive HostCall where
  | run (code : Text)
  | execute (code : Text)
  | evaluate (grammar : Grammar) (source : Text)
  | reset
  | stop
  | setSpeed (ms : Number)
  | setMode (mode : EdgeMode)
  | event (e : WindowEvent)
  | present
  /-- Somebody else listens and answers. -/
  | replaceHost (h : Host)
  /-- The pauses are made in another way, or somebody outside will stop the next
      run. -/
  | replacePacer (q : Pacer)

/-- What a call does. -/
def HostCall.act (limits : Limits) : HostCall → SessionM Unit
  | .run code => Session.run limits code
  | .execute code => do
      let _ ← Session.execute limits code
  | .evaluate grammar source => do
      let _ ← Session.evaluate limits grammar source
  | .reset => Session.reset
  | .stop => Session.stop
  | .setSpeed ms => Session.setSpeed ms
  | .setMode mode => onCanvas (Canvas.setMode mode)
  | .event e => handle e
  | .present => onCanvas Canvas.present
  | .replaceHost h => modify fun w => { w with host := h }
  | .replacePacer q => modify fun w => { w with pacer := q }

/-- The worlds that calls lead to, however they end, from a new session on a
    surface. -/
inductive Reachable (surface : Surface Number) : World → Prop where
  | new {pacer : Pacer} {host : Host} {w : World} (h : World.new surface pacer host = .ok w) :
      Reachable surface w
  | call {w : World} (h : Reachable surface w) (limits : Limits) (c : HostCall) :
      Reachable surface (endOf (c.act limits w))

/-! ## One call -/

/-- A call is steady, or it resets or replaces something. -/
theorem steady_hostCall (limits : Limits) (c : HostCall) (s : Spot) :
    (∃ m, InStep (T := steady) s m (c.act limits))
      ∨ c = .reset ∨ (∃ h, c = .replaceHost h) ∨ ∃ q, c = .replacePacer q := by
  have hblock := steady_laws.block limits.patience limits.depth
  have hE := steady_laws.engines limits.patience limits.depth
  cases c with
  | run code => exact Or.inl ⟨_, steady_runWith hblock code s⟩
  | execute code =>
      exact Or.inl ⟨_, .bind (steady_executeWith hblock code s) fun _ => .pure ()⟩
  | evaluate grammar source =>
      have htokens : InStep (T := steady) s
          (attempt (Token.tokenize source) : SessionM (List Token))
          (attempt (Token.tokenize source)) := by
        cases hcode : Token.tokenize source with
        | ok ts => exact .pure ts
        | error f =>
            obtain ⟨neg, ds, rfl, -⟩ := Token.tokenize_error hcode
            exact .throw fun h => ⟨h, by simp [Fault.OfFrame]⟩
      refine Or.inl ?_
      cases grammar with
      | expression =>
          exact ⟨_, .bind (.bind htokens fun ts => .bind (hE.expression s ts) fun _ => .pure _)
            fun _ => .pure ()⟩
      | condition =>
          exact ⟨_, .bind (.bind htokens fun ts =>
            .bind (steady_laws.condition hE ts) fun _ => .pure _) fun _ => .pure ()⟩
  | reset => exact Or.inr (Or.inl rfl)
  | stop => exact Or.inl ⟨_, steady_scene.stop⟩
  | setSpeed ms => exact Or.inl ⟨_, steady_scene.setSpeed ms⟩
  | setMode mode => exact Or.inl ⟨_, steady_scene.onCanvas (Canvas.proper_setMode mode)⟩
  | event e => exact Or.inl ⟨_, steady_scene.handle e⟩
  | present => exact Or.inl ⟨_, steady_scene.onCanvas Canvas.proper_present⟩
  | replaceHost h => exact Or.inr (Or.inr (Or.inl ⟨h, rfl⟩))
  | replacePacer q => exact Or.inr (Or.inr (Or.inr ⟨q, rfl⟩))

/-- What all calls keep. -/
structure Settled (surface : Surface Number) (w : World) : Prop where
  rest : w.AtRest
  sane : w.canvas.Sane
  kind : w.canvas.surface.kind = surface.kind

/-- A steady run leaves a session settled. -/
theorem Settled.of_steady {surface : Surface Number} {w u v : World} (h : Settled surface w)
    (hs : Steady ⟨w, true⟩ u v) : Settled surface v := by
  have hfills := hs.canvas.fills
  rw [h.rest.fills] at hfills
  refine ⟨⟨?_, (hs.count rfl).trans h.rest.repcount, ?_, hs.running.trans h.rest.running⟩,
    hs.canvas.sane h.sane, hs.canvas.kind.trans h.kind⟩
  · exact List.eq_nil_of_length_eq_zero (by rw [hs.grows.length, h.rest.locals]; rfl)
  · exact List.eq_nil_of_length_eq_zero (Nat.le_zero.1 hfills)

/-- One call leaves a session settled, and never fails because of a frame. -/
theorem Settled.call {surface : Surface Number} {w : World} (h : Settled surface w)
    (limits : Limits) (c : HostCall) :
    Settled surface (endOf (c.act limits w)) ∧
      ∀ f u, c.act limits w = .error f u → ¬f.OfFrame := by
  rcases steady_hostCall limits c ⟨w, true⟩ with ⟨m, hm⟩ | rfl | ⟨host, rfl⟩ | ⟨q, rfl⟩
  · obtain ⟨u, hs, hfault⟩ := steady_end hm
    exact ⟨h.of_steady hs, hfault⟩
  · -- with all names forgotten, what is left to do is steady
    let start : World := { w with store := .empty, printed := #[] }
    have hstart : Settled surface start :=
      ⟨⟨rfl, rfl, h.rest.fills, h.rest.running⟩, h.sane, h.kind⟩
    have hreset : InStep (T := steady) (⟨start, true⟩ : Spot) (onCanvas Canvas.reset)
        (onCanvas Canvas.reset) := steady_scene.onCanvas Canvas.proper_reset
    obtain ⟨u, hs, hfault⟩ := steady_end hreset
    exact ⟨hstart.of_steady hs, hfault⟩
  · refine ⟨⟨⟨h.rest.locals, h.rest.repcount, h.rest.fills, h.rest.running⟩, h.sane, h.kind⟩,
      fun f u hu => ?_⟩
    cases hu
  · refine ⟨⟨⟨h.rest.locals, h.rest.repcount, h.rest.fills, h.rest.running⟩, h.sane, h.kind⟩,
      fun f u hu => ?_⟩
    cases hu

/-! ## All calls -/

/-- Every session that calls lead to is settled. -/
theorem Reachable.settled {surface : Surface Number} {w : World} (h : Reachable surface w) :
    Settled surface w := by
  induction h with
  | new hnew =>
      obtain ⟨c, hc, hw⟩ := Except.bind_eq_ok hnew
      cases hw
      obtain ⟨hsane, hfills, hkind⟩ := Canvas.new_spec hc
      exact ⟨⟨rfl, rfl, hfills, rfl⟩, hsane, hkind⟩
  | call _ limits c ih => exact (ih.call limits c).1

/-- The frame that is closed after an action is the one that was opened for it. -/
def ClosesItsFrame {β : Type} (act : SessionM β) : Prop :=
  ∀ (f : Frame) (w : World), ∃ v, closeFrame w.store.locals.length
    (endOf (act { w with store := w.store.push f })) = .ok () v

/-- A steady run closes the frame that it opened. -/
theorem closesItsFrame_of_steady {β : Type} {c : Bool} {m n : SessionM β}
    (hm : ∀ s : Spot, Steps (T := steady) c s m n) : ClosesItsFrame n := by
  intro f w
  obtain ⟨u, hs, -⟩ := steady_end (hm ⟨{ w with store := w.store.push f }, true⟩)
  exact ⟨_, closeFrame_eq hs.grows.length⟩

/-- Whatever a host has done with a session, it is at rest again; no call fails
    because of a frame, and whenever the body of a procedure or the passes of a
    `FOR` loop have run, the frame that is closed is theirs. -/
theorem reachable_atRest {surface : Surface Number} {w : World} (h : Reachable surface w)
    (limits : Limits) :
    w.AtRest
      ∧ (∀ c f u, HostCall.act limits c w = .error f u → f ≠ .strayFrame ∧ f ≠ .noSuchIndex)
      ∧ (∀ body, ClosesItsFrame ((engine limits).block body))
      ∧ ∀ r body n pass, ClosesItsFrame (forPasses (engine limits) r body n pass) := by
  have hE := steady_laws.engines limits.patience limits.depth
  refine ⟨h.settled.rest, fun c f u hu => ?_, fun body => ?_, fun r body n pass => ?_⟩
  · have hfault := (h.settled.call limits c).2 f u hu
    exact ⟨fun hf => hfault (Or.inr hf), fun hf => hfault (Or.inl hf)⟩
  · exact closesItsFrame_of_steady fun s => hE.block s body
  · exact closesItsFrame_of_steady fun s => steady_laws.forPasses (p := s) hE r body n pass

/-- A new session on a recording surface, with a host that is quiet. -/
def quietSession : Except Fault World :=
  World.new (.new .recording 800 600 (.empty [])) (.new (.int 0) none) .quiet

/-- What can be found out about that session by trying. -/
theorem quietSession_of {P : World → Bool}
    (h : (match quietSession with
      | .ok w => P w
      | .error _ => false) = true) : ∃ w, quietSession = .ok w ∧ P w = true := by
  cases hnew : quietSession with
  | ok w =>
      rw [hnew] at h
      exact ⟨w, rfl, h⟩
  | error f =>
      rw [hnew] at h
      cases h

/-- The law at a call that calls itself without end. -/
theorem reachable_atRest_repeat : ∃ w, quietSession = .ok w ∧
    (endOf (HostCall.act ⟨40, 5⟩ (.run "TO F :X REPEAT 2 [FILLED [F :X]] END F 1") w)).AtRest := by
  obtain ⟨w, hnew, -⟩ := quietSession_of (P := fun _ => true) rfl
  have hreach := Reachable.call (.new hnew) ⟨40, 5⟩
    (.run "TO F :X REPEAT 2 [FILLED [F :X]] END F 1")
  exact ⟨w, hnew, (reachable_atRest hreach ⟨40, 5⟩).1⟩

end Session

end TurtleLogo
