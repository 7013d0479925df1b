import TurtleLogo.Proofs.Underway

/-! # The course of a drawing

    A program reaches its canvas through commands only, so whatever it does, and
    however it ends, the canvas has gone through changes of three kinds: steps of
    the drawing, replays, and new starts (`Canvas.Change`).  Only people at a
    window can change the view, through a host that passes on what they do.

    * `Canvas.Alters` says of an action on a canvas that it is made of changes;
    * `World.Course` says that the canvas of one world goes over into that of
      another by changes;
    * that is a conduct to which all programs keep, as what commands do on a
      canvas is made of changes (`course_acts`);
    * so the canvas of a session has gone through changes since it was new, if
      nobody is at a window (`Unwatched.changes`). -/

namespace TurtleLogo

open Relation

/-! ## Changes of a canvas -/

namespace Canvas

variable {α β γ : Type} [Scalar α]

/-- One change of a canvas. -/
inductive Change : Canvas α → Canvas α → Prop
  | step {s s' : Scene α} (u : Surface α) (h : s.Step s') : Change ⟨s, u⟩ ⟨s', u⟩
  | replay (c : Canvas α) : Change c (endOf (redraw c))
  | anew (s : Scene α) (u : Surface α) : Change ⟨s, u⟩ ⟨Scene.new s.view, u⟩

/-- Changes one after another. -/
abbrev Changes : Canvas α → Canvas α → Prop := ReflTransGen Change

/-- An action that is made of changes, whether it succeeds or fails. -/
abbrev Alters (m : CanvasM α β) : Prop := Within Changes m

/-- What turtles do is made of changes. -/
theorem motions_changes : Motions (Changes : Canvas α → Canvas α → Prop) where
  refl _ := .refl
  trans := ReflTransGen.trans
  turtle s u f _ := .single (.step u (.turtle s f))
  line s u x1 y1 x2 y2 pen := .single (.step u (.line s x1 y1 x2 y2 pen))
  circle s u x y radius pen := .single (.step u (.circle s x y radius pen))
  arc s u _ _ _ _ _ _ _ _ sweep pen hcentre hfirst :=
    .single (.step u (.arc s sweep pen hcentre hfirst))
  touch s u := .single (.step u (.touch s))
  tell s u id _ := .single (.step u (.tell s id))
  mode s u mode := .single (.step u (.mode s mode))

/-- A step of the drawing is a change. -/
theorem alters_step {f : Scene α → Scene α} (hf : ∀ s : Scene α, s.Step (f s)) :
    Alters (change f) :=
  .change fun s u => .single (.step u (hf s))

theorem alters_redraw : Alters (redraw : CanvasM α Unit) := fun c => .single (.replay c)

/-- A step of the drawing that is shown at once. -/
theorem alters_redraw_after {f : Scene α → Scene α} (hf : ∀ s : Scene α, s.Step (f s)) :
    Alters (do change f; redraw) :=
  .bind motions_changes.toMoves (alters_step hf) fun _ => alters_redraw

theorem alters_reset : Alters (reset : CanvasM α Unit) :=
  .bind motions_changes.toMoves (fun c => .single (.anew c.scene c.surface)) fun _ => alters_redraw

theorem alters_present : Alters (present : CanvasM α Unit) :=
  within_present motions_changes.toMoves alters_redraw

/-- The start of a fill is made of changes. -/
theorem alters_beginFill : Alters (beginFill : CanvasM α Unit) :=
  .bind motions_changes.toMoves (within_turtle motions_changes.toMoves) fun t =>
    alters_step fun s => .beginFill s t

end Canvas

/-! ## Courses of a session -/

/-- A host that never passes on what happens at the window. -/
def Host.Windowless (h : Host) : Prop :=
  ∀ n text, ∀ r ∈ h.react n text, ∀ e, r ≠ .event e

/-- The canvas goes over into another by changes, and the host goes on reacting
    as it did. -/
structure World.Course (w v : World) : Prop where
  canvas : w.canvas.Changes v.canvas
  react : v.host.react = w.host.react

namespace World

theorem Course.trans {w v u : World} (h : w.Course v) (h' : v.Course u) : w.Course u :=
  ⟨h.canvas.trans h'.canvas, h'.react.trans h.react⟩

/-- Along a course nobody comes to a window. -/
theorem Course.windowless {w v : World} (h : w.Course v) (hw : w.host.Windowless) :
    v.host.Windowless := by
  rw [Host.Windowless, h.react]
  exact hw

end World

namespace Session

open Canvas (Alters)

/-- The conduct of programs whose host has no window: they change the canvas as
    programs can, and the host as it reacts not at all. -/
def courseConduct : Conduct where
  applies w := w.host.Windowless
  leads := World.Course
  trans := World.Course.trans
  applies_of := World.Course.windowless
  still hcanvas hreact _ := ⟨by rw [hcanvas], hreact⟩
  defines _ _ _ := ⟨.refl, rfl⟩

/-- Changes of the canvas. -/
theorem course_canvas {β : Type} {act : CanvasM Number β} (hact : Alters act) :
    courseConduct.Keeps (onCanvas act) :=
  Conduct.keeps_onCanvas Canvas.motions_changes.toMoves
    (fun hchanges hreact => World.Course.mk hchanges hreact) hact

/-- A course is a conduct with all laws. -/
theorem laws_course : courseConduct.Laws where
  tell who := course_canvas (Canvas.within_tell Canvas.motions_changes who)
  filling hm := .bind (course_canvas Canvas.alters_beginFill) fun _ =>
    .wrapUp hm (course_canvas (Canvas.alters_step .endFill))
      (course_canvas (Canvas.alters_step .cancelFill))
  events hw n text e he := absurd rfl (hw n text _ he e)

/-- Commands change the canvas as programs can. -/
theorem course_acts {c : Command} {act : CanvasM Number Unit} (h : c.Acts act) :
    courseConduct.Keeps (onCanvas act) := by
  refine course_canvas (h.within Canvas.motions_changes
    (fun color => Canvas.alters_redraw_after fun s => .background s color) ?_)
  rintro (rfl | rfl)
  · cases h
    exact Canvas.alters_redraw_after .clear
  · cases h
    exact Canvas.alters_redraw_after .clean

/-! ## Calls of a windowless host -/

/-- A call that has nothing to do with a window. -/
def HostCall.Windowless : HostCall → Prop
  | .event _ => False
  | .replaceHost h => h.Windowless
  | _ => True

/-- The worlds that calls lead to, however they end, from a new session on a
    surface, if nobody is at a window. -/
inductive Unwatched (surface : Surface Number) : World → Prop where
  | new {pacer : Pacer} {host : Host} {w : World} (hhost : host.Windowless)
      (h : World.new surface pacer host = .ok w) : Unwatched surface w
  | call {w : World} (h : Unwatched surface w) (limits : Limits) {c : HostCall}
      (hc : c.Windowless) : Unwatched surface (endOf (c.act limits w))

/-- A call keeps to the course, or it replaces the host. -/
theorem course_hostCall (limits : Limits) {c : HostCall} (hc : c.Windowless) :
    courseConduct.Keeps (c.act limits) ∨ ∃ h, c = .replaceHost h := by
  have hkeeps := Conduct.keeps_hostCall laws_course course_acts limits (c := c)
  cases c with
  | reset => exact .inl (.bind (fun _ _ => ⟨.refl, rfl⟩) fun _ => course_canvas Canvas.alters_reset)
  | setMode mode => exact .inl (course_canvas (Canvas.within_setMode Canvas.motions_changes.toMoves mode))
  | event e => exact hc.elim
  | present => exact .inl (course_canvas Canvas.alters_present)
  | replaceHost h => exact .inr ⟨h, rfl⟩
  | run | execute | evaluate | stop | setSpeed | replacePacer => exact .inl (hkeeps False.elim)

/-- Without anybody at a window, the canvas of a session has gone through changes
    since it was new. -/
theorem Unwatched.changes {surface : Surface Number} {w : World} (h : Unwatched surface w) :
    w.host.Windowless ∧ ∃ c, Canvas.new surface = .ok c ∧ c.Changes w.canvas := by
  induction h with
  | new hhost hnew =>
      obtain ⟨c, hc, hw⟩ := Except.bind_eq_ok hnew
      cases hw
      exact ⟨hhost, c, hc, .refl⟩
  | @call w _ limits c hc ih =>
      obtain ⟨hhost, c₀, hnew, hchanges⟩ := ih
      rcases course_hostCall limits hc with hcourse | ⟨h, rfl⟩
      · have hw := hcourse w hhost
        exact ⟨hw.windowless hhost, c₀, hnew, hchanges.trans hw.canvas⟩
      · exact ⟨hc, c₀, hnew, hchanges⟩

end Session

end TurtleLogo
