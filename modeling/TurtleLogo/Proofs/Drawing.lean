import Mathlib.Logic.Relation
import TurtleLogo.Proofs.Ending
import TurtleLogo.Drawing.Canvas

/-! # Steps of a drawing

    Whatever turtles do to a scene, they do it in steps of a few kinds: the
    current turtle changes, a shape is drawn, a fill begins or ends, another
    turtle becomes current, or something is chosen or cleared.  No step changes
    the view, and none touches the surface.

    * `Scene.Step` lists the kinds of steps;
    * `Canvas.Within` says of an action that it takes a canvas along a relation,
      whether it succeeds or fails;
    * `Canvas.Motions` says of a relation that it allows for what turtles do when
      they move, turn and draw, and then all motion goes along with it;
    * `Canvas.Draws` says of an action that it is a sequence of steps: motion is,
      and so is the end of a fill;
    * `Canvas.Views` says of a relation that it allows as well for what only
      changes how the drawing is seen, and then looking on goes along with it. -/

namespace TurtleLogo

open Relation

variable {α : Type} [Scalar α]

/-- The pen of a turtle is at least one wide. -/
def Turtle.Broad (t : Turtle α) : Prop := Scalar.le (Scalar.ofInt 1) t.pen.width = true

/-- A whole number is not above its maximum with another number, even an undefined
    one. -/
theorem Number.le_max (n : ℤ) (a : Number) :
    Number.le (.int n) (Scalar.max (.int n) a) = true := by
  rw [Scalar.max, Number.le, Bool.or_eq_true]
  by_cases h : Scalar.lt (.int n) a = true
  · rw [if_pos h]
    exact .inl h
  · rw [if_neg h]
    exact .inr (by simp [Number.eq, Number.compare?])

/-- What a change of the current turtle of a scene leaves as it should be: its pen
    does not become narrower than one, and a new heading is that of the turtle, is in
    normal form, or is undefined. -/
structure Scene.Adapts (s : Scene α) (f : Turtle α → Turtle α) : Prop where
  broad : ∀ t, t.Broad → (f t).Broad
  heading : (∀ t, (f t).heading = t.heading) ∨ ∃ h, (∀ t, (f t).heading = h)
    ∧ ((∃ t, s.turtle? = some t ∧ h = t.heading) ∨ (∃ angle, normalizeHeading angle = .ok h)
      ∨ Scalar.le h h = false)

/-- A turtle that faces as before and has the same pen. -/
theorem Scene.Adapts.of_eq {s : Scene α} {f : Turtle α → Turtle α} (hpen : ∀ t, (f t).pen = t.pen)
    (hheading : ∀ t, (f t).heading = t.heading) : s.Adapts f where
  broad t ht := by rw [Turtle.Broad, hpen]; exact ht
  heading := .inl hheading

/-- A turtle that is turned. -/
theorem Scene.adapts_turn (s : Scene α) {angle h : α} (hh : normalizeHeading angle = .ok h) :
    s.Adapts fun t => { t with heading := h } :=
  ⟨fun _ ht => ht, .inr ⟨h, fun _ => rfl, .inr (.inl ⟨angle, hh⟩)⟩⟩

/-- One step of a drawing. -/
inductive Scene.Step : Scene α → Scene α → Prop
  | turtle (s : Scene α) (f : Turtle α → Turtle α) : Step s (s.mapTurtle f)
  | line (s : Scene α) (x1 y1 x2 y2 : α) (pen : Pen α) : Step s (s.emit (.line x1 y1 x2 y2 pen))
  | circle (s : Scene α) (x y radius : α) (pen : Pen α) : Step s (s.emit (.circle x y radius pen))
  /-- The centre of an arc has been found, and its start is in normal form. -/
  | arc (s : Scene α) {x y size side cx cy start first : α} (sweep : α) (pen : Pen α)
      (hcentre : pointAt x y size side = .ok (cx, cy))
      (hfirst : normalizeHeading start = .ok first) :
      Step s (s.emit (.arc cx cy size first sweep pen))
  | touch (s : Scene α) : Step s s.touch
  | tell (s : Scene α) (id : Value) : Step s { s with
      turtles := if s.hasTurtle id then s.turtles else s.turtles ++ [(id, Turtle.new)]
      current := id, dirty := true }
  | beginFill (s : Scene α) (t : Turtle α) : Step s (s.beginFill t)
  | endFill (s : Scene α) : Step s s.endFill
  | cancelFill (s : Scene α) : Step s s.cancelFill
  | background (s : Scene α) (color : Text) : Step s { s with background := color }
  | mode (s : Scene α) (mode : EdgeMode) : Step s { s with mode := mode }
  | clear (s : Scene α) : Step s s.clear
  | clean (s : Scene α) : Step s { s with log := #[] }

namespace Scene

/-- Steps one after another. -/
abbrev Steps : Scene α → Scene α → Prop := ReflTransGen Step

/-- A step does not change the view. -/
theorem Step.view {s s' : Scene α} (h : s.Step s') : s'.view = s.view := by
  cases h with
  | endFill =>
      rw [Scene.endFill]
      split <;> rfl
  | _ => rfl

/-- Steps do not change the view. -/
theorem Steps.view {s s' : Scene α} (h : s.Steps s') : s'.view = s.view := by
  induction h with
  | refl => rfl
  | tail _ hstep ih => exact hstep.view.trans ih

end Scene

namespace Canvas

/-- An action that takes a canvas along a relation, whether it succeeds or
    fails. -/
def Within {β : Type} (R : Canvas α → Canvas α → Prop) (m : CanvasM α β) : Prop :=
  ∀ c, R c (endOf (m c))

omit [Scalar α] in
/-- What happens on the surface leaves the scene as it was. -/
theorem endOf_onSurface {β : Type} (m : EStateM Fault (Surface α) β) (c : Canvas α) :
    endOf (onSurface m c) = ⟨c.scene, endOf (m c.surface)⟩ := by
  cases hm : m c.surface <;> simp only [onSurface, hm] <;> rfl

/-- A relation that allows for what the current turtle does, fills and clearing
    apart. -/
structure Moves (R : Canvas α → Canvas α → Prop) : Prop where
  refl : ∀ c, R c c
  trans : ∀ {c d e}, R c d → R d e → R c e
  turtle : ∀ (s : Scene α) u (f : Turtle α → Turtle α), s.Adapts f → R ⟨s, u⟩ ⟨s.mapTurtle f, u⟩
  line : ∀ (s : Scene α) u (x1 y1 x2 y2 : α) (pen : Pen α),
    R ⟨s, u⟩ ⟨s.emit (.line x1 y1 x2 y2 pen), u⟩
  circle : ∀ (s : Scene α) u (x y radius : α) (pen : Pen α),
    R ⟨s, u⟩ ⟨s.emit (.circle x y radius pen), u⟩
  arc : ∀ (s : Scene α) u {x y size side cx cy start first : α} (sweep : α) (pen : Pen α),
    pointAt x y size side = .ok (cx, cy) → normalizeHeading start = .ok first →
    R ⟨s, u⟩ ⟨s.emit (.arc cx cy size first sweep pen), u⟩
  touch : ∀ (s : Scene α) u, R ⟨s, u⟩ ⟨s.touch, u⟩
  mode : ∀ (s : Scene α) u (mode : EdgeMode), R ⟨s, u⟩ ⟨{ s with mode := mode }, u⟩

/-- A relation that allows for what turtles do, and for another to become
    current. -/
structure Motions (R : Canvas α → Canvas α → Prop) : Prop extends Moves R where
  /-- A list is no name. -/
  tell : ∀ (s : Scene α) u (id : Value), id.isList = false → R ⟨s, u⟩ ⟨{ s with
    turtles := if s.hasTurtle id then s.turtles else s.turtles ++ [(id, Turtle.new)]
    current := id, dirty := true }, u⟩


section

variable {β γ : Type} {R : Canvas α → Canvas α → Prop}

omit [Scalar α] in
/-- A look at the canvas is allowed for if what follows is, on every canvas. -/
theorem Within.get_bind {k : Canvas α → CanvasM α β} (hk : ∀ c, Within R (k c)) :
    Within R (MonadState.get >>= k) :=
  fun c => hk c c

omit [Scalar α] in
/-- A change of the scene along the relation. -/
theorem Within.change {f : Scene α → Scene α} (hf : ∀ (s : Scene α) u, R ⟨s, u⟩ ⟨f s, u⟩) :
    Within R (change f) :=
  fun c => hf c.scene c.surface

variable (H : Moves R)
include H

theorem Within.pure (b : β) : Within R (Pure.pure b : CanvasM α β) := fun c => H.refl c

theorem Within.throw (f : Fault) : Within R (MonadExcept.throw f : CanvasM α β) :=
  fun c => H.refl c

/-- Two actions in a row are allowed for if each is. -/
theorem Within.bind {m : CanvasM α β} {k : β → CanvasM α γ} (hm : Within R m)
    (hk : ∀ b, Within R (k b)) : Within R (m >>= k) := fun c =>
  endOf_bind (R := R) H.trans (hm c) fun b d _ => hk b d

/-- An action that is wrapped up at its end is allowed for if its parts are. -/
theorem Within.wrapUp {m : CanvasM α β} {done failed : CanvasM α Unit} (hm : Within R m)
    (hdone : Within R done) (hfailed : Within R failed) : Within R (wrapUp m done failed) :=
  fun c => endOf_wrapUp (R := R) H.trans (hm c) (fun d _ => hdone d) fun d _ => hfailed d

/-- What depends on the result of a computation. -/
theorem Within.compute_bind {r : Except ArithmeticFault β} {k : β → CanvasM α γ}
    (hk : ∀ b, r = .ok b → Within R (k b)) : Within R (compute r >>= k) := by
  cases r with
  | ok b => exact hk b rfl
  | error f => exact .throw H (.arithmetic f)

/-- Computing is allowed for. -/
theorem Within.compute (r : Except ArithmeticFault β) : Within R (compute r : CanvasM α β) := by
  cases r with
  | ok b => exact .pure H b
  | error f => exact .throw H (.arithmetic f)

/-- Bringing the surface up to date may be nothing at all. -/
theorem within_present (hredraw : Within R (redraw : CanvasM α Unit)) :
    Within R (present : CanvasM α Unit) := by
  intro c
  show R c (endOf ((if c.scene.dirty then redraw else pure () : CanvasM α Unit) c))
  by_cases hdirty : c.scene.dirty = true
  · rw [if_pos hdirty]
    exact hredraw c
  · rw [if_neg hdirty]
    exact H.refl c

/-! ## Turtles and motion -/

/-- A stroke draws a line, or nothing if the pen is up. -/
theorem Moves.stroke (s : Scene α) (u : Surface α) (t : Turtle α) (x1 y1 x2 y2 : α) :
    R ⟨s, u⟩ ⟨s.stroke t x1 y1 x2 y2, u⟩ := by
  rw [Scene.stroke]
  split
  · exact H.line s u x1 y1 x2 y2 t.pen
  · exact H.refl _

/-- Looking at the current turtle is allowed for. -/
theorem within_turtle : Within R (turtle : CanvasM α (Turtle α)) := by
  refine .bind H (.get_bind fun c => .pure H c.scene) fun s => ?_
  cases s.turtle? with
  | some t => exact .pure H t
  | none => exact .throw H _

/-- Changing the current turtle is allowed for, as long as it stays as it should be. -/
theorem within_changeTurtle {f : Turtle α → Turtle α} (hf : ∀ s : Scene α, s.Adapts f) :
    Within R (changeTurtle f) :=
  .bind H (within_turtle H) fun _ => .change fun s u => H.turtle s u f (hf s)

/-- Putting a turtle somewhere. -/
theorem Moves.place (s : Scene α) (u : Surface α) (x y : α) : R ⟨s, u⟩ ⟨s.place x y, u⟩ :=
  H.turtle s u _ (.of_eq (fun _ => rfl) fun _ => rfl)

theorem within_touch : Within R (change (·.touch) : CanvasM α Unit) := .change H.touch

theorem within_halfExtents : Within R (halfExtents : CanvasM α (Point α)) :=
  .get_bind fun _ => .compute H _

/-- The hops of a wrapped move are allowed for. -/
theorem within_walk (t : Turtle α) (hopX hopY halfWidth halfHeight : α) (steps : Nat) (x y : α) :
    Within R (walk t hopX hopY halfWidth halfHeight steps x y) := by
  induction steps generalizing x y with
  | zero => exact .pure H ()
  | succ steps ih =>
      refine .bind H (.compute H _) fun nx => .bind H (.compute H _) fun ny => ?_
      refine .bind H (.change fun s u => H.stroke s u t x y nx ny) fun _ => ?_
      exact .bind H (.compute H _) fun wx => .bind H (.compute H _) fun wy => ih wx wy

/-- A wrapped move is allowed for. -/
theorem within_wrapTo (t : Turtle α) (x y : α) : Within R (wrapTo t x y) := by
  refine .bind H (within_halfExtents H) fun ⟨_, _⟩ => ?_
  refine .bind H (.compute H _) fun _ => .bind H (.compute H _) fun _ => ?_
  refine .bind H (.compute H _) fun _ => .bind H (.compute H _) fun _ => ?_
  refine .bind H (.compute H _) fun _ => .bind H (within_walk H _ _ _ _ _ _ _ _) fun _ => ?_
  exact .bind H (.compute H _) fun _ => .bind H (.compute H _) fun _ =>
    .change fun s u => H.place s u _ _

theorem within_lineTo (t : Turtle α) (x y : α) : Within R (lineTo t x y) :=
  .change fun s u => H.trans (H.stroke s u t t.x t.y x y) (H.place _ u x y)

/-- A move to a point is allowed for in every mode. -/
theorem within_moveTo (x y : α) : Within R (moveTo x y) := by
  refine .bind H (within_turtle H) fun t => .bind H (.get_bind fun c => .pure H c.scene) fun s => ?_
  cases s.mode with
  | wrap => exact .bind H (within_wrapTo H t x y) fun _ => within_touch H
  | fence =>
      exact .bind H (within_halfExtents H) fun ⟨_, _⟩ =>
        .bind H (within_lineTo H t _ _) fun _ => within_touch H
  | window => exact .bind H (within_lineTo H t x y) fun _ => within_touch H

/-- A new heading is allowed for: it is in normal form, or undefined. -/
theorem within_setHeading (angle : α) : Within R (setHeading angle) :=
  .compute_bind H fun _ hh =>
    .bind H (within_changeTurtle H fun s => s.adapts_turn hh) fun _ => within_touch H

theorem within_forward (distance : α) : Within R (forward distance) :=
  .bind H (within_turtle H) fun _ => .bind H (.compute H _) fun ⟨_, _⟩ => within_moveTo H _ _

theorem within_left (angle : α) : Within R (left angle) :=
  .bind H (within_turtle H) fun _ => .bind H (.compute H _) fun _ => within_setHeading H _

theorem within_right (angle : α) : Within R (right angle) :=
  .bind H (within_turtle H) fun _ => .bind H (.compute H _) fun _ => within_setHeading H _

theorem within_home : Within R (home : CanvasM α Unit) :=
  .bind H (within_moveTo H _ _) fun _ => within_setHeading H _

theorem within_setX (x : α) : Within R (setX x) :=
  .bind H (within_turtle H) fun _ => within_moveTo H _ _

theorem within_setY (y : α) : Within R (setY y) :=
  .bind H (within_turtle H) fun _ => within_moveTo H _ _

/-- A circle is allowed for. -/
theorem within_circle (radius : α) : Within R (circle radius) := by
  refine .bind H (within_turtle H) fun t => .change fun s u => ?_
  split
  · exact H.circle s u t.x t.y radius t.pen
  · exact H.touch s u

/-- The end of an arc is allowed for. -/
theorem within_endArc (t : Turtle α) (cx cy radius ex ey sweep : α) :
    Within R (endArc t cx cy radius ex ey sweep) := by
  refine .bind H (.compute H _) fun _ => .bind H (.compute H _) fun _ => ?_
  refine .bind H (.compute H _) fun _ => .bind H (.compute H _) fun _ => ?_
  refine .bind H (.change fun s u => H.place s u _ _) fun _ =>
    .bind H (.compute H _) fun _ => .compute_bind H fun h hh => ?_
  exact .change fun s u => H.trans (H.turtle s u _ (s.adapts_turn hh)) (H.touch _ u)

/-- An arc is allowed for: its centre and its start have been computed. -/
theorem within_arc (angle radius : α) : Within R (arc angle radius) := by
  refine .bind H (within_turtle H) fun t => .bind H (.compute H _) fun side => ?_
  refine .compute_bind H fun ⟨cx, cy⟩ hcentre => .bind H (.compute H _) fun start => ?_
  refine .bind H (.compute H _) fun sweep => .bind H (.compute H _) fun last => ?_
  refine .bind H (.compute H _) fun ⟨ex, ey⟩ => ?_
  dsimp only
  split
  · refine .compute_bind H fun first hfirst => ?_
    refine .bind H (.change fun s u => H.arc s u sweep t.pen hcentre hfirst) fun _ => ?_
    exact within_endArc H t cx cy _ ex ey sweep
  · exact within_endArc H t cx cy _ ex ey sweep

/-- Showing and hiding the turtle is allowed for. -/
theorem within_setVisible (visible : Bool) : Within R (setVisible visible : CanvasM α Unit) :=
  .bind H (within_changeTurtle H fun _ => .of_eq (fun _ => rfl) fun _ => rfl) fun _ =>
    within_touch H

theorem within_setMode (mode : EdgeMode) : Within R (setMode mode : CanvasM α Unit) :=
  .change fun s u => H.mode s u mode

end

/-- Speaking to another turtle is allowed for, and fails if a list is named. -/
theorem within_tell {R : Canvas α → Canvas α → Prop} (H : Motions R) (who : Value) :
    Within R (tell who : CanvasM α Unit) := by
  rw [tell]
  by_cases hlist : (nameOf who).isList = true
  · simp only [hlist]
    exact .throw H.toMoves _
  · simp only [hlist]
    exact .change fun s u => H.tell s u (nameOf who) (by simpa using hlist)

/-- A new width of the pen is at least one. -/
theorem within_setPenSize {R : Canvas Number → Canvas Number → Prop} (H : Moves R)
    (size : Number) : Within R (setPenSize size) :=
  within_changeTurtle H fun _ => ⟨fun _ _ => Number.le_max _ _, .inl fun _ => rfl⟩

/-! ## Steps -/

/-- An action that takes steps, and leaves the surface as it is. -/
abbrev Draws {β : Type} (m : CanvasM α β) : Prop :=
  Within (fun c d => c.scene.Steps d.scene ∧ d.surface = c.surface) m

/-- What turtles do, they do in steps. -/
theorem motions_steps :
    Motions fun c d : Canvas α => c.scene.Steps d.scene ∧ d.surface = c.surface where
  refl _ := ⟨.refl, rfl⟩
  trans h h' := ⟨h.1.trans h'.1, h'.2.trans h.2⟩
  turtle s _ f _ := ⟨.single (.turtle s f), rfl⟩
  line s _ x1 y1 x2 y2 pen := ⟨.single (.line s x1 y1 x2 y2 pen), rfl⟩
  circle s _ x y radius pen := ⟨.single (.circle s x y radius pen), rfl⟩
  arc s _ _ _ _ _ _ _ _ _ sweep pen hcentre hfirst := ⟨.single (.arc s sweep pen hcentre hfirst), rfl⟩
  touch s _ := ⟨.single (.touch s), rfl⟩
  tell s _ id _ := ⟨.single (.tell s id), rfl⟩
  mode s _ mode := ⟨.single (.mode s mode), rfl⟩

/-- A change that is a step draws. -/
theorem Draws.step {f : Scene α → Scene α} (hf : ∀ s : Scene α, s.Step (f s)) : Draws (change f) :=
  fun c => ⟨.single (hf c.scene), rfl⟩

/-- The end of a fill is a step, or two if a shape is filled. -/
theorem draws_endFill : Draws (endFill : CanvasM α Unit) := Draws.step .endFill

/-! ## Looking on -/

/-- Turtles, none of which is visible. -/
def unseen (ts : List (Value × Turtle α)) : List (Value × Turtle α) :=
  ts.map fun (id, t) => (id, { t with visible := false })

omit [Scalar α] in
/-- Turtles that are hidden twice are hidden. -/
theorem unseen_unseen (ts : List (Value × Turtle α)) : unseen (unseen ts) = unseen ts := by
  rw [unseen, unseen, List.map_map]
  rfl

omit [Scalar α] in
/-- Which turtles were visible makes no difference once they are hidden. -/
theorem unseen_restoreVisible (vs : List Bool) (ts : List (Value × Turtle α)) :
    unseen (restoreVisible vs ts) = unseen ts := by
  induction vs generalizing ts with
  | nil => rfl
  | cons v vs ih =>
      cases ts with
      | nil => rfl
      | cons p ts => exact congrArg (_ :: ·) (ih ts)

omit [Scalar α] in
/-- Turtles that are hidden can be shown as they were. -/
theorem restoreVisible_of_unseen {ts us : List (Value × Turtle α)}
    (h : unseen us = unseen ts) : restoreVisible (ts.map (·.2.visible)) us = ts := by
  induction ts generalizing us with
  | nil =>
      cases us with
      | nil => rfl
      | cons q us => cases h
  | cons p ts ih =>
      cases us with
      | nil => cases h
      | cons q us =>
          have hhead : (q.1, { q.2 with visible := false }) = (p.1, { p.2 with visible := false }) :=
            (List.cons.inj h).1
          have hshown : (q.1, { q.2 with visible := p.2.visible }) = p :=
            congrArg (fun r : Value × Turtle α => (r.1, { r.2 with visible := p.2.visible })) hhead
          show (q.1, { q.2 with visible := p.2.visible })
            :: restoreVisible (ts.map (·.2.visible)) us = p :: ts
          rw [hshown, ih (List.cons.inj h).2]

/-- A relation that allows, besides what the current turtle does, for what only
    changes how the drawing is seen. -/
structure Sights (R : Canvas α → Canvas α → Prop) : Prop extends Moves R where
  view : ∀ (s : Scene α) u (v : View α), R ⟨s, u⟩ ⟨{ s with view := v }, u⟩
  shown : ∀ (s : Scene α) u, R ⟨s, u⟩ ⟨{ s with dirty := false }, u⟩
  surface : ∀ (s : Scene α) u u', R ⟨s, u⟩ ⟨s, u'⟩

/-- A relation that allows, besides what turtles do, for what only changes how
    they and their drawing are seen. -/
structure Views (R : Canvas α → Canvas α → Prop) : Prop extends Motions R, Sights R where
  visible : ∀ (s : Scene α) u ts, unseen ts = unseen s.turtles →
    R ⟨s, u⟩ ⟨{ s with turtles := ts }, u⟩

section

variable {β : Type} {R : Canvas α → Canvas α → Prop} (H : Sights R)
include H

/-- A change of the view is allowed for. -/
theorem within_changeView (f : View α → Except ArithmeticFault (View α)) :
    Within R (changeView f) :=
  .get_bind fun _ => .bind H.toMoves (.compute H.toMoves _) fun v =>
    .change fun s u => H.view s u v

theorem within_centreView : Within R (centreView : CanvasM α Unit) :=
  .get_bind fun _ => .bind H.toMoves (within_changeView H _) fun _ => within_changeView H _

/-- Whatever happens on the surface is allowed for. -/
theorem within_onSurface (act : EStateM Fault (Surface α) β) : Within R (onSurface act) := by
  intro c
  rw [endOf_onSurface]
  exact H.surface c.scene c.surface _

/-- A redraw is allowed for. -/
theorem within_redraw : Within R (redraw : CanvasM α Unit) :=
  .bind H.toMoves (.change H.shown) fun _ => .bind H.toMoves (within_centreView H) fun _ =>
    .get_bind fun _ => within_onSurface H _

/-- A change that is shown at once. -/
theorem within_redraw_after {m : CanvasM α Unit} (hm : Within R m) :
    Within R (m >>= fun _ => redraw) :=
  .bind H.toMoves hm fun _ => within_redraw H

theorem within_pan (dx dy : α) : Within R (pan dx dy) :=
  .bind H.toMoves (within_changeView H _) fun _ => within_redraw_after H (within_changeView H _)

theorem within_resetView : Within R (resetView : CanvasM α Unit) :=
  within_redraw_after H (.change fun s u => H.view s u s.view.reset)

/-- Asking where a pixel is on the canvas is allowed for. -/
theorem within_coordinatesAt (px py : α) : Within R (coordinatesAt px py) := by
  refine .bind H.toMoves (within_centreView H) fun _ =>
    .bind H.toMoves (.get_bind fun c => .pure H.toMoves c.scene) fun s => ?_
  refine .bind H.toMoves (.compute H.toMoves _) fun _ => ?_
  refine .bind H.toMoves (.compute H.toMoves _) fun _ => ?_
  exact .bind H.toMoves (.compute H.toMoves _) fun _ => .pure H.toMoves _

omit H in
/-- The turtles are hidden for the picture, and seen again however that ends. -/
theorem within_savePicture (H : Views R) (path : Text) : Within R (savePicture path : CanvasM α Unit) := by
  refine .bind H.toMoves (.get_bind fun c => .pure H.toMoves c.scene) fun s => ?_
  have hhide : Within R (change fun s' : Scene α => { s' with turtles := unseen s'.turtles }) :=
    .change fun s' u => H.visible s' u _ (unseen_unseen s'.turtles)
  have hback : Within R (change fun s' : Scene α =>
      { s' with turtles := restoreVisible (s.turtles.map (·.2.visible)) s'.turtles }) :=
    .change fun s' u => H.visible s' u _ (unseen_restoreVisible _ s'.turtles)
  refine .wrapUp H.toMoves ?_ (within_redraw_after H.toSights hback)
    (within_redraw_after H.toSights hback)
  exact .bind H.toMoves hhide fun _ => .bind H.toMoves (within_redraw H.toSights) fun _ =>
    within_onSurface H.toSights _

end

end Canvas

end TurtleLogo
