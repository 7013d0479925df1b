import TurtleLogo.Session.Run
import TurtleLogo.Proofs.Ending

/-! # What does not depend on the limits of a run

    Two faults say that a limit of the run was met: the depth to which it may
    nest, and the passes that one loop may make.  Only expressions, blocks and
    loops meet them.  `Unlimited m` says that the computation `m` does not, and
    what the turtle and the pacer do is unlimited. -/

namespace TurtleLogo

/-- A fault that says that a limit of the run was met. -/
def Fault.ofLimits : Fault → Bool
  | .depthExceeded | .outOfPatience => true
  | _ => false

/-- A computation that meets no limit of the run. -/
def Unlimited {σ β : Type} (m : EStateM Fault σ β) : Prop :=
  ∀ s f t, m s = .error f t → f.ofLimits = false

namespace Unlimited

variable {σ β γ : Type}

/-- A value alone meets no limit. -/
theorem pure (b : β) : Unlimited (Pure.pure b : EStateM Fault σ β) := by
  intro s f t h
  cases h

/-- A fault that speaks of no limit can be thrown. -/
theorem throw {f : Fault} (hf : f.ofLimits = false) :
    Unlimited (MonadExcept.throw f : EStateM Fault σ β) := by
  intro s g t h
  cases h
  exact hf

/-- A change of the state meets no limit. -/
theorem modify (g : σ → σ) : Unlimited (modify g : EStateM Fault σ PUnit) := by
  intro s f t h
  cases h

/-- Two computations in a row are unlimited if both are. -/
theorem bind {m : EStateM Fault σ β} {k : β → EStateM Fault σ γ} (hm : Unlimited m)
    (hk : ∀ b, Unlimited (k b)) : Unlimited (m >>= k) := by
  intro s f u h
  cases hms : m s with
  | ok b t =>
      rw [bind_of_ok hms] at h
      exact hk b t f u h
  | error g t =>
      rw [bind_of_error hms] at h
      cases h
      exact hm s f u hms

/-- What goes on with the state is unlimited if it is at every state. -/
theorem get_bind {k : σ → EStateM Fault σ γ} (hk : ∀ s, Unlimited (k s)) :
    Unlimited (get >>= k) :=
  fun s f t h => hk s s f t h

/-- Arithmetic has no faults that speak of a limit. -/
theorem compute (r : Except ArithmeticFault β) : Unlimited (compute r : EStateM Fault σ β) := by
  cases r with
  | ok b => exact pure b
  | error e => exact throw rfl

/-- Work with something to do after it is unlimited if all of its parts are. -/
theorem wrapUp {m : EStateM Fault σ β} {done failed : EStateM Fault σ Unit} (hm : Unlimited m)
    (hdone : Unlimited done) (hfailed : Unlimited failed) : Unlimited (wrapUp m done failed) := by
  intro s f u h
  cases hms : m s with
  | ok b t =>
      cases hd : done t with
      | ok _ v =>
          rw [wrapUp_ok_ok hms hd] at h
          cases h
      | error g v =>
          rw [wrapUp_ok_error hms hd] at h
          cases h
          exact hdone t f u hd
  | error g t =>
      cases hd : failed t with
      | ok _ v =>
          rw [wrapUp_error_ok hms hd] at h
          cases h
          exact hm s f t hms
      | error e v =>
          rw [wrapUp_error_error hms hd] at h
          cases h
          exact hfailed t f u hd

/-- A choice is unlimited if both sides are. -/
theorem ite {b : Prop} [Decidable b] {m n : EStateM Fault σ β} (hm : Unlimited m)
    (hn : Unlimited n) : Unlimited (if b then m else n) := by
  by_cases h : b
  · rw [if_pos h]
    exact hm
  · rw [if_neg h]
    exact hn

end Unlimited

/-! ## The pacer -/

namespace Pacer

/-- Looking for a stop request meets no limit. -/
theorem unlimited_look : Unlimited look :=
  .get_bind fun _ => .ite (.pure _) (.bind (.modify _) fun _ => .pure _)

/-- A pause meets no limit, however long it is. -/
theorem unlimited_pause (ms : Number) : Unlimited (pause ms) := by
  refine .ite (.pure _) (.bind unlimited_look fun stop => .ite (.pure _) (.get_bind fun p => ?_))
  exact .bind (.compute _) fun _ => .ite (.bind (.throw rfl) fun _ => .modify _) (.modify _)

/-- The pause after a statement meets no limit. -/
theorem unlimited_checkpoint : Unlimited checkpoint :=
  .get_bind fun _ => .ite (unlimited_pause _) (.pure _)

end Pacer

/-! ## The canvas -/

/-- A surface that cannot draw a call says so with a fault of arithmetic. -/
theorem Surface.unlimited_draw (call : Call Number) : Unlimited (draw call) := by
  refine .get_bind fun s => .bind (.compute _) fun mark => ?_
  cases mark with
  | none => exact .pure _
  | some m => exact .modify _

/-- A picture that cannot be saved has nothing to do with limits. -/
theorem Surface.unlimited_save (path : Text) :
    Unlimited (save path : EStateM Fault (Surface Number) Unit) := by
  refine .get_bind fun s => ?_
  cases s.kind with
  | recording => exact .modify fun _ => _
  | plain => exact .throw rfl
  | raster =>
      dsimp only
      cases s.folder.target (Folder.pictureName path) with
      | ok _ => exact .modify fun _ => _
      | error _ => exact .throw rfl

namespace Canvas

/-- The shapes of a drawing are drawn one by one, each without a limit. -/
theorem unlimited_drawShapes (v : View Number) (background : Text) (ss : List (Shape Number)) :
    Unlimited (drawShapes v background ss) := by
  induction ss with
  | nil => exact .pure _
  | cons s ss ih => exact .bind (.compute _) fun _ => .bind (Surface.unlimited_draw _) fun _ => ih

/-- Drawing the turtles meets no limits. -/
theorem unlimited_drawTurtles (v : View Number) (ts : List (Turtle Number)) :
    Unlimited (drawTurtles v ts) := by
  induction ts with
  | nil => exact .pure _
  | cons t ts ih =>
      refine .ite (.bind (.compute _) fun _ => ?_) ih
      exact .bind (Surface.unlimited_draw _) fun _ => ih

/-- What a surface does without a limit, its canvas does. -/
theorem unlimited_onSurface {β : Type} {act : EStateM Fault (Surface Number) β}
    (h : Unlimited act) : Unlimited (onSurface act) := by
  rintro ⟨s, u⟩ f d hrun
  cases hact : act u with
  | ok b u' =>
      simp only [onSurface, hact] at hrun
      cases hrun
  | error g u' =>
      simp only [onSurface, hact] at hrun
      cases hrun
      exact h u f u' hact

/-- A change of the drawing meets no limit. -/
theorem unlimited_change (g : Scene Number → Scene Number) : Unlimited (change g) := .modify _

/-- What goes on with the drawing is unlimited if it is for every drawing. -/
theorem unlimited_scene_bind {β : Type} {k : Scene Number → CanvasM Number β}
    (hk : ∀ s, Unlimited (k s)) : Unlimited (scene? >>= k) :=
  .bind (.get_bind fun _ => .pure _) hk

/-- A new view is found by arithmetic, which meets no limit. -/
theorem unlimited_changeView (f : View Number → Except ArithmeticFault (View Number)) :
    Unlimited (changeView f) :=
  .get_bind fun _ => .bind (.compute _) fun _ => unlimited_change _

/-- Finding the centre of the surface meets no limit. -/
theorem unlimited_centreView : Unlimited (centreView : CanvasM Number Unit) :=
  .get_bind fun _ => .bind (unlimited_changeView _) fun _ => unlimited_changeView _

/-- Drawing everything again meets no limit. -/
theorem unlimited_redraw : Unlimited (redraw : CanvasM Number Unit) := by
  refine .bind (unlimited_change _) fun _ => .bind unlimited_centreView fun _ => ?_
  refine .get_bind fun c => unlimited_onSurface (.bind (Surface.unlimited_draw _) fun _ => ?_)
  exact .bind (unlimited_drawShapes _ _ _) fun _ => unlimited_drawTurtles _ _

/-- The current turtle is found, or is not there, without a limit. -/
theorem unlimited_turtle : Unlimited (turtle : CanvasM Number (Turtle Number)) := by
  refine unlimited_scene_bind fun s => ?_
  cases s.turtle? with
  | some t => exact .pure t
  | none => exact .throw rfl

/-- A change of the current turtle meets no limit. -/
theorem unlimited_changeTurtle (g : Turtle Number → Turtle Number) : Unlimited (changeTurtle g) :=
  .bind unlimited_turtle fun _ => unlimited_change _

/-- Choosing a turtle meets no limit; a list is refused with a fault of its own. -/
theorem unlimited_tell (who : Value) : Unlimited (tell who : CanvasM Number Unit) :=
  .ite (.bind (.throw rfl) fun _ => unlimited_change _) (unlimited_change _)

/-! ### Motion -/

/-- The size of the visible area is found without a limit. -/
theorem unlimited_halfExtents : Unlimited (halfExtents : CanvasM Number (Point Number)) :=
  .get_bind fun _ => .compute _

/-- The hops of a walk are counted, so no limit is met on the way. -/
theorem unlimited_walk (t : Turtle Number) (hopX hopY halfWidth halfHeight : Number) (steps : Nat)
    (x y : Number) : Unlimited (walk t hopX hopY halfWidth halfHeight steps x y) := by
  induction steps generalizing x y with
  | zero => exact .pure _
  | succ steps ih =>
      refine .bind (.compute _) fun nx => .bind (.compute _) fun ny => ?_
      refine .bind (unlimited_change _) fun _ => .bind (.compute _) fun wx => ?_
      exact .bind (.compute _) fun wy => ih wx wy

/-- A move around the edges meets no limit. -/
theorem unlimited_wrapTo (t : Turtle Number) (x y : Number) : Unlimited (wrapTo t x y) := by
  refine .bind unlimited_halfExtents fun half => .bind (.compute _) fun dx => ?_
  refine .bind (.compute _) fun dy => .bind (.compute _) fun steps => ?_
  refine .bind (.compute _) fun hopX => .bind (.compute _) fun hopY => ?_
  refine .bind (unlimited_walk _ _ _ _ _ _ _ _) fun _ => .bind (.compute _) fun wx => ?_
  exact .bind (.compute _) fun wy => unlimited_change _

/-- A move meets no limit, whatever happens at the edge. -/
theorem unlimited_moveTo (x y : Number) : Unlimited (moveTo x y) := by
  refine .bind unlimited_turtle fun t => unlimited_scene_bind fun s => ?_
  dsimp only
  split
  · exact .bind (unlimited_wrapTo t x y) fun _ => unlimited_change _
  · exact .bind unlimited_halfExtents fun _ => .bind (unlimited_change _) fun _ =>
      unlimited_change _
  · exact .bind (unlimited_change _) fun _ => unlimited_change _

/-- Turning to a heading meets no limit. -/
theorem unlimited_setHeading (angle : Number) : Unlimited (setHeading angle) :=
  .bind (.compute _) fun _ => .bind (unlimited_changeTurtle _) fun _ => unlimited_change _

/-- Going forward meets no limit. -/
theorem unlimited_forward (distance : Number) : Unlimited (forward distance) :=
  .bind unlimited_turtle fun _ => .bind (.compute _) fun _ => unlimited_moveTo _ _

/-- Turning left meets no limit. -/
theorem unlimited_left (angle : Number) : Unlimited (left angle) :=
  .bind unlimited_turtle fun _ => .bind (.compute _) fun _ => unlimited_setHeading _

/-- Turning right meets no limit. -/
theorem unlimited_right (angle : Number) : Unlimited (right angle) :=
  .bind unlimited_turtle fun _ => .bind (.compute _) fun _ => unlimited_setHeading _

/-- Going home meets no limit. -/
theorem unlimited_home : Unlimited (home : CanvasM Number Unit) :=
  .bind (unlimited_moveTo _ _) fun _ => unlimited_setHeading _

/-- A move along the first axis meets no limit. -/
theorem unlimited_setX (x : Number) : Unlimited (setX x) :=
  .bind unlimited_turtle fun _ => unlimited_moveTo _ _

/-- A move along the second axis meets no limit. -/
theorem unlimited_setY (y : Number) : Unlimited (setY y) :=
  .bind unlimited_turtle fun _ => unlimited_moveTo _ _

/-- A circle meets no limit. -/
theorem unlimited_circle (radius : Number) : Unlimited (circle radius) :=
  .bind unlimited_turtle fun _ => unlimited_change _

/-- Going to the end of an arc meets no limit. -/
theorem unlimited_endArc (t : Turtle Number) (cx cy radius ex ey sweep : Number) :
    Unlimited (endArc t cx cy radius ex ey sweep) := by
  refine .bind (.compute _) fun rx => .bind (.compute _) fun x => .bind (.compute _) fun ry => ?_
  refine .bind (.compute _) fun y => .bind (unlimited_change _) fun _ => ?_
  exact .bind (.compute _) fun turned => .bind (.compute _) fun h => unlimited_change _

/-- An arc meets no limit. -/
theorem unlimited_arc (angle radius : Number) : Unlimited (arc angle radius) := by
  refine .bind unlimited_turtle fun t => .bind (.compute _) fun side => ?_
  refine .bind (.compute _) fun centre => .bind (.compute _) fun start => ?_
  refine .bind (.compute _) fun sweep => .bind (.compute _) fun last => ?_
  refine .bind (.compute _) fun unit => .ite (.bind (.compute _) fun first => ?_)
    (unlimited_endArc _ _ _ _ _ _ _)
  exact .bind (unlimited_change _) fun _ => unlimited_endArc _ _ _ _ _ _ _

/-! ### Fills, pen and screen -/

/-- Beginning to fill meets no limit. -/
theorem unlimited_beginFill : Unlimited (beginFill : CanvasM Number Unit) :=
  .bind unlimited_turtle fun _ => unlimited_change _

/-- A new background meets no limit. -/
theorem unlimited_setBackground (color : Text) :
    Unlimited (setBackground color : CanvasM Number Unit) :=
  .bind (unlimited_change _) fun _ => unlimited_redraw

/-- A new rule for the edge meets no limit. -/
theorem unlimited_setMode (mode : EdgeMode) : Unlimited (setMode mode : CanvasM Number Unit) :=
  unlimited_change _

/-- Showing and hiding the turtle meets no limit. -/
theorem unlimited_setVisible (visible : Bool) :
    Unlimited (setVisible visible : CanvasM Number Unit) :=
  .bind (unlimited_changeTurtle _) fun _ => unlimited_change _

/-- Clearing the screen meets no limit. -/
theorem unlimited_clearScreen : Unlimited (clearScreen : CanvasM Number Unit) :=
  .bind (unlimited_change _) fun _ => unlimited_redraw

/-- Cleaning the drawing meets no limit. -/
theorem unlimited_clean : Unlimited (clean : CanvasM Number Unit) :=
  .bind (unlimited_change _) fun _ => unlimited_redraw

/-! ### What people do at a window -/

/-- Zooming in meets no limit. -/
theorem unlimited_zoomIn : Unlimited (zoomIn : CanvasM Number Unit) :=
  .bind (unlimited_changeView _) fun _ => unlimited_redraw

/-- Zooming out meets no limit. -/
theorem unlimited_zoomOut : Unlimited (zoomOut : CanvasM Number Unit) :=
  .bind (unlimited_changeView _) fun _ => unlimited_redraw

/-- Moving the view meets no limit. -/
theorem unlimited_pan (dx dy : Number) : Unlimited (pan dx dy) :=
  .bind (unlimited_changeView _) fun _ => .bind (unlimited_changeView _) fun _ => unlimited_redraw

/-- Resetting the view meets no limit. -/
theorem unlimited_resetView : Unlimited (resetView : CanvasM Number Unit) :=
  .bind (unlimited_change _) fun _ => unlimited_redraw

/-- Reading off coordinates meets no limit. -/
theorem unlimited_coordinatesAt (px py : Number) : Unlimited (coordinatesAt px py) :=
  .bind unlimited_centreView fun _ => unlimited_scene_bind fun _ => .bind (.compute _) fun _ =>
    .bind (.compute _) fun _ => .bind (.compute _) fun _ => .pure _

/-- Saving a picture meets no limit. -/
theorem unlimited_savePicture (path : Text) :
    Unlimited (savePicture path : CanvasM Number Unit) := by
  refine unlimited_scene_bind fun s => ?_
  have hback := (unlimited_change fun s' : Scene Number =>
    { s' with turtles := restoreVisible (s.turtles.map (·.2.visible)) s'.turtles }).bind
      fun _ => unlimited_redraw
  refine .wrapUp (.bind (unlimited_change _) fun _ => .bind unlimited_redraw fun _ => ?_)
    hback hback
  exact unlimited_onSurface (Surface.unlimited_save path)

end Canvas

end TurtleLogo
