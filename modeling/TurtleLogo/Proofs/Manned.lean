import TurtleLogo.Proofs.Roster
import TurtleLogo.Proofs.Sound

/-! # The current turtle

    Wherever a session is, somebody is current: a turtle that is there, under a
    name that is no list, and of which nothing is undefined that has not been told
    apart from everything else undefined (`Underway.manned`).  The first two are
    kept by all that is done with turtles, the last comes about anew whenever
    something has happened on the canvas.

    `Canvas.Rests` says of two canvases that they have the same turtles; showing
    the scene leaves the turtles alone (`rests_redraw`), and so does saving a
    picture, which hides them for a while (`rests_savePicture`). -/

namespace TurtleLogo

/-- What cleans up in the same way after a value and after a fault is the last to
    be done. -/
theorem endOf_wrapUp_same {σ α : Type} (m : EStateM Fault σ α) (done : EStateM Fault σ Unit)
    (s : σ) : endOf (wrapUp m done done s) = endOf (done (endOf (m s))) := by
  cases h : m s with
  | ok a t => rw [endOf_wrapUp_ok h, endOf_ok]
  | error f t => rw [endOf_wrapUp_error h, endOf_error]

/-! ## Being there -/

/-- The current turtle is there, and its name is no list. -/
structure Scene.Led (s : Scene Number) : Prop where
  name : s.current.isList = false
  turtle : ∃ t, s.turtle? = some t

namespace Scene

variable {s t : Scene Number}

/-- That somebody is current has to do with the names only. -/
theorem Led.of_ids (h : s.Led) (hids : t.ids = s.ids) (hcurrent : t.current = s.current) :
    t.Led := by
  refine ⟨by rw [hcurrent]; exact h.name, ?_⟩
  rw [exists_turtle_iff, hids, hcurrent]
  exact exists_turtle_iff.1 h.turtle

end Scene

namespace Canvas

/-- All that is done with turtles leaves somebody current. -/
theorem ofTurtles_led : OfTurtles fun c d => c.scene.Led → d.scene.Led where
  same hturtles hcurrent h := h.of_ids (congrArg (List.map Prod.fst) hturtles) hcurrent
  trans h h' := h' ∘ h
  turtle s _ f _ h := h.of_ids (s.ids_mapTurtle f) rfl
  tell s _ _ hname _ := ⟨hname, s.exists_turtle_tell hname⟩
  visible _ _ _ hts h := h.of_ids (names_of_unseen hts) rfl
  clear s _ h := h.of_ids s.ids_clear rfl

/-! ## Showing the turtles -/

/-- The same turtles, of which the same one is current. -/
def Rests (c d : Canvas Number) : Prop :=
  d.scene.turtles = c.scene.turtles ∧ d.scene.current = c.scene.current

theorem Rests.trans {c d e : Canvas Number} (h : c.Rests d) (h' : d.Rests e) : c.Rests e :=
  ⟨h'.1.trans h.1, h'.2.trans h.2⟩

/-- Actions in a row leave the turtles if each does. -/
theorem rests_bind {β γ : Type} {m : CanvasM Number β} {k : β → CanvasM Number γ}
    (hm : Within Rests m) (hk : ∀ b, Within Rests (k b)) : Within Rests (m >>= k) := fun c =>
  endOf_bind (R := Rests) Rests.trans (hm c) fun b d _ => hk b d

/-- What happens on the surface leaves the turtles. -/
theorem rests_onSurface {β : Type} (act : EStateM Fault (Surface Number) β) :
    Within Rests (onSurface act) := by
  intro c
  rw [endOf_onSurface]
  exact ⟨rfl, rfl⟩

/-- A change of the view leaves the turtles. -/
theorem rests_changeView (f : View Number → Except ArithmeticFault (View Number)) :
    Within Rests (changeView f) := by
  refine .get_bind fun c => ?_
  cases f c.scene.view with
  | ok v => exact fun _ => ⟨rfl, rfl⟩
  | error f => exact fun _ => ⟨rfl, rfl⟩

/-- Showing the scene leaves the turtles alone. -/
theorem rests_redraw : Within Rests (redraw : CanvasM Number Unit) := by
  have hcentre : Within Rests (centreView : CanvasM Number Unit) :=
    .get_bind fun _ => rests_bind (rests_changeView _) fun _ => rests_changeView _
  exact rests_bind (.change fun _ _ => ⟨rfl, rfl⟩) fun _ => rests_bind hcentre fun _ =>
    .get_bind fun _ => rests_onSurface _

/-- Saving a picture leaves the turtles as they were, even if it fails. -/
theorem rests_savePicture (path : Text) : Within Rests (savePicture path : CanvasM Number Unit) := by
  intro c
  let hidden : CanvasM Number Unit := do
    change fun s => { s with turtles := unseen s.turtles }
    redraw
    onSurface (Surface.save path)
  let back : CanvasM Number Unit := do
    change fun s => { s with turtles := restoreVisible (c.scene.turtles.map (·.2.visible)) s.turtles }
    redraw
  have hhidden : Rests ⟨{ c.scene with turtles := unseen c.scene.turtles }, c.surface⟩
      (endOf (hidden c)) :=
    rests_bind rests_redraw (fun _ => rests_onSurface _)
      ⟨{ c.scene with turtles := unseen c.scene.turtles }, c.surface⟩
  show c.Rests (endOf (wrapUp hidden back back c))
  rw [endOf_wrapUp_same]
  generalize endOf (hidden c) = d at hhidden
  have hback := rests_redraw ⟨{ d.scene with
    turtles := restoreVisible (c.scene.turtles.map (·.2.visible)) d.scene.turtles }, d.surface⟩
  have hshown : restoreVisible (c.scene.turtles.map (·.2.visible)) d.scene.turtles
      = c.scene.turtles := by
    rw [hhidden.1]
    exact restoreVisible_of_unseen (unseen_unseen _)
  exact ⟨hback.1.trans hshown, hback.2.trans hhidden.2⟩

end Canvas

/-! ## Marks -/

/-- Nothing about a turtle is undefined and has no mark. -/
def Turtle.Marked (t : Turtle Number) : Prop :=
  (World.isUnmarked t.x || World.isUnmarked t.y || World.isUnmarked t.heading) = false

namespace World

/-- A number that has been marked is not unmarked. -/
theorem isUnmarked_mark (w : World) (n : Number) : isUnmarked (w.mark n).1 = false := by
  unfold mark
  split
  · rfl
  · rename_i hmarked
    unfold isUnmarked
    split
    · rename_i hnan
      exact (hmarked hnan).elim
    · rfl

/-- Marking the current turtle marks it. -/
theorem marked_markTurtle (w : World) {t : Turtle Number}
    (ht : w.markTurtle.canvas.scene.turtle? = some t) : t.Marked := by
  rw [markTurtle] at ht
  cases hturtle : w.canvas.scene.turtle? with
  | none =>
      rw [hturtle] at ht
      cases hturtle.symm.trans ht
  | some u =>
      rw [hturtle] at ht
      dsimp only at ht
      split at ht
      · rw [Canvas.turtle?_mapTurtle] at ht
        obtain ⟨v, -, rfl⟩ := Option.map_eq_some_iff.1 ht
        rw [Turtle.Marked, isUnmarked_mark, isUnmarked_mark, isUnmarked_mark]
        rfl
      · rename_i hmarked
        cases hturtle.symm.trans ht
        exact Bool.eq_false_iff.2 hmarked

/-- A turtle that is marked already stays as it is. -/
theorem markTurtle_of_marked {w : World}
    (h : ∀ t, w.canvas.scene.turtle? = some t → t.Marked) : w.markTurtle = w := by
  rw [markTurtle]
  cases hturtle : w.canvas.scene.turtle? with
  | none => rfl
  | some t => exact if_neg (Bool.eq_false_iff.1 (h t hturtle))

/-- Somebody is current, and is marked. -/
structure Manned (w : World) : Prop where
  led : w.canvas.scene.Led
  marked : ∀ {t}, w.canvas.scene.turtle? = some t → t.Marked

end World

namespace Session

open Canvas (Within)

/-- That somebody is current, and is marked. -/
def manning : Invariant where
  holds w := w.Manned
  aside {w v} _ hturtles hcurrent h := by
    refine ⟨Canvas.ofTurtles_led.same hturtles hcurrent h.led, fun {t} ht => ?_⟩
    rw [Scene.turtle?, hturtles, hcurrent] at ht
    exact h.marked ht
  defines _ _ _ h := ⟨h.led, h.marked⟩

/-- Whatever happens on the canvas, whoever is current is marked afterwards. -/
theorem manned_onCanvas {β : Type} {act : CanvasM Number β} {w : World}
    (h : (endOf (act w.canvas)).scene.Led) : (endOf (onCanvas act w)).Manned := by
  rw [endOf_onCanvas_eq]
  exact ⟨World.markTurtle_within Canvas.ofTurtles_led.views.toMoves
    { w with canvas := endOf (act w.canvas) } h, World.marked_markTurtle _⟩

/-- Whoever is current when a drawing starts over is the first turtle, as it is
    made. -/
theorem manned_reset {w : World} {c : Canvas Number}
    (h : w.canvas = endOf ((Canvas.reset : CanvasM Number Unit) c)) : w.Manned := by
  have hrests : Canvas.Rests ⟨Scene.new c.scene.view, c.surface⟩ w.canvas := by
    rw [h]
    exact Canvas.rests_redraw _
  have hnew : (Scene.new c.scene.view).Led := ⟨rfl, Turtle.new, rfl⟩
  refine ⟨Canvas.ofTurtles_led.same hrests.1 hrests.2 hnew, fun {t} ht => ?_⟩
  rw [Scene.turtle?, hrests.1, hrests.2] at ht
  cases ht
  rfl

/-- Wherever a session is, somebody is current, and is marked. -/
theorem Underway.manned {surface : Surface Number} {w : World} (h : Underway surface w) :
    w.Manned := by
  refine Underway.invariant manning Canvas.ofTurtles_led (fun hact w _ h => ?_) ?_ ?_ h
  · exact manned_onCanvas (hact w.canvas h.led)
  · intro w _ _
    let start : World := { w with store := .empty, printed := #[] }
    show (endOf (onCanvas Canvas.reset start)).Manned
    have hreset : { start with canvas := endOf (Canvas.reset start.canvas) : World }.Manned :=
      manned_reset rfl
    exact manned_onCanvas hreset.led
  · intro pacer host w hnew
    obtain ⟨c, hc, hw⟩ := Except.bind_eq_ok hnew
    obtain ⟨view, -, hreset⟩ := Canvas.reset_of_new hc
    cases hw
    exact manned_reset (congrArg endOf hreset).symm

end Session

end TurtleLogo
