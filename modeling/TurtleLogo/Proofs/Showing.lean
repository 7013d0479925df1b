import TurtleLogo.Proofs.Course
import TurtleLogo.Proofs.Outline
import TurtleLogo.Proofs.Picture

/-! # Drawings that can be shown

    Programs put numbers of any size into a drawing, and a replay adds them to
    the centre of the view, which is a real.  So a drawing can be shown exactly
    if reals can hold its coordinates and its fills can be traced
    (`Scene.Showable`).

    * through the first view of a canvas, the picture of a scene can be found
      exactly if the scene can be shown (`picture_iff`);
    * no program changes the view, and every arc it draws has been placed
      (`Undisturbed.changes`);
    * so whatever programs have been run, a replay succeeds exactly if the
      drawing can be shown (`redraw_iff_showable`). -/

namespace TurtleLogo

open Relation

/-! ## Computations that succeed -/

/-- Two computations in a row succeed exactly if the first does and then the second. -/
theorem Except.exists_bind_iff {ε α β : Type} {m : Except ε α} {k : α → Except ε β} :
    (∃ b, (m >>= k) = .ok b) ↔ ∃ a, m = .ok a ∧ ∃ b, k a = .ok b := by
  constructor
  · rintro ⟨b, h⟩
    obtain ⟨a, ha, hb⟩ := Except.bind_eq_ok h
    exact ⟨a, ha, b, hb⟩
  · rintro ⟨a, rfl, b, hb⟩
    exact ⟨b, hb⟩

/-- A computation for each of several things succeeds exactly if each does. -/
theorem Except.mapM_ok_iff {ε α β : Type} {f : α → Except ε β} (xs : List α) :
    (∃ ys, xs.mapM f = .ok ys) ↔ ∀ x ∈ xs, ∃ y, f x = .ok y := by
  induction xs with
  | nil => exact ⟨fun _ x hx => absurd hx List.not_mem_nil, fun _ => ⟨[], rfl⟩⟩
  | cons x xs ih =>
      rw [List.mapM_cons, Except.exists_bind_iff, List.forall_mem_cons, ← ih]
      constructor
      · rintro ⟨y, hy, hys⟩
        obtain ⟨ys, hys, -⟩ := Except.exists_bind_iff.1 hys
        exact ⟨⟨y, hy⟩, ys, hys⟩
      · rintro ⟨⟨y, hy⟩, ys, hys⟩
        exact ⟨y, hy, Except.exists_bind_iff.2 ⟨ys, hys, _, rfl⟩⟩

namespace Number

/-- An operation on a real and a number succeeds exactly if reals can hold the
    number. -/
theorem combine_right_iff {f : ℤ → ℤ → ℤ} {g : Binary64 → Binary64 → Binary64} {x : Binary64}
    {a : Number} : (∃ r, combine f g (.real x) a = .ok r) ↔ a.Fits := by
  constructor
  · rintro ⟨r, h⟩
    obtain ⟨y, hy, -⟩ := combine_right_ok h
    exact ⟨y, hy⟩
  · rintro ⟨y, hy⟩
    exact ⟨_, combine_right hy⟩

/-- Zooming by one fails for no number, and makes none too big. -/
theorem mul_one_ok (n : Number) : ∃ m, n.mul (.int 1) = .ok m ∧ (m.Fits ↔ n.Fits) := by
  cases n with
  | int n => exact ⟨.int (n * 1), rfl, by rw [mul_one]⟩
  | real x => exact ⟨_, combine_right rfl, ⟨fun _ => fits_real _, fun _ => fits_real _⟩⟩

/-- Adding zero to a number succeeds, and reals can hold the sum if they can hold
    the number. -/
theorem add_zero_ok (n : Number) : ∃ m, n.add (.int 0) = .ok m ∧ (m.Fits ↔ n.Fits) := by
  cases n with
  | int n => exact ⟨.int (n + 0), rfl, by rw [add_zero]⟩
  | real x => exact ⟨_, combine_right rfl, ⟨fun _ => fits_real _, fun _ => fits_real _⟩⟩

end Number

/-! ## The first view -/

/-- A view through which one looks first: from a place in the middle, without
    zoom, and not moved. -/
structure View.First (v : View Number) : Prop where
  centerX : ∃ x, v.centerX = .real x
  centerY : ∃ y, v.centerY = .real y
  zoom : v.zoom = .int 1
  panX : v.panX = .int 0
  panY : v.panY = .int 0

namespace View.First

variable {v : View Number} (hv : v.First)

include hv

/-- A point has a place on the canvas exactly if reals can hold its
    coordinates. -/
theorem toCanvas_iff (x y : Number) : (∃ p, v.toCanvas x y = .ok p) ↔ x.Fits ∧ y.Fits := by
  obtain ⟨cx, hcx⟩ := hv.centerX
  obtain ⟨cy, hcy⟩ := hv.centerY
  obtain ⟨dx, hdx, hfitx⟩ := x.add_zero_ok
  obtain ⟨sx, hsx, hfitx'⟩ := dx.mul_one_ok
  obtain ⟨dy, hdy, hfity⟩ := y.add_zero_ok
  obtain ⟨sy, hsy, hfity'⟩ := dy.mul_one_ok
  have hplace : v.toCanvas x y = (do
      let px ← Number.add (.real cx) sx
      let py ← Number.sub (.real cy) sy
      .ok (px, py)) := by
    show (x.add v.panX >>= fun dx => dx.mul v.zoom >>= fun sx => v.centerX.add sx >>= fun px =>
      y.add v.panY >>= fun dy => dy.mul v.zoom >>= fun sy => v.centerY.sub sy >>= fun py =>
        .ok (px, py)) = _
    rw [hv.panX, hv.panY, hv.zoom, hcx, hcy, hdx, hdy]
    show (dx.mul (.int 1) >>= fun sx => Number.add (.real cx) sx >>= fun px =>
      dy.mul (.int 1) >>= fun sy => Number.sub (.real cy) sy >>= fun py => .ok (px, py)) = _
    rw [hsx, hsy]
    rfl
  -- the centre is a real, and what is added to a real must fit
  rw [hplace, Except.exists_bind_iff, ← hfitx, ← hfitx', ← hfity, ← hfity']
  constructor
  · rintro ⟨px, hpx, hpy⟩
    obtain ⟨py, hpy, -⟩ := Except.exists_bind_iff.1 hpy
    exact ⟨Number.combine_right_iff.1 ⟨px, hpx⟩, Number.combine_right_iff.1 ⟨py, hpy⟩⟩
  · rintro ⟨hx, hy⟩
    obtain ⟨px, hpx⟩ := Number.combine_right_iff.2 hx
    obtain ⟨py, hpy⟩ := Number.combine_right_iff.2 hy
    exact ⟨px, hpx, Except.exists_bind_iff.2 ⟨py, hpy, _, rfl⟩⟩

/-- Points have places on the canvas exactly if reals can hold their coordinates. -/
theorem placesOnto_iff (ps sofar : List (Point Number)) :
    (∃ qs, v.placesOnto ps sofar = .ok qs) ↔ Placed ps := by
  induction ps generalizing sofar with
  | nil => exact ⟨fun _ => placed_nil, fun _ => ⟨sofar, rfl⟩⟩
  | cons p ps ih =>
      rw [View.placesOnto, Except.exists_bind_iff, Placed, List.forall_mem_cons,
        ← hv.toCanvas_iff]
      constructor
      · rintro ⟨q, hq, hqs⟩
        exact ⟨⟨q, hq⟩, (ih _).1 hqs⟩
      · rintro ⟨⟨q, hq⟩, hps⟩
        exact ⟨q, hq, (ih _).2 hps⟩

/-- A length is zoomed without fail. -/
theorem zoomed (n : Number) {β : Type} {k : Number → Except ArithmeticFault β}
    (hk : ∀ m, ∃ b, k m = .ok b) : ∃ b, (n.mul v.zoom >>= k) = .ok b := by
  obtain ⟨m, hm, -⟩ := n.mul_one_ok
  rw [hv.zoom]
  exact Except.exists_bind_iff.2 ⟨m, hm, hk m⟩

end View.First

/-! ## Shapes, turtles and scenes -/

/-- A shape that can be shown by itself, or as a filled outline. -/
def Shape.Showable : Shape Number → Prop
  | .line x1 y1 x2 y2 _ => (x1.Fits ∧ y1.Fits) ∧ x2.Fits ∧ y2.Fits
  | .circle x y _ _ => x.Fits ∧ y.Fits
  | .arc .. => True
  | .fill x y parts color => (Shape.fill x y parts color).Traceable

/-- A scene that can be shown: visible turtles are where reals can say, and so
    is all that is drawn. -/
structure Scene.Showable (s : Scene Number) : Prop where
  turtles : ∀ p ∈ s.turtles, p.2.visible = true → p.2.x.Fits ∧ p.2.y.Fits
  log : ∀ shape ∈ s.log, shape.Showable

section

variable {v : View Number} (hv : v.First)

include hv

/-- The call that shows a shape can be found exactly if the shape can be shown. -/
theorem Shape.call_iff (background : Text) {s : Shape Number} (hs : s.Drawable) :
    (∃ call, s.call v background = .ok call) ↔ s.Showable := by
  cases s with
  | line x1 y1 x2 y2 pen =>
      rw [call, Except.exists_bind_iff, Showable, ← hv.toCanvas_iff, ← hv.toCanvas_iff]
      constructor
      · rintro ⟨p, hp, hq⟩
        obtain ⟨q, hq, -⟩ := Except.exists_bind_iff.1 hq
        exact ⟨⟨p, hp⟩, q, hq⟩
      · rintro ⟨⟨p, hp⟩, q, hq⟩
        refine ⟨p, hp, Except.exists_bind_iff.2 ⟨q, hq, ?_⟩⟩
        exact hv.zoomed pen.width fun _ => ⟨_, rfl⟩
  | circle x y radius pen =>
      rw [call, Except.exists_bind_iff, Showable, ← hv.toCanvas_iff]
      constructor
      · rintro ⟨p, hp, -⟩
        exact ⟨p, hp⟩
      · rintro ⟨p, hp⟩
        refine ⟨p, hp, ?_⟩
        exact hv.zoomed radius.abs fun _ => hv.zoomed pen.width fun _ => ⟨_, rfl⟩
  | arc x y radius start sweep pen =>
      -- its centre has been computed, so it is a real one
      obtain ⟨⟨a, b, side, hcentre⟩, -⟩ := hs
      obtain ⟨-, -, -, -, px, py, hp⟩ := pointAt_ok hcentre
      cases hp
      obtain ⟨p, hp⟩ := (hv.toCanvas_iff _ _).2 ⟨Number.fits_real px, Number.fits_real py⟩
      rw [call, Except.exists_bind_iff, Showable]
      refine ⟨fun _ => trivial, fun _ => ⟨p, hp, ?_⟩⟩
      exact hv.zoomed radius fun _ => hv.zoomed pen.width fun _ => ⟨_, rfl⟩
  | fill x y parts color =>
      have houtline := (Shape.fill x y parts color).outlineOnto_iff [] hs
      rw [and_iff_left placed_nil] at houtline
      rw [call, Except.exists_bind_iff, Showable, ← houtline]
      constructor
      · rintro ⟨outline, houtline, hplaces⟩
        obtain ⟨ps, hps, houtline⟩ := Except.bind_eq_ok houtline
        cases houtline
        obtain ⟨places, hplaces, -⟩ := Except.exists_bind_iff.1 hplaces
        have hplaced := (hv.placesOnto_iff _ _).1 ⟨places, hplaces⟩
        exact ⟨ps, hps, fun p hp => hplaced p (List.mem_reverse.2 hp)⟩
      · rintro ⟨ps, hps, hplaced⟩
        obtain ⟨places, hplaces⟩ := (hv.placesOnto_iff ps.reverse []).2 fun p hp =>
          hplaced p (List.mem_reverse.1 hp)
        refine ⟨ps.reverse, ?_, Except.exists_bind_iff.2 ⟨places, hplaces, _, rfl⟩⟩
        rw [outline, hps]
        rfl

/-- A turtle can be shown exactly if reals can hold where it is. -/
theorem Turtle.call_iff (t : Turtle Number) :
    (∃ call, t.call v = .ok call) ↔ t.x.Fits ∧ t.y.Fits := by
  rw [call, Except.exists_bind_iff, ← hv.toCanvas_iff]
  constructor
  · rintro ⟨p, hp, -⟩
    exact ⟨p, hp⟩
  · rintro ⟨p, hp⟩
    exact ⟨p, hp, hv.zoomed (.int turtleSize) fun _ => ⟨_, rfl⟩⟩

end

/-- The picture of a scene can be found exactly if the scene can be shown. -/
theorem Scene.picture_iff {s : Scene Number} (hv : s.view.First)
    (hlog : ∀ shape ∈ s.log, shape.Drawable) : (∃ calls, s.picture = .ok calls) ↔ s.Showable := by
  have hshapes : (∃ calls, s.log.toList.mapM (·.call s.view s.background) = .ok calls)
      ↔ ∀ shape ∈ s.log, shape.Showable := by
    rw [Except.mapM_ok_iff]
    refine forall_congr' fun shape => ?_
    rw [Array.mem_toList_iff]
    exact forall_congr' fun hshape => shape.call_iff hv s.background (hlog shape hshape)
  have hturtles : (∃ calls, turtleCalls s.view (s.turtles.map (·.2)) = .ok calls)
      ↔ ∀ p ∈ s.turtles, p.2.visible = true → p.2.x.Fits ∧ p.2.y.Fits := by
    rw [turtleCalls, Except.mapM_ok_iff]
    constructor
    · intro h p hp hvisible
      refine (p.2.call_iff hv).1 (h p.2 (List.mem_filter.2 ⟨?_, hvisible⟩))
      exact List.mem_map_of_mem hp
    · intro h t ht
      obtain ⟨ht, hvisible⟩ := List.mem_filter.1 ht
      obtain ⟨p, hp, rfl⟩ := List.mem_map.1 ht
      exact (p.2.call_iff hv).2 (h p hp hvisible)
  rw [picture, Except.exists_bind_iff]
  constructor
  · rintro ⟨shapes, hs, ht⟩
    obtain ⟨turtles, ht, -⟩ := Except.exists_bind_iff.1 ht
    exact ⟨hturtles.1 ⟨turtles, ht⟩, hshapes.1 ⟨shapes, hs⟩⟩
  · rintro ⟨ht, hs⟩
    obtain ⟨turtles, ht⟩ := hturtles.2 ht
    obtain ⟨shapes, hs⟩ := hshapes.2 hs
    exact ⟨shapes, hs, Except.exists_bind_iff.2 ⟨turtles, ht, _, rfl⟩⟩

/-! ## Replays keep the surface -/

namespace Surface

variable {α β γ : Type}

/-- Surfaces of one kind and size whose screens know the same colours. -/
structure Alike (u u' : Surface α) : Prop where
  kind : u'.kind = u.kind
  width : u'.width = u.width
  height : u'.height = u.height
  known : u'.known = u.known

/-- Every surface is of its own kind and size. -/
theorem Alike.refl (u : Surface α) : Alike u u := ⟨rfl, rfl, rfl, rfl⟩

/-- Kind and size are kept from one surface to the next. -/
theorem Alike.trans {u u' u'' : Surface α} (h : Alike u u') (h' : Alike u' u'') : Alike u u'' :=
  ⟨h'.kind.trans h.kind, h'.width.trans h.width, h'.height.trans h.height,
    h'.known.trans h.known⟩

/-- A mark leaves the kind and the size of a surface. -/
theorem alike_put (u : Surface α) (m : Mark α) : Alike u (u.put m) := by
  cases m with
  | call c => cases c <;> exact ⟨rfl, rfl, rfl, rfl⟩
  | stroke s => cases s <;> exact ⟨rfl, rfl, rfl, rfl⟩

/-- An action that only leaves marks. -/
def Marks (m : EStateM Fault (Surface α) β) : Prop := ∀ u, Alike u (endOf (m u))

/-- Actions that only leave marks do so one after another. -/
theorem Marks.bind {m : EStateM Fault (Surface α) β} {k : β → EStateM Fault (Surface α) γ}
    (hm : Marks m) (hk : ∀ b, Marks (k b)) : Marks (m >>= k) := fun u =>
  endOf_bind (R := Alike) .trans (hm u) fun b u' _ => hk b u'

/-- A computation leaves no marks. -/
theorem Marks.compute (r : Except ArithmeticFault β) :
    Marks (compute r : EStateM Fault (Surface α) β) := by
  intro u
  cases r <;> exact .refl u

variable [Scalar α]

/-- A call only leaves a mark. -/
theorem marks_draw (call : Call α) : Marks (Surface.draw call) := by
  refine Marks.bind (fun u => .refl u) fun u => .bind (.compute _) fun mark => ?_
  cases mark with
  | none => exact fun u => .refl u
  | some m => exact fun u => u.alike_put m

/-- Calls one after another only leave marks. -/
theorem marks_drawEach (f : β → Except ArithmeticFault (Call α)) (bs : List β) :
    Marks (drawEach f bs) := by
  induction bs with
  | nil => exact fun u => .refl u
  | cons b bs ih => exact .bind (.compute _) fun call => (marks_draw call).bind fun _ => ih

/-- A replay only leaves marks. -/
theorem marks_replay (s : Scene α) : Marks s.replay := by
  rw [Scene.replay, drawShapes_eq, drawTurtles_eq]
  exact (marks_draw _).bind fun _ => (marks_drawEach _ _).bind fun _ => marks_drawEach _ _

end Surface

/-! ## Undisturbed canvases -/

/-- The first view of a canvas is centred, and not moved. -/
theorem View.new_ok {width height : Number} {v : View Number}
    (h : View.new width height = .ok v) :
    v.centreAcross width = .ok v ∧ v.centreDown height = .ok v ∧ v.reset = v := by
  obtain ⟨r, hr, h⟩ := Except.bind_eq_ok h
  obtain ⟨a, ha, hr⟩ := Except.bind_eq_ok hr
  obtain ⟨cx, hcx, ha⟩ := Except.bind_eq_ok ha
  obtain ⟨cy, hcy, hr⟩ := Except.bind_eq_ok hr
  cases ha
  cases hr
  cases h
  refine ⟨?_, ?_, rfl⟩
  · rw [centreAcross, hcx]
    rfl
  · rw [centreDown, hcy]
    rfl

/-- A result that is lifted is the result. -/
theorem liftArithmetic_ok {β : Type} {r : Except ArithmeticFault β} {b : β}
    (h : liftArithmetic r = .ok b) : r = .ok b := by
  cases r with
  | ok a =>
      cases h
      rfl
  | error f => cases h

namespace Shape

/-- Shapes can be drawn if each of them can. -/
theorem allDrawable_iff (ss : List (Shape Number)) : AllDrawable ss ↔ ∀ s ∈ ss, s.Drawable := by
  induction ss with
  | nil => exact ⟨fun _ s hs => absurd hs List.not_mem_nil, fun _ => trivial⟩
  | cons s ss ih => rw [AllDrawable, ih, List.forall_mem_cons]

end Shape

namespace Scene

/-- A scene all of whose shapes can be drawn, those of open fills too. -/
structure Drawn (s : Scene Number) : Prop where
  log : ∀ shape ∈ s.log, shape.Drawable
  fills : ∀ b ∈ s.fills, ∀ shape ∈ b.parts, shape.Drawable

/-- Nothing has been drawn in a new scene. -/
theorem drawn_new (v : View Number) : (Scene.new v).Drawn :=
  ⟨fun shape hshape => absurd hshape (Array.not_mem_empty shape),
    fun _ hb => absurd hb List.not_mem_nil⟩

/-- A shape that can be drawn can be added. -/
theorem Drawn.emit {s : Scene Number} (h : s.Drawn) {shape : Shape Number}
    (hshape : shape.Drawable) : (s.emit shape).Drawn := by
  have hpush : ∀ {shapes : Array (Shape Number)}, (∀ x ∈ shapes, x.Drawable) →
      ∀ x ∈ shapes.push shape, x.Drawable := by
    intro shapes hshapes x hx
    rcases Array.mem_push.1 hx with hx | rfl
    · exact hshapes x hx
    · exact hshape
  refine ⟨hpush h.log, fun b hb => ?_⟩
  obtain ⟨b', hb', rfl⟩ := List.mem_map.1 hb
  exact hpush (h.fills b' hb')

/-- The end of a fill adds the shapes that were held back, which can be drawn. -/
theorem Drawn.endFill {s : Scene Number} (h : s.Drawn) : s.endFill.Drawn := by
  cases hfills : s.fills with
  | nil =>
      rw [Scene.endFill, hfills]
      exact h
  | cons b rest =>
      -- the parts of the fill become one shape of the log and of the outer fills
      have hb : ∀ fill ∈ b :: rest, ∀ shape ∈ fill.parts, shape.Drawable := hfills ▸ h.fills
      obtain ⟨hparts, hrest⟩ := List.forall_mem_cons.1 hb
      rw [Scene.endFill, hfills]
      refine Drawn.emit (s := { s with fills := rest }) ⟨h.log, hrest⟩ ?_
      refine (Shape.allDrawable_iff _).2 fun shape hshape => ?_
      exact hparts shape (Array.mem_toList_iff.1 hshape)

/-- One step adds at most one shape, and one that can be drawn. -/
theorem Drawn.step {s s' : Scene Number} (h : s.Drawn) (hstep : s.Step s') : s'.Drawn := by
  have hnone : ∀ shape ∈ (#[] : Array (Shape Number)), shape.Drawable := fun shape hshape =>
    absurd hshape (Array.not_mem_empty shape)
  cases hstep with
  | line x1 y1 x2 y2 pen => exact h.emit trivial
  | circle x y radius pen => exact h.emit trivial
  | arc sweep pen hcentre hfirst => exact h.emit ⟨⟨_, _, _, hcentre⟩, _, hfirst⟩
  | beginFill t => exact ⟨h.log, List.forall_mem_cons.2 ⟨hnone, h.fills⟩⟩
  | endFill => exact h.endFill
  | cancelFill => exact ⟨h.log, fun b hb => h.fills b (List.mem_of_mem_tail hb)⟩
  | clear => exact ⟨hnone, fun _ hb => absurd hb List.not_mem_nil⟩
  | clean => exact ⟨hnone, h.fills⟩
  | _ => exact ⟨h.log, h.fills⟩

end Scene

namespace Canvas

/-- A canvas on a recording surface that is seen as it was first, and on which
    only programs have drawn. -/
structure Undisturbed (c : Canvas Number) : Prop where
  kind : c.surface.kind = .recording
  centred : c.Centred
  unmoved : c.scene.view.reset = c.scene.view
  drawn : c.scene.Drawn

/-- An undisturbed canvas is seen as it was first. -/
theorem Undisturbed.first {c : Canvas Number} (h : c.Undisturbed) : c.scene.view.First := by
  -- half of a whole number is a real
  have hreal : ∀ {n : ℤ} {r : Number}, Number.div (.int n) (.int 2) = .ok r →
      ∃ x, r = .real x := by
    intro n r hr
    rw [Number.div_int (by decide)] at hr
    split at hr
    · cases hr
      exact ⟨_, rfl⟩
    · cases hr
  obtain ⟨cx, hcx, hx⟩ := Except.bind_eq_ok h.centred.1
  obtain ⟨cy, hcy, hy⟩ := Except.bind_eq_ok h.centred.2
  have hx := congrArg View.centerX (Except.ok.inj hx)
  have hy := congrArg View.centerY (Except.ok.inj hy)
  exact ⟨hx ▸ hreal hcx, hy ▸ hreal hcy, (congrArg View.zoom h.unmoved).symm,
    (congrArg View.panX h.unmoved).symm, (congrArg View.panY h.unmoved).symm⟩

/-- A canvas that is seen as an undisturbed one is. -/
theorem Undisturbed.of_alike {c d : Canvas Number} (h : c.Undisturbed)
    (hsurface : c.surface.Alike d.surface) (hview : d.scene.view = c.scene.view)
    (hdrawn : d.scene.Drawn) : d.Undisturbed := by
  refine ⟨hsurface.kind.trans h.kind, ?_, ?_, hdrawn⟩
  · rw [Centred, hview, hsurface.width, hsurface.height]
    exact h.centred
  · rw [hview]
    exact h.unmoved

/-- A change by a program leaves a canvas undisturbed. -/
theorem Undisturbed.change {c d : Canvas Number} (h : c.Undisturbed) (hd : c.Change d) :
    d.Undisturbed := by
  cases hd with
  | step u hstep => exact h.of_alike (.refl u) hstep.view (h.drawn.step hstep)
  | replay =>
      -- the view is centred already, so a replay leaves the whole scene alone
      rw [redraw_eq_replay h.centred, endOf_onSurface]
      exact h.of_alike (Surface.marks_replay _ _) rfl ⟨h.drawn.log, h.drawn.fills⟩
  | anew s u => exact h.of_alike (.refl u) h.unmoved (Scene.drawn_new s.view)

/-- Changes by programs leave a canvas undisturbed. -/
theorem Undisturbed.changes {c d : Canvas Number} (h : c.Undisturbed) (hd : c.Changes d) :
    d.Undisturbed := by
  induction hd with
  | refl => exact h
  | tail _ hchange ih => exact ih.change hchange

/-- A new canvas is undisturbed. -/
theorem undisturbed_new {surface : Surface Number} (hkind : surface.kind = .recording)
    {c : Canvas Number} (h : Canvas.new surface = .ok c) : c.Undisturbed := by
  obtain ⟨view, hview, hreset⟩ := reset_of_new h
  obtain ⟨hacross, hdown, hunmoved⟩ := View.new_ok (liftArithmetic_ok hview)
  have hseen : (Scene.new view).view = view := hunmoved
  have hstart : Undisturbed ⟨Scene.new view, surface⟩ := by
    refine ⟨hkind, ?_, ?_, Scene.drawn_new view⟩
    · rw [Centred, hseen]
      exact ⟨hacross, hdown⟩
    · rw [hseen]
      exact hunmoved
  have hend := hstart.changes (alters_reset _)
  rw [hreset] at hend
  exact hend

/-- An undisturbed canvas can be shown exactly if its drawing can be. -/
theorem Undisturbed.redraw_iff {c : Canvas Number} (h : c.Undisturbed) :
    (∃ d, redraw c = .ok () d) ↔ c.scene.Showable := by
  rw [← Scene.picture_iff h.first h.drawn.log]
  constructor
  · rintro ⟨d, hd⟩
    rw [redraw_eq_replay h.centred] at hd
    obtain ⟨u, hu, -⟩ := onSurface_ok hd
    obtain ⟨calls, hcalls, -⟩ := (Scene.replay_iff _ h.kind u).1 hu
    exact ⟨calls, hcalls⟩
  · rintro ⟨calls, hcalls⟩
    exact ⟨_, redraw_of_centred h.kind h.centred hcalls⟩

end Canvas

/-! ## Sessions -/

namespace Session

/-- A program that is run on a session leaves it unwatched. -/
theorem unwatched_execute {surface : Surface Number} {w v : World} (h : Unwatched surface w)
    {limits : Limits} {code : Text} {b : Bool} (hv : execute limits code w = .ok b v) :
    Unwatched surface v := by
  have hcall := h.call limits (c := .execute code) trivial
  rw [HostCall.act, bind_of_ok hv] at hcall
  exact hcall

/-- Whether the drawing of a program that ends well is then shown without fail. -/
def showsDrawing? (code : Text) (w : World) : Option Bool :=
  match execute ⟨60, 5⟩ code w with
  | .ok true v =>
      some (match Canvas.redraw v.canvas with
        | .ok _ _ => true
        | .error _ _ => false)
  | _ => none

/-- A program for which this is computed ends well, and the answer is right. -/
theorem of_showsDrawing {code : Text} {w : World} {b : Bool} (h : showsDrawing? code w = some b) :
    ∃ v, execute ⟨60, 5⟩ code w = .ok true v
      ∧ ((∃ d, Canvas.redraw v.canvas = .ok () d) ↔ b = true) := by
  rw [showsDrawing?] at h
  split at h
  · rename_i v hv
    refine ⟨v, hv, ?_⟩
    cases hredraw : Canvas.redraw v.canvas with
    | ok _ d =>
        rw [hredraw] at h
        cases h
        exact ⟨fun _ => rfl, fun _ => ⟨d, rfl⟩⟩
    | error f d =>
        rw [hredraw] at h
        cases h
        refine ⟨?_, fun hfalse => absurd hfalse Bool.false_ne_true⟩
        rintro ⟨_, hd⟩
        cases hd
  · cases h

/-- Whatever programs have been run, and however they ended, the drawing is shown
    anew without fail exactly if it can be shown. -/
theorem redraw_iff_showable {surface : Surface Number} (hkind : surface.kind = .recording)
    {w : World} (h : Unwatched surface w) :
    (∃ d, Canvas.redraw w.canvas = .ok () d) ↔ w.canvas.scene.Showable := by
  obtain ⟨-, c, hnew, hchanges⟩ := h.changes
  exact ((Canvas.undisturbed_new hkind hnew).changes hchanges).redraw_iff

/-- The law after a program that fills an outline and goes far out. -/
theorem redraw_iff_showable_window : ∃ w v, quietSession = .ok w
    ∧ execute ⟨60, 5⟩ "WINDOW SETX POWER 10 300 FILLED [ARC 90 5 SETY 7]" w = .ok true v
    ∧ Unwatched Canvas.sheet v ∧ v.canvas.scene.Showable := by
  obtain ⟨w, hnew, htried⟩ := quietSession_of (P := fun w =>
    showsDrawing? "WINDOW SETX POWER 10 300 FILLED [ARC 90 5 SETY 7]" w == some true)
    (by decide +kernel)
  obtain ⟨v, hv, hredraw⟩ := of_showsDrawing (eq_of_beq htried)
  have hunwatched : Unwatched Canvas.sheet v :=
    unwatched_execute (.new (fun _ _ r hr => absurd hr List.not_mem_nil) hnew) hv
  exact ⟨w, v, hnew, hv, hunwatched, (redraw_iff_showable rfl hunwatched).1 (hredraw.2 rfl)⟩

/-- Where nothing stops a turtle, it can go where it cannot be shown. -/
theorem unshowable_drawing : ∃ w v, quietSession = .ok w
    ∧ execute ⟨60, 5⟩ "WINDOW SETX POWER 10 400" w = .ok true v
    ∧ ¬∃ d, Canvas.redraw v.canvas = .ok () d := by
  obtain ⟨w, hnew, htried⟩ := quietSession_of (P := fun w =>
    showsDrawing? "WINDOW SETX POWER 10 400" w == some false) (by decide +kernel)
  obtain ⟨v, hv, hredraw⟩ := of_showsDrawing (eq_of_beq htried)
  refine ⟨w, v, hnew, hv, fun hd => ?_⟩
  cases hredraw.1 hd

end Session

end TurtleLogo
