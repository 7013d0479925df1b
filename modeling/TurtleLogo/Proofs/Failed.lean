import TurtleLogo.Proofs.Edges
import TurtleLogo.Proofs.Underway

/-! # Motions that fail

    A number may be too big for a real, or have no direction, and then a motion
    fails.  It computes first and draws afterwards, so a motion that fails leaves
    the canvas as it was; what it computes after it has drawn cannot fail, since
    it computes with reals only, or with numbers that have been reals before.

    There is one exception.  A move on a wrapped canvas draws its hops, and only
    then brings the place where it leads to back between the edges.  If that is a
    whole number too big for a real, close to a turtle whose place is not, the
    hops are drawn and the move fails (`failed_motion_draws`).  Even so the turtles
    stay as they were (`failed_motion`). -/

namespace TurtleLogo

/-! ## Computations that cannot fail -/

namespace Number

/-- A heading in normal form can be made a real. -/
theorem fits_of_isHeading {angle h : Number} (hh : normalizeHeading angle = .ok h) : h.Fits := by
  obtain ⟨x, hx, -⟩ := normalizeHeading_modest hh
  exact ⟨x, hx⟩

/-- A quotient is always a real. -/
theorem div_ok {a b r : Number} (h : a.div b = .ok r) : ∃ x, r = .real x := by
  unfold div at h
  split at h
  · cases h
  · cases a with
    | int i =>
        cases b with
        | int j =>
            change (if (Binary64.ofRatio i j).isFinite then _ else _) = _ at h
            split at h
            · cases h
              exact ⟨_, rfl⟩
            · cases h
        | real y =>
            obtain ⟨x, -, hr⟩ := combine_left_ok h
            exact ⟨_, hr⟩
    | real x =>
        obtain ⟨y, -, hr⟩ := combine_right_ok h
        exact ⟨_, hr⟩

theorem toReal_two : toReal (.int 2) = .ok (Binary64.ofInt 2) := rfl

theorem toReal_circle : toReal (.int 360) = .ok (Binary64.ofInt 360) := by decide +kernel

end Number

/-- Every angle has a normal form. -/
theorem normalizeHeading_total (angle : Number) : ∃ h, normalizeHeading angle = .ok h := by
  have hmod : ∃ r, angle.mod (.int 360) = .ok r := by
    cases angle with
    | int n => exact ⟨_, rfl⟩
    | real x =>
        have hmod : Number.combine Int.fmod Binary64.mod (.real x) (.int 360)
            = .ok (.real (x.mod (Binary64.ofInt 360))) := Number.combine_right Number.toReal_circle
        exact ⟨_, hmod⟩
  obtain ⟨r, hr⟩ := hmod
  refine ⟨if Scalar.le (Scalar.ofInt 360) r then Scalar.zero else r, ?_⟩
  show (angle.mod (.int 360) >>= _) = _
  rw [hr]
  rfl

/-- A number that is not too big for a real can be brought back between edges,
    and becomes a real there unless it is between them. -/
theorem wrapCoordinate_total {v : Number} (hv : v.Fits) (half : Binary64) :
    wrapCoordinate v (.real half) = .ok v ∨ ∃ r, wrapCoordinate v (.real half) = .ok (.real r) := by
  have husual := usual_wrapCoordinate v (.real half)
  rw [wrapCoordinate] at husual ⊢
  split at husual
  · rename_i hin
    rw [if_pos hin]
    exact .inl rfl
  · rename_i hout
    rw [if_neg hout]
    refine .inr ?_
    obtain ⟨x, hx⟩ := hv
    have hshift : v.add (.real half) = .ok (.real (x.add half)) := Number.combine_left hx
    have hwidth : Number.mul (.int 2) (.real half) = .ok (.real ((Binary64.ofInt 2).mul half)) :=
      Number.combine_left Number.toReal_two
    -- what remains is a remainder of reals, which is not by zero
    have hstep : ∀ k : Number → Except ArithmeticFault Number,
        (v.add (.real half) >>= fun shifted => Number.mul (.int 2) (.real half) >>= fun width =>
          shifted.mod width >>= k)
        = (Number.real (x.add half)).mod (.real ((Binary64.ofInt 2).mul half)) >>= k := by
      intro k
      rw [hshift, hwidth]
      rfl
    have hmod : ((Binary64.ofInt 2).mul half).isZero = false := by
      refine eq_false_of_ne_true fun hzero => husual ?_
      refine (hstep _).trans ?_
      rw [Number.mod, if_pos (show Number.isZero (.real _) = true from hzero)]
      rfl
    refine ⟨((x.add half).mod ((Binary64.ofInt 2).mul half)).sub half, (hstep _).trans ?_⟩
    rw [Number.mod, if_neg (by rw [Number.isZero, hmod]; exact Bool.false_ne_true)]
    rfl

namespace Canvas

variable {β : Type} {c d : Canvas Number} {f : Fault}

/-! ## Failures that leave no trace -/

/-- What begins with a computation fails at once and changes nothing, or later. -/
theorem compute_bind_error {γ : Type} {r : Except ArithmeticFault β} {k : β → CanvasM Number γ}
    (h : (compute r >>= k) c = .error f d) : d = c ∨ ∃ b, r = .ok b ∧ k b c = .error f d := by
  cases r with
  | ok b => exact .inr ⟨b, rfl, h⟩
  | error g =>
      cases h
      exact .inl rfl

/-- What begins with the current turtle fails at once and changes nothing, or later. -/
theorem turtle_bind_error {k : Turtle Number → CanvasM Number β}
    (h : (turtle >>= k) c = .error f d) :
    d = c ∨ ∃ t, c.scene.turtle? = some t ∧ k t c = .error f d := by
  cases ht : c.scene.turtle? with
  | some t =>
      rw [bind_of_ok (turtle_of_some ht)] at h
      exact .inr ⟨t, rfl, h⟩
  | none =>
      rw [bind_of_error (turtle_of_none ht)] at h
      cases h
      exact .inl rfl

/-- Half the width and height are reals. -/
theorem halfExtents_bind_error {k : Point Number → CanvasM Number β}
    (h : (halfExtents >>= k) c = .error f d) :
    d = c ∨ ∃ halfWidth halfHeight, k (.real halfWidth, .real halfHeight) c = .error f d := by
  have h : (compute (extents c.scene.view c.surface) >>= k) c = .error f d := h
  rcases compute_bind_error h with hd | ⟨p, hp, h⟩
  · exact .inl hd
  · obtain ⟨wide, -, hp⟩ := Except.bind_eq_ok hp
    obtain ⟨x, hx, hp⟩ := Except.bind_eq_ok hp
    obtain ⟨high, -, hp⟩ := Except.bind_eq_ok hp
    obtain ⟨y, hy, hp⟩ := Except.bind_eq_ok hp
    cases hp
    obtain ⟨halfWidth, rfl⟩ := Number.div_ok hx
    obtain ⟨halfHeight, rfl⟩ := Number.div_ok hy
    exact .inr ⟨halfWidth, halfHeight, h⟩

/-! ## Straight moves -/

/-- One canvas has the turtles of another, and with a pen that is up its drawing
    too. -/
structure Strokes (t : Turtle Number) (c d : Canvas Number) : Prop where
  turtles : d.scene.turtles = c.scene.turtles
  up : t.penDown = false → d = c

/-- A stroke leaves the turtles, and the drawing too with a pen that is up. -/
theorem strokes_stroke (t : Turtle Number) (c : Canvas Number) (x1 y1 x2 y2 : Number) :
    Strokes t c ⟨c.scene.stroke t x1 y1 x2 y2, c.surface⟩ where
  turtles := (stroke_turtles _ _ _ _ _ _).1
  up hup := by
    rw [Scene.stroke, hup]
    rfl

theorem Strokes.trans {t : Turtle Number} {c d e : Canvas Number} (h : Strokes t c d)
    (h' : Strokes t d e) : Strokes t c e :=
  ⟨h'.turtles.trans h.turtles, fun hup => (h'.up hup).trans (h.up hup)⟩

/-- What a hop between numbers becomes once its end has been found. -/
theorem walk_succ (t : Turtle Number) (hopX hopY halfWidth halfHeight x y : Number) (steps : ℕ)
    {nx ny : Number} (hx : x.add hopX = .ok nx) (hy : y.add hopY = .ok ny) (c : Canvas Number) :
    walk t hopX hopY halfWidth halfHeight (steps + 1) x y c
      = (compute (wrapCoordinate nx halfWidth) >>= fun wx =>
          compute (wrapCoordinate ny halfHeight) >>= fun wy =>
            walk t hopX hopY halfWidth halfHeight steps wx wy)
          ⟨c.scene.stroke t x y nx ny, c.surface⟩ := by
  show (compute (x.add hopX) >>= fun nx => compute (y.add hopY) >>= fun ny =>
    change (fun s => s.stroke t x y nx ny) >>= fun _ =>
      compute (wrapCoordinate nx halfWidth) >>= fun wx =>
        compute (wrapCoordinate ny halfHeight) >>= fun wy =>
          walk t hopX hopY halfWidth halfHeight steps wx wy) c = _
  rw [hx, hy]
  rfl

section

variable (t : Turtle Number) (hopX hopY halfWidth halfHeight : Binary64)

/-- A walk whose first hop ends between reals goes on to its end. -/
theorem walk_ends (steps : ℕ) {x y : Number} {nx ny : Binary64} (hx : x.add (.real hopX) = .ok (.real nx))
    (hy : y.add (.real hopY) = .ok (.real ny)) (c : Canvas Number) :
    ∃ d, walk t (.real hopX) (.real hopY) (.real halfWidth) (.real halfHeight) (steps + 1) x y c
      = .ok () d ∧ Strokes t c d := by
  have hwrap : ∀ v half : Binary64, ∃ r,
      wrapCoordinate (Number.real v) (.real half) = .ok (.real r) := by
    intro v half
    rcases wrapCoordinate_total (Number.fits_real v) half with h | h
    · exact ⟨v, h⟩
    · exact h
  induction steps generalizing x y nx ny c with
  | zero =>
      obtain ⟨wx, hwx⟩ := hwrap nx halfWidth
      obtain ⟨wy, hwy⟩ := hwrap ny halfHeight
      refine ⟨_, ?_, strokes_stroke t c x y (.real nx) (.real ny)⟩
      rw [walk_succ t _ _ _ _ _ _ _ hx hy, hwx, hwy]
      rfl
  | succ steps ih =>
      obtain ⟨wx, hwx⟩ := hwrap nx halfWidth
      obtain ⟨wy, hwy⟩ := hwrap ny halfHeight
      obtain ⟨d, hd, hstrokes⟩ := @ih (.real wx) (.real wy) (wx.add hopX) (wy.add hopY) rfl rfl
        ⟨c.scene.stroke t x y (.real nx) (.real ny), c.surface⟩
      refine ⟨d, ?_, (strokes_stroke t c _ _ _ _).trans hstrokes⟩
      rw [walk_succ t _ _ _ _ _ _ _ hx hy, hwx, hwy]
      exact hd

/-- A walk fails before its first hop or not at all. -/
theorem walk_cases {steps : ℕ} (hsteps : 0 < steps) (x y : Number) (c : Canvas Number) :
    (∃ f, walk t (.real hopX) (.real hopY) (.real halfWidth) (.real halfHeight) steps x y c
        = .error f c)
      ∨ x.Fits ∧ y.Fits
        ∧ ∃ d, walk t (.real hopX) (.real hopY) (.real halfWidth) (.real halfHeight) steps x y c
          = .ok () d ∧ Strokes t c d := by
  cases steps with
  | zero => exact absurd hsteps (Nat.lt_irrefl 0)
  | succ steps =>
      cases hx : x.add (.real hopX) with
      | error g =>
          refine .inl ⟨.arithmetic g, ?_⟩
          show (compute (x.add (.real hopX)) >>= _) c = _
          rw [hx]
          rfl
      | ok nx =>
          cases hy : y.add (.real hopY) with
          | error g =>
              refine .inl ⟨.arithmetic g, ?_⟩
              show (compute (x.add (.real hopX)) >>= fun nx => compute (y.add (.real hopY)) >>= _) c
                = _
              rw [hx, hy]
              rfl
          | ok ny =>
              obtain ⟨x', hfitX, rfl⟩ := Number.combine_left_ok hx
              obtain ⟨y', hfitY, rfl⟩ := Number.combine_left_ok hy
              exact .inr ⟨⟨x', hfitX⟩, ⟨y', hfitY⟩,
                walk_ends t hopX hopY halfWidth halfHeight steps hx hy c⟩

end

/-- Bringing a place back between the edges fails only if it is too big. -/
theorem placeBack_error {x y : Number} {halfWidth halfHeight : Binary64}
    (h : (compute (wrapCoordinate x (.real halfWidth)) >>= fun wx =>
      compute (wrapCoordinate y (.real halfHeight)) >>= fun wy =>
        change (·.place wx wy)) c = .error f d) : d = c ∧ (¬x.Fits ∨ ¬y.Fits) := by
  have hfits : ∀ {v : Number} {half : Binary64} {g : ArithmeticFault},
      wrapCoordinate v (.real half) = .error g → ¬v.Fits := by
    intro v half g hg hv
    rcases wrapCoordinate_total hv half with hw | ⟨r, hw⟩
    · cases hw.symm.trans hg
    · cases hw.symm.trans hg
  cases hx : wrapCoordinate x (.real halfWidth) with
  | error g =>
      rw [hx] at h
      cases h
      exact ⟨rfl, .inl (hfits hx)⟩
  | ok wx =>
      cases hy : wrapCoordinate y (.real halfHeight) with
      | error g =>
          rw [hx, hy] at h
          cases h
          exact ⟨rfl, .inr (hfits hy)⟩
      | ok wy =>
          rw [hx, hy] at h
          cases h

/-- A coordinate goes from a whole number that a real can hold to one that is too
    big. -/
def Outgrows (v w : Number) : Prop :=
  v.Fits ∧ ∃ m n : ℤ, v = .int m ∧ w = .int n ∧ ¬w.Fits

/-- Two numbers are not compared across kinds if one is too big for a real. -/
theorem outgrows_of_sub {v w dv : Number} (hsub : w.sub v = .ok dv) (hv : v.Fits)
    (hw : ¬w.Fits) : Outgrows v w := by
  cases w with
  | real x => exact absurd (Number.fits_real x) hw
  | int n =>
      cases v with
      | int m => exact ⟨hv, m, n, rfl, rfl, hw⟩
      | real y =>
          obtain ⟨x, hx, -⟩ := Number.combine_left_ok hsub
          exact absurd ⟨x, hx⟩ hw

/-- A wrapped move that fails has drawn nothing, unless the pen is down and a
    coordinate becomes too big for a real. -/
theorem wrapTo_error {t : Turtle Number} {x y : Number} (h : wrapTo t x y c = .error f d) :
    d.scene.turtles = c.scene.turtles
      ∧ (d = c ∨ t.penDown = true ∧ (Outgrows t.x x ∨ Outgrows t.y y)) := by
  have hsame : d = c → d.scene.turtles = c.scene.turtles
      ∧ (d = c ∨ t.penDown = true ∧ (Outgrows t.x x ∨ Outgrows t.y y)) :=
    fun hd => ⟨by rw [hd], .inl hd⟩
  rcases halfExtents_bind_error h with hd | ⟨halfWidth, halfHeight, h⟩
  · exact hsame hd
  rcases compute_bind_error h with hd | ⟨dx, hdx, h⟩
  · exact hsame hd
  rcases compute_bind_error h with hd | ⟨dy, hdy, h⟩
  · exact hsame hd
  rcases compute_bind_error h with hd | ⟨steps, hsteps, h⟩
  · exact hsame hd
  rcases compute_bind_error h with hd | ⟨hopX, hhopX, h⟩
  · exact hsame hd
  rcases compute_bind_error h with hd | ⟨hopY, hhopY, h⟩
  · exact hsame hd
  obtain ⟨hopX, rfl⟩ := Number.div_ok hhopX
  obtain ⟨hopY, rfl⟩ := Number.div_ok hhopY
  rcases walk_cases t hopX hopY halfWidth halfHeight (hopCount_pos hsteps) t.x t.y c with
    ⟨g, hwalk⟩ | ⟨hfitX, hfitY, e, hwalk, hstrokes⟩
  · rw [bind_of_error hwalk] at h
    cases h
    exact hsame rfl
  · rw [bind_of_ok hwalk] at h
    -- all that can fail now is to bring the place where the move leads to back
    obtain ⟨rfl, hfar⟩ := placeBack_error h
    refine ⟨hstrokes.turtles, ?_⟩
    cases hpen : t.penDown with
    | true => exact .inr ⟨rfl, hfar.imp (outgrows_of_sub hdx hfitX) (outgrows_of_sub hdy hfitY)⟩
    | false => exact .inl (hstrokes.up hpen)

/-- A move that a failure may leave half made: a wrapped one with the pen down, to
    a coordinate that is too big for a real, from one that is not. -/
def Overreach (c : Canvas Number) (x y : Number) : Prop :=
  c.scene.mode = .wrap ∧ ∃ t, c.scene.turtle? = some t ∧ t.penDown = true
    ∧ (Outgrows t.x x ∨ Outgrows t.y y)

/-- A move that fails leaves the turtles, and all else unless it overreaches. -/
theorem moveTo_error {x y : Number} (h : moveTo x y c = .error f d) :
    d.scene.turtles = c.scene.turtles ∧ (d = c ∨ Overreach c x y) := by
  have hsame : d = c → d.scene.turtles = c.scene.turtles ∧ (d = c ∨ Overreach c x y) :=
    fun hd => ⟨by rw [hd], .inl hd⟩
  rcases turtle_bind_error h with hd | ⟨t, ht, h⟩
  · exact hsame hd
  rw [scene_bind] at h
  cases hm : c.scene.mode with
  | wrap =>
      rw [hm] at h
      rcases bind_eq_error h with hwrap | ⟨_, e, -, h⟩
      · obtain ⟨hturtles, hdrawn⟩ := wrapTo_error hwrap
        exact ⟨hturtles, hdrawn.imp id fun hlast => ⟨hm, t, ht, hlast⟩⟩
      · cases h
  | fence =>
      rw [hm] at h
      rcases halfExtents_bind_error h with hd | ⟨halfWidth, halfHeight, h⟩
      · exact hsame hd
      · cases h
  | window =>
      rw [hm] at h
      cases h

/-- A move to a place that reals can hold fails without a trace. -/
theorem moveTo_error_of_fits {x y : Number} (hx : x.Fits) (hy : y.Fits)
    (h : moveTo x y c = .error f d) : d = c := by
  refine (moveTo_error h).2.resolve_right ?_
  rintro ⟨-, t, -, -, ⟨-, m, n, -, -, hfar⟩ | ⟨-, m, n, -, -, hfar⟩⟩
  · exact hfar hx
  · exact hfar hy

/-- A turtle that cannot go forward leaves the canvas as it was. -/
theorem forward_error {distance : Number} (h : forward distance c = .error f d) : d = c := by
  rcases turtle_bind_error h with hd | ⟨t, -, h⟩
  · exact hd
  rcases compute_bind_error h with hd | ⟨p, hp, h⟩
  · exact hd
  obtain ⟨-, -, -, -, px, py, rfl⟩ := pointAt_ok hp
  exact moveTo_error_of_fits (Number.fits_real px) (Number.fits_real py) h

/-! ## Turns -/

/-- A change of the current turtle fails only if there is none. -/
theorem changeTurtle_error {g : Turtle Number → Turtle Number}
    (h : changeTurtle g c = .error f d) : d = c ∧ c.scene.turtle? = none := by
  rw [changeTurtle] at h
  cases ht : c.scene.turtle? with
  | some t =>
      rw [bind_of_ok (turtle_of_some ht)] at h
      cases h
  | none =>
      rw [bind_of_error (turtle_of_none ht)] at h
      cases h
      exact ⟨rfl, rfl⟩

/-- Only a turtle that is not there cannot be turned. -/
theorem setHeading_error {angle : Number} (h : setHeading angle c = .error f d) :
    d = c ∧ c.scene.turtle? = none := by
  obtain ⟨r, hr⟩ := normalizeHeading_total angle
  have h : (changeTurtle (fun t => { t with heading := r }) >>= fun _ => change (·.touch)) c
      = .error f d := by
    rw [setHeading, hr] at h
    exact h
  rcases bind_eq_error h with hchange | ⟨_, e, -, h⟩
  · exact changeTurtle_error hchange
  · cases h

/-- Motion does not lose the current turtle. -/
theorem motions_present : Motions fun c d : Canvas Number =>
    c.scene.turtle?.isSome = true → d.scene.turtle?.isSome = true where
  refl _ h := h
  trans h h' := h' ∘ h
  turtle s _ g _ h := by
    dsimp only
    rw [turtle?_mapTurtle, Option.isSome_map]
    exact h
  line _ _ _ _ _ _ _ h := h
  circle _ _ _ _ _ _ h := h
  arc _ _ _ _ _ _ _ _ _ _ _ _ _ _ h := h
  touch _ _ h := h
  tell s u id hname _ := Option.isSome_iff_exists.2 (s.exists_turtle_tell hname)
  mode _ _ _ h := h

/-- On the way home the turtle is not lost, so it can be turned. -/
theorem home_error (h : home c = .error f d) : d = c := by
  rcases bind_eq_error h with hmove | ⟨_, e, hmove, h⟩
  · exact moveTo_error_of_fits ⟨_, rfl⟩ ⟨_, rfl⟩ hmove
  · obtain ⟨t, ht, -⟩ := turtle_bind_ok hmove
    have hend := within_moveTo motions_present.toMoves Scalar.zero Scalar.zero c (by rw [ht]; rfl)
    rw [hmove, endOf_ok, (setHeading_error h).2] at hend
    cases hend

/-! ## Arcs -/

/-- The end of an arc between reals cannot be missed. -/
theorem endArc_ok (t : Turtle Number) (cx cy ex ey : Binary64) {size sweep turned : Number}
    (hsize : size.Fits) (hturned : t.heading.add sweep = .ok turned) (c : Canvas Number) :
    ∃ d, endArc t (.real cx) (.real cy) size (.real ex) (.real ey) sweep c = .ok () d := by
  obtain ⟨r, hr⟩ := hsize
  obtain ⟨h, hh⟩ := normalizeHeading_total turned
  have hmul : ∀ e, size.mul (.real e) = .ok (.real (r.mul e)) := fun e => Number.combine_left hr
  have hend : endArc t (.real cx) (.real cy) size (.real ex) (.real ey) sweep c
      = (compute (size.mul (.real ex)) >>= fun rx => compute (Number.add (.real cx) rx) >>= fun x =>
        compute (size.mul (.real ey)) >>= fun ry => compute (Number.add (.real cy) ry) >>= fun y =>
          change (·.place x y) >>= fun _ => compute (t.heading.add sweep) >>= fun turned =>
            compute (normalizeHeading turned) >>= fun h =>
              change fun s => (s.mapTurtle fun t => { t with heading := h }).touch) c := rfl
  have hplaced : endArc t (.real cx) (.real cy) size (.real ex) (.real ey) sweep c
      = (compute (normalizeHeading turned) >>= fun h =>
          change fun s => (s.mapTurtle fun t => { t with heading := h }).touch)
        ⟨c.scene.place (.real (cx.add (r.mul ex))) (.real (cy.add (r.mul ey))), c.surface⟩ := by
    rw [hend, hmul, hmul, hturned]
    rfl
  rw [hplaced, hh]
  exact ⟨_, rfl⟩

/-- A turn that can be made from beside the heading can be made from it. -/
theorem add_of_sub {heading sweep side last : Number} {k : ℤ} (hheading : heading.Fits)
    (hside : heading.sub (.int k) = .ok side) (hlast : side.add sweep = .ok last) :
    ∃ turned, heading.add sweep = .ok turned := by
  cases heading with
  | int n =>
      cases sweep with
      | int m => exact ⟨_, rfl⟩
      | real x =>
          obtain ⟨y, hy⟩ := hheading
          exact ⟨_, Number.combine_left hy⟩
  | real x =>
      obtain ⟨y, -, rfl⟩ := Number.combine_right_ok hside
      obtain ⟨z, hz, -⟩ := Number.combine_right_ok hlast
      exact ⟨_, Number.combine_right hz⟩

/-- An arc that fails leaves the canvas as it was. -/
theorem arc_error {angle radius : Number}
    (hheading : ∀ t, c.scene.turtle? = some t → t.heading.Fits)
    (h : arc angle radius c = .error f d) : d = c := by
  rcases turtle_bind_error h with hd | ⟨t, ht, h⟩
  · exact hd
  rcases compute_bind_error h with hd | ⟨side, -, h⟩
  · exact hd
  rcases compute_bind_error h with hd | ⟨centre, hcentre, h⟩
  · exact hd
  rcases compute_bind_error h with hd | ⟨start, hstart, h⟩
  · exact hd
  rcases compute_bind_error h with hd | ⟨sweep, -, h⟩
  · exact hd
  rcases compute_bind_error h with hd | ⟨last, hlast, h⟩
  · exact hd
  rcases compute_bind_error h with hd | ⟨ahead, hahead, h⟩
  · exact hd
  -- nothing that is left can fail
  obtain ⟨-, -, -, hsize, cx, cy, rfl⟩ := pointAt_ok hcentre
  obtain ⟨-, ex, ey, -, -, rfl⟩ := Number.direction_ok hahead
  obtain ⟨turned, hturned⟩ := add_of_sub (hheading t ht) hstart hlast
  obtain ⟨first, hfirst⟩ := normalizeHeading_total start
  have hend := endArc_ok t cx cy ex ey hsize hturned
  dsimp only at h
  split at h
  · rw [hfirst] at h
    obtain ⟨e, he⟩ := hend ⟨c.scene.emit (.arc (.real cx) (.real cy) radius.abs first sweep t.pen),
      c.surface⟩
    cases he.symm.trans h
  · obtain ⟨e, he⟩ := hend c
    cases he.symm.trans h

/-! ## Canvases -/

/-- All turtles face where a real can tell. -/
def Faced (c : Canvas Number) : Prop := ∀ p ∈ c.scene.turtles, p.2.heading.Fits

/-- New headings are in normal form or undefined, so reals can hold them. -/
theorem ofTurtles_faced : OfTurtles fun c d => c.Faced → d.Faced where
  same hturtles _ h p hp := h p (hturtles ▸ hp)
  trans h h' := h' ∘ h
  turtle s u g hg h := by
    intro q hq
    obtain ⟨p, hp, rfl⟩ := List.mem_map.1 hq
    by_cases hkey : p.1.sameKey s.current = true
    · simp only [if_pos hkey]
      rcases hg.heading with hsame | ⟨heading, hall, ⟨t, ht, rfl⟩ | ⟨angle, hangle⟩ | hnan⟩
      · rw [hsame]
        exact h p hp
      · -- the heading of the current turtle, which is among the turtles
        rw [hall]
        obtain ⟨r, hr, rfl⟩ := Option.map_eq_some_iff.1 ht
        exact h r (List.mem_of_find?_eq_some hr)
      · rw [hall]
        exact Number.fits_of_isHeading hangle
      · rw [hall]
        cases heading with
        | real x => exact Number.fits_real x
        | int n =>
            have hle : Number.le (.int n) (.int n) = true := (Number.le_iff rfl rfl).2 le_rfl
            cases hle.symm.trans hnan
    · simp only [if_neg hkey]
      exact h p hp
  tell s u id _ h := by
    intro q hq
    obtain hq | rfl := Scene.mem_tell hq
    · exact h q hq
    · exact ⟨_, rfl⟩
  visible s u ts hts h := by
    intro q hq
    have hmem : (q.1, { q.2 with visible := false }) ∈ unseen s.turtles := by
      rw [← hts]
      exact List.mem_map_of_mem hq
    obtain ⟨p, hp, hpq⟩ := List.mem_map.1 hmem
    have hheading : p.2.heading = q.2.heading := congrArg (fun r => r.2.heading) hpq
    rw [← hheading]
    exact h p hp
  clear _ _ _ q hq := by
    obtain ⟨p, -, rfl⟩ := List.mem_map.1 hq
    exact ⟨_, rfl⟩

/-- What allows for all that is done with turtles allows for everything that is
    done to a canvas, if it allows for starting over. -/
theorem OfTurtles.within_operation {R : Canvas Number → Canvas Number → Prop} (H : OfTurtles R)
    (hanew : ∀ (s : Scene Number) u, R ⟨s, u⟩ ⟨Scene.new s.view, u⟩) (op : Operation Number) :
    Within R op.act := by
  have M := H.views.toMoves
  have S := H.views.toSights
  cases op with
  | forward distance => exact within_forward M distance
  | back distance => exact within_forward M _
  | left angle => exact within_left M angle
  | right angle => exact within_right M angle
  | setHeading angle => exact within_setHeading M angle
  | home => exact within_home M
  | moveTo x y => exact within_moveTo M x y
  | setX x => exact within_setX M x
  | setY y => exact within_setY M y
  | circle radius => exact within_circle M radius
  | arc angle radius => exact within_arc M angle radius
  | beginFill => exact H.within_beginFill
  | endFill => exact H.within_endFill
  | cancelFill => exact H.within_cancelFill
  | setPenDown | setPenColor | setPenMode =>
      exact within_changeTurtle M fun _ => ⟨fun _ h => h, .inl fun _ => rfl⟩
  | setPenSize size => exact within_setPenSize M size
  | setBackground | clean => exact within_redraw_after S (.change fun _ _ => H.same rfl rfl)
  | setMode mode => exact within_setMode M mode
  | setVisible visible => exact within_setVisible M visible
  | tell who => exact within_tell H.views.toMotions who
  | clearScreen => exact within_redraw_after S (.change H.clear)
  | zoomIn | zoomOut => exact within_redraw_after S (within_changeView S _)
  | pan dx dy => exact within_pan S dx dy
  | resetView => exact within_resetView S
  | coordinatesAt px py => exact .bind M (within_coordinatesAt S px py) fun _ => .pure M ()
  | savePicture path => exact within_savePicture H.views path
  | redraw => exact within_redraw S
  | reset => exact within_redraw_after S (.change hanew)

/-- The canvases that there are: a new one, and what is left after an operation
    that may have failed, when what is undefined about the current turtle has been
    marked, and after a change of the surface. -/
inductive Handled : Canvas Number → Prop
  | new {surface : Surface Number} {c : Canvas Number} (h : Canvas.new surface = .ok c) : Handled c
  | act {c : Canvas Number} (h : Handled c) (op : Operation Number) : Handled (endOf (op.act c))
  | mark {w : World} (h : Handled w.canvas) : Handled w.markTurtle.canvas
  | resize {c : Canvas Number} (h : Handled c) (surface : Surface Number) :
      Handled ⟨c.scene, surface⟩

/-- On all canvases that there are, turtles face where a real can tell. -/
theorem Handled.faced {c : Canvas Number} (h : c.Handled) : c.Faced := by
  have hanew : ∀ (view : View Number) (surface : Surface Number),
      Faced ⟨Scene.new view, surface⟩ := by
    intro view surface p hp
    rw [List.mem_singleton.1 hp]
    exact ⟨_, rfl⟩
  have hact : ∀ op : Operation Number, Within (fun c d => c.Faced → d.Faced) op.act :=
    ofTurtles_faced.within_operation fun s surface _ => hanew s.view surface
  induction h with
  | @new surface c h =>
      obtain ⟨view, -, hreset⟩ := reset_of_new h
      have hend := hact .reset ⟨Scene.new view, surface⟩ (hanew view surface)
      rw [show (Operation.reset : Operation Number).act = reset from rfl, hreset] at hend
      exact hend
  | act _ op ih => exact hact op _ ih
  | @mark w _ ih => exact World.markTurtle_within ofTurtles_faced.views.toMoves w ih
  | resize _ surface ih => exact ih

/-! ## Motions -/

/-- The ways to move and turn. -/
inductive Motion where
  | move (m : Move)
  | left (angle : Number)
  | right (angle : Number)
  | setHeading (angle : Number)
  | circle (radius : Number)
  | arc (angle radius : Number)

namespace Motion

/-- Makes a motion. -/
def act : Motion → CanvasM Number Unit
  | .move m => m.act
  | .left angle => Canvas.left angle
  | .right angle => Canvas.right angle
  | .setHeading angle => Canvas.setHeading angle
  | .circle radius => Canvas.circle radius
  | .arc angle radius => Canvas.arc angle radius

/-- The place that a motion of a turtle names. -/
def aim? (t : Turtle Number) : Motion → Option (Point Number)
  | .move (.moveTo x y) => some (x, y)
  | .move (.setX x) => some (x, t.y)
  | .move (.setY y) => some (t.x, y)
  | _ => none

/-- A motion that a failure may leave half made: on a wrapped canvas, with the pen
    down, to a named place with a coordinate that is a whole number too big for a
    real, where that of the turtle is a whole number that is not. -/
def Overreaches (m : Motion) (c : Canvas Number) : Prop :=
  c.scene.mode = .wrap ∧ ∃ t x y, c.scene.turtle? = some t ∧ t.penDown = true
    ∧ m.aim? t = some (x, y) ∧ (Outgrows t.x x ∨ Outgrows t.y y)

end Motion

/-- A motion that fails leaves the turtles where they were, and facing as they did.
    It leaves the drawing and the fills as they were too, and with them the canvas,
    unless it is a move that overreaches. -/
theorem failed_motion {c d : Canvas Number} (h : c.Handled) {m : Motion} {f : Fault}
    (hm : m.act c = .error f d) :
    d.scene.turtles = c.scene.turtles ∧ (d = c ∨ m.Overreaches c) := by
  have hsame : d = c → d.scene.turtles = c.scene.turtles ∧ (d = c ∨ m.Overreaches c) :=
    fun hd => ⟨by rw [hd], .inl hd⟩
  have hmove : ∀ {x y : Number}, moveTo x y c = .error f d →
      (∀ t, c.scene.turtle? = some t → m.aim? t = some (x, y)) →
      d.scene.turtles = c.scene.turtles ∧ (d = c ∨ m.Overreaches c) := by
    intro x y hmove haim
    obtain ⟨hturtles, hdrawn⟩ := moveTo_error hmove
    refine ⟨hturtles, hdrawn.imp id ?_⟩
    rintro ⟨hmode, t, ht, hpen, hfar⟩
    exact ⟨hmode, t, x, y, ht, hpen, haim t ht, hfar⟩
  cases m with
  | left angle | right angle =>
      rcases turtle_bind_error hm with hd | ⟨t, -, hm⟩
      · exact hsame hd
      rcases compute_bind_error hm with hd | ⟨turned, -, hm⟩
      · exact hsame hd
      exact hsame (setHeading_error hm).1
  | setHeading angle => exact hsame (setHeading_error hm).1
  | circle radius =>
      rcases turtle_bind_error hm with hd | ⟨t, -, hm⟩
      · exact hsame hd
      cases hm
  | arc angle radius =>
      refine hsame (arc_error (fun t ht => ?_) hm)
      obtain ⟨p, hp, rfl⟩ := Option.map_eq_some_iff.1 ht
      exact h.faced p (List.mem_of_find?_eq_some hp)
  | move m =>
      cases m with
      | forward distance | back distance => exact hsame (forward_error hm)
      | home => exact hsame (home_error hm)
      | moveTo x y => exact hmove hm fun _ _ => rfl
      | setX x =>
          rcases turtle_bind_error hm with hd | ⟨t, ht, hm⟩
          · exact hsame hd
          refine hmove hm fun t' ht' => ?_
          cases ht.symm.trans ht'
          rfl
      | setY y =>
          rcases turtle_bind_error hm with hd | ⟨t, ht, hm⟩
          · exact hsame hd
          refine hmove hm fun t' ht' => ?_
          cases ht.symm.trans ht'
          rfl

/-- A canvas that operations have led to is one of those that there are. -/
theorem Worked.handled {surface : Surface Number} {past : List (Operation Number)}
    {c : Canvas Number} (h : Worked surface past c) : c.Handled := by
  induction h with
  | new h => exact .new h
  | @step past c d _ op hop ih =>
      have hend := ih.act op
      rwa [hop] at hend

/-- The canvas that an action leaves if it fails. -/
def failed? (m : CanvasM Number Unit) (c : Canvas Number) : Option (Canvas Number) :=
  match m c with
  | .ok _ _ => none
  | .error _ d => some d

/-- What is tried on a canvas that has been worked on, and fails. -/
theorem exists_failed (ops : List (Operation Number)) {m : CanvasM Number Unit}
    {p : Canvas Number → Canvas Number → Bool}
    (h : (work sheet ops).toOption.any (fun c => (failed? m c).any (p c)) = true) :
    ∃ c f d, c.Handled ∧ m c = .error f d ∧ p c d = true := by
  rw [Option.any_eq_true] at h
  obtain ⟨c, hc, h⟩ := h
  rw [Option.any_eq_true] at h
  obtain ⟨d, hd, hp⟩ := h
  have hwork : work sheet ops = .ok c := Except.ok_of_toOption hc
  rw [failed?] at hd
  split at hd
  · cases hd
  · rename_i f e he
    cases hd
    exact ⟨c, f, d, (worked_of_work hwork).handled, he, hp⟩

/-- The law at a move that goes too far. -/
theorem failed_motion_forward : ∃ c f d, c.Handled
    ∧ (Motion.move (.forward (.int (10 ^ 400)))).act c = .error f d
    ∧ d.scene.turtles = c.scene.turtles
    ∧ (d = c ∨ (Motion.move (.forward (.int (10 ^ 400)))).Overreaches c) := by
  obtain ⟨c, f, d, hc, hmove, -⟩ := exists_failed []
    (m := (Motion.move (.forward (.int (10 ^ 400)))).act) (p := fun _ _ => true) (by decide +kernel)
  exact ⟨c, f, d, hc, hmove, failed_motion hc hmove⟩

/-- Between the greatest whole number that a real can hold and the next one there
    is room for a hop, which is drawn before the move fails. -/
theorem failed_motion_draws : ∃ c f d, c.Handled
    ∧ (Motion.move (.setX (.int ((2 ^ 54 - 1) * 2 ^ 970)))).act c = .error f d
    ∧ d.scene.log ≠ c.scene.log := by
  obtain ⟨c, f, d, hc, hmove, hlog⟩ := exists_failed
    [.setMode .wrap, .setX (.int ((2 ^ 54 - 1) * 2 ^ 970 - 1)), .setMode .window]
    (m := (Motion.move (.setX (.int ((2 ^ 54 - 1) * 2 ^ 970)))).act)
    (p := fun c d => c.scene.log.size != d.scene.log.size) (by decide +kernel)
  refine ⟨c, f, d, hc, hmove, fun hsame => ?_⟩
  rw [hsame] at hlog
  simp at hlog

end Canvas

end TurtleLogo
