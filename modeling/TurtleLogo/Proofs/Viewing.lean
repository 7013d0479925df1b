import TurtleLogo.Proofs.Export
import TurtleLogo.Proofs.Wrapping

/-! # Places on the canvas and points of the drawing

    A view leads from points to places on the canvas, and back.  In exact arithmetic
    the two ways undo each other, as long as the zoom is not zero.

    * The zoom is what it was at first or was cut off at its bounds, so it stays
      between them whatever is done to a view (`View.act_spec`, `View.runActs_spec`).
    * Between its bounds no zoom is zero, so nothing that is found by a division by it
      is missing (`View.Within.zoom_ne_zero`).
    * A canvas that is looked at in another way does to its view what can be done to
      views, also where nothing can be shown on its surface (`Canvas.look_spec`). -/

namespace TurtleLogo

/-- What is done to a view. -/
inductive ViewAct (α : Type) where
  | resize (width height : α)
  | zoomIn
  | zoomOut
  | pan (dx dy : α)
  | reset

namespace View

section

variable {α : Type} [Scalar α]

/-- A view to which something is done. -/
def act (v : View α) : ViewAct α → Except ArithmeticFault (View α)
  | .resize width height => v.resize width height
  | .zoomIn => v.zoomIn
  | .zoomOut => v.zoomOut
  | .pan dx dy => v.pan dx dy
  | .reset => .ok v.reset

/-- A view to which one thing after another is done. -/
def runActs : List (ViewAct α) → View α → Except ArithmeticFault (View α)
  | [], v => .ok v
  | a :: as, v => do
      let u ← v.act a
      runActs as u

/-- A list of one act does that act. -/
theorem runActs_singleton {v u : View α} {a : ViewAct α} (h : v.act a = .ok u) :
    runActs [a] v = .ok u := by
  rw [runActs, h]
  rfl

/-- The first act of a list is done before the others. -/
theorem runActs_cons {v u : View α} {a : ViewAct α} (h : v.act a = .ok u) (as : List (ViewAct α)) :
    runActs (a :: as) v = runActs as u := by
  rw [runActs, h]
  rfl

end

variable {K : Type} [Field K] [LinearOrder K] [FloorRing K] [Trigonometry K]

/-- The lesser of two exact numbers is found. -/
theorem exact_min (a b : K) : Scalar.min a b = min a b := by
  rw [Scalar.min, min_comm, min_def_lt]
  simp [Scalar.lt]

/-- The greater of two exact numbers is found. -/
theorem exact_max (a b : K) : Scalar.max a b = max a b := by
  rw [Scalar.max, max_def_lt]
  simp [Scalar.lt]

/-- The zoom of a view is between its bounds. -/
structure Within (v : View K) : Prop where
  low : minZoom ≤ v.zoom
  high : v.zoom ≤ maxZoom

/-- The least zoom is a quarter. -/
theorem minZoom_eq : (minZoom : K) = 1 / 4 := by
  show ((1 : ℤ) : K) / ((4 : ℕ) : K) = _
  norm_num

/-- The greatest zoom is four. -/
theorem maxZoom_eq : (maxZoom : K) = 4 := by
  show ((4 : ℤ) : K) = 4
  norm_num

/-- Each step of the zoom is by a fifth. -/
theorem zoomFactor_eq : (zoomFactor : K) = 6 / 5 := by
  show ((6 : ℤ) : K) / ((5 : ℕ) : K) = _
  norm_num

/-- A view that is resized is centred in the middle of the new size. -/
theorem resize_eq (v : View K) (width height : K) :
    v.resize width height = .ok { v with centerX := width / 2, centerY := height / 2 } := by
  have htwo : ((2 : ℤ) : K) ≠ 0 := by norm_num
  have hhalf : ∀ a : K, Scalar.div a (Scalar.ofInt 2) = .ok (a / 2) := by
    intro a
    rw [Scalar.exact_ofInt, Scalar.exact_div _ htwo, Int.cast_ofNat]
  rw [resize, centreAcross, hhalf]
  show (Scalar.div height (Scalar.ofInt 2) >>= _) = _
  rw [hhalf]
  rfl

/-- Zooming in multiplies the zoom, up to the greatest one. -/
theorem zoomIn_eq (v : View K) :
    v.zoomIn = .ok { v with zoom := min maxZoom (v.zoom * zoomFactor) } := by
  rw [← exact_min]
  rfl

/-- Zooming out divides it, down to the least one. -/
theorem zoomOut_eq (v : View K) :
    v.zoomOut = .ok { v with zoom := max minZoom (v.zoom / zoomFactor) } := by
  have hfactor : (zoomFactor : K) ≠ 0 := by
    rw [zoomFactor_eq]
    norm_num
  rw [zoomOut, Scalar.exact_div _ hfactor, ← exact_max]
  rfl

/-- Moving a view adds to where it was, in points of the drawing. -/
theorem pan_eq (v : View K) (dx dy : K) :
    v.pan dx dy = .ok { v with panX := v.panX + dx, panY := v.panY + dy } := rfl

/-- Resetting a view takes back the zoom and the moves. -/
theorem reset_eq (v : View K) : v.reset = { v with zoom := 1, panX := 0, panY := 0 } := by
  rw [reset, Scalar.zero, Scalar.exact_ofInt, Scalar.exact_ofInt, Int.cast_one, Int.cast_zero]

/-- A new view looks at the middle, without zoom. -/
theorem new_eq (width height : K) : new width height = .ok ⟨width / 2, height / 2, 1, 0, 0⟩ := by
  rw [new, resize_eq]
  show Except.ok (reset _) = _
  rw [reset_eq]

/-! ## There and back -/

/-- The place of a point is where it is from the centre, zoomed. -/
theorem toCanvas_eq (v : View K) (x y : K) : v.toCanvas x y
    = .ok (v.centerX + (x + v.panX) * v.zoom, v.centerY - (y + v.panY) * v.zoom) := rfl

/-- The point at a place is found by a division by the zoom. -/
theorem toLogical_eq {v : View K} (h : v.zoom ≠ 0) (px py : K) : v.toLogical px py
    = .ok ((px - v.centerX) / v.zoom - v.panX, -(py - v.centerY) / v.zoom - v.panY) := by
  show (Scalar.div (px - v.centerX) v.zoom >>= fun sx => Scalar.sub sx v.panX >>= fun x =>
    Scalar.div (-(py - v.centerY)) v.zoom >>= fun sy => Scalar.sub sy v.panY >>= fun y =>
      .ok (x, y)) = _
  rw [Scalar.exact_div _ h, Scalar.exact_div _ h]
  rfl

/-- The point at the place of a point is that point. -/
theorem toLogical_toCanvas {v : View K} (h : v.zoom ≠ 0) (x y : K) :
    ∃ p, v.toCanvas x y = .ok p ∧ v.toLogical p.1 p.2 = .ok (x, y) := by
  refine ⟨_, v.toCanvas_eq x y, ?_⟩
  rw [toLogical_eq h]
  congr 2 <;> field_simp <;> ring

/-- The place of the point at a place is that place. -/
theorem toCanvas_toLogical {v : View K} (h : v.zoom ≠ 0) (px py : K) :
    ∃ q, v.toLogical px py = .ok q ∧ v.toCanvas q.1 q.2 = .ok (px, py) := by
  refine ⟨_, toLogical_eq h px py, ?_⟩
  rw [toCanvas_eq]
  congr 2 <;> field_simp <;> ring

/-! ## What is done to views -/

variable [IsStrictOrderedRing K]

/-- A zoom between its bounds is positive. -/
theorem Within.zoom_pos {v : View K} (h : v.Within) : 0 < v.zoom := by
  have hlow := h.low
  rw [minZoom_eq] at hlow
  linarith

theorem Within.zoom_ne_zero {v : View K} (h : v.Within) : v.zoom ≠ 0 := h.zoom_pos.ne'

/-- The bounds of the zoom are in order. -/
theorem minZoom_le_maxZoom : (minZoom : K) ≤ maxZoom := by
  rw [minZoom_eq, maxZoom_eq]
  norm_num

/-- A view that is reset is between the bounds. -/
theorem within_reset (v : View K) : v.reset.Within := by
  rw [reset_eq]
  constructor
  · rw [minZoom_eq]
    norm_num
  · rw [maxZoom_eq]
    norm_num

/-- A step closer makes the zoom greater, and does not pass the greatest. -/
theorem zoomIn_spec {v : View K} (h : v.Within) : ∃ u, v.zoomIn = .ok u ∧ u.Within := by
  have hcloser : v.zoom ≤ v.zoom * zoomFactor := by
    have hpos := h.zoom_pos
    rw [zoomFactor_eq]
    linarith
  exact ⟨_, v.zoomIn_eq, le_min minZoom_le_maxZoom (h.low.trans hcloser), min_le_left _ _⟩

/-- A step away makes the zoom less, and does not pass the least. -/
theorem zoomOut_spec {v : View K} (h : v.Within) : ∃ u, v.zoomOut = .ok u ∧ u.Within := by
  have hfarther : v.zoom / zoomFactor ≤ v.zoom := by
    have hpos := h.zoom_pos
    rw [zoomFactor_eq]
    linarith
  exact ⟨_, v.zoomOut_eq, le_max_left _ _, max_le minZoom_le_maxZoom (hfarther.trans h.high)⟩

/-- Nothing that is done to a view fails, and nothing takes its zoom past the bounds. -/
theorem act_spec {v : View K} (h : v.Within) (a : ViewAct K) :
    ∃ u, v.act a = .ok u ∧ u.Within := by
  cases a with
  | resize width height => exact ⟨_, v.resize_eq width height, h.low, h.high⟩
  | zoomIn => exact zoomIn_spec h
  | zoomOut => exact zoomOut_spec h
  | pan dx dy => exact ⟨_, v.pan_eq dx dy, h.low, h.high⟩
  | reset => exact ⟨_, rfl, within_reset v⟩

/-- Whatever is done to a view succeeds and stays between the bounds. -/
theorem runActs_spec {v : View K} (h : v.Within) (as : List (ViewAct K)) :
    ∃ u, runActs as v = .ok u ∧ u.Within := by
  induction as generalizing v with
  | nil => exact ⟨v, rfl, h⟩
  | cons a as ih =>
      obtain ⟨u, hu, hwithin⟩ := act_spec h a
      rw [runActs_cons hu]
      exact ih hwithin

/-- There is a new view for every size, between the bounds. -/
theorem new_spec (width height : K) : ∃ v, new width height = .ok v ∧ v.Within := by
  refine ⟨_, new_eq width height, ?_⟩
  have hreset := within_reset (⟨width / 2, height / 2, 1, 0, 0⟩ : View K)
  rwa [reset_eq] at hreset

end View

namespace Canvas

/-- What is done to look at a canvas in another way, or to find out where a place of it
    is. -/
inductive Look (α : Type) where
  | zoomIn
  | zoomOut
  | pan (dx dy : α)
  | reset
  | redraw
  | place (px py : α)

section

variable {α : Type} [Scalar α]

/-- Looks at a canvas. -/
def look : Look α → CanvasM α Unit
  | .zoomIn => zoomIn
  | .zoomOut => zoomOut
  | .pan dx dy => pan dx dy
  | .reset => resetView
  | .redraw => redraw
  | .place px py => do let _ ← coordinatesAt px py

end

variable {K : Type} [Field K] [LinearOrder K] [FloorRing K] [Trigonometry K]

/-- The canvas with its view centred on the surface. -/
def centred (c : Canvas K) : Canvas K :=
  ⟨{ c.scene with view := { c.scene.view with
      centerX := (c.surface.width : K) / Scalar.ofInt 2
      centerY := (c.surface.height : K) / Scalar.ofInt 2 } }, c.surface⟩

/-- To centre the view of a canvas is to fit it to the size of the surface. -/
theorem resize_centred (c : Canvas K) :
    c.scene.view.resize (c.surface.width : K) (c.surface.height : K)
      = .ok c.centred.scene.view := by
  rw [View.resize_eq, centred, Scalar.exact_ofInt, Int.cast_ofNat]

/-- Centring a view in exact arithmetic succeeds. -/
theorem centreView_exact (c : Canvas K) : centreView c = .ok () c.centred :=
  centreView_ok_iff.2 ⟨_, resize_centred c, rfl⟩

/-- What is shown anew has its view centred, also if showing it fails. -/
theorem view_redraw (c : Canvas K) : (endOf (redraw c)).scene.view = c.centred.scene.view := by
  have hclean : centreView ⟨{ c.scene with dirty := false }, c.surface⟩
      = .ok () ⟨{ c.centred.scene with dirty := false }, c.surface⟩ := centreView_exact _
  rw [redraw, change_bind, bind_of_ok hclean, get_bind, endOf_onSurface]

/-- A change of the view that is shown at once. -/
theorem view_redraw_after {v : View K} {a : ViewAct K} {m : CanvasM K Unit} {c d : Canvas K}
    (hm : m c = .ok () d) (ha : v.act a = .ok d.scene.view) :
    View.runActs [a, .resize (d.surface.width : K) (d.surface.height : K)] v
      = .ok (endOf ((m >>= fun _ => redraw) c)).scene.view := by
  rw [View.runActs_cons ha, bind_of_ok hm, view_redraw]
  exact View.runActs_singleton (resize_centred d)

/-- The point at a place is found, if the zoom is not zero. -/
theorem coordinatesAt_exact {c : Canvas K} (h : c.scene.view.zoom ≠ 0) (px py : K) :
    ∃ q, c.centred.scene.view.toLogical px py = .ok q
      ∧ coordinatesAt px py c = .ok (nearestEven q.1, nearestEven q.2) c.centred := by
  have hzoom : c.centred.scene.view.zoom ≠ 0 := h
  have hplace := View.toLogical_eq hzoom px py
  refine ⟨_, hplace, ?_⟩
  rw [coordinatesAt, bind_of_ok (centreView_exact c),
    bind_of_ok (rfl : scene? c.centred = .ok c.centred.scene c.centred), hplace]
  rfl

variable [IsStrictOrderedRing K]

/-- However a look at a canvas ends, its view is one that is reached from the old one. -/
theorem look_spec {c : Canvas K} (h : c.scene.view.Within) (l : Look K) :
    ∃ acts, View.runActs acts c.scene.view = .ok (endOf (look l c)).scene.view := by
  cases l with
  | zoomIn =>
      obtain ⟨v, hv, -⟩ := View.zoomIn_spec h
      exact ⟨_, view_redraw_after (a := .zoomIn) (changeView_eq hv) hv⟩
  | zoomOut =>
      obtain ⟨v, hv, -⟩ := View.zoomOut_spec h
      exact ⟨_, view_redraw_after (a := .zoomOut) (changeView_eq hv) hv⟩
  | pan dx dy =>
      -- the canvas is moved to the side and then up, the view at once
      have hacross := changeView_eq (f := fun v => v.moveAcross dx) (c := c) rfl
      rw [look, pan, bind_of_ok hacross]
      exact ⟨_, view_redraw_after (a := .pan dx dy) (changeView_eq rfl) rfl⟩
  | reset => exact ⟨_, view_redraw_after (a := .reset) (d := ⟨{ c.scene with
      view := c.scene.view.reset }, c.surface⟩) rfl rfl⟩
  | redraw =>
      refine ⟨[.resize (c.surface.width : K) (c.surface.height : K)], ?_⟩
      rw [look, view_redraw]
      exact View.runActs_singleton (resize_centred c)
  | place px py =>
      obtain ⟨q, -, hq⟩ := coordinatesAt_exact h.zoom_ne_zero px py
      refine ⟨[.resize (c.surface.width : K) (c.surface.height : K)], ?_⟩
      rw [look, bind_of_ok hq]
      exact View.runActs_singleton (resize_centred c)

/-- In exact arithmetic, whatever is done to the view of a canvas of any size: its zoom
    stays between its bounds, points and places lead back to each other, and a canvas with
    such a view is measured and asked for points without fault.  However a look at that
    canvas ends, it has such a view again. -/
theorem view_there_and_back (width height : K) (acts : List (ViewAct K)) :
    ∃ v, (View.new width height >>= View.runActs acts) = .ok v
      ∧ View.minZoom ≤ v.zoom ∧ v.zoom ≤ View.maxZoom ∧ v.zoom ≠ 0
      ∧ (∀ x y, ∃ p, v.toCanvas x y = .ok p ∧ v.toLogical p.1 p.2 = .ok (x, y))
      ∧ (∀ px py, ∃ q, v.toLogical px py = .ok q ∧ v.toCanvas q.1 q.2 = .ok (px, py))
      ∧ ∀ c : Canvas K, c.scene.view = v → (∃ half, halfExtents c = .ok half c)
        ∧ (∀ px py, ∃ p d, coordinatesAt px py c = .ok p d)
        ∧ ∀ l, ∃ more, View.runActs more v = .ok (endOf (look l c)).scene.view := by
  obtain ⟨u, hu, hfirst⟩ := View.new_spec width height
  obtain ⟨v, hv, hwithin⟩ := View.runActs_spec hfirst acts
  have hzoom := hwithin.zoom_ne_zero
  refine ⟨v, ?_, hwithin.low, hwithin.high, hzoom, View.toLogical_toCanvas hzoom,
    View.toCanvas_toLogical hzoom, ?_⟩
  · rw [hu]
    exact hv
  rintro c rfl
  refine ⟨⟨_, halfExtents_exact hzoom⟩, fun px py => ?_, look_spec hwithin⟩
  obtain ⟨q, -, hq⟩ := coordinatesAt_exact hzoom px py
  exact ⟨_, _, hq⟩

/-- Once closer, and then to the side and up, and where the middle of the drawing is then. -/
theorem view_there_and_back_closer : ∃ v : View ℚ,
    (View.new 400 300 >>= View.runActs [.zoomIn, .pan 10 5]) = .ok v
      ∧ v.toCanvas 0 0 = .ok (212, 144) ∧ v.toLogical 212 144 = .ok (0, 0) := by
  obtain ⟨v, hv, -, -, -, hback, -⟩ :=
    view_there_and_back (400 : ℚ) 300 [.zoomIn, .pan 10 5]
  have hcloser : (⟨200, 150, 1, 0, 0⟩ : View ℚ).act .zoomIn = .ok ⟨200, 150, 6 / 5, 0, 0⟩ := by
    rw [View.act, View.zoomIn_eq]
    norm_num [View.maxZoom_eq, View.zoomFactor_eq]
  have hmoved : (⟨200, 150, 6 / 5, 0, 0⟩ : View ℚ).act (.pan 10 5)
      = .ok ⟨200, 150, 6 / 5, 10, 5⟩ := by
    rw [View.act, View.pan_eq]
    norm_num
  have hview : v = ⟨200, 150, 6 / 5, 10, 5⟩ := by
    have hfirst : (400 / 2 : ℚ) = 200 ∧ (300 / 2 : ℚ) = 150 := by norm_num
    rw [View.new_eq, hfirst.1, hfirst.2] at hv
    change View.runActs _ _ = _ at hv
    rw [View.runActs_cons hcloser, View.runActs_singleton hmoved] at hv
    exact (Except.ok.inj hv).symm
  have hmiddle : v.toCanvas 0 0 = .ok (212, 144) := by
    rw [hview, View.toCanvas_eq]
    norm_num
  obtain ⟨p, hp, hlogical⟩ := hback 0 0
  cases hp.symm.trans hmiddle
  exact ⟨v, hv, hmiddle, hlogical⟩

end Canvas

end TurtleLogo
