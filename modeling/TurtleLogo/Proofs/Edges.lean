import TurtleLogo.Proofs.Picture
import TurtleLogo.Proofs.Quantity
import TurtleLogo.Proofs.Sound

/-! # Turtles that stay inside

    Where a turtle is after it has moved on a canvas whose edge wraps or stops it.

    * A coordinate that is wrapped or stopped is not farther out than the edge
      (`le_wrapCoordinate`, `le_clampCoordinate`): the rounding of a sum does not
      lead past a number that bounds the sum.
    * The zoom stays between its bounds whatever is done to a canvas
      (`Canvas.Framed.act`), so the edges are where numbers are neither tiny nor
      huge (`Number.isEdge_of_div`).
    * Every straight move ends inside; an arc never looks at the edge
      (`Canvas.inside_unless_arc`). -/

namespace TurtleLogo

/-! ## Coordinates -/

/-- How far an edge can be from the middle. -/
def Number.IsEdge (half : Number) : Prop :=
  ∃ y, half = .real y ∧ y.isFinite = true ∧ y.isNeg = false ∧ 0 < y.magnitude
    ∧ y.magnitude < 2 ^ (969 : ℤ)

/-- An edge is finite. -/
theorem Number.IsEdge.finite {half : Number} (h : half.IsEdge) : half.isFinite = true := by
  obtain ⟨y, rfl, hy, -⟩ := h
  exact hy

/-- An edge is right of the middle. -/
theorem Number.IsEdge.positive {half : Number} (h : half.IsEdge) : 0 < half.value := by
  obtain ⟨y, rfl, -, hneg, hpos, -⟩ := h
  show 0 < y.value
  rw [Binary64.value_of_isNeg hneg]
  exact hpos

/-- Finite numbers are as far out as an edge at most exactly if their values are. -/
theorem Number.le_abs_iff {v h : Number} (hv : v.isFinite = true) (hh : h.isFinite = true) :
    le v.abs h = true ↔ |v.value| ≤ h.value := by
  rw [le_iff ((isFinite_abs v).trans hv) hh, value_abs]

/-- A finite number is brought back over the edge. -/
theorem Binary64.magnitude_wrapped_le {x y : Binary64} (hx : x.isFinite = true)
    (hy : y.isFinite = true) (hpos : y.isNeg = false) (hsmall : y.magnitude < 2 ^ (969 : ℤ))
    (hzero : (mul (ofInt 2) y).isZero = false) :
    (sub (mod (add x y) (mul (ofInt 2) y)) y).isFinite = true
      ∧ (sub (mod (add x y) (mul (ofInt 2) y)) y).magnitude ≤ y.magnitude := by
  have htwo : (ofInt 2).isFinite = true ∧ (ofInt 2).isNeg = false ∧ (ofInt 2).magnitude = 2 := by
    obtain ⟨z, hz, hvalue⟩ := exists_power (k := 1) (by norm_num) (by norm_num)
    rw [zpow_one] at hvalue
    obtain ⟨hfinite, hmagnitude⟩ :=
      magnitude_ofScaled_of_eq (a := 2) (e := 0) Nat.one_pos hz (by rw [hvalue]; norm_num) false
    exact ⟨hfinite, isNeg_ofScaled _ _ _ _, hmagnitude.trans hvalue⟩
  -- the width is exactly twice the edge, so the remainder is at most that
  obtain ⟨z, hz, hdouble⟩ := exists_double hy hsmall
  obtain ⟨a, e, hproduct, hmul⟩ := mul_eq htwo.1 hy
  rw [htwo.2.2, ← hdouble] at hproduct
  have hwidth : (mul (ofInt 2) y).isFinite = true
      ∧ (mul (ofInt 2) y).magnitude = 2 * y.magnitude := by
    rw [hmul, ← hdouble]
    exact magnitude_ofScaled_of_eq Nat.one_pos hz (by rw [Nat.cast_one, div_one, hproduct]) _
  have hwidth' : (mul (ofInt 2) y).isNeg = false := by
    rw [hmul, isNeg_ofScaled, htwo.2.1, hpos]
    rfl
  have hshifted : (add x y).isFinite = true := by
    refine isFinite_add hx hy ?_
    have hle : (2 : ℚ) ^ (969 : ℤ) ≤ 2 ^ (970 : ℤ) :=
      zpow_le_zpow_right₀ (by norm_num) (by norm_num)
    calc x.magnitude + y.magnitude < x.magnitude + 2 ^ (970 : ℤ) := by
          gcongr
          exact hsmall.trans_le hle
      _ ≤ limit := magnitude_add_le_limit x
  obtain ⟨hmod, hle⟩ := magnitude_mod_le hshifted hwidth.1 hzero
  -- and the edge is taken away from a remainder of its own sign
  have hsign : y.neg.isNeg = true := by
    cases y with
    | nan k => cases hy
    | _ => exact congrArg Bool.not hpos
  have hend := magnitude_add_opposite (y := y.neg) hmod ((isFinite_neg y).trans hy)
    (by rw [isNeg_mod hshifted hwidth.1 hzero hwidth', hsign]; rfl)
    (by rw [magnitude_neg, ← hwidth.2]; exact hle)
  rw [magnitude_neg] at hend
  exact hend

section

variable {half : Number} (hhalf : half.IsEdge)
include hhalf

/-- A coordinate that is stopped at an edge is not farther out. -/
theorem le_clampCoordinate (v : Number) : Number.le (clampCoordinate v half).abs half = true := by
  have hfinite := hhalf.finite
  have hpos := hhalf.positive
  have hneg : half.neg.isFinite = true := (Number.isFinite_neg half).trans hfinite
  have hedge : Number.le half.neg.abs half = true := by
    rw [Number.le_abs_iff hneg hfinite, Number.value_neg, abs_neg, abs_of_pos hpos]
  have hedge' : Number.le half.abs half = true := by
    rw [Number.le_abs_iff hfinite hfinite, abs_of_pos hpos]
  show Number.le (if Number.lt half.neg (if Number.lt v half then v else half)
    then (if Number.lt v half then v else half) else half.neg).abs half = true
  by_cases hv : Number.lt v half = true
  · rw [if_pos hv]
    split
    · rename_i hlow
      have hbetween : v.isFinite = true := Number.isFinite_of_between hlow hv
      rw [Number.lt_iff hneg hbetween, Number.value_neg] at hlow
      rw [Number.lt_iff hbetween hfinite] at hv
      rw [Number.le_abs_iff hbetween hfinite]
      exact abs_le.2 ⟨hlow.le, hv.le⟩
    · exact hedge
  · rw [if_neg hv]
    split
    · exact hedge'
    · exact hedge

/-- A finite coordinate that is wrapped is not farther out than the edge. -/
theorem le_wrapCoordinate {v r : Number} (hv : v.isFinite = true)
    (h : wrapCoordinate v half = .ok r) : Number.le r.abs half = true := by
  have hfinite := hhalf.finite
  have hneg : half.neg.isFinite = true := (Number.isFinite_neg half).trans hfinite
  have hpositive : Number.le half (.int 0) = false := by
    rw [← Bool.not_eq_true, Number.le_iff hfinite rfl, not_le]
    show ((0 : ℤ) : ℚ) < _
    rw [Int.cast_zero]
    exact hhalf.positive
  change (if Number.le half (.int 0) || (Number.le half.neg v && Number.le v half) then .ok v
    else do
      let shifted ← Number.add v half
      let width ← Number.mul (.int 2) half
      let rest ← Number.mod shifted width
      Number.sub rest half) = .ok r at h
  rw [hpositive, Bool.false_or] at h
  split at h
  · rename_i hinside
    cases h
    rw [Bool.and_eq_true, Number.le_iff hneg hv, Number.le_iff hv hfinite, Number.value_neg]
      at hinside
    rw [Number.le_abs_iff hv hfinite]
    exact abs_le.2 hinside
  · obtain ⟨y, rfl, hy, hsign, hpos, hsmall⟩ := hhalf
    obtain ⟨shifted, hshifted, h⟩ := Except.bind_eq_ok h
    obtain ⟨width, hwidth, h⟩ := Except.bind_eq_ok h
    obtain ⟨rest, hrest, h⟩ := Except.bind_eq_ok h
    obtain ⟨x, hx, rfl⟩ := Number.combine_left_ok hshifted
    obtain ⟨z, hz, rfl⟩ := Number.combine_left_ok hwidth
    obtain ⟨rfl, htwo⟩ := Number.toReal_int_ok hz
    rw [Number.mod] at hrest
    split at hrest
    · cases hrest
    · rename_i hzero
      cases hrest
      cases h
      obtain ⟨hend, hle⟩ := Binary64.magnitude_wrapped_le ((Number.isFinite_of_toReal hx).1 hv) hy
        hsign hsmall (eq_false_of_ne_true hzero)
      rw [Number.le_abs_iff (v := .real _) (h := .real y) hend hy]
      show |Binary64.value _| ≤ y.value
      rw [Binary64.abs_value, Binary64.value_of_isNeg hsign]
      exact hle

end

/-! ## Zoom -/

/-- A zoom between the least and the greatest one. -/
structure Number.IsZoom (z : Number) : Prop where
  finite : z.isFinite = true
  low : 1 / 4 ≤ z.value
  high : z.value ≤ 4

/-- A float of ordinary size can be an edge. -/
theorem Binary64.Within.isEdge {j k : ℤ} {x : Binary64} (h : x.Within j k) (hk : k < 969) :
    (Number.real x).IsEdge :=
  ⟨x, rfl, h.finite, h.sign, h.positive,
    h.high.trans_lt (zpow_lt_zpow_right₀ (by norm_num) hk)⟩

namespace Number

/-- A zoom is a whole number from one to four, or a real. -/
theorem IsZoom.cases {z : Number} (h : z.IsZoom) : (∃ n : ℤ, z = .int n ∧ 1 ≤ n ∧ n ≤ 4)
    ∨ ∃ x, z = .real x ∧ x.Within (-2) 2 := by
  obtain ⟨hfinite, hlow, hhigh⟩ := h
  cases z with
  | int n =>
      change (1 : ℚ) / 4 ≤ n at hlow
      change (n : ℚ) ≤ 4 at hhigh
      have hpos : (0 : ℚ) < n := lt_of_lt_of_le (by norm_num) hlow
      exact .inl ⟨n, rfl, by exact_mod_cast hpos, by exact_mod_cast hhigh⟩
  | real x =>
      change 1 / 4 ≤ x.value at hlow
      change x.value ≤ 4 at hhigh
      have hsign : x.isNeg = false := by
        cases hneg : x.isNeg with
        | false => rfl
        | true =>
            have hnonneg := x.magnitude_nonneg
            rw [x.value_eq, hneg, if_pos rfl] at hlow
            linarith
      rw [Binary64.value_of_isNeg hsign] at hlow hhigh
      exact .inr ⟨x, rfl, hfinite, hsign, by norm_num; linarith, by norm_num; linarith⟩

/-- A float between the two powers of two is a zoom. -/
theorem isZoom_of_within {x : Binary64} (h : x.Within (-2) 2) : (Number.real x).IsZoom := by
  have hlow := h.low
  have hhigh := h.high
  norm_num at hlow hhigh
  refine ⟨h.finite, ?_, ?_⟩
  · show _ ≤ x.value
    rw [h.value]
    linarith
  · show x.value ≤ _
    rw [h.value]
    linarith

/-- A zoom as a real. -/
theorem IsZoom.toReal {z : Number} (h : z.IsZoom) : ∃ x, z.toReal = .ok x ∧ x.Within (-2) 2 := by
  rcases h.cases with ⟨n, rfl, hlow, hhigh⟩ | ⟨x, rfl, hx⟩
  · have hlow' : ((1 : ℤ) : ℚ) ≤ n := Int.cast_le.2 hlow
    have hhigh' : (n : ℚ) ≤ (4 : ℤ) := Int.cast_le.2 hhigh
    push_cast at hlow' hhigh'
    have hwithin : (Binary64.ofInt n).Within (-2) 2 := .ofInt (by omega) (by norm_num)
      (by norm_num) (by norm_num; linarith) (by norm_num; linarith)
    exact ⟨_, toReal_int hwithin.finite, hwithin⟩
  · exact ⟨x, rfl, hx⟩

theorem isZoom_one : IsZoom (.int 1) :=
  ⟨rfl, by norm_num [value], by norm_num [value]⟩

/-- How far the edge is that a side and a zoom put where it is. -/
theorem isEdge_of_div {side : ℤ} (hlow : 1 ≤ side) (hhigh : side.natAbs < 2 ^ 960)
    {zoom wide half : Number} (hzoom : zoom.IsZoom) (hwide : mul (.int 2) zoom = .ok wide)
    (hhalf : div (.int side) wide = .ok half) : half.IsEdge := by
  have hone : ((1 : ℤ) : ℚ) ≤ side := Int.cast_le.2 hlow
  have hside : (side : ℚ) < 2 ^ (960 : ℤ) := by
    have hcast : ((side.natAbs : ℕ) : ℚ) < 2 ^ (960 : ℤ) := by exact_mod_cast hhigh
    rwa [Nat.cast_natAbs, abs_of_pos (by omega)] at hcast
  rw [Int.cast_one] at hone
  rcases hzoom.cases with ⟨n, rfl, hn, hn'⟩ | ⟨x, rfl, hx⟩
  · -- a quotient of whole numbers
    cases hwide
    change div (.int side) (.int (2 * n)) = .ok half at hhalf
    have hn0 : (0 : ℚ) < ((2 * n : ℤ) : ℚ) := Int.cast_pos.2 (by omega)
    have hn8 : ((2 * n : ℤ) : ℚ) ≤ ((8 : ℤ) : ℚ) := Int.cast_le.2 (by omega)
    have hn1 : ((1 : ℤ) : ℚ) ≤ ((2 * n : ℤ) : ℚ) := Int.cast_le.2 (by omega)
    rw [Int.cast_ofNat] at hn8
    rw [Int.cast_one] at hn1
    have hwithin : (Binary64.ofRatio side (2 * n)).Within (-3) 960 := by
      refine .ofRatio (by omega) (by omega) (by norm_num) (by norm_num) ?_ ?_
      · rw [le_div_iff₀ hn0]
        calc (2 : ℚ) ^ (-3 : ℤ) * ((2 * n : ℤ) : ℚ) ≤ 2 ^ (-3 : ℤ) * 8 := by gcongr
          _ = 1 := by norm_num
          _ ≤ side := hone
      · exact (div_le_self (by linarith) hn1).trans hside.le
    rw [div_int (by omega), if_pos hwithin.finite] at hhalf
    cases hhalf
    exact hwithin.isEdge (by norm_num)
  · -- a quotient of reals
    obtain ⟨two, htwo, rfl⟩ := combine_left_ok hwide
    obtain ⟨rfl, -⟩ := toReal_int_ok htwo
    have hdouble : ((Binary64.ofInt 2).mul x).Within (1 + -2) (1 + 2) :=
      Binary64.Within.mul (.ofInt (by norm_num) (by norm_num) (by norm_num) (by norm_num)
        (by norm_num)) hx (by norm_num) (by norm_num)
    rw [div_by_real hdouble.isZero] at hhalf
    obtain ⟨y, hy, rfl⟩ := combine_left_ok hhalf
    obtain ⟨rfl, -⟩ := toReal_int_ok hy
    have hnumerator : (Binary64.ofInt side).Within 0 960 :=
      .ofInt (by omega) (by norm_num) (by norm_num) (by rw [zpow_zero]; exact hone) hside.le
    exact (hnumerator.div hdouble (by norm_num) (by norm_num)).isEdge (by norm_num)

end Number

namespace View

/-- The step between two zooms. -/
theorem within_zoomFactor : (Binary64.ofRatio 6 5).Within 0 1 :=
  .ofRatio (by norm_num) (by norm_num) (by norm_num) (by norm_num) (by norm_num) (by norm_num)

/-- The least zoom is a quarter exactly. -/
theorem within_minZoom : (Binary64.ofRatio 1 4).Within (-2) (-2) :=
  .ofRatio (by norm_num) (by norm_num) (by norm_num) (by norm_num) (by norm_num) (by norm_num)

/-- Zooming in stays between the bounds. -/
theorem isZoom_zoomIn {v v' : View Number} (h : v.zoom.IsZoom) (hv : v.zoomIn = .ok v') :
    v'.zoom.IsZoom := by
  obtain ⟨z, hz, hv⟩ := Except.bind_eq_ok hv
  cases hv
  obtain ⟨x, hx, hwithin⟩ := h.toReal
  obtain ⟨y, hy, rfl⟩ := Number.combine_left_ok hz
  obtain rfl : y = x := Except.ok.inj (hy.symm.trans hx)
  have hproduct := hwithin.mul within_zoomFactor (by norm_num) (by norm_num)
  show (if Number.lt _ (.int 4) then _ else Number.int 4).IsZoom
  split
  · rename_i hlt
    have hlt := (Number.lt_iff (a := .real _) (b := .int 4) hproduct.finite rfl).1 hlt
    change Binary64.value _ < ((4 : ℤ) : ℚ) at hlt
    rw [hproduct.value] at hlt
    refine Number.isZoom_of_within ⟨hproduct.finite, hproduct.sign, hproduct.low, hlt.le.trans ?_⟩
    norm_num
  · exact ⟨rfl, by norm_num [Number.value], by norm_num [Number.value]⟩

/-- Zooming out stays between the bounds. -/
theorem isZoom_zoomOut {v v' : View Number} (h : v.zoom.IsZoom) (hv : v.zoomOut = .ok v') :
    v'.zoom.IsZoom := by
  obtain ⟨z, hz, hv⟩ := Except.bind_eq_ok hv
  cases hv
  obtain ⟨x, hx, hwithin⟩ := h.toReal
  change Number.div v.zoom (.real (Binary64.ofRatio 6 5)) = .ok z at hz
  rw [Number.div_by_real within_zoomFactor.isZero] at hz
  obtain ⟨y, hy, rfl⟩ := Number.combine_left_ok hz
  obtain rfl : y = x := Except.ok.inj (hy.symm.trans hx)
  have hquotient := hwithin.div within_zoomFactor (by norm_num) (by norm_num)
  show (if Number.lt (.real (Binary64.ofRatio 1 4)) _ then _
    else Number.real (Binary64.ofRatio 1 4)).IsZoom
  split
  · rename_i hlt
    have hlt := (Number.lt_iff (a := .real (Binary64.ofRatio 1 4)) (b := .real _)
      within_minZoom.finite hquotient.finite).1 hlt
    change Binary64.value _ < Binary64.value _ at hlt
    rw [hquotient.value, within_minZoom.value] at hlt
    exact Number.isZoom_of_within
      ⟨hquotient.finite, hquotient.sign, within_minZoom.low.trans hlt.le, hquotient.high⟩
  · exact Number.isZoom_of_within ⟨within_minZoom.finite, within_minZoom.sign, within_minZoom.low,
      within_minZoom.high.trans (zpow_le_zpow_right₀ (by norm_num) (by norm_num))⟩

end View

/-! ## Canvases -/

/-- A surface of at least one pixel that is not huge. -/
structure Surface.Roomy (u : Surface Number) : Prop extends u.Ordinary where
  wide : 1 ≤ u.width
  high : 1 ≤ u.height

namespace Canvas

/-- A canvas whose edges are neither too close nor too far out. -/
structure Framed (c : Canvas Number) : Prop where
  zoom : c.scene.view.zoom.IsZoom
  surface : c.surface.Roomy

/-- What turtles do does not move the edges. -/
theorem motions_framed : Motions fun c d : Canvas Number => c.Framed → d.Framed where
  refl _ h := h
  trans h h' := h' ∘ h
  turtle _ _ _ _ h := ⟨h.zoom, h.surface⟩
  line _ _ _ _ _ _ _ h := ⟨h.zoom, h.surface⟩
  circle _ _ _ _ _ _ h := ⟨h.zoom, h.surface⟩
  arc _ _ _ _ _ _ _ _ _ _ _ _ _ _ h := ⟨h.zoom, h.surface⟩
  touch _ _ h := ⟨h.zoom, h.surface⟩
  tell _ _ _ _ h := ⟨h.zoom, h.surface⟩
  mode _ _ _ h := ⟨h.zoom, h.surface⟩

/-- An action that leaves a framed canvas, however it ends. -/
abbrev Frames {β : Type} (m : CanvasM Number β) : Prop :=
  Within (fun c d => c.Framed → d.Framed) m

/-- A change of the scene that keeps the zoom within its bounds keeps canvases
    framed. -/
theorem frames_change {f : Scene Number → Scene Number}
    (hf : ∀ s, s.view.zoom.IsZoom → (f s).view.zoom.IsZoom) : Frames (change f) :=
  fun c h => ⟨hf c.scene h.zoom, h.surface⟩

/-- A change of the view that keeps the zoom within its bounds keeps canvases
    framed. -/
theorem frames_changeView {f : View Number → Except ArithmeticFault (View Number)}
    (hf : ∀ v v', v.zoom.IsZoom → f v = .ok v' → v'.zoom.IsZoom) : Frames (changeView f) := by
  intro c h
  cases hv : f c.scene.view with
  | ok v =>
      rw [show Canvas.changeView f c = .ok () ⟨{ c.scene with view := v }, c.surface⟩ by
        rw [Canvas.changeView, get_bind, hv]; rfl]
      exact ⟨hf _ _ h.zoom hv, h.surface⟩
  | error g =>
      rw [show Canvas.changeView f c = .error (.arithmetic g) c by
        rw [Canvas.changeView, get_bind, hv]; rfl]
      exact h

/-- What happens on the surface keeps canvases framed if it keeps the size. -/
theorem frames_onSurface {β : Type} {m : EStateM Fault (Surface Number) β}
    (hm : ∀ u, (endOf (m u)).width = u.width ∧ (endOf (m u)).height = u.height) :
    Frames (onSurface m) := by
  intro c h
  rw [endOf_onSurface]
  obtain ⟨hwidth, hheight⟩ := hm c.surface
  have hroomy := h.surface
  exact ⟨h.zoom, ⟨⟨by rw [hwidth]; exact hroomy.width, by rw [hheight]; exact hroomy.height⟩,
    by rw [hwidth]; exact hroomy.wide, by rw [hheight]; exact hroomy.high⟩⟩

/-- Centring the view keeps canvases framed. -/
theorem frames_centreView : Frames centreView := by
  refine .get_bind fun c => .bind motions_framed.toMoves (frames_changeView fun v v' h hv => ?_) fun _ =>
    frames_changeView fun v v' h hv => ?_
  · obtain ⟨cx, -, hv⟩ := Except.bind_eq_ok hv
    cases hv
    exact h
  · obtain ⟨cy, -, hv⟩ := Except.bind_eq_ok hv
    cases hv
    exact h

/-- A redraw keeps canvases framed. -/
theorem frames_redraw : Frames redraw := by
  refine .bind motions_framed.toMoves (frames_change fun _ h => h) fun _ => ?_
  refine .bind motions_framed.toMoves frames_centreView fun _ => .get_bind fun c => ?_
  refine frames_onSurface fun u => ?_
  have hsize := Surface.marks_replay c.scene u
  exact ⟨hsize.width, hsize.height⟩

/-- Saving the picture keeps canvases framed. -/
theorem frames_savePicture (path : Text) : Frames (savePicture path) := by
  refine .bind motions_framed.toMoves (.get_bind fun _ => .pure motions_framed.toMoves _) fun s => ?_
  refine .wrapUp motions_framed.toMoves ?_ ?_ ?_
  · refine .bind motions_framed.toMoves (frames_change fun _ h => h) fun _ =>
      .bind motions_framed.toMoves frames_redraw fun _ => frames_onSurface fun u => ?_
    rw [Surface.save, get_bind]
    cases u.kind with
    | recording => exact ⟨rfl, rfl⟩
    | plain => exact ⟨rfl, rfl⟩
    | raster =>
        dsimp only
        cases u.folder.target (Folder.pictureName path) <;> exact ⟨rfl, rfl⟩
  · exact .bind motions_framed.toMoves (frames_change fun _ h => h) fun _ => frames_redraw
  · exact .bind motions_framed.toMoves (frames_change fun _ h => h) fun _ => frames_redraw

/-- Whatever is done to a canvas, its edges stay within reach. -/
theorem Framed.act {c : Canvas Number} (h : c.Framed) (op : Operation Number) :
    (endOf (op.act c)).Framed := by
  have H := motions_framed.toMoves
  have hall : Frames op.act := by
    cases op with
    | forward distance => exact within_forward H distance
    | back distance => exact within_forward H _
    | left angle => exact within_left H angle
    | right angle => exact within_right H angle
    | setHeading angle => exact within_setHeading H angle
    | home => exact within_home H
    | moveTo x y => exact within_moveTo H x y
    | setX x => exact within_setX H x
    | setY y => exact within_setY H y
    | circle radius => exact within_circle H radius
    | arc angle radius => exact within_arc H angle radius
    | beginFill => exact .bind H (within_turtle H) fun _ => frames_change fun _ h => h
    | endFill =>
        refine frames_change fun s h => ?_
        rw [Scene.endFill]
        split <;> exact h
    | cancelFill => exact frames_change fun _ h => h
    | setPenDown down => exact within_changeTurtle H fun _ => ⟨fun _ h => h, .inl fun _ => rfl⟩
    | setPenColor color => exact within_changeTurtle H fun _ => ⟨fun _ h => h, .inl fun _ => rfl⟩
    | setPenSize size => exact within_setPenSize H size
    | setPenMode mode => exact within_changeTurtle H fun _ => ⟨fun _ h => h, .inl fun _ => rfl⟩
    | setBackground color => exact .bind H (frames_change fun _ h => h) fun _ => frames_redraw
    | setMode mode => exact within_setMode H mode
    | setVisible visible => exact within_setVisible H visible
    | tell who => exact within_tell motions_framed who
    | clearScreen => exact .bind H (frames_change fun _ h => h) fun _ => frames_redraw
    | clean => exact .bind H (frames_change fun _ h => h) fun _ => frames_redraw
    | zoomIn =>
        exact .bind H (frames_changeView fun _ _ => View.isZoom_zoomIn) fun _ => frames_redraw
    | zoomOut =>
        exact .bind H (frames_changeView fun _ _ => View.isZoom_zoomOut) fun _ => frames_redraw
    | pan dx dy =>
        refine .bind H (frames_changeView fun v v' h hv => ?_) fun _ =>
          .bind H (frames_changeView fun v v' h hv => ?_) fun _ => frames_redraw
        · obtain ⟨x, -, hv⟩ := Except.bind_eq_ok hv
          cases hv
          exact h
        · obtain ⟨y, -, hv⟩ := Except.bind_eq_ok hv
          cases hv
          exact h
    | resetView =>
        exact .bind H (frames_change fun _ _ => Number.isZoom_one) fun _ => frames_redraw
    | coordinatesAt px py =>
        refine .bind H (.bind H frames_centreView fun _ => .bind H (.get_bind fun _ => .pure H _)
          fun s => .bind H (.compute H _) fun _ => ?_) fun _ => .pure H ()
        exact .bind H (.compute H _) fun _ => .bind H (.compute H _) fun _ => .pure H _
    | savePicture path => exact frames_savePicture path
    | redraw => exact frames_redraw
    | reset => exact .bind H (frames_change fun _ _ => Number.isZoom_one) fun _ => frames_redraw
  exact hall c h

/-- The canvases that there are: a new one, and what is left after an operation
    that may have failed or after a change of the surface. -/
inductive Used : Canvas Number → Prop
  | new {surface : Surface Number} {c : Canvas Number} (hsurface : surface.Roomy)
      (h : Canvas.new surface = .ok c) : Used c
  | act {c : Canvas Number} (h : Used c) (op : Operation Number) : Used (endOf (op.act c))
  | resize {c : Canvas Number} (h : Used c) {surface : Surface Number} (hsurface : surface.Roomy) :
      Used ⟨c.scene, surface⟩

/-- All canvases that there are are framed. -/
theorem Used.framed {c : Canvas Number} (h : c.Used) : c.Framed := by
  induction h with
  | @new surface c hsurface h =>
      obtain ⟨view, -, hreset⟩ := reset_of_new h
      have hend : (endOf (reset ⟨Scene.new view, surface⟩)).Framed :=
        Framed.act (c := ⟨Scene.new view, surface⟩) ⟨Number.isZoom_one, hsurface⟩ .reset
      rw [hreset] at hend
      exact hend
  | act _ op ih => exact ih.act op
  | resize _ hsurface ih => exact ⟨ih.zoom, hsurface⟩

/-! ## Straight moves -/

/-- Half the width and height of what a view shows of a surface. -/
def extents (v : View Number) (u : Surface Number) : Except ArithmeticFault (Point Number) := do
  let wide ← Number.mul (.int 2) v.zoom
  let x ← Number.div (.int u.width) wide
  let high ← Number.mul (.int 2) v.zoom
  let y ← Number.div (.int u.height) high
  .ok (x, y)

/-- The current turtle is not past the edges. -/
def Inside (c : Canvas Number) : Prop :=
  ∃ t halfWidth halfHeight, c.scene.turtle? = some t
    ∧ halfExtents c = .ok (halfWidth, halfHeight) c
    ∧ t.x.abs.le halfWidth = true ∧ t.y.abs.le halfHeight = true

/-- Canvases with the same edges, and a current turtle in both or in neither. -/
structure Alongside (c d : Canvas Number) : Prop where
  view : d.scene.view = c.scene.view
  surface : d.surface = c.surface
  turtle : d.scene.turtle?.isSome = c.scene.turtle?.isSome

section

variable {c d e : Canvas Number}

theorem Alongside.refl (c : Canvas Number) : Alongside c c := ⟨rfl, rfl, rfl⟩

theorem Alongside.trans (h : Alongside c d) (h' : Alongside d e) : Alongside c e :=
  ⟨h'.view.trans h.view, h'.surface.trans h.surface, h'.turtle.trans h.turtle⟩

/-- The half extents only depend on the view and the surface. -/
theorem halfExtents_eq (c : Canvas Number) :
    halfExtents c = compute (extents c.scene.view c.surface) c := rfl

/-- A computation that succeeds leaves the canvas as it is. -/
theorem compute_ok {β : Type} {r : Except ArithmeticFault β} {b : β}
    (h : (compute r : CanvasM Number β) c = .ok b d) : r = .ok b ∧ d = c := by
  cases r with
  | ok a =>
      cases h
      exact ⟨rfl, rfl⟩
  | error f => cases h

/-- Canvases with the same edges have the same half extents. -/
theorem Alongside.halfExtents (h : Alongside c d) {p : Point Number}
    (hp : halfExtents c = .ok p c) : Canvas.halfExtents d = .ok p d := by
  rw [halfExtents_eq] at hp ⊢
  rw [h.view, h.surface, (compute_ok hp).1]
  rfl

/-- The half extents of a framed canvas are edges. -/
theorem halfExtents_ok (h : c.Framed) {p : Point Number} (hp : halfExtents c = .ok p d) :
    d = c ∧ p.1.IsEdge ∧ p.2.IsEdge := by
  rw [halfExtents_eq] at hp
  obtain ⟨hextents, hd⟩ := compute_ok hp
  obtain ⟨wide, hwide, hextents⟩ := Except.bind_eq_ok hextents
  obtain ⟨x, hx, hextents⟩ := Except.bind_eq_ok hextents
  obtain ⟨high, hhigh, hextents⟩ := Except.bind_eq_ok hextents
  obtain ⟨y, hy, hextents⟩ := Except.bind_eq_ok hextents
  cases hextents
  have hroomy := h.surface
  exact ⟨hd, Number.isEdge_of_div hroomy.wide hroomy.width h.zoom hwide hx,
    Number.isEdge_of_div hroomy.high hroomy.height h.zoom hhigh hy⟩

/-- A change of the current turtle leaves the edges where they are. -/
theorem alongside_mapTurtle (c : Canvas Number) (f : Turtle Number → Turtle Number) :
    Alongside c ⟨c.scene.mapTurtle f, c.surface⟩ := by
  refine ⟨rfl, rfl, ?_⟩
  dsimp only
  rw [turtle?_mapTurtle, Option.isSome_map]

theorem Alongside.touched (h : Alongside c d) : Alongside c ⟨d.scene.touch, d.surface⟩ :=
  ⟨h.view, h.surface, h.turtle⟩

/-- A stroke leaves the edges where they are. -/
theorem alongside_stroke (c : Canvas Number) (t : Turtle Number) (x1 y1 x2 y2 : Number) :
    Alongside c ⟨c.scene.stroke t x1 y1 x2 y2, c.surface⟩ := by
  obtain ⟨hturtles, hview, hcurrent⟩ := stroke_turtles c.scene t x1 y1 x2 y2
  refine ⟨hview, rfl, ?_⟩
  rw [Scene.turtle?, Scene.turtle?, hturtles, hcurrent]

/-- What begins with a computation succeeds only if the computation does. -/
theorem compute_bind_ok {β γ : Type} {r : Except ArithmeticFault β} {k : β → CanvasM Number γ}
    {b : γ} (h : (compute r >>= k) c = .ok b d) : ∃ a, r = .ok a ∧ k a c = .ok b d := by
  cases r with
  | ok a => exact ⟨a, rfl, h⟩
  | error f => cases h

theorem scene_bind {β : Type} (k : Scene Number → CanvasM Number β) (c : Canvas Number) :
    (scene? >>= k) c = k c.scene c := rfl

/-- What begins with the current turtle succeeds only if there is one. -/
theorem turtle_bind_ok {β : Type} {k : Turtle Number → CanvasM Number β} {b : β}
    (h : (turtle >>= k) c = .ok b d) : ∃ t, c.scene.turtle? = some t ∧ k t c = .ok b d := by
  cases ht : c.scene.turtle? with
  | some t =>
      rw [bind_of_ok (turtle_of_some ht)] at h
      exact ⟨t, rfl, h⟩
  | none =>
      rw [bind_of_error (turtle_of_none ht)] at h
      cases h

/-- What begins with the half extents of a framed canvas goes on with two edges. -/
theorem halfExtents_bind_ok (hc : c.Framed) {β : Type} {k : Point Number → CanvasM Number β} {b : β}
    (h : (halfExtents >>= k) c = .ok b d) : ∃ p, halfExtents c = .ok p c
      ∧ p.1.IsEdge ∧ p.2.IsEdge ∧ k p c = .ok b d := by
  obtain ⟨p, e, hp, hk⟩ := bind_eq_ok h
  obtain ⟨rfl, hwide, hhigh⟩ := halfExtents_ok hc hp
  exact ⟨p, hp, hwide, hhigh, hk⟩

/-- The hops of a wrapped move leave the edges where they are. -/
theorem walk_ok {t : Turtle Number} {hopX hopY halfWidth halfHeight : Number} {steps : ℕ}
    {x y : Number} (h : walk t hopX hopY halfWidth halfHeight steps x y c = .ok () d) :
    Alongside c d := by
  induction steps generalizing c x y with
  | zero =>
      cases h
      exact .refl _
  | succ steps ih =>
      obtain ⟨nx, -, h⟩ := compute_bind_ok h
      obtain ⟨ny, -, h⟩ := compute_bind_ok h
      rw [change_bind] at h
      obtain ⟨wx, -, h⟩ := compute_bind_ok h
      obtain ⟨wy, -, h⟩ := compute_bind_ok h
      exact (alongside_stroke c t x y nx ny).trans (ih h)

/-- A place inside the edges of a canvas. -/
theorem inside_place {half : Point Number} {t : Turtle Number} (ht : c.scene.turtle? = some t)
    (hhalf : halfExtents c = .ok half c) (hcd : Alongside c d) {x y : Number}
    (hx : x.abs.le half.1 = true) (hy : y.abs.le half.2 = true) :
    Inside ⟨(d.scene.place x y).touch, d.surface⟩ := by
  have hsome : d.scene.turtle?.isSome = true := by rw [hcd.turtle, ht]; rfl
  obtain ⟨t', ht'⟩ := Option.isSome_iff_exists.1 hsome
  refine ⟨{ t' with x := x, y := y }, half.1, half.2, ?_, ?_, hx, hy⟩
  · dsimp only
    rw [turtle?_touch, Scene.place, turtle?_mapTurtle, ht']
    rfl
  · exact (hcd.trans (alongside_mapTurtle d _)).touched.halfExtents hhalf

/-- A wrapped move ends inside. -/
theorem wrapTo_ok (h : c.Framed) {t t' : Turtle Number} (ht : c.scene.turtle? = some t')
    {x y : Number} (hd : wrapTo t x y c = .ok () d) : Inside ⟨d.scene.touch, d.surface⟩ := by
  obtain ⟨⟨halfWidth, halfHeight⟩, hhalf, hwide, hhigh, hd⟩ := halfExtents_bind_ok h hd
  obtain ⟨dx, hdx, hd⟩ := compute_bind_ok hd
  obtain ⟨dy, hdy, hd⟩ := compute_bind_ok hd
  obtain ⟨steps, hsteps, hd⟩ := compute_bind_ok hd
  obtain ⟨hopX, -, hd⟩ := compute_bind_ok hd
  obtain ⟨hopY, -, hd⟩ := compute_bind_ok hd
  obtain ⟨_, e, hwalk, hd⟩ := bind_eq_ok hd
  obtain ⟨wx, hwx, hd⟩ := compute_bind_ok hd
  obtain ⟨wy, hwy, hd⟩ := compute_bind_ok hd
  rw [change_eq] at hd
  cases hd
  -- the hops could be counted, so the move is finite
  obtain ⟨hx, hy⟩ := isFinite_of_hopCount hsteps
  exact inside_place ht hhalf (walk_ok hwalk)
    (le_wrapCoordinate hwide (Number.isFinite_of_sub hdx hx) hwx)
    (le_wrapCoordinate hhigh (Number.isFinite_of_sub hdy hy) hwy)

/-- A move ends inside, unless nothing keeps it in. -/
theorem moveTo_ok (h : c.Framed) (hmode : c.scene.mode ≠ .window) {x y : Number}
    (hd : moveTo x y c = .ok () d) : d.Inside := by
  obtain ⟨t, ht, hd⟩ := turtle_bind_ok hd
  rw [scene_bind] at hd
  cases hm : c.scene.mode with
  | wrap =>
      rw [hm] at hd
      obtain ⟨_, e, hwrap, hd⟩ := bind_eq_ok hd
      cases hd
      exact wrapTo_ok h ht hwrap
  | fence =>
      rw [hm] at hd
      obtain ⟨⟨halfWidth, halfHeight⟩, hhalf, hwide, hhigh, hd⟩ := halfExtents_bind_ok h hd
      cases hd
      exact inside_place ht hhalf (alongside_stroke c t t.x t.y _ _)
        (le_clampCoordinate hwide x) (le_clampCoordinate hhigh y)
  | window => exact absurd hm hmode

/-- A turn leaves a turtle inside. -/
theorem setHeading_ok (h : c.Inside) {angle : Number} (hd : setHeading angle c = .ok () d) :
    d.Inside := by
  obtain ⟨r, -, hd⟩ := compute_bind_ok hd
  obtain ⟨_, e, hchange, hd⟩ := bind_eq_ok hd
  obtain rfl := changeTurtle_ok hchange
  cases hd
  obtain ⟨t, halfWidth, halfHeight, ht, hhalf, hx, hy⟩ := h
  refine ⟨{ t with heading := r }, halfWidth, halfHeight, ?_, ?_, hx, hy⟩
  · dsimp only
    rw [turtle?_touch, turtle?_mapTurtle, ht]
    rfl
  · exact (alongside_mapTurtle c _).touched.halfExtents hhalf

end

/-- The ways to move in a straight line. -/
inductive Move where
  | forward (distance : Number)
  | back (distance : Number)
  | moveTo (x y : Number)
  | setX (x : Number)
  | setY (y : Number)
  | home

/-- Does a move. -/
def Move.act : Move → CanvasM Number Unit
  | .forward distance => Canvas.forward distance
  | .back distance => Canvas.back distance
  | .moveTo x y => Canvas.moveTo x y
  | .setX x => Canvas.setX x
  | .setY y => Canvas.setY y
  | .home => Canvas.home

/-- Unless the mode is that of a window, a straight move ends inside. -/
theorem Move.inside {c d : Canvas Number} (h : c.Framed) (hmode : c.scene.mode ≠ .window)
    (m : Move) (hd : m.act c = .ok () d) : d.Inside := by
  have hforward : ∀ distance, Canvas.forward distance c = .ok () d → d.Inside := by
    intro distance hd
    obtain ⟨t, -, hd⟩ := turtle_bind_ok hd
    obtain ⟨⟨x, y⟩, -, hd⟩ := compute_bind_ok hd
    exact moveTo_ok h hmode hd
  cases m with
  | forward distance => exact hforward distance hd
  | back distance => exact hforward _ hd
  | moveTo x y => exact moveTo_ok h hmode hd
  | setX x =>
      obtain ⟨t, -, hd⟩ := turtle_bind_ok hd
      exact moveTo_ok h hmode hd
  | setY y =>
      obtain ⟨t, -, hd⟩ := turtle_bind_ok hd
      exact moveTo_ok h hmode hd
  | home =>
      obtain ⟨_, e, hmove, hd⟩ := bind_eq_ok hd
      exact setHeading_ok (moveTo_ok h hmode hmove) hd

/-! ## Arcs -/

/-- The same canvas in another mode. -/
def inMode (c : Canvas Number) (mode : EdgeMode) : Canvas Number :=
  ⟨{ c.scene with mode := mode }, c.surface⟩

/-- An action that does the same in every mode. -/
def Heedless {β : Type} (m : CanvasM Number β) : Prop :=
  ∀ mode c, m (c.inMode mode) = match m c with
    | .ok b d => .ok b (d.inMode mode)
    | .error f d => .error f (d.inMode mode)

namespace Heedless

variable {β γ : Type}

/-- Actions that heed no mode can follow one another. -/
theorem bind {m : CanvasM Number β} {k : β → CanvasM Number γ} (hm : Heedless m)
    (hk : ∀ b, Heedless (k b)) : Heedless (m >>= k) := by
  intro mode c
  have hmode := hm mode c
  cases h : m c with
  | ok b d =>
      rw [h] at hmode
      rw [bind_of_ok h, bind_of_ok hmode]
      exact hk b mode d
  | error f d =>
      rw [h] at hmode
      rw [bind_of_error h, bind_of_error hmode]

/-- A computation heeds no mode. -/
theorem compute (r : Except ArithmeticFault β) :
    Heedless (TurtleLogo.compute r : CanvasM Number β) := by
  intro mode c
  cases r <;> rfl

/-- Looking at the current turtle heeds no mode. -/
theorem turtle : Heedless (Canvas.turtle : CanvasM Number (Turtle Number)) := by
  intro mode c
  cases ht : c.scene.turtle? with
  | some t =>
      have ht' : (c.inMode mode).scene.turtle? = some t := ht
      rw [turtle_of_some ht, turtle_of_some ht']
  | none =>
      have ht' : (c.inMode mode).scene.turtle? = none := ht
      rw [turtle_of_none ht, turtle_of_none ht']

/-- A change heeds no mode if it does the same in all modes. -/
theorem change {f : Scene Number → Scene Number}
    (hf : ∀ s mode, f { s with mode := mode } = { f s with mode := mode }) :
    Heedless (Canvas.change f) := by
  intro mode c
  rw [change_eq, change_eq]
  exact congrArg (fun s => EStateM.Result.ok () (⟨s, c.surface⟩ : Canvas Number)) (hf c.scene mode)

end Heedless

/-- An arc does the same in every mode. -/
theorem heedless_arc (angle radius : Number) : Heedless (arc angle radius) := by
  have hend : ∀ t cx cy size ex ey sweep, Heedless (endArc t cx cy size ex ey sweep) := by
    intro t cx cy size ex ey sweep
    refine .bind (.compute _) fun _ => .bind (.compute _) fun _ => .bind (.compute _) fun _ => ?_
    refine .bind (.compute _) fun _ => .bind (.change fun _ _ => rfl) fun _ => ?_
    exact .bind (.compute _) fun _ => .bind (.compute _) fun _ => .change fun _ _ => rfl
  refine .bind .turtle fun t => .bind (.compute _) fun _ => .bind (.compute _) fun ⟨_, _⟩ => ?_
  refine .bind (.compute _) fun _ => .bind (.compute _) fun _ => .bind (.compute _) fun _ => ?_
  refine .bind (.compute _) fun ⟨_, _⟩ => ?_
  dsimp only
  split
  · exact .bind (.compute _) fun _ => .bind (.change fun _ _ => rfl) fun _ => hend _ _ _ _ _ _ _
  · exact hend _ _ _ _ _ _ _

/-! ## The edge -/

/-- On a canvas whose edge wraps turtles or stops them, every straight move that
    succeeds ends inside, wherever the turtle was before; an arc ends where it
    would if nothing kept turtles in. -/
theorem inside_unless_arc {c : Canvas Number} (h : c.Used) (hmode : c.scene.mode ≠ .window) :
    (∀ (m : Move) d, m.act c = .ok () d → d.Inside)
      ∧ ∀ angle radius, endOf (arc angle radius c)
        = (endOf (arc angle radius (c.inMode .window))).inMode c.scene.mode := by
  refine ⟨fun m d => m.inside h.framed hmode, fun angle radius => ?_⟩
  have hback : (c.inMode .window).inMode c.scene.mode = c := rfl
  have harc := heedless_arc angle radius c.scene.mode (c.inMode .window)
  rw [hback] at harc
  rw [harc]
  cases arc angle radius (c.inMode .window) <;> rfl

/-- Whether the current turtle is not past the edges. -/
def isInside (c : Canvas Number) : Bool :=
  match c.scene.turtle?, halfExtents c with
  | some t, .ok (halfWidth, halfHeight) _ => t.x.abs.le halfWidth && t.y.abs.le halfHeight
  | _, _ => false

/-- A turtle inside is found to be inside. -/
theorem isInside_of_inside {c : Canvas Number} (h : c.Inside) : c.isInside = true := by
  obtain ⟨t, halfWidth, halfHeight, ht, hhalf, hx, hy⟩ := h
  rw [isInside, ht, hhalf]
  show (t.x.abs.le halfWidth && t.y.abs.le halfHeight) = true
  rw [hx, hy]
  rfl

/-- A canvas that operations have led to is one of those that there are. -/
theorem Worked.used {surface : Surface Number} (hsurface : surface.Roomy)
    {past : List (Operation Number)} {c : Canvas Number} (h : Worked surface past c) : c.Used := by
  induction h with
  | new h => exact .new hsurface h
  | @step past c d _ op hop ih =>
      have hend := ih.act op
      rwa [hop] at hend

theorem roomy_sheet : sheet.Roomy := ⟨⟨by decide +kernel, by decide +kernel⟩, by decide, by decide⟩

/-- The canvas that an action leaves if it succeeds. -/
def after? (m : CanvasM Number Unit) (c : Canvas Number) : Option (Canvas Number) :=
  match m c with
  | .ok _ d => some d
  | .error _ _ => none

/-- What is tried on a canvas that has been worked on. -/
theorem exists_used (ops : List (Operation Number)) {m : CanvasM Number Unit}
    {p q : Canvas Number → Bool}
    (h : (work sheet ops).toOption.any (fun c => p c && (after? m c).any q) = true) :
    ∃ c d, c.Used ∧ p c = true ∧ m c = .ok () d ∧ q d = true := by
  rw [Option.any_eq_true] at h
  obtain ⟨c, hc, h⟩ := h
  rw [Bool.and_eq_true, Option.any_eq_true] at h
  obtain ⟨hp, d, hd, hq⟩ := h
  have hwork : work sheet ops = .ok c := Except.ok_of_toOption hc
  rw [after?] at hd
  split at hd
  · rename_i e he
    cases hd
    exact ⟨c, d, (worked_of_work hwork).used roomy_sheet, hp, he, hq⟩
  · cases hd

/-- A move to 500 on the sheet ends inside. -/
theorem inside_unless_arc_setX : ∃ c d, c.Used ∧ c.scene.mode ≠ .window
    ∧ (Move.setX (.int 500)).act c = .ok () d ∧ d.Inside := by
  obtain ⟨c, d, hused, hmode, hmove, -⟩ := exists_used []
    (m := (Move.setX (.int 500)).act) (p := fun c => decide (c.scene.mode ≠ .window))
    (q := fun _ => true) (by decide +kernel)
  rw [decide_eq_true_eq] at hmode
  exact ⟨c, d, hused, hmode, hmove, (inside_unless_arc hused hmode).1 _ d hmove⟩

/-- An arc leads past an edge that stops turtles. -/
theorem arc_outside : ∃ c d, c.Used ∧ c.scene.mode = .fence
    ∧ arc (.int 180) (.int 100) c = .ok () d ∧ ¬d.Inside := by
  obtain ⟨c, d, hused, hmode, harc, hd⟩ := exists_used [.setX (.int 400), .setMode .fence]
    (m := arc (.int 180) (.int 100)) (p := fun c => decide (c.scene.mode = .fence))
    (q := fun d => !d.isInside) (by decide +kernel)
  refine ⟨c, d, hused, of_decide_eq_true hmode, harc, fun hinside => ?_⟩
  rw [isInside_of_inside hinside] at hd
  cases hd

end Canvas

end TurtleLogo
