import TurtleLogo.Proofs.Exact
import TurtleLogo.Proofs.Showing

/-! # Pictures without turtles

    A picture is saved while no turtle is visible: the turtles are hidden and the scene
    is shown, then something is done with the surface, which may fail, and then the
    turtles are shown again.

    * To show a scene is to draw its picture, on every kind of surface
      (`redraw_iff`);
    * a surface that is cleared shows afterwards what any other one of its kind and size
      would show (`drawAll_cleared`), so nothing remains of what was done with it;
    * the scene is in the end what it is after being shown, and at the moment in between
      the surface holds the log alone (`withoutTurtles_spec`). -/

namespace TurtleLogo

variable {α : Type}

namespace Surface

/-- Two surfaces of one kind and size that show the same. -/
structure ShowsSame (u v : Surface α) : Prop extends Alike u v where
  calls : u.kind ≠ .raster → v.calls = u.calls
  strokes : u.kind = .raster → v.strokes = u.strokes

/-- Surfaces that show the same do so after the same mark. -/
theorem ShowsSame.put {u v : Surface α} (h : u.ShowsSame v) (m : Mark α) :
    (u.put m).ShowsSame (v.put m) := by
  obtain ⟨⟨hkind, hwidth, hheight, hknown⟩, hcalls, hstrokes⟩ := h
  cases m with
  | call c =>
      have hpushed : u.kind ≠ .raster → v.calls.push c = u.calls.push c := by
        intro hu
        rw [hcalls hu]
      cases c with
      | clear color => exact ⟨⟨hkind, hwidth, hheight, hknown⟩, fun _ => rfl, hstrokes⟩
      | _ => exact ⟨⟨hkind, hwidth, hheight, hknown⟩, hpushed, hstrokes⟩
  | stroke s =>
      have hpushed : u.kind = .raster → v.strokes.push s = u.strokes.push s := by
        intro hu
        rw [hstrokes hu]
      cases s with
      | clear color => exact ⟨⟨hkind, hwidth, hheight, hknown⟩, hcalls, fun _ => rfl⟩
      | _ => exact ⟨⟨hkind, hwidth, hheight, hknown⟩, hcalls, hpushed⟩

/-- A mark leaves what has been saved. -/
theorem saved_put (u : Surface α) (m : Mark α) : (u.put m).saved = u.saved := by
  cases m with
  | call c => cases c <;> rfl
  | stroke s => cases s <;> rfl

variable [Scalar α]

/-- What is drawn is the mark that a call leaves, if it leaves any. -/
theorem draw_iff {call : Call α} {u u' : Surface α} : draw call u = .ok () u' ↔
    ∃ m, mark? u.kind u.known call = .ok m ∧ u' = m.elim u u.put := by
  rw [draw, get_bind]
  cases hm : mark? u.kind u.known call with
  | error f =>
      constructor
      · intro h
        cases h
      · rintro ⟨m, hm', -⟩
        cases hm'
  | ok m =>
      constructor
      · intro h
        refine ⟨m, rfl, ?_⟩
        cases m <;> (cases h; rfl)
      · rintro ⟨m', hm', rfl⟩
        cases hm'
        cases m <;> rfl

omit [Scalar α] in
/-- Saving leaves the kind and the size of a surface. -/
theorem marks_save (path : Text) : Marks (save path : EStateM Fault (Surface α) Unit) := by
  intro u
  rw [save, get_bind]
  cases hkind : u.kind with
  | recording => exact ⟨hkind.symm, rfl, rfl, rfl⟩
  | plain => exact .refl u
  | raster =>
      dsimp only
      cases u.folder.target (Folder.pictureName path) with
      | ok target => exact ⟨hkind.symm, rfl, rfl, rfl⟩
      | error fault => exact .refl u

/-- Draws calls one after another. -/
def drawAll : List (Call α) → EStateM Fault (Surface α) Unit
  | [] => pure ()
  | call :: calls => do
      draw call
      drawAll calls

/-- Calls in a row are drawn one after another. -/
theorem drawAll_append (calls calls' : List (Call α)) :
    drawAll (calls ++ calls') = drawAll calls >>= fun _ => drawAll calls' := by
  induction calls with
  | nil => rfl
  | cons call calls ih =>
      rw [List.cons_append, drawAll, drawAll, ih, bind_assoc]

/-- Drawing leaves kind, size and colours of a surface. -/
theorem alike_drawAll {calls : List (Call α)} {u u' : Surface α} (h : drawAll calls u = .ok () u') :
    u.Alike u' := by
  induction calls generalizing u with
  | nil =>
      cases h
      exact .refl _
  | cons call calls ih =>
      obtain ⟨_, v, hv, h⟩ := bind_eq_ok h
      have hmarks := marks_draw call u
      rw [hv] at hmarks
      exact hmarks.trans (ih h)

/-- Drawing leaves what has been saved. -/
theorem saved_drawAll {calls : List (Call α)} {u u' : Surface α} (h : drawAll calls u = .ok () u') :
    u'.saved = u.saved := by
  induction calls generalizing u with
  | nil =>
      cases h
      rfl
  | cons call calls ih =>
      obtain ⟨_, v, hv, h⟩ := bind_eq_ok h
      obtain ⟨m, -, rfl⟩ := draw_iff.1 hv
      rw [ih h]
      cases m with
      | none => rfl
      | some m => exact saved_put u m

/-- What shows the same still does after the same calls. -/
theorem ShowsSame.drawAll {u v : Surface α} (h : u.ShowsSame v) {calls : List (Call α)}
    {u' : Surface α} (hu : drawAll calls u = .ok () u') :
    ∃ v', Surface.drawAll calls v = .ok () v' ∧ u'.ShowsSame v' := by
  induction calls generalizing u v with
  | nil =>
      cases hu
      exact ⟨v, rfl, h⟩
  | cons call calls ih =>
      obtain ⟨_, w, hw, hu⟩ := bind_eq_ok hu
      obtain ⟨m, hm, rfl⟩ := draw_iff.1 hw
      have hv : draw call v = .ok () (m.elim v v.put) :=
        draw_iff.2 ⟨m, by rw [h.kind, h.known, hm], rfl⟩
      have hsame : (m.elim u u.put).ShowsSame (m.elim v v.put) := by
        cases m with
        | none => exact h
        | some m => exact h.put m
      obtain ⟨v', hv', hsame'⟩ := ih hsame hu
      exact ⟨v', (bind_of_ok hv).trans hv', hsame'⟩

/-- Surfaces that are cleared show the same whatever they showed before. -/
theorem drawAll_cleared {u v : Surface α} (h : u.Alike v) {color : Text} {calls : List (Call α)}
    {u' : Surface α} (hu : drawAll (.clear color :: calls) u = .ok () u') :
    ∃ v', drawAll (.clear color :: calls) v = .ok () v' ∧ u'.ShowsSame v' := by
  obtain ⟨_, w, hw, hu⟩ := bind_eq_ok hu
  obtain ⟨m, hm, rfl⟩ := draw_iff.1 hw
  have hv : draw (.clear color) v = .ok () (m.elim v v.put) :=
    draw_iff.2 ⟨m, by rw [h.kind, h.known, hm], rfl⟩
  have hsame : (m.elim u u.put).ShowsSame (m.elim v v.put) := by
    cases hkind : u.kind with
    | raster =>
        rw [hkind] at hm
        obtain ⟨s, hs, hm⟩ := Except.bind_eq_ok hm
        obtain ⟨c, hc, hs⟩ := Except.bind_eq_ok hs
        cases hs
        cases hm
        exact ⟨⟨h.kind, h.width, h.height, h.known⟩, fun hne => absurd hkind hne, fun _ => rfl⟩
    | recording =>
        rw [hkind] at hm
        cases hm
        refine ⟨⟨h.kind, h.width, h.height, h.known⟩, fun _ => rfl, fun hr => ?_⟩
        exact absurd (hkind.symm.trans hr) (by decide)
    | plain =>
        rw [hkind] at hm
        cases hm
        refine ⟨⟨h.kind, h.width, h.height, h.known⟩, fun _ => rfl, fun hr => ?_⟩
        exact absurd (hkind.symm.trans hr) (by decide)
  obtain ⟨v', hv', hsame'⟩ := hsame.drawAll hu
  exact ⟨v', (bind_of_ok hv).trans hv', hsame'⟩

end Surface

/-! ## Calls that show shapes -/

/-- A call that shows a shape of the log: it clears nothing and shows no turtle. -/
def Call.IsShape : Call α → Prop
  | .clear .. | .turtle .. => False
  | .line .. | .arc .. | .fill .. => True

variable [Scalar α]

/-- A shape is shown by the call for a shape. -/
theorem Shape.isShape {v : View α} {background : Text} {s : Shape α} {call : Call α}
    (h : s.call v background = .ok call) : call.IsShape := by
  cases s with
  | fill x y parts color =>
      obtain ⟨_, -, h⟩ := Except.bind_eq_ok h
      obtain ⟨_, -, h⟩ := Except.bind_eq_ok h
      cases h
      trivial
  | _ =>
      obtain ⟨_, -, h⟩ := Except.bind_eq_ok h
      obtain ⟨_, -, h⟩ := Except.bind_eq_ok h
      obtain ⟨_, -, h⟩ := Except.bind_eq_ok h
      cases h
      trivial

/-- Several shapes are shown by calls for shapes. -/
theorem Shape.isShape_of_mapM {v : View α} {background : Text} {ss : List (Shape α)}
    {calls : List (Call α)} (h : ss.mapM (·.call v background) = .ok calls) :
    ∀ call ∈ calls, call.IsShape := by
  induction ss generalizing calls with
  | nil =>
      cases h
      simp
  | cons s ss ih =>
      rw [List.mapM_cons] at h
      obtain ⟨call, hcall, h⟩ := Except.bind_eq_ok h
      obtain ⟨rest, hrest, h⟩ := Except.bind_eq_ok h
      cases h
      exact List.forall_mem_cons.2 ⟨s.isShape hcall, ih hrest⟩

namespace Surface

/-- A surface that keeps calls keeps those that show shapes. -/
theorem draw_shape {call : Call α} (hcall : call.IsShape) {u : Surface α} (hu : u.kind ≠ .raster) :
    draw call u = .ok () { u with calls := u.calls.push call } := by
  refine draw_iff.2 ⟨some (.call call), ?_, ?_⟩
  · cases hkind : u.kind with
    | recording => rfl
    | plain => cases call <;> first | rfl | cases hcall
    | raster => exact absurd hkind hu
  · cases call <;> first | rfl | cases hcall

/-- On a surface that keeps its calls, shapes are added to them. -/
theorem drawAll_shapes {calls : List (Call α)} (hcalls : ∀ call ∈ calls, call.IsShape)
    {u : Surface α} (hu : u.kind ≠ .raster) :
    drawAll calls u = .ok () { u with calls := u.calls ++ calls } := by
  induction calls generalizing u with
  | nil =>
      show EStateM.Result.ok () u = _
      simp
  | cons call calls ih =>
      obtain ⟨hcall, hrest⟩ := List.forall_mem_cons.1 hcalls
      have hrest := ih hrest (u := { u with calls := u.calls.push call }) hu
      rw [drawAll, bind_of_ok (draw_shape hcall hu), hrest]
      simp

/-- What such a surface holds after it was cleared for some shapes. -/
theorem calls_of_cleared {color : Text} {calls : List (Call α)}
    (hcalls : ∀ call ∈ calls, call.IsShape) {u u' : Surface α} (hu : u.kind ≠ .raster)
    (h : drawAll (.clear color :: calls) u = .ok () u') :
    u'.calls.toList = .clear color :: calls := by
  have hclear : draw (.clear color) u = .ok () { u with calls := #[.clear color] } := by
    refine draw_iff.2 ⟨some (.call (.clear color)), ?_, rfl⟩
    cases hkind : u.kind with
    | recording => rfl
    | plain => rfl
    | raster => exact absurd hkind hu
  have hshapes := drawAll_shapes hcalls (u := { u with calls := #[.clear color] }) hu
  rw [drawAll, bind_of_ok hclear, hshapes] at h
  cases h
  simp

end Surface

/-! ## What is shown -/

/-- To draw a call for each of several things is to find the calls and to draw them. -/
theorem drawEach_ok_iff {β : Type} {f : β → Except ArithmeticFault (Call α)} (bs : List β)
    {u u' : Surface α} : drawEach f bs u = .ok () u' ↔
      ∃ calls, bs.mapM f = .ok calls ∧ Surface.drawAll calls u = .ok () u' := by
  induction bs generalizing u with
  | nil =>
      constructor
      · intro h
        exact ⟨[], rfl, h⟩
      · rintro ⟨calls, hcalls, h⟩
        cases hcalls
        exact h
  | cons b bs ih =>
      constructor
      · intro h
        obtain ⟨call, v, hcall, h⟩ := bind_eq_ok h
        obtain ⟨_, w, hw, h⟩ := bind_eq_ok h
        obtain ⟨calls, hcalls, hdraw⟩ := ih.1 h
        cases hb : f b with
        | error fault =>
            rw [hb] at hcall
            cases hcall
        | ok c =>
            rw [hb] at hcall
            cases hcall
            refine ⟨call :: calls, ?_, (bind_of_ok hw).trans hdraw⟩
            rw [List.mapM_cons, hb, hcalls]
            rfl
      · rintro ⟨calls, hcalls, h⟩
        rw [List.mapM_cons] at hcalls
        obtain ⟨call, hcall, hcalls⟩ := Except.bind_eq_ok hcalls
        obtain ⟨rest, hrest, hcalls⟩ := Except.bind_eq_ok hcalls
        cases hcalls
        obtain ⟨_, w, hw, h⟩ := bind_eq_ok h
        rw [drawEach, hcall]
        exact (bind_of_ok hw).trans (ih.2 ⟨rest, hrest, h⟩)

/-- To replay a scene is to draw its picture. -/
theorem Scene.replay_ok_iff (s : Scene α) {u u' : Surface α} : s.replay u = .ok () u' ↔
    ∃ calls, s.picture = .ok calls ∧ Surface.drawAll calls u = .ok () u' := by
  rw [Scene.replay, drawShapes_eq, drawTurtles_eq]
  constructor
  · intro h
    obtain ⟨_, v, hv, h⟩ := bind_eq_ok h
    obtain ⟨_, w, hw, h⟩ := bind_eq_ok h
    obtain ⟨shapes, hshapes, hw⟩ := (drawEach_ok_iff _).1 hw
    obtain ⟨turtles, hturtles, h⟩ := (drawEach_ok_iff _).1 h
    refine ⟨.clear s.background :: (shapes ++ turtles), ?_, ?_⟩
    · rw [picture, hshapes]
      show (turtleCalls s.view _ >>= _) = _
      rw [turtleCalls, hturtles]
      rfl
    · rw [Surface.drawAll, bind_of_ok hv, Surface.drawAll_append, bind_of_ok hw]
      exact h
  · rintro ⟨calls, hcalls, h⟩
    obtain ⟨shapes, hshapes, hcalls⟩ := Except.bind_eq_ok hcalls
    obtain ⟨turtles, hturtles, hcalls⟩ := Except.bind_eq_ok hcalls
    cases hcalls
    rw [Surface.drawAll] at h
    obtain ⟨_, v, hv, h⟩ := bind_eq_ok h
    rw [Surface.drawAll_append] at h
    obtain ⟨_, w, hw, h⟩ := bind_eq_ok h
    rw [bind_of_ok hv, bind_of_ok ((drawEach_ok_iff _).2 ⟨shapes, hshapes, hw⟩)]
    exact (drawEach_ok_iff _).2 ⟨turtles, hturtles, h⟩

/-- A view that is centred for a size stays as it is when it is centred again. -/
theorem View.resize_resize {v v' : View α} {width height : α} (h : v.resize width height = .ok v') :
    v'.resize width height = .ok v' := by
  obtain ⟨a, ha, h⟩ := Except.bind_eq_ok h
  obtain ⟨x, hx, ha⟩ := Except.bind_eq_ok ha
  obtain ⟨y, hy, h⟩ := Except.bind_eq_ok h
  cases ha
  cases h
  rw [resize, centreAcross, hx]
  show (Scalar.div _ _ >>= _) = _
  rw [hy]
  rfl

/-- Two views that show a drawing from as close and moved as far.  Where their centre is
    depends on the surface alone, and is found again whenever something is shown. -/
def View.Agrees (v v' : View α) : Prop := v'.zoom = v.zoom ∧ v'.panX = v.panX ∧ v'.panY = v.panY

/-- Centring moves and zooms nothing. -/
theorem View.agrees_resize {v v' : View α} {width height : α}
    (h : v.resize width height = .ok v') : v.Agrees v' := by
  obtain ⟨a, ha, h⟩ := Except.bind_eq_ok h
  obtain ⟨x, -, ha⟩ := Except.bind_eq_ok ha
  obtain ⟨y, -, h⟩ := Except.bind_eq_ok h
  cases ha
  cases h
  exact ⟨rfl, rfl, rfl⟩

namespace Canvas

/-- To centre a view is to resize it to its surface. -/
theorem centreView_ok_iff {c d : Canvas α} : centreView c = .ok () d ↔
    ∃ v, c.scene.view.resize (Scalar.ofInt c.surface.width) (Scalar.ofInt c.surface.height) = .ok v
      ∧ d = ⟨{ c.scene with view := v }, c.surface⟩ := by
  rw [centreView, get_bind]
  constructor
  · intro h
    obtain ⟨_, e, he, h⟩ := bind_eq_ok h
    obtain ⟨v, hv, rfl⟩ := changeView_ok he
    obtain ⟨v', hv', rfl⟩ := changeView_ok h
    refine ⟨v', ?_, rfl⟩
    rw [View.resize, hv]
    exact hv'
  · rintro ⟨v, hv, rfl⟩
    obtain ⟨v', hv', hv⟩ := Except.bind_eq_ok hv
    rw [bind_of_ok (changeView_eq hv')]
    exact changeView_eq hv

/-- To show a scene is to centre its view and to draw its picture. -/
theorem redraw_iff {c d : Canvas α} : redraw c = .ok () d ↔
    ∃ v calls u, c.scene.view.resize (Scalar.ofInt c.surface.width)
        (Scalar.ofInt c.surface.height) = .ok v
      ∧ Scene.picture { c.scene with view := v } = .ok calls
      ∧ Surface.drawAll calls c.surface = .ok () u
      ∧ d = ⟨{ c.scene with view := v, dirty := false }, u⟩ := by
  rw [redraw, change_bind]
  constructor
  · intro h
    obtain ⟨_, e, he, h⟩ := bind_eq_ok h
    obtain ⟨v, hv, rfl⟩ := centreView_ok_iff.1 he
    rw [get_bind] at h
    obtain ⟨u, hu, rfl⟩ := onSurface_ok h
    obtain ⟨calls, hcalls, hu⟩ := (Scene.replay_ok_iff _).1 hu
    exact ⟨v, calls, u, hv, hcalls, hu, rfl⟩
  · rintro ⟨v, calls, u, hv, hcalls, hu, rfl⟩
    have hreplay := (Scene.replay_ok_iff { c.scene with view := v, dirty := false }).2
      ⟨calls, hcalls, hu⟩
    have hcentre : centreView ⟨{ c.scene with dirty := false }, c.surface⟩
        = .ok () ⟨{ c.scene with view := v, dirty := false }, c.surface⟩ :=
      centreView_ok_iff.2 ⟨v, hv, rfl⟩
    rw [bind_of_ok hcentre, get_bind]
    simp only [onSurface, hreplay]

/-- A scene that is shown is otherwise as it was. -/
theorem redraw_scene {c e : Canvas α} (h : redraw c = .ok () e) :
    e.scene = { c.scene with view := e.scene.view, dirty := false }
      ∧ c.scene.view.Agrees e.scene.view ∧ (c.Centred → e.scene.view = c.scene.view) := by
  obtain ⟨v, calls, u, hv, -, -, rfl⟩ := redraw_iff.1 h
  refine ⟨rfl, View.agrees_resize hv, fun hc => ?_⟩
  rw [View.resize, hc.1] at hv
  exact Except.ok.inj (hv.symm.trans hc.2)

/-- A scene that can be shown can be shown without its turtles, and then the surface
    shows the log alone. -/
theorem redraw_unseen {c e : Canvas α} (h : redraw c = .ok () e) : ∃ calls u,
    c.scene.log.toList.mapM (·.call e.scene.view c.scene.background) = .ok calls
      ∧ Surface.drawAll (.clear c.scene.background :: calls) c.surface = .ok () u
      ∧ redraw ⟨{ c.scene with turtles := unseen c.scene.turtles }, c.surface⟩ = .ok ()
        ⟨{ c.scene with
          turtles := unseen c.scene.turtles, view := e.scene.view, dirty := false }, u⟩ := by
  obtain ⟨v, calls, u, hv, hcalls, hu, rfl⟩ := redraw_iff.1 h
  obtain ⟨shapes, hshapes, hcalls⟩ := Except.bind_eq_ok hcalls
  obtain ⟨turtles, -, hcalls⟩ := Except.bind_eq_ok hcalls
  cases hcalls
  -- the log is drawn before the turtles
  rw [← List.cons_append, Surface.drawAll_append] at hu
  obtain ⟨_, w, hw, -⟩ := bind_eq_ok hu
  have hnone : turtleCalls v ((unseen c.scene.turtles).map (·.2)) = .ok [] := by
    have hfilter : ((unseen c.scene.turtles).map (·.2)).filter (·.visible) = [] := by
      refine List.filter_eq_nil_iff.2 fun t ht => ?_
      rw [unseen, List.map_map] at ht
      obtain ⟨p, -, rfl⟩ := List.mem_map.1 ht
      exact Bool.false_ne_true
    rw [turtleCalls, hfilter]
    rfl
  refine ⟨shapes, w, hshapes, hw, redraw_iff.2 ⟨v, _, w, hv, ?_, hw, rfl⟩⟩
  rw [Scene.picture]
  show (List.mapM _ c.scene.log.toList >>= _) = _
  rw [hshapes]
  show (turtleCalls v ((unseen c.scene.turtles).map (·.2)) >>= _) = _
  rw [hnone]
  show Except.ok (_ :: (shapes ++ [])) = _
  rw [List.append_nil]

/-- A scene that can be shown is shown the same on whatever was done with the surface. -/
theorem redraw_again {c e : Canvas α} (h : redraw c = .ok () e) {u : Surface α}
    (hu : c.surface.Alike u) : ∃ u', redraw ⟨e.scene, u⟩ = .ok () ⟨e.scene, u'⟩
      ∧ e.surface.ShowsSame u' ∧ u'.saved = u.saved := by
  obtain ⟨v, calls, w, hv, hcalls, hw, rfl⟩ := redraw_iff.1 h
  obtain ⟨shapes, hshapes, hpicture⟩ := Except.bind_eq_ok hcalls
  obtain ⟨turtles, hturtles, hpicture⟩ := Except.bind_eq_ok hpicture
  obtain rfl := Except.ok.inj hpicture
  obtain ⟨u', hu', hsame⟩ := Surface.drawAll_cleared hu hw
  have hresize := View.resize_resize hv
  rw [← hu.width, ← hu.height] at hresize
  exact ⟨u', redraw_iff.2 ⟨v, _, u', hresize, hcalls, hu', rfl⟩, hsame, Surface.saved_drawAll hu'⟩

/-- What is done with the surface while no turtle is on it finds the log alone on it, and
    leaves the scene as it is shown, turtles and all, even if it fails. -/
theorem withoutTurtles_spec {c e : Canvas α} (h : redraw c = .ok () e) : ∃ calls u,
    c.scene.log.toList.mapM (·.call e.scene.view c.scene.background) = .ok calls
      ∧ Surface.drawAll (.clear c.scene.background :: calls) c.surface = .ok () u
      ∧ (u.kind ≠ .raster → u.calls.toList = .clear c.scene.background :: calls)
      ∧ ∀ save : EStateM Fault (Surface α) Unit, Surface.Marks save → ∃ d : Canvas α,
        (∀ u', save u = .ok () u' → withoutTurtles save c = .ok () d)
          ∧ (∀ f u', save u = .error f u' → withoutTurtles save c = .error f d)
          ∧ d.scene = { c.scene with view := d.scene.view, dirty := false }
          ∧ c.scene.view.Agrees d.scene.view ∧ (c.Centred → d.scene.view = c.scene.view)
          ∧ e.surface.ShowsSame d.surface ∧ d.surface.saved = (endOf (save u)).saved := by
  obtain ⟨hscene, hview⟩ := redraw_scene h
  obtain ⟨calls, u, hcalls, hu, hunseen⟩ := redraw_unseen h
  have halike := Surface.alike_drawAll hu
  refine ⟨calls, u, hcalls, hu, fun hraster => ?_, fun save hsave => ?_⟩
  · exact Surface.calls_of_cleared (Shape.isShape_of_mapM hcalls) (halike.kind ▸ hraster) hu
  · obtain ⟨u', hagain, hsame, hsaved⟩ := redraw_again h (halike.trans (hsave u))
    let shown : Scene α :=
      { c.scene with turtles := unseen c.scene.turtles, view := e.scene.view, dirty := false }
    let hidden : CanvasM α Unit := do
      change fun s => { s with turtles := unseen s.turtles }
      redraw
      onSurface save
    let back : CanvasM α Unit := do
      change fun s => { s with
        turtles := restoreVisible (c.scene.turtles.map (·.2.visible)) s.turtles }
      redraw
    have hhidden : hidden c = onSurface save ⟨shown, u⟩ := bind_of_ok hunseen
    -- whatever was done, the turtles are then as before and the scene is shown again
    have hback : back ⟨shown, endOf (save u)⟩ = .ok () ⟨e.scene, u'⟩ := by
      show redraw ⟨{ c.scene with
        turtles := restoreVisible (c.scene.turtles.map (·.2.visible)) (unseen c.scene.turtles)
        view := e.scene.view, dirty := false }, endOf (save u)⟩ = _
      rw [restoreVisible_of_unseen (unseen_unseen _), ← hscene]
      exact hagain
    refine ⟨⟨e.scene, u'⟩, fun u₁ hu₁ => ?_, fun f u₁ hu₁ => ?_, hscene, hview.1, hview.2, hsame,
      hsaved⟩
    · have hdone : hidden c = .ok () ⟨shown, u₁⟩ := by
        rw [hhidden]
        simp only [onSurface, hu₁]
      rw [hu₁] at hback
      exact wrapUp_ok_ok hdone hback
    · have hfailed : hidden c = .error f ⟨shown, u₁⟩ := by
        rw [hhidden]
        simp only [onSurface, hu₁]
      rw [hu₁] at hback
      exact wrapUp_error_ok hfailed hback

/-- A plain surface cannot save a picture, and one turtle of two is visible. -/
theorem withoutTurtles_spec_plain : ∃ c d : Canvas ℚ,
    c.scene.turtles.map (·.2.visible) = [true, false]
      ∧ savePicture "picture" c = .error .cannotSave d ∧ d.scene.turtles = c.scene.turtles := by
  let c : Canvas ℚ := ⟨{ exactSheet.scene with
    turtles := [(.ofInt 0, .new), (.ofInt 1, { Turtle.new with visible := false })]
    log := #[.line 0 0 0 100 Turtle.new.pen] }, { exactSheet.surface with kind := .plain }⟩
  have hredraw : redraw c = .ok () (endOf (redraw c)) :=
    redraw_iff.2 ⟨_, _, _, rfl, rfl, rfl, rfl⟩
  obtain ⟨calls, u, -, hu, -, hsave⟩ := withoutTurtles_spec hredraw
  obtain ⟨d, -, hfails, hscene, -⟩ := hsave (Surface.save "picture") (Surface.marks_save _)
  have hkind : u.kind = .plain := (Surface.alike_drawAll hu).kind
  refine ⟨c, d, rfl, hfails .cannotSave u ?_, by rw [hscene]⟩
  rw [Surface.save, get_bind, hkind]
  rfl

end Canvas

end TurtleLogo
