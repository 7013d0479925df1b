import Mathlib.Data.List.Forall2
import TurtleLogo.Proofs.Drawing

/-! # Pictures

    What a surface shows against what the scene is.  A recording surface keeps
    the calls of the last replay, and the scene says whether it may have changed
    since:

    * `Scene.picture` is the list of calls that show a scene, and a replay on a
      recording surface leaves exactly these (`replay_iff`);
    * every operation shows the scene anew, or marks it as changed, or changes
      nothing that shows, except that a new colour of a pen shows on its turtle
      and is not marked (`Followed.step`);
    * so a scene that is not marked is shown as it is, but for the colours of
      turtles (`redraw_of_clean`). -/

namespace TurtleLogo

open Relation

variable {α : Type} [Scalar α]

/-- The calls that show the visible ones of some turtles. -/
def turtleCalls (v : View α) (ts : List (Turtle α)) : Except ArithmeticFault (List (Call α)) :=
  (ts.filter (·.visible)).mapM (·.call v)

/-- The calls that show a scene: a clear one, the log, and the visible turtles
    on top. -/
def Scene.picture (s : Scene α) : Except ArithmeticFault (List (Call α)) := do
  let shapes ← s.log.toList.mapM (·.call s.view s.background)
  let turtles ← turtleCalls s.view (s.turtles.map (·.2))
  .ok (.clear s.background :: (shapes ++ turtles))

/-- A call without the colour of a turtle. -/
def Call.colourless : Call α → Call α
  | .turtle x y heading _ size => .turtle x y heading "" size
  | call => call

/-- A surface that holds just the given calls. -/
def Surface.holding (u : Surface α) (calls : List (Call α)) : Surface α :=
  { u with calls := calls.toArray }

/-! ## Replays -/

/-- A recording surface keeps every call. -/
theorem Surface.draw_recording {u : Surface α} (h : u.kind = .recording) (call : Call α) :
    Surface.draw call u = .ok () (u.put (.call call)) := by
  rw [Surface.draw, get_bind, h]
  rfl

omit [Scalar α] in
/-- Saving leaves a recording surface a recording one. -/
theorem Surface.kind_save {path : Text} {u u' : Surface α} (hu : u.kind = .recording)
    (h : Surface.save path u = .ok () u') : u'.kind = .recording := by
  rw [Surface.save, get_bind, hu] at h
  cases h
  rfl

/-- A call that adds to what a surface shows. -/
def Call.Adds (call : Call α) : Prop :=
  ∀ (u : Surface α) (calls : List (Call α)),
    (u.holding calls).put (.call call) = u.holding (calls ++ [call])

omit [Scalar α] in
/-- Every call but a clear one adds to what shows. -/
theorem Call.adds_of_ne {call : Call α} (h : ∀ color, call ≠ .clear color) : call.Adds := by
  intro u calls
  cases call with
  | clear color => exact absurd rfl (h color)
  | _ => simp [Surface.put, Surface.holding]

/-- The call for a shape adds to what shows. -/
theorem Shape.adds {v : View α} {background : Text} {s : Shape α} {call : Call α}
    (h : s.call v background = .ok call) : call.Adds := by
  refine Call.adds_of_ne ?_
  rintro color rfl
  cases s with
  | fill x y parts color =>
      obtain ⟨_, -, h⟩ := Except.bind_eq_ok h
      obtain ⟨_, -, h⟩ := Except.bind_eq_ok h
      cases h
  | _ =>
      obtain ⟨_, -, h⟩ := Except.bind_eq_ok h
      obtain ⟨_, -, h⟩ := Except.bind_eq_ok h
      obtain ⟨_, -, h⟩ := Except.bind_eq_ok h
      cases h

/-- The call for a turtle adds to what shows. -/
theorem Turtle.adds {v : View α} {t : Turtle α} {call : Call α} (h : t.call v = .ok call) :
    call.Adds := by
  refine Call.adds_of_ne ?_
  rintro color rfl
  obtain ⟨_, -, h⟩ := Except.bind_eq_ok h
  obtain ⟨_, -, h⟩ := Except.bind_eq_ok h
  cases h

/-- Draws a call for each of several things. -/
def drawEach {β : Type} (f : β → Except ArithmeticFault (Call α)) :
    List β → EStateM Fault (Surface α) Unit
  | [] => pure ()
  | b :: bs => do
      let call ← compute (f b)
      Surface.draw call
      drawEach f bs

/-- Shapes are drawn one after another. -/
theorem drawShapes_eq (v : View α) (background : Text) (ss : List (Shape α)) :
    drawShapes v background ss = drawEach (·.call v background) ss := by
  induction ss with
  | nil => rfl
  | cons s ss ih => rw [drawShapes, drawEach, ih]

/-- The turtles that are visible are drawn one after another. -/
theorem drawTurtles_eq (v : View α) (ts : List (Turtle α)) :
    drawTurtles v ts = drawEach (·.call v) (ts.filter (·.visible)) := by
  induction ts with
  | nil => rfl
  | cons t ts ih =>
      rw [drawTurtles, ih]
      by_cases hvisible : t.visible = true
      · rw [if_pos hvisible, List.filter_cons_of_pos hvisible, drawEach]
      · rw [if_neg hvisible, List.filter_cons_of_neg hvisible]

/-- Drawing one after another succeeds exactly if every call can be computed, and
    then the calls are added. -/
theorem drawEach_iff {β : Type} {f : β → Except ArithmeticFault (Call α)}
    (hadds : ∀ {b call}, f b = .ok call → call.Adds) (bs : List β) {u : Surface α}
    (hu : u.kind = .recording) (before : List (Call α)) (u' : Surface α) :
    drawEach f bs (u.holding before) = .ok () u' ↔
      ∃ calls, bs.mapM f = .ok calls ∧ u' = u.holding (before ++ calls) := by
  induction bs generalizing before with
  | nil =>
      constructor
      · intro h
        cases h
        exact ⟨[], rfl, by rw [List.append_nil]⟩
      · rintro ⟨calls, hcalls, rfl⟩
        cases hcalls
        show EStateM.Result.ok () (u.holding before) = .ok () (u.holding (before ++ []))
        rw [List.append_nil]
  | cons b bs ih =>
      cases hb : f b with
      | error fault =>
          -- neither side goes on past what cannot be drawn
          have hfails : drawEach f (b :: bs) (u.holding before)
              = .error (.arithmetic fault) (u.holding before) := by
            rw [drawEach, hb]
            rfl
          constructor
          · intro h
            rw [hfails] at h
            cases h
          · rintro ⟨calls, hcalls, -⟩
            rw [List.mapM_cons, hb] at hcalls
            cases hcalls
      | ok call =>
          have hdraws : drawEach f (b :: bs) (u.holding before)
              = drawEach f bs (u.holding (before ++ [call])) := by
            have hdraw : Surface.draw call (u.holding before)
                = .ok () (u.holding (before ++ [call])) := by
              rw [Surface.draw_recording (show (u.holding before).kind = .recording from hu),
                hadds hb u before]
            rw [drawEach, hb]
            show (Surface.draw call >>= fun _ => drawEach f bs) (u.holding before) = _
            rw [bind_of_ok hdraw]
          rw [hdraws, ih]
          constructor
          · rintro ⟨calls, hcalls, rfl⟩
            refine ⟨call :: calls, ?_, by rw [List.append_assoc]; rfl⟩
            rw [List.mapM_cons, hb, hcalls]
            rfl
          · rintro ⟨calls, hcalls, rfl⟩
            rw [List.mapM_cons, hb] at hcalls
            change (bs.mapM f >>= fun rest => pure (call :: rest)) = .ok calls at hcalls
            obtain ⟨rest, hrest, hcalls⟩ := Except.bind_eq_ok hcalls
            cases hcalls
            exact ⟨rest, hrest, by rw [List.append_assoc]; rfl⟩

/-- A replay on a recording surface leaves the picture of the scene. -/
theorem Scene.replay_iff (s : Scene α) {u : Surface α} (hu : u.kind = .recording)
    (u' : Surface α) :
    s.replay u = .ok () u' ↔ ∃ calls, s.picture = .ok calls ∧ u' = u.holding calls := by
  have hreplay : s.replay u = (drawEach (·.call s.view s.background) s.log.toList >>= fun _ =>
      drawEach (·.call s.view) ((s.turtles.map (·.2)).filter (·.visible)))
      (u.holding [.clear s.background]) := by
    rw [Scene.replay, bind_of_ok (Surface.draw_recording hu _), drawShapes_eq, drawTurtles_eq]
    rfl
  rw [hreplay]
  constructor
  · intro h
    obtain ⟨_, v, hv, h⟩ := bind_eq_ok h
    obtain ⟨shapes, hshapes, rfl⟩ := (drawEach_iff Shape.adds _ hu _ v).1 hv
    obtain ⟨turtles, hturtles, rfl⟩ := (drawEach_iff Turtle.adds _ hu _ u').1 h
    refine ⟨.clear s.background :: (shapes ++ turtles), ?_, by rw [List.append_assoc]; rfl⟩
    rw [picture, hshapes]
    show (turtleCalls s.view _ >>= _) = _
    rw [turtleCalls, hturtles]
    rfl
  · rintro ⟨calls, hcalls, rfl⟩
    obtain ⟨shapes, hshapes, hcalls⟩ := Except.bind_eq_ok hcalls
    obtain ⟨turtles, hturtles, hcalls⟩ := Except.bind_eq_ok hcalls
    cases hcalls
    rw [bind_of_ok ((drawEach_iff Shape.adds _ hu _ _).2 ⟨shapes, hshapes, rfl⟩),
      drawEach_iff Turtle.adds _ hu]
    exact ⟨turtles, hturtles, by rw [List.append_assoc]; rfl⟩

namespace Canvas

/-- A view that is centred on the surface. -/
def Centred (c : Canvas α) : Prop :=
  c.scene.view.centreAcross (Scalar.ofInt c.surface.width) = .ok c.scene.view
    ∧ c.scene.view.centreDown (Scalar.ofInt c.surface.height) = .ok c.scene.view

omit [Scalar α] in
/-- A change of the view that succeeds changes nothing but the view. -/
theorem changeView_eq {f : View α → Except ArithmeticFault (View α)} {c : Canvas α} {v : View α}
    (h : f c.scene.view = .ok v) :
    changeView f c = .ok () ⟨{ c.scene with view := v }, c.surface⟩ := by
  rw [changeView, get_bind, h]
  rfl

omit [Scalar α] in
/-- What a change of the view leaves, if it succeeds, is the canvas with the new
    view. -/
theorem changeView_ok {f : View α → Except ArithmeticFault (View α)} {c d : Canvas α}
    (h : changeView f c = .ok () d) :
    ∃ v, f c.scene.view = .ok v ∧ d = ⟨{ c.scene with view := v }, c.surface⟩ := by
  cases hf : f c.scene.view with
  | ok v =>
      rw [changeView_eq hf] at h
      cases h
      exact ⟨v, rfl, rfl⟩
  | error fault =>
      rw [changeView, get_bind, hf] at h
      cases h

/-- Centring a view leaves it centred, and changes nothing else. -/
theorem centreView_ok {c d : Canvas α} (h : centreView c = .ok () d) :
    d.Centred ∧ ∃ v, d = ⟨{ c.scene with view := v }, c.surface⟩ := by
  rw [centreView, get_bind] at h
  obtain ⟨_, e, he, h⟩ := bind_eq_ok h
  obtain ⟨v, hv, rfl⟩ := changeView_ok he
  obtain ⟨v', hv', rfl⟩ := changeView_ok h
  obtain ⟨x, hx, hv⟩ := Except.bind_eq_ok hv
  obtain ⟨y, hy, hv'⟩ := Except.bind_eq_ok hv'
  cases hv
  cases hv'
  refine ⟨⟨?_, ?_⟩, _, rfl⟩
  · show (Scalar.div _ _ >>= _) = _
    rw [hx]
    rfl
  · show (Scalar.div _ _ >>= _) = _
    rw [hy]
    rfl

/-- Centring a centred view changes nothing. -/
theorem centreView_of_centred {c : Canvas α} (h : c.Centred) : centreView c = .ok () c := by
  rw [centreView, get_bind, bind_of_ok (changeView_eq h.1)]
  exact changeView_eq h.2

omit [Scalar α] in
/-- What succeeds on the surface leaves the scene as it was. -/
theorem onSurface_ok {β : Type} {m : EStateM Fault (Surface α) β} {c d : Canvas α} {b : β}
    (h : onSurface m c = .ok b d) : ∃ u, m c.surface = .ok b u ∧ d = ⟨c.scene, u⟩ := by
  cases hm : m c.surface with
  | ok a u =>
      simp only [onSurface, hm] at h
      cases h
      exact ⟨u, rfl, rfl⟩
  | error f u =>
      simp only [onSurface, hm] at h
      cases h

/-- What is shown anew is shown as it is. -/
theorem redraw_ok {c d : Canvas α} (hkind : c.surface.kind = .recording)
    (h : redraw c = .ok () d) : d.Centred ∧ ∃ v calls,
      d = ⟨{ c.scene with view := v, dirty := false }, c.surface.holding calls⟩
        ∧ d.scene.picture = .ok calls := by
  obtain ⟨_, e, he, h⟩ := bind_eq_ok h
  cases he
  obtain ⟨_, e, he, h⟩ := bind_eq_ok h
  obtain ⟨hcentred, v, rfl⟩ := centreView_ok he
  rw [get_bind] at h
  obtain ⟨u, hu, rfl⟩ := onSurface_ok h
  obtain ⟨calls, hcalls, rfl⟩ := (Scene.replay_iff _ hkind u).1 hu
  exact ⟨hcentred, v, calls, rfl, hcalls⟩

/-- Through a centred view the scene is just replayed. -/
theorem redraw_eq_replay {c : Canvas α} (hc : c.Centred) :
    redraw c = onSurface (Scene.replay { c.scene with dirty := false })
      ⟨{ c.scene with dirty := false }, c.surface⟩ := by
  have hclean : (⟨{ c.scene with dirty := false }, c.surface⟩ : Canvas α).Centred := hc
  show (centreView >>= _) (⟨{ c.scene with dirty := false }, c.surface⟩ : Canvas α) = _
  rw [bind_of_ok (centreView_of_centred hclean), get_bind]

/-- A redraw of a centred canvas leaves just the picture on the surface. -/
theorem redraw_of_centred {c : Canvas α} (hkind : c.surface.kind = .recording) (hc : c.Centred)
    {calls : List (Call α)} (hcalls : c.scene.picture = .ok calls) :
    redraw c = .ok () ⟨{ c.scene with dirty := false }, c.surface.holding calls⟩ := by
  have hreplay := (Scene.replay_iff { c.scene with dirty := false } hkind _).2 ⟨calls, hcalls, rfl⟩
  rw [redraw_eq_replay hc]
  simp only [onSurface, hreplay]

/-! ## Operations -/

/-- Everything that can be done with a canvas. -/
inductive Operation (α : Type) where
  | forward (distance : α)
  | back (distance : α)
  | left (angle : α)
  | right (angle : α)
  | setHeading (angle : α)
  | home
  | moveTo (x y : α)
  | setX (x : α)
  | setY (y : α)
  | circle (radius : α)
  | arc (angle radius : α)
  | beginFill
  | endFill
  | cancelFill
  | setPenDown (down : Bool)
  | setPenColor (color : Text)
  | setPenSize (size : α)
  | setPenMode (mode : PenMode)
  | setBackground (color : Text)
  | setMode (mode : EdgeMode)
  | setVisible (visible : Bool)
  | tell (who : Value)
  | clearScreen
  | clean
  | zoomIn
  | zoomOut
  | pan (dx dy : α)
  | resetView
  | coordinatesAt (px py : α)
  | savePicture (path : Text)
  | redraw
  | reset

namespace Operation

/-- Does an operation. -/
def act : Operation α → CanvasM α Unit
  | .forward distance => Canvas.forward distance
  | .back distance => Canvas.back distance
  | .left angle => Canvas.left angle
  | .right angle => Canvas.right angle
  | .setHeading angle => Canvas.setHeading angle
  | .home => Canvas.home
  | .moveTo x y => Canvas.moveTo x y
  | .setX x => Canvas.setX x
  | .setY y => Canvas.setY y
  | .circle radius => Canvas.circle radius
  | .arc angle radius => Canvas.arc angle radius
  | .beginFill => Canvas.beginFill
  | .endFill => Canvas.endFill
  | .cancelFill => Canvas.cancelFill
  | .setPenDown down => Canvas.setPenDown down
  | .setPenColor color => Canvas.setPenColor color
  | .setPenSize size => Canvas.setPenSize size
  | .setPenMode mode => Canvas.setPenMode mode
  | .setBackground color => Canvas.setBackground color
  | .setMode mode => Canvas.setMode mode
  | .setVisible visible => Canvas.setVisible visible
  | .tell who => Canvas.tell who
  | .clearScreen => Canvas.clearScreen
  | .clean => Canvas.clean
  | .zoomIn => Canvas.zoomIn
  | .zoomOut => Canvas.zoomOut
  | .pan dx dy => Canvas.pan dx dy
  | .resetView => Canvas.resetView
  | .coordinatesAt px py => do
      let _ ← Canvas.coordinatesAt px py
  | .savePicture path => Canvas.savePicture path
  | .redraw => Canvas.redraw
  | .reset => Canvas.reset

/-- Whether an operation ends by showing the scene anew. -/
def redraws : Operation α → Bool
  | .setBackground _ | .clearScreen | .clean | .zoomIn | .zoomOut | .pan _ _ | .resetView
  | .savePicture _ | .redraw | .reset => true
  | _ => false

/-- Whether an operation chooses the colour of a pen. -/
def recolours : Operation α → Bool
  | .setPenColor _ => true
  | _ => false

end Operation

/-- A canvas on a surface after some operations, the latest first, none of which
    has failed. -/
inductive Worked (surface : Surface α) : List (Operation α) → Canvas α → Prop
  | new {c : Canvas α} (h : Canvas.new surface = .ok c) : Worked surface [] c
  | step {past : List (Operation α)} {c d : Canvas α} (h : Worked surface past c)
      (op : Operation α) (hop : op.act c = .ok () d) : Worked surface (op :: past) d

/-! ## What shows -/

/-- The surface shows the scene, up to a change of the calls. -/
def ShowsUpTo (g : Call α → Call α) (c : Canvas α) : Prop :=
  List.map g <$> c.scene.picture = .ok (c.surface.calls.toList.map g)

/-- A turtle that is visible is shown below those behind it. -/
theorem turtleCalls_cons (v : View α) (t : Turtle α) (ts : List (Turtle α)) :
    turtleCalls v (t :: ts) = if t.visible then (do
      let call ← t.call v
      let calls ← turtleCalls v ts
      pure (call :: calls)) else turtleCalls v ts := by
  rw [turtleCalls]
  by_cases hvisible : t.visible = true
  · rw [if_pos hvisible, List.filter_cons_of_pos hvisible, List.mapM_cons]
    rfl
  · rw [if_neg hvisible, List.filter_cons_of_neg hvisible]
    rfl

/-- Turtles that look alike, up to a change of their calls. -/
def LookAlike (g : Call α → Call α) (t t' : Turtle α) : Prop :=
  t'.visible = t.visible ∧ ∀ v : View α, g <$> t'.call v = g <$> t.call v

/-- Turtles that look alike are shown by calls that are alike. -/
theorem turtleCalls_map {g : Call α → Call α} {ts ts' : List (Turtle α)}
    (h : List.Forall₂ (LookAlike g) ts ts') (v : View α) :
    List.map g <$> turtleCalls v ts' = List.map g <$> turtleCalls v ts := by
  induction h with
  | nil => rfl
  | @cons t t' ts ts' ht hts ih =>
      obtain ⟨hvisible, hcall⟩ := ht
      rw [turtleCalls_cons, turtleCalls_cons, hvisible]
      split
      · have hmap : ∀ (r : Except ArithmeticFault (Call α))
            (rs : Except ArithmeticFault (List (Call α))),
            List.map g <$> (do let call ← r; let calls ← rs; pure (call :: calls))
              = (do let call ← g <$> r; let calls ← List.map g <$> rs; pure (call :: calls)) := by
          intro r rs
          cases r <;> cases rs <;> rfl
        rw [hmap, hmap, hcall v, ih]
      · exact ih

/-- Scenes that differ only in turtles that look alike. -/
theorem picture_map {g : Call α → Call α} {s : Scene α} {turtles : List (Value × Turtle α)}
    (h : List.Forall₂ (LookAlike g) (s.turtles.map (·.2)) (turtles.map (·.2))) :
    List.map g <$> Scene.picture { s with turtles := turtles } = List.map g <$> s.picture := by
  have hmap : ∀ (rs ts : Except ArithmeticFault (List (Call α))) (first : Call α),
      List.map g <$> (do let shapes ← rs; let turtles ← ts; pure (first :: (shapes ++ turtles)))
        = (do
          let shapes ← List.map g <$> rs
          let turtles ← List.map g <$> ts
          pure (g first :: (shapes ++ turtles)) : Except ArithmeticFault (List (Call α))) := by
    intro rs ts first
    cases rs <;> cases ts <;> simp [Functor.map, Except.map, bind, Except.bind, pure, Except.pure]
  have hpicture : ∀ s : Scene α, s.picture = (do
      let shapes ← s.log.toList.mapM (·.call s.view s.background)
      let turtles ← turtleCalls s.view (s.turtles.map (·.2))
      pure (.clear s.background :: (shapes ++ turtles))) := fun _ => rfl
  rw [hpicture, hpicture, hmap, hmap, turtleCalls_map h]

/-- A change of the current turtle that shows nothing leaves turtles that look
    alike. -/
theorem forall₂_mapTurtle {g : Call α → Call α} {f : Turtle α → Turtle α}
    (hf : ∀ t, LookAlike g t (f t)) (s : Scene α) :
    List.Forall₂ (LookAlike g) (s.turtles.map (·.2)) ((s.mapTurtle f).turtles.map (·.2)) := by
  rw [Scene.mapTurtle, List.map_map]
  induction s.turtles with
  | nil => exact .nil
  | cons p ps ih =>
      refine .cons ?_ ih
      show LookAlike g p.2 (if p.1.sameKey s.current then f p.2 else p.2)
      split
      · exact hf p.2
      · exact ⟨rfl, fun _ => rfl⟩

/-! ## One operation -/

/-- A canvas whose surface shows the scene unless it is marked as changed: in
    any case up to the colours of turtles, and entirely if `exact` holds. -/
structure Followed (exact : Prop) (c : Canvas α) : Prop where
  kind : c.surface.kind = .recording
  centred : c.Centred
  roughly : c.scene.dirty = false → c.ShowsUpTo Call.colourless
  exactly : exact → c.scene.dirty = false → c.ShowsUpTo id

section

variable {β γ : Type} {exact : Prop} {c d : Canvas α}

theorem Followed.mono (h : Followed exact c) {exact' : Prop} (hexact : exact' → exact) :
    Followed exact' c :=
  ⟨h.kind, h.centred, h.roughly, fun he => h.exactly (hexact he)⟩

/-- A canvas is shown entirely after a redraw. -/
theorem followed_of_redraw (hkind : c.surface.kind = .recording) (h : redraw c = .ok () d) :
    Followed exact d := by
  obtain ⟨hcentred, v, calls, rfl, hcalls⟩ := redraw_ok hkind h
  have hshows : ∀ g, ShowsUpTo g
      ⟨{ c.scene with view := v, dirty := false }, c.surface.holding calls⟩ := by
    intro g
    rw [ShowsUpTo, hcalls]
    rfl
  exact ⟨hkind, hcentred, fun _ => hshows _, fun _ _ => hshows _⟩

/-- An action after which the scene is marked as changed. -/
def Touches (m : CanvasM α β) : Prop := ∀ ⦃c b d⦄, m c = .ok b d → d.scene.dirty = true

omit [Scalar α] in
/-- Two actions in a row mark the scene if the second does. -/
theorem Touches.bind {m : CanvasM α β} {k : β → CanvasM α γ} (hk : ∀ b, Touches (k b)) :
    Touches (m >>= k) := by
  intro c b d h
  obtain ⟨a, e, -, h⟩ := bind_eq_ok h
  exact hk a h

omit [Scalar α] in
/-- A change marks the scene if its result is marked. -/
theorem Touches.change {f : Scene α → Scene α} (hf : ∀ s, (f s).dirty = true) :
    Touches (Canvas.change f) := by
  intro c b d h
  cases h
  exact hf c.scene

/-- Nothing has to show on a canvas that is marked. -/
theorem Followed.touched (h : Followed exact c) {exact' : Prop} {m : CanvasM α β} {b : β}
    (hdraws : Draws m) (hm : m c = .ok b d) (hdirty : d.scene.dirty = true) :
    Followed exact' d := by
  obtain ⟨hsteps, hsurface⟩ := hdraws c
  rw [hm] at hsteps hsurface
  have hview : d.scene.view = c.scene.view := hsteps.view
  refine ⟨hsurface ▸ h.kind, ?_, fun hclean => ?_, fun _ hclean => ?_⟩
  · rw [Centred, show d.surface = c.surface from hsurface, hview]
    exact h.centred
  · rw [hdirty] at hclean
    cases hclean
  · rw [hdirty] at hclean
    cases hclean

omit [Scalar α] in
/-- Looking at the current turtle changes nothing. -/
theorem turtle_ok {t : Turtle α} (h : turtle c = .ok t d) : d = c := by
  obtain ⟨s, e, he, h⟩ := bind_eq_ok h
  cases he
  cases hturtle : c.scene.turtle? with
  | some t' =>
      rw [hturtle] at h
      cases h
      rfl
  | none =>
      rw [hturtle] at h
      cases h

omit [Scalar α] in
/-- A change of the current turtle changes nothing else. -/
theorem changeTurtle_ok {f : Turtle α → Turtle α} (h : changeTurtle f c = .ok () d) :
    d = ⟨c.scene.mapTurtle f, c.surface⟩ := by
  obtain ⟨t, e, he, hchange⟩ := bind_eq_ok h
  obtain rfl := turtle_ok he
  cases hchange
  rfl

/-- A change of the scene that does not show. -/
theorem Followed.unseen (h : Followed exact c) {f : Scene α → Scene α}
    (hd : change f c = .ok () d) (hview : (f c.scene).view = c.scene.view)
    (hdirty : (f c.scene).dirty = c.scene.dirty)
    (hpicture : (f c.scene).picture = c.scene.picture) : Followed exact d := by
  cases hd
  have hshows : ∀ g, c.ShowsUpTo g → ShowsUpTo g ⟨f c.scene, c.surface⟩ := by
    intro g hg
    rw [ShowsUpTo, hpicture]
    exact hg
  refine ⟨h.kind, ?_, fun hclean => ?_, fun he hclean => ?_⟩
  · show View.centreAcross (f c.scene).view _ = .ok (f c.scene).view
      ∧ View.centreDown (f c.scene).view _ = .ok (f c.scene).view
    rw [hview]
    exact h.centred
  · exact hshows _ (h.roughly (hdirty ▸ hclean))
  · exact hshows _ (h.exactly he (hdirty ▸ hclean))

/-- A change of the current turtle that does not show leaves the canvas shown. -/
theorem Followed.turtle_unseen (h : Followed exact c) {f : Turtle α → Turtle α}
    (hd : changeTurtle f c = .ok () d) (hf : ∀ t, LookAlike id t (f t)) : Followed exact d := by
  have hpicture := picture_map (forall₂_mapTurtle hf c.scene)
  simp only [List.map_id_fun, id_map] at hpicture
  obtain rfl := changeTurtle_ok hd
  exact h.unseen (f := fun s => s.mapTurtle f) rfl rfl rfl hpicture

/-- A change of the current turtle that shows only in its colour. -/
theorem Followed.recoloured (h : Followed exact c) {f : Turtle α → Turtle α}
    (hd : changeTurtle f c = .ok () d) (hf : ∀ t, LookAlike Call.colourless t (f t)) :
    Followed False d := by
  have hpicture := picture_map (forall₂_mapTurtle hf c.scene)
  obtain rfl := changeTurtle_ok hd
  exact ⟨h.kind, h.centred, fun hclean => hpicture.trans (h.roughly hclean), False.elim⟩

omit [Scalar α] in
theorem change_bind (f : Scene α → Scene α) (k : Unit → CanvasM α β) (c : Canvas α) :
    (change f >>= k) c = k () ⟨f c.scene, c.surface⟩ := rfl

/-- A change of the scene that is shown at once. -/
theorem redrawn (hkind : c.surface.kind = .recording) {f : Scene α → Scene α}
    (hd : (change f >>= fun _ => redraw) c = .ok () d) : Followed exact d := by
  rw [change_bind] at hd
  exact followed_of_redraw (c := ⟨f c.scene, c.surface⟩) hkind hd

/-- A change of the view that is shown at once. -/
theorem seenAnew (hkind : c.surface.kind = .recording)
    {f : View α → Except ArithmeticFault (View α)}
    (hd : (changeView f >>= fun _ => redraw) c = .ok () d) : Followed exact d := by
  obtain ⟨_, e, he, hredraw⟩ := bind_eq_ok hd
  obtain ⟨v, -, rfl⟩ := changeView_ok he
  exact followed_of_redraw (c := ⟨{ c.scene with view := v }, c.surface⟩) hkind hredraw

end

/-! ### Motion marks the scene as changed -/

omit [Scalar α] in
theorem touches_touch : Touches (change (·.touch) : CanvasM α Unit) := .change fun _ => rfl

/-- Every move marks the scene. -/
theorem touches_moveTo (x y : α) : Touches (moveTo x y) := by
  refine .bind fun t => .bind fun s => ?_
  cases s.mode with
  | wrap => exact .bind fun _ => touches_touch
  | fence => exact .bind fun ⟨_, _⟩ => .bind fun _ => touches_touch
  | window => exact .bind fun _ => touches_touch

theorem touches_setHeading (angle : α) : Touches (setHeading angle) :=
  .bind fun _ => .bind fun _ => touches_touch

theorem touches_forward (distance : α) : Touches (forward distance) :=
  .bind fun _ => .bind fun ⟨_, _⟩ => touches_moveTo _ _

/-- A circle marks the scene. -/
theorem touches_circle (radius : α) : Touches (circle radius) := by
  refine .bind fun t => .change fun s => ?_
  split <;> rfl

/-- An arc marks the scene. -/
theorem touches_arc (angle radius : α) : Touches (arc angle radius) := by
  have hend : ∀ (t : Turtle α) (cx cy radius ex ey sweep : α),
      Touches (endArc t cx cy radius ex ey sweep) := fun _ _ _ _ _ _ _ =>
    .bind fun _ => .bind fun _ => .bind fun _ => .bind fun _ => .bind fun _ => .bind fun _ =>
      .bind fun _ => .change fun _ => rfl
  refine .bind fun t => .bind fun side => .bind fun ⟨cx, cy⟩ => .bind fun start =>
    .bind fun sweep => .bind fun last => .bind fun ⟨ex, ey⟩ => ?_
  dsimp only
  split
  · exact .bind fun _ => .bind fun _ => hend ..
  · exact hend ..

/-- Speaking to another turtle marks the scene. -/
theorem touches_tell (who : Value) : Touches (tell who : CanvasM α Unit) := by
  rw [tell]
  by_cases hlist : (nameOf who).isList = true
  · simp only [hlist]
    intro c b d h
    cases h
  · simp only [hlist, Bool.false_eq_true, if_false]
    exact .change fun _ => rfl

section

variable {exact : Prop} {c d : Canvas α}

/-- The end of a fill marks the scene or draws nothing. -/
theorem Followed.endFill (h : Followed exact c) (hd : Canvas.endFill c = .ok () d) :
    Followed exact d := by
  cases hd
  show Followed exact ⟨c.scene.endFill, c.surface⟩
  cases hfills : c.scene.fills with
  | nil =>
      have hsame : c.scene.endFill = c.scene := by rw [Scene.endFill, hfills]
      rw [hsame]
      exact h
  | cons b rest =>
      refine h.touched draws_endFill (rfl : Canvas.endFill c = .ok () _) ?_
      show c.scene.endFill.dirty = true
      rw [Scene.endFill, hfills]
      rfl

/-- Asking for coordinates changes nothing. -/
theorem Followed.coordinatesAt (h : Followed exact c) {px py : α} {p : Int × Int}
    (hd : Canvas.coordinatesAt px py c = .ok p d) : d = c := by
  have hread : ∀ {β : Type} (r : Except ArithmeticFault β) (k : β → CanvasM α (Int × Int)) (e),
      (compute r >>= k) e = .ok p d → ∃ b, k b e = .ok p d := by
    intro β r k e he
    cases r with
    | ok b => exact ⟨b, he⟩
    | error f => cases he
  rw [Canvas.coordinatesAt, bind_of_ok (centreView_of_centred h.centred)] at hd
  obtain ⟨_, hd⟩ := hread _ _ _ hd
  obtain ⟨_, hd⟩ := hread _ _ _ hd
  obtain ⟨_, hd⟩ := hread _ _ _ hd
  cases hd
  rfl

/-- A canvas is shown entirely after its picture has been saved. -/
theorem Followed.savePicture (h : Followed exact c) {exact' : Prop} {path : Text}
    (hd : Canvas.savePicture path c = .ok () d) : Followed exact' d := by
  -- whatever the picture has shown, the turtles are brought back by a last replay
  obtain ⟨e, hhidden, hback⟩ := wrapUp_eq_ok hd
  rw [change_bind] at hhidden
  obtain ⟨_, e', hredraw, hsave⟩ := bind_eq_ok hhidden
  obtain ⟨-, v, calls, rfl, -⟩ := redraw_ok (by exact h.kind) hredraw
  obtain ⟨u, hu, rfl⟩ := onSurface_ok hsave
  exact redrawn (Surface.kind_save (by exact h.kind) hu) hback

/-- What an operation leaves of the agreement of a scene and its surface. -/
theorem Followed.step (h : Followed exact c) (op : Operation α) (hop : op.act c = .ok () d) :
    Followed (op.redraws = true ∨ exact ∧ op.recolours = false) d := by
  have hquiet : false = true ∨ exact ∧ false = false → exact := by
    rintro (himpossible | ⟨he, -⟩)
    · cases himpossible
    · exact he
  have M := motions_steps (α := α)
  have H := M.toMoves
  cases op with
  | forward distance => exact h.touched (within_forward H distance) hop (touches_forward _ hop)
  | back distance => exact h.touched (within_forward H _) hop (touches_forward _ hop)
  | left angle =>
      exact h.touched (within_left H angle) hop
        (Touches.bind (fun _ => .bind fun _ => touches_setHeading _) hop)
  | right angle =>
      exact h.touched (within_right H angle) hop
        (Touches.bind (fun _ => .bind fun _ => touches_setHeading _) hop)
  | setHeading angle => exact h.touched (within_setHeading H angle) hop (touches_setHeading _ hop)
  | home => exact h.touched (within_home H) hop (Touches.bind (fun _ => touches_setHeading _) hop)
  | moveTo x y => exact h.touched (within_moveTo H x y) hop (touches_moveTo _ _ hop)
  | setX x => exact h.touched (within_setX H x) hop (Touches.bind (fun _ => touches_moveTo _ _) hop)
  | setY y => exact h.touched (within_setY H y) hop (Touches.bind (fun _ => touches_moveTo _ _) hop)
  | circle radius => exact h.touched (within_circle H radius) hop (touches_circle _ hop)
  | arc angle radius => exact h.touched (within_arc H angle radius) hop (touches_arc _ _ hop)
  | beginFill =>
      obtain ⟨t, e, he, hfill⟩ := bind_eq_ok hop
      obtain rfl := turtle_ok he
      exact (h.unseen hfill rfl rfl rfl).mono hquiet
  | endFill => exact (h.endFill hop).mono hquiet
  | cancelFill => exact (h.unseen hop rfl rfl rfl).mono hquiet
  | setPenDown down => exact (h.turtle_unseen hop fun _ => ⟨rfl, fun _ => rfl⟩).mono hquiet
  | setPenColor color =>
      refine (h.recoloured hop fun t => ⟨rfl, fun v => ?_⟩).mono ?_
      · simp only [Turtle.call]
        cases v.toCanvas t.x t.y with
        | error f => rfl
        | ok p => cases Scalar.mul (Scalar.ofInt turtleSize) v.zoom <;> rfl
      · rintro (hredraws | ⟨-, hrecolours⟩)
        · cases hredraws
        · cases hrecolours
  | setPenSize size => exact (h.turtle_unseen hop fun _ => ⟨rfl, fun _ => rfl⟩).mono hquiet
  | setPenMode mode => exact (h.turtle_unseen hop fun _ => ⟨rfl, fun _ => rfl⟩).mono hquiet
  | setBackground color => exact redrawn h.kind hop
  | setMode mode =>
      exact (h.unseen (f := fun s => { s with mode := mode }) hop rfl rfl rfl).mono hquiet
  | setVisible visible =>
      exact h.touched (within_setVisible H visible) hop (Touches.bind (fun _ => touches_touch) hop)
  | tell who => exact h.touched (within_tell M who) hop (touches_tell who hop)
  | clearScreen => exact redrawn h.kind hop
  | clean => exact redrawn h.kind hop
  | zoomIn => exact seenAnew h.kind hop
  | zoomOut => exact seenAnew h.kind hop
  | pan dx dy =>
      obtain ⟨_, e, he, hpan⟩ := bind_eq_ok hop
      obtain ⟨v, -, rfl⟩ := changeView_ok he
      exact seenAnew (c := ⟨{ c.scene with view := v }, c.surface⟩) h.kind hpan
  | resetView => exact redrawn h.kind hop
  | coordinatesAt px py =>
      obtain ⟨p, e, he, hdone⟩ := bind_eq_ok hop
      obtain rfl := h.coordinatesAt he
      cases hdone
      exact h.mono hquiet
  | savePicture path => exact h.savePicture hop
  | redraw => exact followed_of_redraw h.kind hop
  | reset => exact redrawn h.kind hop

end

/-! ## All operations -/

/-- Whether no operation since the last that showed the scene chooses a colour. -/
def Uncoloured (past : List (Operation α)) : Prop :=
  ∀ op ∈ past.takeWhile fun op => !op.redraws, op.recolours = false

/-- Up to the colours of turtles, all canvases show what they are unless they are
    marked, and entirely if no colour was chosen since the last redraw. -/
theorem Worked.followed {surface : Surface α} (hkind : surface.kind = .recording)
    {past : List (Operation α)} {c : Canvas α} (h : Worked surface past c) :
    Followed (Uncoloured past) c := by
  induction h with
  | new hnew =>
      obtain ⟨view, -, hreset⟩ := Canvas.reset_of_new hnew
      exact redrawn (c := ⟨Scene.new view, surface⟩) hkind hreset
  | @step past c d _ op hop ih =>
      refine (ih.step op hop).mono fun huncoloured => ?_
      -- the past is only looked at as far back as the last replay
      cases hredraws : op.redraws with
      | true => exact .inl rfl
      | false =>
          refine .inr ⟨fun op' hop' => huncoloured op' ?_, huncoloured op ?_⟩
          · rw [List.takeWhile_cons_of_pos (by rw [hredraws]; rfl)]
            exact List.mem_cons_of_mem _ hop'
          · rw [List.takeWhile_cons_of_pos (by rw [hredraws]; rfl)]
            exact List.mem_cons_self

/-- A scene that is not marked as changed is shown: replaying it leaves the calls
    that are on the surface, but for the colours of turtles, and exactly these
    if no colour of a pen has been chosen since it was last replayed. -/
theorem redraw_of_clean {surface : Surface α} (hkind : surface.kind = .recording)
    {past : List (Operation α)} {c : Canvas α} (h : Worked surface past c)
    (hclean : c.scene.dirty = false) :
    ∃ d, redraw c = .ok () d
      ∧ d.surface.calls.map Call.colourless = c.surface.calls.map Call.colourless
      ∧ ((∀ op ∈ past.takeWhile fun op => !op.redraws, op.recolours = false) →
          d.surface.calls = c.surface.calls) := by
  have hfollowed := h.followed hkind
  have hroughly := hfollowed.roughly hclean
  cases hpicture : c.scene.picture with
  | error f =>
      rw [ShowsUpTo, hpicture] at hroughly
      cases hroughly
  | ok calls =>
      have hshows : ∀ g, c.ShowsUpTo g → calls.map g = c.surface.calls.toList.map g := by
        intro g hg
        rw [ShowsUpTo, hpicture] at hg
        exact Except.ok.inj hg
      refine ⟨_, redraw_of_centred hfollowed.kind hfollowed.centred hpicture, ?_, fun hpast => ?_⟩
      · apply Array.toList_inj.1
        rw [Array.toList_map, Array.toList_map]
        exact hshows _ hroughly
      · apply Array.toList_inj.1
        have hexactly := hshows _ (hfollowed.exactly hpast hclean)
        rw [List.map_id, List.map_id] at hexactly
        exact hexactly

/-- The canvas after some operations, the latest first, or what went wrong. -/
def work (surface : Surface α) : List (Operation α) → Except Fault (Canvas α)
  | [] => Canvas.new surface
  | op :: past => do
      let c ← work surface past
      match op.act c with
      | .ok _ d => .ok d
      | .error f _ => .error f

/-- Operations that are done one after another without failing have worked. -/
theorem worked_of_work {surface : Surface α} {past : List (Operation α)} {c : Canvas α}
    (h : work surface past = .ok c) : Worked surface past c := by
  induction past generalizing c with
  | nil => exact .new h
  | cons op past ih =>
      obtain ⟨d, hd, hop⟩ := Except.bind_eq_ok h
      cases hact : op.act d with
      | ok _ e =>
          rw [hact] at hop
          cases hop
          exact .step (ih hd) op hact
      | error f e =>
          rw [hact] at hop
          cases hop

/-- A surface to try things on. -/
def sheet : Surface Number := .new .recording 800 600 (.empty [])

/-- The law after a chosen colour, a redraw and a circle. -/
theorem redraw_of_clean_circle : ∃ c d,
    Worked sheet [.setPenDown true, .redraw, .setPenColor "red", .circle (.int 5)] c
      ∧ c.scene.dirty = false ∧ redraw c = .ok () d ∧ d.surface.calls = c.surface.calls := by
  have htried : (match work sheet
        [.setPenDown true, .redraw, .setPenColor "red", .circle (.int 5)] with
      | .ok c => !c.scene.dirty
      | .error _ => false) = true := by decide +kernel
  split at htried
  · rename_i c hc
    rw [Bool.not_eq_true'] at htried
    obtain ⟨d, hd, -, hcalls⟩ := redraw_of_clean rfl (worked_of_work hc) htried
    refine ⟨c, d, worked_of_work hc, htried, hd, hcalls fun op hop => ?_⟩
    obtain rfl := List.mem_singleton.1 hop
    rfl
  · cases htried

/-- The colours of the turtles that a surface shows. -/
def shownColours (u : Surface Number) : List Text :=
  u.calls.toList.filterMap fun
    | .turtle _ _ _ color _ => some color
    | _ => none

/-- A turtle whose pen has a new colour is shown in the old one, and nothing says
    so. -/
theorem recoloured_unmarked : ∃ c d e, Canvas.new sheet = .ok c
    ∧ setPenColor "red" c = .ok () d ∧ d.scene.dirty = false ∧ redraw d = .ok () e
    ∧ e.surface.calls ≠ d.surface.calls := by
  have htried : (match Canvas.new sheet with
      | .ok c =>
          match setPenColor "red" c with
          | .ok _ d =>
              match redraw d with
              | .ok _ e => !d.scene.dirty && shownColours e.surface != shownColours d.surface
              | .error _ _ => false
          | .error _ _ => false
      | .error _ => false) = true := by decide +kernel
  split at htried
  · rename_i c hc
    split at htried
    · rename_i d hd
      split at htried
      · rename_i e he
        rw [Bool.and_eq_true, Bool.not_eq_true', bne_iff_ne] at htried
        refine ⟨c, d, e, hc, hd, htried.1, he, fun hsame => htried.2 ?_⟩
        rw [shownColours, hsame]
        rfl
      · cases htried
    · cases htried
  · cases htried

end Canvas

end TurtleLogo
