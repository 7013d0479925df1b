import TurtleLogo.Proofs.Finite
import TurtleLogo.Proofs.Showing

/-! # Turtles that keep a quality

    A motion brings a turtle somewhere, and which numbers can be there then depends
    on the edge: wrapping and stopping let through less than going straight on.
    `Canvas.checked` takes a motion back, with a fault, if a number of the current
    turtle is then not as it should be, where nothing else looks at it: at the end
    of a straight move, of a turn and of an arc.

    * `Guards ok good` says that such checks by `ok` are enough for turtles to keep
      a quality; they then keep it in all that commands do to a canvas.
    * Without any check, headings are in normal form or undefined
      (`guards_upright`).
    * If all numbers that are checked are finite, all are, and headings are in
      normal form (`guards_sound`). -/

namespace TurtleLogo

/-- A surface that is not huge. -/
structure Surface.Ordinary (u : Surface Number) : Prop where
  width : u.width.natAbs < 2 ^ 960
  height : u.height.natAbs < 2 ^ 960

/-- The same number, up to the mark of one that is undefined. -/
def Number.Remarked (n m : Number) : Prop :=
  m = n ∨ ∃ j k, n = .real (.nan j) ∧ m = .real (.nan k)

/-- Where a move of a turtle ends on a wrapped canvas. -/
def Turtle.WrapsTo (t : Turtle Number) (x y wx wy : Number) : Prop :=
  ∃ dx dy steps halfWidth halfHeight, x.sub t.x = .ok dx ∧ y.sub t.y = .ok dy
    ∧ Canvas.hopCount dx dy = .ok steps ∧ halfWidth.IsHalf ∧ halfHeight.IsHalf
    ∧ wrapCoordinate x halfWidth = .ok wx ∧ wrapCoordinate y halfHeight = .ok wy

/-- Turtles keep a quality if the numbers are checked that a straight move, a turn
    or an arc ends with. -/
structure Guards (ok : Number → Bool) (good : Turtle Number → Prop) : Prop where
  new : good .new
  home : ok (.int 0) = true
  look : ∀ {t t' : Turtle Number}, t.x.Remarked t'.x → t.y.Remarked t'.y →
    t.heading.Remarked t'.heading → good t → good t'
  wrapped : ∀ {t t' : Turtle Number} {x y wx wy}, t.WrapsTo x y wx wy → good t' →
    good { t' with x := wx, y := wy }
  clamped : ∀ {t : Turtle Number} {halfWidth halfHeight : Number} (x y), halfWidth.IsHalf →
    halfHeight.IsHalf → good t →
    good { t with x := clampCoordinate x halfWidth, y := clampCoordinate y halfHeight }
  placed : ∀ {t : Turtle Number} {x y}, ok x = true → ok y = true → good t →
    good { t with x := x, y := y }
  turned : ∀ {t : Turtle Number} {angle h}, normalizeHeading angle = .ok h → ok h = true →
    good t → good { t with heading := h }

namespace Canvas

variable {ok : Number → Bool} {good : Turtle Number → Prop} {β γ : Type}

/-- What all actions of commands keep: all turtles are good, and the canvas is
    seen as it was first. -/
structure Safe (good : Turtle Number → Prop) (c : Canvas Number) : Prop where
  turtles : ∀ p ∈ c.scene.turtles, good p.2
  zoom : c.scene.view.zoom = .int 1
  surface : c.surface.Ordinary

/-- An action that keeps a canvas safe, if the current turtle is then as it should
    be. -/
def Careful (good : Turtle Number → Prop) (kept : EdgeMode → Turtle Number → Bool)
    (act : CanvasM Number β) : Prop :=
  ∀ c, c.Safe good → (endOf (act c)).scene.turtle?.all (kept c.scene.mode) = true →
    (endOf (act c)).Safe good

/-- Does an action, and takes it back with a fault unless the current turtle is
    then as it should be. -/
def checked (kept : EdgeMode → Turtle Number → Bool) (act : CanvasM Number Unit) :
    CanvasM Number Unit := fun c =>
  if (endOf (act c)).scene.turtle?.all (kept c.scene.mode) then act c
  else .error (.arithmetic .tooBig) c

/-- Whether a turtle is as it should be after a move: nothing but the end of a
    straight one is looked at. -/
def keptMoving (ok : Number → Bool) (mode : EdgeMode) (t : Turtle Number) : Bool :=
  mode != .window || ok t.x && ok t.y

/-- Whether a turtle is as it should be after a turn. -/
def keptTurning (ok : Number → Bool) (_ : EdgeMode) (t : Turtle Number) : Bool :=
  ok t.heading

/-- Whether a turtle is as it should be after an arc. -/
def keptArcing (ok : Number → Bool) (_ : EdgeMode) (t : Turtle Number) : Bool :=
  ok t.x && ok t.y && ok t.heading

/-- A kept end of a straight move has both coordinates as they should be. -/
theorem and_of_kept {x y : Number} {t : Turtle Number}
    (h : keptMoving ok .window { t with x := x, y := y } = true) : ok x = true ∧ ok y = true :=
  (Bool.and_eq_true _ _).mp h

/-- An action that keeps a canvas safe, and has results with some property. -/
def Upholds (good : Turtle Number → Prop) (act : CanvasM Number β) (Q : β → Prop) : Prop :=
  ∀ c, c.Safe good → (endOf (act c)).Safe good ∧ ∀ b d, act c = .ok b d → Q b

namespace Upholds

variable {Q : β → Prop} {S : γ → Prop}

theorem pure {b : β} (h : Q b) : Upholds good (Pure.pure b) Q := by
  refine fun c hc => ⟨hc, fun b d hd => ?_⟩
  cases hd
  exact h

theorem throw (f : Fault) : Upholds good (MonadExcept.throw f) Q := by
  refine fun c hc => ⟨hc, fun b d hd => ?_⟩
  cases hd

/-- What upholds a quality may be followed by what upholds it. -/
theorem bind {m : CanvasM Number β} {k : β → CanvasM Number γ} (hm : Upholds good m Q)
    (hk : ∀ b, Q b → Upholds good (k b) S) : Upholds good (m >>= k) S := by
  intro c hc
  obtain ⟨hend, hresult⟩ := hm c hc
  cases h : m c with
  | ok b d =>
      rw [h] at hend
      rw [bind_of_ok h]
      exact hk b (hresult b d h) d hend
  | error f d =>
      rw [h] at hend
      rw [bind_of_error h]
      exact ⟨hend, fun _ _ hd => nomatch hd⟩

/-- Arithmetic leaves the canvas as it is. -/
theorem compute {r : Except ArithmeticFault β} (h : ∀ b, r = .ok b → Q b) :
    Upholds good (compute r) Q := by
  cases r with
  | ok b => exact .pure (h b rfl)
  | error f => exact .throw _

/-- Going on after a look at the canvas. -/
theorem get_bind {k : Canvas Number → CanvasM Number β}
    (hk : ∀ c, c.Safe good → Upholds good (k c) Q) : Upholds good (get >>= k) Q :=
  fun c hc => hk c hc c hc

/-- A change of the scene that changes no turtle and does not zoom. -/
theorem change {g : Scene Number → Scene Number} (hturtles : ∀ s, (g s).turtles = s.turtles)
    (hview : ∀ s, (g s).view.zoom = s.view.zoom) :
    Upholds good (Canvas.change g) fun _ => True := by
  refine fun c hc => ⟨⟨?_, (hview c.scene).trans hc.zoom, hc.surface⟩, fun _ _ _ => trivial⟩
  intro p hp
  exact hc.turtles p (by rwa [← hturtles c.scene])

end Upholds

/-! ## The current turtle -/

theorem change_eq (g : Scene Number → Scene Number) (c : Canvas Number) :
    change g c = .ok () ⟨g c.scene, c.surface⟩ := rfl

/-- A change of the current turtle. -/
theorem Safe.mapTurtle {c : Canvas Number} (h : c.Safe good) {f : Turtle Number → Turtle Number}
    (hf : ∀ t, c.scene.turtle? = some t → ∀ t', good t' → good (f t')) :
    Safe good ⟨c.scene.mapTurtle f, c.surface⟩ := by
  refine ⟨?_, h.zoom, h.surface⟩
  intro p hp
  obtain ⟨⟨id, t⟩, ht, rfl⟩ := List.mem_map.1 hp
  have hgood : good t := h.turtles _ ht
  dsimp only
  split
  · rename_i hkey
    have hsome : (c.scene.turtles.find? (·.1.sameKey c.scene.current)).isSome = true :=
      List.find?_isSome.2 ⟨(id, t), ht, hkey⟩
    obtain ⟨q, hq⟩ := Option.isSome_iff_exists.1 hsome
    exact hf q.2 (by rw [Scene.turtle?, hq]; rfl) t hgood
  · exact hgood

/-- The current turtle of a safe canvas is good. -/
theorem Safe.turtle {c : Canvas Number} (h : c.Safe good) {t : Turtle Number}
    (ht : c.scene.turtle? = some t) : good t := by
  rw [Scene.turtle?, Option.map_eq_some_iff] at ht
  obtain ⟨p, hp, rfl⟩ := ht
  exact h.turtles p (List.mem_of_find?_eq_some hp)

theorem turtle?_touch (s : Scene Number) : s.touch.turtle? = s.turtle? := rfl

/-- The current turtle that is given is good. -/
theorem upholds_turtle : Upholds good turtle good := by
  intro c hc
  cases ht : c.scene.turtle? with
  | some t =>
      rw [turtle_of_some ht]
      refine ⟨hc, fun b d hd => ?_⟩
      cases hd
      exact hc.turtle ht
  | none =>
      rw [turtle_of_none ht]
      exact ⟨hc, fun _ _ hd => nomatch hd⟩

/-- A change of the current turtle that keeps its quality. -/
theorem upholds_changeTurtle {f : Turtle Number → Turtle Number}
    (hf : ∀ t, good t → good (f t)) : Upholds good (changeTurtle f) fun _ => True :=
  .bind upholds_turtle fun _ _ _ hc => ⟨hc.mapTurtle fun _ _ => hf, fun _ _ _ => trivial⟩

/-! ## Motion -/

theorem upholds_touch : Upholds good (change (·.touch)) fun _ => True :=
  .change (fun _ => rfl) fun _ => rfl

/-- A line leaves the turtles, the view and which turtle is current. -/
theorem stroke_turtles (s : Scene Number) (t : Turtle Number) (x1 y1 x2 y2 : Number) :
    (s.stroke t x1 y1 x2 y2).turtles = s.turtles ∧ (s.stroke t x1 y1 x2 y2).view = s.view
      ∧ (s.stroke t x1 y1 x2 y2).current = s.current := by
  rw [Scene.stroke]
  split <;> exact ⟨rfl, rfl, rfl⟩

/-- Half the visible area is given by halves. -/
theorem upholds_halfExtents :
    Upholds good halfExtents fun p => p.1.IsHalf ∧ p.2.IsHalf := by
  refine .get_bind fun c hc => .compute fun p hp => ?_
  rw [hc.zoom] at hp
  change (Number.div (.int c.surface.width) (.int 2) >>= fun x =>
    Number.div (.int c.surface.height) (.int 2) >>= fun y => Except.ok (x, y)) = .ok p at hp
  obtain ⟨x, hx, hp⟩ := Except.bind_eq_ok hp
  obtain ⟨y, hy, hp⟩ := Except.bind_eq_ok hp
  cases hp
  exact ⟨Number.isHalf_div hc.surface.width hx, Number.isHalf_div hc.surface.height hy⟩

/-- A walk in hops only draws. -/
theorem upholds_walk (t : Turtle Number) (hopX hopY halfWidth halfHeight : Number) (steps : Nat)
    (x y : Number) :
    Upholds good (walk t hopX hopY halfWidth halfHeight steps x y) fun _ => True := by
  induction steps generalizing x y with
  | zero => exact .pure trivial
  | succ steps ih =>
      refine .bind (.compute fun _ _ => trivial) fun nx _ => ?_
      refine .bind (.compute fun _ _ => trivial) fun ny _ => ?_
      refine .bind (.change (fun s => (stroke_turtles s t x y nx ny).1)
        fun s => congrArg _ (stroke_turtles s t x y nx ny).2.1) fun _ _ => ?_
      refine .bind (.compute fun _ _ => trivial) fun wx _ => ?_
      exact .bind (.compute fun _ _ => trivial) fun wy _ => ih wx wy

section

variable (G : Guards ok good)
include G

/-- A move on the wrapped canvas keeps it safe. -/
theorem upholds_wrapTo (t : Turtle Number) (x y : Number) :
    Upholds good (wrapTo t x y) fun _ => True := by
  refine .bind upholds_halfExtents fun half hhalf => ?_
  refine .bind (.compute fun _ => id) fun dx hdx => ?_
  refine .bind (.compute fun _ => id) fun dy hdy => ?_
  refine .bind (.compute fun _ => id) fun steps hsteps => ?_
  refine .bind (.compute fun _ _ => trivial) fun hopX _ => ?_
  refine .bind (.compute fun _ _ => trivial) fun hopY _ => ?_
  refine .bind (upholds_walk t _ _ _ _ _ _ _) fun _ _ => ?_
  refine .bind (.compute fun _ => id) fun wx hwx => ?_
  refine .bind (.compute fun _ => id) fun wy hwy => ?_
  refine fun c hc => ⟨hc.mapTurtle fun _ _ t' ht' => ?_, fun _ _ _ => trivial⟩
  exact G.wrapped ⟨dx, dy, steps, half.1, half.2, hdx, hdy, hsteps, hhalf.1, hhalf.2, hwx, hwy⟩ ht'

end

/-! ## Careful actions -/

namespace Careful

variable {kept : EdgeMode → Turtle Number → Bool}

/-- What keeps a canvas safe anyway is careful. -/
theorem of_upholds {act : CanvasM Number β} {Q : β → Prop} (h : Upholds good act Q) :
    Careful good kept act := fun c hc _ => (h c hc).1

/-- What goes on with a good turtle may use that it is good. -/
theorem turtle_bind {k : Turtle Number → CanvasM Number β}
    (hk : ∀ t, good t → Careful good kept (k t)) : Careful good kept (turtle >>= k) := by
  intro c hc hkept
  cases ht : c.scene.turtle? with
  | some t =>
      rw [bind_of_ok (turtle_of_some ht)] at hkept ⊢
      exact hk t (hc.turtle ht) c hc hkept
  | none =>
      rw [bind_of_error (turtle_of_none ht)]
      exact hc

/-- What goes on with a result may use that it is the result. -/
theorem compute_bind {r : Except ArithmeticFault β} {k : β → CanvasM Number γ}
    (hk : ∀ b, r = .ok b → Careful good kept (k b)) : Careful good kept (compute r >>= k) := by
  cases r with
  | ok b => exact hk b rfl
  | error f => exact fun c hc _ => hc

/-- Going on after a look at the scene, whose mode is the one that counts. -/
theorem scene_bind {k : Scene Number → CanvasM Number β}
    (hk : ∀ s, Careful good (fun _ => kept s.mode) (k s)) : Careful good kept (scene? >>= k) :=
  fun c hc hkept => hk c.scene c hc hkept

/-- A choice is careful if both sides are. -/
theorem ite {b : Prop} [Decidable b] {m n : CanvasM Number β} (hm : Careful good kept m)
    (hn : Careful good kept n) : Careful good kept (if b then m else n) := by
  by_cases h : b
  · rw [if_pos h]
    exact hm
  · rw [if_neg h]
    exact hn

/-- Something that has nothing to do with turtles may come first. -/
theorem change_bind {g : Scene Number → Scene Number} (hturtles : ∀ s, (g s).turtles = s.turtles)
    (hview : ∀ s, (g s).view = s.view) (hmode : ∀ s, (g s).mode = s.mode)
    {k : Unit → CanvasM Number β} (hk : Careful good kept (k ())) :
    Careful good kept (change g >>= k) := by
  intro c hc hkept
  rw [bind_of_ok (change_eq g c)] at hkept ⊢
  have hsafe := (Upholds.change hturtles (fun s => congrArg _ (hview s)) c hc).1
  refine hk ⟨g c.scene, c.surface⟩ hsafe ?_
  dsimp only
  rw [hmode]
  exact hkept

/-- In the end the scene is marked as out of date. -/
theorem touched {act : CanvasM Number Unit} (h : Careful good kept act) :
    Careful good kept (act >>= fun _ => change (·.touch)) := by
  intro c hc hkept
  have hend := h c hc
  cases hact : act c with
  | ok _ d =>
      rw [hact] at hend
      rw [bind_of_ok hact] at hkept ⊢
      exact (upholds_touch d (hend hkept)).1
  | error f d =>
      rw [hact] at hend
      rw [bind_of_error hact] at hkept ⊢
      exact hend hkept

/-- Where nothing is checked, all is kept. -/
theorem upholds {act : CanvasM Number Unit} (h : Careful good (fun _ _ => true) act) :
    Upholds good act fun _ => True := by
  refine fun c hc => ⟨h c hc ?_, fun _ _ _ => trivial⟩
  cases (endOf (act c)).scene.turtle? <;> rfl

/-- A careful action that is checked keeps the canvas safe. -/
theorem checked {act : CanvasM Number Unit} (h : Careful good kept act) {c : Canvas Number}
    (hc : c.Safe good) : (endOf (checked kept act c)).Safe good := by
  rw [Canvas.checked]
  split
  · rename_i hkept
    exact h c hc hkept
  · exact hc

end Careful

/-- The end of an arc, when the turtle is there already: it turns. -/
def turnInto (turned : Except ArithmeticFault Number) : CanvasM Number Unit := do
  let angle ← compute turned
  let h ← compute (normalizeHeading angle)
  change fun s => (s.mapTurtle fun t => { t with heading := h }).touch

/-- A straight move keeps a canvas safe if every good turtle may be at its end. -/
theorem safe_lineTo {c : Canvas Number} (hc : c.Safe good) (t : Turtle Number) {x y : Number}
    (hplace : ∀ t', c.scene.turtle? = some t' →
      ∀ t'', good t'' → good { t'' with x := x, y := y }) :
    (endOf (lineTo t x y c)).Safe good := by
  obtain ⟨hturtles, hview, hcurrent⟩ := stroke_turtles c.scene t t.x t.y x y
  have hsafe : Safe good ⟨c.scene.stroke t t.x t.y x y, c.surface⟩ :=
    ⟨by rw [hturtles]; exact hc.turtles, by rw [hview]; exact hc.zoom, hc.surface⟩
  refine hsafe.mapTurtle fun t' ht' => hplace t' ?_
  rw [← ht', Scene.turtle?, Scene.turtle?]
  dsimp only
  rw [hturtles, hcurrent]

/-- A straight move brings the current turtle to its end. -/
theorem turtle?_lineTo (c : Canvas Number) (t : Turtle Number) (x y : Number) :
    (endOf (lineTo t x y c)).scene.turtle?
      = c.scene.turtle?.map fun t' => { t' with x := x, y := y } := by
  obtain ⟨hturtles, -, hcurrent⟩ := stroke_turtles c.scene t t.x t.y x y
  show ((c.scene.stroke t t.x t.y x y).place x y).turtle? = _
  rw [Scene.place, turtle?_mapTurtle, Scene.turtle?, Scene.turtle?, hturtles, hcurrent]

section

variable (G : Guards ok good)
include G

/-- A move is careful if the end of a straight one is checked. -/
theorem careful_moveTo (x y : Number) {kept : EdgeMode → Turtle Number → Bool}
    (hkept : ∀ t : Turtle Number, kept .window { t with x := x, y := y } = true →
      ok x = true ∧ ok y = true) : Careful good kept (moveTo x y) := by
  refine .turtle_bind fun t _ => .scene_bind fun s => ?_
  dsimp only
  split
  · exact .of_upholds (.bind (upholds_wrapTo G t x y) fun _ _ => upholds_touch)
  · -- the edge that stops the turtle is finite
    refine .of_upholds (.bind (S := fun _ => True) upholds_halfExtents fun half hhalf => ?_)
    refine .bind (Q := fun _ => True) (fun c hc => ⟨safe_lineTo hc t fun _ _ _ ht' => ?_,
      fun _ _ _ => trivial⟩) fun _ _ => upholds_touch
    exact G.clamped x y hhalf.1 hhalf.2 ht'
  · rename_i hmode
    refine Careful.touched fun c hc hend => safe_lineTo hc t fun t' ht' _ ht'' => ?_
    rw [turtle?_lineTo, ht', hmode] at hend
    obtain ⟨hx, hy⟩ := hkept t' hend
    exact G.placed hx hy ht''

/-- A turn is careful if its end is checked. -/
theorem careful_setHeading (angle : Number) {kept : EdgeMode → Turtle Number → Bool}
    (hkept : ∀ mode (t : Turtle Number) h, normalizeHeading angle = .ok h →
      kept mode { t with heading := h } = true → ok h = true) :
    Careful good kept (setHeading angle) := by
  refine .compute_bind fun h hh => .touched fun c hc hend => ?_
  cases ht : c.scene.turtle? with
  | none =>
      rw [changeTurtle, bind_of_error (turtle_of_none ht)]
      exact hc
  | some t =>
      rw [changeTurtle, bind_of_ok (turtle_of_some ht)] at hend ⊢
      change ((c.scene.mapTurtle fun t => { t with heading := h }).turtle?.all _) = true at hend
      rw [turtle?_mapTurtle, ht] at hend
      exact hc.mapTurtle fun _ _ _ ht' => G.turned hh (hkept _ t h hh hend) ht'

/-- Going forward is careful. -/
theorem careful_forward (distance : Number) :
    Careful good (keptMoving ok) (forward distance) :=
  .turtle_bind fun _ _ => .compute_bind fun _ _ => careful_moveTo G _ _ fun _ => and_of_kept

theorem careful_setX (x : Number) : Careful good (keptMoving ok) (setX x) :=
  .turtle_bind fun _ _ => careful_moveTo G _ _ fun _ => and_of_kept

theorem careful_setY (y : Number) : Careful good (keptMoving ok) (setY y) :=
  .turtle_bind fun _ _ => careful_moveTo G _ _ fun _ => and_of_kept

theorem careful_left (angle : Number) : Careful good (keptTurning ok) (left angle) :=
  .turtle_bind fun _ _ => .compute_bind fun _ _ => careful_setHeading G _ fun _ _ _ _ h => h

theorem careful_right (angle : Number) : Careful good (keptTurning ok) (right angle) :=
  .turtle_bind fun _ _ => .compute_bind fun _ _ => careful_setHeading G _ fun _ _ _ _ h => h

/-- The way home needs no check. -/
theorem upholds_home : Upholds good home fun _ => True := by
  refine .bind (careful_moveTo G _ _ fun _ _ => ⟨G.home, G.home⟩).upholds fun _ _ => ?_
  refine (careful_setHeading G _ fun _ _ h hh _ => ?_).upholds
  cases hh
  exact G.home

omit G in
/-- The end of an arc turns the turtle to a heading in normal form, or leaves the
    canvas. -/
theorem endOf_turnInto (turned : Except ArithmeticFault Number) (c : Canvas Number) :
    endOf (turnInto turned c) = c ∨ ∃ angle h, normalizeHeading angle = .ok h
      ∧ endOf (turnInto turned c)
        = ⟨(c.scene.mapTurtle fun t => { t with heading := h }).touch, c.surface⟩ := by
  cases turned with
  | error f => exact .inl rfl
  | ok angle =>
      have hstart : (compute (.ok angle) : CanvasM Number Number) c = .ok angle c := rfl
      rw [turnInto, bind_of_ok hstart]
      cases hh : normalizeHeading angle with
      | error f => exact .inl rfl
      | ok h => exact .inr ⟨angle, h, hh, rfl⟩

/-- Going to the end of an arc is careful. -/
theorem careful_endArc (t : Turtle Number) (cx cy radius ex ey sweep : Number) :
    Careful good (keptArcing ok) (endArc t cx cy radius ex ey sweep) := by
  refine .compute_bind fun rx _ => .compute_bind fun x _ => .compute_bind fun ry _ => ?_
  refine .compute_bind fun y _ c hc hkept => ?_
  rw [bind_of_ok (change_eq (·.place x y) c)] at hkept ⊢
  have hplaced : (∀ t', c.scene.turtle? = some t' → ok x = true ∧ ok y = true) →
      Safe good ⟨c.scene.place x y, c.surface⟩ := fun hxy =>
    hc.mapTurtle fun t' ht' _ ht'' => G.placed (hxy t' ht').1 (hxy t' ht').2 ht''
  change (endOf (turnInto (Scalar.add t.heading sweep) ⟨c.scene.place x y, c.surface⟩)).scene.turtle?.all
    _ = true at hkept
  show Safe good (endOf (turnInto (Scalar.add t.heading sweep) ⟨c.scene.place x y, c.surface⟩))
  rcases endOf_turnInto (Scalar.add t.heading sweep) ⟨c.scene.place x y, c.surface⟩ with
    hend | ⟨angle, h, hh, hend⟩
  · rw [hend] at hkept ⊢
    refine hplaced fun t' ht' => ?_
    rw [Scene.place, turtle?_mapTurtle, ht'] at hkept
    change (ok x && ok y && ok t'.heading) = true at hkept
    simp only [Bool.and_eq_true] at hkept
    exact hkept.1
  · rw [hend] at hkept ⊢
    have hall : ∀ t', c.scene.turtle? = some t' → (ok x = true ∧ ok y = true) ∧ ok h = true := by
      intro t' ht'
      dsimp only at hkept
      rw [turtle?_touch, turtle?_mapTurtle, Scene.place, turtle?_mapTurtle, ht'] at hkept
      change (ok x && ok y && ok h) = true at hkept
      simpa only [Bool.and_eq_true] using hkept
    have hturned : Safe good
        ⟨(c.scene.place x y).mapTurtle fun t => { t with heading := h }, c.surface⟩ := by
      refine (hplaced fun t' ht' => (hall t' ht').1).mapTurtle fun t' ht' _ ht'' => ?_
      rw [Scene.place, turtle?_mapTurtle, Option.map_eq_some_iff] at ht'
      obtain ⟨t₀, ht₀, -⟩ := ht'
      exact G.turned hh (hall t₀ ht₀).2 ht''
    exact (upholds_touch _ hturned).1

/-- Going along an arc is careful. -/
theorem careful_arc (angle radius : Number) : Careful good (keptArcing ok) (arc angle radius) := by
  refine .turtle_bind fun t _ => .compute_bind fun side _ => .compute_bind fun centre _ => ?_
  refine .compute_bind fun start _ => .compute_bind fun sweep _ => ?_
  refine .compute_bind fun last _ => .compute_bind fun unit _ => ?_
  dsimp only
  refine .ite (.compute_bind fun first _ => ?_) (careful_endArc G _ _ _ _ _ _ _)
  refine .change_bind (fun _ => ?_) (fun _ => ?_) (fun _ => ?_) ?_
  · rfl
  · rfl
  · rfl
  · exact careful_endArc G _ _ _ _ _ _ _

end

/-! ## What commands do besides -/

/-- A circle leaves the turtles as they are. -/
theorem upholds_circle (radius : Number) : Upholds good (circle radius) fun _ => True := by
  refine .bind upholds_turtle fun t _ => .change (fun s => ?_) fun s => ?_
  · split <;> rfl
  · split <;> rfl

/-- A turtle that is chosen is new, or was good before. -/
theorem upholds_tell (hnew : good .new) (who : Value) : Upholds good (tell who) fun _ => True := by
  refine fun c hc => ⟨?_, fun _ _ _ => trivial⟩
  cases hlist : (nameOf who).isList with
  | true =>
      rw [tell_of_list hlist]
      exact hc
  | false =>
      rw [tell_of_name hlist]
      refine ⟨fun p hp => ?_, hc.zoom, hc.surface⟩
      change p ∈ (if c.scene.hasTurtle (nameOf who) then c.scene.turtles
        else c.scene.turtles ++ [(nameOf who, Turtle.new)]) at hp
      obtain hold | rfl := Scene.mem_tell hp
      · exact hc.turtles p hold
      · exact hnew

theorem upholds_beginFill : Upholds good beginFill fun _ => True :=
  .bind upholds_turtle fun _ _ => .change (fun _ => rfl) fun _ => rfl

/-- Ending a fill upholds a quality of turtles. -/
theorem upholds_endFill : Upholds good endFill fun _ => True := by
  refine .change (fun s => ?_) fun s => ?_
  · rw [Scene.endFill]
    split <;> rfl
  · rw [Scene.endFill]
    split <;> rfl

theorem upholds_cancelFill : Upholds good cancelFill fun _ => True :=
  .change (fun _ => rfl) fun _ => rfl

/-- Neither the centre of a view nor a replay has to do with turtles. -/
theorem upholds_redraw : Upholds good redraw fun _ => True := by
  refine .bind (.change (fun _ => rfl) fun _ => rfl) fun _ _ => ?_
  have hview : ∀ {f : View Number → Except ArithmeticFault (View Number)},
      (∀ v v', f v = .ok v' → v'.zoom = v.zoom) → Upholds good (changeView f) fun _ => True := by
    intro f hf
    refine .get_bind fun c hc => .bind (.compute fun _ => id) fun v hv d hd => ?_
    exact ⟨⟨hd.turtles, (hf _ _ hv).trans hc.zoom, hd.surface⟩, fun _ _ _ => trivial⟩
  refine .bind (Q := fun _ => True) (.get_bind fun c _ => .bind (hview fun v v' hv => ?_)
    fun _ _ => hview fun v v' hv => ?_) fun _ _ => ?_
  · obtain ⟨cx, -, hv⟩ := Except.bind_eq_ok hv
    cases hv
    rfl
  · obtain ⟨cy, -, hv⟩ := Except.bind_eq_ok hv
    cases hv
    rfl
  · refine .get_bind fun c _ d hd => ⟨?_, fun _ _ _ => trivial⟩
    rw [endOf_onSurface]
    have hsize := Surface.marks_replay c.scene d.surface
    exact ⟨hd.turtles, hd.zoom, hsize.width ▸ hd.surface.width, hsize.height ▸ hd.surface.height⟩

theorem upholds_setBackground (color : Text) : Upholds good (setBackground color) fun _ => True :=
  .bind (.change (fun _ => rfl) fun _ => rfl) fun _ _ => upholds_redraw

theorem upholds_clean : Upholds good clean fun _ => True :=
  .bind (.change (fun _ => rfl) fun _ => rfl) fun _ _ => upholds_redraw

theorem upholds_setMode (mode : EdgeMode) : Upholds good (setMode mode) fun _ => True :=
  .change (fun _ => rfl) fun _ => rfl

/-- Clearing the screen gives turtles like new ones. -/
theorem upholds_clearScreen (hnew : good .new) : Upholds good clearScreen fun _ => True := by
  refine .bind (Q := fun _ => True) (fun c hc => ⟨⟨fun p hp => ?_, hc.zoom, hc.surface⟩,
    fun _ _ _ => trivial⟩) fun _ _ => upholds_redraw
  obtain ⟨q, -, rfl⟩ := List.mem_map.1 hp
  exact hnew

/-- Starting over leaves a new turtle alone. -/
theorem upholds_reset (hnew : good .new) : Upholds good reset fun _ => True := by
  refine .bind (Q := fun _ => True) (fun c hc => ⟨⟨fun p hp => ?_, rfl, hc.surface⟩,
    fun _ _ _ => trivial⟩) fun _ _ => upholds_redraw
  rw [List.mem_singleton.1 hp]
  exact hnew

/-- Bringing the surface up to date leaves the turtles as they are. -/
theorem upholds_present : Upholds good present fun _ => True := by
  refine .bind (Q := fun _ => True) (.get_bind fun c _ => .pure trivial) fun s _ => ?_
  split
  · exact upholds_redraw
  · exact .pure trivial

/-- A turtle looks different at the same place and facing the same way. -/
theorem upholds_dress (G : Guards ok good) {f : Turtle Number → Turtle Number}
    (hf : ∀ t, (f t).x = t.x ∧ (f t).y = t.y ∧ (f t).heading = t.heading) :
    Upholds good (changeTurtle f) fun _ => True :=
  upholds_changeTurtle fun t =>
    G.look (.inl (hf t).1) (.inl (hf t).2.1) (.inl (hf t).2.2)

/-- A new pen makes no turtle less good. -/
theorem upholds_changePen (G : Guards ok good) (f : Pen Number → Pen Number) :
    Upholds good (changePen f) fun _ => True :=
  upholds_dress G fun _ => ⟨rfl, rfl, rfl⟩

/-- Hiding or showing a turtle upholds a quality of turtles. -/
theorem upholds_setVisible (G : Guards ok good) (visible : Bool) :
    Upholds good (setVisible visible) fun _ => True :=
  .bind (upholds_dress G fun _ => ⟨rfl, rfl, rfl⟩) fun _ _ => upholds_touch

/-- A new canvas is safe. -/
theorem safe_new (hnew : good .new) {surface : Surface Number} (hsurface : surface.Ordinary)
    {c : Canvas Number} (h : Canvas.new surface = .ok c) : c.Safe good := by
  obtain ⟨view, -, hreset⟩ := reset_of_new h
  have hstart : Safe good ⟨Scene.new view, surface⟩ := by
    refine ⟨fun p hp => ?_, rfl, hsurface⟩
    rw [List.mem_singleton.1 hp]
    exact hnew
  have hend := (upholds_reset hnew _ hstart).1
  rw [hreset] at hend
  exact hend

end Canvas

/-! ## Two qualities of turtles -/

/-- A turtle whose heading is in normal form or undefined. -/
def Turtle.Upright (t : Turtle Number) : Prop :=
  t.heading.IsHeading ∨ ∃ k, t.heading = .real (.nan k)

/-- A turtle at a finite place whose heading is in normal form. -/
structure Turtle.Sound (t : Turtle Number) : Prop where
  x : t.x.isFinite = true
  y : t.y.isFinite = true
  heading : t.heading.IsHeading

theorem Number.isHeading_zero : IsHeading (.int 0) := ⟨rfl, rfl, rfl⟩

/-- A finite number has no mark. -/
theorem Number.Remarked.eq {n m : Number} (h : n.Remarked m) (hn : n.isFinite = true) : m = n := by
  rcases h with rfl | ⟨j, k, rfl, -⟩
  · rfl
  · cases hn

/-- Without a check headings are in normal form or undefined. -/
theorem guards_upright : Guards (fun _ => true) Turtle.Upright where
  new := .inl Number.isHeading_zero
  home := rfl
  look _ _ h ht := by
    rcases ht with ht | ⟨j, hj⟩
    · exact .inl (h.eq ht.finite ▸ ht)
    · rcases h with h | ⟨-, k, -, hk⟩
      · exact .inr ⟨j, h.trans hj⟩
      · exact .inr ⟨k, hk⟩
  wrapped _ ht := ht
  clamped _ _ _ _ ht := ht
  placed _ _ ht := ht
  turned hh _ _ := (upright_or_undefined hh).imp id fun h => ⟨0, h⟩

/-- If the numbers that are checked are finite, all are, and headings are in normal
    form. -/
theorem guards_sound : Guards Number.isFinite Turtle.Sound where
  new := ⟨rfl, rfl, Number.isHeading_zero⟩
  home := rfl
  look hx hy hh ht := by
    have hx := hx.eq ht.x
    have hy := hy.eq ht.y
    have hh := hh.eq ht.heading.finite
    exact ⟨hx ▸ ht.x, hy ▸ ht.y, hh ▸ ht.heading⟩
  wrapped := by
    rintro t t' x y wx wy ⟨dx, dy, steps, halfWidth, halfHeight, hdx, hdy, hsteps, hwide, hhigh,
      hwx, hwy⟩ ht'
    obtain ⟨hx, hy⟩ := Canvas.isFinite_of_hopCount hsteps
    exact ⟨isFinite_wrapCoordinate (Number.isFinite_of_sub hdx hx) hwide hwx,
      isFinite_wrapCoordinate (Number.isFinite_of_sub hdy hy) hhigh hwy, ht'.heading⟩
  clamped x y hwide hhigh ht :=
    ⟨isFinite_clampCoordinate x hwide.finite, isFinite_clampCoordinate y hhigh.finite, ht.heading⟩
  placed hx hy ht := ⟨hx, hy, ht.heading⟩
  turned hh hok ht := by
    refine ⟨ht.x, ht.y, (upright_or_undefined hh).resolve_right ?_⟩
    rintro rfl
    cases hok

end TurtleLogo
