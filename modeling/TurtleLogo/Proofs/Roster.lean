import TurtleLogo.Proofs.Equality
import TurtleLogo.Proofs.Underway

/-! # The roster of turtles

    A turtle that has once been named stays on the roster, under the name it was
    given first: whatever a statement does, and however it ends, it can only put
    new names at the end.

    * Being the name of one turtle is symmetric (`Value.sameKey_comm`) and
      transitive (`Value.sameKey_trans`);
    * `Scene.Orderly` says what is in order about the turtles of a scene;
    * `Canvas.Enlists` says of two canvases that the names of the one begin those
      of the other, and that order is kept, as all does that is done with turtles
      (`ofTurtles_enlists`);
    * that is a conduct to which all programs keep, whoever is at the window;
    * so a session is in order after any statements and calls
      (`turtles_orderly`). -/

namespace TurtleLogo

/-! ## Names of one turtle -/

namespace Value

/-- If a value names the turtle of another, the other names its turtle. -/
theorem sameKey_comm (a b : Value) : a.sameKey b = b.sameKey a := by
  rw [sameKey, sameKey]
  cases a.keyNumber? with
  | none =>
      cases b.keyNumber? with
      | none => exact same_comm a b
      | some y => rfl
  | some x =>
      cases b.keyNumber? with
      | none => rfl
      | some y =>
          show (x.eq y || x == y) = (y.eq x || y == x)
          rw [Number.eq_comm x y, BEq.comm]

/-- The turtle that a value names is the one that any other name of it does. -/
theorem sameKey_trans {a b c : Value} (hab : a.sameKey b = true) (hbc : b.sameKey c = true) :
    a.sameKey c = true := by
  rw [sameKey] at hab hbc ⊢
  cases ha : a.keyNumber? with
  | none =>
      rw [ha] at hab
      cases hb : b.keyNumber? with
      | some y => rw [hb] at hab; cases hab
      | none =>
          rw [hb] at hab hbc
          cases hc : c.keyNumber? with
          | some z => rw [hc] at hbc; cases hbc
          | none =>
              rw [hc] at hbc
              exact same_trans hab hbc
  | some x =>
      rw [ha] at hab
      cases hb : b.keyNumber? with
      | none => rw [hb] at hab; cases hab
      | some y =>
          rw [hb] at hab hbc
          cases hc : c.keyNumber? with
          | none => rw [hc] at hbc; cases hbc
          | some z =>
              rw [hc] at hbc
              rcases Bool.or_eq_true_iff.1 hab with hxy | hxy
              · rcases Bool.or_eq_true_iff.1 hbc with hyz | hyz
                · exact Bool.or_eq_true_iff.2 (.inl (Number.eq_trans hxy hyz))
                · exact Bool.or_eq_true_iff.2 (.inl (eq_of_beq hyz ▸ hxy))
              · rw [eq_of_beq hxy]
                exact hbc

end Value

/-! ## Turtles in order -/

namespace Scene

/-- The turtles of a scene are in order. -/
structure Orderly (s : Scene Number) : Prop where
  /-- The first turtle is called zero. -/
  first : s.ids.head? = some (.ofInt 0)
  /-- No two names are those of one turtle. -/
  distinct : s.ids.Pairwise fun a b => a.sameKey b = false ∧ b.sameKey a = false
  /-- The current turtle is found among the turtles. -/
  current : ∃ t, s.turtle? = some t
  width : ∀ p ∈ s.turtles, Number.le (.int 1) p.2.pen.width = true
  pen : ∀ p ∈ s.turtles, p.2.pen.mode.name ∈ ["paint", "erase"]
  edge : s.mode.name ∈ ["wrap", "window", "fence"]

variable {s t : Scene Number}

/-- A pen paints or erases. -/
theorem penMode_mem (m : PenMode) : m.name ∈ ["paint", "erase"] := by
  cases m <;> decide

/-- The edge wraps, opens or stops. -/
theorem edgeMode_mem (m : EdgeMode) : m.name ∈ ["wrap", "window", "fence"] := by
  cases m <;> decide

/-- Turtles stay in order as long as they keep their names and their pens stay
    broad enough. -/
theorem Orderly.of_ids (h : s.Orderly) (hids : t.ids = s.ids) (hcurrent : t.current = s.current)
    (hwidth : ∀ p ∈ t.turtles, p.2.Broad) : t.Orderly where
  first := by rw [hids]; exact h.first
  distinct := by rw [hids]; exact h.distinct
  current := by
    rw [exists_turtle_iff, hids, hcurrent]
    exact exists_turtle_iff.1 h.current
  width := hwidth
  pen p _ := penMode_mem p.2.pen.mode
  edge := edgeMode_mem t.mode

/-- A new turtle is put at the end, and only if none of the names is its name. -/
theorem Orderly.tell (h : s.Orderly) {id : Value} (hname : id.isList = false) :
    Orderly { s with
      turtles := if s.hasTurtle id then s.turtles else s.turtles ++ [(id, Turtle.new)]
      current := id, dirty := true } := by
  have hcurrent := s.exists_turtle_tell hname
  by_cases hold : s.hasTurtle id = true
  · rw [if_pos hold] at hcurrent ⊢
    exact ⟨h.first, h.distinct, hcurrent, h.width, h.pen, edgeMode_mem _⟩
  · rw [if_neg hold] at hcurrent ⊢
    have hids : (s.turtles ++ [(id, (Turtle.new : Turtle Number))]).map (·.1) = s.ids ++ [id] := by
      rw [List.map_append]
      rfl
    have hnew : ∀ a ∈ s.ids, a.sameKey id = false := by
      intro a ha
      obtain ⟨p, hp, rfl⟩ := List.mem_map.1 ha
      rw [hasTurtle, List.any_eq_true] at hold
      exact Bool.eq_false_iff.2 fun hkey => hold ⟨p, hp, hkey⟩
    constructor
    · rw [ids, hids, List.head?_append, h.first]
      rfl
    · rw [ids, hids, List.pairwise_append]
      refine ⟨h.distinct, List.pairwise_singleton _ _, ?_⟩
      intro a ha b hb
      rw [List.mem_singleton.1 hb, Value.sameKey_comm id a]
      exact ⟨hnew a ha, hnew a ha⟩
    · exact hcurrent
    · intro p hp
      rcases List.mem_append.1 hp with hp | hp
      · exact h.width p hp
      · rw [List.mem_singleton.1 hp]
        rfl
    · exact fun p _ => penMode_mem p.2.pen.mode
    · exact edgeMode_mem _

/-- There is one turtle at first, and it is current. -/
theorem orderly_new (v : View Number) : (new v).Orderly := by
  refine ⟨rfl, List.pairwise_singleton _ _, ⟨Turtle.new, rfl⟩, ?_, ?_, edgeMode_mem _⟩
  · intro p hp
    rw [List.mem_singleton.1 hp]
    rfl
  · exact fun p _ => penMode_mem p.2.pen.mode

end Scene

/-! ## The roster of a canvas -/

namespace Canvas

/-- New names may have been put at the end of the roster, and what was in order
    still is. -/
structure Enlists (c d : Canvas Number) : Prop where
  names : c.scene.ids <+: d.scene.ids
  orderly : c.scene.Orderly → d.scene.Orderly

theorem Enlists.refl (c : Canvas Number) : c.Enlists c := ⟨List.prefix_refl _, id⟩

theorem Enlists.trans {c d e : Canvas Number} (h : c.Enlists d) (h' : d.Enlists e) :
    c.Enlists e :=
  ⟨h.names.trans h'.names, fun hc => h'.orderly (h.orderly hc)⟩

/-- A change of what the turtles are, but not of who they are. -/
theorem enlists_of_ids {c d : Canvas Number} (hids : d.scene.ids = c.scene.ids)
    (hcurrent : d.scene.current = c.scene.current)
    (hwidth : (∀ p ∈ c.scene.turtles, p.2.Broad) → ∀ p ∈ d.scene.turtles, p.2.Broad) :
    c.Enlists d :=
  ⟨hids ▸ List.prefix_refl c.scene.ids, fun h => h.of_ids hids hcurrent (hwidth h.width)⟩

/-- A change that leaves the turtles alone. -/
theorem enlists_of_turtles {c d : Canvas Number} (hturtles : d.scene.turtles = c.scene.turtles)
    (hcurrent : d.scene.current = c.scene.current) : c.Enlists d := by
  refine enlists_of_ids ?_ hcurrent ?_
  · rw [Scene.ids, hturtles, Scene.ids]
  · rw [hturtles]
    exact id

/-- A change of the current turtle leaves the names. -/
theorem enlists_mapTurtle (s : Scene Number) (u : Surface Number)
    {f : Turtle Number → Turtle Number} (hf : ∀ t, t.Broad → (f t).Broad) :
    Enlists ⟨s, u⟩ ⟨s.mapTurtle f, u⟩ := by
  refine enlists_of_ids (s.ids_mapTurtle f) rfl ?_
  intro hwidth q hq
  obtain ⟨p, hp, rfl⟩ := List.mem_map.1 hq
  by_cases hkey : p.1.sameKey s.current = true
  · simp only [if_pos hkey]
    exact hf p.2 (hwidth p hp)
  · simp only [if_neg hkey]
    exact hwidth p hp

/-- Speaking to a turtle puts its name at the end if it is new. -/
theorem enlists_tell (s : Scene Number) (u : Surface Number) {id : Value}
    (hname : id.isList = false) : Enlists ⟨s, u⟩ ⟨{ s with
      turtles := if s.hasTurtle id then s.turtles else s.turtles ++ [(id, Turtle.new)]
      current := id, dirty := true }, u⟩ := by
  refine ⟨?_, fun h => h.tell hname⟩
  have hturtles : s.turtles
      <+: if s.hasTurtle id then s.turtles else s.turtles ++ [(id, Turtle.new)] := by
    split
    · exact List.prefix_refl _
    · exact List.prefix_append _ _
  exact hturtles.map Prod.fst

/-- Visibility has nothing to do with names. -/
theorem names_of_unseen {ts us : List (Value × Turtle Number)} (h : unseen ts = unseen us) :
    ts.map (·.1) = us.map (·.1) := by
  have hnames : ∀ qs : List (Value × Turtle Number), (unseen qs).map (·.1) = qs.map (·.1) := by
    intro qs
    rw [unseen, List.map_map]
    rfl
  rw [← hnames ts, h, hnames]

/-- Turtles that differ in visibility only are the same turtles. -/
theorem enlists_visible (s : Scene Number) (u : Surface Number)
    {ts : List (Value × Turtle Number)} (h : unseen ts = unseen s.turtles) :
    Enlists ⟨s, u⟩ ⟨{ s with turtles := ts }, u⟩ := by
  refine enlists_of_ids (names_of_unseen h) rfl ?_
  intro hwidth q hq
  -- whoever is among the ones is, but for visibility, among the others
  have hmem : (q.1, { q.2 with visible := false }) ∈ unseen s.turtles := by
    rw [← h]
    exact List.mem_map_of_mem hq
  obtain ⟨p, hp, hpq⟩ := List.mem_map.1 hmem
  have hpen : p.2.pen = q.2.pen := congrArg (fun r => r.2.pen) hpq
  have hbroad := hwidth p hp
  rw [Turtle.Broad, hpen] at hbroad
  exact hbroad

/-- Sending the turtles home with new pens. -/
theorem enlists_clear (s : Scene Number) (u : Surface Number) : Enlists ⟨s, u⟩ ⟨s.clear, u⟩ := by
  refine enlists_of_ids s.ids_clear rfl ?_
  intro _ q hq
  obtain ⟨p, -, rfl⟩ := List.mem_map.1 hq
  rfl

/-- Nothing that is done with turtles takes one off the roster. -/
theorem ofTurtles_enlists : OfTurtles Enlists where
  same := enlists_of_turtles
  trans := .trans
  turtle s u _ hf := enlists_mapTurtle s u hf.broad
  tell s u _ hname := enlists_tell s u hname
  visible s u _ h := enlists_visible s u h
  clear := enlists_clear

/-- Starting over makes order. -/
theorem orderly_reset (c : Canvas Number) :
    (endOf ((reset : CanvasM Number Unit) c)).scene.Orderly :=
  (within_redraw ofTurtles_enlists.views.toSights ⟨Scene.new c.scene.view, c.surface⟩).orderly
    (Scene.orderly_new _)

/-- A new canvas is in order. -/
theorem orderly_of_new {surface : Surface Number} {c : Canvas Number}
    (h : Canvas.new surface = .ok c) : c.scene.Orderly := by
  obtain ⟨view, -, hreset⟩ := reset_of_new h
  have hend := orderly_reset ⟨Scene.new view, surface⟩
  rw [hreset] at hend
  exact hend

end Canvas

/-! ## The roster of a session -/

namespace Session

open Canvas (Enlists Within)

/-- The conduct of what takes no turtle off the roster and makes no disorder. -/
def enlisting : Conduct where
  applies _ := True
  leads w v := w.canvas.Enlists v.canvas
  trans := .trans
  applies_of _ _ := trivial
  still hcanvas _ _ := by
    rw [hcanvas]
    exact .refl _
  defines w _ _ := .refl w.canvas

/-- What happens on the canvas keeps the roster if its parts do. -/
theorem enlists_canvas {β : Type} {act : CanvasM Number β} (hact : Within Enlists act) :
    enlisting.Keeps (onCanvas act) :=
  Conduct.keeps_onCanvas Canvas.ofTurtles_enlists.views.toMoves (fun h _ => h) hact

/-- A single statement takes no turtle off the roster, under whatever limits. -/
theorem enlists_statement (limits : Limits) (ts : List Token) :
    enlisting.Keeps (statement (engine limits) limits.patience ts) :=
  Conduct.keeps_statementAt (Conduct.laws_ofTurtles Canvas.ofTurtles_enlists enlists_canvas)
    (fun h => enlists_canvas (Canvas.ofTurtles_enlists.within_acts h)) limits ts

/-- A call takes no turtle off the roster, unless it starts the drawing over. -/
theorem enlists_hostCall (limits : Limits) {c : HostCall} (hc : c ≠ .reset) :
    enlisting.Keeps (c.act limits) := by
  refine Conduct.hostCall_ofTurtles Canvas.ofTurtles_enlists enlists_canvas limits
    (absurd · hc) ?_
  rintro h rfl w -
  exact .refl w.canvas

/-- A call that starts the drawing over makes order. -/
theorem orderly_hostReset (limits : Limits) (w : World) :
    (endOf (HostCall.reset.act limits w)).canvas.scene.Orderly := by
  let start : World := { w with store := .empty, printed := #[] }
  show (endOf (onCanvas Canvas.reset start)).canvas.scene.Orderly
  rw [endOf_onCanvas_eq]
  have hmark := World.markTurtle_within Canvas.ofTurtles_enlists.views.toMoves
    { start with canvas := endOf (Canvas.reset start.canvas) }
  exact hmark.orderly (Canvas.orderly_reset start.canvas)

/-! ## All statements -/

/-- The worlds that single statements and calls lead to, one after another and
    however they end, from a new session on a surface. -/
inductive Attained (surface : Surface Number) : World → Prop where
  | new {pacer : Pacer} {host : Host} {w : World} (h : World.new surface pacer host = .ok w) :
      Attained surface w
  | statement {w : World} (h : Attained surface w) (limits : Limits) (ts : List Token) :
      Attained surface (endOf (Session.statement (engine limits) limits.patience ts w))
  | call {w : World} (h : Attained surface w) (limits : Limits) (c : HostCall) :
      Attained surface (endOf (c.act limits w))

/-- Every scene that statements and calls lead to is in order. -/
theorem Attained.orderly {surface : Surface Number} {w : World} (h : Attained surface w) :
    w.canvas.scene.Orderly := by
  induction h with
  | new hnew =>
      obtain ⟨c, hc, hw⟩ := Except.bind_eq_ok hnew
      cases hw
      exact Canvas.orderly_of_new hc
  | @statement w _ limits ts ih => exact (enlists_statement limits ts w trivial).orderly ih
  | @call w _ limits c ih =>
      by_cases hc : c = .reset
      · rw [hc]
        exact orderly_hostReset limits w
      · exact (enlists_hostCall limits hc w trivial).orderly ih

/-- Whatever statements have been run and however they ended, the turtles are in
    order, and one statement more leaves their names where they are. -/
theorem turtles_orderly {surface : Surface Number} {w : World} (h : Attained surface w)
    (limits : Limits) (ts : List Token) :
    w.canvas.scene.Orderly ∧ w.canvas.scene.ids
      <+: (endOf (statement (engine limits) limits.patience ts w)).canvas.scene.ids :=
  ⟨h.orderly, (enlists_statement limits ts w trivial).names⟩

/-- The same turtle under three names, and a turtle that is asked for what
    fails. -/
theorem turtles_orderly_spelled : ∃ w told asked, quietSession = .ok w
    ∧ told = endOf (HostCall.act ⟨40, 5⟩ (.run "TELL 1 TELL 1.0 TELL TRUE TELL \"a") w)
    ∧ asked = endOf (statement (engine ⟨40, 5⟩) 5 [.word "ASK", .number (.int 2), .openBracket,
        .word "FD", .quoted "x", .closeBracket] told)
    ∧ told.canvas.scene.Orderly ∧ told.canvas.scene.ids <+: asked.canvas.scene.ids
    ∧ asked.canvas.scene.ids.map (fun id => id.listing.toOption)
      = [some ("0" : Text), some ("1" : Text), some ("'a'" : Text), some ("2" : Text)] := by
  let tell : World → World := fun w =>
    endOf (HostCall.act ⟨40, 5⟩ (.run "TELL 1 TELL 1.0 TELL TRUE TELL \"a") w)
  let asking : List Token := [.word "ASK", .number (.int 2), .openBracket,
    .word "FD", .quoted "x", .closeBracket]
  let ask : World → World := fun w => endOf (statement (engine ⟨40, 5⟩) 5 asking w)
  obtain ⟨w, hnew, hnames⟩ := quietSession_of (P := fun w =>
    (ask (tell w)).canvas.scene.ids.map (fun id => id.listing.toOption)
      == [some ("0" : Text), some ("1" : Text), some ("'a'" : Text), some ("2" : Text)])
    (by decide +kernel)
  have hattained : Attained _ (tell w) := (Attained.new hnew).call ⟨40, 5⟩ _
  obtain ⟨horderly, hids⟩ := turtles_orderly hattained ⟨40, 5⟩ asking
  exact ⟨w, tell w, ask (tell w), hnew, rfl, rfl, horderly, hids, by simpa using hnames⟩

end Session

end TurtleLogo
