import TurtleLogo.Proofs.Conduct
import TurtleLogo.Proofs.Rest

/-! # Fills

    Whatever a turtle draws goes into the log and into every fill in progress,
    and a fill that ends is itself drawn, so that it becomes a part of the fills
    around it.

    * `Scene.Emits` traces what is drawn from one scene to another, with the
      fills that are opened and closed on the way;
    * along such a trace the log and each fill in progress grow by the same
      shapes (`Scene.Emits.drew`);
    * every program leaves such a trace if it does not empty the drawing
      (`emits_block`), whoever draws, at whatever depth, and however it ends;
    * so `FILLED` captures exactly what its block draws (`filled_captures`). -/

namespace TurtleLogo

section

variable {α : Type}

/-- A fill with more parts. -/
def FillBuffer.grow (b : FillBuffer α) (ps : List (Shape α)) : FillBuffer α :=
  { b with parts := b.parts ++ ps.toArray }

theorem FillBuffer.grow_nil (b : FillBuffer α) : b.grow [] = b := by
  simp [grow]

/-- Shapes that are added in two parts are added in a row. -/
theorem FillBuffer.grow_grow (b : FillBuffer α) (ps qs : List (Shape α)) :
    (b.grow ps).grow qs = b.grow (ps ++ qs) := by
  simp [grow]

namespace Scene

/-- The log and every fill in progress have got some more shapes, and nothing
    else has happened to them. -/
structure Drew (s : Scene α) (ps : List (Shape α)) (t : Scene α) : Prop where
  log : t.log.toList = s.log.toList ++ ps
  fills : t.fills = s.fills.map (·.grow ps)

theorem Drew.refl (s : Scene α) : s.Drew [] s := by
  refine ⟨by simp, ?_⟩
  simp [FillBuffer.grow_nil]

theorem Drew.trans {s t u : Scene α} {ps qs : List (Shape α)} (h : s.Drew ps t)
    (h' : t.Drew qs u) : s.Drew (ps ++ qs) u := by
  refine ⟨by rw [h'.log, h.log, List.append_assoc], ?_⟩
  rw [h'.fills, h.fills, List.map_map]
  exact List.map_congr_left fun b _ => b.grow_grow ps qs

/-- A shape that is drawn goes into the log and into every fill. -/
theorem drew_emit (s : Scene α) (p : Shape α) : s.Drew [p] (s.emit p) := by
  refine ⟨by simp [emit], ?_⟩
  simp [emit, FillBuffer.grow]

/-- The shapes that are drawn, in order, on the way from one scene to another. -/
inductive Emits : Scene α → List (Shape α) → Scene α → Prop
  | refl (s : Scene α) : Emits s [] s
  | emit {s t : Scene α} {ps : List (Shape α)} (h : Emits s ps t) (p : Shape α) :
      Emits s (ps ++ [p]) (t.emit p)
  /-- Something else changes than the log and the fills. -/
  | aside {s t u : Scene α} {ps : List (Shape α)} (h : Emits s ps t) (hlog : u.log = t.log)
      (hfills : u.fills = t.fills) : Emits s ps u
  /-- A fill is open for a while. -/
  | inFill {s t u : Scene α} {ps qs : List (Shape α)} (h : Emits s ps t) (x : Turtle α)
      (hopen : Emits (t.beginFill x) qs u) : Emits s (ps ++ qs) u.cancelFill

/-- What is drawn goes into the log and into every fill in progress. -/
theorem Emits.drew {s t : Scene α} {ps : List (Shape α)} (h : s.Emits ps t) : s.Drew ps t := by
  induction h with
  | refl s => exact .refl s
  | emit _ p ih => exact ih.trans (drew_emit _ p)
  | aside _ hlog hfills ih => exact ⟨hlog ▸ ih.log, hfills ▸ ih.fills⟩
  | @inFill s t u ps qs _ x _ ih ih' =>
      -- the fill that was opened is the innermost one, and is gone again
      refine ih.trans ⟨ih'.log, ?_⟩
      rw [cancelFill, ih'.fills]
      rfl

theorem Emits.trans {s t u : Scene α} {ps qs : List (Shape α)} (h : s.Emits ps t)
    (h' : t.Emits qs u) : s.Emits (ps ++ qs) u := by
  induction h' with
  | refl t => rw [List.append_nil]; exact h
  | emit _ p ih => rw [← List.append_assoc]; exact (ih h).emit p
  | aside _ hlog hfills ih => exact (ih h).aside hlog hfills
  | inFill _ x hopen ih _ => rw [← List.append_assoc]; exact (ih h).inFill x hopen

/-- The shape that a fill makes of what was drawn since it began. -/
theorem Emits.endFill {s u : Scene α} {x : Turtle α} {qs : List (Shape α)}
    (h : (s.beginFill x).Emits qs u) :
    s.Emits (qs ++ [.fill x.x x.y qs x.pen.color]) u.endFill := by
  have hclosed := (Emits.refl s).inFill x h
  have hend : u.endFill = u.cancelFill.emit (.fill x.x x.y qs x.pen.color) := by
    rw [Scene.endFill, cancelFill, h.drew.fills]
    simp [beginFill, FillBuffer.grow]
  rw [hend]
  exact hclosed.emit _

end Scene

end

/-! ## Drawing on a canvas -/

namespace Canvas

/-- Something is drawn, and no fill is opened or closed for good. -/
def Emitting (c d : Canvas Number) : Prop := ∃ ps, c.scene.Emits ps d.scene

/-- A change that leaves the log and the fills alone. -/
theorem emitting_of_same {c d : Canvas Number} (hlog : d.scene.log = c.scene.log)
    (hfills : d.scene.fills = c.scene.fills) : c.Emitting d :=
  ⟨[], (Scene.Emits.refl _).aside hlog hfills⟩

/-- A shape that is drawn is a trace. -/
theorem emitting_emit (s : Scene Number) (u : Surface Number) (p : Shape Number) :
    Emitting ⟨s, u⟩ ⟨s.emit p, u⟩ :=
  ⟨[p], (Scene.Emits.refl s).emit p⟩

/-- What turtles do is drawn. -/
theorem motions_emitting : Motions Emitting where
  refl c := emitting_of_same rfl rfl
  trans := by
    rintro c d e ⟨ps, hps⟩ ⟨qs, hqs⟩
    exact ⟨ps ++ qs, hps.trans hqs⟩
  turtle _ _ _ _ := emitting_of_same rfl rfl
  line s u _ _ _ _ _ := emitting_emit s u _
  circle s u _ _ _ _ := emitting_emit s u _
  arc s u _ _ _ _ _ _ _ _ _ _ _ _ := emitting_emit s u _
  touch _ _ := emitting_of_same rfl rfl
  tell _ _ _ _ := emitting_of_same rfl rfl
  mode _ _ _ := emitting_of_same rfl rfl

/-- Who only looks on draws nothing. -/
theorem views_emitting : Views Emitting where
  toMotions := motions_emitting
  view _ _ _ := emitting_of_same rfl rfl
  shown _ _ := emitting_of_same rfl rfl
  surface _ _ _ := emitting_of_same rfl rfl
  visible _ _ _ _ := emitting_of_same rfl rfl

end Canvas

namespace Session

open Canvas (Emitting Within)

/-! ## Drawing in a session -/

/-- The conduct of what draws and never empties the drawing. -/
def emitting : Conduct where
  applies _ := True
  leads w v := w.canvas.Emitting v.canvas
  trans := Canvas.motions_emitting.trans
  applies_of _ _ := trivial
  still hcanvas _ _ := Canvas.emitting_of_same (by rw [hcanvas]) (by rw [hcanvas])
  defines _ _ _ := Canvas.emitting_of_same rfl rfl

/-- Actions on the canvas. -/
theorem emits_canvas {β : Type} {act : CanvasM Number β} (hact : Within Emitting act) :
    emitting.Keeps (onCanvas act) :=
  Conduct.keeps_onCanvas Canvas.motions_emitting.toMoves (fun h _ => h) hact

/-! ## Fills in a session -/

/-- The world in which a fill has begun. -/
def begun (w : World) : World := endOf (onCanvas Canvas.beginFill w)

/-- Marks on turtles are not drawn. -/
theorem emits_onCanvas {β : Type} (act : CanvasM Number β) {s : Scene Number}
    {ps : List (Shape Number)} {w : World} (h : s.Emits ps (endOf (act w.canvas)).scene) :
    s.Emits ps (endOf (onCanvas act w)).canvas.scene := by
  rw [endOf_onCanvas_eq]
  obtain hmark | ⟨f, j, hmark, -⟩ := World.markTurtle_cases { w with canvas := endOf (act w.canvas) }
  · rw [hmark]
    exact h
  · rw [hmark]
    exact h.aside rfl rfl

/-- A fill begins with nothing drawn, where the current turtle is. -/
theorem begun_of_turtle {w : World} {t : Turtle Number} (ht : w.canvas.scene.turtle? = some t) :
    onCanvas Canvas.beginFill w = .ok () (begun w) ∧
      (w.canvas.scene.beginFill t).Emits [] (begun w).canvas.scene := by
  have hact : Canvas.beginFill w.canvas
      = .ok () { w.canvas with scene := w.canvas.scene.beginFill t } := by
    rw [Canvas.beginFill, bind_of_ok (Canvas.turtle_of_some ht)]
    rfl
  refine ⟨?_, emits_onCanvas Canvas.beginFill ?_⟩
  · simp only [begun, onCanvas, hact, endOf_ok]
  · rw [hact]
    exact .refl _

/-- The end of a fill, where something has been drawn since it began. -/
theorem emits_endFill {w v : World} {t : Turtle Number} {ps : List (Shape Number)}
    (h : (w.canvas.scene.beginFill t).Emits ps v.canvas.scene) :
    ∃ u, onCanvas Canvas.endFill v = .ok () u ∧
      w.canvas.scene.Emits (ps ++ [.fill t.x t.y ps t.pen.color]) u.canvas.scene :=
  ⟨_, rfl, emits_onCanvas Canvas.endFill h.endFill⟩

/-- The fill is given up, where something has been drawn since it began. -/
theorem emits_cancelFill {w v : World} {t : Turtle Number} {ps : List (Shape Number)}
    (h : (w.canvas.scene.beginFill t).Emits ps v.canvas.scene) :
    ∃ u, onCanvas Canvas.cancelFill v = .ok () u ∧ w.canvas.scene.Emits ps u.canvas.scene :=
  ⟨_, rfl, emits_onCanvas Canvas.cancelFill ((Scene.Emits.refl _).inFill t h)⟩

/-- What is drawn while a fill is open is drawn, and then the fill. -/
theorem emits_filling {β : Type} {m : SessionM β} (hm : emitting.Keeps m) :
    emitting.Keeps (filling m) := by
  intro w _
  cases ht : w.canvas.scene.turtle? with
  | none =>
      have hact : onCanvas Canvas.beginFill w = .error .noSuchTurtle w.markTurtle := by
        have hfails : Canvas.beginFill w.canvas = .error .noSuchTurtle w.canvas := by
          rw [Canvas.beginFill, bind_of_error (Canvas.turtle_of_none ht)]
        simp only [onCanvas, hfails]
      rw [filling, bind_of_error hact, endOf_error, World.markTurtle, ht]
      exact Canvas.motions_emitting.refl _
  | some t =>
      obtain ⟨hbegin, hopen⟩ := begun_of_turtle ht
      obtain ⟨ps, hps⟩ := hm (begun w) trivial
      rw [filling, bind_of_ok hbegin]
      cases h : m (begun w) with
      | ok b v =>
          rw [h] at hps
          obtain ⟨u, hu, hemits⟩ := emits_endFill (hopen.trans hps)
          rw [wrapUp_ok_ok h hu]
          exact ⟨_, hemits⟩
      | error f v =>
          rw [h] at hps
          obtain ⟨u, hu, hemits⟩ := emits_cancelFill (hopen.trans hps)
          rw [wrapUp_error_ok h hu]
          exact ⟨_, hemits⟩

/-- Leaving a trace is a conduct with all laws. -/
theorem laws_emitting : emitting.Laws where
  tell who := emits_canvas (Canvas.within_tell Canvas.motions_emitting who)
  filling := emits_filling
  events _ _ _ e _ := Conduct.keeps_handle (fun hact => emits_canvas (hact.within Canvas.views_emitting)) e

/-- The manner of programs in which the commands that empty the drawing fail. -/
def sparing (f : Fault) : Manner := fun block c args =>
  if c = .clearScreen ∨ c = .clean then throw f else perform block c args

/-- A command that does not empty the drawing leaves a trace. -/
theorem emits_sparing (f : Fault) {block : List Token → SessionM Flow}
    (hblock : ∀ ts, emitting.Keeps (block ts)) (c : Command) (args : List Value) :
    emitting.Keeps (sparing f block c args) := by
  by_cases hclear : c = .clearScreen ∨ c = .clean
  · rw [sparing, if_pos hclear]
    exact .throw f
  · rw [sparing, if_neg hclear]
    refine Conduct.keeps_perform hblock laws_emitting.toBracketLaws (fun hact => emits_canvas ?_) args
    refine hact.within Canvas.motions_emitting (fun color => ?_) fun h => absurd h hclear
    exact Canvas.within_redraw_after Canvas.views_emitting.toSights
      (.change fun _ _ => Canvas.emitting_of_same rfl rfl)

/-- A program in which the commands that empty the drawing fail draws on a log
    that only grows, and leaves no fill open. -/
theorem emits_block (f : Fault) (patience depth : Nat) (ts : List Token) (w : World) :
    ∃ ps, w.canvas.scene.Emits ps
      (endOf (blockWith (sparing f) patience depth ts w)).canvas.scene :=
  Conduct.keeps_block (emits_sparing f) laws_emitting patience depth ts w trivial

/-! ## `FILLED` -/

/-- How `FILLED` ends after its block, where the shapes `ps` are what the block
    drew from the scene `s` on, and `t` was the current turtle: the block may
    have ended, be it with a signal, and then its fill is drawn too, or it may
    have failed. -/
inductive Captured (s : Scene Number) (t : Turtle Number) (ps : List (Shape Number))
    (rest : List Token) :
    EStateM.Result Fault World Flow → EStateM.Result Fault World Flow → Prop where
  | ended {flow : Flow} {u v : World}
      (h : s.Drew (ps ++ [.fill t.x t.y ps t.pen.color]) v.canvas.scene) :
      Captured s t ps rest (.ok flow u) (.ok (continueWith flow rest) v)
  | failed {f : Fault} {u v : World} (h : s.Drew ps v.canvas.scene) :
      Captured s t ps rest (.error f u) (.error f v)

/-- `FILLED` captures exactly what its block draws, where the block does not
    empty the drawing, that is, where it runs as if the commands for that
    failed. -/
theorem filled_captures {patience depth : Nat} {ts body rest : List Token} {w : World}
    {t : Turtle Number} {f : Fault} (hbody : Token.block .filledBody ts = .ok (body, rest))
    (ht : w.canvas.scene.turtle? = some t)
    (hspared : blockWith (sparing f) patience depth body (begun w)
      = blockAtDepth patience depth body (begun w)) :
    ∃ ps, (begun w).canvas.scene.Emits ps
        (endOf (blockAtDepth patience depth body (begun w))).canvas.scene ∧
      Captured w.canvas.scene t ps rest (blockAtDepth patience depth body (begun w))
        (statement (engineAt patience depth) patience (.word "FILLED" :: ts) w) := by
  obtain ⟨hbegin, hopen⟩ := begun_of_turtle ht
  obtain ⟨ps, hps⟩ := emits_block f patience depth body (begun w)
  rw [hspared] at hps
  refine ⟨ps, hps, ?_⟩
  have hstatement : statement (engineAt patience depth) patience (.word "FILLED" :: ts) w
      = (filling (blockAtDepth patience depth body) >>= fun flow =>
        pure (continueWith flow rest)) w := by
    show filledForm (engineAt patience depth) ts w = _
    rw [filledForm, blockAt, hbody]
    rfl
  rw [hstatement]
  cases h : blockAtDepth patience depth body (begun w) with
  | ok flow v =>
      rw [h] at hps
      obtain ⟨u, hu, hemits⟩ := emits_endFill (hopen.trans hps)
      have hfill : filling (blockAtDepth patience depth body) w = .ok flow u := by
        rw [filling, bind_of_ok hbegin, wrapUp_ok_ok h hu]
      rw [bind_of_ok hfill]
      exact .ended hemits.drew
  | error g v =>
      rw [h] at hps
      obtain ⟨u, hu, hemits⟩ := emits_cancelFill (hopen.trans hps)
      have hfill : filling (blockAtDepth patience depth body) w = .error g u := by
        rw [filling, bind_of_ok hbegin, wrapUp_error_ok h hu]
      rw [bind_of_error hfill]
      exact .failed hemits.drew

/-- A block that walks is spared. -/
theorem spared_setX (f : Fault) : blockWith (sparing f) 5 40 [.word "SETX", .number (.int 30)]
    = blockAtDepth 5 40 [.word "SETX", .number (.int 30)] := by
  have hone : ∀ (m : Manner) (does : Command → List Value → SessionM Unit),
      statementWith does ⟨expressionWith m 5 37, blockWith m 5 37⟩ 5
          [.word "SETX", .number (.int 30)]
        = does .setX [.number (.int 30)] >>= fun _ => pure (.done []) := fun _ _ => rfl
  rw [← blockWith_perform, blockWith, blockWith]
  simp only [statements, List.length, hone, bind_assoc, pure_bind]
  rfl

/-- The law at a single move. -/
theorem filled_captures_setX : ∃ w t, quietSession = .ok w ∧ w.canvas.scene.turtle? = some t ∧
    ∃ ps, Captured w.canvas.scene t ps []
      (blockAtDepth 5 40 [.word "SETX", .number (.int 30)] (begun w))
      (statement (engineAt 5 40) 5
        [.word "FILLED", .openBracket, .word "SETX", .number (.int 30), .closeBracket] w) := by
  obtain ⟨w, hnew, hturtle⟩ := quietSession_of (P := fun w => w.canvas.scene.turtle?.isSome) rfl
  obtain ⟨t, ht⟩ := Option.isSome_iff_exists.1 hturtle
  have hbody : Token.block .filledBody
      [.openBracket, .word "SETX", .number (.int 30), .closeBracket]
        = .ok ([.word "SETX", .number (.int 30)], []) := rfl
  obtain ⟨ps, -, hcaptured⟩ := filled_captures hbody ht (congrFun (spared_setX .busy) (begun w))
  exact ⟨w, t, hnew, ht, ps, hcaptured⟩

end Session

end TurtleLogo
