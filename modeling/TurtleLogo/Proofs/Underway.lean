import TurtleLogo.Proofs.Conduct
import TurtleLogo.Proofs.Rest

/-! # Sessions underway

    What is true of a session between calls should be true in the midst of one
    as well: when a statement has been run inside a loop, say, or an expression
    inside a procedure.  `Underway` is about all worlds that may come up, and
    more: wherever a session is, any statement or expression may be run next, any
    call made, any turtle chosen, and whatever has to do neither with procedures
    nor with turtles may change.

    * `Canvas.OfTurtles` says of a relation that it only has to do with the
      turtles of a canvas and allows for all that is done with them;
    * a conduct that allows for it too has all the laws (`Conduct.laws_ofTurtles`),
      so that programs keep to it, and the calls of a host, as long as they do
      not start the drawing over (`Conduct.keeps_hostCall`);
    * a property that a new session has is true of all worlds that may come up, if
      such a conduct keeps it (`Underway.invariant`). -/

namespace TurtleLogo

/-- A relation that only has to do with the turtles of a canvas and with who is
    current, and allows for all that is done with them, except to start over. -/
structure Canvas.OfTurtles (R : Canvas Number → Canvas Number → Prop) : Prop where
  same : ∀ {c d : Canvas Number}, d.scene.turtles = c.scene.turtles →
    d.scene.current = c.scene.current → R c d
  trans : ∀ {c d e}, R c d → R d e → R c e
  turtle : ∀ (s : Scene Number) u (f : Turtle Number → Turtle Number), s.Adapts f →
    R ⟨s, u⟩ ⟨s.mapTurtle f, u⟩
  tell : ∀ (s : Scene Number) u (id : Value), id.isList = false → R ⟨s, u⟩ ⟨{ s with
    turtles := if s.hasTurtle id then s.turtles else s.turtles ++ [(id, Turtle.new)]
    current := id, dirty := true }, u⟩
  visible : ∀ (s : Scene Number) u ts, Canvas.unseen ts = Canvas.unseen s.turtles →
    R ⟨s, u⟩ ⟨{ s with turtles := ts }, u⟩
  clear : ∀ (s : Scene Number) u, R ⟨s, u⟩ ⟨s.clear, u⟩

namespace Canvas.OfTurtles

variable {R : Canvas Number → Canvas Number → Prop} (H : OfTurtles R)
include H

/-- A relation of turtles allows for looking on. -/
theorem views : Views R where
  refl _ := H.same rfl rfl
  trans := H.trans
  turtle := H.turtle
  line _ _ _ _ _ _ _ := H.same rfl rfl
  circle _ _ _ _ _ _ := H.same rfl rfl
  arc _ _ _ _ _ _ _ _ _ _ _ _ _ _ := H.same rfl rfl
  touch _ _ := H.same rfl rfl
  tell := H.tell
  mode _ _ _ := H.same rfl rfl
  view _ _ _ := H.same rfl rfl
  shown _ _ := H.same rfl rfl
  surface _ _ _ := H.same rfl rfl
  visible := H.visible

theorem within_beginFill : Within R (beginFill : CanvasM Number Unit) :=
  .bind H.views.toMoves (within_turtle H.views.toMoves) fun _ => .change fun _ _ => H.same rfl rfl

/-- A relation of turtles allows for the end of a fill. -/
theorem within_endFill : Within R (endFill : CanvasM Number Unit) := by
  refine .change fun s u => ?_
  rw [Scene.endFill]
  split
  · exact H.same rfl rfl
  · exact H.same rfl rfl

theorem within_cancelFill : Within R (cancelFill : CanvasM Number Unit) :=
  .change fun _ _ => H.same rfl rfl

/-- What commands do goes along with the relation. -/
theorem within_acts {c : Command} {act : CanvasM Number Unit} (h : c.Acts act) : Within R act := by
  refine h.within H.views.toMotions (fun color => ?_) ?_
  · exact within_redraw_after H.views.toSights (.change fun _ _ => H.same rfl rfl)
  · rintro (rfl | rfl)
    · cases h
      exact within_redraw_after H.views.toSights (.change H.clear)
    · cases h
      exact within_redraw_after H.views.toSights (.change fun _ _ => H.same rfl rfl)

end Canvas.OfTurtles

namespace Session

/-- A call that does something to the session itself, other than to run a program
    or to pace it. -/
def HostCall.Direct : HostCall → Prop
  | .reset | .setMode _ | .event _ | .present | .replaceHost _ => True
  | .run _ | .execute _ | .evaluate _ _ | .stop | .setSpeed _ | .replacePacer _ => False

namespace Conduct

/-! ## Conducts of turtles -/

section

variable {C : Conduct} {R : Canvas Number → Canvas Number → Prop} (H : Canvas.OfTurtles R)
  (hcanvas : ∀ {β : Type} {act : CanvasM Number β}, Canvas.Within R act → C.Keeps (onCanvas act))
include H hcanvas

/-- Someone at the window can look on. -/
theorem handle_ofTurtles (e : WindowEvent) : C.Keeps (handle e) :=
  keeps_handle (fun hact => hcanvas (hact.within H.views)) e

/-- A conduct of turtles has all laws. -/
theorem laws_ofTurtles : C.Laws where
  tell who := hcanvas (Canvas.within_tell H.views.toMotions who)
  filling hm := .bind (hcanvas H.within_beginFill) fun _ =>
    .wrapUp hm (hcanvas H.within_endFill) (hcanvas H.within_cancelFill)
  events _ _ _ e _ := handle_ofTurtles H hcanvas e

end

/-! ## Statements, expressions and calls -/

section

variable {C : Conduct} (H : C.Laws)
  (hacts : ∀ {c : Command} {act}, c.Acts act → C.Keeps (onCanvas act))
include H hacts

/-- Commands keep to a conduct of turtles if blocks do. -/
theorem keeps_commands {block : List Token → SessionM Flow} (hblock : ∀ ts, C.Keeps (block ts))
    (c : Command) (args : List Value) : C.Keeps (perform block c args) :=
  keeps_perform hblock H.toBracketLaws hacts args

/-- Expressions keep to a conduct of turtles. -/
theorem keeps_expressionAt (patience depth : Nat) (ts : List Token) :
    C.Keeps (expressionAt patience depth ts) := by
  rw [← expressionWith_perform]
  exact keeps_expression (keeps_commands H hacts) H patience depth ts

/-- Blocks keep to a conduct of turtles at every depth. -/
theorem keeps_blockAtDepth (patience depth : Nat) (ts : List Token) :
    C.Keeps (blockAtDepth patience depth ts) := by
  rw [← blockWith_perform]
  exact keeps_block (keeps_commands H hacts) H patience depth ts

/-- A single statement keeps to a conduct, under whatever limits. -/
theorem keeps_statementAt (limits : Limits) (ts : List Token) :
    C.Keeps (statement (engine limits) limits.patience ts) := by
  have hexpression : expressionWith perform limits.patience limits.depth
      = expressionAt limits.patience limits.depth :=
    funext (expressionWith_perform limits.patience limits.depth)
  have hblock : blockWith perform limits.patience limits.depth
      = blockAtDepth limits.patience limits.depth :=
    funext (blockWith_perform limits.patience limits.depth)
  have hkeeps := keeps_statement (keeps_commands H hacts) H limits.patience limits.depth ts
  rw [hexpression, hblock] at hkeeps
  rw [← statementWith_perform]
  exact hkeeps

/-- A call keeps to a conduct, if it does so where it does something itself. -/
theorem keeps_hostCall (limits : Limits) {c : HostCall} (hdirect : c.Direct → C.Keeps (c.act limits)) :
    C.Keeps (c.act limits) := by
  have hblock := keeps_blockAtDepth H hacts limits.patience limits.depth
  have hexpression := keeps_expressionAt H hacts limits.patience limits.depth
  cases c with
  | run code => exact keeps_runWith hblock code
  | execute code => exact .bind (keeps_executeWith hblock code) fun _ => .pure ()
  | evaluate grammar source =>
      refine .bind (.bind (.attempt _) fun ts => ?_) fun _ => .pure ()
      cases grammar with
      | expression => exact .bind (hexpression ts) fun _ => .pure _
      | condition => exact .bind (keeps_condition hexpression ts) fun _ => .pure _
  | stop => exact .stop
  | setSpeed ms => exact H.setSpeed ms
  | replacePacer q => exact .changing (fun _ => rfl) (fun _ => rfl) fun _ => rfl
  | reset | setMode | event | present | replaceHost => exact hdirect trivial

end

/-- A call keeps to a conduct of turtles, unless it starts the drawing over or
    replaces the host. -/
theorem hostCall_ofTurtles {C : Conduct} {R : Canvas Number → Canvas Number → Prop}
    (H : Canvas.OfTurtles R)
    (hcanvas : ∀ {β : Type} {act : CanvasM Number β}, Canvas.Within R act → C.Keeps (onCanvas act))
    (limits : Limits) {c : HostCall} (hreset : c = .reset → C.Keeps Session.reset)
    (hhost : ∀ h, c = .replaceHost h → C.Keeps (c.act limits)) : C.Keeps (c.act limits) := by
  have hacts : ∀ {c : Command} {act}, c.Acts act → C.Keeps (onCanvas act) :=
    fun h => hcanvas (H.within_acts h)
  refine keeps_hostCall (laws_ofTurtles H hcanvas) hacts limits fun hdirect => ?_
  cases c with
  | reset => exact hreset rfl
  | setMode mode => exact hcanvas (Canvas.within_setMode H.views.toMoves mode)
  | event e => exact handle_ofTurtles H hcanvas e
  | present =>
      exact hcanvas (Canvas.within_present H.views.toMoves (Canvas.within_redraw H.views.toSights))
  | replaceHost h => exact hhost h rfl
  | run | execute | evaluate | stop | setSpeed | replacePacer => exact hdirect.elim

end Conduct

/-! ## Worlds that may come up -/

/-- The worlds that may come up while a host uses a session on a surface: after
    calls, and in the midst of them, where a statement or an expression has been
    run, a turtle has been chosen, or something has changed that has to do neither
    with procedures nor with turtles, such as a frame, a count, a fill, the pace
    of the run or what the host has heard. -/
inductive Underway (surface : Surface Number) : World → Prop where
  | new {pacer : Pacer} {host : Host} {w : World} (h : World.new surface pacer host = .ok w) :
      Underway surface w
  | call {w : World} (h : Underway surface w) (limits : Limits) (c : HostCall) :
      Underway surface (endOf (c.act limits w))
  | statement {w : World} (h : Underway surface w) (limits : Limits) (ts : List Token) :
      Underway surface (endOf (Session.statement (engine limits) limits.patience ts w))
  | expression {w : World} (h : Underway surface w) (limits : Limits) (ts : List Token) :
      Underway surface (endOf ((engine limits).expression ts w))
  | tell {w : World} (h : Underway surface w) (who : Value) :
      Underway surface (endOf (onCanvas (Canvas.tell who) w))
  | aside {w v : World} (h : Underway surface w)
      (hprocedures : v.store.procedures = w.store.procedures)
      (hturtles : v.canvas.scene.turtles = w.canvas.scene.turtles)
      (hcurrent : v.canvas.scene.current = w.canvas.scene.current) : Underway surface v

/-- What is true of every session between calls is asked for in the midst of them
    too. -/
theorem Reachable.underway {surface : Surface Number} {w : World} (h : Reachable surface w) :
    Underway surface w := by
  induction h with
  | new h => exact .new h
  | call _ limits c ih => exact ih.call limits c

/-- What is needed of a property of procedures and turtles for a conduct to keep
    it. -/
structure Invariant where
  holds : World → Prop
  aside : ∀ {w v : World}, v.store.procedures = w.store.procedures →
    v.canvas.scene.turtles = w.canvas.scene.turtles →
    v.canvas.scene.current = w.canvas.scene.current → holds w → holds v
  defines : ∀ (w : World) {p : Procedure}, p.Definable → holds w →
    holds { w with store := w.store.define p }

/-- The conduct of what keeps a property. -/
def Invariant.conduct (I : Invariant) : Conduct where
  applies _ := True
  leads w v := I.holds w → I.holds v
  trans h h' := h' ∘ h
  applies_of _ _ := trivial
  still hcanvas _ hprocedures := I.aside hprocedures (by rw [hcanvas]) (by rw [hcanvas])
  defines w _ hp := I.defines w hp

/-- A property of procedures and turtles that a new session has is true of all
    worlds that may come up, if what happens on the canvas keeps it, and if it is
    true again where a session starts over. -/
theorem Underway.invariant (I : Invariant) {R : Canvas Number → Canvas Number → Prop}
    (H : Canvas.OfTurtles R)
    (hcanvas : ∀ {β : Type} {act : CanvasM Number β}, Canvas.Within R act →
      I.conduct.Keeps (onCanvas act))
    (hreset : I.conduct.Keeps Session.reset) {surface : Surface Number}
    (hnew : ∀ {pacer host w}, World.new surface pacer host = .ok w → I.holds w)
    {w : World} (h : Underway surface w) : I.holds w := by
  have hlaws : I.conduct.Laws := Conduct.laws_ofTurtles H hcanvas
  have hacts : ∀ {c : Command} {act}, c.Acts act → I.conduct.Keeps (onCanvas act) :=
    fun h => hcanvas (H.within_acts h)
  induction h with
  | new h => exact hnew h
  | @call w _ limits c ih =>
      refine Conduct.hostCall_ofTurtles H hcanvas limits (fun _ => hreset) ?_ w trivial ih
      rintro h rfl w -
      exact I.aside rfl rfl rfl
  | @statement w _ limits ts ih =>
      exact Conduct.keeps_statementAt hlaws hacts limits ts w trivial ih
  | @expression w _ limits ts ih =>
      exact Conduct.keeps_expressionAt hlaws hacts limits.patience limits.depth ts w trivial ih
  | @tell w _ who ih => exact hlaws.tell who w trivial ih
  | aside _ hprocedures hturtles hcurrent ih => exact I.aside hprocedures hturtles hcurrent ih

end Session

end TurtleLogo
