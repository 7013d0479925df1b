import TurtleLogo.Proofs.Drawing
import TurtleLogo.Proofs.Programs

/-! # The conduct of a run

    Some facts about a run compare the world in which it ends with the one in
    which it began, however it ends, and hold of every part of it.  A `Conduct`
    is such a relation between worlds, asked for from certain worlds on, and
    `Conduct.Keeps` says that an action does nothing but what it allows for.

    What a program does apart from drawing is of no concern, so that only turns
    of other turtles, fills, events at a window (`Laws`) and the commands that
    draw (`keeps_perform`) have to be looked at.  All else is read off the
    comparison of programs: an action that keeps to a conduct is alike to any
    other that gives the same values (`likeness`), and so are whole programs
    (`keeps_block`).  Where a conduct is about the canvas, what commands do there
    is motion, a few of them apart (`Acts.within`). -/

namespace TurtleLogo

/-- Where the moves of the current turtle go along with a relation between
    canvases, so does what commands do, if the choice of a background does, what
    clears the drawing, and what makes another turtle current. -/
theorem Command.Acts.within_moves {R : Canvas Number → Canvas Number → Prop} (H : Canvas.Moves R)
    (hbackground : ∀ color, Canvas.Within R (Canvas.setBackground color)) {c : Command}
    {act : CanvasM Number Unit} (h : c.Acts act)
    (hset : c = .clearScreen ∨ c = .clean ∨ c = .tell → Canvas.Within R act) :
    Canvas.Within R act := by
  cases h with
  | clearScreen => exact hset (.inl rfl)
  | clean => exact hset (.inr (.inl rfl))
  | tell who => exact hset (.inr (.inr rfl))
  | setBackground color => exact hbackground color
  | forward distance => exact Canvas.within_forward H distance
  | back distance => exact Canvas.within_forward H distance.neg
  | left angle => exact Canvas.within_left H angle
  | right angle => exact Canvas.within_right H angle
  | setX x => exact Canvas.within_setX H x
  | setY y => exact Canvas.within_setY H y
  | setHeading angle => exact Canvas.within_setHeading H angle
  | circle radius => exact Canvas.within_circle H radius
  | moveTo x y => exact Canvas.within_moveTo H x y
  | arc angle radius => exact Canvas.within_arc H angle radius
  | home => exact Canvas.within_home H
  | setPenSize size => exact Canvas.within_setPenSize H size
  | setPenColor | penUp | penDown | penErase | penPaint =>
      exact Canvas.within_changeTurtle H fun _ => ⟨fun _ h => h, .inl fun _ => rfl⟩
  | hideTurtle | showTurtle => exact Canvas.within_setVisible H _
  | wrapMode | windowMode | fenceMode => exact Canvas.within_setMode H _

/-- Where motion goes along with a relation between canvases, so does what
    commands do, if the choice of a background does and what clears the
    drawing. -/
theorem Command.Acts.within {R : Canvas Number → Canvas Number → Prop} (H : Canvas.Motions R)
    (hbackground : ∀ color, Canvas.Within R (Canvas.setBackground color)) {c : Command}
    {act : CanvasM Number Unit} (h : c.Acts act)
    (hclear : c = .clearScreen ∨ c = .clean → Canvas.Within R act) : Canvas.Within R act := by
  refine h.within_moves H.toMoves hbackground ?_
  rintro (hc | hc | rfl)
  · exact hclear (.inl hc)
  · exact hclear (.inr hc)
  · cases h
    exact Canvas.within_tell H _

/-- The actions that someone at a window may take on the canvas. -/
inductive WindowEvent.Acts : {β : Type} → CanvasM Number β → Prop where
  | zoomIn : Acts Canvas.zoomIn
  | zoomOut : Acts Canvas.zoomOut
  | resetView : Acts Canvas.resetView
  | pan (dx dy : Number) : Acts (Canvas.pan dx dy)
  | coordinatesAt (px py : Number) : Acts (Canvas.coordinatesAt px py)
  | savePicture (path : Text) : Acts (Canvas.savePicture path)

/-- Looking on goes along with whatever allows for it, if saving the picture
    does. -/
theorem WindowEvent.Acts.within_sights {R : Canvas Number → Canvas Number → Prop}
    (H : Canvas.Sights R) (hsave : ∀ path, Canvas.Within R (Canvas.savePicture path)) {β : Type}
    {act : CanvasM Number β} (h : WindowEvent.Acts act) : Canvas.Within R act := by
  cases h with
  | zoomIn | zoomOut => exact Canvas.within_redraw_after H (Canvas.within_changeView H _)
  | resetView => exact Canvas.within_resetView H
  | pan dx dy => exact Canvas.within_pan H dx dy
  | coordinatesAt px py => exact Canvas.within_coordinatesAt H px py
  | savePicture path => exact hsave path

/-- Looking on goes along with whatever allows for it. -/
theorem WindowEvent.Acts.within {R : Canvas Number → Canvas Number → Prop} (H : Canvas.Views R)
    {β : Type} {act : CanvasM Number β} (h : WindowEvent.Acts act) : Canvas.Within R act :=
  h.within_sights H.toSights (Canvas.within_savePicture H)

namespace World

/-- Marking a turtle changes nothing but that turtle, which keeps its pen and its
    heading unless that is undefined, and how many numbers have been marked. -/
theorem markTurtle_cases (w : World) : w.markTurtle = w ∨ ∃ f j, w.markTurtle = { w with
    canvas := ⟨w.canvas.scene.mapTurtle f, w.canvas.surface⟩, undefined := j }
      ∧ w.canvas.scene.Adapts f := by
  rw [markTurtle]
  cases ht : w.canvas.scene.turtle? with
  | none => exact .inl rfl
  | some t =>
      dsimp only
      split
      · obtain ⟨x, i, hx⟩ := mark_eq t.x w.undefined
        obtain ⟨y, j, hy⟩ := mark_eq t.y i
        obtain ⟨heading, k, hheading⟩ := mark_eq t.heading j
        rw [hx w rfl]
        dsimp only
        rw [hy _ rfl]
        dsimp only
        rw [hheading _ rfl]
        refine .inr ⟨_, k, rfl, fun _ h => h, .inr ⟨heading, fun _ => rfl, ?_⟩⟩
        have hmark := hheading { w with undefined := j } rfl
        unfold mark at hmark
        split at hmark
        · cases hmark
          exact .inr (.inr rfl)
        · cases hmark
          exact .inl ⟨t, ht, rfl⟩
      · exact .inl rfl

/-- Marking a turtle goes along with motion. -/
theorem markTurtle_within {R : Canvas Number → Canvas Number → Prop} (H : Canvas.Moves R)
    (w : World) : R w.canvas w.markTurtle.canvas := by
  obtain hmark | ⟨f, j, hmark, hadapts⟩ := w.markTurtle_cases
  · rw [hmark]
    exact H.refl w.canvas
  · rw [hmark]
    exact H.turtle _ _ f hadapts

/-- To mark the turtle leaves the reactions of the host. -/
theorem react_markTurtle (w : World) : w.markTurtle.host.react = w.host.react := by
  obtain hmark | ⟨f, j, hmark, -⟩ := w.markTurtle_cases
  · rw [hmark]
  · rw [hmark]

end World

namespace Session

/-- However an action on the canvas ends, the current turtle is marked. -/
theorem endOf_onCanvas_eq {β : Type} (act : CanvasM Number β) (w : World) :
    endOf (onCanvas act w) = World.markTurtle { w with canvas := endOf (act w.canvas) } := by
  cases h : act w.canvas <;> simp only [onCanvas, h] <;> rfl

/-- What the actions of a session may do to a world. -/
structure Conduct where
  /-- The worlds from which on it is asked for. -/
  applies : World → Prop
  leads : World → World → Prop
  trans : ∀ {w v u}, leads w v → leads v u → leads w u
  applies_of : ∀ {w v}, leads w v → applies w → applies v
  /-- Whatever leaves the canvas, the manners of the host and the procedures alone
      is allowed. -/
  still : ∀ {w v : World}, v.canvas = w.canvas → v.host.react = w.host.react →
    v.store.procedures = w.store.procedures → leads w v
  defines : ∀ (w : World) {p : Procedure}, p.Definable →
    leads w { w with store := w.store.define p }

namespace Conduct

/-- An action that, however it ends, does nothing but what is allowed for. -/
def Keeps (C : Conduct) {β : Type} (m : SessionM β) : Prop :=
  ∀ w, C.applies w → C.leads w (endOf (m w))

/-- The likeness that a conduct makes: the first computation keeps to it, and
    gives no values but such as compare. -/
def likeness (C : Conduct) : Likeness where
  spelled := Eq
  fits _ := True
  alike Q m _ := C.Keeps m ∧ ∀ w a v, m w = .ok a v → ∃ b, Q a b

section

variable {C : Conduct} {β γ : Type}

/-! ## Sequencing -/

namespace Keeps

/-- An action that leaves the canvas, the manners of the host and the procedures
    alone. -/
theorem of_still {m : SessionM β} (hcanvas : ∀ w, (endOf (m w)).canvas = w.canvas)
    (hreact : ∀ w, (endOf (m w)).host.react = w.host.react)
    (hstore : ∀ w, (endOf (m w)).store.procedures = w.store.procedures) : C.Keeps m :=
  fun w _ => C.still (hcanvas w) (hreact w) (hstore w)

theorem pure (b : β) : C.Keeps (Pure.pure b) :=
  .of_still (fun _ => rfl) (fun _ => rfl) fun _ => rfl

theorem throw (f : Fault) : C.Keeps (MonadExcept.throw f : SessionM β) :=
  .of_still (fun _ => rfl) (fun _ => rfl) fun _ => rfl

/-- Sequencing, where the values that the first action gives are known to have a
    property. -/
theorem bind_of {m : SessionM β} {k : β → SessionM γ} (Q : β → Prop) (hm : C.Keeps m)
    (hQ : ∀ w a v, m w = .ok a v → Q a) (hk : ∀ a, Q a → C.Keeps (k a)) : C.Keeps (m >>= k) := by
  intro w hw
  have hleads := hm w hw
  cases h : m w with
  | ok a v =>
      rw [h] at hleads
      rw [bind_of_ok h]
      exact C.trans hleads (hk a (hQ w a v h) v (C.applies_of hleads hw))
  | error f v =>
      rw [h] at hleads
      rw [bind_of_error h]
      exact hleads

/-- Actions that keep to a conduct can follow one another. -/
theorem bind {m : SessionM β} {k : β → SessionM γ} (hm : C.Keeps m) (hk : ∀ a, C.Keeps (k a)) :
    C.Keeps (m >>= k) :=
  bind_of (fun _ => True) hm (fun _ _ _ _ => trivial) fun a _ => hk a

/-- A look at the world changes nothing. -/
theorem get_bind {k : World → SessionM β} (hk : ∀ w, C.Keeps (k w)) :
    C.Keeps (MonadState.get >>= k) :=
  fun w hw => hk w w hw

/-- A choice of two actions keeps to a conduct if both do. -/
theorem ite {b : Prop} [Decidable b] {m n : SessionM β} (hm : C.Keeps m) (hn : C.Keeps n) :
    C.Keeps (if b then m else n) := by
  by_cases h : b
  · rw [if_pos h]
    exact hm
  · rw [if_neg h]
    exact hn

/-- A computation without a state changes nothing. -/
theorem attempt (r : Except Fault β) : C.Keeps (attempt r) := by
  cases r with
  | ok b => exact .pure b
  | error f => exact .throw f

/-- A change that touches neither canvas, host nor names is always allowed for. -/
theorem changing {g : World → World} (hcanvas : ∀ w, (g w).canvas = w.canvas)
    (hreact : ∀ w, (g w).host.react = w.host.react)
    (hstore : ∀ w, (g w).store = w.store) : C.Keeps (modify g : SessionM PUnit) :=
  .of_still hcanvas hreact fun w => congrArg Store.procedures (hstore w)

/-- A change of the names that leaves the procedures alone. -/
theorem changeStore {f : Store → Store} (hf : ∀ s, (f s).procedures = s.procedures) :
    C.Keeps (changeStore f) :=
  .of_still (fun _ => rfl) (fun _ => rfl) fun w => hf w.store

theorem define {p : Procedure} (hp : p.Definable) : C.Keeps (Session.changeStore (·.define p)) :=
  fun w _ => C.defines w hp

/-- An action that is wrapped up keeps to a conduct if its parts do. -/
theorem wrapUp {m : SessionM β} {done failed : SessionM Unit} (hm : C.Keeps m)
    (hdone : C.Keeps done) (hfailed : C.Keeps failed) : C.Keeps (wrapUp m done failed) :=
  fun w hw => endOf_wrapUp (R := C.leads) C.trans (hm w hw)
    (fun v hv => hdone v (C.applies_of hv hw)) fun v hv => hfailed v (C.applies_of hv hw)

/-- What is done to the pacer is always allowed for. -/
theorem onPacer (act : EStateM Fault Pacer β) : C.Keeps (onPacer act) := by
  refine .of_still (fun w => ?_) (fun w => ?_) fun w => ?_
  all_goals cases h : act w.pacer <;> simp only [Session.onPacer, h] <;> rfl

/-- A fresh number is always allowed for. -/
theorem fresh (n : Number) : C.Keeps (fresh n) := by
  intro w _
  obtain ⟨m, j, hfresh⟩ := World.mark_eq n w.undefined
  simp only [Session.fresh, hfresh w rfl]
  exact C.still rfl rfl rfl

theorem random : C.Keeps random :=
  .get_bind fun _ => .bind (.changing (fun _ => rfl) (fun _ => rfl) fun _ => rfl) fun _ => .pure _

theorem note (n : Notice) : C.Keeps (note n) := .changing (fun _ => rfl) (fun _ => rfl) fun _ => rfl

/-- Asking for an answer is always allowed for. -/
theorem ask (prompt : Text) : C.Keeps (ask prompt) := by
  refine .get_bind fun w => ?_
  cases w.host.replies with
  | none => exact .throw _
  | some replies =>
      refine .bind (.note _) fun _ => .bind (.changing (fun _ => rfl) (fun _ => rfl) fun _ => rfl) fun _ => ?_
      split <;> exact .pure _

theorem stop : C.Keeps stop := .changing (fun _ => rfl) (fun _ => rfl) fun _ => rfl

theorem setTitle (text : Text) : C.Keeps (setTitle text) :=
  .changing (fun _ => rfl) (fun _ => rfl) fun _ => rfl

/-- An action that keeps to a conduct is alike to every one that gives values of
    the same kind. -/
theorem alike {Q : β → β → Prop} {m n : SessionM β} (hm : C.Keeps m) (hQ : ∀ a, Q a a) :
    C.likeness.alike Q m n :=
  ⟨hm, fun _ a _ _ => ⟨a, hQ a⟩⟩

end Keeps

/-- A fault gives no values at all. -/
theorem alike_throw {Q : β → γ → Prop} (f : Fault) :
    C.likeness.alike Q (throw f) (throw f) := by
  refine ⟨.throw f, fun w a v h => ?_⟩
  cases h

/-! ## Laws -/

/-- What a conduct has to allow for, turns of another turtle apart. -/
structure BracketLaws (C : Conduct) : Prop where
  filling : ∀ {β : Type} {m : SessionM β}, C.Keeps m → C.Keeps (filling m)
  events : ∀ {w}, C.applies w → ∀ n text e, .event e ∈ w.host.react n text → C.Keeps (handle e)

/-- What a conduct has to allow for. -/
structure Laws (C : Conduct) : Prop extends C.BracketLaws where
  tell : ∀ who, C.Keeps (onCanvas (Canvas.tell who))

namespace BracketLaws

variable (H : C.BracketLaws)
include H

/-- The likeness that a conduct makes satisfies the laws of expressions and
    brackets. -/
theorem likeness : C.likeness.BracketLaws where
  upper _ _ h := congrArg Text.upper h
  pure {β γ Q a b} h := by
    refine ⟨.pure a, fun w c v hc => ?_⟩
    cases hc
    exact ⟨b, h⟩
  throw _ := alike_throw _
  bind {β γ δ ε Q S m n k l} hm hk := by
    refine ⟨.bind_of (fun a => ∃ b, Q a b) hm.1 hm.2 fun a ha => ?_, fun w c u hc => ?_⟩
    · obtain ⟨b, hab⟩ := ha
      exact (hk a b hab).1
    · obtain ⟨a, v, ha, hc⟩ := bind_eq_ok hc
      obtain ⟨b, hab⟩ := hm.2 w a v ha
      exact (hk a b hab).2 v c u hc
  fresh n := (Keeps.fresh n).alike fun _ => rfl
  random := Keeps.random.alike fun _ => rfl
  ask prompt := (Keeps.ask prompt).alike fun _ => rfl
  seen f := (Keeps.get_bind fun _ => .pure _).alike fun _ => rfl
  store := (Keeps.get_bind fun _ => .pure _).alike fun s => ⟨.refl s, fun _ _ => trivial⟩
  stopRequested := (Keeps.onPacer _).alike fun _ => rfl
  checkpoint := (Keeps.onPacer _).alike fun _ => rfl
  define hpq hq _ := by
    rw [hpq.eq]
    exact (Keeps.define hq).alike fun _ => rfl
  names hgh hkeep := by
    refine (Keeps.changeStore fun s => ?_).alike fun _ => rfl
    rw [(hgh s s (.refl s)).eq, hkeep]
  filling hm := by
    refine ⟨H.filling hm.1, fun w a u ha => ?_⟩
    obtain ⟨_, v, -, ha⟩ := bind_eq_ok ha
    obtain ⟨t, ha, -⟩ := wrapUp_eq_ok ha
    exact hm.2 v a t ha
  wrapUp hm hd he _ := by
    refine ⟨.wrapUp hm.1 hd.1 he.1, fun w a u ha => ?_⟩
    obtain ⟨t, ha, -⟩ := wrapUp_eq_ok ha
    exact hm.2 w a t ha

theorem setSpeed (ms : Number) : C.Keeps (setSpeed ms) :=
  .bind (H.likeness.compute _).1 fun _ => .changing (fun _ => rfl) (fun _ => rfl) fun _ => rfl

end BracketLaws

/-- The likeness that a conduct makes satisfies the laws of expressions and
    forms. -/
theorem Laws.likeness (H : C.Laws) : C.likeness.FormLaws :=
  { H.toBracketLaws.likeness with tell := fun who => (H.tell who).alike fun _ => rfl }

/-- A condition keeps to a conduct if expressions do. -/
theorem keeps_condition {E : Engine} (hE : ∀ ts, C.Keeps (E.expression ts)) (ts : List Token) :
    C.Keeps (condition E ts) := by
  refine .bind (hE ts) fun left => ?_
  dsimp only
  split
  · exact .bind (hE _) fun _ => .bind (.attempt _) fun _ => .pure _
  · exact .pure _

/-- An action on the canvas keeps to a conduct if it takes the canvas along a
    relation that the conduct allows for. -/
theorem keeps_onCanvas {R : Canvas Number → Canvas Number → Prop} (H : Canvas.Moves R)
    (hleads : ∀ {w v : World}, R w.canvas v.canvas → v.host.react = w.host.react → C.leads w v)
    {act : CanvasM Number β} (hact : Canvas.Within R act) : C.Keeps (onCanvas act) := by
  intro w _
  rw [endOf_onCanvas_eq]
  have hmark := World.markTurtle_within H { w with canvas := endOf (act w.canvas) }
  exact hleads (H.trans (hact w.canvas) hmark) (World.react_markTurtle _)

/-! ## Events at a window -/

section

variable (hwindow : ∀ {β : Type} {act : CanvasM Number β}, WindowEvent.Acts act →
  C.Keeps (onCanvas act))
include hwindow

/-- Saving the picture is allowed for if what happens at a window is. -/
theorem keeps_saveAs (path : Text) : C.Keeps (saveAs path) := by
  intro w hw
  have hsaved := hwindow (.savePicture path) w hw
  cases h : onCanvas (Canvas.savePicture path) w with
  | ok _ v =>
      rw [h] at hsaved
      rw [SceneLaws.saveAs_ok h]
      exact C.trans hsaved (Keeps.setTitle _ v (C.applies_of hsaved hw))
  | error f v =>
      rw [h] at hsaved
      rcases SceneLaws.saveAs_error path f with ⟨text, htext⟩ | hfails
      · rw [htext h]
        exact C.trans hsaved (Keeps.setTitle text v (C.applies_of hsaved hw))
      · rw [hfails h]
        exact hsaved

/-- Saving under a path that is asked for keeps to a conduct if what happens at a
    window does. -/
theorem keeps_savePicture : C.Keeps savePicture := by
  refine .get_bind fun w => ?_
  split
  · exact keeps_saveAs hwindow _
  · exact keeps_saveAs hwindow _

/-- A key that is pressed keeps to a conduct if what happens at a window does. -/
theorem keeps_pressKey (name typed : Text) : C.Keeps (pressKey name typed) := by
  have hpan : ∀ dx dy : Int, C.Keeps (onCanvas (Canvas.pan (.int dx) (.int dy))) :=
    fun dx dy => hwindow (.pan _ _)
  refine .ite .stop (.ite (keeps_savePicture hwindow) (.ite (hwindow .zoomIn) ?_))
  refine .ite (hwindow .zoomOut) (.ite (hwindow .resetView) ?_)
  exact .ite (hpan _ _) (.ite (hpan _ _) (.ite (hpan _ _) (.ite (hpan _ _) (.pure ()))))

/-- An event keeps to a conduct if what it does on the canvas does. -/
theorem keeps_handle (e : WindowEvent) : C.Keeps (handle e) := by
  refine .get_bind fun w => ?_
  split
  · exact .pure ()
  · cases e with
    | quit => exact .bind .stop fun _ => .changing (fun _ => rfl) (fun _ => rfl) fun _ => rfl
    | motion px py => exact .bind (hwindow (.coordinatesAt px py)) fun _ => .setTitle _
    | wheel y => exact .ite (hwindow .zoomIn) (.ite (hwindow .zoomOut) (.pure ()))
    | key name typed => exact keeps_pressKey hwindow name typed
    | other => exact .pure ()

end

/-! ## Runs and reactions -/

/-- A fault may be told to the host. -/
theorem leads_told (message : Text) (w : World) : C.leads w (told message w) := by
  rw [told]
  split
  · exact C.still rfl rfl rfl
  · exact C.still rfl rfl rfl

section

variable {block : List Token → SessionM Flow} (hblock : ∀ ts, C.Keeps (block ts))
include hblock

/-- A run keeps to a conduct if blocks do. -/
theorem keeps_runWith (code : Text) : C.Keeps (runWith block code) := by
  refine .get_bind fun w => .bind (.attempt _) fun _ =>
    .bind (.changing (fun _ => rfl) (fun _ => rfl) fun _ => rfl) fun _ => ?_
  rw [afterwards_eq]
  refine .wrapUp (.bind (.changing (fun _ => rfl) (fun _ => rfl) fun _ => rfl) fun _ =>
    .bind (.attempt _) fun tokens => ?_) (.changing (fun _ => rfl) (fun _ => rfl) fun _ => rfl)
    (.changing (fun _ => rfl) (fun _ => rfl) fun _ => rfl)
  -- friendly words change the fault only
  intro v hv
  have hleads := Keeps.bind (hblock tokens) (fun _ => .pure ()) v hv
  cases h : (do let _ ← block tokens : SessionM Unit) v with
  | ok _ u =>
      rw [h] at hleads
      simp only [inFriendlyWords, h]
      exact hleads
  | error f u =>
      rw [h] at hleads
      simp only [inFriendlyWords, h]
      exact hleads

/-- Executing a program keeps to a conduct if blocks do. -/
theorem keeps_executeWith (code : Text) : C.Keeps (executeWith block code) := by
  intro w hw
  have hleads := keeps_runWith hblock code w hw
  obtain hend | ⟨message, hend⟩ := endOf_executeWith block code w
  · rw [hend]
    exact hleads
  · rw [hend]
    exact C.trans hleads (leads_told message _)

variable (H : C.BracketLaws)
include H

/-- Requests keep to a conduct if blocks and events do. -/
theorem keeps_serveAll {rs : List Request} (hrs : ∀ e, .event e ∈ rs → C.Keeps (handle e)) :
    C.Keeps (serveAll block rs) := by
  induction rs with
  | nil => exact .pure ()
  | cons r rs ih =>
      refine .bind ?_ fun _ => ih fun e he => hrs e (List.mem_cons_of_mem _ he)
      cases r with
      | stop => exact .stop
      | setSpeed ms => exact H.setSpeed ms
      | execute code => exact .bind (keeps_executeWith hblock code) fun _ => .note _
      | event e => exact hrs e List.mem_cons_self

/-- A text may make the host ask for something. -/
theorem keeps_emit (text : Text) (mode : OutputMode) : C.Keeps (emit block text mode) := by
  intro w hw
  by_cases hlistening : w.host.listening = true
  · rw [emit_of_listening _ _ _ hlistening]
    have hheard : C.leads w (heard text mode w) := by
      cases mode <;> exact C.still rfl rfl rfl
    refine C.trans hheard (keeps_serveAll hblock H (fun e he => ?_) _ (C.applies_of hheard hw))
    exact H.events hw _ _ e he
  · rw [emit_of_deaf _ _ _ (by simpa using hlistening)]
    cases mode <;> exact C.still rfl rfl rfl

/-- A command keeps to a conduct if what it does on the canvas does. -/
theorem keeps_perform {c : Command} (hcanvas : ∀ {act}, c.Acts act → C.Keeps (onCanvas act))
    (args : List Value) : C.Keeps (perform block c args) := by
  have hemit : ∀ text mode, C.likeness.alike Eq (emit block text mode) (emit block text mode) :=
    fun text mode => (keeps_emit hblock H text mode).alike fun _ => rfl
  exact (H.likeness.perform (fun hact => (hcanvas hact).alike fun _ => rfl) hemit
    (fun ms => (Keeps.onPacer (Pacer.pause ms)).alike fun _ => rfl) args).1

end

/-! ## Programs -/

section

variable {does : Manner}
  (hdoes : ∀ {b : List Token → SessionM Flow}, (∀ ts, C.Keeps (b ts)) →
    ∀ c args, C.Keeps (does b c args))
include hdoes

/-- Commands that keep to a conduct make a likeness with the laws of manners. -/
theorem mannered : C.likeness.Mannered (fun _ => True) does does := fun hblock c args =>
  (hdoes (fun ts => (hblock (.refl ts) trivial).1) c args).alike fun _ => rfl

variable (H : C.Laws)
include H

/-- An expression keeps to a conduct. -/
theorem keeps_expression (patience depth : Nat) (ts : List Token) :
    C.Keeps (expressionWith does patience depth ts) := by
  have hdown : ∀ {j k : Nat}, j ≤ k → True → True := fun _ => id
  exact (H.likeness.expressionWith alike_throw hdown (fun _ => Iff.rfl) (mannered hdoes) patience
    depth (.refl ts) trivial).1

/-- Every program keeps to a conduct, if commands do. -/
theorem keeps_block (patience depth : Nat) (ts : List Token) :
    C.Keeps (blockWith does patience depth ts) := by
  have hdown : ∀ {j k : Nat}, j ≤ k → True → True := fun _ => id
  exact (H.likeness.blockWith alike_throw hdown (fun _ => Iff.rfl) (mannered hdoes) patience
    depth (.refl ts) trivial).1

/-- Every single statement keeps to a conduct, if commands do. -/
theorem keeps_statement (patience depth : Nat) (ts : List Token) :
    C.Keeps (statementWith (does (blockWith does patience depth))
      ⟨expressionWith does patience depth, blockWith does patience depth⟩ patience ts) := by
  have hdown : ∀ {j k : Nat}, j ≤ k → True → True := fun _ => id
  have hE : C.likeness.Blocks ts.length patience patience
      ⟨expressionWith does patience depth, blockWith does patience depth⟩
      ⟨expressionWith does patience depth, blockWith does patience depth⟩ :=
    H.likeness.blocks alike_throw (fun _ => Iff.rfl)
      (H.likeness.expressionWith alike_throw hdown (fun _ => Iff.rfl) (mannered hdoes) patience depth)
      (H.likeness.blockWith alike_throw hdown (fun _ => Iff.rfl) (mannered hdoes) patience depth)
      (fun _ _ => trivial) patience
  have hcommand : ∀ c args, C.likeness.alike Eq (does (blockWith does patience depth) c args)
      (does (blockWith does patience depth) c args) := by
    intro c args
    exact (hdoes (keeps_block hdoes H patience depth) c args).alike fun _ => rfl
  exact (H.likeness.statementWith hE hcommand (.refl ts) (Nat.le_refl _)).1

end

end

end Conduct

end Session

end TurtleLogo
