import TurtleLogo.Proofs.Pairing
import TurtleLogo.Proofs.Sound

/-! # Turtles that go astray

    Where the turtle may go anywhere, a number that is not finite takes it along;
    nothing looks at the end of a straight move, of a turn or of an arc.
    `performChecked` does, and ends the run with a fault instead.

    * No program, and nothing else that a host does without a window, takes a
      quality from turtles that such checks guard (`Homely.call`).
    * So headings are always in normal form or undefined, and as long as the checks
      would have made no difference, all turtles are at finite places and their
      headings are in normal form (`sound_unless_astray`).
    * Otherwise a turtle may be lost (`turtle_astray`). -/

namespace TurtleLogo

namespace Canvas

/-- A check meets no limits that its action does not meet. -/
theorem unlimited_checked (kept : EdgeMode → Turtle Number → Bool) {act : CanvasM Number Unit}
    (h : Unlimited act) : Unlimited (checked kept act) := by
  intro c f d hd
  rw [checked] at hd
  split at hd
  · exact h c f d hd
  · cases hd
    rfl

/-- Checks that everything passes make no difference. -/
theorem checked_always {kept : EdgeMode → Turtle Number → Bool} (h : ∀ mode t, kept mode t = true)
    (act : CanvasM Number Unit) : checked kept act = act := by
  funext c
  refine if_pos ?_
  cases (endOf (act c)).scene.turtle? with
  | some t => exact h _ t
  | none => rfl

end Canvas

namespace World

/-- A number that is marked stands for what it stood for. -/
theorem remarked_mark (w : World) (n : Number) : n.Remarked (w.mark n).1 := by
  unfold mark
  split
  · exact .inr ⟨0, w.undefined + 1, rfl, rfl⟩
  · exact .inl rfl

/-- Marks are no quality of turtles. -/
theorem safe_markTurtle {ok : Number → Bool} {good : Turtle Number → Prop} (G : Guards ok good)
    {w : World} (h : w.canvas.Safe good) : w.markTurtle.canvas.Safe good := by
  rw [markTurtle]
  cases ht : w.canvas.scene.turtle? with
  | none => exact h
  | some t =>
      dsimp only
      split
      · obtain ⟨x, i, hx⟩ := mark_eq t.x w.undefined
        obtain ⟨y, j, hy⟩ := mark_eq t.y i
        obtain ⟨heading, k, hheading⟩ := mark_eq t.heading j
        have hmarked : ∀ {n m : Number} {v u : World}, v.mark n = (m, u) → n.Remarked m := by
          intro n m v u hm
          have hmark := remarked_mark v n
          rw [hm] at hmark
          exact hmark
        have hx := hx w rfl
        have hy := hy { w with undefined := i } rfl
        have hheading := hheading { w with undefined := j } rfl
        rw [hx]
        dsimp only
        rw [hy]
        dsimp only
        rw [hheading]
        refine h.mapTurtle fun t' ht' t'' _ => ?_
        exact G.look (hmarked hx) (hmarked hy) (hmarked hheading) (h.turtle ht)
      · exact h

end World

namespace Session

open Canvas (checked keptMoving keptTurning keptArcing)

/-! ## Commands with checks -/

/-- Does a command, but ends a motion with a fault that brings the turtle to a
    number that is not `ok`, where nothing else looks at it. -/
def performChecked (ok : Number → Bool) : Manner := fun block c args =>
  let a := args.getD 0 .nothing
  let b := args.getD 1 .nothing
  match c with
  | .forward => motion "FORWARD" (fun n => checked (keptMoving ok) (Canvas.forward n)) a
  | .back => motion "BACK" (fun n => checked (keptMoving ok) (Canvas.back n)) a
  | .left => motion "LEFT" (fun n => checked (keptTurning ok) (Canvas.left n)) a
  | .right => motion "RIGHT" (fun n => checked (keptTurning ok) (Canvas.right n)) a
  | .setX => motion "SETX" (fun n => checked (keptMoving ok) (Canvas.setX n)) a
  | .setY => motion "SETY" (fun n => checked (keptMoving ok) (Canvas.setY n)) a
  | .setHeading =>
      motion "SETHEADING" (fun n => checked (keptTurning ok) (Canvas.setHeading n)) a
  | .setPosition => do
      let (x, y) ← point a "SETPOS"
      onCanvas (checked (keptMoving ok) (Canvas.moveTo x y))
  | .arc => do
      let angle ← number a "ARC"
      let radius ← number b "ARC"
      onCanvas (checked (keptArcing ok) (Canvas.arc angle radius))
  | c => performWith block c a b

/-- Without checks that could fail, commands do what they always do. -/
theorem performChecked_always : performChecked (fun _ => true) = perform := by
  have hmoving : ∀ act, checked (keptMoving fun _ => true) act = act :=
    Canvas.checked_always fun mode _ => Bool.or_true _
  have hturning : ∀ act, checked (keptTurning fun _ => true) act = act :=
    Canvas.checked_always fun _ _ => rfl
  have harcing : ∀ act, checked (keptArcing fun _ => true) act = act :=
    Canvas.checked_always fun _ _ => rfl
  funext block c args
  cases c <;> simp only [performChecked, hmoving, hturning, harcing] <;> rfl

/-- A program is running for a host without a window, and its canvas is safe. -/
structure Keeping (good : Turtle Number → Prop) (w : World) : Prop where
  running : w.running = true
  windowless : w.host.Windowless
  canvas : w.canvas.Safe good

/-- The pairing of worlds with themselves in which turtles keep a quality. -/
def keeping (good : Turtle Number → Prop) : Pairing where
  spelled := Eq
  fits _ := True
  rel w v := w = v ∧ Keeping good v
  allowed _ := True
  draws act := ∀ c : Canvas Number, c.Safe good → (endOf (act c)).Safe good
  asks r := ∀ e, r ≠ .event e

section

variable {ok : Number → Bool} {good : Turtle Number → Prop} (G : Guards ok good)
include G

/-- What keeps a canvas safe does so in a session. -/
theorem safe_onCanvas {β : Type} {act : CanvasM Number β} {w : World}
    (h : (endOf (act w.canvas)).Safe good) : (endOf (onCanvas act w)).canvas.Safe good := by
  have hcanvas : (endOf (onCanvas act w)).canvas
      = (World.markTurtle { w with canvas := endOf (act w.canvas) }).canvas := by
    cases hact : act w.canvas <;> simp only [onCanvas, hact] <;> rfl
  rw [hcanvas]
  exact World.safe_markTurtle G h

/-- Worlds whose turtles have a quality are paired with themselves. -/
theorem diagonal_keeping : (keeping good).Diagonal (Keeping good) where
  spelled := rfl
  rel := .rfl
  allowed _ _ := trivial
  fits _ _ _ := trivial
  akin h hakin := by
    refine ⟨hakin.running.trans h.running, ?_, hakin.canvas ▸ h.canvas⟩
    rw [Host.Windowless, hakin.react]
    exact h.windowless
  names h _ := { h with }
  pacer h _ := { h with }
  canvas {_ _ v _ _} hact h hend := by
    have hsafe := safe_onCanvas G (hact v.canvas h.canvas)
    rw [hend] at hsafe
    exact ⟨h.running, h.windowless, hsafe⟩
  tell who c hc := (Canvas.upholds_tell G.new who c hc).1
  beginFill c hc := (Canvas.upholds_beginFill c hc).1
  endFill c hc := (Canvas.upholds_endFill c hc).1
  cancelFill c hc := (Canvas.upholds_cancelFill c hc).1
  window e he := absurd rfl (he e)
  asked h n text r hmem := h.windowless n text r hmem

/-- Whatever a host does without a window keeps the quality. -/
theorem hostLaws_keeping : (keeping good).HostLaws :=
  (diagonal_keeping G).hostLaws fun h => h.running

/-- Checked commands keep a quality that the checks guard. -/
theorem alike_performChecked (b d : List Token → SessionM Flow) (c : Command)
    (args : List Value) :
    (keeping good).likeness.alike Eq (performChecked ok b c args) (performChecked ok d c args) := by
  have H := hostLaws_keeping G
  have L := H.toFormLaws.likeness
  have hmotion : ∀ {who : Text} {move : Number → CanvasM Number Unit} {v : Value},
      (∀ n, Unlimited (move n)) → (∀ n, (keeping good).draws (move n)) →
      (keeping good).likeness.alike Eq (motion who move v) (motion who move v) :=
    fun hmove hdraws => L.next (L.number _ _) fun n => H.onCanvas (hmove n) (hdraws n)
  have hcanvas : ∀ {act : CanvasM Number Unit}, Unlimited act →
      Canvas.Upholds good act (fun _ => True) →
      (keeping good).likeness.alike Eq (onCanvas act) (onCanvas act) :=
    fun hact h => H.onCanvas hact fun c hc => (h c hc).1
  -- what is checked keeps the quality or is taken back
  have hchecked : ∀ {kept : EdgeMode → Turtle Number → Bool} {act : CanvasM Number Unit},
      Unlimited act → Canvas.Careful good kept act →
      (keeping good).likeness.alike Eq (onCanvas (Canvas.checked kept act))
        (onCanvas (Canvas.checked kept act)) :=
    fun hact h => H.onCanvas (Canvas.unlimited_checked _ hact) fun c hc => h.checked hc
  have hmove : ∀ {kept : EdgeMode → Turtle Number → Bool} {who : Text}
      {move : Number → CanvasM Number Unit} {v : Value},
      (∀ n, Unlimited (move n)) → (∀ n, Canvas.Careful good kept (move n)) →
      (keeping good).likeness.alike Eq (motion who (fun n => Canvas.checked kept (move n)) v)
        (motion who (fun n => Canvas.checked kept (move n)) v) :=
    fun hact h => L.next (L.number _ _) fun n => hchecked (hact n) (h n)
  cases c with
  | make =>
      exact L.next (L.variableName _ _) fun name =>
        L.names (fun _ _ h => h.set name _) fun t => t.procedures_set name _
  | makeLocal =>
      exact L.next (L.variableName _ _) fun name =>
        L.names (fun _ _ h => h.setLocal name _) fun t => t.procedures_setLocal name _
  | forward => exact hmove Canvas.unlimited_forward (Canvas.careful_forward G)
  | back =>
      exact hmove (fun n => Canvas.unlimited_forward n.neg) fun n => Canvas.careful_forward G n.neg
  | left => exact hmove Canvas.unlimited_left (Canvas.careful_left G)
  | right => exact hmove Canvas.unlimited_right (Canvas.careful_right G)
  | setX => exact hmove Canvas.unlimited_setX (Canvas.careful_setX G)
  | setY => exact hmove Canvas.unlimited_setY (Canvas.careful_setY G)
  | setHeading =>
      exact hmove Canvas.unlimited_setHeading fun n =>
        Canvas.careful_setHeading G n fun _ _ _ _ h => h
  | circle => exact hmotion Canvas.unlimited_circle fun n c hc => (Canvas.upholds_circle n c hc).1
  | setPosition =>
      exact L.next (L.point _ _) fun p => hchecked (Canvas.unlimited_moveTo p.1 p.2)
        (Canvas.careful_moveTo G p.1 p.2 fun _ => Canvas.and_of_kept)
  | arc =>
      exact L.next (L.number _ _) fun angle => L.next (L.number _ _) fun radius =>
        hchecked (Canvas.unlimited_arc angle radius) (Canvas.careful_arc G angle radius)
  | setPenSize =>
      exact hmotion (fun n => Canvas.unlimited_changeTurtle _)
        fun n c hc => (Canvas.upholds_changePen G _ c hc).1
  | setPenColor =>
      exact L.next (L.compute _) fun color => hcanvas (Canvas.unlimited_changeTurtle _)
        (Canvas.upholds_changePen G _)
  | setBackground =>
      exact L.next (L.compute _) fun color => hcanvas (Canvas.unlimited_setBackground color)
        (Canvas.upholds_setBackground color)
  | tell => exact hcanvas (Canvas.unlimited_tell _) (Canvas.upholds_tell G.new _)
  | wait => exact L.next (L.number _ _) fun ms => H.onPacer (Pacer.unlimited_pause ms) fun _ => .pause ms
  | home => exact hcanvas Canvas.unlimited_home (Canvas.upholds_home G)
  | penUp | penDown | penErase | penPaint =>
      exact hcanvas (Canvas.unlimited_changeTurtle _)
        (Canvas.upholds_dress G fun _ => ⟨rfl, rfl, rfl⟩)
  | clearScreen => exact hcanvas Canvas.unlimited_clearScreen (Canvas.upholds_clearScreen G.new)
  | clean => exact hcanvas Canvas.unlimited_clean Canvas.upholds_clean
  | hideTurtle | showTurtle =>
      exact hcanvas (Canvas.unlimited_setVisible _) (Canvas.upholds_setVisible G _)
  | wrapMode | windowMode | fenceMode =>
      exact hcanvas (Canvas.unlimited_setMode _) (Canvas.upholds_setMode _)
  | printValue | typeValue => exact L.next (L.text _) fun t => H.emit b d t _
  | showValue => exact L.next (L.compute _) fun t => H.emit b d t _

/-- Programs with checks keep a quality that the checks guard. -/
theorem alike_blockChecked (limits : Limits) (ts us : List Token) (h : TokensLike Eq ts us) :
    (keeping good).likeness.alike (Flow.Like Eq us.length)
      (blockWith (performChecked ok) limits.patience limits.depth ts)
      (blockWith (performChecked ok) limits.patience limits.depth us) := by
  have hdown : ∀ {j k : Nat}, j ≤ k → True → True := fun _ => id
  exact (hostLaws_keeping G).toFormLaws.likeness.blockWith
    (fun _ => Pairing.Laws.throw trivial) hdown (fun _ => Iff.rfl)
    (fun _ => alike_performChecked G _ _) limits.patience limits.depth h trivial

end

/-! ## Sessions -/

namespace HostCall

/-- A call that has nothing to do with a window, and evaluates nothing outside a
    run. -/
def Plays : HostCall → Prop
  | .evaluate _ _ => False
  | c => c.Windowless

/-- What a call does if the programs that it runs are checked. -/
def actChecked (ok : Number → Bool) (limits : Limits) : HostCall → SessionM Unit
  | .run code => runWith (blockWith (performChecked ok) limits.patience limits.depth) code
  | .execute code => do
      let _ ← executeWith (blockWith (performChecked ok) limits.patience limits.depth) code
  | c => c.act limits

/-- A check that is always passed makes no difference to a call. -/
theorem actChecked_always (limits : Limits) (c : HostCall) :
    c.actChecked (fun _ => true) limits = c.act limits := by
  have hblock : blockWith (performChecked fun _ => true) limits.patience limits.depth
      = (engine limits).block := by
    funext ts
    rw [performChecked_always]
    exact blockWith_perform limits.patience limits.depth ts
  cases c <;> simp only [actChecked, hblock] <;> rfl

end HostCall

/-- The host of a session is without a window, and its canvas is safe. -/
structure Homely (good : Turtle Number → Prop) (w : World) : Prop where
  windowless : w.host.Windowless
  canvas : w.canvas.Safe good

/-- A run from a homely world ends in one. -/
theorem between_homely (good : Turtle Number → Prop) :
    (keeping good).Between (fun w v => w = v ∧ Homely good v) (fun _ v => Homely good v) where
  running hr := congrArg World.running hr.1
  refused hr _ := hr.2
  started hr _ := ⟨by rw [hr.1], rfl, hr.2.windowless, hr.2.canvas⟩
  ended hr := ⟨hr.2.windowless, hr.2.canvas⟩
  told message hr := by
    rw [told]
    split
    · exact ⟨hr.windowless, hr.canvas⟩
    · exact hr

/-- Whatever a host does without a window, turtles keep a quality that checks
    guard, if its programs are checked. -/
theorem Homely.call {ok : Number → Bool} {good : Turtle Number → Prop} (G : Guards ok good)
    {w : World} (h : Homely good w) (limits : Limits) {c : HostCall} (hc : c.Plays) :
    Homely good (endOf (c.actChecked ok limits w)) := by
  have hcode := Token.matched_tokenize Eq
  have hblock := alike_blockChecked G limits
  have hr : w = w ∧ Homely good w := ⟨rfl, h⟩
  have hdraw : ∀ {u : World} {act : CanvasM Number Unit}, Homely good u →
      Canvas.Upholds good act (fun _ => True) → Homely good (endOf (onCanvas act u)) := by
    intro u act hu hact
    have hsafe := safe_onCanvas G (hact u.canvas hu.canvas).1
    obtain ⟨d, j, hd⟩ := endOf_onCanvas act u
    rw [hd] at hsafe ⊢
    exact ⟨hu.windowless, hsafe⟩
  cases c with
  | run code => exact ((between_homely good).runWith (hcode code) hblock hr).endOf
  | execute code =>
      have hend := ((between_homely good).executeWith (hcode code) hblock hr).endOf
      refine endOf_bind (R := fun _ v => Homely good v) (fun _ h => h) hend fun _ _ h => h
  | evaluate grammar source => exact hc.elim
  | reset =>
      have hstart : Homely good { w with store := .empty, printed := #[] } :=
        ⟨h.windowless, h.canvas⟩
      exact hdraw hstart (Canvas.upholds_reset G.new)
  | stop => exact ⟨h.windowless, h.canvas⟩
  | setSpeed ms =>
      show Homely good (endOf ((compute ms.trunc >>= _) w))
      cases ms.trunc with
      | ok n => exact ⟨h.windowless, h.canvas⟩
      | error f => exact h
  | setMode mode => exact hdraw h (Canvas.upholds_setMode mode)
  | event e => exact hc.elim
  | present => exact hdraw h Canvas.upholds_present
  | replaceHost k => exact ⟨hc, h.canvas⟩
  | replacePacer q => exact ⟨h.windowless, h.canvas⟩

/-- Where the turtles of a session are and how they face. -/
def poses (w : World) : List (Number × Number × Number) :=
  w.canvas.scene.turtles.map fun p => (p.2.x, p.2.y, p.2.heading)

/-- The worlds that programs lead to from a new session on a surface, however they
    end; if `careful`, each call has left the turtles where it would have left them
    with its programs checked for numbers that are not finite. -/
inductive Played (surface : Surface Number) (careful : Bool) : World → Prop where
  | new {pacer : Pacer} {host : Host} {w : World} (hhost : host.Windowless)
      (h : World.new surface pacer host = .ok w) : Played surface careful w
  | call {w : World} (h : Played surface careful w) (limits : Limits) {c : HostCall}
      (hc : c.Plays)
      (hcareful : careful = true → poses (endOf (c.act limits w))
        = poses (endOf (c.actChecked Number.isFinite limits w))) :
      Played surface careful (endOf (c.act limits w))

/-- A new session is homely. -/
theorem homely_new {ok : Number → Bool} {good : Turtle Number → Prop} (G : Guards ok good)
    {surface : Surface Number} (hsurface : surface.Ordinary) {pacer : Pacer} {host : Host}
    (hhost : host.Windowless) {w : World} (h : World.new surface pacer host = .ok w) :
    Homely good w := by
  obtain ⟨c, hc, hw⟩ := Except.bind_eq_ok h
  cases hw
  exact ⟨hhost, Canvas.safe_new G.new hsurface hc⟩

/-- A quality of turtles is one of their poses. -/
theorem Homely.of_poses {ok : Number → Bool} {good good' : Turtle Number → Prop}
    (G : Guards ok good) {w v : World} (hw : Homely good' w) (hv : Homely good v)
    (h : poses w = poses v) : Homely good w := by
  refine ⟨hw.windowless, fun p hp => ?_, hw.canvas.zoom, hw.canvas.surface⟩
  have hpose : (p.2.x, p.2.y, p.2.heading) ∈ poses v := h ▸ List.mem_map_of_mem hp
  obtain ⟨q, hq, hsame⟩ := List.mem_map.1 hpose
  obtain ⟨hx, hy, hheading⟩ : q.2.x = p.2.x ∧ q.2.y = p.2.y ∧ q.2.heading = p.2.heading := by
    simpa only [Prod.mk.injEq] using hsame
  exact G.look (.inl hx.symm) (.inl hy.symm) (.inl hheading.symm) (hv.canvas.turtles q hq)

section

variable {surface : Surface Number} {careful : Bool} {w : World}

/-- After any calls all headings are in normal form or undefined. -/
theorem Played.upright (hsurface : surface.Ordinary) (h : Played surface careful w) :
    Homely Turtle.Upright w := by
  induction h with
  | new hhost hnew => exact homely_new guards_upright hsurface hhost hnew
  | call _ limits hc _ ih =>
      rw [← HostCall.actChecked_always]
      exact ih.call guards_upright limits hc

/-- After calls in which the checks are made, all turtles are sound. -/
theorem Played.sound (hsurface : surface.Ordinary) (h : Played surface careful w)
    (hcareful : careful = true) : Homely Turtle.Sound w := by
  induction h with
  | new hhost hnew => exact homely_new guards_sound hsurface hhost hnew
  | call h limits hc hposes ih =>
      exact (Played.upright hsurface (h.call limits hc hposes)).of_poses guards_sound
        (ih.call guards_sound limits hc) (hposes hcareful)

/-- Whatever programs are run, and however they end, the heading of every turtle is
    in normal form or undefined; and as long as the checks would have made no
    difference to the turtles, every turtle is at a finite place and its heading is
    in normal form. -/
theorem sound_unless_astray (hsurface : surface.Ordinary) (h : Played surface careful w) :
    (∀ p ∈ w.canvas.scene.turtles, p.2.Upright)
      ∧ (careful = true → ∀ p ∈ w.canvas.scene.turtles, p.2.Sound) :=
  ⟨(h.upright hsurface).canvas.turtles, fun hcareful => (h.sound hsurface hcareful).canvas.turtles⟩

end

/-- A program that moves in all three modes, and turns. -/
theorem sound_unless_astray_walk : ∃ w, quietSession = .ok w
    ∧ Canvas.sheet.Ordinary
    ∧ Played Canvas.sheet true
      (endOf (HostCall.act ⟨60, 5⟩ (.execute "FD 700 RT 50 FENCE SETY 400 WINDOW ARC 90 5") w))
    ∧ ∀ p ∈ (endOf (HostCall.act ⟨60, 5⟩
        (.execute "FD 700 RT 50 FENCE SETY 400 WINDOW ARC 90 5") w)).canvas.scene.turtles,
      p.2.Sound := by
  obtain ⟨w, hnew, htried⟩ := quietSession_of (P := fun w =>
    let c := HostCall.execute "FD 700 RT 50 FENCE SETY 400 WINDOW ARC 90 5"
    poses (endOf (c.act ⟨60, 5⟩ w)) == poses (endOf (c.actChecked Number.isFinite ⟨60, 5⟩ w)))
    (by decide +kernel)
  have hsurface : Canvas.sheet.Ordinary := ⟨by decide +kernel, by decide +kernel⟩
  have hplayed : Played Canvas.sheet true w := .new (fun _ _ r hr => absurd hr List.not_mem_nil) hnew
  have hcall := hplayed.call ⟨60, 5⟩
    (c := .execute "FD 700 RT 50 FENCE SETY 400 WINDOW ARC 90 5") trivial
    fun _ => eq_of_beq htried
  exact ⟨w, hnew, hsurface, hcall, (sound_unless_astray hsurface hcall).2 rfl⟩

/-- Whether a program that ends well leaves a turtle at no place and with no
    heading. -/
def losesTurtle (code : Text) (w : World) : Bool :=
  match execute ⟨60, 5⟩ code w with
  | .ok true v => v.canvas.scene.turtles.any fun p =>
      !p.2.x.isFinite && !p.2.heading.lt (.int 360)
  | _ => false

/-- Where nothing stops a turtle, a word that reads as infinity takes it to no
    place, and turns it to no heading. -/
theorem turtle_astray : ∃ w v, quietSession = .ok w
    ∧ execute ⟨60, 5⟩ "WINDOW SETX \"inf RIGHT \"inf" w = .ok true v
    ∧ ∃ p ∈ v.canvas.scene.turtles, p.2.x.isFinite = false ∧ p.2.heading.lt (.int 360) = false := by
  obtain ⟨w, hnew, htried⟩ := quietSession_of (P := losesTurtle "WINDOW SETX \"inf RIGHT \"inf")
    (by decide +kernel)
  rw [losesTurtle] at htried
  split at htried
  · rename_i v hv
    obtain ⟨p, hp, hlost⟩ := List.any_eq_true.1 htried
    simp only [Bool.and_eq_true, Bool.not_eq_true'] at hlost
    exact ⟨w, v, hnew, hv, p, hp, hlost⟩
  · cases htried

end Session

end TurtleLogo
