import TurtleLogo.Proofs.Manned

/-! # A turn of another turtle

    `ASK` gives the turtle back: however it ends, whoever was current when it was
    asked for is current again, under the name as it was spelled.  And a block
    that chooses no turtle itself, and does not clear the screen, has to do with
    the turtle that is asked alone: all others are afterwards as they were
    (`asked_returns`).

    * `Canvas.Minds` says of two canvases that the same turtle is current and all
      others are the same: all that turtles do, and looking on, minds them;
    * `blockAlone` runs a program in which the words that choose turtles or clear
      the screen fail; every such program minds the others (`minds_blockAlone`),
      so those do that run as if these words failed;
    * what comes after the block is that the turtle before is chosen again and
      marked, and it is marked already (`Underway.manned`). -/

namespace TurtleLogo

/-! ## The other turtles -/

namespace Scene

/-- The turtles that are not the one of a name. -/
def others (s : Scene Number) (who : Value) : List (Value × Turtle Number) :=
  s.turtles.filter fun p => !p.1.sameKey who

/-- A change of the current turtle is none of the others, where it is that of the
    name. -/
theorem others_mapTurtle (s : Scene Number) (f : Turtle Number → Turtle Number) {who : Value}
    (hwho : ∀ id : Value, id.sameKey s.current = true → id.sameKey who = true) :
    (s.mapTurtle f).others who = s.others who := by
  have hkeep : ∀ p ∈ s.others who,
      (p.1, if p.1.sameKey s.current then f p.2 else p.2) = p := by
    intro p hp
    have hother : p.1.sameKey who = false := by simpa using (List.mem_filter.1 hp).2
    have hself : ¬p.1.sameKey s.current = true := by
      intro hkey
      rw [hwho p.1 hkey] at hother
      cases hother
    rw [if_neg hself]
  rw [others, mapTurtle, List.filter_map]
  exact (List.map_congr_left hkeep).trans (List.map_id _)

/-- If the current turtle is one of the others, it is found among them. -/
theorem turtle?_eq_others {s : Scene Number} {who : Value}
    (hwho : s.current.sameKey who = false) :
    s.turtle? = ((s.others who).find? (·.1.sameKey s.current)).map (·.2) := by
  rw [turtle?, others, List.find?_filter]
  congr 2
  funext p
  cases hkey : p.1.sameKey s.current with
  | false => simp
  | true =>
      have hother : p.1.sameKey who = false := by
        refine Bool.eq_false_iff.2 fun hp => ?_
        rw [Value.sameKey_comm] at hkey
        rw [Value.sameKey_trans hkey hp] at hwho
        cases hwho
      simp [hother]

/-- Where the others are the same, so is a current turtle that is one of them. -/
theorem turtle?_congr {s t : Scene Number} {who : Value} (hcurrent : s.current = t.current)
    (hothers : s.others who = t.others who) (hwho : t.current.sameKey who = false) :
    s.turtle? = t.turtle? := by
  rw [turtle?_eq_others hwho, turtle?_eq_others (hcurrent ▸ hwho), hothers, hcurrent]

end Scene

namespace Canvas

/-- A turtle that is chosen is none of the others, even if it is new; if it is one
    of them, it must have been there. -/
theorem others_tell (c : Canvas Number) {id who : Value}
    (h : c.scene.hasTurtle (nameOf id) = true ∨ (nameOf id).sameKey who = true) :
    (endOf (tell id c)).scene.others who = c.scene.others who := by
  by_cases hlist : (nameOf id).isList = true
  · rw [tell_of_list hlist, endOf_error]
  · rw [tell_of_name (by simpa using hlist)]
    show (ite _ _ _ : List (Value × Turtle Number)).filter _ = _
    by_cases hold : c.scene.hasTurtle (nameOf id) = true
    · rw [if_pos hold, Scene.others]
    · have hwho := h.resolve_left hold
      rw [if_neg hold, List.filter_append, Scene.others]
      simp [hwho]

/-- The same turtle is current, and all others are the same. -/
structure Minds (c d : Canvas Number) : Prop where
  current : d.scene.current = c.scene.current
  others : d.scene.others c.scene.current = c.scene.others c.scene.current

/-- Turtles that are the same mind the others. -/
theorem Rests.minds {c d : Canvas Number} (h : c.Rests d) : c.Minds d :=
  ⟨h.2, by rw [Scene.others, Scene.others, h.1]⟩

theorem Minds.trans {c d e : Canvas Number} (h : c.Minds d) (h' : d.Minds e) : c.Minds e := by
  have hothers := h'.others
  rw [h.current] at hothers
  exact ⟨h'.current.trans h.current, hothers.trans h.others⟩

/-- What turtles do is up to the current one, and looking on does nothing to
    them. -/
theorem sights_minds : Sights Minds where
  refl _ := Rests.minds ⟨rfl, rfl⟩
  trans := .trans
  turtle s _ f _ := ⟨rfl, s.others_mapTurtle f fun _ => id⟩
  line _ _ _ _ _ _ _ := Rests.minds ⟨rfl, rfl⟩
  circle _ _ _ _ _ _ := Rests.minds ⟨rfl, rfl⟩
  arc _ _ _ _ _ _ _ _ _ _ _ _ _ _ := Rests.minds ⟨rfl, rfl⟩
  touch _ _ := Rests.minds ⟨rfl, rfl⟩
  mode _ _ _ := Rests.minds ⟨rfl, rfl⟩
  view _ _ _ := Rests.minds ⟨rfl, rfl⟩
  shown _ _ := Rests.minds ⟨rfl, rfl⟩
  surface _ _ _ := Rests.minds ⟨rfl, rfl⟩

end Canvas

namespace Session

open Canvas (Minds Within)

/-! ## Programs without a choice of turtles -/

/-- The conduct of what has to do with no turtle but the current one. -/
def minding : Conduct where
  applies _ := True
  leads w v := w.canvas.Minds v.canvas
  trans := .trans
  applies_of _ _ := trivial
  still hcanvas _ _ := Canvas.Rests.minds ⟨by rw [hcanvas], by rw [hcanvas]⟩
  defines _ _ _ := Canvas.Rests.minds ⟨rfl, rfl⟩

/-- What happens on the canvas minds the others if its parts do. -/
theorem minds_canvas {β : Type} {act : CanvasM Number β} (hact : Within Minds act) :
    minding.Keeps (onCanvas act) :=
  Conduct.keeps_onCanvas Canvas.sights_minds.toMoves (fun h _ => h) hact

/-- A change that leaves the turtles and who is current minds the others. -/
theorem minds_change {f : Scene Number → Scene Number} (hturtles : ∀ s, (f s).turtles = s.turtles)
    (hcurrent : ∀ s, (f s).current = s.current) : Within Minds (Canvas.change f) :=
  .change fun s _ => Canvas.Rests.minds ⟨hturtles s, hcurrent s⟩

/-- Minding the others is a conduct with the laws of brackets. -/
theorem laws_minding : minding.BracketLaws where
  filling := by
    intro β m hm
    have M := Canvas.sights_minds.toMoves
    have hbegin : Within Minds (Canvas.beginFill : CanvasM Number Unit) :=
      .bind M (Canvas.within_turtle M) fun _ => minds_change (fun _ => rfl) fun _ => rfl
    have hend : Within Minds (Canvas.endFill : CanvasM Number Unit) := by
      refine minds_change (fun s => ?_) fun s => ?_
      all_goals rw [Scene.endFill]; split <;> rfl
    have hcancel : Within Minds (Canvas.cancelFill : CanvasM Number Unit) :=
      minds_change (fun _ => rfl) fun _ => rfl
    exact .bind (minds_canvas hbegin) fun _ =>
      .wrapUp hm (minds_canvas hend) (minds_canvas hcancel)
  events := by
    intro w _ n text e _
    refine Conduct.keeps_handle (fun hact => minds_canvas ?_) e
    exact hact.within_sights Canvas.sights_minds fun path c => (Canvas.rests_savePicture path c).minds

/-- The manner of programs in which `TELL` and `CLEARSCREEN` fail. -/
def staying (f : Fault) : Manner := fun block c args =>
  if c = .tell ∨ c = .clearScreen then throw f else perform block c args

/-- Whether a statement is a turn of another turtle. -/
def asks : List Token → Bool
  | .word name :: _ => Form.ofName? name == some .ask
  | _ => false

/-- Runs the statement at the start of some tokens, where `ASK` fails and commands
    are done in a way of their own. -/
def statementAlone (f : Fault) (does : Command → List Value → SessionM Unit) (E : Engine)
    (patience : Nat) (ts : List Token) : SessionM Flow :=
  if asks ts then throw f else statementWith does E patience ts

mutual
/-- The value of an expression at a given depth, where the words fail that choose
    turtles or clear the screen. -/
def expressionAlone (f : Fault) (patience : Nat) : Nat → List Token → SessionM Reading
  | depth + 7, ts => sum ⟨expressionAlone f patience depth, blockAlone f patience depth⟩ ts
  | _, _ => throw .depthExceeded
/-- The run of a block at a given depth, where the words fail that choose turtles
    or clear the screen. -/
def blockAlone (f : Fault) (patience : Nat) : Nat → List Token → SessionM Flow
  | depth + 3, ts =>
      let E : Engine := ⟨expressionAlone f patience depth, blockAlone f patience depth⟩
      statements (statementAlone f (staying f E.block) E patience) ts.length ts
  | _, _ => throw .depthExceeded
end

/-- A command that does not choose a turtle minds the others. -/
theorem minds_staying (f : Fault) {block : List Token → SessionM Flow}
    (hblock : ∀ ts, minding.Keeps (block ts)) (c : Command) (args : List Value) :
    minding.Keeps (staying f block c args) := by
  by_cases hchoice : c = .tell ∨ c = .clearScreen
  · rw [staying, if_pos hchoice]
    exact .throw f
  · rw [staying, if_neg hchoice]
    refine Conduct.keeps_perform hblock laws_minding (fun hact => minds_canvas ?_) args
    have hshow : ∀ {m : CanvasM Number Unit}, Within Minds m → Within Minds (m >>= fun _ => Canvas.redraw) :=
      Canvas.within_redraw_after Canvas.sights_minds
    refine hact.within_moves Canvas.sights_minds.toMoves (fun color => ?_) ?_
    · exact hshow (minds_change (fun _ => rfl) fun _ => rfl)
    · rintro (hc | rfl | hc)
      · exact absurd (.inr hc) hchoice
      · cases hact
        exact hshow (minds_change (fun _ => rfl) fun _ => rfl)
      · exact absurd (.inl hc) hchoice

/-- The engine at a given depth, where the words fail that choose turtles or clear
    the screen. -/
abbrev engineAlone (f : Fault) (patience depth : Nat) : Engine :=
  ⟨expressionAlone f patience depth, blockAlone f patience depth⟩

/-- An expression that minds the others. -/
abbrev MindsExpression (E : Engine) : Prop :=
  ∀ {ts us}, TokensLike minding.likeness.spelled ts us → minding.likeness.alike
    (minding.likeness.Reads us.length) (E.expression ts) (E.expression us)

/-- A block that minds the others. -/
abbrev MindsBlock (E : Engine) : Prop :=
  ∀ {ts us}, TokensLike minding.likeness.spelled ts us → minding.likeness.alike
    (Flow.Like minding.likeness.spelled us.length) (E.block ts) (E.block us)

/-- Loops mind the others if their blocks do. -/
theorem minds_loops {E : Engine} (hexpression : MindsExpression E) (hblock : MindsBlock E)
    (n patience : Nat) : minding.likeness.Blocks n patience patience E E :=
  laws_minding.likeness.blocks Conduct.alike_throw (fun _ => Iff.rfl)
    (fun h _ => hexpression h) (fun h _ => hblock h) (fun _ _ => trivial) patience

/-- A statement minds the others, if the expressions and blocks in it do. -/
theorem minds_statementAlone (f : Fault) {E : Engine} (hexpression : MindsExpression E)
    (hblock : MindsBlock E) {does : Command → List Value → SessionM Unit}
    (hdoes : ∀ c args, minding.Keeps (does c args)) (patience : Nat) {ts us : List Token}
    (h : TokensLike minding.likeness.spelled ts us) :
    minding.likeness.alike (Flow.Like minding.likeness.spelled us.length)
      (statementAlone f does E patience ts) (statementAlone f does E patience us) := by
  obtain rfl := h.eq
  by_cases hasks : asks ts = true
  · rw [statementAlone, if_pos hasks]
    exact Conduct.alike_throw f
  · rw [statementAlone, if_neg hasks]
    refine laws_minding.likeness.statementWith_of (minds_loops hexpression hblock ts.length patience)
      (fun c args => (hdoes c args).alike fun _ => rfl) h (Nat.le_refl _) fun hts _ hform => ?_
    rw [hts, asks, hform] at hasks
    exact absurd rfl hasks

mutual
/-- Expressions mind the others, where the words fail that choose turtles. -/
theorem minds_expressionAlone (f : Fault) (patience : Nat) : ∀ depth : Nat,
    MindsExpression (engineAlone f patience depth)
  | depth + 7, ts, us, h => by
      have hE := minds_loops (minds_expressionAlone f patience depth)
        (minds_blockAlone f patience depth) us.length patience
      show minding.likeness.alike _ (expressionAlone f patience (depth + 7) ts)
        (expressionAlone f patience (depth + 7) us)
      rw [expressionAlone, expressionAlone]
      exact laws_minding.likeness.sum hE.toEngines h (Nat.le_refl _)
  | 0, _, _, _ | 1, _, _, _ | 2, _, _, _ | 3, _, _, _ | 4, _, _, _ | 5, _, _, _ | 6, _, _, _ =>
      Conduct.alike_throw _
/-- Blocks mind the others, where the words fail that choose turtles. -/
theorem minds_blockAlone (f : Fault) (patience : Nat) : ∀ depth : Nat,
    MindsBlock (engineAlone f patience depth)
  | depth + 3, ts, us, h => by
      have hblock : MindsBlock (engineAlone f patience depth) := minds_blockAlone f patience depth
      have hdoes := minds_staying f fun ts => (hblock (.refl ts)).1
      show minding.likeness.alike _ (blockAlone f patience (depth + 3) ts)
        (blockAlone f patience (depth + 3) us)
      rw [blockAlone, blockAlone, h.length_eq]
      exact laws_minding.likeness.statements (n := us.length) (fun h _ =>
        minds_statementAlone f (minds_expressionAlone f patience depth) hblock hdoes patience h)
        us.length h (Nat.le_refl _)
  | 0, _, _, _ | 1, _, _, _ | 2, _, _, _ => Conduct.alike_throw _
end

/-- Whatever procedures and loops a block runs, it minds the other turtles, where
    the words fail that choose turtles. -/
theorem keeps_blockAlone (f : Fault) (patience depth : Nat) (ts : List Token) :
    minding.Keeps (blockAlone f patience depth ts) :=
  (minds_blockAlone f patience depth (.refl ts)).1

/-! ## Choosing and marking -/

/-- Marking leaves who is current. -/
theorem current_markTurtle (w : World) :
    w.markTurtle.canvas.scene.current = w.canvas.scene.current :=
  (World.markTurtle_within Canvas.sights_minds.toMoves w).current

/-- Marking the current turtle is no matter of the others, if it is the one of the
    name or is marked already. -/
theorem others_markTurtle {w : World} {who : Value} (h : w.canvas.scene.current.sameKey who = true
      ∨ ∀ t, w.canvas.scene.turtle? = some t → t.Marked) :
    w.markTurtle.canvas.scene.others who = w.canvas.scene.others who := by
  obtain hself | hmarked := h
  · obtain hmark | ⟨f, j, hmark, -⟩ := w.markTurtle_cases
    · rw [hmark]
    · rw [hmark]
      exact w.canvas.scene.others_mapTurtle f fun _ hid => Value.sameKey_trans hid hself
  · rw [World.markTurtle_of_marked hmarked]

/-- A name that is no list names its own turtle. -/
theorem nameOf_of_name {id : Value} (h : id.isList = false) : Canvas.nameOf id = id := by
  cases id with
  | list vs => cases h
  | _ => rfl

/-- Whoever is chosen is current, under the name as it is spelled. -/
theorem current_tell {id : Value} (hname : (Canvas.nameOf id).isList = false) (w : World) :
    (endOf (onCanvas (Canvas.tell id) w)).canvas.scene.current = Canvas.nameOf id := by
  rw [endOf_onCanvas_eq, current_markTurtle, Canvas.tell_of_name hname]
  rfl

/-- Choosing a turtle is no matter of the others. -/
theorem others_chosen {who : Value} (hname : (Canvas.nameOf who).isList = false) (w : World) :
    (endOf (onCanvas (Canvas.tell who) w)).canvas.scene.others (Canvas.nameOf who)
      = w.canvas.scene.others (Canvas.nameOf who) := by
  have hself := Value.sameKey_self hname
  rw [endOf_onCanvas_eq, others_markTurtle (.inl _)]
  · exact Canvas.others_tell w.canvas (.inr hself)
  · rw [Canvas.tell_of_name hname]
    exact hself

/-- If the others are as they were when somebody was current, they still are when
    that turtle has been chosen again. -/
theorem others_back {w v : World} (hw : w.Manned) {who : Value}
    (h : v.canvas.scene.others who = w.canvas.scene.others who) :
    (endOf (onCanvas (Canvas.tell w.canvas.scene.current) v)).canvas.scene.others who
      = w.canvas.scene.others who := by
  have hname := nameOf_of_name hw.led.name
  have hled : (Canvas.nameOf w.canvas.scene.current).isList = false := by
    rw [hname]
    exact hw.led.name
  have htell := Canvas.tell_of_name hled
  rw [hname] at htell
  rw [endOf_onCanvas_eq]
  by_cases hself : w.canvas.scene.current.sameKey who = true
  · rw [others_markTurtle (.inl _)]
    · exact (Canvas.others_tell v.canvas (.inr (by rw [hname]; exact hself))).trans h
    · rw [htell]
      exact hself
  · -- the turtle is one of the others, so it is found as it was
    have hother : w.canvas.scene.current.sameKey who = false := by simpa using hself
    have hturtle : Scene.turtle? { v.canvas.scene with current := w.canvas.scene.current }
        = w.canvas.scene.turtle? :=
      Scene.turtle?_congr rfl (show v.canvas.scene.others who = _ from h) hother
    obtain ⟨t, ht⟩ := hw.led.turtle
    have hold : v.canvas.scene.hasTurtle w.canvas.scene.current = true := by
      obtain ⟨p, hp, -⟩ := Option.map_eq_some_iff.1 (hturtle.trans ht)
      have hkey := List.find?_some hp
      exact List.any_eq_true.2 ⟨p, List.mem_of_find?_eq_some hp, hkey⟩
    rw [others_markTurtle (.inr _)]
    · exact (Canvas.others_tell v.canvas (.inl (by rw [hname]; exact hold))).trans h
    · intro t ht
      rw [htell] at ht
      change Option.map _ (List.find? _ (if _ then _ else _)) = _ at ht
      rw [if_pos hold] at ht
      exact hw.marked (hturtle.symm.trans ht)

/-! ## `ASK` -/

/-- How a turn of another turtle ends: a list names nobody, and else the turtle
    before is chosen again after what has been done. -/
theorem endOf_asking {β : Type} (who : Value) (m : SessionM β) (w : World) :
    endOf (asking who m w) = w.markTurtle
      ∨ (Canvas.nameOf who).isList = false ∧ ∃ u, onCanvas (Canvas.tell who) w = .ok () u
        ∧ endOf (asking who m w)
          = endOf (onCanvas (Canvas.tell w.canvas.scene.current) (endOf (m u))) := by
  rw [asking_eq]
  by_cases hlist : (Canvas.nameOf who).isList = true
  · have htell : onCanvas (Canvas.tell who) w = .error .listAsTurtle w.markTurtle := by
      simp only [onCanvas, Canvas.tell_of_list hlist]
    rw [bind_of_error htell]
    exact .inl rfl
  · have hname : (Canvas.nameOf who).isList = false := by simpa using hlist
    obtain ⟨u, htell⟩ : ∃ u, onCanvas (Canvas.tell who) w = .ok () u := by
      rw [Canvas.tell_of_name hname]
      exact ⟨_, rfl⟩
    rw [bind_of_ok htell, endOf_wrapUp_same]
    exact .inr ⟨hname, u, htell, rfl⟩

/-- How `ASK` ends, once its first input has been evaluated: without a block at
    once, and else as the turn of the turtle does. -/
theorem endOf_askStatement {E : Engine} {ts rest : List Token} {who : Value} {w v : World}
    (hwho : E.expression ts w = .ok (who, rest) v) (patience : Nat) :
    endOf (statement E patience (.word "ASK" :: ts) w) = v
      ∨ ∃ body more, Token.block .askBody rest = .ok (body, more)
        ∧ endOf (statement E patience (.word "ASK" :: ts) w)
          = endOf (asking who (E.block body) v) := by
  have hask : statement E patience (.word "ASK" :: ts) = askForm E ts := rfl
  have hform : askForm E ts w = (blockAt .askBody rest >>= fun r =>
      asking who (E.block r.1) >>= fun flow => pure (continueWith flow r.2)) v :=
    bind_of_ok hwho
  rw [hask, hform, blockAt]
  cases hblock : Token.block .askBody rest with
  | error f => exact .inl rfl
  | ok r =>
      refine .inr ⟨r.1, r.2, rfl, ?_⟩
      show endOf ((asking who (E.block r.1) >>= fun flow => pure (continueWith flow r.2)) v) = _
      cases hturn : asking who (E.block r.1) v with
      | ok flow u =>
          rw [bind_of_ok hturn]
          rfl
      | error f u => rw [bind_of_error hturn]

/-- `ASK` gives the turtle back: however it ends, once its first input has been
    evaluated, the same turtle is current afterwards, under the name as it is
    spelled.  And where the block chooses no turtle and does not clear the screen,
    that is, where it runs as if the words for that failed, all turtles other than
    the one that is asked are as they were. -/
theorem asked_returns {surface : Surface Number} {w v : World} (h : Underway surface w)
    (limits : Limits) {ts rest : List Token} {who : Value}
    (hwho : (engine limits).expression ts w = .ok (who, rest) v) :
    (endOf (statement (engine limits) limits.patience (.word "ASK" :: ts) w)).canvas.scene.current
        = v.canvas.scene.current
      ∧ ∀ f, (∀ body more u, Token.block .askBody rest = .ok (body, more) →
          onCanvas (Canvas.tell who) v = .ok () u →
          blockAlone f limits.patience limits.depth body u = (engine limits).block body u) →
        (endOf (statement (engine limits) limits.patience (.word "ASK" :: ts) w)).canvas.scene.others
            (Canvas.nameOf who)
          = v.canvas.scene.others (Canvas.nameOf who) := by
  have hmanned : v.Manned := by
    have hunderway := (h.expression limits ts).manned
    rw [hwho] at hunderway
    exact hunderway
  have hname := nameOf_of_name hmanned.led.name
  obtain hend | ⟨body, more, hblock, hend⟩ := endOf_askStatement hwho limits.patience
  · rw [hend]
    exact ⟨rfl, fun _ _ => rfl⟩
  obtain hturn | ⟨hasked, u, htell, hturn⟩ := endOf_asking who ((engine limits).block body) v
  · -- nobody can be chosen, and whoever is current is marked already
    rw [hend, hturn, World.markTurtle_of_marked fun _ => hmanned.marked]
    exact ⟨rfl, fun _ _ => rfl⟩
  · rw [hend, hturn]
    refine ⟨?_, fun f halone => others_back hmanned ?_⟩
    · rw [current_tell (by rw [hname]; exact hmanned.led.name), hname]
    · have hu : endOf (onCanvas (Canvas.tell who) v) = u := by rw [htell, endOf_ok]
      have hcurrent := current_tell hasked v
      have hchosen := others_chosen hasked v
      rw [hu] at hcurrent hchosen
      -- the block minds all but the turtle that is asked
      have hminds := (keeps_blockAlone f limits.patience limits.depth body u trivial).others
      rw [halone body more u hblock htell, hcurrent] at hminds
      exact hminds.trans hchosen

/-- A block that walks chooses no turtle. -/
theorem alone_setX (f : Fault) : blockAlone f 5 40 [.word "SETX", .number (.int 30)]
    = blockAtDepth 5 40 [.word "SETX", .number (.int 30)] := by
  have halone : ∀ does : Command → List Value → SessionM Unit,
      statementAlone f does (engineAlone f 5 37) 5 [.word "SETX", .number (.int 30)]
        = does .setX [.number (.int 30)] >>= fun _ => pure (.done []) := fun _ => rfl
  have hplain : statement (engineAt 5 37) 5 [.word "SETX", .number (.int 30)]
      = perform (blockAtDepth 5 37) .setX [.number (.int 30)] >>= fun _ => pure (.done []) := rfl
  rw [blockAlone, blockAtDepth]
  simp only [statements, List.length, halone, hplain, bind_assoc, pure_bind]
  rfl

/-- A new turtle that is asked to walk. -/
theorem asked_returns_setX : ∃ w v, quietSession = .ok w
    ∧ v = endOf (statement (engine ⟨40, 5⟩) 5 [.word "ASK", .number (.int 1), .openBracket,
        .word "SETX", .number (.int 30), .closeBracket] w)
    ∧ v.canvas.scene.turtles.map (·.2.x) = [.int 0, .int 30]
    ∧ v.canvas.scene.current = w.canvas.scene.current
    ∧ v.canvas.scene.others (.ofInt 1) = w.canvas.scene.others (.ofInt 1) := by
  let block : List Token := [.openBracket, .word "SETX", .number (.int 30), .closeBracket]
  let asking : List Token := .word "ASK" :: .number (.int 1) :: block
  obtain ⟨w, hnew, hwalked⟩ := quietSession_of (P := fun w =>
    (endOf (statement (engine ⟨40, 5⟩) 5 asking w)).canvas.scene.turtles.map (·.2.x)
      == [Number.int 0, Number.int 30]) (by decide +kernel)
  have hwho : (engine ⟨40, 5⟩).expression (.number (.int 1) :: block) w
      = .ok (.ofInt 1, block) w := rfl
  obtain ⟨hcurrent, hothers⟩ := asked_returns (.new hnew) ⟨40, 5⟩ hwho
  refine ⟨w, _, hnew, rfl, by simpa using hwalked, hcurrent, hothers .busy ?_⟩
  intro body more u hblock _
  cases hblock
  exact congrFun (alone_setX .busy) u

end Session

end TurtleLogo
