import TurtleLogo.Proofs.Literal
import TurtleLogo.Proofs.Statement

/-! # Steady runs

    A program can open frames, fills and counts, nested in any way, and a run
    can end in many ways.  Whatever happens, a bracket is closed where it was
    opened.  `Steady` compares the world with that in which the innermost
    bracket was opened:

    * no frame is left open, and the names of callers are treated as
      `Store.Grows` says;
    * no fill is left open, and a sane canvas stays sane;
    * the count of `REPEAT` is what it was, outside of its own passes;
    * the world is that of a run which keeps a diary, the diary apart. -/

namespace TurtleLogo.Session

/-- A point to which a run comes back: the world in which a bracket was opened,
    and whether the count of `REPEAT` has to be what it was there. -/
structure Spot where
  start : World
  counted : Bool

/-- What a run, in `v`, keeps since a point, and how it compares with the run
    that keeps a diary, in `w`. -/
structure Steady (s : Spot) (w v : World) : Prop where
  agree : Agree w v
  react : w.host.react = v.host.react
  notes : plainNotes w = plainNotes v
  running : v.running = s.start.running
  grows : s.start.store.Grows v.store
  canvas : s.start.canvas.Follows v.canvas
  count : s.counted = true → v.store.repcount = s.start.store.repcount

/-- At a point nothing has happened since. -/
theorem Steady.here {w v : World} (hagree : Agree w v) (hreact : w.host.react = v.host.react)
    (hnotes : plainNotes w = plainNotes v) (counted : Bool) : Steady ⟨v, counted⟩ w v :=
  ⟨hagree, hreact, hnotes, rfl, .refl _, .refl _, fun _ => rfl⟩

/-- The tie of steady runs. -/
def steady : Tie where
  Place := Spot
  rel := Steady
  fails s f w v := Steady s w v ∧ ¬f.OfFrame
  lost _ := False
  cut _ _ _ := False
  agree h := h.agree
  lost_of_noted _ h := h
  cut_of_noted _ h := h

/-- Steady runs end in the same way. -/
theorem steady_cases {β : Type} {c : Bool} {s : Spot} {r r' : EStateM.Result Fault World β}
    (h : steady.Outcome c s r r') :
    (∃ a w v, r = .ok a w ∧ r' = .ok a v ∧ Steady s w v)
      ∨ ∃ f w v, r = .error f w ∧ r' = .error f v ∧ Steady s w v ∧ ¬f.OfFrame := by
  cases h with
  | lost hl => exact hl.elim
  | ok hr => exact Or.inl ⟨_, _, _, rfl, rfl, hr⟩
  | error hf => exact Or.inr ⟨_, _, _, rfl, rfl, hf⟩
  | cut _ hc => exact hc.elim

/-! ## Changes of the world -/

namespace Steady

variable {s : Spot} {w v : World}

/-- What a diary notes does not show. -/
theorem note_left {n : Notice} (h : Steady s w v) (hn : isPlain n = false) :
    Steady s (noted n w) v := by
  refine { h with agree := { h.agree with }, notes := ?_ }
  rw [plainNotes_noted, hn]
  simpa using h.notes

/-- A note in the diary leaves runs steady. -/
theorem note (h : Steady s w v) (n : Notice) : Steady s (noted n w) (noted n v) := by
  refine { h with agree := { h.agree with }, notes := ?_ }
  rw [plainNotes_noted, plainNotes_noted, h.notes]

/-- What happens aside leaves runs steady. -/
theorem aside (h : Steady s w v) (a : Aside) : Steady s (a.apply w) (a.apply v) := by
  have hnotes : plainNotes (a.apply w) = plainNotes (a.apply v) := by
    simp only [plainNotes, a.notices_apply, List.filter_append]
    exact congrArg (· ++ a.notes.filter isPlain) h.notes
  have hagree := h.agree.aside a
  cases a <;> exact { h with agree := hagree, notes := hnotes }

/-- Drawing that follows from the canvas leaves runs steady. -/
theorem draw {c : Canvas Number} (h : Steady s w v) (hc : v.canvas.Follows c) (n : Nat) :
    Steady s { w with canvas := c, undefined := n } { v with canvas := c, undefined := n } :=
  { h with
    agree := { h.agree with canvas := rfl, undefined := rfl }
    canvas := h.canvas.trans hc }

/-- What happens in a frame is steady when the frame has been closed. -/
theorem pop {w' v' : World} {f : Frame} (h : Steady s w v)
    (h' : Steady ⟨{ v with store := v.store.push f }, true⟩ w' v') :
    Steady s { w' with store := w'.store.pop } { v' with store := v'.store.pop } where
  agree := { h'.agree with store := congrArg Store.pop h'.agree.store }
  react := h'.react
  notes := h'.notes
  running := h'.running.trans h.running
  grows := h.grows.trans (.of_push h'.grows)
  canvas := h.canvas.trans h'.canvas
  count hs := (h'.count rfl).trans (h.count hs)

end Steady

/-! ## Programs that the host asks for -/

/-- What a program does is steady when the program has ended. -/
theorem Steady.ended {s : Spot} {w v w' v' : World} (h : Steady s w v) (hidle : v.running = false)
    (h' : Steady ⟨started v, true⟩ w' v') : Steady s (ended w') (ended v') where
  agree := { h'.agree with running := rfl }
  react := h'.react
  notes := h'.notes
  running := hidle.symm.trans h.running
  grows := h.grows.trans h'.grows
  canvas := h.canvas.trans h'.canvas
  count hs := (h'.count rfl).trans (h.count hs)

/-- A program that starts is steady from its own start on. -/
theorem Steady.started {s : Spot} {w v : World} (h : Steady s w v) :
    Steady ⟨started v, true⟩ (started w) (started v) := by
  have hagree : Agree (Session.started w) (Session.started v) := { h.agree with
    running := rfl, printed := rfl, pacer := congrArg Pacer.clear h.agree.pacer }
  exact .here hagree h.react h.notes true

/-- A fault that is told leaves runs steady. -/
theorem Steady.told {s : Spot} {w v : World} (h : Steady s w v) (message : Text) :
    Steady s (told message w) (told message v) := by
  rw [Session.told, Session.told, h.agree.listening]
  split
  · exact h.note (.error message)
  · exact h

/-- A run is steady if its blocks are. -/
theorem steady_runWith {b d : List Token → SessionM Flow}
    (hb : ∀ (q : Spot) ts, Runs (T := steady) q (b ts) (d ts)) (code : Text) (s : Spot) :
    InStep (T := steady) s (runWith b code) (runWith d code) := by
  refine ⟨fun {w v} h => ?_, logs_runWith (fun ts => (hb s ts).logs) code⟩
  by_cases hrun : v.running = true
  · rw [runWith_of_running hrun, runWith_of_running (h.agree.running.trans hrun)]
    exact .error ⟨h, by simp [Fault.OfFrame]⟩
  · have hidle : v.running = false := by simpa using hrun
    have hidle' := h.agree.running.trans hidle
    cases hcode : Token.tokenize code with
    | error f =>
        obtain ⟨neg, ds, rfl, -⟩ := Token.tokenize_error hcode
        rw [runWith_of_unreadable hidle hcode, runWith_of_unreadable hidle' hcode]
        exact .error ⟨h.ended hidle h.started, by simp [Fault.OfFrame]⟩
    | ok ts =>
        have hblock := (hb ⟨started v, true⟩ ts).run h.started
        rcases steady_cases hblock with ⟨flow, w', v', hw, hv, h'⟩ | ⟨f, w', v', hw, hv, h', hf⟩
        · rw [runWith_ok hidle hcode hv, runWith_ok hidle' hcode hw]
          exact .ok (h.ended hidle h')
        · rw [runWith_error hidle hcode hv, runWith_error hidle' hcode hw]
          exact .error ⟨h.ended hidle h', Fault.not_ofFrame_friendly hf⟩

/-- Executing a program is steady if its blocks are. -/
theorem steady_executeWith {b d : List Token → SessionM Flow}
    (hb : ∀ (q : Spot) ts, Runs (T := steady) q (b ts) (d ts)) (code : Text) (s : Spot) :
    InStep (T := steady) s (executeWith b code) (executeWith d code) := by
  refine ⟨fun {w v} h => ?_, logs_executeWith (fun ts => (hb s ts).logs) code⟩
  rcases steady_cases ((steady_runWith hb code s).run h) with
    ⟨_, w', v', hw, hv, h'⟩ | ⟨f, w', v', hw, hv, h', hf⟩
  · rw [executeWith_ok hw, executeWith_ok hv]
    exact .ok h'
  · by_cases hfriendly : f.isFriendly = true
    · rw [executeWith_friendly hw hfriendly, executeWith_friendly hv hfriendly]
      exact .ok (h'.told f.message)
    · rw [executeWith_unfriendly hw (by simpa using hfriendly),
        executeWith_unfriendly hv (by simpa using hfriendly)]
      exact .error ⟨h', hf⟩

/-- A program that the host asks for is steady if its blocks are. -/
theorem steady_serve_execute {b d : List Token → SessionM Flow}
    (hb : ∀ (q : Spot) ts, Runs (T := steady) q (b ts) (d ts)) (s : Spot) (code : Text) :
    InStep (T := steady) s (serve b (.execute code)) (serve d (.execute code)) :=
  .bind (steady_executeWith hb code s) fun ok =>
    ⟨fun h => .ok (Steady.note h (.nested ok)), logs_note _⟩

/-! ## All programs -/

/-- What is steady in its frame is steady outside. -/
theorem steady_frame {c : Bool} (s : Spot) (f : Frame) {β : Type} {m n : SessionM β}
    (hm : ∀ q : Spot, Steps (T := steady) c q m n) :
    Steps (T := steady) c s (inFrame f m) (inFrame f n) := by
  refine .inFrame hm fun {w v} h => ?_
  have hlength : ∀ {w' v'}, Steady ⟨{ v with store := v.store.push f }, true⟩ w' v' →
      w'.store.locals.length = v.store.locals.length + 1 := by
    intro w' v' h'
    rw [h'.agree.store]
    exact h'.grows.length
  refine ⟨⟨{ v with store := v.store.push f }, true⟩, ?_, ?_⟩
  · have hagree : Agree { w with store := w.store.push f } { v with store := v.store.push f } :=
      { h.agree with store := congrArg (·.push f) h.agree.store }
    exact .here hagree h.react h.notes true
  · refine ⟨fun h' => ?_, fun ⟨h', hf⟩ => Or.inl ?_, False.elim, logs_closeFrame _,
      logs_closeFrame _⟩
    · rw [closeFrame_eq (hlength h'), closeFrame_eq h'.grows.length]
      exact .ok (h.pop h')
    · exact ⟨_, _, closeFrame_eq (hlength h'), closeFrame_eq h'.grows.length, h.pop h', hf⟩

/-- Drawing is steady. -/
theorem steady_scene : SceneLaws steady where
  fault _ n h hc hf := ⟨Steady.draw h hc n, hf.not_ofFrame⟩
  aside _ a := ⟨fun h => Steady.aside h a, a.noted⟩
  frame := steady_frame
  canvas _ n h hc := Steady.draw h hc n

/-- Choosing a turtle, or failing to. -/
theorem steady_choose (s : Spot) (who : Value) :
    InStep (T := steady) s (onCanvas (Canvas.tell who)) (onCanvas (Canvas.tell who)) := by
  by_cases hlist : (Canvas.nameOf who).isList = true
  · refine steady_scene.onCanvas_of (fun e => ?_) fun d j h hv hd => ?_
    · rw [Canvas.tell_of_list hlist]
      exact .refl e
    · rw [Canvas.tell_of_list hlist] at hv
      cases hv
      exact ⟨Steady.draw h hd j, by simp [Fault.OfFrame]⟩
  · exact steady_scene.onCanvas (Canvas.proper_tell (by simpa using hlist))

/-- Speaking to another turtle is steady. -/
theorem steady_tell (s : Spot) (who : Value) :
    InStep (T := steady) s (noteTell who) (onCanvas (Canvas.tell who)) :=
  ⟨fun h => (steady_choose s who).run (Steady.note_left h rfl), logs_noteTell who⟩

/-- A turn of another turtle is steady if its block is. -/
theorem steady_asking (s : Spot) (who : Value) {m n : SessionM Flow}
    (hm : ∀ q : Spot, Runs (T := steady) q m n) :
    Runs (T := steady) s (noteAsking who m) (asking who n) := by
  refine .asking (hm s) (steady_tell s who) fun {w v} _ => ?_
  have hback := steady_choose s v.canvas.scene.current
  refine ⟨fun h' => hback.run h', fun ⟨h', hf⟩ => ?_, False.elim, hback.logs, hback.logs⟩
  rcases steady_cases (hback.run h') with ⟨_, w', v', hw, hv, hs⟩ | ⟨g, w', v', hw, hv, hs, hg⟩
  · exact Or.inl ⟨w', v', hw, hv, hs, hf⟩
  · exact Or.inr ⟨g, w', v', hw, hv, hs, hg⟩

/-- What happens in a fill is steady when the fill is over. -/
theorem Steady.closeFill {s : Spot} {w v w' v' : World} {t : Turtle Number} {d : Canvas Number}
    {j : Nat} {g : Scene Number → Scene Number} (h : Steady s w v)
    (hbegin : Canvas.Follows { v.canvas with scene := v.canvas.scene.beginFill t } d)
    (h' : Steady ⟨{ v with canvas := d, undefined := j }, true⟩ w' v') (hg : Canvas.Mild g)
    (hend : ∀ sc, (g sc).fills.length = sc.fills.length - 1) :
    ∃ w'' v'', onCanvas (Canvas.change g) w' = .ok () w'' ∧
      onCanvas (Canvas.change g) v' = .ok () v'' ∧ Steady s w'' v'' := by
  obtain ⟨e, k, he, hclose⟩ := onCanvas_eq (Canvas.change g) v'.canvas v'.undefined
  have hcanvas : v.canvas.Follows e :=
    (Canvas.Follows.of_fill (hbegin.trans h'.canvas) hg hend).trans he
  refine ⟨_, _, (hclose w' h'.agree.canvas h'.agree.undefined).1 () _ rfl,
    (hclose v' rfl rfl).1 () _ rfl, ?_⟩
  exact {
    agree := { h'.agree with canvas := rfl, undefined := rfl }
    react := h'.react
    notes := h'.notes
    running := h'.running.trans h.running
    grows := h.grows.trans h'.grows
    canvas := h.canvas.trans hcanvas
    count := fun hs => (h'.count rfl).trans (h.count hs) }

/-- A fill is steady if its block is. -/
theorem steady_filling (s : Spot) {m n : SessionM Flow}
    (hm : ∀ q : Spot, Runs (T := steady) q m n) :
    Runs (T := steady) s (filling m) (filling n) := by
  refine .filling hm fun {w v} h => ?_
  obtain ⟨d, j, hd, hopen⟩ := onCanvas_eq Canvas.beginFill v.canvas v.undefined
  obtain ⟨hwok, hwerror⟩ := hopen w h.agree.canvas h.agree.undefined
  obtain ⟨hvok, hverror⟩ := hopen v rfl rfl
  rcases v.canvas.beginFill_cases with ⟨t, ht⟩ | ⟨f, hf, hmeets⟩
  · rw [ht] at hd
    refine Or.inl ⟨⟨{ v with canvas := d, undefined := j }, true⟩, _, _, hwok _ _ ht, hvok _ _ ht,
      ?_, ?_⟩
    · have hagree : Agree { w with canvas := d, undefined := j }
          { v with canvas := d, undefined := j } :=
        { h.agree with canvas := rfl, undefined := rfl }
      exact .here hagree h.react h.notes true
    · refine ⟨fun h' => ?_, fun ⟨h', hf⟩ => Or.inl ?_, False.elim, logs_onCanvas _, logs_onCanvas _⟩
      · obtain ⟨w'', v'', hw, hv, hs⟩ :=
          h.closeFill hd h' Canvas.mild_endFill Canvas.length_fills_endFill
        rw [Canvas.endFill, hw, hv]
        exact .ok hs
      · obtain ⟨w'', v'', hw, hv, hs⟩ :=
          h.closeFill hd h' Canvas.mild_cancelFill fun sc => List.length_tail
        exact ⟨w'', v'', hw, hv, hs, hf⟩
  · rw [hf] at hd
    exact Or.inr ⟨f, _, _, hwerror _ _ hf, hverror _ _ hf, Steady.draw h hd j, hmeets.not_ofFrame⟩

/-- What is steady in a count is steady outside. -/
theorem steady_counting (s : Spot) {m n : SessionM (Option Signal)}
    (hm : ∀ q : Spot,
      (∀ k, steady.Keeps q fun w => { w with store := { w.store with repcount := some k } }) →
      Runs (T := steady) q m n) :
    Runs (T := steady) s (counting m) (counting n) := by
  have hkeep : ∀ (v : World) k, steady.Keeps (⟨v, false⟩ : Spot)
      fun w => { w with store := { w.store with repcount := some k } } := by
    intro v k
    refine ⟨fun {w u} h => ?_, fun w => .refl w⟩
    have hstore : w.store = u.store := h.agree.store
    exact {
      h with
      agree := { h.agree with store := by rw [hstore] }
      grows := h.grows.trans (.of_eq rfl rfl)
      count := fun hs => by cases hs }
  refine .counting hm (hm ⟨s.start, false⟩ (hkeep _)).logs fun {w v} h => ?_
  refine ⟨⟨v, false⟩, ?_, hkeep v, ?_⟩
  · exact .here h.agree h.react h.notes false
  · have hclose : ∀ {w' v'}, Steady ⟨v, false⟩ w' v' →
        Steady s { w' with store := { w'.store with repcount := v.store.repcount } }
          { v' with store := { v'.store with repcount := v.store.repcount } } := by
      intro w' v' h'
      exact {
        agree := { h'.agree with store := by rw [h'.agree.store] }
        react := h'.react
        notes := h'.notes
        running := h'.running.trans h.running
        grows := (h.grows.trans h'.grows).trans (.of_eq rfl rfl)
        canvas := h.canvas.trans h'.canvas
        count := h.count }
    exact ⟨fun h' => .ok (hclose h'), fun ⟨h', hf⟩ => Or.inl ⟨_, _, rfl, rfl, hclose h', hf⟩,
      False.elim, fun w => .refl w, fun w => .refl w⟩

/-- A text that is said is steady if the programs are that the host asks for. -/
theorem steady_emit (s : Spot) {b d : List Token → SessionM Flow}
    (hb : ∀ (q : Spot) ts, Runs (T := steady) q (b ts) (d ts)) (text : Text) (mode : OutputMode) :
    Runs (T := steady) s (noteEmit b text mode) (emit d text mode) := by
  have hprinted : ∀ {w v} text mode, Steady s w v →
      Steady s (printed text mode w) (printed text mode v) := by
    intro w v text mode h
    have hagree := agree_printed h.agree text mode
    cases mode <;> exact { h with agree := hagree }
  have hheard : ∀ {w v} text mode, Steady s w v →
      Steady s (heard text mode w) (heard text mode v) := by
    intro w v text mode h
    exact { (hprinted text mode h).note (.output text mode) with
      agree := agree_heard h.agree text mode }
  have hemit : InStep (T := steady) s (emit b text mode) (emit d text mode) :=
    steady_scene.emit (fun h => h.react) hprinted hheard (steady_serve_execute hb s) text mode
  refine .noteEmit hemit.weaken fun ⟨h, hf⟩ => .error ⟨Steady.note_left h rfl, hf⟩

/-- A call is steady if its body is. -/
theorem steady_call (s : Spot) {m n : SessionM Flow} (hm : ∀ q : Spot, Runs (T := steady) q m n) :
    InStep (T := steady) s (inCall m) n :=
  .inCall hm fun h => ⟨s, h.note_left rfl, fun h' => Steady.note_left h' rfl,
    fun ⟨h', hf⟩ => ⟨h'.note_left rfl, hf⟩, fun hc => hc⟩

/-- Every program is steady. -/
theorem steady_laws : StatementLaws steady where
  toSceneLaws := steady_scene
  patience h := ⟨h, by simp [Fault.OfFrame]⟩
  cancelled h := h.elim
  names s {g} hgrows hcount := by
    refine ⟨fun {w v} h => ?_, fun w => .refl w⟩
    have hstore : w.store = v.store := h.agree.store
    exact {
      h with
      agree := { h.agree with store := by rw [hstore] }
      grows := h.grows.trans (hgrows v.store)
      count := fun hs => (hcount v.store).trans (h.count hs) }
  tell := steady_tell
  emit := steady_emit
  call := steady_call
  counting := steady_counting
  filling := steady_filling
  asking := steady_asking

/-! ## Endings -/

/-- What a steady computation keeps, however it ends. -/
theorem steady_end {β : Type} {c : Bool} {m n : SessionM β} {w : World}
    (hm : Steps (T := steady) c (⟨w, true⟩ : Spot) m n) :
    ∃ u, Steady ⟨w, true⟩ u (endOf (n w)) ∧ ∀ f v, n w = .error f v → ¬f.OfFrame := by
  have hstart : Steady ⟨w, true⟩ w w := .here (.refl w) rfl rfl true
  rcases steady_cases (hm.run hstart) with ⟨a, u, v, -, hv, h⟩ | ⟨f, u, v, -, hv, h, hf⟩
  · refine ⟨u, by rw [hv]; exact h, fun f v' hv' => ?_⟩
    rw [hv] at hv'
    cases hv'
  · refine ⟨u, by rw [hv]; exact h, fun g v' hv' => ?_⟩
    rw [hv] at hv'
    cases hv'
    exact hf

/-- A run that comes to an end within its allowance of passes. -/
def Ends (limits : Limits) (code : Text) (w : World) : Prop :=
  ∀ u, run limits code w ≠ .error .outOfPatience u

/-- The diary of a program that can be read. -/
theorem diary_eq {limits : Limits} {code : Text} {w : World} {ts : List Token} {ns : List Notice}
    (hidle : w.running = false) (hcode : Token.tokenize code = .ok ts)
    (hns : (endOf (diaryBlockAt limits.patience limits.depth ts (started w))).host.notices.toList
      = w.host.notices.toList ++ ns) : diary limits code w = ns := by
  have hend : (endOf (runWith (diaryBlockAt limits.patience limits.depth) code
      w)).host.notices.toList = w.host.notices.toList ++ ns := by
    rw [endOf_runWith hidle hcode]
    exact hns
  rw [diary, notesSince, hend, ← Array.length_toList, List.drop_left]

/-- A run that keeps a diary does all that a plain run does. -/
theorem run_of_diary (limits : Limits) (code : Text) (w : World) :
    (∃ u v, runWith (diaryBlockAt limits.patience limits.depth) code w = .ok () u ∧
        run limits code w = .ok () v ∧ Steady ⟨w, true⟩ u v)
      ∨ ∃ f u v, runWith (diaryBlockAt limits.patience limits.depth) code w = .error f u ∧
        run limits code w = .error f v ∧ Steady ⟨w, true⟩ u v := by
  have hblock := steady_laws.block limits.patience limits.depth
  have hstart : Steady ⟨w, true⟩ w w := .here (.refl w) rfl rfl true
  rcases steady_cases ((steady_runWith hblock code ⟨w, true⟩).run hstart) with
    ⟨_, u, v, hu, hv, h⟩ | ⟨f, u, v, hu, hv, h, -⟩
  · exact Or.inl ⟨u, v, hu, hv, h⟩
  · exact Or.inr ⟨f, u, v, hu, hv, h⟩

end TurtleLogo.Session
