import TurtleLogo.Proofs.Expression

/-! # What happens between a run and its host

    The pauses of a run, its drawing, and the reactions of the host to what it
    says.  All of that goes on in step under `SceneLaws`, which say that a tie
    does not care about the canvas beyond what every proper action keeps.  A
    program that the host asks for while one is running is refused. -/

namespace TurtleLogo

/-! ## Pauses -/

namespace Pacer

/-- A look never fails. -/
theorem look_eq (q : Pacer) : ∃ b q', look q = .ok b q' := by
  rw [look, get_bind]
  by_cases h : q.cancelled = true
  · rw [if_pos h]; exact ⟨_, _, rfl⟩
  · rw [if_neg h]; exact ⟨_, _, rfl⟩

/-- A look at a pacer that is cancelled finds that out and changes nothing. -/
theorem look_of_cancelled {q : Pacer} (h : q.cancelled = true) : look q = .ok true q := by
  rw [look, get_bind, if_pos h]
  rfl

/-- A pause that fails fails tamely. -/
theorem tame_pause {ms : Number} {q q' : Pacer} {f : Fault} (h : pause ms q = .error f q') :
    f.Tame := by
  rw [pause] at h
  by_cases hms : ms.le (.int 0) = true
  · rw [if_pos hms] at h; cases h
  · rw [if_neg hms] at h
    obtain ⟨b, r, hlook⟩ := look_eq q
    rw [bind_of_ok hlook] at h
    cases b with
    | true => cases h
    | false =>
        simp only [Bool.false_eq_true, if_false] at h
        rw [get_bind] at h
        have husual : Usual (ms.div (.int 1000)) := Number.usual_div rfl
        cases hd : ms.div (.int 1000) with
        | error e =>
            rw [hd] at h husual
            cases h
            cases e with
            | zeroDivisor => exact absurd rfl husual
            | tooBig => rfl
            | notUsable => rfl
        | ok seconds =>
            rw [hd, bind_of_ok (rfl : compute (.ok seconds) r = .ok seconds r)] at h
            by_cases hlong : r.tooLong seconds = true
            · rw [if_pos hlong] at h
              cases h
              rfl
            · rw [if_neg hlong] at h
              cases h

/-- There are no pauses once a pacer is cancelled. -/
theorem pause_of_cancelled {q : Pacer} (h : q.cancelled = true) (ms : Number) :
    pause ms q = .ok () q := by
  rw [pause]
  by_cases hms : ms.le (.int 0) = true
  · rw [if_pos hms]; rfl
  · rw [if_neg hms, bind_of_ok (look_of_cancelled h)]; rfl

/-- A checkpoint that fails fails tamely. -/
theorem tame_checkpoint {q q' : Pacer} {f : Fault} (h : checkpoint q = .error f q') : f.Tame := by
  rw [checkpoint, get_bind] at h
  by_cases hs : Number.lt (.int 0) q.speed = true
  · rw [if_pos hs] at h; exact tame_pause h
  · rw [if_neg hs] at h; cases h

/-- A checkpoint does nothing once a pacer is cancelled. -/
theorem checkpoint_of_cancelled {q : Pacer} (h : q.cancelled = true) :
    checkpoint q = .ok () q := by
  rw [checkpoint, get_bind]
  by_cases hs : Number.lt (.int 0) q.speed = true
  · rw [if_pos hs]; exact pause_of_cancelled h _
  · rw [if_neg hs]; rfl

end Pacer

/-! ## Marks -/

namespace World

/-- What marking a number does depends only on how many have been marked. -/
theorem mark_eq (n : Number) (k : Nat) :
    ∃ m j, ∀ w : World, w.undefined = k → w.mark n = (m, { w with undefined := j }) := by
  by_cases hn : n = .real (.nan 0)
  · subst hn
    refine ⟨.real (.nan (k + 1)), k + 1, fun w hw => ?_⟩
    subst hw
    rfl
  · refine ⟨n, k, fun w hw => ?_⟩
    subst hw
    unfold mark
    split
    · exact absurd rfl hn
    · rfl

/-- What marking the current turtle does depends only on the canvas and on how
    many numbers have been marked. -/
theorem markTurtle_eq (c : Canvas Number) (k : Nat) :
    ∃ d j, c.Follows d ∧ ∀ w : World, w.canvas = c → w.undefined = k →
      w.markTurtle = { w with canvas := d, undefined := j } := by
  cases ht : c.scene.turtle? with
  | none =>
      refine ⟨c, k, .refl c, fun w hc hk => ?_⟩
      subst hc hk
      rw [markTurtle, ht]
  | some t =>
      by_cases hmark : (isUnmarked t.x || isUnmarked t.y || isUnmarked t.heading) = true
      · obtain ⟨x, kx, hx⟩ := mark_eq t.x k
        obtain ⟨y, ky, hy⟩ := mark_eq t.y kx
        obtain ⟨h, kh, hh⟩ := mark_eq t.heading ky
        have hmild := Canvas.mild_mapTurtle fun t => { t with x := x, y := y, heading := h }
        refine ⟨_, kh, (hmild.proper c).follows, fun w hc hk => ?_⟩
        subst hc hk
        rw [markTurtle, ht]
        dsimp only
        rw [if_pos hmark, hx w rfl]
        dsimp only
        rw [hy _ rfl]
        dsimp only
        rw [hh _ rfl]
        rfl
      · refine ⟨c, k, .refl c, fun w hc hk => ?_⟩
        subst hc hk
        rw [markTurtle, ht]
        simp only [hmark]
        rfl

end World

namespace Session

variable {T : Tie} {β : Type}

/-- The steps that drawing takes. -/
structure SceneLaws (T : Tie) : Prop extends ExpressionLaws T where
  canvas : ∀ {p w v} c n, T.rel p w v → v.canvas.Follows c →
    T.rel p { w with canvas := c, undefined := n } { v with canvas := c, undefined := n }

/-- What an action does on a canvas that several worlds share. -/
theorem onCanvas_eq (act : CanvasM Number β) (c : Canvas Number) (k : Nat) :
    ∃ d j, (endOf (act c)).Follows d ∧ ∀ w : World, w.canvas = c → w.undefined = k →
      (∀ b c', act c = .ok b c' → onCanvas act w = .ok b { w with canvas := d, undefined := j })
        ∧ ∀ f c', act c = .error f c' →
          onCanvas act w = .error f { w with canvas := d, undefined := j } := by
  obtain ⟨d, j, hd, hmark⟩ := World.markTurtle_eq (endOf (act c)) k
  refine ⟨d, j, hd, fun w hw hk => ⟨fun b c' hc => ?_, fun f c' hc => ?_⟩⟩
  · rw [hc] at hmark
    subst hw hk
    simp only [onCanvas, hc, hmark { w with canvas := c' } rfl rfl]
  · rw [hc] at hmark
    subst hw hk
    simp only [onCanvas, hc, hmark { w with canvas := c' } rfl rfl]

/-- Where an action on the canvas leads. -/
theorem endOf_onCanvas (act : CanvasM Number β) (w : World) :
    ∃ d j, endOf (onCanvas act w) = { w with canvas := d, undefined := j } := by
  obtain ⟨d, j, -, h⟩ := onCanvas_eq act w.canvas w.undefined
  obtain ⟨hok, herror⟩ := h w rfl rfl
  cases hc : act w.canvas with
  | ok b c' => exact ⟨d, j, by rw [hok b c' hc]; rfl⟩
  | error f c' => exact ⟨d, j, by rw [herror f c' hc]; rfl⟩

/-- What happens on the canvas notes nothing. -/
theorem logs_onCanvas (act : CanvasM Number β) : Logs (onCanvas act) := by
  intro w
  obtain ⟨d, j, hd⟩ := endOf_onCanvas act w
  rw [hd]
  exact .refl w

namespace SceneLaws

variable (L : SceneLaws T) {c : Bool} {p : T.Place}
include L

/-! ## Pauses and stop requests -/

/-- What is done to the pacer goes on in step if it fails tamely. -/
theorem onPacer {act : EStateM Fault Pacer β}
    (htame : ∀ {q f q'}, act q = .error f q' → f.Tame) :
    Steps c p (onPacer act) (onPacer act) := by
  have hend : ∀ w : World, ∃ q, endOf (Session.onPacer act w) = { w with pacer := q } := by
    intro w
    cases hw : act w.pacer with
    | ok b q => exact ⟨q, by simp only [Session.onPacer, hw]; rfl⟩
    | error f q => exact ⟨q, by simp only [Session.onPacer, hw]; rfl⟩
  refine ⟨fun {w v} hr => ?_, fun w => ?_⟩
  · have hpacer := (T.agree hr).pacer
    cases hv : act v.pacer with
    | ok b q =>
        simp only [Session.onPacer, hpacer, hv]
        exact .ok ((L.aside p (.pacer q)).rel hr)
    | error f q =>
        simp only [Session.onPacer, hpacer, hv]
        exact .error (L.fails ((L.aside p (.pacer q)).rel hr) (.of_tame (htame hv)))
  · obtain ⟨q, hq⟩ := hend w
    rw [hq]
    exact .refl w

/-! ## The canvas -/

/-- Actions in two worlds that are tied, if they keep what proper ones keep and
    their faults may end both runs. -/
theorem onCanvas_of {act : CanvasM Number β} (hact : ∀ e : Canvas Number, e.Follows (endOf (act e)))
    (hfault : ∀ {w v f e} d j, T.rel p w v → act v.canvas = .error f e → v.canvas.Follows d →
      T.fails p f { w with canvas := d, undefined := j } { v with canvas := d, undefined := j }) :
    Steps c p (onCanvas act) (onCanvas act) := by
  refine ⟨fun {w v} hr => ?_, logs_onCanvas act⟩
  have hagree := T.agree hr
  obtain ⟨d, j, hd, h⟩ := onCanvas_eq act v.canvas v.undefined
  have hfollows := (hact v.canvas).trans hd
  obtain ⟨hwok, hwerror⟩ := h w hagree.canvas hagree.undefined
  obtain ⟨hvok, hverror⟩ := h v rfl rfl
  cases hc : act v.canvas with
  | ok b c' =>
      rw [hwok b c' hc, hvok b c' hc]
      exact .ok (L.canvas d j hr hfollows)
  | error f c' =>
      rw [hwerror f c' hc, hverror f c' hc]
      exact .error (hfault d j hr hc hfollows)

/-- Proper actions in two worlds that are tied. -/
theorem onCanvas {act : CanvasM Number β} (hact : Canvas.Proper act) :
    Steps c p (onCanvas act) (onCanvas act) :=
  L.onCanvas_of (fun e => (hact e).follows) fun d j hr hv hd =>
    L.fault d j hr hd ((hact _).meets hv)

/-! ## Reactions -/

/-- A change of the pacer that both runs make. -/
theorem changing_pacer (g : Pacer → Pacer) :
    Steps c p (modify fun w => { w with pacer := g w.pacer } : SessionM PUnit)
      (modify fun w => { w with pacer := g w.pacer }) := by
  refine ⟨fun {w v} hr => ?_, fun w => .refl w⟩
  have hrel := (L.aside p (.pacer (g v.pacer))).rel hr
  show T.Outcome c p (.ok () { w with pacer := g w.pacer }) _
  rw [(T.agree hr).pacer]
  exact .ok hrel

/-- A change of the window that both runs make. -/
theorem changing_panel (g : Panel → Panel) :
    Steps c p (changeHost fun h => { h with panel := g h.panel })
      (changeHost fun h => { h with panel := g h.panel }) := by
  refine ⟨fun {w v} hr => ?_, fun w => .refl w⟩
  have hrel := (L.aside p (.panel (g v.host.panel))).rel hr
  show T.Outcome c p (.ok () { w with host := { w.host with panel := g w.host.panel } }) _
  rw [(T.agree hr).panel]
  exact .ok hrel

theorem stop : Steps c p stop stop := L.changing_pacer _

/-- A new speed goes on in step. -/
theorem setSpeed (ms : Number) : Steps c p (setSpeed ms) (setSpeed ms) :=
  .bind (L.compute (Number.usual_whole _ ms)) fun n =>
    L.changing_pacer fun q => { q with speed := .int (max 0 n) }

theorem setTitle (text : Text) : Steps c p (setTitle text) (setTitle text) :=
  L.changing_panel fun q => { q with titles := q.titles.push text }

omit L in
/-- A picture that is saved shows in the title. -/
theorem saveAs_ok {path : Text} {b : Unit} {w w' : World}
    (h : Session.onCanvas (Canvas.savePicture path) w = .ok b w') :
    Session.saveAs path w = Session.setTitle (title ++ " - saved " ++ path) w' := by
  -- the equation of `saveAs` is slow to prove, as all of the saving gets opened
  delta Session.saveAs
  rw [h]

omit L in
/-- A picture that cannot be saved is a matter for the title, or ends all. -/
theorem saveAs_error (path : Text) (f : Fault) :
    (∃ text, ∀ {w w'}, Session.onCanvas (Canvas.savePicture path) w = .error f w' →
        Session.saveAs path w = Session.setTitle text w')
      ∨ ∀ {w w'}, Session.onCanvas (Canvas.savePicture path) w = .error f w' →
        Session.saveAs path w = .error f w' := by
  by_cases hopen : ∃ q, f = .cannotOpen q
  · obtain ⟨q, rfl⟩ := hopen
    refine Or.inl ⟨title ++ " - could not save " ++ path ++ ": " ++ Fault.message (.cannotOpen q),
      fun h => ?_⟩
    delta Session.saveAs
    rw [h]
  · refine Or.inr fun {w w'} h => ?_
    delta Session.saveAs
    rw [h]
    split
    · rename_i heq
      cases heq
    · rename_i q _ heq
      cases heq
      exact absurd ⟨q, rfl⟩ hopen
    · rename_i heq
      cases heq
      rfl

/-- Saving the picture goes on in step. -/
theorem saveAs (path : Text) : InStep p (saveAs path) (saveAs path) := by
  refine ⟨fun {w v} hr => ?_, fun w => ?_⟩
  · have hagree := T.agree hr
    obtain ⟨d, j, hd, h⟩ := onCanvas_eq (Canvas.savePicture path) v.canvas v.undefined
    have hproper := Canvas.proper_savePicture path v.canvas
    have hrel := L.canvas d j hr (hproper.follows.trans hd)
    obtain ⟨hwok, hwerror⟩ := h w hagree.canvas hagree.undefined
    obtain ⟨hvok, hverror⟩ := h v rfl rfl
    cases hc : Canvas.savePicture path v.canvas with
    | ok b c' =>
        rw [saveAs_ok (hwok b c' hc), saveAs_ok (hvok b c' hc)]
        exact (L.setTitle _).run hrel
    | error f c' =>
        have hfault := L.fault d j hr (hproper.follows.trans hd) (hproper.meets hc)
        rcases saveAs_error path f with ⟨text, htext⟩ | hfails
        · rw [htext (hwerror f c' hc), htext (hverror f c' hc)]
          exact (L.setTitle text).run hrel
        · rw [hfails (hwerror f c' hc), hfails (hverror f c' hc)]
          exact .error hfault
  · obtain ⟨d, j, -, h⟩ := onCanvas_eq (Canvas.savePicture path) w.canvas w.undefined
    obtain ⟨hok, herror⟩ := h w rfl rfl
    cases hc : Canvas.savePicture path w.canvas with
    | ok b c' => rw [saveAs_ok (hok b c' hc)]; exact .refl w
    | error f c' =>
        rcases saveAs_error path f with ⟨text, htext⟩ | hfails
        · rw [htext (herror f c' hc)]; exact .refl w
        · rw [hfails (herror f c' hc)]; exact .refl w

/-- Saving the picture under a path that is asked for goes on in step. -/
theorem savePicture : InStep p savePicture savePicture := by
  refine .get_bind fun w v h => ?_
  rw [h.panel]
  split
  · exact L.saveAs _
  · exact L.saveAs _

/-- A key that is pressed goes on in step. -/
theorem pressKey (name typed : Text) : InStep p (pressKey name typed) (pressKey name typed) := by
  have hpan : ∀ dx dy : Int, InStep p (Session.onCanvas (Canvas.pan (.int dx) (.int dy)))
      (Session.onCanvas (Canvas.pan (.int dx) (.int dy))) := fun dx dy =>
    L.onCanvas (Canvas.proper_pan _ _)
  refine .ite L.stop (.ite L.savePicture (.ite (L.onCanvas Canvas.proper_zoomIn) ?_))
  refine .ite (L.onCanvas Canvas.proper_zoomOut) (.ite (L.onCanvas Canvas.proper_resetView) ?_)
  exact .ite (hpan _ _) (.ite (hpan _ _) (.ite (hpan _ _) (.ite (hpan _ _) (.pure _))))

/-- Every event at the window goes on in step. -/
theorem handle (e : WindowEvent) : InStep p (handle e) (handle e) := by
  refine .get_bind fun w v h => ?_
  rw [h.panel]
  split
  · exact .pure _
  · cases e with
    | quit => exact .bind L.stop fun _ => L.changing_panel fun q => { q with closed := true }
    | motion px py =>
        exact .bind (L.onCanvas (Canvas.proper_coordinatesAt px py)) fun _ => L.setTitle _
    | wheel y =>
        exact .ite (L.onCanvas Canvas.proper_zoomIn)
          (.ite (L.onCanvas Canvas.proper_zoomOut) (.pure _))
    | key name typed => exact L.pressKey name typed
    | other => exact .pure _

/-- What the host asks for, where a program that it asks for is in step. -/
theorem serveAll {b d : List Token → SessionM Flow}
    (hnested : ∀ code, InStep p (serve b (.execute code)) (serve d (.execute code)))
    (rs : List Request) : InStep p (serveAll b rs) (serveAll d rs) := by
  induction rs with
  | nil => exact .pure _
  | cons r rs ih =>
      refine .bind ?_ fun _ => ih
      cases r with
      | stop => exact L.stop
      | setSpeed ms => exact L.setSpeed ms
      | execute code => exact hnested code
      | event e => exact L.handle e

end SceneLaws

/-! ## Saying a text -/

/-- The world in which a text has been printed. -/
def printed (text : Text) (mode : OutputMode) (w : World) : World :=
  if mode == .normal then { w with printed := w.printed.push text } else w

/-- The world in which the host has heard a text. -/
def heard (text : Text) (mode : OutputMode) (w : World) : World :=
  let u := printed text mode w
  { u with host := { u.host with
    notices := u.host.notices.push (.output text mode), heard := u.host.heard + 1 } }

/-- A text that nobody hears. -/
theorem emit_of_deaf (block : List Token → SessionM Flow) (text : Text) (mode : OutputMode)
    {w : World} (h : w.host.listening = false) :
    emit block text mode w = .ok () (printed text mode w) := by
  cases mode with
  | normal =>
      show (if w.host.listening = true then _ else _ : SessionM Unit) _ = _
      rw [h]
      rfl
  | inline =>
      show (if w.host.listening = true then _ else _ : SessionM Unit) _ = _
      rw [h]
      rfl

/-- A text that the host hears. -/
theorem emit_of_listening (block : List Token → SessionM Flow) (text : Text) (mode : OutputMode)
    {w : World} (h : w.host.listening = true) :
    emit block text mode w
      = serveAll block (w.host.react w.host.heard text) (heard text mode w) := by
  cases mode with
  | normal =>
      show (if w.host.listening = true then _ else _ : SessionM Unit) _ = _
      rw [if_pos h]
      rfl
  | inline =>
      show (if w.host.listening = true then _ else _ : SessionM Unit) _ = _
      rw [if_pos h]
      rfl

/-- Worlds that agree do so after a text has been printed. -/
theorem agree_printed {w v : World} (h : Agree w v) (text : Text) (mode : OutputMode) :
    Agree (printed text mode w) (printed text mode v) := by
  cases mode with
  | normal => exact { h with printed := congrArg (·.push text) h.printed }
  | inline => exact h

/-- Worlds that agree do so after the host has heard a text. -/
theorem agree_heard {w v : World} (h : Agree w v) (text : Text) (mode : OutputMode) :
    Agree (heard text mode w) (heard text mode v) :=
  { agree_printed h text mode with heard := congrArg (· + 1) (agree_printed h text mode).heard }

/-- Printing notes nothing. -/
theorem noted_printed (text : Text) (mode : OutputMode) (w : World) :
    Noted w (printed text mode w) := by
  cases mode <;> exact .refl w

/-- Hearing a text notes nothing. -/
theorem noted_heard (text : Text) (mode : OutputMode) (w : World) :
    Noted w (heard text mode w) := by
  refine (noted_printed text mode w).trans ?_
  rw [heard, Noted, Array.toList_push]
  exact List.prefix_append _ _

/-- A text that is said notes what the reactions to it note. -/
theorem logs_emit {block : List Token → SessionM Flow}
    (hserve : ∀ rs, Logs (serveAll block rs)) (text : Text) (mode : OutputMode) :
    Logs (emit block text mode) := by
  intro w
  by_cases h : w.host.listening = true
  · rw [emit_of_listening _ _ _ h]
    exact (noted_heard text mode w).trans (hserve _ _)
  · rw [emit_of_deaf _ _ _ (by simpa using h)]
    exact noted_printed text mode w

/-- Texts to which two hosts react in the same way. -/
theorem SceneLaws.emit (L : SceneLaws T) {p : T.Place} {b d : List Token → SessionM Flow}
    (hreact : ∀ {w v}, T.rel p w v → w.host.react = v.host.react)
    (hprinted : ∀ {w v} text mode, T.rel p w v →
      T.rel p (printed text mode w) (printed text mode v))
    (hheard : ∀ {w v} text mode, T.rel p w v → T.rel p (heard text mode w) (heard text mode v))
    (hnested : ∀ code, InStep p (serve b (.execute code)) (serve d (.execute code)))
    (text : Text) (mode : OutputMode) : InStep p (emit b text mode) (emit d text mode) := by
  refine ⟨fun {w v} hr => ?_, logs_emit (fun rs => (L.serveAll hnested rs).logs) text mode⟩
  have hagree := T.agree hr
  by_cases h : v.host.listening = true
  · rw [emit_of_listening _ _ _ h, emit_of_listening _ _ _ (hagree.listening.trans h), hreact hr,
      hagree.heard]
    exact (L.serveAll hnested _).run (hheard text mode hr)
  · have hv : v.host.listening = false := by simpa using h
    rw [emit_of_deaf _ _ _ hv, emit_of_deaf _ _ _ (hagree.listening.trans hv)]
    exact .ok (hprinted text mode hr)

/-! ## Programs -/

/-- The world in which a program starts to run. -/
def started (w : World) : World :=
  { w with running := true, pacer := w.pacer.clear, printed := #[] }

/-- The world in which no program is running. -/
def ended (w : World) : World := { w with running := false }

section

variable {block : List Token → SessionM Flow} {code : Text} {w u : World} {ts : List Token}
  {f : Fault}

/-- While a program is running, no other is let in. -/
theorem runWith_of_running (h : w.running = true) : runWith block code w = .error .busy w := by
  rw [runWith, TurtleLogo.get_bind, h]
  rfl

/-- What a run does when nothing is running. -/
theorem runWith_of_idle (h : w.running = false) :
    runWith block code w = afterwards (do
      let tokens ← attempt (Token.tokenize code)
      inFriendlyWords do
        let _ ← block tokens) ended (started w) := by
  rw [runWith, TurtleLogo.get_bind, h]
  rfl

/-- A program that cannot be scanned ends with that fault. -/
theorem runWith_of_unreadable (h : w.running = false) (hcode : Token.tokenize code = .error f) :
    runWith block code w = .error f (ended (started w)) := by
  rw [runWith_of_idle h, hcode]
  rfl

/-- A program whose block ends well ends well, whatever signal came to the top. -/
theorem runWith_ok (h : w.running = false) (hcode : Token.tokenize code = .ok ts) {flow : Flow}
    (hblock : block ts (started w) = .ok flow u) : runWith block code w = .ok () (ended u) := by
  have hact : (do let _ ← block ts : SessionM Unit) (started w) = .ok () u := bind_of_ok hblock
  rw [runWith_of_idle h, hcode]
  refine afterwards_ok ?_
  show inFriendlyWords (do let _ ← block ts) (started w) = _
  simp only [inFriendlyWords, hact]

/-- A program whose block fails ends with the friendly form of the fault. -/
theorem runWith_error (h : w.running = false) (hcode : Token.tokenize code = .ok ts)
    (hblock : block ts (started w) = .error f u) :
    runWith block code w = .error f.friendly (ended u) := by
  have hact : (do let _ ← block ts : SessionM Unit) (started w) = .error f u :=
    bind_of_error hblock
  rw [runWith_of_idle h, hcode]
  refine afterwards_error ?_
  show inFriendlyWords (do let _ ← block ts) (started w) = _
  simp only [inFriendlyWords, hact]

/-- What is left behind by the run of a program that can be read. -/
theorem endOf_runWith (h : w.running = false) (hcode : Token.tokenize code = .ok ts) :
    endOf (runWith block code w) = ended (endOf (block ts (started w))) := by
  cases hblock : block ts (started w) with
  | ok flow u =>
      rw [runWith_ok h hcode hblock]
      rfl
  | error f u =>
      rw [runWith_error h hcode hblock]
      rfl

/-- The world in which a fault has been told to the host, if it listens. -/
def told (message : Text) (w : World) : World :=
  if w.host.listening then
    { w with host := { w.host with notices := w.host.notices.push (.error message) } }
  else w

/-- To tell a fault to the host never fails. -/
theorem tellError_eq (message : Text) (w : World) :
    tellError message w = .ok () (told message w) := by
  rw [tellError, TurtleLogo.get_bind]
  by_cases h : w.host.listening = true
  · rw [if_pos h, told, if_pos h]; rfl
  · rw [if_neg h, told, if_neg h]; rfl

/-- A program that is asked for while one is running is refused. -/
theorem executeWith_of_running (h : w.running = true) :
    executeWith block code w = .ok false (told (Fault.message .busy) w) := by
  have hbusy : Fault.isFriendly .busy = true := rfl
  simp only [executeWith, runWith_of_running h, hbusy, if_true, tellError_eq]

/-- The answer of a run that ends well. -/
theorem executeWith_ok (h : runWith block code w = .ok () u) :
    executeWith block code w = .ok true u := by
  simp only [executeWith, h]

/-- The answer of a run that ends with a friendly fault. -/
theorem executeWith_friendly (h : runWith block code w = .error f u) (hf : f.isFriendly = true) :
    executeWith block code w = .ok false (told f.message u) := by
  simp only [executeWith, h, hf, if_true, tellError_eq]

/-- Any other fault passes through. -/
theorem executeWith_unfriendly (h : runWith block code w = .error f u)
    (hf : f.isFriendly = false) : executeWith block code w = .error f u := by
  simp only [executeWith, h, hf]
  rfl

/-- The answer changes what a run leaves behind by telling the host at most. -/
theorem endOf_executeWith (block : List Token → SessionM Flow) (code : Text) (w : World) :
    endOf (executeWith block code w) = endOf (runWith block code w)
      ∨ ∃ message, endOf (executeWith block code w)
          = told message (endOf (runWith block code w)) := by
  cases hrun : runWith block code w with
  | ok _ u =>
      rw [executeWith_ok hrun]
      exact .inl rfl
  | error f u =>
      cases hf : f.isFriendly with
      | true =>
          rw [executeWith_friendly hrun hf]
          exact .inr ⟨f.message, rfl⟩
      | false =>
          rw [executeWith_unfriendly hrun hf]
          exact .inl rfl

/-! ## What programs note -/

/-- A fault that is told notes nothing. -/
theorem noted_told (message : Text) (w : World) : Noted w (told message w) := by
  rw [told]
  split
  · rw [Noted, Array.toList_push]
    exact List.prefix_append _ _
  · exact .refl w

/-- A run notes what its block notes. -/
theorem logs_runWith (hblock : ∀ ts, Logs (block ts)) (code : Text) :
    Logs (runWith block code) := by
  intro w
  by_cases h : w.running = true
  · rw [runWith_of_running h]
    exact .refl w
  · have hidle : w.running = false := by simpa using h
    cases hcode : Token.tokenize code with
    | error f =>
        rw [runWith_of_unreadable hidle hcode]
        exact .refl w
    | ok ts =>
        rw [endOf_runWith hidle hcode]
        exact hblock ts (started w)

/-- Executing a program notes what its block notes. -/
theorem logs_executeWith (hblock : ∀ ts, Logs (block ts)) (code : Text) :
    Logs (executeWith block code) := by
  intro w
  have hw := logs_runWith hblock code w
  obtain hend | ⟨message, hend⟩ := endOf_executeWith block code w
  · rw [hend]
    exact hw
  · rw [hend]
    exact hw.trans (noted_told message _)

/-- A note only adds itself to the diary. -/
theorem logs_note (n : Notice) : Logs (note n) := fun w => by
  show w.host.notices.toList <+: (w.host.notices.push n).toList
  rw [Array.toList_push]
  exact List.prefix_append _ _

/-- A program that the host asks for takes back nothing that has been noted. -/
theorem logs_serve_execute (hblock : ∀ ts, Logs (block ts)) (code : Text) :
    Logs (serve block (.execute code)) :=
  .bind (logs_executeWith hblock code) fun ok => logs_note (.nested ok)

end

end Session

end TurtleLogo
