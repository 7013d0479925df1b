import TurtleLogo.Proofs.Ledger
import TurtleLogo.Proofs.Programs

/-! # Pairs of worlds

    Most ways to compare two runs say which worlds they may be in at the same
    time: both give values that compare, or both end with the same fault, and
    they are again in two such worlds.  A `Pairing` says which worlds these
    are, and `Pairing.likeness` is the likeness that it makes.

    The laws of a pairing are about single changes of the world.  They come in
    layers: what expressions change (`Pairing.Laws`), what the forms change
    besides (`FormLaws`), what happens at the window (`WindowLaws`), and what a
    run says to hosts that react in the same way (`ReactionLaws`).  A program that
    a host asks for while one is running is refused (`HostLaws`), so what a host's
    reaction does then never depends on the meaning of blocks (`HostLaws.emit`).

    Where worlds are paired with themselves, all these laws come from one property
    of worlds that programs keep (`Diagonal`). -/

namespace TurtleLogo

/-- What a run does to its pacer, and what a host asks of it. -/
inductive Pacer.Step (p : Pacer) : Pacer → Prop where
  | look : Step p (endOf (look p))
  | pause (ms : Number) : Step p (endOf (pause ms p))
  | checkpoint : Step p (endOf (checkpoint p))
  | cancel : Step p p.cancel
  | speed (n : Int) : Step p { p with speed := .int (max 0 n) }

namespace Session

/-- Worlds that differ at most in their names and in what their hosts hear and
    do about it. -/
structure Close (w v : World) : Prop where
  canvas : w.canvas = v.canvas
  pacer : w.pacer = v.pacer
  undefined : w.undefined = v.undefined
  replies : w.host.replies = v.host.replies
  chance : w.host.chance = v.host.chance
  drawn : w.host.drawn = v.host.drawn
  panel : w.host.panel = v.host.panel

theorem Close.refl (w : World) : Close w w := ⟨rfl, rfl, rfl, rfl, rfl, rfl, rfl⟩

/-- Worlds whose hosts do the same about what they hear. -/
structure Heeds (w v : World) : Prop where
  listening : w.host.listening = v.host.listening
  react : w.host.react = v.host.react
  heard : w.host.heard = v.host.heard

theorem Heeds.refl (w : World) : Heeds w w := ⟨rfl, rfl, rfl⟩

/-- Two ends with the same value or fault, in worlds that compare. -/
inductive SameEnd {β : Type} (S : World → World → Prop) :
    EStateM.Result Fault World β → EStateM.Result Fault World β → Prop where
  | ok {b w v} (h : S w v) : SameEnd S (.ok b w) (.ok b v)
  | error {f w v} (h : S w v) : SameEnd S (.error f w) (.error f v)

/-- The worlds at two such ends compare. -/
theorem SameEnd.endOf {β : Type} {S : World → World → Prop} {r s : EStateM.Result Fault World β}
    (h : SameEnd S r s) : S (endOf r) (endOf s) := by
  cases h with
  | ok h => exact h
  | error h => exact h

@[simp] theorem running_printed (text : Text) (mode : OutputMode) (w : World) :
    (printed text mode w).running = w.running := by
  cases mode <;> rfl

@[simp] theorem running_heard (text : Text) (mode : OutputMode) (w : World) :
    (heard text mode w).running = w.running := running_printed text mode w

/-- Which worlds two runs may be in at the same time. -/
structure Pairing where
  spelled : Text → Text → Prop
  fits : Procedure → Prop
  rel : World → World → Prop
  /-- The faults with which both runs may end. -/
  allowed : Fault → Prop
  /-- The actions on the canvas that both runs may take. -/
  draws : ∀ {β : Type}, CanvasM Number β → Prop
  /-- What the hosts may ask for. -/
  asks : Request → Prop

namespace Pairing

/-- What two runs have reached. -/
inductive Outcome (P : Pairing) {β γ : Type} (Q : β → γ → Prop) :
    EStateM.Result Fault World β → EStateM.Result Fault World γ → Prop where
  | ok {a b w v} (h : Q a b) (hr : P.rel w v) : Outcome P Q (.ok a w) (.ok b v)
  | error {f w v} (hf : P.allowed f) (hr : P.rel w v) : Outcome P Q (.error f w) (.error f v)

/-- The likeness that a pairing makes. -/
def likeness (P : Pairing) : Likeness where
  spelled := P.spelled
  fits := P.fits
  alike Q m n := ∀ w v, P.rel w v → P.Outcome Q (m w) (n v)

/-- What expressions change. -/
structure Laws (P : Pairing) : Prop where
  upper : ∀ a b, P.spelled a b → Text.upper a = Text.upper b
  allowed : ∀ f : Fault, f.ofLimits = false → P.allowed f
  close : ∀ {w v}, P.rel w v → Close w v
  store : ∀ {w v}, P.rel w v → w.store.Like P.spelled v.store ∧ ∀ q ∈ v.store.procedures, P.fits q
  undefined : ∀ {w v} n, P.rel w v → P.rel { w with undefined := n } { v with undefined := n }
  draw : ∀ {w v}, P.rel w v → P.rel (Aside.draw.apply w) (Aside.draw.apply v)
  question : ∀ {w v} prompt, P.rel w v →
    P.rel ((Aside.question prompt).apply w) ((Aside.question prompt).apply v)
  replies : ∀ {w v} rs, P.rel w v → P.rel ((Aside.replies rs).apply w) ((Aside.replies rs).apply v)

namespace Laws

variable {P : Pairing} (H : P.Laws) {β γ δ ε : Type} {Q : β → γ → Prop} {S : δ → ε → Prop}

theorem pure {a : β} {b : γ} (h : Q a b) :
    P.likeness.alike Q (Pure.pure a) (Pure.pure b) := fun _ _ hr => .ok h hr

theorem throw {f : Fault} (hf : P.allowed f) :
    P.likeness.alike Q (MonadExcept.throw f) (MonadExcept.throw f) := fun _ _ hr => .error hf hr

/-- Computations that are alike can be followed by such that are. -/
theorem bind {m : SessionM β} {n : SessionM γ} {k : β → SessionM δ} {l : γ → SessionM ε}
    (hm : P.likeness.alike Q m n) (hk : ∀ a b, Q a b → P.likeness.alike S (k a) (l b)) :
    P.likeness.alike S (m >>= k) (n >>= l) := by
  intro w v hr
  have h := hm w v hr
  generalize hmw : m w = r at h
  generalize hnv : n v = s at h
  cases h with
  | ok hq hr' =>
      rw [bind_of_ok hmw, bind_of_ok hnv]
      exact hk _ _ hq _ _ hr'
  | error hf hr' =>
      rw [bind_of_error hmw, bind_of_error hnv]
      exact .error hf hr'

/-- Sequencing after a computation, given a value that it has on the left. -/
theorem bind_given {m : SessionM β} {n : SessionM γ} {k : β → SessionM δ} {l : γ → SessionM ε}
    (hm : P.likeness.alike Q m n)
    (hk : ∀ a b, Q a b → (∃ w u, m w = .ok a u) → P.likeness.alike S (k a) (l b)) :
    P.likeness.alike S (m >>= k) (n >>= l) := by
  have hgiven : P.likeness.alike (fun a b => Q a b ∧ ∃ w u, m w = .ok a u) m n := by
    intro w v hr
    have h := hm w v hr
    generalize hmw : m w = r at h
    generalize n v = s at h
    cases h with
    | ok hq hr' => exact .ok ⟨hq, w, _, hmw⟩ hr'
    | error hf hr' => exact .error hf hr'
  exact bind hgiven fun a b hab => hk a b hab.1 hab.2

/-- Going on after a look at the world, of which both runs may use what the
    pairing keeps alike. -/
theorem get_bind {k : World → SessionM δ} {l : World → SessionM ε}
    (hk : ∀ w v, P.rel w v → P.likeness.alike S (k w) (l v)) :
    P.likeness.alike S (get >>= k) (get >>= l) := fun w v hr => hk w v hr w v hr

/-- A change of the world that both runs make. -/
theorem changing {g h : World → World} (hgh : ∀ {w v}, P.rel w v → P.rel (g w) (h v)) :
    P.likeness.alike Eq (modify g : SessionM PUnit) (modify h) := fun _ _ hr => .ok rfl (hgh hr)

/-- Cleaning up after two computations that are alike. -/
theorem wrapUp {m : SessionM β} {n : SessionM γ} {d d' e e' : SessionM Unit}
    (hm : P.likeness.alike Q m n) (hd : P.likeness.alike Eq d d')
    (he : P.likeness.alike Eq e e') :
    P.likeness.alike Q (wrapUp m d e) (wrapUp n d' e') := by
  intro w v hr
  have h := hm w v hr
  generalize hmw : m w = r at h
  generalize hnv : n v = s at h
  cases h with
  | @ok a b w' v' hq hr' =>
      have hdone := hd w' v' hr'
      generalize hdw : d w' = r at hdone
      generalize hdv : d' v' = s at hdone
      cases hdone with
      | ok _ hr'' =>
          rw [wrapUp_ok_ok hmw hdw, wrapUp_ok_ok hnv hdv]
          exact .ok hq hr''
      | error hf hr'' =>
          rw [wrapUp_ok_error hmw hdw, wrapUp_ok_error hnv hdv]
          exact .error hf hr''
  | @error f w' v' hf hr' =>
      have hfailed := he w' v' hr'
      generalize hew : e w' = r at hfailed
      generalize hev : e' v' = s at hfailed
      cases hfailed with
      | ok _ hr'' =>
          rw [wrapUp_error_ok hmw hew, wrapUp_error_ok hnv hev]
          exact .error hf hr''
      | error hg hr'' =>
          rw [wrapUp_error_error hmw hew, wrapUp_error_error hnv hev]
          exact .error hg hr''

include H

/-- A fresh number is the same on both sides. -/
theorem fresh (n : Number) : P.likeness.alike Eq (fresh n) (fresh n) := by
  intro w v hr
  obtain ⟨m, j, hmark⟩ := World.mark_eq n v.undefined
  simp only [Session.fresh, hmark v rfl, hmark w (H.close hr).undefined]
  exact .ok rfl (H.undefined j hr)

/-- A random number is the same on both sides. -/
theorem random : P.likeness.alike Eq random random :=
  get_bind fun w v hr => bind (Q := Eq) (changing H.draw) fun _ _ _ => by
    rw [(H.close hr).chance, (H.close hr).drawn]
    exact pure rfl

/-- An answer that is asked for is the same on both sides. -/
theorem ask (prompt : Text) : P.likeness.alike Eq (ask prompt) (ask prompt) := by
  refine get_bind fun w v hr => ?_
  rw [(H.close hr).replies]
  cases v.host.replies with
  | none => exact throw (H.allowed _ rfl)
  | some replies =>
      refine bind (Q := Eq) (changing (H.question prompt)) fun _ _ _ => ?_
      refine bind (Q := Eq) (changing (H.replies (some replies.tail))) fun _ _ _ => ?_
      split <;> exact pure rfl

/-- A pairing that satisfies its laws makes a likeness that does. -/
theorem likeness : P.likeness.Laws where
  upper := H.upper
  pure := pure
  throw hf := throw (H.allowed _ hf)
  bind := bind
  fresh := H.fresh
  random := H.random
  ask := H.ask
  seen f := get_bind fun w v hr => by
    rw [(H.close hr).canvas]
    exact pure rfl
  store := get_bind fun w v hr => pure (H.store hr)

end Laws

/-- What the forms change besides. -/
structure FormLaws (P : Pairing) : Prop extends P.Laws where
  names : ∀ {w v s t}, P.rel w v → s.Like P.spelled t → (∀ q ∈ t.procedures, P.fits q) →
    P.rel { w with store := s } { v with store := t }
  pacer : ∀ {w v} {q : Pacer}, P.rel w v → v.pacer.Step q →
    P.rel { w with pacer := q } { v with pacer := q }
  canvas : ∀ {β : Type} {act : CanvasM Number β} {w v d j}, P.draws act → P.rel w v →
    endOf (onCanvas act v) = { v with canvas := d, undefined := j } →
    P.rel { w with canvas := d, undefined := j } { v with canvas := d, undefined := j }
  tell : ∀ who, P.draws (Canvas.tell who)
  beginFill : P.draws Canvas.beginFill
  endFill : P.draws Canvas.endFill
  cancelFill : P.draws Canvas.cancelFill

namespace FormLaws

variable {P : Pairing} (H : P.FormLaws) {β : Type}
include H

/-- What is done to the pacer in steps is alike, because the pacers are the same. -/
theorem onPacer {act : EStateM Fault Pacer β} (hact : Unlimited act)
    (hstep : ∀ p : Pacer, p.Step (endOf (act p))) :
    P.likeness.alike Eq (onPacer act) (onPacer act) := by
  intro w v hr
  have hstep' := hstep v.pacer
  cases hv : act v.pacer with
  | ok b q =>
      rw [hv] at hstep'
      simp only [Session.onPacer, (H.close hr).pacer, hv]
      exact .ok rfl (H.pacer hr hstep')
  | error f q =>
      rw [hv] at hstep'
      simp only [Session.onPacer, (H.close hr).pacer, hv]
      exact .error (H.allowed f (hact _ _ _ hv)) (H.pacer hr hstep')

/-- What is done to the canvas is alike, because the canvases are the same. -/
theorem onCanvas {act : CanvasM Number β} (hact : Unlimited act) (hdraws : P.draws act) :
    P.likeness.alike Eq (onCanvas act) (onCanvas act) := by
  intro w v hr
  obtain ⟨d, j, -, hrun⟩ := onCanvas_eq act v.canvas v.undefined
  obtain ⟨hwok, hwerror⟩ := hrun w (H.close hr).canvas (H.close hr).undefined
  obtain ⟨hvok, hverror⟩ := hrun v rfl rfl
  cases hc : act v.canvas with
  | ok b c =>
      rw [hwok b c hc, hvok b c hc]
      exact .ok rfl (H.canvas hdraws hr (by rw [hvok b c hc]; rfl))
  | error f c =>
      rw [hwerror f c hc, hverror f c hc]
      exact .error (H.allowed f (hact _ _ _ hc)) (H.canvas hdraws hr (by rw [hverror f c hc]; rfl))

/-- The likeness that a pairing makes has the laws of the forms if the pairing has. -/
theorem likeness : P.likeness.FormLaws where
  toLaws := H.toLaws.likeness
  stopRequested := H.onPacer Pacer.unlimited_look fun _ => .look
  checkpoint := H.onPacer Pacer.unlimited_checkpoint fun _ => .checkpoint
  define hpq _ hfits := Laws.changing fun hr => by
    obtain ⟨hlike, hprocedures⟩ := H.store hr
    refine H.names hr (hlike.define hpq) fun q hq => ?_
    rcases mem_define hq with rfl | hq
    · exact hfits
    · exact hprocedures q hq
  names hlike hkeep := Laws.changing fun hr => by
    obtain ⟨hstores, hprocedures⟩ := H.store hr
    refine H.names hr (hlike _ _ hstores) fun q hq => hprocedures q ?_
    rw [← hkeep]
    exact hq
  tell who := H.onCanvas (Canvas.unlimited_tell who) (H.tell who)
  filling hm := Laws.bind (H.onCanvas Canvas.unlimited_beginFill H.beginFill) fun _ _ _ =>
    Laws.wrapUp hm (H.onCanvas (Canvas.unlimited_change _) H.endFill)
      (H.onCanvas (Canvas.unlimited_change _) H.cancelFill)
  wrapUp hm hd he _ := Laws.wrapUp hm hd he

end FormLaws

/-- What a host asks for while a program is running, other programs apart. -/
structure WindowLaws (P : Pairing) : Prop extends P.FormLaws where
  panel : ∀ {w v} q, P.rel w v → P.rel ((Aside.panel q).apply w) ((Aside.panel q).apply v)
  window : ∀ e, P.asks (.event e) → ∀ {β : Type} (act : CanvasM Number β), P.draws act

namespace WindowLaws

variable {P : Pairing} (H : P.WindowLaws)
include H

/-- A stop request is alike. -/
theorem stop : P.likeness.alike Eq stop stop := by
  refine Laws.changing fun {w v} hr => ?_
  have hrel := H.pacer hr (.cancel (p := v.pacer))
  show P.rel { w with pacer := w.pacer.cancel } _
  rw [(H.close hr).pacer]
  exact hrel

/-- A new speed is alike. -/
theorem setSpeed (ms : Number) : P.likeness.alike Eq (setSpeed ms) (setSpeed ms) := by
  refine H.toFormLaws.likeness.next (H.toFormLaws.likeness.compute _) fun n => ?_
  refine Laws.changing fun {w v} hr => ?_
  have hrel := H.pacer hr (.speed (p := v.pacer) n)
  show P.rel { w with pacer := { w.pacer with speed := _ } } _
  rw [(H.close hr).pacer]
  exact hrel

/-- A change of the window that both runs make. -/
theorem changing_panel (g : Panel → Panel) :
    P.likeness.alike Eq (changeHost fun h => { h with panel := g h.panel })
      (changeHost fun h => { h with panel := g h.panel }) := by
  refine Laws.changing fun {w v} hr => ?_
  have hrel := H.panel (g v.host.panel) hr
  show P.rel { w with host := { w.host with panel := g w.host.panel } } _
  rw [(H.close hr).panel]
  exact hrel

theorem setTitle (text : Text) : P.likeness.alike Eq (setTitle text) (setTitle text) :=
  H.changing_panel fun q => { q with titles := q.titles.push text }

section

variable {e : WindowEvent} (he : P.asks (.event e))
include he

/-- Saving the picture under a path is alike. -/
theorem saveAs (path : Text) : P.likeness.alike Eq (saveAs path) (saveAs path) := by
  intro w v hr
  have hsave := H.toFormLaws.onCanvas (Canvas.unlimited_savePicture path) (H.window e he _) w v hr
  generalize hw : onCanvas (Canvas.savePicture path) w = r at hsave
  generalize hv : onCanvas (Canvas.savePicture path) v = s at hsave
  cases hsave with
  | ok _ hr' =>
      rw [SceneLaws.saveAs_ok hw, SceneLaws.saveAs_ok hv]
      exact H.setTitle _ _ _ hr'
  | @error f w' v' hf hr' =>
      rcases SceneLaws.saveAs_error path f with ⟨text, htext⟩ | hfails
      · rw [htext hw, htext hv]
        exact H.setTitle text _ _ hr'
      · rw [hfails hw, hfails hv]
        exact .error hf hr'

/-- Saving the picture under a path that is asked for is alike. -/
theorem savePicture : P.likeness.alike Eq savePicture savePicture := by
  refine Laws.get_bind fun w v hr => ?_
  rw [(H.close hr).panel]
  split
  · exact H.saveAs he _
  · exact H.saveAs he _

/-- What an event does to the canvas is alike. -/
theorem window_canvas {β : Type} {act : CanvasM Number β} (hact : Unlimited act) :
    P.likeness.alike Eq (onCanvas act) (onCanvas act) :=
  H.toFormLaws.onCanvas hact (H.window e he act)

/-- A key that is pressed is alike. -/
theorem pressKey (name typed : Text) :
    P.likeness.alike Eq (pressKey name typed) (pressKey name typed) := by
  have hpan : ∀ dx dy : Int, P.likeness.alike Eq
      (onCanvas (Canvas.pan (.int dx) (.int dy))) (onCanvas (Canvas.pan (.int dx) (.int dy))) :=
    fun dx dy => H.window_canvas he (Canvas.unlimited_pan _ _)
  have hite : ∀ {b : Prop} [Decidable b] {m n : SessionM Unit}, P.likeness.alike Eq m m →
      P.likeness.alike Eq n n → P.likeness.alike Eq (if b then m else n) (if b then m else n) := by
    intro b _ m n hm hn
    split
    · exact hm
    · exact hn
  refine hite H.stop (hite (H.savePicture he) ?_)
  refine hite (H.window_canvas he Canvas.unlimited_zoomIn) ?_
  refine hite (H.window_canvas he Canvas.unlimited_zoomOut)
    (hite (H.window_canvas he Canvas.unlimited_resetView) ?_)
  exact hite (hpan _ _) (hite (hpan _ _) (hite (hpan _ _) (hite (hpan _ _) (Laws.pure rfl))))

/-- Every event that may be asked for is alike. -/
theorem handle : P.likeness.alike Eq (handle e) (handle e) := by
  have H' := H.toFormLaws.likeness
  refine Laws.get_bind fun w v hr => ?_
  rw [(H.close hr).panel]
  split
  · exact Laws.pure rfl
  · cases e with
    | quit => exact H'.next H.stop fun _ => H.changing_panel fun q => { q with closed := true }
    | motion px py =>
        exact H'.next (H.window_canvas he (Canvas.unlimited_coordinatesAt px py)) fun _ =>
          H.setTitle _
    | wheel y =>
        dsimp only
        split
        · exact H.window_canvas he Canvas.unlimited_zoomIn
        · split
          · exact H.window_canvas he Canvas.unlimited_zoomOut
          · exact Laws.pure rfl
    | key name typed => exact H.pressKey he name typed
    | other => exact Laws.pure rfl

end

/-- A pairing that does not mind what is drawn makes a likeness under which all
    commands are alike, if what is said is. -/
theorem commands (hdraws : ∀ {β : Type} (act : CanvasM Number β), P.draws act)
    (hemit : ∀ (b d : List Token → SessionM Flow) text mode,
      P.likeness.alike Eq (emit b text mode) (emit d text mode)) : P.likeness.CommandLaws where
  toFormLaws := H.toFormLaws.likeness
  pause ms := H.onPacer (Pacer.unlimited_pause ms) fun _ => .pause ms
  emit := hemit
  canvas hact := H.onCanvas hact (hdraws _)

end WindowLaws

/-- What is said to hosts that do the same about it. -/
structure ReactionLaws (P : Pairing) : Prop extends P.WindowLaws where
  heeds : ∀ {w v}, P.rel w v → Heeds w v
  asked : ∀ {w v}, P.rel w v → ∀ n text, ∀ r ∈ v.host.react n text, P.asks r
  said : ∀ {w v} text mode, P.rel w v → v.host.listening = false →
    P.rel (printed text mode w) (printed text mode v)
  heard : ∀ {w v} text mode, P.rel w v → v.host.listening = true →
    P.rel (heard text mode w) (heard text mode v)

namespace ReactionLaws

variable {P : Pairing} (H : P.ReactionLaws) {b d : List Token → SessionM Flow}
  (hexecute : ∀ code, P.asks (.execute code) →
    P.likeness.alike Eq (Session.serve b (.execute code)) (Session.serve d (.execute code)))
include H hexecute

/-- What a host asks for, if the programs among that are alike. -/
theorem serve {r : Request} (hr : P.asks r) : P.likeness.alike Eq (serve b r) (serve d r) := by
  cases r with
  | stop => exact H.stop
  | setSpeed ms => exact H.setSpeed ms
  | execute code => exact hexecute code hr
  | event e => exact H.handle hr

/-- Several requests in a row are alike. -/
theorem serveAll {rs : List Request} (hrs : ∀ r ∈ rs, P.asks r) :
    P.likeness.alike Eq (serveAll b rs) (serveAll d rs) := by
  induction rs with
  | nil => exact Laws.pure rfl
  | cons r rs ih =>
      have htail := ih fun r' hr' => hrs r' (List.mem_cons_of_mem _ hr')
      exact H.toFormLaws.likeness.next (H.serve hexecute (hrs r (List.mem_cons_self ..)))
        fun _ => htail

/-- What a program says, and how the host reacts to it. -/
theorem emit (text : Text) (mode : OutputMode) :
    P.likeness.alike Eq (emit b text mode) (emit d text mode) := by
  intro w v hr
  have hheeds := H.heeds hr
  by_cases h : v.host.listening = true
  · rw [emit_of_listening _ _ _ h, emit_of_listening _ _ _ (hheeds.listening.trans h),
      hheeds.react, hheeds.heard]
    exact H.serveAll hexecute (H.asked hr _ _) _ _ (H.heard text mode hr h)
  · have hv : v.host.listening = false := by simpa using h
    rw [emit_of_deaf _ _ _ hv, emit_of_deaf _ _ _ (hheeds.listening.trans hv)]
    exact .ok rfl (H.said text mode hr hv)

end ReactionLaws

/-- What is said while a program is running. -/
structure HostLaws (P : Pairing) : Prop extends P.ReactionLaws where
  running : ∀ {w v}, P.rel w v → w.running = true ∧ v.running = true
  refused : ∀ {w v}, P.rel w v →
    P.rel { w with host := w.host.refuse } { v with host := v.host.refuse }

namespace HostLaws

variable {P : Pairing} (H : P.HostLaws)
include H

/-- A program is refused while another one is running. -/
theorem execute (b d : List Token → SessionM Flow) (code : Text) :
    P.likeness.alike Eq (serve b (.execute code)) (serve d (.execute code)) := by
  intro w v hr
  rw [serve_execute_of_running b (H.running hr).1, serve_execute_of_running d (H.running hr).2]
  exact .ok rfl (H.refused hr)

/-- What a host asks for. -/
theorem serve (b d : List Token → SessionM Flow) {r : Request} (hr : P.asks r) :
    P.likeness.alike Eq (serve b r) (serve d r) :=
  H.toReactionLaws.serve (fun code _ => H.execute b d code) hr

/-- What a program says. -/
theorem emit (b d : List Token → SessionM Flow) (text : Text) (mode : OutputMode) :
    P.likeness.alike Eq (emit b text mode) (emit d text mode) :=
  H.toReactionLaws.emit (fun code _ => H.execute b d code) text mode

/-- A pairing that does not mind what is drawn makes a likeness under which all
    commands are alike. -/
theorem commands (hdraws : ∀ {β : Type} (act : CanvasM Number β), P.draws act) :
    P.likeness.CommandLaws :=
  H.toWindowLaws.commands hdraws H.emit

end HostLaws

/-! ## Worlds and themselves -/

/-- Worlds with the same names, canvas and pacer, in which a program is running or
    not, and whose hosts react alike. -/
structure Akin (w v : World) : Prop where
  running : v.running = w.running
  store : v.store = w.store
  canvas : v.canvas = w.canvas
  pacer : v.pacer = w.pacer
  react : v.host.react = w.host.react

/-- What happens aside makes a world akin to the one before, the pacer apart. -/
theorem akin_aside {a : Aside} (ha : ∀ q, a ≠ .pacer q) (w : World) : Akin w (a.apply w) := by
  cases a with
  | pacer q => exact absurd rfl (ha q)
  | undefined | draw | question | replies | panel => exact ⟨rfl, rfl, rfl, rfl, rfl⟩

/-- Printing makes a world akin to the one before. -/
theorem akin_printed (text : Text) (mode : OutputMode) (w : World) :
    Akin w (printed text mode w) := by
  cases mode <;> exact ⟨rfl, rfl, rfl, rfl, rfl⟩

/-- A text that the host hears makes a world akin to the one before. -/
theorem akin_heard (text : Text) (mode : OutputMode) (w : World) :
    Akin w (heard text mode w) := by
  cases mode <;> exact ⟨rfl, rfl, rfl, rfl, rfl⟩

/-- A pairing of worlds with themselves, for a property that programs keep. -/
structure Diagonal (P : Pairing) (J : World → Prop) : Prop where
  spelled : P.spelled = Eq
  rel : ∀ {w v}, P.rel w v ↔ w = v ∧ J v
  allowed : ∀ f : Fault, f.ofLimits = false → P.allowed f
  fits : ∀ {v}, J v → ∀ q ∈ v.store.procedures, P.fits q
  akin : ∀ {w v}, J w → Akin w v → J v
  names : ∀ {v} {s : Store}, J v → (∀ q ∈ s.procedures, P.fits q) → J { v with store := s }
  pacer : ∀ {v} {q : Pacer}, J v → v.pacer.Step q → J { v with pacer := q }
  canvas : ∀ {β : Type} {act : CanvasM Number β} {v d j}, P.draws act → J v →
    endOf (onCanvas act v) = { v with canvas := d, undefined := j } →
    J { v with canvas := d, undefined := j }
  tell : ∀ who, P.draws (Canvas.tell who)
  beginFill : P.draws Canvas.beginFill
  endFill : P.draws Canvas.endFill
  cancelFill : P.draws Canvas.cancelFill
  window : ∀ e, P.asks (.event e) → ∀ {β : Type} (act : CanvasM Number β), P.draws act
  asked : ∀ {v}, J v → ∀ n text, ∀ r ∈ v.host.react n text, P.asks r

namespace Diagonal

variable {P : Pairing} {J : World → Prop} (D : P.Diagonal J) {w v : World}
include D

/-- What is done to one world is done to the other. -/
theorem step (hr : P.rel w v) (g : World → World) (hg : J v → J (g v)) : P.rel (g w) (g v) := by
  obtain ⟨rfl, hJ⟩ := D.rel.1 hr
  exact D.rel.2 ⟨rfl, hg hJ⟩

/-- What happens aside keeps two worlds paired, the pacer apart. -/
theorem aside (hr : P.rel w v) {a : Aside} (ha : ∀ q, a ≠ .pacer q) :
    P.rel (a.apply w) (a.apply v) :=
  D.step hr a.apply fun hJ => D.akin hJ (akin_aside ha v)

/-- A pairing of worlds with themselves has the laws of reactions. -/
theorem reactionLaws : P.ReactionLaws where
  upper _ _ h := by
    rw [D.spelled] at h
    exact congrArg Text.upper h
  allowed := D.allowed
  close hr := (D.rel.1 hr).1 ▸ .refl _
  store hr := by
    obtain ⟨rfl, hJ⟩ := D.rel.1 hr
    rw [D.spelled]
    exact ⟨.refl _, D.fits hJ⟩
  undefined n hr := D.aside (a := .undefined n) hr fun _ => nofun
  draw hr := D.aside hr fun _ => nofun
  question _ hr := D.aside hr fun _ => nofun
  replies _ hr := D.aside hr fun _ => nofun
  names hr hst hfits := by
    rw [D.spelled] at hst
    rw [hst.eq]
    exact D.step hr ({ · with store := _ }) fun hJ => D.names hJ hfits
  pacer hr hstep := D.step hr ({ · with pacer := _ }) fun hJ => D.pacer hJ hstep
  canvas hact hr hend :=
    D.step hr ({ · with canvas := _, undefined := _ }) fun hJ => D.canvas hact hJ hend
  tell := D.tell
  beginFill := D.beginFill
  endFill := D.endFill
  cancelFill := D.cancelFill
  panel _ hr := D.aside hr fun _ => nofun
  window := D.window
  heeds hr := (D.rel.1 hr).1 ▸ .refl _
  asked hr := D.asked (D.rel.1 hr).2
  said text mode hr _ :=
    D.step hr (printed text mode) fun hJ => D.akin hJ (akin_printed text mode _)
  heard text mode hr _ :=
    D.step hr (heard text mode) fun hJ => D.akin hJ (akin_heard text mode _)

/-- A pairing of worlds with themselves in which a program is running has the laws
    of hosts. -/
theorem hostLaws (hrunning : ∀ {v}, J v → v.running = true) : P.HostLaws where
  toReactionLaws := D.reactionLaws
  running hr := by
    obtain ⟨rfl, hJ⟩ := D.rel.1 hr
    exact ⟨hrunning hJ, hrunning hJ⟩
  refused hr := D.step hr (fun w => { w with host := w.host.refuse }) fun hJ =>
    D.akin hJ ⟨rfl, rfl, rfl, rfl, Host.react_refuse _⟩

end Diagonal

/-! ## Whole runs -/

/-- How worlds compare before a run and after it, where those in the run do as
    a pairing says. -/
structure Between (P : Pairing) (R S : World → World → Prop) : Prop where
  running : ∀ {w v}, R w v → w.running = v.running
  refused : ∀ {w v}, R w v → w.running = true → S w v
  started : ∀ {w v}, R w v → w.running = false → P.rel (started w) (started v)
  ended : ∀ {w v}, P.rel w v → S (ended w) (ended v)
  told : ∀ {w v} message, S w v → S (told message w) (told message v)

namespace Between

variable {P : Pairing} {R S : World → World → Prop} (H : P.Between R S)
  {b d : List Token → SessionM Flow} {s t : Text}
  (hcode : Matched (TokensLike P.spelled) (Token.tokenize s) (Token.tokenize t))
  (hblock : ∀ ts us, TokensLike P.spelled ts us →
    P.likeness.alike (Flow.Like P.spelled us.length) (b ts) (d us))
include H hcode hblock

/-- Two runs that start in worlds that compare end alike. -/
theorem runWith {w v : World} (hr : R w v) :
    SameEnd S (runWith b s w) (runWith d t v) := by
  cases hw : w.running with
  | true =>
      rw [runWith_of_running hw, runWith_of_running ((H.running hr).symm.trans hw)]
      exact .error (H.refused hr hw)
  | false =>
      have hv : v.running = false := (H.running hr).symm.trans hw
      have hstarted := H.started hr hw
      generalize hs : Token.tokenize s = r at hcode
      generalize ht : Token.tokenize t = r' at hcode
      cases hcode with
      | error _ =>
          rw [runWith_of_unreadable hw hs, runWith_of_unreadable hv ht]
          exact .error (H.ended hstarted)
      | ok htokens =>
          have hrun := hblock _ _ htokens _ _ hstarted
          generalize hb : b _ (Session.started w) = o at hrun
          generalize hd : d _ (Session.started v) = o' at hrun
          cases hrun with
          | ok _ hr' =>
              rw [runWith_ok hw hs hb, runWith_ok hv ht hd]
              exact .ok (H.ended hr')
          | error _ hr' =>
              rw [runWith_error hw hs hb, runWith_error hv ht hd]
              exact .error (H.ended hr')

/-- Two programs that are executed in worlds that compare end alike. -/
theorem executeWith {w v : World} (hr : R w v) :
    SameEnd S (executeWith b s w) (executeWith d t v) := by
  have hrun := H.runWith hcode hblock hr
  generalize hw : Session.runWith b s w = o at hrun
  generalize hv : Session.runWith d t v = o' at hrun
  cases hrun with
  | ok hr' =>
      rw [executeWith_ok hw, executeWith_ok hv]
      exact .ok hr'
  | @error f _ _ hr' =>
      cases hf : f.isFriendly with
      | true =>
          rw [executeWith_friendly hw hf, executeWith_friendly hv hf]
          exact .ok (H.told _ hr')
      | false =>
          rw [executeWith_unfriendly hw hf, executeWith_unfriendly hv hf]
          exact .error hr'

end Between

end Pairing

end Session

end TurtleLogo
