import TurtleLogo.Proofs.Statement

/-! # Runs that differ in what passes to the host

    Many ties compare two runs of one program that do the same with names,
    canvas and pacer, and differ only in what has passed between them and their
    hosts.  A `Ledger` says how the two hosts compare, at a mark that a run may
    move, and `Ledger.tie` adds the rest: a program is running, the same number
    of frames is open, and the canvas is sane.  Such a tie satisfies the laws of
    statements as soon as its ledger does (`Ledger.Laws.statements`). -/

namespace TurtleLogo

/-- The host that has heard a text. -/
def Host.hear (h : Host) (text : Text) (mode : OutputMode) : Host :=
  { h.jot (.output text mode) with heard := h.heard + 1 }

/-- The host whose program has been refused. -/
def Host.refuse (h : Host) : Host :=
  (if h.listening then h.jot (.error (Fault.message .busy)) else h).jot (.nested false)

/-- A refusal leaves the reactions of a host. -/
theorem Host.react_refuse (h : Host) : h.refuse.react = h.react := by
  rw [refuse]
  split <;> rfl

namespace Session

@[simp] theorem host_printed (text : Text) (mode : OutputMode) (w : World) :
    (printed text mode w).host = w.host := by
  cases mode <;> rfl

@[simp] theorem host_heard (text : Text) (mode : OutputMode) (w : World) :
    (heard text mode w).host = w.host.hear text mode := by
  cases mode <;> rfl

/-- What a host gets that asks for a program while one is running. -/
theorem serve_execute_of_running (block : List Token → SessionM Flow) {code : Text} {w : World}
    (h : w.running = true) :
    serve block (.execute code) w = .ok () { w with host := w.host.refuse } := by
  have hexecute : executeWith block code w = .ok false (told (Fault.message .busy) w) :=
    executeWith_of_running h
  show (executeWith block code >>= fun ok => note (.nested ok)) w = _
  rw [bind_of_ok hexecute, told, Host.refuse]
  split <;> rfl

/-- Two runs with the same number of open frames, on a sane canvas. -/
structure Abreast (kind : SurfaceKind) (n : Nat) (w v : World) : Prop where
  agree : Agree w v
  running : v.running = true
  frames : v.store.locals.length = n
  sane : v.canvas.Sane
  kind : v.canvas.surface.kind = kind

/-- A run that is only winding up. -/
structure Winding (n : Nat) (v : World) : Prop where
  cancelled : v.pacer.cancelled = true
  frames : v.store.locals.length = n
  sane : v.canvas.Sane

/-- How the hosts of two runs compare. -/
structure Ledger where
  Mark : Type
  kind : SurfaceKind
  rel : Mark → Host → Host → Prop
  fails : Mark → Fault → Host → Host → Prop
  lost : Host → Prop
  cut : Mark → Host → Host → Prop
  lost_of_noted : ∀ {h k : Host}, h.notices.toList <+: k.notices.toList → lost h → lost k
  cut_of_noted : ∀ {m} {h k g : Host}, h.notices.toList <+: k.notices.toList → cut m h g → cut m k g

/-- The tie of the runs whose hosts compare as a ledger says. -/
def Ledger.tie (L : Ledger) : Tie where
  Place := L.Mark × Nat
  rel p w v := Abreast L.kind p.2 w v ∧ L.rel p.1 w.host v.host
  fails p f w v := Abreast L.kind p.2 w v ∧ L.fails p.1 f w.host v.host
  lost w := L.lost w.host
  cut p w v := Winding p.2 v ∧ L.cut p.1 w.host v.host
  agree h := h.1.agree
  lost_of_noted hn h := L.lost_of_noted hn h
  cut_of_noted hn h := ⟨h.1, L.cut_of_noted hn h.2⟩

/-- What a ledger has to satisfy, what is said and called apart. -/
structure Ledger.Basics (L : Ledger) : Prop where
  aside : ∀ {m} {w v : World} (a : Aside), L.rel m w.host v.host →
    L.rel m (a.apply w).host (a.apply v).host
  tame : ∀ {m f} {h k : Host}, L.rel m h k → ¬f.OfFrame → (L.kind = .recording → f.Tame) →
    L.fails m f h k
  patience : ∀ {m} {h k : Host}, L.rel m h k → L.fails m .outOfPatience h k
  chose : ∀ {m who} {h k : Host}, L.rel m h k → (Canvas.nameOf who).isList = false →
    L.rel m (h.jot (.chose who)) k
  choseList : ∀ {m who} {h k : Host}, L.rel m h k → (Canvas.nameOf who).isList = true →
    L.fails m .listAsTurtle (h.jot (.chose who)) k
  refuse : ∀ {m} {h k : Host}, h.listening = k.listening → L.rel m h k → L.rel m h.refuse k.refuse

/-- What a ledger has to satisfy. -/
structure Ledger.Laws (L : Ledger) : Prop extends L.Basics where
  emit : ∀ (p : L.tie.Place) {b c : List Token → SessionM Flow},
    (∀ (q : L.tie.Place) ts, Runs q (b ts) (c ts)) → ∀ text mode,
    Runs p (noteEmit b text mode) (emit c text mode)
  call : ∀ (p : L.tie.Place) {m n : SessionM Flow}, (∀ q : L.tie.Place, Runs q m n) →
    InStep p (inCall m) n

/-! ## Changes of the world -/

/-- Leaving a frame leaves one frame less. -/
theorem length_pop {s : Store} {n : Nat} (h : s.locals.length = n + 1) :
    s.pop.locals.length = n := by
  show s.locals.tail.length = n
  rw [List.length_tail, h]
  rfl

namespace Abreast

variable {kind : SurfaceKind} {n : Nat} {w v : World}

/-- What happens aside leaves runs abreast. -/
theorem aside (h : Abreast kind n w v) (a : Aside) : Abreast kind n (a.apply w) (a.apply v) := by
  have hagree := h.agree.aside a
  cases a <;> exact { h with agree := hagree }

/-- Drawing that follows from the canvas leaves runs abreast. -/
theorem draw {c : Canvas Number} (h : Abreast kind n w v) (hc : v.canvas.Follows c) (j : Nat) :
    Abreast kind n { w with canvas := c, undefined := j } { v with canvas := c, undefined := j } :=
  { h with
    agree := { h.agree with canvas := rfl, undefined := rfl }
    sane := hc.sane h.sane
    kind := hc.kind.trans h.kind }

/-- A change of names that keeps the number of frames leaves runs abreast. -/
theorem names {g : Store → Store} (h : Abreast kind n w v)
    (hlength : (g v.store).locals.length = v.store.locals.length) :
    Abreast kind n { w with store := g w.store } { v with store := g v.store } :=
  { h with
    agree := { h.agree with store := congrArg g h.agree.store }
    frames := hlength.trans h.frames }

/-- A new frame on both sides leaves runs abreast. -/
theorem push (h : Abreast kind n w v) (f : Frame) :
    Abreast kind (n + 1) { w with store := w.store.push f } { v with store := v.store.push f } :=
  { h with
    agree := { h.agree with store := congrArg (·.push f) h.agree.store }
    frames := congrArg (· + 1) h.frames }

/-- Leaving a frame on both sides leaves runs abreast. -/
theorem pop (h : Abreast kind (n + 1) w v) :
    Abreast kind n { w with store := w.store.pop } { v with store := v.store.pop } :=
  { h with
    agree := { h.agree with store := congrArg Store.pop h.agree.store }
    frames := length_pop h.frames }

/-- Closing the frame that both runs are in. -/
theorem closeFrame_left (h : Abreast kind (n + 1) w v) :
    closeFrame n w = .ok () { w with store := w.store.pop } :=
  closeFrame_eq (by rw [h.agree.store]; exact h.frames)

end Abreast

/-- The turtle that is current can be chosen. -/
theorem nameOf_current {c : Canvas Number} (h : c.Sane) :
    (Canvas.nameOf c.scene.current).isList = false := by
  have hname := h.name
  cases hcurrent : c.scene.current with
  | list vs => rw [hcurrent] at hname; cases hname
  | number x => rfl
  | truth b => rfl
  | nothing => rfl
  | word s => rfl

/-- A run that winds up can do on its canvas what is proper and does not fail. -/
theorem Winding.onCanvas {n : Nat} {v : World} {act : CanvasM Number Unit} (h : Winding n v)
    (hact : Canvas.Proper act) (hok : ∀ c, ∃ d, act c = .ok () d) :
    ∃ c j, Session.onCanvas act v = .ok () { v with canvas := c, undefined := j } ∧
      Winding n { v with canvas := c, undefined := j } := by
  obtain ⟨d, j, hd, hrun⟩ := onCanvas_eq act v.canvas v.undefined
  obtain ⟨c, hc⟩ := hok v.canvas
  have hfollows := (hact v.canvas).follows.trans hd
  exact ⟨d, j, (hrun v rfl rfl).1 () c hc, { h with sane := hfollows.sane h.sane }⟩

/-! ## The laws -/

namespace Ledger

variable {L : Ledger}

/-- What goes on in step in a frame goes on so outside. -/
theorem frame {c : Bool} (p : L.tie.Place) (f : Frame) {β : Type} {m n : SessionM β}
    (hm : ∀ q : L.tie.Place, Steps c q m n) : Steps c p (inFrame f m) (inFrame f n) := by
  refine .inFrame hm fun {w v} ⟨h, hl⟩ => ⟨(p.1, p.2 + 1), ⟨h.push f, hl⟩, ?_⟩
  rw [h.frames]
  refine ⟨fun ⟨h', hl'⟩ => ?_, fun ⟨h', hf'⟩ => Or.inl ?_, fun ⟨h', hc'⟩ => ?_, logs_closeFrame _,
    logs_closeFrame _⟩
  · rw [h'.closeFrame_left, closeFrame_eq h'.frames]
    exact .ok ⟨h'.pop, hl'⟩
  · exact ⟨_, _, h'.closeFrame_left, closeFrame_eq h'.frames, h'.pop, hf'⟩
  · exact ⟨_, closeFrame_eq h'.frames, { h' with frames := length_pop h'.frames }, hc'⟩

/-- What goes on in step within a count goes on so outside. -/
theorem counting (p : L.tie.Place) {m n : SessionM (Option Signal)}
    (hm : ∀ q : L.tie.Place,
      (∀ k, L.tie.Keeps q fun w => { w with store := { w.store with repcount := some k } }) →
      Runs q m n) :
    Runs p (counting m) (counting n) := by
  have hkeep : ∀ k : Option Nat, L.tie.Keeps p
      fun w => { w with store := { w.store with repcount := k } } := fun k =>
    ⟨fun ⟨h, hl⟩ => ⟨h.names (g := fun s => { s with repcount := k }) rfl, hl⟩, fun w => .refl w⟩
  have hlogs := (hm p fun k => hkeep (some k)).logs
  refine .counting hm hlogs fun {w v} hr => ⟨p, hr, fun k => hkeep (some k), ?_⟩
  refine ⟨fun hr' => .ok ((hkeep v.store.repcount).rel hr'), fun ⟨h', hf'⟩ => Or.inl ?_,
    fun ⟨h', hc'⟩ => ?_, fun w => .refl w, fun w => .refl w⟩
  · have hnames := h'.names (g := fun s => { s with repcount := v.store.repcount }) rfl
    exact ⟨_, _, rfl, rfl, hnames, hf'⟩
  · exact ⟨_, rfl, { h' with }, hc'⟩

namespace Basics

variable (H : L.Basics)
include H

/-- Drawing goes on in step. -/
theorem scene : SceneLaws L.tie where
  fault _ n h hc hf :=
    ⟨h.1.draw hc n, H.tame h.2 hf.not_ofFrame fun hk => hf.tame h.1.sane (h.1.kind.trans hk)⟩
  aside _ a := ⟨fun h => ⟨h.1.aside a, H.aside a h.2⟩, a.noted⟩
  frame := frame
  canvas _ n h hc := ⟨h.1.draw hc n, h.2⟩

/-- Speaking to another turtle goes on in step. -/
theorem tell (p : L.tie.Place) (who : Value) :
    InStep p (noteTell who) (onCanvas (Canvas.tell who)) := by
  refine ⟨fun {w v} ⟨h, hl⟩ => ?_, logs_noteTell who⟩
  have hnoted : Abreast L.kind p.2 (noted (.chose who) w) v := { h with agree := { h.agree with } }
  show L.tie.Outcome false p (onCanvas (Canvas.tell who) (noted (.chose who) w)) _
  by_cases hlist : (Canvas.nameOf who).isList = true
  · obtain ⟨d, j, hd, hrun⟩ := onCanvas_eq (Canvas.tell who) v.canvas v.undefined
    have htell := Canvas.tell_of_list hlist v.canvas
    rw [htell] at hd
    rw [(hrun (noted (.chose who) w) h.agree.canvas h.agree.undefined).2 _ _ htell,
      (hrun v rfl rfl).2 _ _ htell]
    exact .error ⟨hnoted.draw hd j, H.choseList hl hlist⟩
  · have hname : (Canvas.nameOf who).isList = false := by simpa using hlist
    exact (H.scene.onCanvas (Canvas.proper_tell hname)).run ⟨hnoted, H.chose hl hname⟩

/-- What closes a bracket by an action that is proper and does not fail. -/
theorem closes {p : L.tie.Place} {done failed : CanvasM Number Unit} (hdone : Canvas.Proper done)
    (hfailed : Canvas.Proper failed) (hdok : ∀ c, ∃ d, done c = .ok () d)
    (hfok : ∀ c, ∃ d, failed c = .ok () d) :
    L.tie.Closes p p (onCanvas done) (onCanvas failed) where
  rel hr := (H.scene.onCanvas hdone).run hr
  fails {f w v} := fun ⟨h, hf⟩ => by
    obtain ⟨d, j, hd, hrun⟩ := onCanvas_eq failed v.canvas v.undefined
    obtain ⟨c, hc⟩ := hfok v.canvas
    refine Or.inl ⟨_, _, (hrun w h.agree.canvas h.agree.undefined).1 () c hc,
      (hrun v rfl rfl).1 () c hc, h.draw ((hfailed v.canvas).follows.trans hd) j, hf⟩
  cut {w v} := fun ⟨h, hc⟩ => by
    obtain ⟨c, j, hrun, hwind⟩ := h.onCanvas hdone hdok
    exact ⟨_, hrun, hwind, hc⟩
  logs_done := logs_onCanvas _
  logs_failed := logs_onCanvas _

/-- A fill goes on in step if its block does. -/
theorem filling (p : L.tie.Place) {m n : SessionM Flow} (hm : ∀ q : L.tie.Place, Runs q m n) :
    Runs p (filling m) (filling n) := by
  refine .filling hm fun {w v} ⟨h, hl⟩ => ?_
  obtain ⟨d, j, hd, hrun⟩ := onCanvas_eq Canvas.beginFill v.canvas v.undefined
  obtain ⟨hwok, hwerror⟩ := hrun w h.agree.canvas h.agree.undefined
  obtain ⟨hvok, hverror⟩ := hrun v rfl rfl
  rcases v.canvas.beginFill_cases with ⟨t, ht⟩ | ⟨f, hf, hmeets⟩
  · rw [ht] at hd
    have hopen : Abreast L.kind p.2 { w with canvas := d, undefined := j }
        { v with canvas := d, undefined := j } := { h with
      agree := { h.agree with canvas := rfl, undefined := rfl }
      sane := hd.sane (Canvas.sane_beginFill h.sane t)
      kind := hd.kind.trans h.kind }
    refine Or.inl ⟨p, _, _, hwok _ _ ht, hvok _ _ ht, ⟨hopen, hl⟩, ?_⟩
    exact H.closes Canvas.proper_endFill Canvas.proper_cancelFill (fun c => ⟨_, rfl⟩)
      fun c => ⟨_, rfl⟩
  · rw [hf] at hd
    refine Or.inr ⟨f, _, _, hwerror _ _ hf, hverror _ _ hf, h.draw hd j, ?_⟩
    exact H.tame hl hmeets.not_ofFrame fun hk => hmeets.tame h.sane (h.kind.trans hk)

/-- A turn of another turtle goes on in step if its block does. -/
theorem asking (p : L.tie.Place) (who : Value) {m n : SessionM Flow}
    (hm : ∀ q : L.tie.Place, Runs q m n) : Runs p (noteAsking who m) (asking who n) := by
  refine .asking (hm p) (H.tell p who) fun {w v} ⟨h, hl⟩ => ?_
  have hname := nameOf_current h.sane
  have hok : ∀ c, ∃ d, Canvas.tell v.canvas.scene.current c = .ok () d := fun c =>
    ⟨_, congrFun (Canvas.tell_of_name hname) c⟩
  exact H.closes (Canvas.proper_tell hname) (Canvas.proper_tell hname) hok hok

/-- While a program is running, another one is refused. -/
theorem refused (p : L.tie.Place) {b d : List Token → SessionM Flow} (hb : ∀ ts, Logs (b ts))
    (code : Text) : InStep p (serve b (.execute code)) (serve d (.execute code)) := by
  refine ⟨fun {w v} ⟨h, hl⟩ => ?_, logs_serve_execute hb code⟩
  rw [serve_execute_of_running b (h.agree.running.trans h.running),
    serve_execute_of_running d h.running]
  refine .ok ⟨{ h with agree := ?_ }, H.refuse h.agree.listening hl⟩
  have hhost : ∀ g : Host, g.refuse = { g with notices := g.refuse.notices } := by
    intro g
    rw [Host.refuse]
    split <;> rfl
  rw [hhost w.host, hhost v.host]
  exact { h.agree with }

end Basics

/-- A text changes no more than what the host has heard. -/
theorem abreast_heard {kind : SurfaceKind} {n : Nat} {w v : World} (h : Abreast kind n w v)
    (text : Text) (mode : OutputMode) :
    Abreast kind n (heard text mode w) (heard text mode v) := by
  have hagree := agree_heard h.agree text mode
  cases mode <;> exact { h with agree := hagree }

/-- Printing leaves runs abreast. -/
theorem abreast_printed {kind : SurfaceKind} {n : Nat} {w v : World} (h : Abreast kind n w v)
    (text : Text) (mode : OutputMode) :
    Abreast kind n (printed text mode w) (printed text mode v) := by
  have hagree := agree_printed h.agree text mode
  cases mode <;> exact { h with agree := hagree }

/-- The laws of statements. -/
theorem Laws.statements (H : L.Laws) : StatementLaws L.tie where
  toSceneLaws := H.scene
  patience h := ⟨h.1, H.patience h.2⟩
  cancelled h := h.1.cancelled
  names _ _ hgrows _ := ⟨fun ⟨h, hl⟩ => ⟨h.names (hgrows _).length, hl⟩, fun w => .refl w⟩
  tell := H.tell
  emit := H.emit
  call := H.call
  counting := counting
  filling := H.filling
  asking := H.asking

end Ledger

end Session

end TurtleLogo
