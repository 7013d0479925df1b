import TurtleLogo.Proofs.Diary
import TurtleLogo.Proofs.Reaction
import TurtleLogo.Proofs.Scope

/-! # Runs in step with their diaries

    What a tie has to satisfy for a run that keeps a diary to go on in step
    with a plain run (`StatementLaws`), and that this is enough
    (`StatementLaws.block`).  A law is either about one change of the world or
    about one of the brackets that a program can open: the frame of a call or
    loop, the count of a `REPEAT`, a fill, and a turn of another turtle.  So a
    fact about all programs is proved by checking a dozen laws. -/

namespace TurtleLogo.Session

variable {T : Tie} {β : Type}

/-! ## What brackets note -/

/-- A note is noted. -/
theorem noted_noted (n : Notice) (w : World) : Noted w (noted n w) := by
  show w.host.notices.toList <+: (w.host.notices.push n).toList
  rw [Array.toList_push]
  exact List.prefix_append _ _

/-- How a frame is closed. -/
theorem closeFrame_cases (n : Nat) (w : World) :
    (w.store.locals.length = n + 1 ∧ closeFrame n w = .ok () { w with store := w.store.pop })
      ∨ (w.store.locals.length ≠ n + 1 ∧
        ∃ f s, closeFrame n w = .error f { w with store := s }) := by
  cases hl : w.store.locals with
  | nil =>
      refine Or.inr ⟨by simp, .noSuchIndex, w.store, ?_⟩
      show (if w.store.locals.isEmpty = true then _ else _ : SessionM Unit) w = _
      rw [hl]
      rfl
  | cons f fs =>
      have hclose : closeFrame n w = (if w.store.locals.length ≠ n + 1 then throw .strayFrame
          else pure () : SessionM Unit) { w with store := w.store.pop } := by
        show (if w.store.locals.isEmpty = true then _ else _ : SessionM Unit) w = _
        rw [hl]
        rfl
      rw [hclose, hl]
      by_cases hn : (f :: fs).length = n + 1
      · rw [if_neg (by simpa using hn)]
        exact Or.inl ⟨hn, rfl⟩
      · rw [if_pos hn]
        exact Or.inr ⟨hn, .strayFrame, w.store.pop, rfl⟩

/-- The frame that was opened last can be closed. -/
theorem closeFrame_eq {n : Nat} {w : World} (h : w.store.locals.length = n + 1) :
    closeFrame n w = .ok () { w with store := w.store.pop } := by
  rcases closeFrame_cases n w with ⟨-, hclose⟩ | ⟨hn, -⟩
  · exact hclose
  · exact absurd h hn

/-- Closing a frame takes no notice back. -/
theorem logs_closeFrame (n : Nat) : Logs (closeFrame n) := by
  intro w
  rcases closeFrame_cases n w with ⟨-, hclose⟩ | ⟨-, f, s, hclose⟩
  · rw [hclose]; exact .refl w
  · rw [hclose]; exact .refl w

/-- What is done in a frame is wrapped up by closing it. -/
theorem inFrame_eq (f : Frame) (m : SessionM β) (w : World) :
    inFrame f m w = wrapUp m (closeFrame w.store.locals.length) (closeFrame w.store.locals.length)
      { w with store := w.store.push f } := rfl

/-- What only adds notices does so in a frame, too. -/
theorem logs_inFrame {m : SessionM β} (hm : Logs m) (f : Frame) : Logs (inFrame f m) := fun w => by
  rw [inFrame_eq]
  exact Logs.wrapUp hm (logs_closeFrame _) (logs_closeFrame _) { w with store := w.store.push f }

/-- What is counted is wrapped up by setting the count back. -/
theorem counting_eq (m : SessionM β) (w : World) :
    counting m w = wrapUp m
      (modify fun u => { u with store := { u.store with repcount := w.store.repcount } })
      (modify fun u => { u with store := { u.store with repcount := w.store.repcount } }) w := by
  rw [← afterwards_eq]
  rfl

/-- Counting takes no notice back. -/
theorem logs_counting {m : SessionM β} (hm : Logs m) : Logs (counting m) := fun w => by
  have hrestore : Logs (modify fun u =>
      { u with store := { u.store with repcount := w.store.repcount } } : SessionM Unit) :=
    fun u => .refl u
  rw [counting_eq]
  exact Logs.wrapUp hm hrestore hrestore w

/-- Filling takes no notice back. -/
theorem logs_filling {m : SessionM β} (hm : Logs m) : Logs (filling m) :=
  .bind (logs_onCanvas _) fun _ => .wrapUp hm (logs_onCanvas _) (logs_onCanvas _)

/-- Choosing a turtle takes no notice back. -/
theorem logs_noteTell (who : Value) : Logs (noteTell who) :=
  .bind (logs_note _) fun _ => logs_onCanvas _

/-- The turn of another turtle is noted first, and wrapped up by giving the turtle
    back. -/
theorem noteAsking_eq (who : Value) (m : SessionM β) (w : World) :
    noteAsking who m w = (do
      onCanvas (Canvas.tell who)
      wrapUp m (onCanvas (Canvas.tell w.canvas.scene.current))
        (onCanvas (Canvas.tell w.canvas.scene.current)) : SessionM β) (noted (.chose who) w) := rfl

/-- Without a diary it is the same, but for the note. -/
theorem asking_eq (who : Value) (m : SessionM β) (w : World) :
    asking who m w = (do
      onCanvas (Canvas.tell who)
      wrapUp m (onCanvas (Canvas.tell w.canvas.scene.current))
        (onCanvas (Canvas.tell w.canvas.scene.current)) : SessionM β) w := rfl

/-- The turn of another turtle takes no notice back. -/
theorem logs_noteAsking {m : SessionM β} (hm : Logs m) (who : Value) : Logs (noteAsking who m) := by
  intro w
  rw [noteAsking_eq]
  refine (noted_noted (.chose who) w).trans ?_
  exact Logs.bind (logs_onCanvas _) (fun _ => .wrapUp hm (logs_onCanvas _) (logs_onCanvas _)) _

/-- A call for a value is noted when it begins and when it is over. -/
theorem inCall_eq (m : SessionM β) (w : World) :
    inCall m w = afterwards m (noted .returned) (noted .called w) := rfl

/-- A note at the end takes back nothing. -/
theorem noted_afterwards (m : SessionM β) (n : Notice) (w : World) :
    Noted (endOf (m w)) (endOf (afterwards m (noted n) w)) := by
  have hnote : Logs (modify (noted n) : SessionM Unit) := fun u => noted_noted n u
  rw [afterwards_eq]
  exact Logs.noted_wrapUp hnote hnote m w

/-- A call for a value takes no notice back. -/
theorem logs_inCall {m : SessionM β} (hm : Logs m) : Logs (inCall m) := by
  intro w
  have hcalled : Noted w (endOf (m (noted .called w))) := (noted_noted .called w).trans (hm _)
  rw [inCall_eq]
  exact hcalled.trans (noted_afterwards m .returned _)

/-! ## Brackets in step

    Two runs that open a bracket go on in step if that leads to a place from
    which closing it leads back. -/

namespace Steps

variable {c : Bool} {p : T.Place} {m n : SessionM β}

/-- What is in step is in step in a frame, if frames can be opened and closed in
    step. -/
theorem inFrame {f : Frame} (hm : ∀ q : T.Place, Steps c q m n)
    (hopen : ∀ {w v}, T.rel p w v → ∃ q : T.Place,
      T.rel q { w with store := w.store.push f } { v with store := v.store.push f } ∧
        T.Closes p q (closeFrame v.store.locals.length) (closeFrame v.store.locals.length)) :
    Steps c p (inFrame f m) (inFrame f n) := by
  refine ⟨fun {w v} hr => ?_, logs_inFrame (hm p).logs f⟩
  obtain ⟨q, hq, hclose⟩ := hopen hr
  rw [inFrame_eq, inFrame_eq, (T.agree hr).store]
  rw [(T.agree hr).store] at hq
  exact hclose.outcome ((hm q).run hq)

/-- What is in step is in step while it is counted, if counts can be set in step. -/
theorem counting (hm : ∀ q : T.Place,
      (∀ k, T.Keeps q fun w => { w with store := { w.store with repcount := some k } }) →
      Steps c q m n)
    (hlogs : Logs m)
    (hopen : ∀ {w v}, T.rel p w v → ∃ q : T.Place, T.rel q w v ∧
      (∀ k, T.Keeps q fun w => { w with store := { w.store with repcount := some k } }) ∧
      T.Closes p q
        (modify fun u => { u with store := { u.store with repcount := v.store.repcount } })
        (modify fun u => { u with store := { u.store with repcount := v.store.repcount } })) :
    Steps c p (counting m) (counting n) := by
  refine ⟨fun {w v} hr => ?_, logs_counting hlogs⟩
  obtain ⟨q, hq, hkeep, hclose⟩ := hopen hr
  rw [counting_eq, counting_eq, (T.agree hr).store]
  exact hclose.outcome ((hm q hkeep).run hq)

/-- What is in step is in step while it is filled, if fills can be begun and closed
    in step. -/
theorem filling (hm : ∀ q : T.Place, Steps c q m n)
    (hopen : ∀ {w v}, T.rel p w v →
      (∃ q w' v', onCanvas Canvas.beginFill w = .ok () w' ∧
        onCanvas Canvas.beginFill v = .ok () v' ∧ T.rel q w' v' ∧
        T.Closes p q (onCanvas Canvas.endFill) (onCanvas Canvas.cancelFill))
      ∨ ∃ f w' v', onCanvas Canvas.beginFill w = .error f w' ∧
        onCanvas Canvas.beginFill v = .error f v' ∧ T.fails p f w' v') :
    Steps c p (filling m) (filling n) := by
  refine ⟨fun {w v} hr => ?_, logs_filling (hm p).logs⟩
  rcases hopen hr with ⟨q, w', v', hw, hv, hq, hclose⟩ | ⟨f, w', v', hw, hv, hf⟩
  · rw [Session.filling, Session.filling, bind_of_ok hw, bind_of_ok hv]
    exact hclose.outcome ((hm q).run hq)
  · rw [Session.filling, Session.filling, bind_of_error hw, bind_of_error hv]
    exact .error hf

/-- What is in step is in step in the turn of another turtle, if turns can be given
    and taken back in step. -/
theorem asking {who : Value} (hm : Steps c p m n)
    (htell : InStep p (noteTell who) (onCanvas (Canvas.tell who)))
    (hclose : ∀ {w v}, T.rel p w v →
      T.Closes p p (onCanvas (Canvas.tell v.canvas.scene.current))
        (onCanvas (Canvas.tell v.canvas.scene.current))) :
    Steps c p (noteAsking who m) (asking who n) := by
  refine ⟨fun {w v} hr => ?_, logs_noteAsking hm.logs who⟩
  have hasked : Steps c p
      (noteTell who >>= fun _ => wrapUp m (onCanvas (Canvas.tell v.canvas.scene.current))
        (onCanvas (Canvas.tell v.canvas.scene.current)))
      (onCanvas (Canvas.tell who) >>= fun _ => wrapUp n
        (onCanvas (Canvas.tell v.canvas.scene.current))
        (onCanvas (Canvas.tell v.canvas.scene.current))) :=
    .bind htell fun _ => ⟨fun hr' => (hclose hr).outcome (hm.run hr'),
      .wrapUp hm.logs (logs_onCanvas _) (logs_onCanvas _)⟩
  rw [noteAsking_eq, asking_eq, (T.agree hr).canvas]
  exact hasked.run hr

/-- A call that is noted on the left only, and inside of which the tie is not
    cut. -/
theorem inCall (hm : ∀ q : T.Place, Steps c q m n)
    (hopen : ∀ {w v}, T.rel p w v → ∃ q : T.Place, T.rel q (noted .called w) v ∧
      (∀ {w' v'}, T.rel q w' v' → T.rel p (noted .returned w') v') ∧
      (∀ {f w' v'}, T.fails q f w' v' → T.fails p f (noted .returned w') v') ∧
      ∀ {w' v'}, ¬T.cut q w' v') :
    InStep p (inCall m) n := by
  refine ⟨fun {w v} hr => ?_, logs_inCall (hm p).logs⟩
  obtain ⟨q, hq, hrel, hfails, hcut⟩ := hopen hr
  have hrun := (hm q).run hq
  have hnoted := noted_afterwards m .returned (noted .called w)
  rw [inCall_eq]
  generalize hleft : m (noted .called w) = r at hrun hnoted
  generalize n v = s at hrun
  cases hrun with
  | lost hl => exact .lost (T.lost_of_noted hnoted hl)
  | ok hr' => rw [afterwards_ok hleft]; exact .ok (hrel hr')
  | error hf => rw [afterwards_error hleft]; exact .error (hfails hf)
  | cut _ hc => exact absurd hc hcut

/-- What the host's reaction ends with is noted. -/
theorem noteEmit {b d : List Token → SessionM Flow} {text : Text} {mode : OutputMode}
    (h : Steps c p (emit b text mode) (emit d text mode))
    (hraised : ∀ {f w v}, T.fails p f w v →
      T.Outcome c p (.error f (noted (.raised f) w))
        (.error f v : EStateM.Result Fault World Unit)) :
    Steps c p (noteEmit b text mode) (emit d text mode) := by
  have hok : ∀ {w a u}, emit b text mode w = .ok a u → Session.noteEmit b text mode w = .ok a u :=
    fun hw => by simp only [Session.noteEmit, hw]
  have herror : ∀ {w f u}, emit b text mode w = .error f u →
      Session.noteEmit b text mode w = .error f (noted (.raised f) u) :=
    fun hw => by simp only [Session.noteEmit, hw]
  have hnoted : ∀ w, Noted (endOf (emit b text mode w))
      (endOf (Session.noteEmit b text mode w)) := by
    intro w
    cases hw : emit b text mode w with
    | ok a u => rw [hok hw]; exact .refl u
    | error f u => rw [herror hw]; exact noted_noted _ u
  refine ⟨fun {w v} hr => ?_, fun w => (h.logs w).trans (hnoted w)⟩
  have hrun := h.run hr
  have hw := hnoted w
  generalize hleft : emit b text mode w = r at hrun hw
  generalize emit d text mode v = s at hrun
  cases hrun with
  | lost hl => exact .lost (T.lost_of_noted hw hl)
  | ok hr' => rw [hok hleft]; exact .ok hr'
  | error hf => rw [herror hleft]; exact hraised hf
  | cut hc hu => exact .cut hc (T.cut_of_noted hw hu)

end Steps

/-! ## What a tie has to satisfy -/

/-- The steps that statements take by themselves, and the brackets that they
    open. -/
structure StatementLaws (T : Tie) : Prop extends SceneLaws T where
  patience : ∀ {p w v}, T.rel p w v → T.fails p .outOfPatience w v
  cancelled : ∀ {p w v}, T.cut p w v → v.pacer.cancelled = true
  names : ∀ p {g : Store → Store}, (∀ s : Store, s.Grows (g s)) →
    (∀ s, (g s).repcount = s.repcount) →
    T.Keeps p fun w => { w with store := g w.store }
  tell : ∀ (p : T.Place) who, InStep p (noteTell who) (onCanvas (Canvas.tell who))
  emit : ∀ (p : T.Place) {b c : List Token → SessionM Flow},
    (∀ (q : T.Place) ts, Runs q (b ts) (c ts)) → ∀ text mode,
    Runs p (noteEmit b text mode) (emit c text mode)
  call : ∀ (p : T.Place) {m n : SessionM Flow}, (∀ q : T.Place, Runs q m n) → InStep p (inCall m) n
  counting : ∀ (p : T.Place) {m n : SessionM (Option Signal)},
    (∀ q : T.Place,
      (∀ k, T.Keeps q fun w => { w with store := { w.store with repcount := some k } }) →
      Runs q m n) →
    Runs p (counting m) (counting n)
  filling : ∀ (p : T.Place) {m n : SessionM Flow}, (∀ q : T.Place, Runs q m n) →
    Runs p (filling m) (filling n)
  asking : ∀ (p : T.Place) who {m n : SessionM Flow}, (∀ q : T.Place, Runs q m n) →
    Runs p (noteAsking who m) (asking who n)

namespace StatementLaws

variable (L : StatementLaws T) {c : Bool} {p : T.Place}
include L

/-! ## Pauses and stop requests -/

/-- Both runs see the same stop requests. -/
theorem stopRequested : InStep p stopRequested stopRequested := by
  refine L.onPacer fun {q f q'} h => ?_
  obtain ⟨b, r, hlook⟩ := Pacer.look_eq q
  rw [hlook] at h
  cases h

/-- Both runs make the same pause after a statement. -/
theorem checkpoint : InStep p (Session.onPacer Pacer.checkpoint)
    (Session.onPacer Pacer.checkpoint) := L.onPacer Pacer.tame_checkpoint

/-- A run that has been cut finds the stop request. -/
theorem windsUp_stopRequested {k : Bool → SessionM β} (hk : T.WindsUp p (k true)) :
    T.WindsUp p (Session.stopRequested >>= k) := by
  intro w v h
  have hstop : Session.stopRequested v = .ok true v := by
    simp only [Session.stopRequested, Session.onPacer, Pacer.look_of_cancelled (L.cancelled h)]
  obtain ⟨b, u, hb, hu⟩ := hk w v h
  exact ⟨b, u, by rw [bind_of_ok hstop, hb], hu⟩

/-- Where the tie is cut, the pause after a statement winds up. -/
theorem windsUp_checkpoint : T.WindsUp p (Session.onPacer Pacer.checkpoint) := by
  intro w v h
  refine ⟨(), v, ?_, h⟩
  simp only [Session.onPacer, Pacer.checkpoint_of_cancelled (L.cancelled h)]

/-! ## Commands -/

/-- An input is a name in both runs, or in neither. -/
theorem variableName (v : Value) (who : Text) :
    InStep p (variableName v who) (variableName v who) := by
  refine .bind (L.text v) fun name => ?_
  dsimp only
  split
  · exact .bind (L.throw rfl) fun _ => .pure _
  · exact .pure _

/-- A proper motion is in step. -/
theorem motion (who : Text) {move : Number → CanvasM Number Unit}
    (hmove : ∀ n, Canvas.Proper (move n)) (v : Value) :
    Steps c p (motion who move v) (motion who move v) :=
  .bind (L.number v who) fun n => L.onCanvas (hmove n)

variable {E F : Engine} (hE : EnginesInStep T true E F)
include hE

/-- A command is in step with the same command in a diary. -/
theorem perform (cmd : Command) (args : List Value) :
    Runs p (notePerform E.block cmd args) (perform F.block cmd args) := by
  cases cmd with
  | tell => exact (L.tell p _).weaken
  | printValue => exact .bind (L.text _) fun t => L.emit p hE.block t _
  | showValue => exact .bind (L.compute (Value.usual_shown _)) fun t => L.emit p hE.block t _
  | typeValue => exact .bind (L.text _) fun t => L.emit p hE.block t _
  | make =>
      exact .bind (L.variableName _ _) fun name => .changing
        (L.names p (fun s => s.grows_set name _) fun s => s.repcount_set name _)
  | makeLocal =>
      exact .bind (L.variableName _ _) fun name => .changing
        (L.names p (fun s => s.grows_setLocal name _) fun s => s.repcount_setLocal name _)
  | forward => exact L.motion _ Canvas.proper_forward _
  | back => exact L.motion _ (fun n => Canvas.proper_forward n.neg) _
  | left => exact L.motion _ Canvas.proper_left _
  | right => exact L.motion _ Canvas.proper_right _
  | setX => exact L.motion _ Canvas.proper_setX _
  | setY => exact L.motion _ Canvas.proper_setY _
  | setHeading => exact L.motion _ Canvas.proper_setHeading _
  | circle => exact L.motion _ Canvas.proper_circle _
  | setPenSize => exact L.motion _ (fun _ => Canvas.proper_changeTurtle _) _
  | setPosition => exact .bind (L.point _ _) fun _ => L.onCanvas (Canvas.proper_moveTo _ _)
  | arc =>
      exact .bind (L.number _ _) fun _ => .bind (L.number _ _) fun _ =>
        L.onCanvas (Canvas.proper_arc _ _)
  | setPenColor =>
      exact .bind (L.compute (Colour.usual_resolve _)) fun _ =>
        L.onCanvas (Canvas.proper_changeTurtle _)
  | setBackground =>
      exact .bind (L.compute (Colour.usual_resolve _)) fun _ =>
        L.onCanvas (Canvas.proper_setBackground _)
  | wait => exact .bind (L.number _ _) fun _ => L.onPacer Pacer.tame_pause
  | home => exact L.onCanvas Canvas.proper_home
  | penUp | penDown | penErase | penPaint => exact L.onCanvas (Canvas.proper_changeTurtle _)
  | clearScreen => exact L.onCanvas Canvas.proper_clearScreen
  | clean => exact L.onCanvas Canvas.proper_clean
  | hideTurtle | showTurtle => exact L.onCanvas (Canvas.proper_setVisible _)
  | wrapMode | windowMode | fenceMode => exact L.onCanvas (Canvas.proper_setMode _)

/-! ## Forms -/

omit hE

/-- Both runs find the same block. -/
theorem blockAt (place : BlockPlace) (ts : List Token) :
    InStep p (blockAt place ts) (blockAt place ts) :=
  L.attempt (Token.tamed_block place ts)

/-- Both runs define the same procedure. -/
theorem defineProcedure (ts : List Token) :
    Runs p (defineProcedure ts) (defineProcedure ts) := by
  unfold Session.defineProcedure
  -- without a name, without an end, with a name that is taken, or as it should be
  split
  · dsimp only
    split
    · exact .weaken (L.throw rfl)
    · split
      · exact .weaken (L.throw rfl)
      · refine .bind (.changing ?_) fun _ => .pure _
        exact L.names p (fun s => s.grows_define _) fun _ => rfl
  · exact .weaken (L.throw rfl)

include hE

/-- The passes of `REPEAT` are in step. -/
theorem repeatPasses (body : List Token)
    (hkeep : ∀ k, T.Keeps p fun w => { w with store := { w.store with repcount := some k } })
    (left count : Nat) :
    Runs p (repeatPasses E body left count) (repeatPasses F body left count) := by
  induction left generalizing count with
  | zero => exact .pure _
  | succ left ih =>
      refine .bind L.stopRequested fun stop => ?_
      split
      · exact .pure _
      · refine .bind (.changing (hkeep count)) fun _ => ?_
        refine .bind_cut (hE.block p body) (fun flow => ?_) fun flow => ?_
        · cases flow with
          | signal s => exact .pure _
          | done _ => exact ih (count + 1)
        · -- a run that has been cut in its body leaves at the next look
          cases flow with
          | signal s => exact .pure _
          | done _ =>
              cases left with
              | zero => exact .pure _
              | succ left => exact L.windsUp_stopRequested (.pure _)

/-- The form `REPEAT` is in step. -/
theorem repeatForm (ts : List Token) : Runs p (repeatForm E ts) (repeatForm F ts) := by
  refine .bind (hE.expression p ts) fun ⟨count, ts⟩ => ?_
  refine .bind (L.blockAt _ ts) fun ⟨body, rest⟩ => ?_
  refine .bind (L.number count _) fun n => ?_
  refine .bind (L.compute (Number.usual_whole _ n)) fun times => ?_
  refine .bind_cut (L.counting p fun q hkeep => L.repeatPasses hE body hkeep _ _) (fun ended => ?_)
    fun ended => ?_
  · cases ended <;> exact .pure _
  · cases ended <;> exact .pure _

/-- The passes of `WHILE` are in step. -/
theorem whilePasses (test body : List Token) (patience : Nat) :
    Runs p (whilePasses E test body patience) (whilePasses F test body patience) := by
  induction patience with
  | zero =>
      refine .bind L.stopRequested fun stop => ?_
      split
      · exact .pure _
      · exact .throw L.patience
  | succ patience ih =>
      refine .bind L.stopRequested fun stop => ?_
      split
      · exact .pure _
      · refine .bind (L.condition hE test) fun ⟨v, _⟩ => ?_
        dsimp only
        split
        · exact .pure _
        · refine .bind_cut (hE.block p body) (fun flow => ?_) fun flow => ?_
          · cases flow with
            | signal s => exact .pure _
            | done _ => exact ih
          · cases flow with
            | signal s => exact .pure _
            | done _ => cases patience <;> exact L.windsUp_stopRequested (.pure _)

/-- The form `WHILE` is in step. -/
theorem whileForm (patience : Nat) (ts : List Token) :
    Runs p (whileForm E patience ts) (whileForm F patience ts) := by
  refine .bind (L.blockAt _ ts) fun ⟨test, ts⟩ => .bind (L.blockAt _ ts) fun ⟨body, rest⟩ => ?_
  refine .bind_cut (L.whilePasses hE test body patience) (fun ended => ?_) fun ended => ?_
  · cases ended <;> exact .pure _
  · cases ended <;> exact .pure _

omit L hE in
/-- The value of a loop variable divides by nothing. -/
theorem usual_valueAt (r : LoopRange) (pass : Nat) : Usual (r.valueAt pass) :=
  .bind (Number.usual_mul _ _) fun _ => Number.usual_add _ _

/-- The passes of `FOR` are in step. -/
theorem forPasses (r : LoopRange) (body : List Token) (patience pass : Nat) :
    Runs p (forPasses E r body patience pass) (forPasses F r body patience pass) := by
  induction patience generalizing pass with
  | zero =>
      refine .bind L.stopRequested fun stop => ?_
      split
      · exact .pure _
      · exact .throw L.patience
  | succ patience ih =>
      refine .bind L.stopRequested fun stop => ?_
      split
      · exact .pure _
      · refine .bind (L.compute (usual_valueAt r pass)) fun v => .bind (L.fresh v) fun v => ?_
        split
        · exact .pure _
        · refine .bind (.changing (L.names p (fun s => s.grows_bindInnermost _ _)
            fun s => s.repcount_bindInnermost _ _)) fun _ => ?_
          refine .bind_cut (hE.block p body) (fun flow => ?_) fun flow => ?_
          · cases flow with
            | signal s => exact .pure _
            | done _ => exact ih (pass + 1)
          · cases flow with
            | signal s => exact .pure _
            | done _ => cases patience <;> exact L.windsUp_stopRequested (.pure _)

omit L in
/-- The step of a `FOR` loop is read in step. -/
theorem stepValue (more : List Token) : InStep p (stepValue E more) (stepValue F more) := by
  simp only [Session.stepValue]
  split
  · exact .pure _
  · exact .bind (hE.expression p more) fun _ => .pure _

omit hE in
/-- The range of a `FOR` loop is found in step. -/
theorem loopRange (name : Text) (start finish step : Value) :
    InStep p (loopRange name start finish step) (loopRange name start finish step) := by
  refine .bind (L.number start _) fun start => .bind (L.number finish _) fun finish => ?_
  refine .bind (L.number step _) fun step => ?_
  dsimp only
  split
  · exact .bind (L.throw rfl) fun _ => .pure _
  · exact .pure _

/-- The form `FOR` is in step. -/
theorem forForm (patience : Nat) (ts : List Token) :
    Runs p (forForm E patience ts) (forForm F patience ts) := by
  refine .bind (L.blockAt _ ts) fun ⟨control, ts⟩ => ?_
  dsimp only
  split
  · exact .weaken (L.throw rfl)
  · refine .bind (L.blockAt _ ts) fun ⟨body, rest⟩ => ?_
    refine .bind (hE.expression p _) fun ⟨start, more⟩ => ?_
    refine .bind (hE.expression p _) fun ⟨finish, more⟩ => ?_
    refine .bind (stepValue hE _) fun step => .bind (L.loopRange _ _ _ step) fun range => ?_
    refine .bind_cut (L.frame p _ fun q => L.forPasses hE range body patience 0) (fun ended => ?_)
      fun ended => ?_
    · cases ended <;> exact .pure _
    · cases ended <;> exact .pure _

/-- The form `IF` is in step. -/
theorem ifForm (ts : List Token) : Runs p (ifForm E ts) (ifForm F ts) := by
  refine .bind (L.condition hE ts) fun ⟨v, ts⟩ => .bind (L.blockAt _ ts) fun ⟨body, rest⟩ => ?_
  dsimp only
  split
  · exact .bind_cut (hE.block p body) (fun _ => .pure _) fun _ => .pure _
  · exact .pure _

/-- The form `IFELSE` is in step. -/
theorem ifElseForm (ts : List Token) : Runs p (ifElseForm E ts) (ifElseForm F ts) := by
  refine .bind (L.condition hE ts) fun ⟨v, ts⟩ => .bind (L.blockAt _ ts) fun ⟨yes, ts⟩ => ?_
  refine .bind (L.blockAt _ ts) fun ⟨no, rest⟩ => ?_
  exact .bind_cut (hE.block p _) (fun _ => .pure _) fun _ => .pure _

/-- The form `FILLED` is in step. -/
theorem filledForm (ts : List Token) : Runs p (filledForm E ts) (filledForm F ts) := by
  refine .bind (L.blockAt _ ts) fun ⟨body, rest⟩ => ?_
  exact .bind_cut (L.filling p fun q => hE.block q body) (fun _ => .pure _) fun _ => .pure _

/-- The form `ASK` is in step with its diary. -/
theorem askForm (ts : List Token) : Runs p (noteAskForm E ts) (askForm F ts) := by
  refine .bind (hE.expression p ts) fun ⟨who, ts⟩ => .bind (L.blockAt _ ts) fun ⟨body, rest⟩ => ?_
  exact .bind_cut (L.asking p who fun q => hE.block q body) (fun _ => .pure _) fun _ => .pure _

/-- Every form is in step. -/
theorem form (patience : Nat) (form : Form) (ts : List Token) :
    Runs p (noteForm E patience form ts) (runForm F patience form ts) := by
  match form with
  | .to => exact L.defineProcedure ts
  | .endTo => exact .weaken (L.throw rfl)
  | .repeatTimes => exact L.repeatForm hE ts
  | .ifThen => exact L.ifForm hE ts
  | .ifElse => exact L.ifElseForm hE ts
  | .forLoop => exact L.forForm hE patience ts
  | .whileLoop => exact L.whileForm hE patience ts
  | .stop => exact .pure _
  | .output => exact .bind (hE.expression p ts) fun _ => .pure _
  | .filled => exact L.filledForm hE ts
  | .ask => exact L.askForm hE ts

/-! ## Statements -/

/-- A statement that starts with a word is in step. -/
theorem wordStatement (patience : Nat) (name : Text) (ts : List Token) :
    Runs p (noteWord E patience name ts) (wordStatement F patience name ts) := by
  cases hform : Form.ofName? name with
  | some f =>
      simp only [noteWord, Session.wordStatement, hform]
      exact L.form hE patience f ts
  | none =>
      cases hcmd : Command.ofName? name with
      | some cmd =>
          simp only [noteWord, Session.wordStatement, hform, hcmd]
          refine .bind (ExpressionLaws.arguments hE _ ts) fun ⟨args, rest⟩ => ?_
          exact .bind_cut (L.perform hE cmd args) (fun _ => .pure _) fun _ => .pure _
      | none =>
          simp only [noteWord, Session.wordStatement, hform, hcmd]
          refine .bind ExpressionLaws.store fun s => ?_
          split
          · refine .bind (ExpressionLaws.arguments hE _ ts) fun ⟨args, rest⟩ => ?_
            exact .bind_cut (L.invoke hE _ args) (fun _ => .pure _) fun _ => .pure _
          · split
            · exact .weaken (L.throw rfl)
            · exact .bind ExpressionLaws.knownNames fun names =>
                .weaken (L.throw (Spelling.tame_unknownCommand name names))

/-- Every statement is in step. -/
theorem statement (patience : Nat) (ts : List Token) :
    Runs p (noteStatement E patience ts) (statement F patience ts) := by
  cases ts with
  | nil => exact .pure _
  | cons t ts =>
      cases t with
      | word name => exact L.wordStatement hE patience name ts
      | _ => exact .pure _

omit hE

/-- Statements are in step if each one is. -/
theorem statements {one two : List Token → SessionM Flow} (h : ∀ ts, Runs p (one ts) (two ts))
    (n : Nat) (ts : List Token) : Runs p (statements one n ts) (statements two n ts) := by
  induction n generalizing ts with
  | zero => exact .pure _
  | succ n ih =>
      cases ts with
      | nil => exact .pure _
      | cons t ts =>
          refine .bind L.stopRequested fun stop => ?_
          split
          · exact .pure _
          · refine .bind_cut (h _) (fun flow => ?_) fun flow => ?_
            · cases flow with
              | signal s => exact .pure _
              | done rest => exact .bind L.checkpoint fun _ => ih rest
            · -- a run that has been cut does not pause, and takes up no other statement
              cases flow with
              | signal s => exact .pure _
              | done rest =>
                  refine .bind L.windsUp_checkpoint fun _ => ?_
                  cases n with
                  | zero => exact .pure _
                  | succ n =>
                      cases rest with
                      | nil => exact .pure _
                      | cons t rest => exact L.windsUp_stopRequested (.pure _)

/-! ## All programs -/

mutual
/-- An expression whose calls are noted goes on in step with the plain one. -/
theorem expression (patience : Nat) : ∀ (depth : Nat) (p : T.Place) (ts : List Token),
    InStep p (diaryExpressionAt patience depth ts) (expressionAt patience depth ts)
  | depth + 7, p, ts => by
      rw [diaryExpressionAt, expressionAt]
      -- the blocks of an expression are bodies that are called for a value
      refine L.sum ⟨expression patience depth, fun q body => ?_⟩ ts
      exact L.call q fun r => block patience depth r body
  | 0, _, _ | 1, _, _ | 2, _, _ | 3, _, _ | 4, _, _ | 5, _, _ | 6, _, _ => L.throw rfl
/-- A block that keeps a diary goes on in step with the plain one, unless the
    tie is cut. -/
theorem block (patience : Nat) : ∀ (depth : Nat) (p : T.Place) (ts : List Token),
    Runs p (diaryBlockAt patience depth ts) (blockAtDepth patience depth ts)
  | depth + 3, p, ts => by
      rw [diaryBlockAt, blockAtDepth]
      refine L.statements (fun ts => L.statement ?_ patience ts) ts.length ts
      exact ⟨expression patience depth, block patience depth⟩
  | 0, _, _ | 1, _, _ | 2, _, _ => .weaken (L.throw rfl)
end

/-- The engines of a run that keeps a diary and of a plain run. -/
theorem engines (patience depth : Nat) :
    EnginesInStep T true ⟨diaryExpressionAt patience depth, diaryBlockAt patience depth⟩
      ⟨expressionAt patience depth, blockAtDepth patience depth⟩ :=
  ⟨L.expression patience depth, L.block patience depth⟩

end StatementLaws

/-! ## Engines that have no depth left -/

/-- Without depth for its parts an expression is too deep. -/
theorem expressionAt_shallow {depth : Nat} (h : depth < 7) (patience : Nat) (ts : List Token) :
    expressionAt patience depth ts = throw .depthExceeded :=
  match depth, h with
  | 0, _ | 1, _ | 2, _ | 3, _ | 4, _ | 5, _ | 6, _ => rfl

/-- Without depth for its statements a block is too deep. -/
theorem blockAtDepth_shallow {depth : Nat} (h : depth < 3) (patience : Nat) (ts : List Token) :
    blockAtDepth patience depth ts = throw .depthExceeded :=
  match depth, h with
  | 0, _ | 1, _ | 2, _ => rfl

end TurtleLogo.Session
