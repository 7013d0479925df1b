import TurtleLogo.Proofs.Likeness
import TurtleLogo.Proofs.Statement

/-! # Programs that are alike

    Statements are alike if the blocks and expressions in them are
    (`FormLaws.statement`), given what the brackets of a program take by
    themselves: the frame of a call or loop, the count of a `REPEAT`, a fill,
    and a turn of another turtle.  The loops of two engines are part of what is
    compared (`Likeness.Blocks`): how often a loop goes round may differ, or be
    what a proof is about.  Where the loops have one allowance of passes on both
    sides they are alike because their bodies are (`FormLaws.repeatPasses`,
    `whilePasses`, `forPasses`).

    What a command does is compared separately (`CommandLaws.perform`), so a run
    that does something besides for a command is covered too
    (`statementWith`). -/

namespace TurtleLogo

/-- How two statements or blocks end: with the same signal, or with tokens that
    are alike, of which there are at most `n`. -/
inductive Flow.Like (spelled : Text → Text → Prop) (n : Nat) : Flow → Flow → Prop where
  | done {ts us} (h : TokensLike spelled ts us) (hn : us.length ≤ n) :
      Like spelled n (.done ts) (.done us)
  | signal (s : Signal) : Like spelled n (.signal s) (.signal s)

theorem Flow.Like.mono {spelled : Text → Text → Prop} {m n : Nat} {f g : Flow}
    (h : f.Like spelled m g) (hmn : m ≤ n) : f.Like spelled n g := by
  cases h with
  | done h hm => exact .done h (Nat.le_trans hm hmn)
  | signal s => exact .signal s

/-- In one spelling they end in the same way. -/
theorem Flow.Like.eq {n : Nat} {f g : Flow} (h : f.Like Eq n g) : f = g := by
  cases h with
  | done h _ => rw [h.eq]
  | signal s => rfl

/-- The actions that a command may take on the canvas. -/
inductive Command.Acts : Command → CanvasM Number Unit → Prop where
  | forward (distance : Number) : Acts .forward (Canvas.forward distance)
  | back (distance : Number) : Acts .back (Canvas.back distance)
  | left (angle : Number) : Acts .left (Canvas.left angle)
  | right (angle : Number) : Acts .right (Canvas.right angle)
  | setX (x : Number) : Acts .setX (Canvas.setX x)
  | setY (y : Number) : Acts .setY (Canvas.setY y)
  | setHeading (angle : Number) : Acts .setHeading (Canvas.setHeading angle)
  | circle (radius : Number) : Acts .circle (Canvas.circle radius)
  | moveTo (x y : Number) : Acts .setPosition (Canvas.moveTo x y)
  | arc (angle radius : Number) : Acts .arc (Canvas.arc angle radius)
  | setPenSize (size : Number) : Acts .setPenSize (Canvas.setPenSize size)
  | setPenColor (color : Text) : Acts .setPenColor (Canvas.setPenColor color)
  | setBackground (color : Text) : Acts .setBackground (Canvas.setBackground color)
  | tell (who : Value) : Acts .tell (Canvas.tell who)
  | home : Acts .home Canvas.home
  | penUp : Acts .penUp (Canvas.setPenDown false)
  | penDown : Acts .penDown (Canvas.setPenDown true)
  | penErase : Acts .penErase (Canvas.setPenMode .erase)
  | penPaint : Acts .penPaint (Canvas.setPenMode .paint)
  | clearScreen : Acts .clearScreen Canvas.clearScreen
  | clean : Acts .clean Canvas.clean
  | hideTurtle : Acts .hideTurtle (Canvas.setVisible false)
  | showTurtle : Acts .showTurtle (Canvas.setVisible true)
  | wrapMode : Acts .wrapMode (Canvas.setMode .wrap)
  | windowMode : Acts .windowMode (Canvas.setMode .window)
  | fenceMode : Acts .fenceMode (Canvas.setMode .fence)

/-- No command meets a limit of the run on the canvas. -/
theorem Command.Acts.unlimited {c : Command} {act : CanvasM Number Unit} (h : c.Acts act) :
    Unlimited act := by
  cases h with
  | forward distance => exact Canvas.unlimited_forward distance
  | back distance => exact Canvas.unlimited_forward distance.neg
  | left angle => exact Canvas.unlimited_left angle
  | right angle => exact Canvas.unlimited_right angle
  | setX x => exact Canvas.unlimited_setX x
  | setY y => exact Canvas.unlimited_setY y
  | setHeading angle => exact Canvas.unlimited_setHeading angle
  | circle radius => exact Canvas.unlimited_circle radius
  | moveTo x y => exact Canvas.unlimited_moveTo x y
  | arc angle radius => exact Canvas.unlimited_arc angle radius
  | setBackground color => exact Canvas.unlimited_setBackground color
  | tell who => exact Canvas.unlimited_tell who
  | home => exact Canvas.unlimited_home
  | clearScreen => exact Canvas.unlimited_clearScreen
  | clean => exact Canvas.unlimited_clean
  | setPenSize | setPenColor | penUp | penDown | penErase | penPaint =>
      exact Canvas.unlimited_changeTurtle _
  | hideTurtle | showTurtle => exact Canvas.unlimited_setVisible _
  | wrapMode | windowMode | fenceMode => exact Canvas.unlimited_setMode _

namespace Session

/-- Closing a frame leaves the pacer. -/
theorem pacer_closeFrame (below : Nat) (w : World) :
    (endOf (closeFrame below w)).pacer = w.pacer := by
  rcases closeFrame_cases below w with ⟨-, hclose⟩ | ⟨-, f, s, hclose⟩
  · rw [hclose]
    rfl
  · rw [hclose]
    rfl

/-- What happens on the canvas leaves the pacer. -/
theorem pacer_onCanvas {β : Type} (act : CanvasM Number β) (w : World) :
    (endOf (onCanvas act w)).pacer = w.pacer := by
  obtain ⟨d, j, hd⟩ := endOf_onCanvas act w
  rw [hd]

/-- Runs the statement at the start of some tokens, where commands are done in
    a way of their own. -/
def statementWith (does : Command → List Value → SessionM Unit) (E : Engine) (patience : Nat) :
    List Token → SessionM Flow
  | .word name :: ts =>
      match Form.ofName? name, Command.ofName? name with
      | none, some c => do
          let (args, rest) ← arguments E c.arity ts
          does c args
          pure (.done rest)
      | _, _ => wordStatement E patience name ts
  | ts => statement E patience ts

/-- Statements do their commands in the usual way. -/
theorem statementWith_perform (E : Engine) (patience : Nat) :
    statementWith (perform E.block) E patience = statement E patience := by
  funext ts
  cases ts with
  | nil => rfl
  | cons t ts =>
      cases t with
      | word name =>
          cases hform : Form.ofName? name with
          | some form => simp only [statementWith, statement, hform]
          | none =>
              cases hcommand : Command.ofName? name with
              | none => simp only [statementWith, statement, hform, hcommand]
              | some c => simp only [statementWith, statement, wordStatement, hform, hcommand]
      | _ => rfl

/-- A way to do commands, given the meaning of blocks. -/
abbrev Manner := (List Token → SessionM Flow) → Command → List Value → SessionM Unit

mutual
/-- The value of an expression at a given depth, where commands are done in a
    manner of their own. -/
def expressionWith (does : Manner) (patience : Nat) : Nat → List Token → SessionM Reading
  | depth + 7, ts => sum ⟨expressionWith does patience depth, blockWith does patience depth⟩ ts
  | _, _ => throw .depthExceeded
/-- The run of a block at a given depth, where commands are done in a manner of
    their own. -/
def blockWith (does : Manner) (patience : Nat) : Nat → List Token → SessionM Flow
  | depth + 3, ts =>
      let E : Engine := ⟨expressionWith does patience depth, blockWith does patience depth⟩
      statements (statementWith (does E.block) E patience) ts.length ts
  | _, _ => throw .depthExceeded
end

/-- The engine at a given depth. -/
abbrev engineAt (patience depth : Nat) : Engine :=
  ⟨expressionAt patience depth, blockAtDepth patience depth⟩

mutual
/-- The usual manner makes the usual expressions and blocks. -/
theorem expressionWith_perform (patience : Nat) : ∀ (depth : Nat) (ts : List Token),
    expressionWith perform patience depth ts = expressionAt patience depth ts
  | depth + 7, ts => by
      have hexpression : expressionWith perform patience depth = expressionAt patience depth :=
        funext (expressionWith_perform patience depth)
      have hblock : blockWith perform patience depth = blockAtDepth patience depth :=
        funext (blockWith_perform patience depth)
      rw [expressionWith, expressionAt, hexpression, hblock]
  | 0, _ | 1, _ | 2, _ | 3, _ | 4, _ | 5, _ | 6, _ => rfl
/-- Blocks in the usual manner are the blocks of a session. -/
theorem blockWith_perform (patience : Nat) : ∀ (depth : Nat) (ts : List Token),
    blockWith perform patience depth ts = blockAtDepth patience depth ts
  | depth + 3, ts => by
      have hexpression : expressionWith perform patience depth = expressionAt patience depth :=
        funext (expressionWith_perform patience depth)
      have hblock : blockWith perform patience depth = blockAtDepth patience depth :=
        funext (blockWith_perform patience depth)
      rw [blockWith, blockAtDepth, hexpression, hblock]
      exact congrArg (fun one => statements one ts.length ts) (statementWith_perform _ patience)
  | 0, _ | 1, _ | 2, _ => rfl
end

namespace Likeness

/-- Two engines under which blocks and loops are alike too, on fewer than `n`
    tokens. -/
structure Blocks (L : Likeness) (n : Nat) (patience allowance : Nat) (E F : Engine) : Prop
    extends L.Engines n E F where
  fits : ∀ p : Procedure, p.body.length < n → L.fits p
  block : ∀ {ts us}, TokensLike L.spelled ts us → us.length < n →
    L.alike (Flow.Like L.spelled us.length) (E.block ts) (F.block us)
  repeated : ∀ {ts us} left count, TokensLike L.spelled ts us → us.length < n →
    L.alike Eq (repeatPasses E ts left count) (repeatPasses F us left count)
  whiled : ∀ {test test' ts us}, TokensLike L.spelled test test' → test'.length < n →
    TokensLike L.spelled ts us → us.length < n →
    L.alike Eq (whilePasses E test ts patience) (whilePasses F test' us allowance)
  looped : ∀ r {ts us}, TokensLike L.spelled ts us → us.length < n →
    L.alike Eq (forPasses E r ts patience 0) (forPasses F r us allowance 0)

/-- The steps and brackets of statements, commands and turns of another turtle
    apart. -/
structure BracketLaws (L : Likeness) : Prop extends L.Laws where
  stopRequested : L.alike Eq stopRequested stopRequested
  checkpoint : L.alike Eq (onPacer Pacer.checkpoint) (onPacer Pacer.checkpoint)
  define : ∀ {p q}, Procedure.Like L.spelled p q → q.Definable → L.fits q →
    L.alike Eq (changeStore (·.define p)) (changeStore (·.define q))
  names : ∀ {g h : Store → Store}, (∀ s t, s.Like L.spelled t → (g s).Like L.spelled (h t)) →
    (∀ s, (h s).procedures = s.procedures) → L.alike Eq (changeStore g) (changeStore h)
  filling : ∀ {β γ : Type} {Q : β → γ → Prop} {m n}, L.alike Q m n →
    L.alike Q (filling m) (filling n)
  /-- Cleaning up after a fault has nothing to do with the pace of the run. -/
  wrapUp : ∀ {β γ : Type} {Q : β → γ → Prop} {m n} {d d' e e' : SessionM Unit}, L.alike Q m n →
    L.alike Eq d d' → L.alike Eq e e' → (∀ w, (endOf (e w)).pacer = w.pacer) →
    L.alike Q (wrapUp m d e) (wrapUp n d' e')

/-- The steps and brackets of statements, commands apart. -/
structure FormLaws (L : Likeness) : Prop extends L.BracketLaws where
  tell : ∀ who, L.alike Eq (onCanvas (Canvas.tell who)) (onCanvas (Canvas.tell who))

/-- Two manners that do commands alike, where the blocks are alike that a host
    may have run. -/
def Mannered (L : Likeness) (small : Nat → Prop) (does does' : Manner) : Prop :=
  ∀ {b d : List Token → SessionM Flow},
    (∀ {ts us}, TokensLike L.spelled ts us → small us.length →
      L.alike (Flow.Like L.spelled us.length) (b ts) (d us)) →
    ∀ c args, L.alike Eq (does b c args) (does' d c args)

namespace BracketLaws

variable {L : Likeness} (H : L.BracketLaws) {n patience allowance : Nat} {E F : Engine}

include H

/-- A frame is closed alike where it was opened alike. -/
theorem closeFrame (below : Nat) : L.alike Eq (closeFrame below) (closeFrame below) := by
  refine H.bind H.store fun s t hst => ?_
  have hpop := H.names (fun _ _ h => h.pop) fun _ => rfl
  dsimp only
  rw [hst.1.locals]
  split
  · exact H.fail rfl
  · refine H.next hpop fun _ => ?_
    split
    · exact H.throw rfl
    · exact H.pure rfl

/-- What is alike is alike in a frame. -/
theorem inFrame {β γ : Type} {Q : β → γ → Prop} {m : SessionM β} {m' : SessionM γ} (f : Frame)
    (hm : L.alike Q m m') : L.alike Q (inFrame f m) (inFrame f m') := by
  refine H.bind H.store fun s t hst => ?_
  rw [hst.1.locals]
  exact H.next (H.names (fun _ _ h => h.push f) fun _ => rfl) fun _ =>
    H.wrapUp hm (H.closeFrame _) (H.closeFrame _) (pacer_closeFrame _)

/-- What is alike is alike within a count. -/
theorem counting {β γ : Type} {Q : β → γ → Prop} {m : SessionM β} {m' : SessionM γ}
    (hm : L.alike Q m m') : L.alike Q (counting m) (counting m') := by
  refine H.bind H.store fun s t hst => ?_
  have hrestore := H.names (fun _ _ h => h.count t.repcount) fun _ => rfl
  rw [hst.1.repcount, afterwards_eq, afterwards_eq]
  exact H.wrapUp hm hrestore hrestore fun _ => rfl

/-- Calls of procedures are alike if their bodies are. -/
theorem invoke {p q : Procedure} (args : List Value) (hpq : Procedure.Like L.spelled p q)
    (hblock : L.alike (Flow.Like L.spelled q.body.length) (E.block p.body) (F.block q.body)) :
    L.alike Eq (invoke E p args) (invoke F q args) := by
  rw [Session.invoke, Session.invoke, hpq.params]
  refine H.bind (H.inFrame _ hblock) fun _ _ hflow => ?_
  cases hflow with
  | done => exact H.pure rfl
  | signal s => exact H.pure rfl

/-- Going on with a block that must come next and what follows it. -/
theorem block_bind {δ ε : Type} {S : δ → ε → Prop} (place : BlockPlace) {ts us : List Token}
    (h : TokensLike L.spelled ts us) {k : List Token × List Token → SessionM δ}
    {l : List Token × List Token → SessionM ε}
    (hk : ∀ body rest body' rest', TokensLike L.spelled body body' →
      TokensLike L.spelled rest rest' → body'.length < us.length → rest'.length < us.length →
      L.alike S (k (body, rest)) (l (body', rest'))) :
    L.alike S (blockAt place ts >>= k) (blockAt place us >>= l) := by
  refine H.bind (H.attempt (Token.matched_block place h)) ?_
  rintro ⟨body, rest⟩ ⟨body', rest'⟩ ⟨hbody, hrest, hparts⟩
  have hlt : body'.length + rest'.length < us.length := hparts
  exact hk body rest body' rest' hbody hrest (by omega) (by omega)

/-! ## Loops with one allowance -/

section

variable {ts us : List Token}
  (hblock : L.alike (Flow.Like L.spelled us.length) (E.block ts) (F.block us))
include hblock

/-- The passes of a `REPEAT` are alike if the block is. -/
theorem repeatPasses (left count : Nat) :
    L.alike Eq (repeatPasses E ts left count) (repeatPasses F us left count) := by
  induction left generalizing count with
  | zero => exact H.pure rfl
  | succ left ih =>
      refine H.next H.stopRequested fun stop => ?_
      split
      · exact H.pure rfl
      · refine H.next (H.names (fun _ _ h => h.count _) fun _ => rfl) fun _ =>
          H.bind hblock fun _ _ hflow => ?_
        cases hflow with
        | done => exact ih (count + 1)
        | signal s => exact H.pure rfl

/-- The passes of a `WHILE` are alike if the condition and the block are. -/
theorem whilePasses (hpatience : L.alike (Eq : Option Signal → _ → Prop)
      (throw .outOfPatience) (throw .outOfPatience))
    {test test' : List Token}
    (htest : L.alike (L.Reads test'.length) (condition E test) (condition F test')) :
    L.alike Eq (whilePasses E test ts patience) (whilePasses F test' us patience) := by
  induction patience with
  | zero =>
      refine H.next H.stopRequested fun stop => ?_
      split
      · exact H.pure rfl
      · exact hpatience
  | succ patience ih =>
      refine H.next H.stopRequested fun stop => ?_
      split
      · exact H.pure rfl
      · refine H.bind htest ?_
        rintro ⟨v, rest⟩ ⟨v', rest'⟩ ⟨hv, -, -⟩
        cases hv
        dsimp only
        split
        · exact H.pure rfl
        · refine H.bind hblock fun _ _ hflow => ?_
          cases hflow with
          | done => exact ih
          | signal s => exact H.pure rfl

/-- The passes of a `FOR` are alike if the block is. -/
theorem forPasses (hpatience : L.alike (Eq : Option Signal → _ → Prop)
      (throw .outOfPatience) (throw .outOfPatience)) (r : LoopRange) (pass : Nat) :
    L.alike Eq (forPasses E r ts patience pass) (forPasses F r us patience pass) := by
  induction patience generalizing pass with
  | zero =>
      refine H.next H.stopRequested fun stop => ?_
      split
      · exact H.pure rfl
      · exact hpatience
  | succ patience ih =>
      refine H.next H.stopRequested fun stop => ?_
      split
      · exact H.pure rfl
      · refine H.next (H.compute _) fun v => H.next (H.fresh v) fun v => ?_
        split
        · exact H.pure rfl
        · refine H.next (H.names (fun _ _ h => h.bindInnermost _ _) fun t =>
            t.procedures_bindInnermost _ _) fun _ => H.bind hblock fun _ _ hflow => ?_
          cases hflow with
          | done => exact ih (pass + 1)
          | signal s => exact H.pure rfl

end

/-! ## Forms -/

/-- Definitions are alike. -/
theorem defineProcedure {ts us : List Token} (h : TokensLike L.spelled ts us)
    (hfits : ∀ p : Procedure, p.body.length < us.length → L.fits p) :
    L.alike (Flow.Like L.spelled us.length) (defineProcedure ts) (defineProcedure us) := by
  cases h with
  | nil => exact H.throw rfl
  | @cons t u ts us htu htail =>
      cases htu with
      | varref hname => exact H.throw rfl
      | same =>
          cases t with
          | word name =>
              obtain ⟨hparams, hrest, hlength⟩ := takeParams_like H.upper htail
              simp only [Session.defineProcedure]
              rw [hparams]
              by_cases hbuiltin : Vocabulary.isBuiltin name = true
              · simp only [hbuiltin]
                exact H.fail rfl
              · simp only [hbuiltin]
                rcases splitEnd_like hrest 0 with ⟨hts, hus⟩ | ⟨r, s, hts, hus, hrs⟩
                · rw [hts, hus]
                  exact H.throw rfl
                · have hlt := hrs.length
                  rw [hts, hus]
                  refine H.next (H.define ⟨rfl, rfl, hrs.inner⟩
                    ⟨by simpa using hbuiltin, capital_takeParams us⟩ (hfits _ ?_)) fun _ => ?_
                  · show s.1.length < us.length + 1
                    omega
                  · refine H.pure (.done hrs.rest ?_)
                    show s.2.length ≤ us.length + 1
                    omega
          | _ => exact H.throw rfl

/-- The rest of a statement that contains others. -/
theorem continueWith {k : Nat} {flow flow' : Flow} (hflow : flow.Like L.spelled k flow')
    {rest rest' : List Token} (hrest : TokensLike L.spelled rest rest')
    (hlength : rest'.length ≤ n) :
    L.alike (Flow.Like L.spelled n) (pure (continueWith flow rest))
      (pure (continueWith flow' rest')) := by
  cases hflow with
  | done => exact H.pure (.done hrest hlength)
  | signal s => exact H.pure (.signal s)

section

variable (hE : L.Blocks n patience allowance E F) {ts us : List Token}
  (h : TokensLike L.spelled ts us) (hn : us.length < n)
include hE h hn

/-- A `REPEAT` is alike with a block and a count that are. -/
theorem repeatForm :
    L.alike (Flow.Like L.spelled us.length) (repeatForm E ts) (repeatForm F us) := by
  refine H.read (hE.expression h hn) fun count ts' us' h' hlength => ?_
  refine H.block_bind _ h' fun body rest body' rest' hbody hrest hlt hlt' => ?_
  refine H.next (H.number count _) fun x => H.next (H.compute _) fun times => ?_
  refine H.next (H.counting (hE.repeated _ _ hbody (by omega))) fun ended => ?_
  cases ended with
  | none => exact H.pure (.done hrest (by omega))
  | some s => exact H.pure (.signal s)

/-- A `WHILE` is alike with a block and a condition that are. -/
theorem whileForm :
    L.alike (Flow.Like L.spelled us.length) (whileForm E patience ts)
      (whileForm F allowance us) := by
  refine H.block_bind _ h fun test ts' test' us' htest h' hlt hlt' => ?_
  refine H.block_bind _ h' fun body rest body' rest' hbody hrest hbodylt hrestlt => ?_
  refine H.next (hE.whiled htest (by omega) hbody (by omega)) fun ended => ?_
  cases ended with
  | none => exact H.pure (.done hrest (by omega))
  | some s => exact H.pure (.signal s)

omit H hE hn in
/-- The loop variable is no name of a variable in a control list. -/
theorem loopName?_like : loopName? ts = loopName? us := by
  -- a control list needs two more tokens after the name
  have hname : ∀ {t u : Token} {ts us : List Token}, t.Like L.spelled u →
      ts.length = us.length → loopName? (t :: ts) = loopName? (u :: us) := by
    intro t u ts us htu hlength
    rcases ts with _ | ⟨t', _ | ⟨t'', ts⟩⟩ <;> rcases us with _ | ⟨u', _ | ⟨u'', us⟩⟩ <;>
      simp at hlength <;> cases htu <;> first | rfl | (cases t <;> rfl)
  cases h with
  | nil => rfl
  | cons htu htail => exact hname htu htail.length_eq

omit H hE hn in
/-- What follows the first tokens is alike. -/
theorem tail_like : TokensLike L.spelled ts.tail us.tail ∧ us.tail.length ≤ us.length := by
  cases h with
  | nil => exact ⟨.nil, Nat.le_refl _⟩
  | cons htu htail => exact ⟨htail, Nat.le_succ _⟩

/-- The steps of two `FOR` loops are alike. -/
theorem stepValue : L.alike Eq (stepValue E ts) (stepValue F us) := by
  cases h with
  | nil => exact H.pure rfl
  | cons htu htail =>
      exact H.read (hE.expression (.cons htu htail) hn) fun v rest rest' hrest hlength => H.pure rfl

omit hE h hn in
/-- The ranges of two `FOR` loops are alike. -/
theorem loopRange (name : Text) (start finish step : Value) :
    L.alike Eq (loopRange name start finish step) (loopRange name start finish step) := by
  refine H.next (H.number start _) fun start => H.next (H.number finish _) fun finish => ?_
  refine H.next (H.number step _) fun step => ?_
  dsimp only
  split
  · exact H.fail rfl
  · exact H.pure rfl

/-- A `FOR` is alike with parts that are. -/
theorem forForm :
    L.alike (Flow.Like L.spelled us.length) (forForm E patience ts)
      (forForm F allowance us) := by
  refine H.block_bind _ h fun control ts' control' us' hcontrol h' hlt hlt' => ?_
  dsimp only
  rw [loopName?_like hcontrol]
  split
  · exact H.throw rfl
  · obtain ⟨htail, htaillt⟩ := tail_like hcontrol
    refine H.block_bind _ h' fun body rest body' rest' hbody hrest hbodylt hrestlt => ?_
    refine H.read (hE.expression htail (by omega)) fun start more more' hmore hmorelt => ?_
    dsimp only
    refine H.read (hE.expression hmore (by omega)) fun finish more more' hmore' hmorelt' => ?_
    dsimp only
    refine H.next (H.stepValue hE hmore' (by omega)) fun step => ?_
    refine H.next (H.loopRange _ _ _ step) fun range => ?_
    refine H.next (H.inFrame _ (hE.looped range hbody (by omega))) fun ended => ?_
    cases ended with
    | none => exact H.pure (.done hrest (by omega))
    | some s => exact H.pure (.signal s)

/-- An `IF` is alike with parts that are. -/
theorem ifForm :
    L.alike (Flow.Like L.spelled us.length) (ifForm E ts) (ifForm F us) := by
  refine H.read (H.condition hE.toEngines h hn) fun v ts' us' h' hlength => ?_
  refine H.block_bind _ h' fun body rest body' rest' hbody hrest hlt hlt' => ?_
  dsimp only
  split
  · refine H.bind (hE.block hbody (by omega)) fun flow flow' hflow => ?_
    exact H.continueWith hflow hrest (by omega)
  · exact H.pure (.done hrest (by omega))

/-- An `IFELSE` is alike with parts that are. -/
theorem ifElseForm :
    L.alike (Flow.Like L.spelled us.length) (ifElseForm E ts) (ifElseForm F us) := by
  refine H.read (H.condition hE.toEngines h hn) fun v ts' us' h' hlength => ?_
  refine H.block_bind _ h' fun yes ts'' yes' us'' hyes h'' hlt hlt' => ?_
  refine H.block_bind _ h'' fun no rest no' rest' hno hrest hnolt hrestlt => ?_
  dsimp only
  split
  · refine H.bind (hE.block hyes (by omega)) fun flow flow' hflow => ?_
    exact H.continueWith hflow hrest (by omega)
  · refine H.bind (hE.block hno (by omega)) fun flow flow' hflow => ?_
    exact H.continueWith hflow hrest (by omega)

/-- A fill is alike with a block that is. -/
theorem filledForm :
    L.alike (Flow.Like L.spelled us.length) (filledForm E ts) (filledForm F us) := by
  refine H.block_bind _ h fun body rest body' rest' hbody hrest hlt hlt' => ?_
  refine H.bind (H.filling (hE.block hbody (by omega))) fun flow flow' hflow => ?_
  exact H.continueWith hflow hrest (by omega)

/-- A form, where turns of another turtle are dealt with apart. -/
theorem runForm_of (form : Form) (hask : form = .ask →
      L.alike (Flow.Like L.spelled us.length) (askForm E ts) (askForm F us)) :
    L.alike (Flow.Like L.spelled us.length) (runForm E patience form ts)
      (runForm F allowance form us) := by
  match form with
  | .to => exact H.defineProcedure h fun p hp => hE.fits p (Nat.lt_trans hp hn)
  | .endTo => exact H.throw rfl
  | .repeatTimes => exact H.repeatForm hE h hn
  | .ifThen => exact H.ifForm hE h hn
  | .ifElse => exact H.ifElseForm hE h hn
  | .forLoop => exact H.forForm hE h hn
  | .whileLoop => exact H.whileForm hE h hn
  | .stop => exact H.pure (.signal .stop)
  | .output =>
      exact H.read (hE.expression h hn) fun v rest rest' hrest hlength => H.pure (.signal _)
  | .filled => exact H.filledForm hE h hn
  | .ask => exact hask rfl

/-! ## Statements -/

/-- A statement that starts with a word which is no command. -/
theorem wordStatement_of (name : Text) (hask : Form.ofName? name = some .ask →
      L.alike (Flow.Like L.spelled us.length) (askForm E ts) (askForm F us))
    (hname : Form.ofName? name = none → Command.ofName? name = none) :
    L.alike (Flow.Like L.spelled us.length) (wordStatement E patience name ts)
      (wordStatement F allowance name us) := by
  cases hform : Form.ofName? name with
  | some form =>
      simp only [Session.wordStatement, hform]
      exact H.runForm_of hE h hn form fun heq => hask (by rw [hform, heq])
  | none =>
      simp only [Session.wordStatement, hform, hname hform]
      refine H.bind H.store fun s t hst => ?_
      rcases hst.1.procedure? name with ⟨hs, ht⟩ | ⟨p, q, hs, ht, hpq, hmem⟩
      · rw [hs, ht]
        dsimp only
        split
        · exact H.throw rfl
        · exact H.next H.knownNames fun _ => H.throw rfl
      · rw [hs, ht]
        dsimp only
        rw [hpq.params]
        refine H.read (H.arguments hE.toEngines _ h hn) fun args rest rest' hrest hlength => ?_
        exact H.next (hE.call args hpq (hst.2 q hmem)) fun _ => H.pure (.done hrest hlength)

end

/-- A statement, where turns of another turtle are dealt with apart. -/
theorem statementWith_of (hE : L.Blocks n patience allowance E F)
    {does does' : Command → List Value → SessionM Unit}
    (hdoes : ∀ c args, L.alike Eq (does c args) (does' c args)) {ts us : List Token}
    (h : TokensLike L.spelled ts us) (hn : us.length ≤ n)
    (hask : ∀ {name ts' us'}, ts = .word name :: ts' → us = .word name :: us' →
      Form.ofName? name = some .ask →
      L.alike (Flow.Like L.spelled us'.length) (askForm E ts') (askForm F us')) :
    L.alike (Flow.Like L.spelled us.length) (statementWith does E patience ts)
      (statementWith does' F allowance us) := by
  cases h with
  | nil => exact H.pure (.done .nil (Nat.le_refl _))
  | @cons t u ts us htu htail =>
      have hskip : L.alike (Flow.Like L.spelled (u :: us).length) (pure (.done ts))
          (pure (.done us)) := H.pure (.done htail (Nat.le_succ _))
      cases htu with
      | varref hname => exact hskip
      | same =>
          cases t with
          | word name =>
              have hword := fun hname => H.mono
                (H.wordStatement_of hE htail hn name (hask rfl rfl) hname)
                fun _ _ hflow => hflow.mono (Nat.le_succ us.length)
              cases hform : Form.ofName? name with
              | some form =>
                  simp only [Session.statementWith, hform]
                  exact hword fun hnone => by rw [hform] at hnone; cases hnone
              | none =>
                  cases hcommand : Command.ofName? name with
                  | none =>
                      simp only [Session.statementWith, hform, hcommand]
                      exact hword fun _ => hcommand
                  | some c =>
                      simp only [Session.statementWith, hform, hcommand]
                      refine H.read (H.arguments hE.toEngines _ htail hn)
                        fun args rest rest' hrest hlength => ?_
                      refine H.next (hdoes c args) fun _ => H.pure (.done hrest ?_)
                      exact Nat.le_succ_of_le hlength
          | _ => exact hskip

/-- Statements one after another. -/
theorem statements {one two : List Token → SessionM Flow}
    (hone : ∀ {ts us}, TokensLike L.spelled ts us → us.length ≤ n →
      L.alike (Flow.Like L.spelled us.length) (one ts) (two us)) (k : Nat) {ts us : List Token}
    (h : TokensLike L.spelled ts us) (hn : us.length ≤ n) :
    L.alike (Flow.Like L.spelled us.length) (statements one k ts) (statements two k us) := by
  induction k generalizing ts us with
  | zero =>
      cases h with
      | nil => exact H.pure (.done .nil (Nat.le_refl _))
      | cons htu htail => exact H.pure (.done (.cons htu htail) (Nat.le_refl _))
  | succ k ih =>
      cases h with
      | nil => exact H.pure (.done .nil (Nat.le_refl _))
      | cons htu htail =>
          refine H.next H.stopRequested fun stop => ?_
          split
          · exact H.pure (.done (.cons htu htail) (Nat.le_refl _))
          · refine H.bind (hone (.cons htu htail) hn) fun _ _ hflow => ?_
            cases hflow with
            | signal s => exact H.pure (.signal s)
            | done hrest hlength =>
                refine H.next H.checkpoint fun _ => ?_
                refine H.mono (ih hrest (Nat.le_trans hlength hn)) fun _ _ hflow => ?_
                exact hflow.mono hlength

/-! ## Engines -/

section

variable (hthrow : ∀ {β γ : Type} {Q : β → γ → Prop} (f : Fault), L.alike Q (throw f) (throw f))
  {small : Nat → Prop} (hfits : ∀ p : Procedure, L.fits p ↔ small p.body.length)
include hthrow hfits

/-- Two engines under which expressions and blocks are alike on so few tokens as
    a procedure may have. -/
theorem blocks (hexpression : ∀ {ts us}, TokensLike L.spelled ts us → small us.length →
      L.alike (L.Reads us.length) (E.expression ts) (F.expression us))
    (hblock : ∀ {ts us}, TokensLike L.spelled ts us → small us.length →
      L.alike (Flow.Like L.spelled us.length) (E.block ts) (F.block us)) {n : Nat}
    (hn : ∀ k < n, small k) (patience : Nat) : L.Blocks n patience patience E F := by
  have hengines : L.Engines n E F :=
    ⟨fun h hlt => hexpression h (hn _ hlt), fun {p q} args hpq hq =>
      H.invoke args hpq (hblock hpq.body ((hfits q).1 hq))⟩
  exact { hengines with
    fits := fun p hp => (hfits p).2 (hn _ hp)
    block := fun h hlt => hblock h (hn _ hlt)
    repeated := fun left count h hlt => H.repeatPasses (hblock h (hn _ hlt)) left count
    whiled := fun htest hlt h hlt' =>
      H.whilePasses (hblock h (hn _ hlt')) (hthrow _) (H.condition hengines htest hlt)
    looped := fun r _ _ h hlt => H.forPasses (hblock h (hn _ hlt)) (hthrow _) r 0 }

end

/-- The name that an input must be. -/
theorem variableName (v : Value) (who : Text) :
    L.alike Eq (variableName v who) (variableName v who) := by
  refine H.next (H.text v) fun name => ?_
  dsimp only
  split
  · exact H.fail rfl
  · exact H.pure rfl

/-! ## Commands -/

/-- A motion by a number is alike if the motion is. -/
theorem motion (who : Text) {move : Number → CanvasM Number Unit}
    (hmove : ∀ n, L.alike Eq (onCanvas (move n)) (onCanvas (move n))) (v : Value) :
    L.alike Eq (motion who move v) (motion who move v) :=
  H.next (H.number v who) hmove

/-- A command is alike if what it does on the canvas is, what it says, and how
    it waits. -/
theorem perform {c : Command} {b d : List Token → SessionM Flow}
    (hcanvas : ∀ {act}, c.Acts act → L.alike Eq (onCanvas act) (onCanvas act))
    (hemit : ∀ text mode, L.alike Eq (emit b text mode) (emit d text mode))
    (hpause : ∀ ms, L.alike Eq (onPacer (Pacer.pause ms)) (onPacer (Pacer.pause ms)))
    (args : List Value) : L.alike Eq (perform b c args) (perform d c args) := by
  cases c with
  | make =>
      exact H.next (H.variableName _ _) fun name =>
        H.names (fun _ _ h => h.set name _) fun t => t.procedures_set name _
  | makeLocal =>
      exact H.next (H.variableName _ _) fun name =>
        H.names (fun _ _ h => h.setLocal name _) fun t => t.procedures_setLocal name _
  | forward => exact H.motion _ (fun n => hcanvas (.forward n)) _
  | back => exact H.motion _ (fun n => hcanvas (.back n)) _
  | left => exact H.motion _ (fun n => hcanvas (.left n)) _
  | right => exact H.motion _ (fun n => hcanvas (.right n)) _
  | setX => exact H.motion _ (fun n => hcanvas (.setX n)) _
  | setY => exact H.motion _ (fun n => hcanvas (.setY n)) _
  | setHeading => exact H.motion _ (fun n => hcanvas (.setHeading n)) _
  | circle => exact H.motion _ (fun n => hcanvas (.circle n)) _
  | setPosition => exact H.next (H.point _ _) fun p => hcanvas (.moveTo p.1 p.2)
  | arc =>
      exact H.next (H.number _ _) fun angle => H.next (H.number _ _) fun radius =>
        hcanvas (.arc angle radius)
  | setPenSize => exact H.motion _ (fun n => hcanvas (.setPenSize n)) _
  | setPenColor => exact H.next (H.compute _) fun color => hcanvas (.setPenColor color)
  | setBackground => exact H.next (H.compute _) fun color => hcanvas (.setBackground color)
  | tell => exact hcanvas (.tell _)
  | wait => exact H.next (H.number _ _) fun ms => hpause ms
  | home => exact hcanvas .home
  | penUp => exact hcanvas .penUp
  | penDown => exact hcanvas .penDown
  | penErase => exact hcanvas .penErase
  | penPaint => exact hcanvas .penPaint
  | clearScreen => exact hcanvas .clearScreen
  | clean => exact hcanvas .clean
  | hideTurtle => exact hcanvas .hideTurtle
  | showTurtle => exact hcanvas .showTurtle
  | wrapMode => exact hcanvas .wrapMode
  | windowMode => exact hcanvas .windowMode
  | fenceMode => exact hcanvas .fenceMode
  | printValue | typeValue => exact H.next (H.text _) fun t => hemit t _
  | showValue => exact H.next (H.compute _) fun t => hemit t _

end BracketLaws

namespace FormLaws

variable {L : Likeness} (H : L.FormLaws) {n patience allowance : Nat} {E F : Engine}

include H

/-- A turn of another turtle, after which the one before is current again. -/
theorem asking {β γ : Type} {Q : β → γ → Prop} {m : SessionM β} {m' : SessionM γ}
    (who : Value) (hm : L.alike Q m m') : L.alike Q (asking who m) (asking who m') := by
  have hasking : ∀ {δ : Type} (k : SessionM δ), Session.asking who k =
      ((do return (← get).canvas.scene.current) >>= fun before => do
        onCanvas (Canvas.tell who)
        TurtleLogo.wrapUp k (onCanvas (Canvas.tell before)) (onCanvas (Canvas.tell before))) :=
    fun k => rfl
  rw [hasking, hasking]
  refine H.next (H.seen fun c => c.scene.current) fun before => ?_
  exact H.next (H.tell who) fun _ =>
    H.wrapUp hm (H.tell before) (H.tell before) (pacer_onCanvas _)

/-- A turn of another turtle is alike with a block that is. -/
theorem askForm (hE : L.Blocks n patience allowance E F) {ts us : List Token}
    (h : TokensLike L.spelled ts us) (hn : us.length < n) :
    L.alike (Flow.Like L.spelled us.length) (askForm E ts) (askForm F us) := by
  refine H.read (hE.expression h hn) fun who ts' us' h' hlength => ?_
  refine H.block_bind _ h' fun body rest body' rest' hbody hrest hlt hlt' => ?_
  refine H.bind (H.asking who (hE.block hbody (by omega))) fun flow flow' hflow => ?_
  exact H.continueWith hflow hrest (by omega)

/-- Statements are alike if the blocks, expressions and commands in them are. -/
theorem statementWith (hE : L.Blocks n patience allowance E F)
    {does does' : Command → List Value → SessionM Unit}
    (hdoes : ∀ c args, L.alike Eq (does c args) (does' c args)) {ts us : List Token}
    (h : TokensLike L.spelled ts us) (hn : us.length ≤ n) :
    L.alike (Flow.Like L.spelled us.length) (statementWith does E patience ts)
      (statementWith does' F allowance us) := by
  refine H.statementWith_of hE hdoes h hn fun hts hus _ => ?_
  rw [hts, hus] at h
  rw [hus] at hn
  cases h with
  | cons _ htail => exact H.askForm hE htail hn

/-! ## All programs -/

section

variable (hthrow : ∀ {β γ : Type} {Q : β → γ → Prop} (f : Fault), L.alike Q (throw f) (throw f))
  {small : Nat → Prop} (hdown : ∀ {j k}, j ≤ k → small k → small j)
  (hfits : ∀ p : Procedure, L.fits p ↔ small p.body.length)
include hthrow hdown hfits

variable {does does' : Manner}

mutual
/-- Expressions are alike under one limit, if commands are. -/
theorem expressionWith (hdoes : L.Mannered small does does') (patience : Nat) :
    ∀ (depth : Nat) {ts us : List Token}, TokensLike L.spelled ts us →
      small us.length → L.alike (L.Reads us.length) (expressionWith does patience depth ts)
        (expressionWith does' patience depth us)
  | depth + 7, ts, us, h, hsmall => by
      rw [Session.expressionWith, Session.expressionWith]
      have hE : L.Blocks us.length patience patience
          ⟨Session.expressionWith does patience depth, Session.blockWith does patience depth⟩
          ⟨Session.expressionWith does' patience depth, Session.blockWith does' patience depth⟩ :=
        H.blocks hthrow hfits (expressionWith hdoes patience depth)
          (blockWith hdoes patience depth) (fun _ hk => hdown (Nat.le_of_lt hk) hsmall) _
      exact H.sum hE.toEngines h (Nat.le_refl _)
  | 0, _, _, _, _ | 1, _, _, _, _ | 2, _, _, _, _ | 3, _, _, _, _ | 4, _, _, _, _
  | 5, _, _, _, _ | 6, _, _, _, _ => hthrow _
/-- Programs are alike under one limit, if commands are. -/
theorem blockWith (hdoes : L.Mannered small does does') (patience : Nat) :
    ∀ (depth : Nat) {ts us : List Token}, TokensLike L.spelled ts us →
      small us.length → L.alike (Flow.Like L.spelled us.length) (blockWith does patience depth ts)
        (blockWith does' patience depth us)
  | depth + 3, ts, us, h, hsmall => by
      rw [Session.blockWith, Session.blockWith, h.length_eq]
      have hE : L.Blocks us.length patience patience
          ⟨Session.expressionWith does patience depth, Session.blockWith does patience depth⟩
          ⟨Session.expressionWith does' patience depth, Session.blockWith does' patience depth⟩ :=
        H.blocks hthrow hfits (expressionWith hdoes patience depth)
          (blockWith hdoes patience depth) (fun _ hk => hdown (Nat.le_of_lt hk) hsmall) _
      have hcommand := hdoes (blockWith hdoes patience depth)
      exact H.statements (fun h hn => H.statementWith hE hcommand h hn) us.length h
        (Nat.le_refl _)
  | 0, _, _, _, _ | 1, _, _, _, _ | 2, _, _, _, _ => hthrow _
end

end

end FormLaws

/-- The steps that commands take besides. -/
structure CommandLaws (L : Likeness) : Prop extends L.FormLaws where
  pause : ∀ ms, L.alike Eq (onPacer (Pacer.pause ms)) (onPacer (Pacer.pause ms))
  emit : ∀ b c text mode, L.alike Eq (emit b text mode) (emit c text mode)
  canvas : ∀ {act : CanvasM Number Unit}, Unlimited act → L.alike Eq (onCanvas act) (onCanvas act)

namespace CommandLaws

variable {L : Likeness} (H : L.CommandLaws)
include H

/-- A command does the same, whatever the programs that a host asks for do. -/
theorem perform (b d : List Token → SessionM Flow) (c : Command) (args : List Value) :
    L.alike Eq (perform b c args) (perform d c args) :=
  H.toFormLaws.perform (fun hact => H.canvas hact.unlimited) (H.emit b d) H.pause args

/-- Statements are alike if the blocks and expressions in them are. -/
theorem statement {n patience allowance : Nat} {E F : Engine}
    (hE : L.Blocks n patience allowance E F) {ts us : List Token}
    (h : TokensLike L.spelled ts us) (hn : us.length ≤ n) :
    L.alike (Flow.Like L.spelled us.length) (statement E patience ts)
      (statement F allowance us) := by
  rw [← statementWith_perform, ← statementWith_perform]
  exact H.toFormLaws.statementWith hE (H.perform E.block F.block) h hn

section

variable (hthrow : ∀ {β γ : Type} {Q : β → γ → Prop} (f : Fault), L.alike Q (throw f) (throw f))
include hthrow

/-- Engines with the same limits are alike on so few tokens as a procedure may
    have. -/
theorem engines {small : Nat → Prop} (hdown : ∀ {j k}, j ≤ k → small k → small j)
    (hfits : ∀ p : Procedure, L.fits p ↔ small p.body.length) {n : Nat} (hn : ∀ k < n, small k)
    (patience depth : Nat) :
    L.Blocks n patience patience (engineAt patience depth) (engineAt patience depth) := by
  have hperform : L.Mannered small Session.perform Session.perform := fun _ => H.perform _ _
  refine H.toFormLaws.blocks hthrow hfits (fun {ts us} h hsmall => ?_)
    (fun {ts us} h hsmall => ?_) hn patience
  · have hexpression := H.toFormLaws.expressionWith hthrow hdown hfits hperform patience depth h
      hsmall
    rw [expressionWith_perform, expressionWith_perform] at hexpression
    exact hexpression
  · have hblock := H.toFormLaws.blockWith hthrow hdown hfits hperform patience depth h hsmall
    rw [blockWith_perform, blockWith_perform] at hblock
    exact hblock

/-- Programs that are alike do the same under the same limits. -/
theorem block (hfits : ∀ p, L.fits p) (limits : Limits) (ts us : List Token)
    (h : TokensLike L.spelled ts us) :
    L.alike (Flow.Like L.spelled us.length) ((engine limits).block ts)
      ((engine limits).block us) := by
  have hsmall : ∀ p : Procedure, L.fits p ↔ (fun _ : Nat => True) p.body.length := fun p =>
    iff_of_true (hfits p) trivial
  exact (H.engines hthrow (fun _ => id) hsmall (fun _ _ => trivial) limits.patience
    limits.depth).block h (Nat.lt_succ_self _)

end

end CommandLaws

end Likeness

end Session

end TurtleLogo
