import TurtleLogo.Proofs.Canvas
import TurtleLogo.Proofs.Lockstep

/-! # Expressions in step

    What a tie has to satisfy for expressions to go on in step
    (`ExpressionLaws`), and that this is enough: if the expressions and blocks
    of two engines are in step, so is every expression built on them
    (`ExpressionLaws.sum`).  All faults that expressions add to those of the
    blocks they run are tame: at the end of a run they are, or turn into,
    friendly ones. -/

namespace TurtleLogo.Session

variable {T : Tie} {β : Type}

/-! ## What a tie has to satisfy -/

/-- The changes of the world that a run makes by the way. -/
inductive Aside where
  | undefined (n : Nat)
  | pacer (q : Pacer)
  | draw
  | question (prompt : Text)
  | replies (rs : Option (List (Option Text)))
  | panel (q : Panel)

/-- What such a change does. -/
def Aside.apply : Aside → World → World
  | .undefined n, w => { w with undefined := n }
  | .pacer q, w => { w with pacer := q }
  | .draw, w => { w with host := { w.host with drawn := w.host.drawn + 1 } }
  | .question prompt, w =>
      { w with host := { w.host with notices := w.host.notices.push (.question prompt) } }
  | .replies rs, w => { w with host := { w.host with replies := rs } }
  | .panel q, w => { w with host := { w.host with panel := q } }

/-- What such a change notes. -/
def Aside.notes : Aside → List Notice
  | .question prompt => [.question prompt]
  | _ => []

/-- The notices of a change come after those that were there. -/
theorem Aside.notices_apply (a : Aside) (w : World) :
    (a.apply w).host.notices.toList = w.host.notices.toList ++ a.notes := by
  cases a with
  | question prompt => exact Array.toList_push
  | _ => exact (List.append_nil _).symm

/-- A change by the way only adds notices. -/
theorem Aside.noted (a : Aside) (w : World) : Noted w (a.apply w) := by
  rw [Noted, a.notices_apply]
  exact List.prefix_append _ _

/-- Worlds that agree still agree after the same change. -/
theorem Agree.aside {w v : World} (h : Agree w v) (a : Aside) : Agree (a.apply w) (a.apply v) := by
  cases a with
  | undefined n => exact { h with undefined := rfl }
  | pacer q => exact { h with pacer := rfl }
  | draw => exact { h with drawn := congrArg (· + 1) h.drawn }
  | question prompt => exact { h with }
  | replies rs => exact { h with replies := rfl }
  | panel q => exact { h with panel := rfl }

/-- The steps that expressions take by themselves. -/
structure ExpressionLaws (T : Tie) : Prop where
  fault : ∀ {p f w v} c n, T.rel p w v → v.canvas.Follows c → v.canvas.Meets f →
    T.fails p f { w with canvas := c, undefined := n } { v with canvas := c, undefined := n }
  aside : ∀ p (a : Aside), T.Keeps p a.apply
  frame : ∀ {c} (p : T.Place) (f : Frame) {β : Type} {m n : SessionM β},
    (∀ q : T.Place, Steps c q m n) → Steps c p (inFrame f m) (inFrame f n)

/-- Two engines whose expressions are in step, and their blocks too, unless the
    tie may be cut there. -/
structure EnginesInStep (T : Tie) (mayCut : Bool) (E F : Engine) : Prop where
  expression : ∀ (p : T.Place) ts, InStep p (E.expression ts) (F.expression ts)
  block : ∀ (p : T.Place) ts, Steps mayCut p (E.block ts) (F.block ts)

namespace ExpressionLaws

variable (L : ExpressionLaws T) {p : T.Place}
include L

/-- A fault that the canvas may meet is one that the tie allows. -/
theorem fails {f : Fault} {w v : World} (hr : T.rel p w v) (hf : v.canvas.Meets f) :
    T.fails p f w v := by
  have hfault := L.fault v.canvas v.undefined hr (.refl _) hf
  rw [← (T.agree hr).canvas, ← (T.agree hr).undefined] at hfault
  have hv : { v with canvas := w.canvas, undefined := w.undefined } = v := by
    rw [(T.agree hr).canvas, (T.agree hr).undefined]
  rw [hv] at hfault
  exact hfault

/-- A tame fault leaves both sides in step. -/
theorem throw {f : Fault} (hf : f.Tame) : InStep p (throw f : SessionM β) (throw f) :=
  .throw fun hr => L.fails hr (.of_tame hf)

/-- A computation without a state keeps both sides in step if its faults are tame. -/
theorem attempt {r : Except Fault β} (hr : Tamed r) :
    InStep p (attempt r : SessionM β) (attempt r) := by
  cases r with
  | ok a => exact .pure a
  | error f => exact L.throw (hr f rfl)

/-- Arithmetic that does not divide by zero is in step. -/
theorem compute {r : Except ArithmeticFault β} (hr : Usual r) :
    InStep p (compute r : SessionM β) (compute r) := by
  cases r with
  | ok a => exact .pure a
  | error f =>
      cases f with
      | zeroDivisor => exact absurd rfl hr
      | tooBig => exact L.throw rfl
      | notUsable => exact L.throw rfl

omit L in
/-- Both sides have the same store. -/
theorem store : InStep p store store :=
  .get_bind fun w v h => by rw [h.store]; exact .pure _

/-- An undefined number gets the same name on both sides. -/
theorem fresh (n : Number) : InStep p (fresh n) (fresh n) := by
  by_cases hn : n = .real (.nan 0)
  · subst hn
    refine ⟨fun {w v} hr => ?_, fun w => (L.aside p (.undefined _)).noted w⟩
    show T.Outcome false p (.ok (Number.real (.nan (w.undefined + 1))) _)
      (.ok (Number.real (.nan (v.undefined + 1))) _)
    rw [(T.agree hr).undefined]
    exact .ok ((L.aside p (.undefined _)).rel hr)
  · -- any other number is left as it is
    have hmark : ∀ w : World, w.mark n = (n, w) := by
      intro w
      unfold World.mark
      split
      · exact absurd rfl hn
      · rfl
    have hfresh : Session.fresh n = pure n := by
      funext w
      have hw : Session.fresh n w = .ok (w.mark n).1 (w.mark n).2 := rfl
      rw [hw, hmark w]
      rfl
    rw [hfresh]
    exact .pure n

/-- A value is a number for both sides, or for neither. -/
theorem number (v : Value) (who : Text) : InStep p (number v who) (number v who) :=
  .bind (L.attempt (v.tamed_asNumber who)) fun n => L.fresh n

/-- The result of arithmetic is the same on both sides. -/
theorem result {n : Except ArithmeticFault Number} (hn : Usual n) :
    InStep p (result n) (result n) :=
  .bind (L.compute hn) fun x => .bind (L.fresh x) fun _ => .pure _

/-- The text of a value is the same on both sides. -/
theorem text (v : Value) : InStep p (text v) (text v) := L.compute v.usual_text

/-- Both sides draw the same random number. -/
theorem random : InStep p random random :=
  .get_bind fun w v h => .bind (.changing (L.aside p .draw)) fun _ => by
    rw [h.chance, h.drawn]; exact .pure _

/-- Both sides have the same current turtle. -/
theorem turtle : InStep p turtle turtle := by
  have hturtle : ∀ w : World, Session.turtle w =
      w.canvas.scene.turtle?.elim (.error .noSuchTurtle w) fun t => .ok t w := by
    intro w
    rw [Session.turtle, TurtleLogo.get_bind]
    cases w.canvas.scene.turtle? <;> rfl
  refine ⟨fun {w v} hr => ?_, fun w => ?_⟩
  · rw [hturtle w, hturtle v, (T.agree hr).canvas]
    cases ht : v.canvas.scene.turtle? with
    | some t => exact .ok hr
    | none =>
        -- on a sane canvas the current turtle is there
        refine .error (L.fails hr ⟨by simp [Fault.OfFrame], fun hs _ => ?_⟩)
        have hsome := Scene.turtle?_isSome hs.turtle
        rw [ht] at hsome
        cases hsome
  · rw [hturtle w]
    cases w.canvas.scene.turtle? <;> exact .refl w

/-! ## Functions -/

/-- A mathematical function gives the same number on both sides. -/
theorem mathematics (who : Text) (f : Number → Except ArithmeticFault Number) (v : Value) :
    InStep p (mathematics who f v) (mathematics who f v) := by
  refine .bind (L.number v who) fun x => ?_
  cases f x with
  | ok y => exact L.result (.ok y)
  | error e => exact .bind (L.text _) fun _ => L.throw rfl

/-- A random number below a bound is the same on both sides. -/
theorem randomBelow (v : Value) : InStep p (randomBelow v) (randomBelow v) := by
  refine .bind (L.number v "RANDOM") fun n => ?_
  split
  · exact .pure _
  · exact .bind L.random fun _ => L.mathematics _ _ _

/-- A power is the same on both sides. -/
theorem power (a b : Value) : InStep p (power a b) (power a b) := by
  refine .bind (L.number a "POWER") fun x => .bind (L.number b "POWER") fun y => ?_
  dsimp only
  split
  · exact L.result (.ok _)
  · exact .bind (L.text _) fun _ => .bind (L.text _) fun _ => L.throw rfl

/-- A divisor is zero on both sides or on neither. -/
theorem divisor (v : Value) (who : Text) : InStep p (divisor v who) (divisor v who) := by
  refine .bind (L.number v who) fun n => ?_
  split
  · exact .bind (L.throw rfl) fun _ => .pure _
  · exact .bind (.pure _) fun _ => .pure _

omit L in
/-- A divisor is not zero. -/
theorem divisor_isZero {v : Value} {who : Text} {w w' : World} {n : Number}
    (h : Session.divisor v who w = .ok n w') : n.isZero = false := by
  obtain ⟨b, u, -, hb⟩ := bind_eq_ok h
  dsimp only at hb
  split at hb
  · cases hb
  · rename_i hz
    cases hb
    simpa using hz

/-- An operation on two numbers that does not divide by the second if that is
    zero. -/
theorem division (a b : Value) (who : Text) (op : Number → Number → Except ArithmeticFault Number)
    (hop : ∀ x y, y.isZero = false → Usual (op x y)) :
    InStep p
      (do let x ← Session.number a who; let y ← Session.divisor b who; Session.result (op x y))
      (do let x ← Session.number a who; let y ← Session.divisor b who; Session.result (op x y)) :=
  .bind (L.number a who) fun x =>
    .bind_of (·.isZero = false) (L.divisor b who) (fun _ _ _ h => divisor_isZero h)
      (fun y hy => L.result (hop x y hy)) fun h => by cases h

/-- A point is read from a value alike. -/
theorem point (v : Value) (who : Text) : InStep p (point v who) (point v who) := by
  simp only [Session.point]
  split
  · exact .bind (L.number _ who) fun _ => .bind (L.number _ who) fun _ => .pure _
  · exact L.throw rfl

/-- The direction of a point is the same on both sides. -/
theorem towards (v : Value) : InStep p (towards v) (towards v) := by
  refine .bind (L.point v "TOWARDS") fun ⟨x, y⟩ => .bind L.turtle fun t => ?_
  refine .bind (L.compute (Number.usual_sub x t.x)) fun dx => ?_
  refine .bind (L.compute (Number.usual_sub y t.y)) fun dy => ?_
  refine .bind (L.compute (Number.usual_bearing dx dy)) fun angle => L.result ?_
  split
  · exact Number.usual_add _ _
  · exact .ok _

/-- The distance of a point is the same on both sides. -/
theorem distance (v : Value) : InStep p (distance v) (distance v) := by
  refine .bind (L.point v "DISTANCE") fun ⟨x, y⟩ => .bind L.turtle fun t => ?_
  refine .bind (L.compute (Number.usual_sub x t.x)) fun dx => ?_
  refine .bind (L.compute (Number.usual_sub y t.y)) fun dy => ?_
  exact L.result (Number.usual_hypot dx dy)

/-- The character of a code is the same on both sides. -/
theorem character (v : Value) : InStep p (character v) (character v) := by
  refine .bind (L.number v "CHAR") fun code => ?_
  have refuse : InStep p
      (do let t ← Session.text (.number code); MonadExcept.throw (.noCharacter t))
      (do let t ← Session.text (.number code); MonadExcept.throw (.noCharacter t) :
        SessionM Value) :=
    .bind (L.text _) fun _ => L.throw rfl
  dsimp only
  split
  · exact refuse
  · split
    · exact refuse
    · exact .pure _

/-- A value is a sequence for both sides, or for neither. -/
theorem sequence (v : Value) (who : Text) : InStep p (sequence v who) (sequence v who) := by
  simp only [Session.sequence]
  split
  · exact .pure _
  · exact .pure _
  · exact L.throw rfl

/-- The first and the last part of a sequence are the same on both sides. -/
theorem endPart (v : Value) (who : Text) (place : Nat → Nat) :
    InStep p (endPart v who place) (endPart v who place) := by
  refine .bind (L.sequence v who) fun s => ?_
  split
  · exact .pure _
  · exact L.throw rfl

/-- A part by its place is the same on both sides. -/
theorem item (index v : Value) : InStep p (item index v) (item index v) := by
  refine .bind (L.sequence v "ITEM") fun s => .bind (L.number index "ITEM") fun i => ?_
  dsimp only
  split
  · refine .bind (L.throw rfl) fun _ => .bind (L.compute (Number.usual_whole _ i)) fun n => ?_
    split
    · exact .pure _
    · exact .bind (L.text _) fun _ => L.throw rfl
  · refine .bind (L.compute (Number.usual_whole _ i)) fun n => ?_
    split
    · exact .pure _
    · exact .bind (L.text _) fun _ => L.throw rfl

/-- A part is in a sequence on both sides or on neither. -/
theorem isMember (v whole : Value) : InStep p (isMember v whole) (isMember v whole) := by
  simp only [Session.isMember]
  split
  · exact .pure _
  · exact .bind (L.text v) fun _ => .pure _
  · exact .pure _

/-- A value that is read off the current turtle. -/
theorem turtle_value (f : Turtle Number → Value) :
    InStep p (do return f (← Session.turtle)) (do return f (← Session.turtle)) :=
  .bind L.turtle fun _ => .pure _

/-- A value made of the parts of a sequence. -/
theorem sequence_value (v : Value) (who : Text) (f : Sequence → Value) :
    InStep p (do return f (← Session.sequence v who)) (do return f (← Session.sequence v who)) :=
  .bind (L.sequence v who) fun _ => .pure _

/-- A function of one or two values is in step. -/
theorem applyTo (f : Function) (a b : Value) : InStep p (applyTo f a b) (applyTo f a b) := by
  cases f with
  | sqrt | sin | cos | tan | arctan | int | round | exp | log | ln | log10 =>
      exact L.mathematics _ _ a
  | abs => exact L.mathematics "ABS" (fun x => .ok x.abs) a
  | sign => exact L.mathematics "SIGN" (fun x => .ok (Session.sign x)) a
  | random => exact L.randomBelow a
  | power => exact L.power a b
  | remainder => exact L.division a b _ Number.rem fun _ _ h => Number.usual_rem h
  | modulo => exact L.division a b _ Number.mod fun _ _ h => Number.usual_mod h
  | min | max => exact .bind (L.number a _) fun _ => .bind (L.number b _) fun _ => .pure _
  | xcor | ycor | heading | penSize | penColor => exact L.turtle_value _
  | pos => exact L.turtle_value fun t => .list [.number t.x, .number t.y]
  | who => exact .get_bind fun w v h => by rw [h.canvas]; exact .pure _
  | turtles => exact .get_bind fun w v h => by rw [h.canvas]; exact .pure _
  | word => exact .bind (L.text a) fun _ => .bind (L.text b) fun _ => .pure _
  | char => exact L.character a
  | ascii =>
      refine .bind (L.text a) fun s => ?_
      cases s with
      | nil => exact L.throw rfl
      | cons c _ => exact .pure _
  | uppercase | lowercase => exact .bind (L.text a) fun _ => .pure _
  | towards => exact L.towards a
  | distance => exact L.distance a
  | first => exact L.endPart a "FIRST" fun _ => 0
  | last => exact L.endPart a "LAST" fun n => n - 1
  | butFirst | butLast | reverse | count => exact L.sequence_value a _ _
  | item => exact L.item a b
  | fput | lput =>
      simp only [Session.applyTo]
      split
      · exact .pure _
      · exact L.throw rfl
  | isMember => exact .bind (L.isMember a b) fun _ => .pure _
  | thing => exact .bind (L.text a) fun name => .bind store fun s => L.attempt (s.tamed_get name)
  | repcount => exact .bind store fun _ => .pure _
  | list | sentence | isEmpty | isList | isNumber | isWord | and | or | not | true | false =>
      exact .pure _

/-- A function is in step, however many values it takes. -/
theorem apply (f : Function) (args : List Value) : InStep p (apply f args) (apply f args) :=
  L.applyTo f _ _

/-- Values are joined to the same word on both sides. -/
theorem joined (vs : List Value) : InStep p (joined vs) (joined vs) := by
  induction vs with
  | nil => exact .pure _
  | cons v vs ih => exact .bind (L.text v) fun _ => .bind ih fun _ => .pure _

/-- A function of any number of values is in step. -/
theorem applyVariadic (f : Variadic) (args : List Value) :
    InStep p (applyVariadic f args) (applyVariadic f args) := by
  cases f with
  | list | sentence => exact .pure _
  | word => exact .bind (L.joined args) fun _ => .pure _

/-! ## Values from outside -/

mutual
/-- A value from outside is taken in alike. -/
theorem receive : ∀ v : Value, InStep p (receive v) (receive v)
  | .number n => by
      rw [Session.receive]
      exact .bind (L.fresh n) fun _ => .pure _
  | .list vs => by
      rw [Session.receive]
      exact .bind (receiveAll vs) fun _ => .pure _
  | .word _ | .truth _ | .nothing => by
      simp only [Session.receive]
      exact .pure _
/-- The values in a list from outside are in step. -/
theorem receiveAll : ∀ vs : List Value, InStep p (receiveAll vs) (receiveAll vs)
  | [] => by
      rw [Session.receiveAll]
      exact L.attempt (.ok [])
  | v :: vs => by
      rw [Session.receiveAll]
      exact .bind (receive v) fun _ => .bind (receiveAll vs) fun _ => .pure _
end

/-- A question is put by both sides and has the same answer. -/
theorem ask (prompt : Text) : InStep p (ask prompt) (ask prompt) := by
  refine .get_bind fun w v h => ?_
  rw [h.replies]
  cases v.host.replies with
  | none => exact L.throw rfl
  | some replies =>
      refine .bind (.changing (L.aside p (.question prompt))) fun _ => ?_
      refine .bind (.changing (L.aside p (.replies (some replies.tail)))) fun _ => ?_
      split <;> exact .pure _

omit L in
/-- Both sides know the same names. -/
theorem knownNames : InStep p knownNames knownNames := .bind store fun _ => .pure _

/-! ## Expressions -/

/-- An operation on two values is in step. -/
theorem arithmetic (op : Operator) (a b : Value) :
    InStep p (arithmetic op a b) (arithmetic op a b) := by
  refine .bind (L.number a _) fun x => .bind (L.number b _) fun y => ?_
  match op with
  | .plus => exact L.result (Number.usual_add x y)
  | .minus => exact L.result (Number.usual_sub x y)
  | .times => exact L.result (Number.usual_mul x y)
  | .over =>
      dsimp only
      split
      · exact L.throw rfl
      · rename_i hy
        exact L.result (Number.usual_div (by simpa using hy))

/-- Operations of one level in a row are in step if their parts are. -/
theorem chain (level : Operator → Bool) {f g : List Token → SessionM Reading}
    (h : ∀ ts, InStep p (f ts) (g ts)) (n : Nat) (v : Value) (ts : List Token) :
    InStep p (chain level f n v ts) (chain level g n v ts) := by
  induction n generalizing v ts with
  | zero => cases ts <;> exact .pure _
  | succ n ih =>
      cases ts with
      | nil => exact .pure _
      | cons t ts =>
          cases t with
          | operator op =>
              simp only [Session.chain]
              split
              · exact .bind (h ts) fun _ => .bind (L.arithmetic op v _) fun _ => ih _ _
              · exact .pure _
          | _ => exact .pure _

/-- Operations of one level are in step if their parts are. -/
theorem operations (level : Operator → Bool) {f g : List Token → SessionM Reading}
    (h : ∀ ts, InStep p (f ts) (g ts)) (ts : List Token) :
    InStep p (operations level f ts) (operations level g ts) := by
  refine .bind (h ts) fun ⟨v, rest⟩ => ?_
  dsimp only
  split
  · exact L.chain level h _ _ _
  · exact .pure _

variable {c : Bool} {E F : Engine}

section

variable (hE : EnginesInStep T c E F)
include hE

omit L in
/-- The arguments of a call are read in step. -/
theorem arguments (n : Nat) (ts : List Token) : InStep p (arguments E n ts) (arguments F n ts) := by
  induction n generalizing ts with
  | zero => exact .pure _
  | succ n ih => exact .bind (hE.expression p ts) fun _ => .bind (ih _) fun _ => .pure _

/-- A call of a procedure takes the steps of its body. -/
theorem invoke (proc : Procedure) (args : List Value) :
    Steps c p (invoke E proc args) (invoke F proc args) := by
  refine .bind_cut (L.frame p _ fun q => hE.block q proc.body) (fun flow => ?_) fun flow => ?_
  · cases flow <;> exact .pure _
  · cases flow <;> exact .pure _

/-- A condition is read in step. -/
theorem condition (ts : List Token) : InStep p (condition E ts) (condition F ts) := by
  refine .bind (hE.expression p ts) fun ⟨left, rest⟩ => ?_
  dsimp only
  split
  · exact .bind (hE.expression p _) fun _ =>
      .bind (L.attempt (Value.tamed_compare _ _ _)) fun _ => .pure _
  · exact .pure _

omit hE in
/-- The parenthesis that must come next is found by both sides or by neither. -/
theorem closeParen (ts : List Token) : InStep p (closeParen ts) (closeParen ts) := by
  simp only [Session.closeParen]
  split
  · exact .pure _
  · exact L.throw rfl

omit L in
/-- The values up to a closing parenthesis are read in step. -/
theorem items (n : Nat) (ts : List Token) : InStep p (items E n ts) (items F n ts) := by
  induction n generalizing ts with
  | zero => cases ts <;> exact .pure _
  | succ n ih =>
      cases ts with
      | nil => exact .pure _
      | cons t ts =>
          cases t with
          | closeParen => exact .pure _
          | _ => exact .bind (hE.expression p _) fun _ => .bind (ih _) fun _ => .pure _

/-- What stands in parentheses is read in step. -/
theorem grouped (ts : List Token) : InStep p (grouped E ts) (grouped F ts) :=
  .bind (L.condition hE ts) fun _ => .bind (L.closeParen _) fun _ => .pure _

/-- What stands in parentheses is in step. -/
theorem parenthesised (ts : List Token) :
    InStep p (parenthesised E ts) (parenthesised F ts) := by
  simp only [Session.parenthesised]
  split
  · split
    · exact .bind (items hE _ _) fun _ => .bind (L.applyVariadic _ _) fun _ =>
        .bind (L.closeParen _) fun _ => .pure _
    · exact L.grouped hE _
  · exact L.grouped hE _

end

/-- The value of a word is read in step. -/
theorem wordValue (hE : EnginesInStep T false E F) (name : Text) (ts : List Token) :
    InStep p (wordValue E name ts) (wordValue F name ts) := by
  simp only [Session.wordValue]
  split
  · exact .bind (arguments hE _ _) fun _ => .bind (L.apply _ _) fun _ => .pure _
  · split
    · refine .bind (L.ask _) fun reply => ?_
      split
      · exact .pure _
      · exact .bind (L.receiveAll _) fun _ => .pure _
    · refine .bind store fun s => ?_
      split
      · -- a procedure that is called for its value
        refine .bind (arguments hE _ _) fun _ => .bind (L.invoke hE _ _) fun ended => ?_
        split <;> exact .pure _
      · split
        · exact L.throw rfl
        · exact .bind knownNames fun _ => L.throw (Spelling.tame_unknownFunction _ _)

/-- The smallest expressions are read in step. -/
theorem primary (hE : EnginesInStep T false E F) (ts : List Token) :
    InStep p (primary E ts) (primary F ts) := by
  cases ts with
  | nil => exact L.throw rfl
  | cons t ts =>
      cases t with
      | number n => exact .pure _
      | quoted s => exact .pure _
      | varref name =>
          exact .bind store fun s => .bind (L.attempt (s.tamed_get name)) fun _ => .pure _
      | openBracket =>
          refine .bind (L.attempt (Token.tamed_inside ts)) fun _ => .bind store fun s => ?_
          exact .bind (L.attempt (Nested.tamed_values s.tamed_get _)) fun _ => .pure _
      | openParen => exact L.parenthesised hE ts
      | word name => exact L.wordValue hE name ts
      | _ => exact L.throw rfl

/-- An expression with a sign before it is read in step. -/
theorem unary (hE : EnginesInStep T false E F) (ts : List Token) :
    InStep p (unary E ts) (unary F ts) := by
  induction ts with
  | nil => exact L.primary hE []
  | cons t ts ih =>
      unfold Session.unary
      split
      · rename_i heq
        cases heq
        refine .bind ih fun _ => .bind (L.number _ _) fun _ => ?_
        exact .bind (L.result (.ok _)) fun _ => .pure _
      · exact L.primary hE _

/-- Expressions are in step if the expressions and blocks in them are. -/
theorem sum (hE : EnginesInStep T false E F) (ts : List Token) :
    InStep p (sum E ts) (sum F ts) :=
  L.operations isTermSign (L.operations isFactorSign (L.unary hE)) ts

end ExpressionLaws

end TurtleLogo.Session
