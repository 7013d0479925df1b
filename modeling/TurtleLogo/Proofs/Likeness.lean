import TurtleLogo.Proofs.Spellings

/-! # Computations that are alike

    A program in two spellings, a run under two different limits, a run and the
    same run with notes taken on the way: each time two computations go through
    the same steps, and what is compared is different.  A `Likeness` says when
    two computations are alike.  `Likeness.Laws` are the steps that expressions
    take by themselves, and they suffice (`Likeness.Laws.sum`): if the
    expressions inside two expressions are alike, and the procedures that they
    call, then so are the two expressions.

    The engines need to be alike only on fewer tokens than a given number, so
    that how deep an expression may nest can be proved in the same way. -/

namespace TurtleLogo.Session

/-- A way to compare computations. -/
structure Likeness where
  /-- The spellings that count as those of one name. -/
  spelled : Text → Text → Prop
  /-- The procedures that may be defined. -/
  fits : Procedure → Prop
  /-- Computations that are alike, where the values that they give compare in
      the given way. -/
  alike : ∀ {β γ : Type}, (β → γ → Prop) → SessionM β → SessionM γ → Prop

namespace Likeness

/-- What has been read on the two sides: the same, and of the tokens there are
    at most `n` left. -/
structure Reads (L : Likeness) {β : Type} (n : Nat) (r s : β × List Token) : Prop where
  value : r.1 = s.1
  rest : TokensLike L.spelled r.2 s.2
  length : s.2.length ≤ n

/-- Readings that leave few tokens leave no more than a greater number. -/
theorem Reads.mono {L : Likeness} {β : Type} {m n : Nat} {r s : β × List Token}
    (h : L.Reads m r s) (hmn : m ≤ n) : L.Reads n r s :=
  { h with length := Nat.le_trans h.length hmn }

/-- In one spelling the same has been read. -/
theorem Reads.eq {L : Likeness} (hspelled : L.spelled = Eq) {β : Type} {n : Nat}
    {r s : β × List Token} (h : L.Reads n r s) : r = s := by
  have hrest := h.rest
  rw [hspelled] at hrest
  exact Prod.ext h.value hrest.eq

/-- Two engines with expressions that are alike on fewer than `n` tokens, and
    procedures that are. -/
structure Engines (L : Likeness) (n : Nat) (E F : Engine) : Prop where
  expression : ∀ {ts us}, TokensLike L.spelled ts us → us.length < n →
    L.alike (L.Reads us.length) (E.expression ts) (F.expression us)
  call : ∀ {p q} args, Procedure.Like L.spelled p q → L.fits q →
    L.alike Eq (invoke E p args) (invoke F q args)

/-- The steps that expressions take by themselves. -/
structure Laws (L : Likeness) : Prop where
  upper : ∀ a b, L.spelled a b → Text.upper a = Text.upper b
  pure : ∀ {β γ : Type} {Q : β → γ → Prop} {a b}, Q a b → L.alike Q (Pure.pure a) (Pure.pure b)
  throw : ∀ {β γ : Type} {Q : β → γ → Prop} {f : Fault}, f.ofLimits = false →
    L.alike Q (MonadExcept.throw f) (MonadExcept.throw f)
  bind : ∀ {β γ δ ε : Type} {Q : β → γ → Prop} {S : δ → ε → Prop} {m n}
    {k : β → SessionM δ} {l : γ → SessionM ε}, L.alike Q m n →
    (∀ a b, Q a b → L.alike S (k a) (l b)) → L.alike S (m >>= k) (n >>= l)
  fresh : ∀ n, L.alike Eq (fresh n) (fresh n)
  random : L.alike Eq random random
  ask : ∀ prompt, L.alike Eq (ask prompt) (ask prompt)
  seen : ∀ {β : Type} (f : Canvas Number → β),
    L.alike Eq (do return f (← get).canvas) (do return f (← get).canvas)
  store : L.alike (fun s t => s.Like L.spelled t ∧ ∀ q ∈ t.procedures, L.fits q) store store

namespace Laws

variable {L : Likeness} (H : L.Laws) {β γ δ ε : Type} {Q : β → γ → Prop} {S : δ → ε → Prop}
include H

/-- Sequencing after a computation that gives the same value on both sides. -/
theorem next {m n : SessionM β} {k : β → SessionM δ} {l : β → SessionM ε} (h : L.alike Eq m n)
    (hk : ∀ a, L.alike S (k a) (l a)) : L.alike S (m >>= k) (n >>= l) :=
  H.bind h fun a b hab => by
    cases hab
    exact hk a

/-- What comes after a fault does not matter. -/
theorem fail {f : Fault} (hf : f.ofLimits = false) {k : β → SessionM δ} {l : γ → SessionM ε} :
    L.alike S (MonadExcept.throw f >>= k) (MonadExcept.throw f >>= l) :=
  H.bind (H.throw hf) fun _ _ (h : False) => h.elim

/-- Going on with what has been read. -/
theorem read {n : Nat} {m m' : SessionM (β × List Token)} {k : β × List Token → SessionM δ}
    {l : β × List Token → SessionM ε} (h : L.alike (L.Reads n) m m')
    (hk : ∀ v rest rest', TokensLike L.spelled rest rest' → rest'.length ≤ n →
      L.alike S (k (v, rest)) (l (v, rest'))) : L.alike S (m >>= k) (m' >>= l) := by
  refine H.bind h ?_
  rintro ⟨v, rest⟩ ⟨v', rest'⟩ ⟨hv, hrest, hlength⟩
  cases hv
  exact hk v rest rest' hrest hlength

/-- Computations that are alike are alike for a weaker comparison of their values. -/
theorem mono {Q' : β → γ → Prop} {m : SessionM β} {n : SessionM γ} (h : L.alike Q m n)
    (hQ : ∀ a b, Q a b → Q' a b) : L.alike Q' m n := by
  have hbind : L.alike Q' (m >>= Pure.pure) (n >>= Pure.pure) :=
    H.bind h fun a b hab => H.pure (hQ a b hab)
  rw [bind_pure, bind_pure] at hbind
  exact hbind

/-! ## Values -/

/-- Results that match are alike as computations. -/
theorem attempt {r : Except Fault β} {s : Except Fault γ} (h : Matched Q r s) :
    L.alike Q (attempt r) (attempt s) := by
  cases h with
  | ok hq => exact H.pure hq
  | error hf => exact H.throw hf

/-- A computation with numbers is like itself. -/
theorem compute (r : Except ArithmeticFault β) : L.alike Eq (compute r) (compute r) := by
  cases r with
  | ok a => exact H.pure rfl
  | error f => exact H.throw rfl

/-- Reading a value as a number is like itself. -/
theorem number (v : Value) (who : Text) : L.alike Eq (number v who) (number v who) :=
  H.next (H.attempt (v.matched_asNumber who)) fun n => H.fresh n

/-- A number as a value is like itself. -/
theorem result (n : Except ArithmeticFault Number) : L.alike Eq (result n) (result n) :=
  H.next (H.compute n) fun x => H.next (H.fresh x) fun _ => H.pure rfl

/-- The text of a value is like itself. -/
theorem text (v : Value) : L.alike Eq (text v) (text v) := H.compute _

/-- What a fault says about a number. -/
theorem complain (n : Number) {f : Text → Fault} (hf : ∀ t, (f t).ofLimits = false) :
    L.alike Q (do let t ← Session.text (.number n); MonadExcept.throw (f t))
      (do let t ← Session.text (.number n); MonadExcept.throw (f t)) :=
  H.next (H.text _) fun t => H.throw (hf t)

/-- A look at the current turtle is like itself. -/
theorem turtle : L.alike Eq turtle turtle := by
  have hturtle : Session.turtle = (do return (← get).canvas.scene.turtle?) >>=
      fun o => o.elim (MonadExcept.throw .noSuchTurtle) Pure.pure := by
    funext w
    rw [Session.turtle, get_bind]
    show _ = (w.canvas.scene.turtle?.elim (MonadExcept.throw .noSuchTurtle) Pure.pure :
      SessionM (Turtle Number)) w
    cases w.canvas.scene.turtle? <;> rfl
  rw [hturtle]
  refine H.next (H.seen fun c => c.scene.turtle?) fun o => ?_
  cases o with
  | none => exact H.throw rfl
  | some t => exact H.pure rfl

/-! ## Functions -/

/-- A function of one number is like itself. -/
theorem mathematics (who : Text) (f : Number → Except ArithmeticFault Number) (v : Value) :
    L.alike Eq (mathematics who f v) (mathematics who f v) := by
  refine H.next (H.number v who) fun x => ?_
  cases f x with
  | ok y => exact H.result (.ok y)
  | error e => exact H.complain x fun _ => rfl

/-- A random number is like itself: both sides draw the same. -/
theorem randomBelow (v : Value) : L.alike Eq (randomBelow v) (randomBelow v) := by
  refine H.next (H.number v "RANDOM") fun n => ?_
  split
  · exact H.pure rfl
  · exact H.next H.random fun _ => H.mathematics _ _ _

/-- A power is like itself. -/
theorem power (a b : Value) : L.alike Eq (power a b) (power a b) := by
  refine H.next (H.number a "POWER") fun x => H.next (H.number b "POWER") fun y => ?_
  dsimp only
  split
  · exact H.result (.ok _)
  · exact H.next (H.text _) fun _ => H.complain y fun _ => rfl

/-- A divisor that is checked is like itself. -/
theorem divisor (v : Value) (who : Text) : L.alike Eq (divisor v who) (divisor v who) := by
  refine H.next (H.number v who) fun n => ?_
  split
  · exact H.fail rfl
  · exact H.next (H.pure rfl) fun _ => H.pure rfl

/-- A value as a point is like itself. -/
theorem point (v : Value) (who : Text) : L.alike Eq (point v who) (point v who) := by
  simp only [Session.point]
  split
  · exact H.next (H.number _ who) fun _ => H.next (H.number _ who) fun _ => H.pure rfl
  · exact H.throw rfl

/-- The heading towards a point is like itself. -/
theorem towards (v : Value) : L.alike Eq (towards v) (towards v) := by
  refine H.next (H.point v "TOWARDS") fun p => H.next H.turtle fun t => ?_
  refine H.next (H.compute _) fun dx => H.next (H.compute _) fun dy => ?_
  exact H.next (H.compute _) fun angle => H.result _

/-- The distance to a point is like itself. -/
theorem distance (v : Value) : L.alike Eq (distance v) (distance v) := by
  refine H.next (H.point v "DISTANCE") fun p => H.next H.turtle fun t => ?_
  exact H.next (H.compute _) fun dx => H.next (H.compute _) fun dy => H.result _

/-- The character of a code is like itself. -/
theorem character (v : Value) : L.alike Eq (character v) (character v) := by
  refine H.next (H.number v "CHAR") fun code => ?_
  have hrefuse := H.complain (Q := (Eq : Value → Value → Prop)) code (f := .noCharacter)
    fun _ => rfl
  dsimp only
  split
  · exact hrefuse
  · split
    · exact hrefuse
    · exact H.pure rfl

/-- A value as a sequence is like itself. -/
theorem sequence (v : Value) (who : Text) : L.alike Eq (sequence v who) (sequence v who) := by
  simp only [Session.sequence]
  split
  · exact H.pure rfl
  · exact H.pure rfl
  · exact H.throw rfl

/-- The first or the last of a sequence is like itself. -/
theorem endPart (v : Value) (who : Text) (place : Nat → Nat) :
    L.alike Eq (endPart v who place) (endPart v who place) := by
  refine H.next (H.sequence v who) fun s => ?_
  split
  · exact H.pure rfl
  · exact H.throw rfl

/-- An item of a sequence is like itself. -/
theorem item (index v : Value) : L.alike Eq (item index v) (item index v) := by
  refine H.next (H.sequence v "ITEM") fun s => H.next (H.number index "ITEM") fun i => ?_
  dsimp only
  split
  · exact H.fail rfl
  · refine H.next (H.compute _) fun n => ?_
    split
    · exact H.pure rfl
    · exact H.complain i fun _ => rfl

/-- A membership test is like itself. -/
theorem isMember (v whole : Value) : L.alike Eq (isMember v whole) (isMember v whole) := by
  simp only [Session.isMember]
  split
  · exact H.pure rfl
  · exact H.next (H.text v) fun _ => H.pure rfl
  · exact H.pure rfl

/-- The value of a variable. -/
theorem valueOf {a b : Text} (hname : Text.upper a = Text.upper b) :
    L.alike Eq (do let s ← Session.store; TurtleLogo.attempt (s.get a))
      (do let s ← Session.store; TurtleLogo.attempt (s.get b)) :=
  H.bind H.store fun _ _ hst => H.attempt (hst.1.matched_get hname)

/-- A function of two inputs at most is like itself. -/
theorem applyTo (f : Function) (a b : Value) : L.alike Eq (applyTo f a b) (applyTo f a b) := by
  cases f with
  | sqrt | sin | cos | tan | arctan | int | round | exp | log | ln | log10 =>
      exact H.mathematics _ _ a
  | abs => exact H.mathematics "ABS" (fun x => .ok x.abs) a
  | sign => exact H.mathematics "SIGN" (fun x => .ok (Session.sign x)) a
  | random => exact H.randomBelow a
  | power => exact H.power a b
  | remainder | modulo =>
      exact H.next (H.number a _) fun _ => H.next (H.divisor b _) fun _ => H.result _
  | min | max => exact H.next (H.number a _) fun _ => H.next (H.number b _) fun _ => H.pure rfl
  | xcor | ycor | heading | penSize | penColor | pos =>
      exact H.next H.turtle fun _ => H.pure rfl
  | who => exact H.seen fun c => c.scene.current
  | turtles => exact H.seen fun c => Value.list c.scene.ids
  | word => exact H.next (H.text a) fun _ => H.next (H.text b) fun _ => H.pure rfl
  | char => exact H.character a
  | ascii =>
      refine H.next (H.text a) fun s => ?_
      cases s with
      | nil => exact H.throw rfl
      | cons c _ => exact H.pure rfl
  | uppercase | lowercase => exact H.next (H.text a) fun _ => H.pure rfl
  | towards => exact H.towards a
  | distance => exact H.distance a
  | first => exact H.endPart a "FIRST" fun _ => 0
  | last => exact H.endPart a "LAST" fun n => n - 1
  | butFirst | butLast | reverse | count => exact H.next (H.sequence a _) fun _ => H.pure rfl
  | item => exact H.item a b
  | fput | lput =>
      simp only [Session.applyTo]
      split
      · exact H.pure rfl
      · exact H.throw rfl
  | isMember => exact H.next (H.isMember a b) fun _ => H.pure rfl
  | thing => exact H.next (H.text a) fun name => H.valueOf rfl
  | repcount =>
      refine H.bind H.store fun s t hst => H.pure ?_
      rw [hst.1.repcount]
  | list | sentence | isEmpty | isList | isNumber | isWord | and | or | not | true | false =>
      exact H.pure rfl

/-- A function on a list of inputs is like itself. -/
theorem apply (f : Function) (args : List Value) : L.alike Eq (apply f args) (apply f args) :=
  H.applyTo f _ _

/-- Values joined into one text are like themselves. -/
theorem joined (vs : List Value) : L.alike Eq (joined vs) (joined vs) := by
  induction vs with
  | nil => exact H.pure rfl
  | cons v vs ih => exact H.next (H.text v) fun _ => H.next ih fun _ => H.pure rfl

/-- A function of any number of inputs is like itself. -/
theorem applyVariadic (f : Variadic) (args : List Value) :
    L.alike Eq (applyVariadic f args) (applyVariadic f args) := by
  cases f with
  | list | sentence => exact H.pure rfl
  | word => exact H.next (H.joined args) fun _ => H.pure rfl

/-! ## Values from outside -/

mutual
/-- A value that is received from outside is like itself. -/
theorem receive : ∀ v : Value, L.alike Eq (receive v) (receive v)
  | .number n => by
      rw [Session.receive]
      exact H.next (H.fresh n) fun _ => H.pure rfl
  | .list vs => by
      rw [Session.receive]
      exact H.next (receiveAll vs) fun _ => H.pure rfl
  | .word _ | .truth _ | .nothing => by
      simp only [Session.receive]
      exact H.pure rfl
/-- Several values from outside are like themselves. -/
theorem receiveAll : ∀ vs : List Value, L.alike Eq (receiveAll vs) (receiveAll vs)
  | [] => by
      rw [Session.receiveAll]
      exact H.pure rfl
  | v :: vs => by
      rw [Session.receiveAll]
      exact H.next (receive v) fun _ => H.next (receiveAll vs) fun _ => H.pure rfl
end

/-- The names that are known are the same on both sides. -/
theorem knownNames : L.alike Eq knownNames knownNames :=
  H.bind H.store fun s t hst => H.pure (by rw [hst.1.names])

/-! ## Expressions -/

/-- An operation on two values is like itself. -/
theorem arithmetic (op : Operator) (a b : Value) :
    L.alike Eq (arithmetic op a b) (arithmetic op a b) := by
  refine H.next (H.number a _) fun x => H.next (H.number b _) fun y => ?_
  match op with
  | .plus => exact H.result _
  | .minus => exact H.result _
  | .times => exact H.result _
  | .over =>
      dsimp only
      split
      · exact H.throw rfl
      · exact H.result _

section

variable {n : Nat}

/-- Chains of operations are alike if their operands are. -/
theorem chain (level : Operator → Bool) {f g : List Token → SessionM Reading}
    (hfg : ∀ {ts us}, TokensLike L.spelled ts us → us.length ≤ n →
      L.alike (L.Reads us.length) (f ts) (g us)) (k : Nat) (v : Value) {ts us : List Token}
    (h : TokensLike L.spelled ts us) (hn : us.length ≤ n) :
    L.alike (L.Reads us.length) (chain level f k v ts) (chain level g k v us) := by
  induction k generalizing v ts us with
  | zero =>
      cases h with
      | nil => exact H.pure ⟨rfl, .nil, Nat.le_refl _⟩
      | cons htu htail => exact H.pure ⟨rfl, .cons htu htail, Nat.le_refl _⟩
  | succ k ih =>
      cases h with
      | nil => exact H.pure ⟨rfl, .nil, Nat.le_refl _⟩
      | @cons t u ts us htu htail =>
          have hstop : L.alike (L.Reads (u :: us).length) (Pure.pure (v, t :: ts))
              (Pure.pure (v, u :: us)) := H.pure ⟨rfl, .cons htu htail, Nat.le_refl _⟩
          have htailn : us.length ≤ n := Nat.le_of_succ_le hn
          cases htu with
          | varref hname => exact hstop
          | same =>
              cases t with
              | operator op =>
                  simp only [Session.chain]
                  split
                  · refine H.read (hfg htail htailn) fun right rest rest' hrest hlength => ?_
                    refine H.next (H.arithmetic op v right) fun x => ?_
                    refine H.mono (ih x hrest (Nat.le_trans hlength htailn)) fun _ _ hread => ?_
                    exact hread.mono (Nat.le_succ_of_le hlength)
                  · exact hstop
              | _ => exact hstop

omit H in
/-- Tokens that are alike go on with an operation together. -/
theorem goesOn_like (level : Operator → Bool) {ts us : List Token}
    (h : TokensLike L.spelled ts us) : goesOn level ts = goesOn level us := by
  cases h with
  | nil => rfl
  | @cons t u ts us htu _ =>
      cases htu with
      | varref hname => rfl
      | same => cases t <;> rfl

/-- Operations are alike if their operands are. -/
theorem operations (level : Operator → Bool) {f g : List Token → SessionM Reading}
    (hfg : ∀ {ts us}, TokensLike L.spelled ts us → us.length ≤ n →
      L.alike (L.Reads us.length) (f ts) (g us)) {ts us : List Token}
    (h : TokensLike L.spelled ts us) (hn : us.length ≤ n) :
    L.alike (L.Reads us.length) (operations level f ts) (operations level g us) := by
  refine H.read (hfg h hn) fun v rest rest' hrest hlength => ?_
  dsimp only
  rw [goesOn_like level hrest, hrest.length_eq]
  split
  · refine H.mono (H.chain level hfg _ v hrest (Nat.le_trans hlength hn)) fun _ _ hread => ?_
    exact hread.mono hlength
  · exact H.pure ⟨rfl, hrest, hlength⟩

variable {E F : Engine} (hE : L.Engines n E F)

include hE

/-- The inputs of a word are alike. -/
theorem arguments (k : Nat) {ts us : List Token} (h : TokensLike L.spelled ts us)
    (hn : us.length < n) :
    L.alike (L.Reads us.length) (arguments E k ts) (arguments F k us) := by
  induction k generalizing ts us with
  | zero => exact H.pure ⟨rfl, h, Nat.le_refl _⟩
  | succ k ih =>
      refine H.read (hE.expression h hn) fun v rest rest' hrest hlength => ?_
      refine H.read (ih hrest (Nat.lt_of_le_of_lt hlength hn))
        fun vs rest rest' hrest' hlength' => ?_
      exact H.pure ⟨rfl, hrest', Nat.le_trans hlength' hlength⟩

/-- Conditions are alike. -/
theorem condition {ts us : List Token} (h : TokensLike L.spelled ts us) (hn : us.length < n) :
    L.alike (L.Reads us.length) (condition E ts) (condition F us) := by
  refine H.read (hE.expression h hn) fun left rest rest' hrest hlength => ?_
  cases hrest with
  | nil => exact H.pure ⟨rfl, .nil, hlength⟩
  | @cons t u ts' us' htu htail =>
      have hstop : L.alike (L.Reads us.length) (Pure.pure (left, t :: ts'))
          (Pure.pure (left, u :: us')) := H.pure ⟨rfl, .cons htu htail, hlength⟩
      have hus' : us'.length < us.length := hlength
      cases htu with
      | varref hname => exact hstop
      | same =>
          cases t with
          | comparison c =>
              refine H.read (hE.expression htail (Nat.lt_trans hus' hn))
                fun right rest rest' hrest hlength' => ?_
              refine H.next (H.attempt (Value.matched_compare _ _ _)) fun b => ?_
              exact H.pure ⟨rfl, hrest, Nat.le_trans hlength' (Nat.le_of_lt hus')⟩
          | _ => exact hstop

omit hE in
/-- A closing parenthesis is found on both sides or on neither. -/
theorem closeParen {ts us : List Token} (h : TokensLike L.spelled ts us) :
    L.alike (fun r s => TokensLike L.spelled r s ∧ s.length ≤ us.length) (closeParen ts)
      (closeParen us) := by
  cases h with
  | nil => exact H.throw rfl
  | @cons t u ts us htu htail =>
      cases htu with
      | varref hname => exact H.throw rfl
      | same =>
          cases t with
          | closeParen => exact H.pure ⟨htail, Nat.le_succ _⟩
          | _ => exact H.throw rfl

/-- The items in parentheses are alike. -/
theorem items (k : Nat) {ts us : List Token} (h : TokensLike L.spelled ts us)
    (hn : us.length < n) : L.alike (L.Reads us.length) (items E k ts) (items F k us) := by
  induction k generalizing ts us with
  | zero =>
      cases h with
      | nil => exact H.pure ⟨rfl, .nil, Nat.le_refl _⟩
      | cons htu htail => exact H.pure ⟨rfl, .cons htu htail, Nat.le_refl _⟩
  | succ k ih =>
      have hnext : ∀ r s : Reading, L.Reads us.length r s → L.alike (L.Reads us.length)
          (Session.items E k r.2 >>= fun p => Pure.pure (r.1 :: p.1, p.2))
          (Session.items F k s.2 >>= fun p => Pure.pure (s.1 :: p.1, p.2)) := by
        rintro r s ⟨hv, hrest, hlength⟩
        rw [hv]
        exact H.read (ih hrest (Nat.lt_of_le_of_lt hlength hn))
          fun vs rest rest' hrest' hlength' =>
            H.pure ⟨rfl, hrest', Nat.le_trans hlength' hlength⟩
      cases h with
      | nil => exact H.pure ⟨rfl, .nil, Nat.le_refl _⟩
      | @cons t u ts us htu htail =>
          have hgo := H.bind (hE.expression (.cons htu htail) hn) hnext
          cases htu with
          | varref hname => exact hgo
          | same =>
              cases t with
              | closeParen => exact H.pure ⟨rfl, .cons (.same _) htail, Nat.le_refl _⟩
              | _ => exact hgo

/-- Conditions in parentheses are alike. -/
theorem grouped {ts us : List Token} (h : TokensLike L.spelled ts us) (hn : us.length < n) :
    L.alike (L.Reads us.length) (grouped E ts) (grouped F us) := by
  refine H.read (H.condition hE h hn) fun v rest rest' hrest hlength => ?_
  refine H.bind (H.closeParen hrest) fun _ _ hclose => ?_
  exact H.pure ⟨rfl, hclose.1, Nat.le_trans hclose.2 hlength⟩

/-- What follows an opening parenthesis is alike. -/
theorem parenthesised {ts us : List Token} (h : TokensLike L.spelled ts us)
    (hn : us.length < n) :
    L.alike (L.Reads us.length) (parenthesised E ts) (parenthesised F us) := by
  have hgrouped := H.grouped hE h hn
  cases h with
  | nil => exact hgrouped
  | @cons t u ts us htu htail =>
      cases htu with
      | varref hname => exact hgrouped
      | same =>
          cases t with
          | word name =>
              simp only [Session.parenthesised]
              split
              · rw [htail.length_eq]
                refine H.read (H.items hE _ htail (Nat.lt_of_succ_lt hn))
                  fun vs rest rest' hrest hlength => ?_
                refine H.next (H.applyVariadic _ _) fun v => ?_
                refine H.bind (H.closeParen hrest) fun _ _ hclose => ?_
                refine H.pure ⟨rfl, hclose.1, ?_⟩
                exact Nat.le_succ_of_le (Nat.le_trans hclose.2 hlength)
              · exact hgrouped
          | _ => exact hgrouped

omit H hE in
/-- The question of a reader stands in its tokens or is its own. -/
theorem question_like (r : Reader) {ts us : List Token} (h : TokensLike L.spelled ts us) :
    L.Reads us.length (question r ts) (question r us) := by
  cases h with
  | nil => exact ⟨rfl, .nil, Nat.le_refl _⟩
  | @cons t u ts us htu htail =>
      cases htu with
      | varref hname => exact ⟨rfl, .cons (.varref hname) htail, Nat.le_refl _⟩
      | same =>
          cases t with
          | quoted prompt => exact ⟨rfl, htail, Nat.le_succ _⟩
          | _ => exact ⟨rfl, .cons (.same _) htail, Nat.le_refl _⟩

/-- The values of a word are alike. -/
theorem wordValue (name : Text) {ts us : List Token} (h : TokensLike L.spelled ts us)
    (hn : us.length < n) :
    L.alike (L.Reads us.length) (wordValue E name ts) (wordValue F name us) := by
  simp only [Session.wordValue]
  split
  · refine H.read (H.arguments hE _ h hn) fun args rest rest' hrest hlength => ?_
    exact H.next (H.apply _ _) fun v => H.pure ⟨rfl, hrest, hlength⟩
  · split
    · rename_i r _
      obtain ⟨hprompt, hrest, hlength⟩ := question_like (L := L) r h
      rw [hprompt]
      refine H.next (H.ask _) fun reply => ?_
      split
      · exact H.pure ⟨rfl, hrest, hlength⟩
      · exact H.next (H.receiveAll _) fun vs => H.pure ⟨rfl, hrest, hlength⟩
    · refine H.bind H.store fun s t hst => ?_
      rcases hst.1.procedure? name with ⟨hs, ht⟩ | ⟨p, q, hs, ht, hpq, hmem⟩
      · rw [hs, ht]
        dsimp only
        split
        · exact H.throw rfl
        · exact H.next H.knownNames fun _ => H.throw rfl
      · -- a procedure that is called for its value
        rw [hs, ht]
        dsimp only
        rw [hpq.params]
        refine H.read (H.arguments hE _ h hn) fun args rest rest' hrest hlength => ?_
        refine H.next (hE.call args hpq (hst.2 q hmem)) fun ended => ?_
        split <;> exact H.pure ⟨rfl, hrest, hlength⟩

/-- Single values are alike. -/
theorem primary {ts us : List Token} (h : TokensLike L.spelled ts us) (hn : us.length ≤ n) :
    L.alike (L.Reads us.length) (primary E ts) (primary F us) := by
  cases h with
  | nil => exact H.throw rfl
  | @cons t u ts us htu htail =>
      have hread : ∀ v : Value, L.Reads (u :: us).length (v, ts) (v, us) := fun v =>
        ⟨rfl, htail, Nat.le_succ _⟩
      have hvalue : ∀ {a b : Text}, Text.upper a = Text.upper b →
          L.alike (L.Reads (u :: us).length)
            (do
              let s ← Session.store
              let v ← TurtleLogo.attempt (s.get a)
              Pure.pure (v, ts))
            (do
              let s ← Session.store
              let v ← TurtleLogo.attempt (s.get b)
              Pure.pure (v, us)) := fun hname =>
        H.bind H.store fun _ _ hst =>
          H.next (H.attempt (hst.1.matched_get hname)) fun v => H.pure (hread v)
      cases htu with
      | varref hname => exact hvalue (H.upper _ _ hname)
      | same =>
          cases t with
          | number m => exact H.pure (hread _)
          | quoted s => exact H.pure (hread _)
          | varref name => exact hvalue rfl
          | openBracket =>
              refine H.bind (H.attempt (Token.matched_inside htail)) ?_
              rintro ⟨inner, rest⟩ ⟨inner', rest'⟩ ⟨hinner, hrest, hlength⟩
              refine H.bind H.store fun s t hst => ?_
              have hget : ∀ {a b}, Text.upper a = Text.upper b → Matched Eq (s.get a) (t.get b) :=
                hst.1.matched_get
              have hitems := Nested.sameValue_assembleFrom
                (fun a b hab => hget (H.upper a b hab)) (fun a => hget rfl) hinner .nil .nil
              refine H.next (H.attempt (Nested.matched_values hitems)) fun vs => ?_
              refine H.pure ⟨rfl, hrest, ?_⟩
              have hlt : inner'.length + rest'.length < us.length := hlength
              show rest'.length ≤ us.length + 1
              omega
          | openParen =>
              exact H.mono (H.parenthesised hE htail hn) fun _ _ h => h.mono (Nat.le_succ _)
          | word name =>
              exact H.mono (H.wordValue hE name htail hn) fun _ _ h => h.mono (Nat.le_succ _)
          | _ => exact H.throw rfl

/-- Values with minus signs before them are alike. -/
theorem unary {ts us : List Token} (h : TokensLike L.spelled ts us) (hn : us.length ≤ n) :
    L.alike (L.Reads us.length) (unary E ts) (unary F us) := by
  induction h with
  | nil => exact H.primary hE .nil hn
  | @cons t u ts us htu htail ih =>
      have hprimary := H.primary hE (.cons htu htail) hn
      cases htu with
      | varref hname => exact hprimary
      | same =>
          cases t with
          | operator op =>
              match op with
              | .minus =>
                  simp only [Session.unary]
                  refine H.read (ih (Nat.le_of_succ_le hn)) fun v rest rest' hrest hlength => ?_
                  refine H.next (H.number v _) fun m => H.next (H.result _) fun x => ?_
                  exact H.pure ⟨rfl, hrest, Nat.le_succ_of_le hlength⟩
              | .plus => exact hprimary
              | .times => exact hprimary
              | .over => exact hprimary
          | _ => exact hprimary

/-- Expressions are alike if what they contain is. -/
theorem sum {ts us : List Token} (h : TokensLike L.spelled ts us) (hn : us.length ≤ n) :
    L.alike (L.Reads us.length) (sum E ts) (sum F us) :=
  H.operations isTermSign (H.operations isFactorSign (H.unary hE)) h hn

end

end Laws

end Likeness

end TurtleLogo.Session
