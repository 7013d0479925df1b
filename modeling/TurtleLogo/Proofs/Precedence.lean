import Mathlib.Data.Finset.Lattice.Fold
import Mathlib.Data.Fintype.Basic
import Mathlib.Order.Lattice.Nat
import TurtleLogo.Proofs.Boundary

/-! # Precedence

    An expression is a tree, which is written with no more parentheses than its
    signs call for: `+` and `-` bind looser than `*` and `/`, these looser than
    a minus sign, and all of them group to the left; comparisons and calls stand
    in parentheses.  Read back, the tokens of a tree have its value:

    * `Agrees` compares what is read with the value of a tree, up to a depth of
      nesting that is too small;
    * at each level an operand is read as far as it goes (`Reads.unary`), and a
      chain of operations of one level goes on from there (`ReadsAt.operations`);
    * an expression in parentheses is one level of depth further down, so that
      the induction is on the depth (`reads_expression`). -/

namespace TurtleLogo

open Session

/-- A word that spells a function. -/
structure FunctionWord where
  name : Text
  function : Function
  spells : Function.ofName? name = some function

/-- An expression; a call has as many inputs as its function takes. -/
inductive Tree where
  | number (n : Number)
  | quoted (text : Text)
  | varref (name : Text)
  | negation (t : Tree)
  | binary (op : Operator) (left right : Tree)
  | comparison (c : Comparison) (left right : Tree)
  | call (word : FunctionWord) (inputs : Fin word.function.arity → Tree)

/-- How tightly a sign between two operands binds. -/
def Operator.level : Operator → Nat
  | .plus | .minus => 0
  | .times | .over => 1

theorem Operator.level_lt (op : Operator) : op.level < 2 := by
  cases op <;> decide

/-- Does several things in turn. -/
def inTurn {β : Type} : {n : Nat} → (Fin n → SessionM β) → SessionM (List β)
  | 0, _ => pure []
  | _ + 1, act => do
      let b ← act 0
      let bs ← inTurn fun i => act i.succ
      pure (b :: bs)

namespace Tree

/-- How tightly a tree holds together. -/
def level : Tree → Nat
  | .binary op _ _ => op.level
  | .negation _ => 2
  | _ => 3

/-- Tokens in parentheses, unless they hold together as tightly as they must. -/
def enclose (needed level : Nat) (ts : List Token) : List Token :=
  if level < needed then .openParen :: ts ++ [.closeParen] else ts

/-- A tree, written. -/
def tokens : Tree → List Token
  | .number n => [.number n]
  | .quoted text => [.quoted text]
  | .varref name => [.varref name]
  | .negation t => .operator .minus :: enclose 2 t.level t.tokens
  | .binary op l r =>
      enclose op.level l.level l.tokens
        ++ .operator op :: enclose (op.level + 1) r.level r.tokens
  | .comparison c l r => .openParen :: l.tokens ++ .comparison c :: r.tokens ++ [.closeParen]
  | .call word inputs =>
      .openParen :: .word word.name
        :: (List.ofFn fun i => enclose 3 (inputs i).level (inputs i).tokens).flatten
        ++ [.closeParen]

/-- The value of a tree, its parts in turn from the left. -/
def eval : Tree → SessionM Value
  | .number n => pure (.number n)
  | .quoted text => pure (.word text)
  | .varref name => do
      let s ← store
      attempt (s.get name)
  | .negation t => do
      let v ← t.eval
      let n ← Session.number v "-"
      result (.ok n.neg)
  | .binary op l r => do
      let a ← l.eval
      let b ← r.eval
      arithmetic op a b
  | .comparison c l r => do
      let a ← l.eval
      let b ← r.eval
      let holds ← attempt (Value.compare c a b)
      pure (.truth holds)
  | .call word inputs => do
      let vs ← inTurn fun i => (inputs i).eval
      apply word.function vs

/-- A depth of nesting, with parentheses around it where they are needed. -/
def deepen (needed level n : Nat) : Nat :=
  if level < needed then n + 1 else n

/-- How deep the parentheses of a tree nest, those around calls counted twice. -/
def nesting : Tree → Nat
  | .negation t => deepen 2 t.level t.nesting
  | .binary op l r =>
      max (deepen op.level l.level l.nesting) (deepen (op.level + 1) r.level r.nesting)
  | .comparison _ l r => max l.nesting r.nesting + 1
  | .call _ inputs =>
      (Finset.univ.sup fun i => deepen 3 (inputs i).level (inputs i).nesting) + 2
  | _ => 0

/-- A tree, written where a level is needed. -/
def tokensIn (needed : Nat) (t : Tree) : List Token := enclose needed t.level t.tokens

/-- How deep the parentheses of a tree nest where a level is needed. -/
def nestingIn (needed : Nat) (t : Tree) : Nat := deepen needed t.level t.nesting

/-- The inputs of a call, written. -/
def inputTokens {n : Nat} (inputs : Fin n → Tree) : List Token :=
  (List.ofFn fun i => (inputs i).tokensIn 3).flatten

example : tokens (.binary .times (.negation (.number (.int 1)))
      (.binary .minus (.number (.int 2)) (.number (.int 3))))
    = [.operator .minus, .number (.int 1), .operator .times,
      .openParen, .number (.int 2), .operator .minus, .number (.int 3), .closeParen] := rfl

/-- Nothing holds together more tightly than a single value. -/
theorem level_le (t : Tree) : t.level ≤ 3 := by
  cases t with
  | binary op l r => exact Nat.le_of_lt (Nat.lt_succ_of_lt op.level_lt)
  | negation t => exact Nat.le_succ 2
  | _ => exact Nat.le_refl 3

theorem nestingIn_zero (t : Tree) : t.nestingIn 0 = t.nesting := rfl

theorem tokensIn_of_lt {t : Tree} {k : Nat} (h : t.level < k) :
    t.tokensIn k = .openParen :: t.tokens ++ [.closeParen] := if_pos h

theorem nestingIn_of_lt {t : Tree} {k : Nat} (h : t.level < k) :
    t.nestingIn k = t.nesting + 1 := if_pos h

theorem tokensIn_of_le {t : Tree} {k : Nat} (h : k ≤ t.level) : t.tokensIn k = t.tokens :=
  if_neg (Nat.not_lt.2 h)

theorem nestingIn_of_le {t : Tree} {k : Nat} (h : k ≤ t.level) : t.nestingIn k = t.nesting :=
  if_neg (Nat.not_lt.2 h)

/-- What a tree that is read as a single value starts with. -/
def opens : Token → Bool
  | .number _ | .quoted _ | .varref _ | .openParen => true
  | _ => false

/-- A written tree starts like a single value or with a minus sign, but not with
    a word. -/
theorem tokens_head (t : Tree) : ∃ head tail, t.tokens = head :: tail
    ∧ (opens head = true ∨ (head = .operator .minus ∧ t.level < 3)) := by
  induction t with
  | number n => exact ⟨_, _, rfl, .inl rfl⟩
  | quoted text => exact ⟨_, _, rfl, .inl rfl⟩
  | varref name => exact ⟨_, _, rfl, .inl rfl⟩
  | negation t _ => exact ⟨_, _, rfl, .inr ⟨rfl, Nat.lt_succ_self 2⟩⟩
  | binary op l r ihl _ =>
      obtain ⟨head, tail, hl, hhead⟩ := ihl
      have hlevel : (binary op l r).level < 3 := Nat.lt_succ_of_lt op.level_lt
      by_cases hlt : l.level < op.level
      · exact ⟨.openParen, _, by rw [tokens, enclose, if_pos hlt]; rfl, .inl rfl⟩
      · refine ⟨head, _, by rw [tokens, enclose, if_neg hlt, hl]; rfl, ?_⟩
        rcases hhead with hhead | ⟨hhead, -⟩
        · exact .inl hhead
        · exact .inr ⟨hhead, hlevel⟩
  | comparison c l r _ _ => exact ⟨_, _, rfl, .inl rfl⟩
  | call word inputs _ => exact ⟨_, _, rfl, .inl rfl⟩

/-- An input of a call starts like a single value. -/
theorem tokensIn_head (t : Tree) :
    ∃ head tail, t.tokensIn 3 = head :: tail ∧ opens head = true := by
  by_cases hlt : t.level < 3
  · exact ⟨.openParen, _, tokensIn_of_lt hlt, rfl⟩
  · obtain ⟨head, tail, ht, hhead⟩ := tokens_head t
    refine ⟨head, tail, by rw [tokensIn_of_le (Nat.not_lt.1 hlt), ht], ?_⟩
    rcases hhead with hhead | ⟨-, hlevel⟩
    · exact hhead
    · exact absurd hlevel hlt

end Tree

namespace Session

/-! ## Agreement up to the depth -/

section

variable {β γ : Type} {enough : Prop}

/-- Two computations that do the same, unless the depth is not enough and the
    first of them says so. -/
def Agrees (enough : Prop) (m n : SessionM β) : Prop :=
  ∀ w, m w = n w ∨ (¬enough ∧ ∃ u, m w = .error .depthExceeded u)

theorem Agrees.of_eq {m n : SessionM β} (h : m = n) : Agrees enough m n :=
  fun _ => .inl (by rw [h])

theorem Agrees.mono {less : Prop} {m n : SessionM β} (h : Agrees less m n)
    (hless : enough → less) : Agrees enough m n := by
  intro w
  rcases h w with heq | ⟨hnot, hdeep⟩
  · exact .inl heq
  · exact .inr ⟨fun he => hnot (hless he), hdeep⟩

theorem Agrees.trans {l m n : SessionM β} (hlm : Agrees enough l m) (hmn : Agrees enough m n) :
    Agrees enough l n := by
  intro w
  rcases hlm w with heq | hdeep
  · rcases hmn w with heq' | ⟨hnot, u, hu⟩
    · exact .inl (heq.trans heq')
    · exact .inr ⟨hnot, u, heq.trans hu⟩
  · exact .inr hdeep

/-- Computations that agree can be followed by such that do. -/
theorem Agrees.bind {m n : SessionM β} {k l : β → SessionM γ} (h : Agrees enough m n)
    (hk : ∀ b, Agrees enough (k b) (l b)) : Agrees enough (m >>= k) (n >>= l) := by
  intro w
  rcases h w with heq | ⟨hnot, u, hu⟩
  · cases hn : n w with
    | ok b u =>
        rw [bind_of_ok (heq.trans hn), bind_of_ok hn]
        exact hk b u
    | error f u =>
        rw [bind_of_error (heq.trans hn), bind_of_error hn]
        exact .inl rfl
  · exact .inr ⟨hnot, u, bind_of_error hu⟩

/-- A value, and tokens that are left after it. -/
def leaving (rest : List Token) (m : SessionM β) : SessionM (β × List Token) := do
  let b ← m
  pure (b, rest)

/-- The tokens that are left are put at the end of what follows. -/
theorem leaving_bind (rest : List Token) (m : SessionM β) (k : β → SessionM γ) :
    leaving rest (m >>= k) = m >>= fun b => leaving rest (k b) :=
  bind_assoc m k _

/-- Something is read and then used. -/
theorem Agrees.read {m : SessionM (β × List Token)} {n : SessionM β}
    {k : β × List Token → SessionM γ} {l : β → SessionM γ} {rest : List Token}
    (h : Agrees enough m (leaving rest n)) (hk : ∀ b, Agrees enough (k (b, rest)) (l b)) :
    Agrees enough (m >>= k) (n >>= l) := by
  have hleft : leaving rest n >>= k = n >>= fun b => k (b, rest) := by
    rw [leaving, bind_assoc]
    simp only [pure_bind]
  refine (h.bind fun r => .of_eq rfl).trans ?_
  rw [hleft]
  exact Agrees.bind (.of_eq rfl) hk

/-- Something else is done on both sides. -/
theorem Agrees.act (act : SessionM β) {k l : β → SessionM γ}
    (hk : ∀ b, Agrees enough (k b) (l b)) : Agrees enough (act >>= k) (act >>= l) :=
  Agrees.bind (.of_eq rfl) hk

end

/-- Tokens that no operation goes on with. -/
def Stops (ts : List Token) : Prop := ∀ level, goesOn level ts = false

/-- An engine that reads trees whose parentheses nest less than `steps` deep. -/
structure Reads (E : Engine) (steps : Nat) : Prop where
  tree : ∀ (k : Nat) (t : Tree) (rest : List Token), Stops rest →
    Agrees (t.nestingIn k < steps) (E.expression (t.tokensIn k ++ rest)) (leaving rest t.eval)
  call : ∀ (word : FunctionWord) (inputs : Fin word.function.arity → Tree) {rest : List Token},
    Stops rest → Agrees (0 < steps ∧ ∀ i, (inputs i).nestingIn 3 + 1 < steps)
      (E.expression (.word word.name :: Tree.inputTokens inputs ++ rest))
      (leaving rest do
        let vs ← inTurn fun i => (inputs i).eval
        apply word.function vs)

theorem stops_closeParen (rest : List Token) : Stops (.closeParen :: rest) := fun _ => rfl

/-- No operation goes on at a single value. -/
theorem stops_input (t : Tree) (rest : List Token) : Stops (t.tokensIn 3 ++ rest) := by
  obtain ⟨head, tail, ht, hhead⟩ := t.tokensIn_head
  intro level
  rw [ht]
  cases head with
  | operator op => cases hhead
  | _ => rfl

/-- The first input is written before the others. -/
theorem inputTokens_succ {n : Nat} (inputs : Fin (n + 1) → Tree) :
    Tree.inputTokens inputs
      = (inputs 0).tokensIn 3 ++ Tree.inputTokens fun i => inputs i.succ := by
  rw [Tree.inputTokens, List.ofFn_succ, List.flatten_cons]
  rfl

/-- No operation goes on at the next input, nor after the last. -/
theorem stops_inputs {n : Nat} (inputs : Fin n → Tree) {rest : List Token} (hrest : Stops rest) :
    Stops (Tree.inputTokens inputs ++ rest) := by
  cases n with
  | zero => exact hrest
  | succ n =>
      rw [inputTokens_succ, List.append_assoc]
      exact stops_input _ _

section

variable {E : Engine} {steps : Nat} (hE : Reads E steps)
include hE

/-! ## Inputs and parentheses -/

/-- The inputs of a call are read one after another. -/
theorem Reads.arguments {n : Nat} (inputs : Fin n → Tree) {rest : List Token}
    (hrest : Stops rest) : Agrees (∀ i, (inputs i).nestingIn 3 < steps)
      (Session.arguments E n (Tree.inputTokens inputs ++ rest))
      (leaving rest (inTurn fun i => (inputs i).eval)) := by
  induction n with
  | zero => exact .of_eq rfl
  | succ n ih =>
      rw [inputTokens_succ, List.append_assoc, Session.arguments, inTurn, leaving_bind]
      have hfirst := hE.tree 3 (inputs 0) _ (stops_inputs (fun i => inputs i.succ) hrest)
      refine (hfirst.mono fun h => h 0).read fun v => ?_
      rw [leaving_bind]
      exact ((ih fun i => inputs i.succ).mono fun h i => h i.succ).read fun vs => .of_eq rfl

/-- The inputs of a call, up to the parenthesis that closes it. -/
theorem Reads.items {n k : Nat} (inputs : Fin n → Tree) (rest : List Token) (hk : n ≤ k) :
    Agrees (∀ i, (inputs i).nestingIn 3 < steps)
      (Session.items E k (Tree.inputTokens inputs ++ .closeParen :: rest))
      (leaving (.closeParen :: rest) (inTurn fun i => (inputs i).eval)) := by
  induction n generalizing k with
  | zero => cases k <;> exact .of_eq rfl
  | succ n ih =>
      obtain ⟨k, rfl⟩ : ∃ j, k = j + 1 := ⟨k - 1, by omega⟩
      obtain ⟨head, tail, ht, hhead⟩ := (inputs 0).tokensIn_head
      have hclose : head ≠ .closeParen := by
        rintro rfl
        cases hhead
      have hfirst := hE.tree 3 (inputs 0) _
        (stops_inputs (fun i => inputs i.succ) (stops_closeParen rest))
      rw [inputTokens_succ, List.append_assoc, inTurn, leaving_bind]
      rw [ht, List.cons_append, items_cons hclose, ← List.cons_append, ← ht]
      refine (hfirst.mono fun h => h 0).read fun v => ?_
      rw [leaving_bind]
      exact ((ih (fun i => inputs i.succ) (by omega)).mono fun h i => h i.succ).read
        fun vs => .of_eq rfl

omit hE in
/-- An expression between parentheses. -/
theorem Agrees.grouped {enough : Prop} {m : SessionM Value} {ts rest : List Token}
    (h : Agrees enough (E.expression ts) (leaving (.closeParen :: rest) m)) :
    Agrees enough (Session.grouped E ts) (leaving rest m) := by
  have hcondition : Agrees enough (condition E ts) (leaving (.closeParen :: rest) m) :=
    h.read fun v => .of_eq rfl
  exact hcondition.read fun v => .of_eq rfl

/-- A tree in parentheses is read as a single value. -/
theorem Reads.enclosed (t : Tree) (rest : List Token) :
    Agrees (t.nesting < steps) (primary E (.openParen :: t.tokens ++ .closeParen :: rest))
      (leaving rest t.eval) := by
  obtain ⟨head, tail, ht, hhead⟩ := t.tokens_head
  have hword : ∀ name, head = .word name → Variadic.ofName? name = none := by
    rintro name rfl
    rcases hhead with hhead | ⟨hhead, -⟩ <;> cases hhead
  show Agrees _ (parenthesised E (t.tokens ++ .closeParen :: rest)) _
  rw [ht, List.cons_append, parenthesised_grouped hword, ← List.cons_append, ← ht]
  exact (hE.tree 0 t _ (stops_closeParen rest)).grouped

/-- A comparison in its parentheses is read as a single value. -/
theorem Reads.comparison (c : Comparison) (l r : Tree) (rest : List Token) :
    Agrees (l.nesting < steps ∧ r.nesting < steps)
      (primary E (Tree.tokens (.comparison c l r) ++ rest))
      (leaving rest (Tree.eval (.comparison c l r))) := by
  obtain ⟨head, tail, ht, hhead⟩ := l.tokens_head
  have hword : ∀ name, head = .word name → Variadic.ofName? name = none := by
    rintro name rfl
    rcases hhead with hhead | ⟨hhead, -⟩ <;> cases hhead
  have hsplit : Tree.tokens (.comparison c l r) ++ rest
      = .openParen :: (l.tokens ++ .comparison c :: (r.tokens ++ .closeParen :: rest)) := by
    simp [Tree.tokens]
  have hleft := hE.tree 0 l (.comparison c :: (r.tokens ++ .closeParen :: rest)) fun _ => rfl
  have hright := hE.tree 0 r _ (stops_closeParen rest)
  rw [hsplit]
  show Agrees _ (parenthesised E (l.tokens ++ _)) _
  rw [ht, List.cons_append, parenthesised_grouped hword, ← List.cons_append, ← ht]
  have hcondition : Agrees (l.nesting < steps ∧ r.nesting < steps)
      (condition E (l.tokens ++ .comparison c :: (r.tokens ++ .closeParen :: rest)))
      (leaving (.closeParen :: rest) (Tree.eval (.comparison c l r))) := by
    rw [Tree.eval, leaving_bind]
    refine (hleft.mono fun h => h.1).read fun a => ?_
    rw [leaving_bind]
    refine (hright.mono fun h => h.2).read fun b => ?_
    rw [leaving_bind]
    exact .of_eq rfl
  exact hcondition.read fun v => .of_eq rfl

end

/-- The words that spell a function of any number of inputs, and what they spell
    otherwise. -/
theorem mem_variadic {name : Text} {g : Variadic} (hg : Variadic.ofName? name = some g) :
    (g = .list ∧ Function.ofName? name = some .list)
      ∨ (g = .word ∧ Function.ofName? name = some .word)
      ∨ (g = .sentence ∧ Function.ofName? name = some .sentence) := by
  obtain ⟨before, after, htable, -⟩ := List.lookup_eq_some_iff.1 hg
  have hmem : (name, g) ∈ Variadic.table := by rw [htable]; simp
  simp only [Variadic.table, Text.keyed, List.map_cons, List.map_nil, List.mem_cons,
    Prod.mk.injEq, List.not_mem_nil, or_false] at hmem
  rcases hmem with ⟨rfl, rfl⟩ | ⟨rfl, rfl⟩ | ⟨rfl, rfl⟩ | ⟨rfl, rfl⟩
  · exact .inl ⟨rfl, by decide⟩
  · exact .inr (.inl ⟨rfl, by decide⟩)
  · exact .inr (.inr ⟨rfl, by decide⟩)
  · exact .inr (.inr ⟨rfl, by decide⟩)

/-- The functions that take any number of inputs, with as many as usual. -/
theorem applyVariadic_eq {name : Text} {g : Variadic} {f : Function}
    (hg : Variadic.ofName? name = some g) (hf : Function.ofName? name = some f)
    {vs : List Value} (hvs : vs.length = f.arity) : applyVariadic g vs = apply f vs := by
  rcases mem_variadic hg with ⟨rfl, hname⟩ | ⟨rfl, hname⟩ | ⟨rfl, hname⟩
  all_goals
    rw [hname] at hf
    cases hf
    obtain ⟨a, b, rfl⟩ := List.length_eq_two.1 hvs
  · rfl
  · show _ = (do
      let s ← text a
      let t ← text b
      pure (.word (s ++ t)) : SessionM Value)
    simp [applyVariadic, joined]
  · rfl

/-- As many things as are done in turn have a value each. -/
theorem length_inTurn {β : Type} {n : Nat} {act : Fin n → SessionM β} {w u : World} {bs : List β}
    (h : inTurn act w = .ok bs u) : bs.length = n := by
  induction n generalizing w bs with
  | zero => cases h; rfl
  | succ n ih =>
      obtain ⟨b, v, -, h⟩ := bind_eq_ok h
      obtain ⟨bs', v', hbs, h⟩ := bind_eq_ok h
      cases h
      rw [List.length_cons, ih hbs]

/-- What comes after several things done in turn may rely on their number. -/
theorem inTurn_bind_congr {β γ : Type} {n : Nat} (act : Fin n → SessionM β)
    {k l : List β → SessionM γ} (h : ∀ bs : List β, bs.length = n → k bs = l bs) :
    inTurn act >>= k = inTurn act >>= l := by
  funext w
  cases hw : inTurn act w with
  | ok bs u => rw [bind_of_ok hw, bind_of_ok hw, h bs (length_inTurn hw)]
  | error f u => rw [bind_of_error hw, bind_of_error hw]

/-- Every input has a token at least. -/
theorem length_inputTokens {n : Nat} (inputs : Fin n → Tree) :
    n ≤ (Tree.inputTokens inputs).length := by
  induction n with
  | zero => exact Nat.zero_le _
  | succ n ih =>
      obtain ⟨head, tail, ht, -⟩ := (inputs 0).tokensIn_head
      have hrest := ih fun i => inputs i.succ
      rw [inputTokens_succ, ht, List.length_append, List.length_cons]
      omega

section

variable {E : Engine} {steps : Nat} (hE : Reads E steps)
include hE

/-- A call in its parentheses is read as a single value. -/
theorem Reads.calling (word : FunctionWord) (inputs : Fin word.function.arity → Tree)
    (rest : List Token) : Agrees (0 < steps ∧ ∀ i, (inputs i).nestingIn 3 + 1 < steps)
      (primary E (Tree.tokens (.call word inputs) ++ rest))
      (leaving rest (Tree.eval (.call word inputs))) := by
  have hsplit : Tree.tokens (.call word inputs) ++ rest
      = .openParen :: .word word.name :: (Tree.inputTokens inputs ++ .closeParen :: rest) := by
    rw [Tree.tokens]
    show _ :: _ :: (Tree.inputTokens inputs ++ [.closeParen]) ++ rest = _
    simp
  rw [hsplit]
  show Agrees _ (parenthesised E (.word word.name :: (Tree.inputTokens inputs ++ _))) _
  cases hg : Variadic.ofName? word.name with
  | none =>
      rw [parenthesised_grouped]
      · exact (hE.call word inputs (stops_closeParen rest)).grouped
      · rintro name ⟨⟩
        exact hg
  | some g =>
      -- the word takes any number of inputs in parentheses, and here gets its usual ones
      have hlength : word.function.arity
          ≤ (Tree.inputTokens inputs ++ .closeParen :: rest).length := by
        have hinputs := length_inputTokens inputs
        rw [List.length_append]
        omega
      have hsame : Tree.eval (.call word inputs)
          = inTurn (fun i => (inputs i).eval) >>= applyVariadic g :=
        inTurn_bind_congr _ fun vs hvs => (applyVariadic_eq hg word.spells hvs).symm
      rw [parenthesised_variadic hg, hsame, leaving_bind]
      have hitems := hE.items inputs rest hlength
      refine (hitems.mono fun h i => Nat.lt_of_succ_lt (h.2 i)).read fun vs => ?_
      exact .act (applyVariadic g vs) fun v => .of_eq rfl

/-- A tree that is tight enough for a single value is read as one. -/
theorem Reads.primary {t : Tree} (ht : t.level = 3) (rest : List Token) :
    Agrees (t.nesting ≤ steps) (Session.primary E (t.tokens ++ rest)) (leaving rest t.eval) := by
  cases t with
  | number n => exact .of_eq rfl
  | quoted text => exact .of_eq rfl
  | varref name =>
      rw [Tree.eval, leaving_bind]
      exact .of_eq rfl
  | negation t => cases ht
  | binary op l r =>
      have hlevel := op.level_lt
      rw [Tree.level] at ht
      omega
  | comparison c l r =>
      refine (hE.comparison c l r rest).mono fun h => ?_
      rw [Tree.nesting] at h
      omega
  | call word inputs =>
      refine (hE.calling word inputs rest).mono fun h => ?_
      rw [Tree.nesting] at h
      refine ⟨by omega, fun i => ?_⟩
      have hle := Finset.le_sup (f := fun i => Tree.deepen 3 (inputs i).level (inputs i).nesting)
        (Finset.mem_univ i)
      show Tree.deepen 3 (inputs i).level (inputs i).nesting + 1 < steps
      omega

/-! ## Levels -/

omit hE in
/-- Without a minus sign before it a value is read as it is. -/
theorem unary_of_opens {head : Token} (h : Tree.opens head = true) (ts : List Token) :
    unary E (head :: ts) = Session.primary E (head :: ts) := by
  cases head with
  | operator op => cases h
  | _ => rfl

/-- Reads trees that hold together at least as tightly as `k` says, if `ok` what
    comes after them. -/
def ReadsAt (steps k : Nat) (ok : List Token → Prop) (read : List Token → SessionM Reading) :
    Prop :=
  ∀ (j : Nat) (t : Tree) {rest : List Token}, k ≤ j → ok rest →
    Agrees (t.nestingIn j ≤ steps) (read (t.tokensIn j ++ rest)) (leaving rest t.eval)

/-- A tree that is not a negation is a single value, or in parentheses, where a
    minus sign could stand. -/
theorem Reads.unary_of_ne {t : Tree} (ht : t.level ≠ 2) {j : Nat} (hj : 2 ≤ j)
    (rest : List Token) :
    Agrees (t.nestingIn j ≤ steps) (unary E (t.tokensIn j ++ rest)) (leaving rest t.eval) := by
  by_cases hlt : t.level < j
  · rw [Tree.tokensIn_of_lt hlt, Tree.nestingIn_of_lt hlt, List.append_assoc]
    rw [List.cons_append, unary_of_opens rfl, ← List.cons_append]
    exact hE.enclosed t rest
  · have hlevel : t.level = 3 := by
      have hle := t.level_le
      omega
    obtain ⟨head, tail, hhead, hopens⟩ := t.tokensIn_head
    rw [Tree.tokensIn_of_le (Nat.le_of_eq hlevel.symm)] at hhead
    rw [Tree.tokensIn_of_le (Nat.not_lt.1 hlt), Tree.nestingIn_of_le (Nat.not_lt.1 hlt)]
    rw [hhead, List.cons_append, unary_of_opens hopens, ← List.cons_append, ← hhead]
    exact hE.primary hlevel rest

/-- Minus signs are read from the outermost to the innermost. -/
theorem Reads.unary : ReadsAt steps 2 (fun _ => True) (unary E) := by
  intro j t rest hj _
  induction t generalizing j rest with
  | negation t ih =>
      by_cases hlt : 2 < j
      · rw [Tree.tokensIn_of_lt hlt, Tree.nestingIn_of_lt hlt, List.append_assoc]
        rw [List.cons_append, unary_of_opens rfl, ← List.cons_append]
        exact hE.enclosed _ rest
      · have hle : j ≤ Tree.level (.negation t) := Nat.not_lt.1 hlt
        rw [Tree.tokensIn_of_le hle, Tree.nestingIn_of_le hle]
        show Agrees (t.nestingIn 2 ≤ steps)
          (Session.unary E (.operator .minus :: (t.tokensIn 2 ++ rest))) _
        rw [Session.unary, Tree.eval, leaving_bind]
        refine (ih 2 (Nat.le_refl 2)).read fun v => ?_
        rw [leaving_bind]
        exact .of_eq rfl
  | binary op l r _ _ =>
      refine hE.unary_of_ne (fun hlevel => ?_) hj rest
      have hlt := op.level_lt
      rw [Tree.level] at hlevel
      omega
  | _ => exact hE.unary_of_ne (fun hlevel => by cases hlevel) hj rest

end

section

variable {steps k : Nat} {ok : List Token → Prop} {level : Operator → Bool}
  {operand : List Token → SessionM Reading} (hoperand : ReadsAt steps (k + 1) ok operand)
include hoperand

/-- A tree of a tighter level, or in parentheses, is the first operand. -/
theorem ReadsAt.first {t : Tree} {j : Nat} (ht : t.level < j ∨ k < t.level) {rest : List Token}
    (hrest : ok rest) :
    Agrees (t.nestingIn j ≤ steps) (operations level operand (t.tokensIn j ++ rest))
      (t.eval >>= fun v => chain level operand rest.length v rest) := by
  have hsame : t.level < j ↔ t.level < max j (k + 1) := by omega
  have htokens : t.tokensIn j = t.tokensIn (max j (k + 1)) := by
    simp only [Tree.tokensIn, Tree.enclose, hsame]
  have hnesting : t.nestingIn j = t.nestingIn (max j (k + 1)) := by
    simp only [Tree.nestingIn, Tree.deepen, hsame]
  rw [operations_eq, htokens, hnesting]
  exact (hoperand _ t (Nat.le_max_right _ _) hrest).read fun v => .of_eq rfl

/-- A tree, and whatever operations of one level come after it. -/
theorem ReadsAt.chained (hlocal : Local 0 operand)
    (hlevel : ∀ op, level op = true ↔ op.level = k)
    (hok : ∀ op ts, level op = true → ok (.operator op :: ts)) (hk : k < 2) {j : Nat} (t : Tree)
    {rest : List Token} (hj : k ≤ j) (hrest : ok rest) :
    Agrees (t.nestingIn j ≤ steps) (operations level operand (t.tokensIn j ++ rest))
      (t.eval >>= fun v => chain level operand rest.length v rest) := by
  induction t generalizing j rest with
  | binary op l r ihl _ =>
      by_cases hfirst : op.level < j ∨ k < op.level
      · exact hoperand.first hfirst hrest
      · -- of this level: what is read of the left operand goes on with the right one
        have hop : op.level = k := by omega
        have hle : j ≤ Tree.level (.binary op l r) := by
          show j ≤ op.level
          omega
        have hsplit : Tree.tokensIn j (.binary op l r) ++ rest
            = l.tokensIn k ++ .operator op :: (r.tokensIn (k + 1) ++ rest) := by
          rw [Tree.tokensIn_of_le hle, Tree.tokens, hop, List.append_assoc]
          rfl
        have hdeep : Tree.nestingIn j (.binary op l r)
            = max (l.nestingIn k) (r.nestingIn (k + 1)) := by
          rw [Tree.nestingIn_of_le hle, Tree.nesting, hop]
          rfl
        have hsign := (hlevel op).2 hop
        rw [hsplit, hdeep, Tree.eval, bind_assoc]
        refine ((ihl (Nat.le_refl k) (hok op _ hsign)).mono fun h => by omega).trans ?_
        refine .act l.eval fun a => ?_
        rw [List.length_cons, chain_cons hsign, bind_assoc]
        refine ((hoperand (k + 1) r (Nat.le_refl _) hrest).mono fun h => by omega).read fun b => ?_
        refine .act (arithmetic op a b) fun v => .of_eq (chain_fuel hlocal ?_ (Nat.le_refl _))
        show rest.length ≤ (r.tokensIn (k + 1) ++ rest).length
        rw [List.length_append]
        omega
  | negation t _ => exact hoperand.first (.inr (by show k < 2; omega)) hrest
  | _ => exact hoperand.first (.inr (by show k < 3; omega)) hrest

/-- If operands of one level are read, then chains of operations on them are. -/
theorem ReadsAt.operations (hlocal : Local 0 operand)
    (hlevel : ∀ op, level op = true ↔ op.level = k)
    (hok : ∀ op ts, level op = true → ok (.operator op :: ts)) (hk : k < 2) :
    ReadsAt steps k (fun rest => ok rest ∧ goesOn level rest = false)
      (Session.operations level operand) := by
  intro j t rest hj hrest
  refine (hoperand.chained hlocal hlevel hok hk t hj hrest.1).trans (.of_eq ?_)
  simp only [chain_of_not_goesOn hrest.2]
  rfl

end

/-- The signs of products are those of the tighter level. -/
theorem isFactorSign_iff (op : Operator) : isFactorSign op = true ↔ op.level = 1 := by
  cases op <;> decide

/-- The signs of sums are those of the looser level. -/
theorem isTermSign_iff (op : Operator) : isTermSign op = true ↔ op.level = 0 := by
  cases op <;> decide

/-- A product does not go on at the sign of a sum. -/
theorem goesOn_termSign {op : Operator} (h : isTermSign op = true) (ts : List Token) :
    goesOn isFactorSign (.operator op :: ts) = false := by
  match op with
  | .plus => rfl
  | .minus => rfl
  | .times => cases h
  | .over => cases h

/-- Something that no operation follows. -/
theorem Agrees.operations {enough : Prop} {level : Operator → Bool}
    {operand : List Token → SessionM Reading} {m : SessionM Value} {ts rest : List Token}
    (h : Agrees enough (operand ts) (leaving rest m)) (hrest : Stops rest) :
    Agrees enough (Session.operations level operand ts) (leaving rest m) := by
  rw [operations_eq]
  exact h.read fun v => .of_eq (chain_of_not_goesOn (hrest level) _ v)

section

variable {E : Engine} {steps : Nat} (hE : Reads E steps) (hlocal : Local 1 E.expression)
include hE hlocal

/-- A tree is read where any level is needed. -/
theorem Reads.sum {j : Nat} (t : Tree) {rest : List Token} (hrest : Stops rest) :
    Agrees (t.nestingIn j ≤ steps) (Session.sum E (t.tokensIn j ++ rest))
      (leaving rest t.eval) := by
  have hunary := local_unary hlocal
  have hfactors := hE.unary.operations (hunary.weaken (Nat.zero_le 1)) isFactorSign_iff
    (fun _ _ _ => trivial) (Nat.lt_succ_self 1)
  have hterms := hfactors.operations ((local_operations hunary).weaken (Nat.zero_le 1))
    isTermSign_iff (fun _ ts hop => ⟨trivial, goesOn_termSign hop ts⟩) (Nat.zero_lt_succ 1)
  exact hterms j t (Nat.zero_le j) ⟨⟨trivial, hrest _⟩, hrest _⟩

omit hlocal in
/-- A call without parentheses around it. -/
theorem Reads.sum_call (word : FunctionWord) (inputs : Fin word.function.arity → Tree)
    {rest : List Token} (hrest : Stops rest) : Agrees (∀ i, (inputs i).nestingIn 3 < steps)
      (Session.sum E (.word word.name :: Tree.inputTokens inputs ++ rest))
      (leaving rest do
        let vs ← inTurn fun i => (inputs i).eval
        apply word.function vs) := by
  have hword : Agrees (∀ i, (inputs i).nestingIn 3 < steps)
      (Session.unary E (.word word.name :: Tree.inputTokens inputs ++ rest))
      (leaving rest do
        let vs ← inTurn fun i => (inputs i).eval
        apply word.function vs) := by
    show Agrees _ (wordValue E word.name (Tree.inputTokens inputs ++ rest)) _
    rw [leaving_bind]
    simp only [wordValue, word.spells]
    exact (hE.arguments inputs hrest).read fun vs => .of_eq rfl
  exact (hword.operations hrest).operations hrest

end

/-- A step down from an expression takes seven units of depth. -/
theorem reads_expression (patience depth : Nat) :
    Reads ⟨expressionAt patience depth, blockAtDepth patience depth⟩ (depth / 7) := by
  induction depth using Nat.strongRecOn with
  | _ depth ih =>
      by_cases hdepth : depth < 7
      · have hthrow : ∀ ts w, expressionAt patience depth ts w = .error .depthExceeded w := by
          intro ts w
          rw [expressionAt]
          · rfl
          · intro d hd
            omega
        rw [Nat.div_eq_of_lt hdepth]
        exact ⟨fun k t rest _ w => .inr ⟨Nat.not_lt_zero _, w, hthrow _ w⟩,
          fun word inputs rest _ w => .inr ⟨fun h => Nat.not_lt_zero 0 h.1, w, hthrow _ w⟩⟩
      · obtain ⟨d, rfl⟩ : ∃ d, depth = d + 7 := ⟨depth - 7, by omega⟩
        have hE := ih d (by omega)
        have hsteps : (d + 7) / 7 = d / 7 + 1 := by omega
        have hsum : ∀ ts, expressionAt patience (d + 7) ts
            = sum ⟨expressionAt patience d, blockAtDepth patience d⟩ ts := by
          intro ts
          rw [expressionAt]
        rw [hsteps]
        refine ⟨fun k t rest hrest => ?_, fun word inputs rest hrest => ?_⟩
        · show Agrees _ (expressionAt patience (d + 7) _) _
          rw [hsum]
          exact (hE.sum (local_expression patience d) t hrest).mono fun h => Nat.le_of_lt_succ h
        · show Agrees _ (expressionAt patience (d + 7) _) _
          rw [hsum]
          exact (hE.sum_call word inputs hrest).mono fun h i => Nat.lt_of_succ_lt_succ (h.2 i)

/-- Expressions are read with the usual precedence: under any limits and in any
    session, the tokens of a tree are all used up and have the value of the tree,
    or the error that its evaluation from left to right runs into, unless the
    tree nests deeper than the limits allow. -/
theorem expression_tokens (limits : Limits) (t : Tree) (w : World) :
    (engine limits).expression t.tokens w = leaving [] t.eval w
      ∨ (limits.depth < 7 * (t.nesting + 1)
        ∧ ∃ u, (engine limits).expression t.tokens w = .error .depthExceeded u) := by
  have h := (reads_expression limits.patience limits.depth).tree 0 t [] (fun _ => rfl) w
  rw [List.append_nil] at h
  rcases h with heq | ⟨hnot, hdeep⟩
  · exact .inl heq
  · refine .inr ⟨?_, hdeep⟩
    rw [Tree.nestingIn_zero] at hnot
    omega

end Session

end TurtleLogo
