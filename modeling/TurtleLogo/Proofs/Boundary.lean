import TurtleLogo.Proofs.Rest

/-! # Statement boundaries

    Everything that reads tokens looks ahead: for an operator, a comparison, a
    prompt, a parameter, a bracket or an `END`.  None of that sees past the end
    of a statement:

    * `Local n read` says that `read`, where it succeeds, leaves a suffix of its
      tokens with at least `n` of them used up, and that it does the same, and
      leaves the same and more, when tokens follow that start at a boundary;
    * readings that are local stay so in sequence (`LocalAt.bind`), so that all
      expressions (`local_expression`) and all statements (`local_statement`)
      are local;
    * hence a block of two parts runs one part after the other
      (`block_append`). -/

namespace TurtleLogo

/-- The number of tokens that a block has used up, unless a signal ends it. -/
def Flow.index (ts : List Token) : Flow → Option Nat
  | .done rest => some (ts.length - rest.length)
  | .signal _ => none

namespace Session

/-- Tokens that may follow a whole statement: none, or a word first. -/
def Boundary : List Token → Prop
  | [] => True
  | .word _ :: _ => True
  | _ => False

/-- Results of reading tokens: what they leave unread, unless a signal makes
    that irrelevant, and what they are when more tokens follow. -/
class Unread (γ : Type) where
  left : γ → Option (List Token)
  extend : γ → List Token → γ

section

variable {α β γ : Type}

instance : Unread (β × List Token) := ⟨fun r => some r.2, fun r more => (r.1, r.2 ++ more)⟩

instance : Unread Flow where
  left
    | .done rest => some rest
    | .signal _ => none
  extend
    | .done rest, more => .done (rest ++ more)
    | .signal s, _ => .signal s

variable [Unread γ] {n m : Nat}

/-- A reading that, on the given tokens, uses up at least `n` of them and does
    not look past a boundary after them. -/
def LocalAt (n : Nat) (read : List Token → SessionM γ) (ts : List Token) : Prop :=
  ∀ ⦃w c w'⦄, read ts w = .ok c w' →
    (∀ rest ∈ Unread.left c, rest <:+ ts ∧ rest.length + n ≤ ts.length)
      ∧ ∀ more, Boundary more → read (ts ++ more) w = .ok (Unread.extend c more) w'

/-- A reading that is local on all tokens. -/
def Local (n : Nat) (read : List Token → SessionM γ) : Prop := ∀ ts, LocalAt n read ts

/-! ## Readings in sequence -/

/-- A reading that uses up some tokens uses up fewer as well. -/
theorem LocalAt.weaken {read : List Token → SessionM γ} {ts : List Token} (h : LocalAt n read ts)
    (hmn : m ≤ n) : LocalAt m read ts := by
  intro w c w' hread
  obtain ⟨hleft, hmore⟩ := h hread
  refine ⟨fun rest hrest => ?_, hmore⟩
  obtain ⟨hsuffix, hlength⟩ := hleft rest hrest
  exact ⟨hsuffix, by omega⟩

/-- A reading on all tokens that uses up some uses up fewer as well. -/
theorem Local.weaken {read : List Token → SessionM γ} (h : Local n read) (hmn : m ≤ n) :
    Local m read :=
  fun ts => (h ts).weaken hmn

/-- A reading that fails. -/
theorem Local.throw (f : Fault) :
    Local n (fun _ => MonadExcept.throw f : List Token → SessionM γ) := by
  intro ts w c w' h
  cases h

/-- A reading that leaves all tokens. -/
theorem Local.give (b : β) : Local 0 (fun ts => Pure.pure (b, ts) : _ → SessionM (β × _)) := by
  intro ts w c w' h
  cases h
  refine ⟨fun rest hrest => ?_, fun more _ => rfl⟩
  cases hrest
  exact ⟨List.suffix_refl _, Nat.le_refl _⟩

/-- A statement that is done without a look at the tokens after it. -/
theorem Local.done : Local 0 (fun rest => Pure.pure (.done rest) : _ → SessionM Flow) := by
  intro ts w c w' h
  cases h
  refine ⟨fun rest hrest => ?_, fun more _ => rfl⟩
  cases hrest
  exact ⟨List.suffix_refl _, Nat.le_refl _⟩

/-- A signal leaves nothing to be read. -/
theorem Local.signal (s : Signal) :
    Local n (fun _ => Pure.pure (.signal s) : _ → SessionM Flow) := by
  intro ts w c w' h
  cases h
  refine ⟨fun rest hrest => ?_, fun more _ => rfl⟩
  cases hrest

/-- Doing something that has nothing to do with the tokens, and then reading. -/
theorem Local.act (act : SessionM α) {k : α → List Token → SessionM γ} (hk : ∀ a, Local n (k a)) :
    Local n fun ts => act >>= fun a => k a ts := by
  intro ts w c w' h
  obtain ⟨a, u, ha, hrest⟩ := bind_eq_ok h
  obtain ⟨hleft, hmore⟩ := hk a ts hrest
  refine ⟨hleft, fun more hB => ?_⟩
  show (act >>= fun a => k a (ts ++ more)) w = _
  rw [bind_of_ok ha, hmore more hB]

/-- One reading after another. -/
theorem LocalAt.bind {read : List Token → SessionM (β × List Token)}
    {k : β × List Token → SessionM γ} {ts : List Token} (hread : LocalAt n read ts)
    (hk : ∀ b, Local 0 fun rest => k (b, rest)) : LocalAt n (fun ts => read ts >>= k) ts := by
  intro w c w' h
  obtain ⟨⟨b, mid⟩, u, hmid, hrest⟩ := bind_eq_ok h
  obtain ⟨hleft, hmore⟩ := hread hmid
  obtain ⟨hsuffix, hlength⟩ := hleft mid rfl
  obtain ⟨hleft', hmore'⟩ := hk b mid hrest
  refine ⟨fun rest hr => ?_, fun more hB => ?_⟩
  · obtain ⟨hsuffix', hlength'⟩ := hleft' rest hr
    exact ⟨hsuffix'.trans hsuffix, by omega⟩
  · show (read (ts ++ more) >>= k) w = _
    rw [bind_of_ok (hmore more hB)]
    exact hmore' more hB

/-- A local reading and what goes on locally with its result are local in a row. -/
theorem Local.bind {read : List Token → SessionM (β × List Token)}
    {k : β × List Token → SessionM γ} (hread : Local n read)
    (hk : ∀ b, Local 0 fun rest => k (b, rest)) : Local n fun ts => read ts >>= k :=
  fun ts => (hread ts).bind hk

/-- A look at what comes next that ends at a boundary. -/
def Looks (look : List Token → β × List Token) : Prop :=
  ∀ ts, (look ts).2 <:+ ts ∧
    ∀ more, Boundary more → look (ts ++ more) = ((look ts).1, (look ts).2 ++ more)

/-- What goes on locally after a look is local. -/
theorem Looks.bind {look : List Token → β × List Token} {k : β → List Token → SessionM γ}
    (hlook : Looks look) (hk : ∀ b, Local 0 (k b)) :
    Local 0 fun ts => k (look ts).1 (look ts).2 := by
  intro ts w c w' h
  obtain ⟨hsuffix, hmore⟩ := hlook ts
  obtain ⟨hleft, hmore'⟩ := hk _ _ h
  refine ⟨fun rest hrest => ?_, fun more hB => ?_⟩
  · obtain ⟨hsuffix', -⟩ := hleft rest hrest
    exact ⟨hsuffix'.trans hsuffix, (hsuffix'.trans hsuffix).length_le⟩
  · show k (look (ts ++ more)).1 (look (ts ++ more)).2 w = _
    rw [hmore more hB]
    exact hmore' more hB

/-- Locality only depends on what is read from the tokens and those behind them. -/
theorem LocalAt.congr {read go : List Token → SessionM γ} {ts : List Token}
    (h : LocalAt n go ts) (heq : ∀ more, read (ts ++ more) = go (ts ++ more)) :
    LocalAt n read ts := by
  intro w c w' hread
  have hself := heq []
  rw [List.append_nil] at hself
  rw [hself] at hread
  obtain ⟨hleft, hmore⟩ := h hread
  refine ⟨hleft, fun more hB => ?_⟩
  rw [heq]
  exact hmore more hB

/-- A reading that takes a first token off and goes on without it. -/
theorem LocalAt.cons {read go : List Token → SessionM γ} {t : Token} {ts : List Token}
    (h : LocalAt n go ts) (hgo : ∀ ts, read (t :: ts) = go ts) :
    LocalAt (n + 1) read (t :: ts) := by
  intro w c w' hread
  rw [hgo] at hread
  obtain ⟨hleft, hmore⟩ := h hread
  refine ⟨fun rest hrest => ?_, fun more hB => ?_⟩
  · obtain ⟨hsuffix, hlength⟩ := hleft rest hrest
    exact ⟨hsuffix.trans (List.suffix_cons t ts), by rw [List.length_cons]; omega⟩
  · rw [List.cons_append, hgo]
    exact hmore more hB

end

/-! ## Brackets, parameters and prompts -/

/-- A search that, where it is done within some tokens, does not depend on the
    tokens after them. -/
def FindsIn (find : List Token → Option (List Token × List Token)) (ts : List Token) : Prop :=
  ∀ ⦃inner rest⦄, find ts = some (inner, rest) →
    rest <:+ ts ∧ ∀ more, find (ts ++ more) = some (inner, rest ++ more)

/-- A search that keeps its first token finds what it finds behind it. -/
theorem FindsIn.cons {find go : List Token → Option (List Token × List Token)} {t : Token}
    {ts : List Token} (h : FindsIn go ts)
    (hgo : ∀ ts, find (t :: ts) = (go ts).map fun r => (t :: r.1, r.2)) :
    FindsIn find (t :: ts) := by
  intro inner rest hfind
  rw [hgo] at hfind
  obtain ⟨⟨i, r⟩, hr, heq⟩ := Option.map_eq_some_iff.1 hfind
  cases heq
  obtain ⟨hsuffix, hmore⟩ := h hr
  refine ⟨hsuffix.trans (List.suffix_cons _ _), fun more => ?_⟩
  rw [List.cons_append, hgo, hmore]
  rfl

/-- A search that ends at a token. -/
theorem FindsIn.here {find : List Token → Option (List Token × List Token)} {t : Token}
    (hfind : ∀ ts, find (t :: ts) = some ([], ts)) (ts : List Token) : FindsIn find (t :: ts) := by
  intro inner rest h
  rw [hfind] at h
  cases h
  exact ⟨List.suffix_cons _ _, fun more => hfind _⟩

/-- The search for a closing bracket does not depend on the tokens behind it. -/
theorem findsIn_splitClose (depth : Nat) (ts : List Token) :
    FindsIn (Token.splitClose depth) ts := by
  fun_induction Token.splitClose depth ts with
  | case1 => intro inner rest h; cases h
  | case2 ts => exact .here (fun _ => rfl) ts
  | case3 depth ts ih => exact ih.cons fun _ => rfl
  | case4 depth ts ih => exact ih.cons fun ts => by rw [Token.splitClose]
  | case5 depth t ts hzero hsucc hopen ih =>
      refine ih.cons fun ts => ?_
      rw [Token.splitClose]
      · exact hopen
      · exact hzero
      · exact hsucc

/-- The search for the end of a definition does not depend on the tokens behind it. -/
theorem findsIn_splitEnd (depth : Nat) (ts : List Token) : FindsIn (splitEnd depth) ts := by
  fun_induction splitEnd depth ts with
  | case1 => intro inner rest h; cases h
  | case2 depth name ts hto ih =>
      refine ih.cons fun ts => ?_
      simp only [splitEnd, if_pos hto]
  | case3 name ts hto hend =>
      refine .here (fun ts => ?_) ts
      simp only [splitEnd, if_neg hto, if_pos hend]
  | case4 name ts hto hend depth ih =>
      refine ih.cons fun ts => ?_
      simp only [splitEnd, if_neg hto, if_pos hend]
  | case5 depth name ts hto hend ih =>
      refine ih.cons fun ts => ?_
      simp only [splitEnd, if_neg hto, if_neg hend]
  | case6 depth t ts hword ih =>
      refine ih.cons fun ts => ?_
      rw [splitEnd]
      exact hword

/-- Parameters end at a boundary. -/
theorem looks_takeParams : Looks takeParams := by
  intro ts
  fun_induction takeParams ts with
  | case1 name ts r ih =>
      obtain ⟨hsuffix, hmore⟩ := ih
      refine ⟨hsuffix.trans (List.suffix_cons _ _), fun more hB => ?_⟩
      rw [List.cons_append, takeParams, hmore more hB]
  | case2 ts hname =>
      refine ⟨List.suffix_refl ts, fun more hB => ?_⟩
      have hother : ∀ name tail, ts ++ more ≠ .varref name :: tail := by
        intro name tail heq
        cases ts with
        | nil =>
            cases more with
            | nil => cases heq
            | cons t more => cases heq; exact hB
        | cons t ts =>
            cases heq
            exact hname name ts rfl
      rw [takeParams]
      exact hother

/-- A prompt stands before a boundary. -/
theorem looks_question (r : Reader) : Looks (question r) := by
  intro ts
  cases ts with
  | nil =>
      refine ⟨List.suffix_refl _, fun more hB => ?_⟩
      cases more with
      | nil => rfl
      | cons t more =>
          cases t with
          | word _ => rfl
          | _ => exact hB.elim
  | cons t ts =>
      cases t with
      | quoted prompt => exact ⟨List.suffix_cons _ _, fun _ _ => rfl⟩
      | _ => exact ⟨List.suffix_refl _, fun _ _ => rfl⟩

/-- No operation goes on at a boundary. -/
theorem goesOn_of_boundary {level : Operator → Bool} {ts : List Token} (h : Boundary ts) :
    goesOn level ts = false := by
  cases ts with
  | nil => rfl
  | cons t ts =>
      cases t with
      | word _ => rfl
      | _ => exact h.elim

/-- The tokens inside a bracket are read locally. -/
theorem local_inside : Local 0 fun ts => attempt (Token.inside ts) := by
  intro ts w c w' h
  cases hsplit : Token.splitClose 0 ts with
  | none =>
      simp only [Token.inside, hsplit] at h
      cases h
  | some r =>
      obtain ⟨hsuffix, hmore⟩ := findsIn_splitClose 0 ts hsplit
      simp only [Token.inside, hsplit] at h
      cases h
      refine ⟨fun rest hrest => ?_, fun more _ => ?_⟩
      · cases hrest
        exact ⟨hsuffix, hsuffix.length_le⟩
      · simp only [Token.inside, hmore]
        rfl

/-- A block that must come next is read locally. -/
theorem local_blockAt (place : BlockPlace) : Local 0 (blockAt place) := by
  intro ts
  cases ts with
  | nil => intro w c w' h; cases h
  | cons t ts =>
      cases t with
      | openBracket =>
          have h : LocalAt (0 + 1) (blockAt place) (.openBracket :: ts) :=
            (local_inside ts).cons fun _ => rfl
          exact h.weaken (by omega)
      | _ => intro w c w' h; cases h

/-! ## Expressions -/

/-- A chain ends where the tokens do not go on with it. -/
theorem chain_of_not_goesOn {level : Operator → Bool} {operand : List Token → SessionM Reading}
    {ts : List Token} (h : goesOn level ts = false) (n : Nat) (v : Value) :
    chain level operand n v ts = pure (v, ts) := by
  fun_cases chain level operand n v ts with
  | case1 n v op ts hop =>
      rw [goesOn] at h
      rw [h] at hop
      cases hop
  | case2 n v op ts hop => rfl
  | case3 => rfl

/-- A chain goes on with an operation of its level. -/
theorem chain_cons {level : Operator → Bool} {operand : List Token → SessionM Reading}
    {op : Operator} (h : level op = true) (n : Nat) (v : Value) (ts : List Token) :
    chain level operand (n + 1) v (.operator op :: ts) = (do
      let r ← operand ts
      let u ← arithmetic op v r.1
      chain level operand n u r.2) := by
  rw [chain, if_pos h]

/-- Tokens that go on with a level start with one of its signs. -/
theorem eq_cons_of_goesOn {level : Operator → Bool} {ts : List Token}
    (h : goesOn level ts = true) : ∃ op tail, ts = .operator op :: tail ∧ level op = true := by
  cases ts with
  | nil => cases h
  | cons t tail =>
      cases t with
      | operator op => exact ⟨op, tail, rfl, h⟩
      | _ => cases h

/-- A chain of fewer operations than there are tokens is not cut short. -/
theorem chain_fuel {level : Operator → Bool} {operand : List Token → SessionM Reading}
    (hoperand : Local 0 operand) {n k : Nat} {v : Value} {ts : List Token}
    (hn : ts.length ≤ n) (hk : ts.length ≤ k) :
    chain level operand n v ts = chain level operand k v ts := by
  induction n generalizing k v ts with
  | zero =>
      have hnil : ts = [] := List.eq_nil_of_length_eq_zero (by omega)
      subst hnil
      rw [chain_of_not_goesOn rfl, chain_of_not_goesOn rfl]
  | succ n ih =>
      cases hgo : goesOn level ts with
      | false => rw [chain_of_not_goesOn hgo, chain_of_not_goesOn hgo]
      | true =>
          obtain ⟨op, tail, rfl, hop⟩ := eq_cons_of_goesOn hgo
          rw [List.length_cons] at hn hk
          obtain ⟨k, rfl⟩ : ∃ j, k = j + 1 := ⟨k - 1, by omega⟩
          rw [chain_cons hop, chain_cons hop]
          funext w
          cases hr : operand tail w with
          | error f u => rw [bind_of_error hr, bind_of_error hr]
          | ok r u =>
              obtain ⟨-, hlength⟩ := (hoperand tail hr).1 r.2 rfl
              rw [bind_of_ok hr, bind_of_ok hr]
              have hchain : ∀ x, chain level operand n x r.2 = chain level operand k x r.2 :=
                fun x => ih (by omega) (by omega)
              simp only [hchain]

/-- A chain of local operands is local. -/
theorem local_chain {level : Operator → Bool} {operand : List Token → SessionM Reading}
    (hoperand : Local 0 operand) (v : Value) :
    Local 0 fun ts => chain level operand ts.length v ts := by
  intro ts
  -- every operation leaves fewer tokens for the rest of the chain
  induction hn : ts.length using Nat.strongRecOn generalizing v ts with
  | _ n ih =>
      subst hn
      intro w c w' h
      cases hgo : goesOn level ts with
      | false =>
          simp only [chain_of_not_goesOn hgo] at h
          cases h
          refine ⟨fun rest hrest => ?_, fun more hB => ?_⟩
          · cases hrest
            exact ⟨List.suffix_refl _, Nat.le_refl _⟩
          · have hgo' : goesOn level (ts ++ more) = false := by
              cases ts with
              | nil => exact goesOn_of_boundary hB
              | cons t ts => cases t <;> exact hgo
            simp only [chain_of_not_goesOn hgo']
            rfl
      | true =>
          obtain ⟨op, tail, rfl, hop⟩ := eq_cons_of_goesOn hgo
          simp only [List.length_cons, chain_cons hop] at h
          obtain ⟨⟨r, rest⟩, u, hr, h⟩ := bind_eq_ok h
          obtain ⟨x, u', hx, h⟩ := bind_eq_ok h
          obtain ⟨hleft, hmore⟩ := hoperand tail hr
          obtain ⟨hsuffix, hlength⟩ := hleft rest rfl
          rw [chain_fuel hoperand hlength (Nat.le_refl rest.length)] at h
          have hshorter : rest.length < (Token.operator op :: tail).length := by
            rw [List.length_cons]
            omega
          obtain ⟨hleft', hmore'⟩ := ih rest.length hshorter x rest rfl h
          refine ⟨fun last hlast => ?_, fun more hB => ?_⟩
          · obtain ⟨hsuffix', hlength'⟩ := hleft' last hlast
            exact ⟨(hsuffix'.trans hsuffix).trans (List.suffix_cons _ _), by
              simp only [List.length_cons]; omega⟩
          · simp only [List.cons_append, List.length_cons, chain_cons hop]
            rw [bind_of_ok (hmore more hB)]
            show (arithmetic op v r >>= fun u => chain level operand _ u (rest ++ more)) u = _
            rw [bind_of_ok hx, chain_fuel hoperand (k := (rest ++ more).length)
              (by simp only [List.length_append]; omega) (Nat.le_refl _)]
            exact hmore' more hB

/-- Operations are an operand and a chain. -/
theorem operations_eq (level : Operator → Bool) (operand : List Token → SessionM Reading)
    (ts : List Token) : operations level operand ts = (do
      let r ← operand ts
      chain level operand r.2.length r.1 r.2) := by
  rw [operations]
  congr 1
  funext ⟨v, rest⟩
  cases h : goesOn level rest with
  | false => simp only [h, chain_of_not_goesOn h]; rfl
  | true => simp only [h]; rfl

/-- Operations on local operands are local. -/
theorem local_operations {level : Operator → Bool} {operand : List Token → SessionM Reading}
    (hoperand : Local 1 operand) : Local 1 (operations level operand) := by
  have h : Local 1 fun ts => operand ts >>= fun r => chain level operand r.2.length r.1 r.2 :=
    hoperand.bind fun v => local_chain (hoperand.weaken (Nat.zero_le 1)) v
  simpa only [← operations_eq] using h

section

variable {E : Engine} (hE : Local 1 E.expression)
include hE

/-- The inputs of a word are read locally. -/
theorem local_arguments (n : Nat) : Local 0 (arguments E n) := by
  induction n with
  | zero => exact .give _
  | succ n ih =>
      have h : Local 1 (arguments E (n + 1)) :=
        hE.bind fun v => ih.bind fun vs => .give (v :: vs)
      exact h.weaken (Nat.zero_le 1)

/-- A condition is read locally. -/
theorem local_condition : Local 1 (condition E) := by
  refine Local.bind (γ := Reading) hE fun left => ?_
  intro ts
  cases ts with
  | nil =>
      intro w c w' h
      cases h
      refine ⟨fun rest hrest => ?_, fun more hB => ?_⟩
      · cases hrest
        exact ⟨List.suffix_refl _, Nat.le_refl _⟩
      · cases more with
        | nil => rfl
        | cons t more =>
            cases t with
            | word _ => rfl
            | _ => exact hB.elim
  | cons t ts =>
      cases t with
      | comparison c =>
          have h : Local 1 fun ts => (do
              let r ← E.expression ts
              let b ← attempt (Value.compare c left r.1)
              pure (Value.truth b, r.2) : SessionM Reading) :=
            hE.bind fun right => .act (attempt (Value.compare c left right))
              fun b => .give (Value.truth b)
          exact ((h ts).cons fun _ => rfl).weaken (by omega)
      | _ =>
          intro w c w' h
          cases h
          refine ⟨fun rest hrest => ?_, fun more hB => rfl⟩
          cases hrest
          exact ⟨List.suffix_refl _, Nat.le_refl _⟩

omit hE in
/-- An item that is no closing parenthesis is followed by the others. -/
theorem items_cons {t : Token} (ht : t ≠ .closeParen) (n : Nat) (ts : List Token) :
    items E (n + 1) (t :: ts) = (do
      let r ← E.expression (t :: ts)
      let rs ← items E n r.2
      pure (r.1 :: rs.1, rs.2)) := by
  cases t with
  | closeParen => exact absurd rfl ht
  | _ => rfl

/-- The inputs up to a closing parenthesis. -/
theorem items_spec {n : Nat} {ts rest : List Token} {vs : List Value} {w w' : World}
    (hn : ts.length ≤ n) (h : items E n ts w = .ok (vs, .closeParen :: rest) w') :
    rest <:+ ts ∧ ∀ more k, Boundary more → (ts ++ more).length ≤ k →
      items E k (ts ++ more) w = .ok (vs, .closeParen :: (rest ++ more)) w' := by
  induction n generalizing ts vs w with
  | zero =>
      have hnil : ts = [] := List.eq_nil_of_length_eq_zero (by omega)
      subst hnil
      cases h
  | succ n ih =>
      cases ts with
      | nil => cases h
      | cons t ts =>
          by_cases hclose : t = .closeParen
          · subst hclose
            cases h
            refine ⟨List.suffix_cons _ _, fun more k _ hk => ?_⟩
            cases k with
            | zero => cases hk
            | succ k => rfl
          · rw [items_cons hclose] at h
            obtain ⟨⟨v, mid⟩, u, hv, h⟩ := bind_eq_ok h
            obtain ⟨⟨vs', last⟩, u', hvs, h⟩ := bind_eq_ok h
            cases h
            obtain ⟨hleft, hmore⟩ := hE (t :: ts) hv
            obtain ⟨hsuffix, hlength⟩ := hleft mid rfl
            rw [List.length_cons] at hlength hn
            have hmid : mid.length ≤ n := by omega
            obtain ⟨hsuffix', hmore'⟩ := ih hmid hvs
            refine ⟨hsuffix'.trans hsuffix, fun more k hB hk => ?_⟩
            rw [List.length_append, List.length_cons] at hk
            obtain ⟨k, rfl⟩ : ∃ j, k = j + 1 := ⟨k - 1, by omega⟩
            rw [List.cons_append, items_cons hclose, ← List.cons_append,
              bind_of_ok (hmore more hB)]
            show (items E k (mid ++ more) >>= _) u = _
            have hk' : (mid ++ more).length ≤ k := by rw [List.length_append]; omega
            rw [bind_of_ok (hmore' more k hB hk')]
            rfl

/-- A condition in parentheses is read locally. -/
theorem local_grouped : Local 1 (grouped E) := by
  refine Local.bind (γ := Reading) (local_condition hE) fun v => ?_
  intro ts
  cases ts with
  | nil => intro w c w' h; cases h
  | cons t ts =>
      cases t with
      | closeParen => exact ((Local.give v ts).cons fun _ => rfl).weaken (by omega)
      | _ => intro w c w' h; cases h

omit hE in
/-- A closing parenthesis that is found stood next, and nothing else happens. -/
theorem closeParen_eq_ok {ts rest : List Token} {w w' : World}
    (h : closeParen ts w = .ok rest w') : ts = .closeParen :: rest ∧ w = w' := by
  cases ts with
  | nil => cases h
  | cons t ts =>
      cases t with
      | closeParen => cases h; exact ⟨rfl, rfl⟩
      | _ => cases h

omit hE in
/-- In parentheses a function of any number of inputs takes all items. -/
theorem parenthesised_variadic {name : Text} {f : Variadic} (hf : Variadic.ofName? name = some f)
    (ts : List Token) : parenthesised E (.word name :: ts) = (do
      let r ← items E ts.length ts
      let v ← applyVariadic f r.1
      let rest ← closeParen r.2
      pure (v, rest)) := by
  simp only [parenthesised, hf]

omit hE in
/-- Anything else in parentheses is a condition. -/
theorem parenthesised_grouped {t : Token}
    (ht : ∀ name, t = .word name → Variadic.ofName? name = none) (ts : List Token) :
    parenthesised E (t :: ts) = grouped E (t :: ts) := by
  cases t with
  | word name => simp only [parenthesised, ht name rfl]
  | _ => rfl

/-- The items of such a function are read locally. -/
theorem local_variadic {name : Text} {f : Variadic} (hf : Variadic.ofName? name = some f)
    (ts : List Token) : LocalAt 0 (parenthesised E) (.word name :: ts) := by
  intro w c w' h
  rw [parenthesised_variadic hf] at h
  obtain ⟨⟨vs, mid⟩, u, hvs, h⟩ := bind_eq_ok h
  obtain ⟨v, u', hv, h⟩ := bind_eq_ok h
  obtain ⟨rest, u'', hrest, h⟩ := bind_eq_ok h
  obtain ⟨rfl, rfl⟩ := closeParen_eq_ok hrest
  cases h
  obtain ⟨hsuffix, hmore⟩ := items_spec hE (Nat.le_refl _) hvs
  have hwhole := hsuffix.trans (List.suffix_cons (.word name) ts)
  refine ⟨fun last hlast => ?_, fun more hB => ?_⟩
  · cases hlast
    exact ⟨hwhole, hwhole.length_le⟩
  · rw [List.cons_append, parenthesised_variadic hf,
      bind_of_ok (hmore more _ hB (Nat.le_refl _))]
    show (applyVariadic f vs >>= _) u = _
    rw [bind_of_ok hv]
    rfl

/-- What follows an opening parenthesis is read locally. -/
theorem local_parenthesised : Local 0 (parenthesised E) := by
  intro ts
  cases ts with
  | nil =>
      -- nothing can be read from no tokens
      intro w c w' h
      have hlength := ((local_grouped hE [] h).1 c.2 rfl).2
      cases hlength
  | cons t ts =>
      have hgrouped := (local_grouped hE (t :: ts)).weaken (Nat.zero_le 1)
      cases t with
      | word name =>
          cases hf : Variadic.ofName? name with
          | some f => exact local_variadic hE hf ts
          | none =>
              refine hgrouped.congr fun more => parenthesised_grouped (fun n hn => ?_) _
              cases hn
              exact hf
      | _ => exact hgrouped.congr fun more => rfl

/-- The value of a word is read locally. -/
theorem local_wordValue (name : Text) : Local 0 (wordValue E name) := by
  show Local 0 fun ts => wordValue E name ts
  cases hf : Function.ofName? name with
  | some f =>
      simp only [wordValue, hf]
      exact (local_arguments hE f.arity).bind fun args => .act (apply f args) fun v => .give v
  | none =>
      cases hr : Reader.ofName? name with
      | some r =>
          simp only [wordValue, hf, hr]
          cases r with
          | readWord =>
              exact (looks_question .readWord).bind
                (k := fun prompt rest => do
                  let reply ← ask prompt
                  pure (Value.word reply, rest))
                fun prompt => .act (ask prompt) fun reply => .give (Value.word reply)
          | readList =>
              exact (looks_question .readList).bind
                (k := fun prompt rest => do
                  let reply ← ask prompt
                  let vs ← receiveAll (Value.ofReply reply)
                  pure (Value.list vs, rest))
                fun prompt => .act (ask prompt) fun reply =>
                  .act (receiveAll (Value.ofReply reply)) fun vs => .give (Value.list vs)
      | none =>
          simp only [wordValue, hf, hr]
          refine .act store fun s => ?_
          cases hp : s.procedure? name with
          | some p =>
              refine (local_arguments hE p.params.length).bind fun args =>
                .act (invoke E p args) fun o => ?_
              rcases o with _ | _ | v
              · exact .give Value.nothing
              · exact .give Value.nothing
              · exact .give v
          | none =>
              dsimp only
              split
              · exact .throw _
              · exact .act knownNames fun names => .throw _

/-- A single value is read locally. -/
theorem local_primary : Local 1 (primary E) := by
  intro ts
  cases ts with
  | nil => intro w c w' h; cases h
  | cons t ts =>
      cases t with
      | number n => exact (Local.give (Value.number n) ts).cons fun _ => rfl
      | quoted s => exact (Local.give (Value.word s) ts).cons fun _ => rfl
      | varref name =>
          have h : Local 0 fun ts => (do
              let s ← store
              let v ← attempt (s.get name)
              pure (v, ts) : SessionM Reading) :=
            .act store fun s => .act (attempt (s.get name)) fun v => .give v
          exact (h ts).cons fun _ => rfl
      | openBracket =>
          have h : Local 0 fun ts => (do
              let r ← attempt (Token.inside ts)
              let s ← store
              let vs ← attempt (Nested.values s.get (Nested.assemble r.1))
              pure (Value.list vs, r.2) : SessionM Reading) :=
            local_inside.bind fun inner => .act store fun s =>
              .act (attempt (Nested.values s.get (Nested.assemble inner))) fun vs =>
                .give (Value.list vs)
          exact (h ts).cons fun _ => rfl
      | openParen => exact (local_parenthesised hE ts).cons fun _ => rfl
      | word name => exact (local_wordValue hE name ts).cons fun _ => rfl
      | _ => intro w c w' h; cases h

/-- A value with minus signs before it is read locally. -/
theorem local_unary : Local 1 (unary E) := by
  intro ts
  induction ts with
  | nil => intro w c w' h; cases h
  | cons t ts ih =>
      by_cases ht : t = .operator .minus
      · subst ht
        have h := ih.bind (k := fun r => do
            let n ← number r.1 "-"
            let m ← result (.ok n.neg)
            pure (m, r.2))
          fun v => .act (number v "-") fun n => .act (result (.ok n.neg)) fun m => .give m
        exact (h.cons fun _ => rfl).weaken (by omega)
      · refine (local_primary hE (t :: ts)).congr fun more => ?_
        rw [List.cons_append, unary]
        intro tail heq
        cases heq
        exact ht rfl

/-- Whole expressions are local if the expressions inside them are. -/
theorem local_sum : Local 1 (sum E) :=
  local_operations (local_operations (local_unary hE))

end

/-- All expressions are local, whatever the limits. -/
theorem local_expression (patience depth : Nat) : Local 1 (expressionAt patience depth) := by
  induction depth using Nat.strongRecOn with
  | _ depth ih =>
      by_cases hdepth : depth < 7
      · intro ts w c w' h
        rw [expressionAt] at h
        · cases h
        · intro d hd; omega
      · obtain ⟨d, rfl⟩ : ∃ d, depth = d + 7 := ⟨depth - 7, by omega⟩
        intro ts
        have h := local_sum (E := ⟨_, blockAtDepth patience d⟩) (ih d (by omega)) ts
        exact h.congr fun more => by rw [expressionAt]

/-! ## Statements -/

/-- Going on with the tokens after a statement reads none of them. -/
theorem Local.continueWith (flow : Flow) :
    Local 0 (fun rest => Pure.pure (Session.continueWith flow rest) : _ → SessionM Flow) := by
  cases flow with
  | done _ => exact .done
  | signal s => exact .signal s

/-- The body of a definition and its end are read locally. -/
theorem local_definition (name : Text) (params : List Text) :
    Local 0 fun ts => (match splitEnd 0 ts with
      | none => throw (.missingEnd name)
      | some (body, rest) => do
          changeStore (·.define ⟨name, params, body⟩)
          pure (.done rest) : SessionM Flow) := by
  intro ts w c w' h
  cases hsplit : splitEnd 0 ts with
  | none =>
      simp only [hsplit] at h
      cases h
  | some r =>
      obtain ⟨body, rest⟩ := r
      obtain ⟨hsuffix, hmore⟩ := findsIn_splitEnd 0 ts hsplit
      simp only [hsplit] at h
      cases h
      refine ⟨fun last hlast => ?_, fun more _ => ?_⟩
      · cases hlast
        exact ⟨hsuffix, hsuffix.length_le⟩
      · simp only [hmore]
        rfl

/-- A whole definition is read locally. -/
theorem local_defineProcedure : Local 0 defineProcedure := by
  intro ts
  cases ts with
  | nil => intro w c w' h; cases h
  | cons t ts =>
      cases t with
      | word name =>
          have h := looks_takeParams.bind (local_definition name)
          by_cases hname : Vocabulary.isBuiltin name = true
          · intro w c w' hw
            simp only [defineProcedure, hname] at hw
            cases hw
          · refine ((h ts).cons fun ts => ?_).weaken (Nat.zero_le 1)
            exact if_neg hname
      | _ => intro w c w' h; cases h

section

variable {E : Engine} (hE : Local 1 E.expression) (patience : Nat)
include hE

/-- The form `REPEAT` is local: its count and its block end where they end. -/
theorem local_repeatForm : Local 1 (repeatForm E) :=
  hE.bind fun count => (local_blockAt .repeatBody).bind fun body =>
    .act (number count "REPEAT") fun n => .act (compute n.floor) fun times =>
      .act (counting (repeatPasses E body times.toNat 1)) fun ended =>
        match ended with
        | some s => .signal s
        | none => .done

/-- The form `IF` is local. -/
theorem local_ifForm : Local 1 (ifForm E) := by
  refine (local_condition hE).bind fun v => (local_blockAt .ifBody).bind fun body => ?_
  dsimp only
  split
  · exact .act (E.block body) fun flow => .continueWith flow
  · exact .done

/-- The form `IFELSE` is local. -/
theorem local_ifElseForm : Local 1 (ifElseForm E) :=
  (local_condition hE).bind fun v => (local_blockAt .ifelseBody).bind fun yes =>
    (local_blockAt .ifelseBody).bind fun no =>
      .act (E.block (if v.isTruthy then yes else no)) fun flow => .continueWith flow

/-- The form `ASK` is local. -/
theorem local_askForm : Local 1 (askForm E) :=
  hE.bind fun who => (local_blockAt .askBody).bind fun body =>
    .act (asking who (E.block body)) fun flow => .continueWith flow

omit hE in
/-- The form `FILLED` is local. -/
theorem local_filledForm : Local 0 (filledForm E) :=
  (local_blockAt .filledBody).bind fun body =>
    .act (filling (E.block body)) fun flow => .continueWith flow

omit hE in
/-- The form `WHILE` is local. -/
theorem local_whileForm : Local 0 (whileForm E patience) :=
  (local_blockAt .whileCondition).bind fun test => (local_blockAt .whileBody).bind fun body =>
    .act (whilePasses E test body patience) fun ended =>
        match ended with
        | some s => .signal s
        | none => .done

omit hE in
/-- The form `FOR` is local. -/
theorem local_forForm : Local 0 (forForm E patience) := by
  refine (local_blockAt .forControl).bind fun control => ?_
  cases hname : loopName? control with
  | none =>
      simp only [hname]
      exact .throw _
  | some name =>
      simp only [hname]
      exact (local_blockAt .forBody).bind fun body =>
        .act (E.expression control.tail) fun start => .act (E.expression start.2) fun finish =>
          .act (stepValue E finish.2) fun step =>
            .act (loopRange name start.1 finish.1 step) fun range =>
              .act (forLoop E patience range body) fun ended =>
        match ended with
        | some s => .signal s
        | none => .done

/-- Every form is local. -/
theorem local_runForm (form : Form) : Local 0 (runForm E patience form) := by
  match form with
  | .to => exact local_defineProcedure
  | .endTo => exact .throw _
  | .repeatTimes => exact (local_repeatForm hE).weaken (Nat.zero_le 1)
  | .ifThen => exact (local_ifForm hE).weaken (Nat.zero_le 1)
  | .ifElse => exact (local_ifElseForm hE).weaken (Nat.zero_le 1)
  | .forLoop => exact local_forForm patience
  | .whileLoop => exact local_whileForm patience
  | .stop => exact .signal _
  | .output =>
      have h : Local 1 (runForm E patience .output) := hE.bind fun v => .signal (.output v)
      exact h.weaken (Nat.zero_le 1)
  | .filled => exact local_filledForm
  | .ask => exact (local_askForm hE).weaken (Nat.zero_le 1)

/-- A statement that starts with a word is local. -/
theorem local_wordStatement (name : Text) : Local 0 (wordStatement E patience name) := by
  show Local 0 fun ts => wordStatement E patience name ts
  cases hform : Form.ofName? name with
  | some form =>
      simp only [wordStatement, hform]
      exact local_runForm hE patience form
  | none =>
      cases hc : Command.ofName? name with
      | some c =>
          simp only [wordStatement, hform, hc]
          exact (local_arguments hE c.arity).bind fun args =>
            .act (perform E.block c args) fun _ => .done
      | none =>
          simp only [wordStatement, hform, hc]
          refine .act store fun s => ?_
          cases hp : s.procedure? name with
          | some p =>
              exact (local_arguments hE p.params.length).bind fun args =>
                .act (invoke E p args) fun _ => .done
          | none =>
              dsimp only
              split
              · exact .throw _
              · exact .act knownNames fun names => .throw _

/-- A statement uses up a token and does not look past the one after it. -/
theorem local_statement (t : Token) (ts : List Token) :
    LocalAt 1 (statement E patience) (t :: ts) := by
  cases t with
  | word name => exact (local_wordStatement hE patience name ts).cons fun _ => rfl
  | _ => exact (Local.done ts).cons fun _ => rfl

end

/-! ## Blocks -/

/-- A block that is run after another that has come to an end. -/
def followedBy (next : SessionM Flow) : Flow → SessionM Flow
  | .signal s => pure (.signal s)
  | .done _ => next

section

variable {one : List Token → SessionM Flow}

/-- Without tokens a block is done. -/
theorem statements_nil (n : Nat) : statements one n [] = pure (.done []) := by
  cases n <;> rfl

/-- A block looks for a stop request, runs its first statement and goes on. -/
theorem statements_cons (n : Nat) (t : Token) (ts : List Token) :
    statements one (n + 1) (t :: ts) = (do
      if ← stopRequested then pure (.done (t :: ts))
      else
        match ← one (t :: ts) with
        | .signal s => pure (.signal s)
        | .done rest => do
            onPacer Pacer.checkpoint
            statements one n rest) := rfl

variable (hone : ∀ t ts, LocalAt 1 one (t :: ts))
include hone

/-- What the first statement of a block can come to: someone has asked to stop,
    it fails, it signals, or it is done and the block goes on after it. -/
theorem statements_cases (t : Token) (ts : List Token) (w : World) :
    (∃ u, ∀ n more, statements one (n + 1) (t :: ts ++ more) w = .ok (.done (t :: ts ++ more)) u)
      ∨ (∃ f u, ∀ n, statements one (n + 1) (t :: ts) w = .error f u)
      ∨ (∃ s u, ∀ n more, Boundary more →
          statements one (n + 1) (t :: ts ++ more) w = .ok (.signal s) u)
      ∨ ∃ rest u, rest.length ≤ ts.length ∧ ∀ n more, Boundary more →
          statements one (n + 1) (t :: ts ++ more) w = statements one n (rest ++ more) u := by
  cases hstop : stopRequested w with
  | error f u =>
      refine .inr (.inl ⟨f, u, fun n => ?_⟩)
      rw [statements_cons, bind_of_error hstop]
  | ok b u =>
      cases b with
      | true =>
          refine .inl ⟨u, fun n more => ?_⟩
          rw [List.cons_append, statements_cons, bind_of_ok hstop]
          rfl
      | false =>
          cases h : one (t :: ts) u with
          | error f v =>
              refine .inr (.inl ⟨f, v, fun n => ?_⟩)
              rw [statements_cons, bind_of_ok hstop]
              show (one (t :: ts) >>= _) u = _
              rw [bind_of_error h]
          | ok flow v =>
              obtain ⟨hleft, hmore⟩ := hone t ts h
              -- before every boundary the statement comes to the same, and leaves as much
              have hgo : ∀ n more, Boundary more → statements one (n + 1) (t :: ts ++ more) w =
                  (match Unread.extend flow more with
                    | .signal s => pure (.signal s)
                    | .done rest => do
                        onPacer Pacer.checkpoint
                        statements one n rest : SessionM Flow) v := by
                intro n more hB
                rw [List.cons_append, statements_cons, bind_of_ok hstop]
                show (one (t :: ts ++ more) >>= _) u = _
                rw [bind_of_ok (hmore more hB)]
              cases flow with
              | signal s => exact .inr (.inr (.inl ⟨s, v, hgo⟩))
              | done rest =>
                  obtain ⟨-, hlength⟩ := hleft rest rfl
                  cases hcheck : onPacer Pacer.checkpoint v with
                  | error f x =>
                      refine .inr (.inl ⟨f, x, fun n => ?_⟩)
                      have hself := hgo n [] trivial
                      rw [List.append_nil] at hself
                      rw [hself]
                      exact bind_of_error hcheck
                  | ok _ x =>
                      refine .inr (.inr (.inr ⟨rest, x, Nat.le_of_succ_le_succ hlength, ?_⟩))
                      intro n more hB
                      rw [hgo n more hB]
                      exact bind_of_ok hcheck

/-- A block of no more statements than there are tokens is not cut short. -/
theorem statements_fuel {n k : Nat} {ts : List Token} (hn : ts.length ≤ n) (hk : ts.length ≤ k) :
    statements one n ts = statements one k ts := by
  funext w
  induction n generalizing k ts w with
  | zero =>
      have hnil : ts = [] := List.eq_nil_of_length_eq_zero (by omega)
      rw [hnil, statements_nil, statements_nil]
  | succ n ih =>
      cases ts with
      | nil => rw [statements_nil, statements_nil]
      | cons t ts =>
          rw [List.length_cons] at hn hk
          obtain ⟨k, rfl⟩ : ∃ j, k = j + 1 := ⟨k - 1, by omega⟩
          -- a statement takes a token at least, so what is left needs less of both
          rw [← List.append_nil (t :: ts)]
          obtain ⟨u, h⟩ | ⟨f, u, h⟩ | ⟨s, u, h⟩ | ⟨rest, u, hrest, h⟩ :=
            statements_cases hone t ts w
          · rw [h, h]
          · rw [List.append_nil, h, h]
          · rw [h n [] trivial, h k [] trivial]
          · rw [h n [] trivial, h k [] trivial, List.append_nil]
            exact ih (by omega) (by omega) u

/-- What is left of a block is no more than the block. -/
theorem statements_left {n : Nat} {ts rest : List Token} {w u : World}
    (h : statements one n ts w = .ok (.done rest) u) : rest.length ≤ ts.length := by
  induction n generalizing ts w with
  | zero => cases h; exact Nat.le_refl _
  | succ n ih =>
      cases ts with
      | nil => cases h; exact Nat.le_refl _
      | cons t ts =>
          rw [← List.append_nil (t :: ts)] at h
          obtain ⟨v, hv⟩ | ⟨f, v, hv⟩ | ⟨s, v, hv⟩ | ⟨mid, v, hmid, hv⟩ :=
            statements_cases hone t ts w
          · rw [hv] at h
            cases h
            exact Nat.le_of_eq (by rw [List.append_nil])
          · rw [List.append_nil, hv] at h
            cases h
          · rw [hv n [] trivial] at h
            cases h
          · rw [hv n [] trivial, List.append_nil] at h
            have hle := ih h
            rw [List.length_cons]
            omega

/-- A block that has run to its end or to a signal, with more tokens after it. -/
theorem statements_append {n k : Nat} {ts more : List Token} {flow : Flow} {w u : World}
    (hB : Boundary more) (hn : ts.length ≤ n) (hk : (ts ++ more).length ≤ k)
    (h : statements one n ts w = .ok flow u) (hflow : ∀ t rest, flow ≠ .done (t :: rest)) :
    statements one k (ts ++ more) w
      = followedBy (statements one more.length more) flow u := by
  induction n generalizing k ts w with
  | zero =>
      have hnil : ts = [] := List.eq_nil_of_length_eq_zero (by omega)
      subst hnil
      cases h
      rw [statements_fuel hone hk (Nat.le_refl _)]
      rfl
  | succ n ih =>
      cases ts with
      | nil =>
          cases h
          rw [statements_fuel hone hk (Nat.le_refl _)]
          rfl
      | cons t ts =>
          rw [List.length_append, List.length_cons] at hk
          rw [List.length_cons] at hn
          obtain ⟨k, rfl⟩ : ∃ j, k = j + 1 := ⟨k - 1, by omega⟩
          rw [← List.append_nil (t :: ts)] at h
          obtain ⟨v, hv⟩ | ⟨f, v, hv⟩ | ⟨s, v, hv⟩ | ⟨rest, v, hrest, hv⟩ :=
            statements_cases hone t ts w
          · rw [hv] at h
            cases h
            exact absurd rfl (hflow t (ts ++ []))
          · rw [List.append_nil, hv] at h
            cases h
          · rw [hv n [] trivial] at h
            cases h
            exact hv k more hB
          · rw [hv n [] trivial, List.append_nil] at h
            rw [hv k more hB]
            have hk' : (rest ++ more).length ≤ k := by rw [List.length_append]; omega
            exact ih (by omega) hk' h

end

/-- With enough depth a block runs its statements with the engine one level down. -/
theorem blockAtDepth_eq (patience depth : Nat) (ts : List Token) :
    blockAtDepth patience (depth + 3) ts =
      statements (statement ⟨expressionAt patience depth, blockAtDepth patience depth⟩ patience)
        ts.length ts := by
  rw [blockAtDepth]

/-- Whether one block is done, and another then ends with a signal. -/
def goesOnToSignal (first next : List Token) (w : World) : Bool :=
  match blockAtDepth 5 40 first w with
  | .ok (.done []) u =>
      match blockAtDepth 5 40 next u with
      | .ok (.signal _) _ => true
      | _ => false
  | _ => false

/-- What the test says: one block is done, and the other then ends with a signal. -/
theorem of_goesOnToSignal {first next : List Token} {w : World}
    (h : goesOnToSignal first next w = true) :
    ∃ u s v, blockAtDepth 5 40 first w = .ok (.done []) u
      ∧ blockAtDepth 5 40 next u = .ok (.signal s) v := by
  rw [goesOnToSignal] at h
  split at h
  · rename_i u hfirst
    split at h
    · rename_i s v hnext
      exact ⟨u, s, v, hfirst, hnext⟩
    · cases h
  · cases h

/-- Blocks compose at a boundary.  Where the first part runs to its end, whether
    or not someone has asked to stop by then, the whole does what the second part
    does from there on, and counts on from the tokens of the first; where the
    first part ends with a signal, so does the whole. -/
theorem block_append (patience depth : Nat) (first second : List Token) (hB : Boundary second)
    (w u : World) :
    (blockAtDepth patience depth first w = .ok (.done []) u →
      blockAtDepth patience depth (first ++ second) w = blockAtDepth patience depth second u
        ∧ ∀ flow v, blockAtDepth patience depth second u = .ok flow v →
            flow.index (first ++ second) = (flow.index second).map (first.length + ·))
      ∧ ∀ s, blockAtDepth patience depth first w = .ok (.signal s) u →
          blockAtDepth patience depth (first ++ second) w = .ok (.signal s) u := by
  by_cases hdepth : depth < 3
  · refine ⟨fun h => ?_, fun s h => ?_⟩
    all_goals
      rw [blockAtDepth_shallow hdepth] at h
      cases h
  · obtain ⟨d, rfl⟩ : ∃ d, depth = d + 3 := ⟨depth - 3, by omega⟩
    have hone := local_statement (E := ⟨_, blockAtDepth patience d⟩) (local_expression patience d)
      patience
    simp only [blockAtDepth_eq]
    refine ⟨fun h => ⟨?_, fun flow v hflow => ?_⟩, fun s h => ?_⟩
    · exact statements_append hone hB (Nat.le_refl _) (Nat.le_refl _) h fun _ _ heq => by cases heq
    · cases flow with
      | signal s => rfl
      | done rest =>
          have hrest := statements_left hone hflow
          simp only [Flow.index, Option.map_some, List.length_append]
          congr 1
          omega
    · exact statements_append hone hB (Nat.le_refl _) (Nat.le_refl _) h fun _ _ heq => by cases heq

/-- An assignment and an output in one block, cut between the two. -/
theorem block_append_make : ∃ w u, quietSession = .ok w
    ∧ blockAtDepth 5 40 [.word "MAKE", .quoted "X", .number (.int 3)] w = .ok (.done []) u
    ∧ blockAtDepth 5 40 [.word "MAKE", .quoted "X", .number (.int 3), .word "OUTPUT", .varref "X"] w
        = blockAtDepth 5 40 [.word "OUTPUT", .varref "X"] u
    ∧ ∃ s v, blockAtDepth 5 40 [.word "OUTPUT", .varref "X"] u = .ok (.signal s) v
        ∧ blockAtDepth 5 40 [.word "OUTPUT", .varref "X", .word "PRINT"] u = .ok (.signal s) v := by
  obtain ⟨w, hnew, htried⟩ := quietSession_of (P := goesOnToSignal
    [.word "MAKE", .quoted "X", .number (.int 3)] [.word "OUTPUT", .varref "X"]) (by decide +kernel)
  obtain ⟨u, s, v, hmake, houtput⟩ := of_goesOnToSignal htried
  exact ⟨w, u, hnew, hmake,
    ((block_append 5 40 _ [.word "OUTPUT", .varref "X"] trivial w u).1 hmake).1,
    s, v, houtput, (block_append 5 40 _ [.word "PRINT"] trivial u v).2 s houtput⟩

end Session

end TurtleLogo
