import Mathlib.Data.List.Forall2
import TurtleLogo.Proofs.Literal
import TurtleLogo.Proofs.Unlimited

/-! # Programs in two spellings

    Tokens that are alike are the same, or they are names of variables in two
    spellings of one name; so are the bodies of procedures in two stores that
    are alike (`Store.Like`).  What a program reads off its tokens and its
    store before anything happens is then the same on both sides, or fails
    with the same fault (`Matched`): the value of a variable, the procedure of
    a name, the parts of a block, the values in a list literal.

    The lengths are kept as well, and no fault is one of the limits of a run
    (`Fault.ofLimits`), so that statements about the depth of a run can be read
    off the same facts. -/

namespace TurtleLogo

/-- Two computations without a state that give related values, or the same
    fault, which is not one of the limits. -/
inductive Matched {α β : Type} (Q : α → β → Prop) : Except Fault α → Except Fault β → Prop where
  | ok {a : α} {b : β} (h : Q a b) : Matched Q (.ok a) (.ok b)
  | error {f : Fault} (h : f.ofLimits = false) : Matched Q (.error f) (.error f)

namespace Matched

variable {α β γ δ : Type} {Q : α → β → Prop} {S : γ → δ → Prop}

/-- Computations that match go on matching if what follows them does. -/
theorem bind {r : Except Fault α} {s : Except Fault β} {k : α → Except Fault γ}
    {l : β → Except Fault δ} (h : Matched Q r s) (hk : ∀ a b, Q a b → Matched S (k a) (l b)) :
    Matched S (r >>= k) (s >>= l) := by
  cases h with
  | ok hq => exact hk _ _ hq
  | error hf => exact .error hf

theorem mono {r : Except Fault α} {s : Except Fault β} {Q' : α → β → Prop} (h : Matched Q r s)
    (hQ : ∀ a b, Q a b → Q' a b) : Matched Q' r s := by
  cases h with
  | ok hq => exact .ok (hQ _ _ hq)
  | error hf => exact .error hf

/-- Arithmetic meets no limits of the run. -/
theorem arithmetic (r : Except ArithmeticFault α) :
    Matched Eq (liftArithmetic r) (liftArithmetic r) := by
  cases r with
  | ok a => exact .ok rfl
  | error f => exact .error rfl

end Matched

/-- A refusal of a value as a number matches itself. -/
theorem Value.matched_refuseNumber (v : Value) (who : Text) :
    Matched Eq (v.refuseNumber who) (v.refuseNumber who) :=
  .bind (.arithmetic _) fun _ _ h => by cases h; exact .error rfl

/-- Reading a value as a number matches itself. -/
theorem Value.matched_asNumber (v : Value) (who : Text) :
    Matched Eq (v.asNumber who) (v.asNumber who) := by
  simp only [asNumber]
  split
  · exact .ok rfl
  · split
    · exact .ok rfl
    · exact matched_refuseNumber _ _
  · exact matched_refuseNumber _ _

/-- The order of two values matches itself. -/
theorem Value.matched_order (a b : Value) : Matched Eq (a.order b) (a.order b) := by
  simp only [order]
  split
  · exact .ok rfl
  · exact .ok rfl
  · refine .bind (.arithmetic _) fun s s' hs => .bind (.arithmetic _) fun t t' ht => ?_
    cases hs
    cases ht
    exact .error rfl

/-- A comparison of two values matches itself. -/
theorem Value.matched_compare (c : Comparison) (a b : Value) :
    Matched Eq (Value.compare c a b) (Value.compare c a b) := by
  cases c with
  | eq | ne => exact .ok rfl
  | lt | gt | le | ge => exact .bind (matched_order a b) fun _ _ h => by cases h; exact .ok rfl

/-! ## Tokens and stores -/

/-- Tokens that are the same, or names of variables in two spellings of one
    name. -/
inductive Token.Like (spelled : Text → Text → Prop) : Token → Token → Prop where
  | same (t : Token) : Like spelled t t
  | varref {a b : Text} (h : spelled a b) : Like spelled (.varref a) (.varref b)

/-- Lists of tokens that differ at most in the spelling of names. -/
abbrev TokensLike (spelled : Text → Text → Prop) : List Token → List Token → Prop :=
  List.Forall₂ (Token.Like spelled)

/-- Procedures that differ at most in the spelling of the names in their
    bodies. -/
structure Procedure.Like (spelled : Text → Text → Prop) (p q : Procedure) : Prop where
  name : p.name = q.name
  params : p.params = q.params
  body : TokensLike spelled p.body q.body

/-- Stores that differ at most in the spelling of the names in the bodies of
    procedures. -/
structure Store.Like (spelled : Text → Text → Prop) (s t : Store) : Prop where
  procedures : List.Forall₂ (Procedure.Like spelled) s.procedures t.procedures
  globals : s.globals = t.globals
  locals : s.locals = t.locals
  repcount : s.repcount = t.repcount

section

variable {spelled : Text → Text → Prop}

theorem TokensLike.refl (ts : List Token) : TokensLike spelled ts ts :=
  List.forall₂_same.2 fun t _ => .same t

theorem Procedure.Like.refl (p : Procedure) : p.Like spelled p := ⟨rfl, rfl, .refl _⟩

theorem Store.Like.refl (s : Store) : s.Like spelled s :=
  ⟨List.forall₂_same.2 fun p _ => .refl p, rfl, rfl, rfl⟩

/-- What goes wrong with the text of a program has nothing to do with limits. -/
theorem Token.unlimited_tokenize {code : Text} {f : Fault} (h : tokenize code = .error f) :
    f.ofLimits = false := by
  obtain ⟨neg, ds, hf, -⟩ := tokenize_error h
  rw [hf]
  rfl

/-- A text has the same tokens as itself. -/
theorem Token.matched_tokenize (spelled : Text → Text → Prop) (code : Text) :
    Matched (TokensLike spelled) (tokenize code) (tokenize code) := by
  cases h : tokenize code with
  | ok ts => exact .ok (.refl ts)
  | error f => exact .error (unlimited_tokenize h)

/-! In one spelling, what is alike is the same. -/

/-- Tokens that differ in no spelling are the same. -/
theorem TokensLike.eq {ts us : List Token} (h : TokensLike Eq ts us) : ts = us := by
  have heq : List.Forall₂ Eq ts us := h.imp fun t u htu => by
    cases htu with
    | same => rfl
    | varref hname => rw [hname]
  exact List.forall₂_eq_eq_eq ▸ heq

/-- Procedures that differ in no spelling are the same. -/
theorem Procedure.Like.eq {p q : Procedure} (h : p.Like Eq q) : p = q := by
  obtain ⟨name, params, body⟩ := p
  obtain ⟨name', params', body'⟩ := q
  obtain ⟨rfl, rfl, hlike⟩ := h
  have hbody : body = body' := TokensLike.eq hlike
  rw [hbody]

/-- Stores that differ in no spelling are the same. -/
theorem Store.Like.eq {s t : Store} (h : s.Like Eq t) : s = t := by
  obtain ⟨procedures, globals, locals, repcount⟩ := s
  obtain ⟨procedures', globals', locals', repcount'⟩ := t
  obtain ⟨hlike, rfl, rfl, rfl⟩ := h
  have heq : List.Forall₂ Eq procedures procedures' := hlike.imp fun _ _ => Procedure.Like.eq
  have hprocedures : procedures = procedures' := List.forall₂_eq_eq_eq ▸ heq
  rw [hprocedures]

/-- A variable has one value in both stores, however its name is spelled. -/
theorem Store.Like.matched_get {s t : Store} (h : s.Like spelled t) {a b : Text}
    (hname : Text.upper a = Text.upper b) : Matched Eq (s.get a) (t.get b) := by
  rw [get, get, hname, h.globals, h.locals]
  split
  · exact .ok rfl
  · exact .error rfl

/-- A procedure is found in both tables or in none. -/
theorem find?_procedure {ps qs : List Procedure}
    (h : List.Forall₂ (Procedure.Like spelled) ps qs) (key : Text) :
    (ps.find? (·.name == key) = none ∧ qs.find? (·.name == key) = none)
      ∨ ∃ p q, ps.find? (·.name == key) = some p ∧ qs.find? (·.name == key) = some q
        ∧ p.Like spelled q ∧ q ∈ qs := by
  induction h with
  | nil => exact Or.inl ⟨rfl, rfl⟩
  | @cons p q ps qs hpq _ ih =>
      simp only [List.find?_cons, hpq.name]
      cases q.name == key with
      | true => exact Or.inr ⟨p, q, rfl, rfl, hpq, List.mem_cons_self ..⟩
      | false =>
          rcases ih with hnone | ⟨p', q', hp', hq', hlike, hmem⟩
          · exact Or.inl hnone
          · exact Or.inr ⟨p', q', hp', hq', hlike, List.mem_cons_of_mem _ hmem⟩

/-- A name has a procedure in both stores, and these are alike, or in neither. -/
theorem Store.Like.procedure? {s t : Store} (h : s.Like spelled t) (name : Text) :
    (s.procedure? name = none ∧ t.procedure? name = none)
      ∨ ∃ p q, s.procedure? name = some p ∧ t.procedure? name = some q
        ∧ p.Like spelled q ∧ q ∈ t.procedures :=
  find?_procedure h.procedures (Text.upper name)

/-- Stores that are alike define the same names. -/
theorem Store.Like.names {s t : Store} (h : s.Like spelled t) :
    s.procedures.map (·.name) = t.procedures.map (·.name) := by
  have hp := h.procedures
  generalize s.procedures = ps at hp
  generalize t.procedures = qs at hp
  induction hp with
  | nil => rfl
  | cons hpq _ ih => rw [List.map_cons, List.map_cons, hpq.name, ih]

/-! ## Changes of the names

    Stores that are alike stay so under every change of the names. -/

namespace Store.Like

variable {s t : Store} (h : s.Like spelled t)
include h

/-- Giving a name a value leaves stores alike. -/
theorem set (name : Text) (v : Value) : (s.set name v).Like spelled (t.set name v) := by
  rw [Store.set, Store.set, h.globals, h.locals]
  cases assignNearest? (Text.upper name) v t.locals with
  | some frames => exact ⟨h.procedures, rfl, rfl, h.repcount⟩
  | none => exact ⟨h.procedures, rfl, rfl, h.repcount⟩

/-- Giving a name a value in the innermost frame leaves stores alike. -/
theorem setLocal (name : Text) (v : Value) :
    (s.setLocal name v).Like spelled (t.setLocal name v) := by
  rw [Store.setLocal, Store.setLocal, h.globals, h.locals]
  cases t.locals with
  | nil => exact ⟨h.procedures, rfl, rfl, h.repcount⟩
  | cons f fs => exact ⟨h.procedures, rfl, rfl, h.repcount⟩

/-- Binding a name in the innermost frame leaves stores alike. -/
theorem bindInnermost (key : Text) (v : Value) :
    (s.bindInnermost key v).Like spelled (t.bindInnermost key v) := by
  rw [Store.bindInnermost, Store.bindInnermost, h.locals]
  cases t.locals with
  | nil => exact h
  | cons f fs => exact ⟨h.procedures, h.globals, rfl, h.repcount⟩

theorem push (f : Frame) : (s.push f).Like spelled (t.push f) :=
  { h with locals := congrArg (f :: ·) h.locals }

theorem pop : s.pop.Like spelled t.pop :=
  { h with locals := congrArg List.tail h.locals }

/-- The count of a loop leaves stores alike. -/
theorem count (n : Option Nat) :
    Store.Like spelled { s with repcount := n } { t with repcount := n } :=
  { h with repcount := rfl }

/-- Defining procedures that are alike leaves stores alike. -/
theorem define {p q : Procedure} (hpq : p.Like spelled q) :
    (s.define p).Like spelled (t.define q) := by
  refine { h with procedures := ?_ }
  have hps := h.procedures
  show List.Forall₂ _ (defineIn s.procedures p) (defineIn t.procedures q)
  generalize s.procedures = ps at hps
  generalize t.procedures = qs at hps
  induction hps with
  | nil => exact .cons hpq .nil
  | @cons p' q' ps qs hhead htail ih =>
      rw [defineIn, defineIn, hhead.name, hpq.name]
      split
      · exact .cons hpq htail
      · exact .cons hhead ih

end Store.Like

/-! Assignments leave the procedures alone. -/

namespace Store

/-- A new value of a name defines no procedure. -/
theorem procedures_set (s : Store) (name : Text) (v : Value) :
    (s.set name v).procedures = s.procedures := by
  rw [set]
  split <;> rfl

/-- A value in the innermost frame defines no procedure. -/
theorem procedures_setLocal (s : Store) (name : Text) (v : Value) :
    (s.setLocal name v).procedures = s.procedures := by
  rw [setLocal]
  split <;> rfl

/-- A binding in the innermost frame defines no procedure. -/
theorem procedures_bindInnermost (s : Store) (key : Text) (v : Value) :
    (s.bindInnermost key v).procedures = s.procedures := by
  rw [bindInnermost]
  split <;> rfl

end Store

/-- A procedure that is defined is the new one or was there before. -/
theorem mem_define {s : Store} {p q : Procedure} (h : q ∈ (s.define p).procedures) :
    q = p ∨ q ∈ s.procedures := by
  have hmem : q ∈ Store.defineIn s.procedures p := h
  generalize s.procedures = ps at hmem
  induction ps with
  | nil => exact Or.inl (List.mem_singleton.1 hmem)
  | cons p' ps ih =>
      rw [Store.defineIn] at hmem
      split at hmem
      · rcases List.mem_cons.1 hmem with rfl | hq
        · exact Or.inl rfl
        · exact Or.inr (List.mem_cons_of_mem _ hq)
      · rcases List.mem_cons.1 hmem with rfl | hq
        · exact Or.inr (List.mem_cons_self ..)
        · exact (ih hq).imp_right (List.mem_cons_of_mem _)

/-! ## Brackets -/

/-- The two parts at a closing bracket. -/
structure SplitLike (spelled : Text → Text → Prop) (n : Nat)
    (r s : List Token × List Token) : Prop where
  inner : TokensLike spelled r.1 s.1
  rest : TokensLike spelled r.2 s.2
  length : s.1.length + s.2.length < n

/-- Parts are alike behind a further token on both sides. -/
theorem SplitLike.cons {n : Nat} {r s : List Token × List Token} {t u : Token}
    (htu : t.Like spelled u) (h : SplitLike spelled n r s) :
    SplitLike spelled (n + 1) (t :: r.1, r.2) (u :: s.1, s.2) := by
  refine ⟨.cons htu h.inner, h.rest, ?_⟩
  have := h.length
  show s.1.length + 1 + s.2.length < n + 1
  omega

/-- Putting a token in front of what is split. -/
theorem splitLike_map {n : Nat} {t u : Token} (htu : t.Like spelled u)
    {r s : Option (List Token × List Token)}
    (h : (r = none ∧ s = none) ∨ ∃ a b, r = some a ∧ s = some b ∧ SplitLike spelled n a b) :
    (r.map (fun r => (t :: r.1, r.2)) = none ∧ s.map (fun s => (u :: s.1, s.2)) = none)
      ∨ ∃ a b, r.map (fun r => (t :: r.1, r.2)) = some a
        ∧ s.map (fun s => (u :: s.1, s.2)) = some b ∧ SplitLike spelled (n + 1) a b := by
  rcases h with ⟨rfl, rfl⟩ | ⟨a, b, rfl, rfl, hab⟩
  · exact Or.inl ⟨rfl, rfl⟩
  · exact Or.inr ⟨_, _, rfl, rfl, hab.cons htu⟩

/-- A closing bracket is found at the same place on both sides, or on neither. -/
theorem Token.splitClose_like {ts us : List Token} (h : TokensLike spelled ts us) (depth : Nat) :
    (splitClose depth ts = none ∧ splitClose depth us = none)
      ∨ ∃ r s, splitClose depth ts = some r ∧ splitClose depth us = some s
        ∧ SplitLike spelled us.length r s := by
  induction h generalizing depth with
  | nil => exact Or.inl ⟨by cases depth <;> rfl, by cases depth <;> rfl⟩
  | @cons t u ts us htu htail ih =>
      cases htu with
      | varref hname =>
          have hsplit : ∀ (a : Text) (l : List Token), splitClose depth (.varref a :: l)
              = (splitClose depth l).map fun r => (.varref a :: r.1, r.2) := by
            intro a l
            cases depth <;> rfl
          rw [hsplit, hsplit]
          exact splitLike_map (.varref hname) (ih depth)
      | same =>
          cases t with
          | closeBracket =>
              cases depth with
              | zero =>
                  refine Or.inr ⟨([], ts), ([], us), rfl, rfl, .nil, htail, ?_⟩
                  simp
              | succ depth => exact splitLike_map (.same _) (ih depth)
          | openBracket =>
              have hsplit : ∀ l : List Token, splitClose depth (.openBracket :: l)
                  = (splitClose (depth + 1) l).map fun r => (.openBracket :: r.1, r.2) := by
                intro l
                cases depth <;> rfl
              rw [hsplit, hsplit]
              exact splitLike_map (.same _) (ih (depth + 1))
          | _ => cases depth <;> exact splitLike_map (.same _) (ih _)

/-- What is inside a bracket is alike on both sides. -/
theorem Token.matched_inside {ts us : List Token} (h : TokensLike spelled ts us) :
    Matched (SplitLike spelled us.length) (inside ts) (inside us) := by
  rw [inside, inside]
  rcases splitClose_like h 0 with ⟨hts, hus⟩ | ⟨r, s, hts, hus, hrs⟩
  · rw [hts, hus]
    exact .error rfl
  · rw [hts, hus]
    exact .ok hrs

/-- A block is alike on both sides. -/
theorem Token.matched_block (place : BlockPlace) {ts us : List Token}
    (h : TokensLike spelled ts us) :
    Matched (SplitLike spelled us.length) (block place ts) (block place us) := by
  cases h with
  | nil => exact .error rfl
  | @cons t u ts us htu htail =>
      cases htu with
      | varref hname => exact .error rfl
      | same =>
          cases t with
          | openBracket =>
              exact (matched_inside htail).mono fun _ _ h =>
                ⟨h.inner, h.rest, Nat.lt_succ_of_lt h.length⟩
          | _ => exact .error rfl

/-! ## Definitions -/

/-- The parameters of a procedure are kept in capitals. -/
theorem takeParams_like (hupper : ∀ a b, spelled a b → Text.upper a = Text.upper b)
    {ts us : List Token} (h : TokensLike spelled ts us) :
    (Session.takeParams ts).1 = (Session.takeParams us).1
      ∧ TokensLike spelled (Session.takeParams ts).2 (Session.takeParams us).2
      ∧ (Session.takeParams us).2.length ≤ us.length := by
  induction h with
  | nil => exact ⟨rfl, .nil, Nat.le_refl _⟩
  | @cons t u ts us htu htail ih =>
      obtain ⟨hparams, hrest, hlength⟩ := ih
      cases htu with
      | varref hname =>
          rw [Session.takeParams, Session.takeParams]
          refine ⟨?_, hrest, Nat.le_succ_of_le hlength⟩
          show _ :: _ = _ :: _
          rw [hupper _ _ hname, hparams]
      | same =>
          cases t with
          | varref name =>
              rw [Session.takeParams, Session.takeParams]
              refine ⟨?_, hrest, Nat.le_succ_of_le hlength⟩
              show _ :: _ = _ :: _
              rw [hparams]
          | _ => exact ⟨rfl, .cons (.same _) htail, Nat.le_refl _⟩

/-- What is asked of a procedure before it is defined: its name is not built in,
    and its parameters are in capitals. -/
structure Procedure.Definable (p : Procedure) : Prop where
  free : Vocabulary.isBuiltin p.name = false
  capital : ∀ key ∈ p.params, ∃ name, key = Text.upper name

/-- The parameters of a definition are in capitals. -/
theorem capital_takeParams (ts : List Token) :
    ∀ key ∈ (Session.takeParams ts).1, ∃ name, key = Text.upper name := by
  induction ts with
  | nil => simp [Session.takeParams]
  | cons t ts ih =>
      cases t with
      | varref name =>
          rw [Session.takeParams]
          intro key hkey
          rcases List.mem_cons.1 hkey with rfl | hkey
          · exact ⟨name, rfl⟩
          · exact ih key hkey
      | _ => simp [Session.takeParams]

/-- The body of a procedure and what follows it. -/
theorem splitEnd_like {ts us : List Token} (h : TokensLike spelled ts us) (depth : Nat) :
    (Session.splitEnd depth ts = none ∧ Session.splitEnd depth us = none)
      ∨ ∃ r s, Session.splitEnd depth ts = some r ∧ Session.splitEnd depth us = some s
        ∧ SplitLike spelled us.length r s := by
  induction h generalizing depth with
  | nil => exact Or.inl ⟨by cases depth <;> rfl, by cases depth <;> rfl⟩
  | @cons t u ts us htu htail ih =>
      cases htu with
      | varref hname =>
          simp only [Session.splitEnd]
          exact splitLike_map (.varref hname) (ih depth)
      | same =>
          cases t with
          | word name =>
              simp only [Session.splitEnd]
              split
              · exact splitLike_map (.same _) (ih (depth + 1))
              · split
                · cases depth with
                  | zero => exact Or.inr ⟨([], ts), ([], us), rfl, rfl, .nil, htail, by simp⟩
                  | succ depth => exact splitLike_map (.same _) (ih depth)
                · exact splitLike_map (.same _) (ih depth)
          | _ =>
              simp only [Session.splitEnd]
              exact splitLike_map (.same _) (ih depth)

/-! ## List literals -/

namespace Nested

/-- Items of two list literals that have one value, or fail alike. -/
def SameValue (g h : Text → Except Fault Value) (n m : Nested) : Prop :=
  Matched Eq (n.value g) (m.value h)

variable {g h : Text → Except Fault Value}

/-- Items that match have values that match. -/
theorem matched_values {ns ms : List Nested} (hitems : List.Forall₂ (SameValue g h) ns ms) :
    Matched Eq (values g ns) (values h ms) := by
  induction hitems with
  | nil =>
      rw [values, values]
      exact .ok rfl
  | cons hnm _ ih =>
      rw [values, values]
      refine .bind hnm fun v w hv => .bind ih fun vs ws hvs => ?_
      rw [hv, hvs]
      exact .ok rfl

/-- Groups of items with one value have one value. -/
theorem sameValue_group {ns ms : List Nested} (hitems : List.Forall₂ (SameValue g h) ns ms) :
    SameValue g h (.group ns) (.group ms) := by
  rw [SameValue, value, value]
  exact .bind (matched_values hitems) fun _ _ hvs => by rw [hvs]; exact .ok rfl

/-- Leaves that are alike have one value. -/
theorem sameValue_leaf (hget : ∀ a b, spelled a b → Matched Eq (g a) (h b))
    (hsame : ∀ a, Matched Eq (g a) (h a)) {t u : Token} (htu : t.Like spelled u) :
    SameValue g h (.leaf t) (.leaf u) := by
  cases htu with
  | varref hname =>
      rw [SameValue, value, value]
      exact hget _ _ hname
  | same =>
      cases t with
      | varref name =>
          rw [SameValue, value, value]
          exact hsame name
      | _ =>
          simp only [SameValue, value]
          exact .ok rfl

/-- Brackets that are left open are closed alike on both sides. -/
theorem sameValue_closeAll {ss zs : List (List Nested)}
    (hstack : List.Forall₂ (List.Forall₂ (SameValue g h)) ss zs) {ns ms : List Nested}
    (hitems : List.Forall₂ (SameValue g h) ns ms) :
    List.Forall₂ (SameValue g h) (closeAll ss ns) (closeAll zs ms) := by
  induction hstack generalizing ns ms with
  | nil => exact List.rel_reverse hitems
  | cons houter _ ih => exact ih (.cons (sameValue_group (List.rel_reverse hitems)) houter)

/-- Tokens that are alike make list literals of one value. -/
theorem sameValue_assembleFrom (hget : ∀ a b, spelled a b → Matched Eq (g a) (h b))
    (hsame : ∀ a, Matched Eq (g a) (h a)) {ts us : List Token} (htokens : TokensLike spelled ts us)
    {ss zs : List (List Nested)} (hstack : List.Forall₂ (List.Forall₂ (SameValue g h)) ss zs)
    {ns ms : List Nested} (hitems : List.Forall₂ (SameValue g h) ns ms) :
    List.Forall₂ (SameValue g h) (assembleFrom ss ns ts) (assembleFrom zs ms us) := by
  induction htokens generalizing ss zs ns ms with
  | nil =>
      rw [assembleFrom, assembleFrom]
      exact sameValue_closeAll hstack hitems
  | @cons t u ts us htu htail ih =>
      have hleaf := sameValue_leaf hget hsame htu
      cases htu with
      | varref hname =>
          rw [assembleFrom_leaf (by simp) (by simp), assembleFrom_leaf (by simp) (by simp)]
          exact ih hstack (.cons hleaf hitems)
      | same =>
          cases t with
          | openBracket =>
              rw [assembleFrom, assembleFrom]
              exact ih (.cons hitems hstack) .nil
          | closeBracket =>
              cases hstack with
              | nil => exact ih .nil (.cons hleaf hitems)
              | cons houter hrest =>
                  rw [assembleFrom, assembleFrom]
                  exact ih hrest (.cons (sameValue_group (List.rel_reverse hitems)) houter)
          | _ =>
              rw [assembleFrom_leaf (by simp) (by simp), assembleFrom_leaf (by simp) (by simp)]
              exact ih hstack (.cons hleaf hitems)

end Nested

end

end TurtleLogo
