import Mathlib.Data.List.Forall2
import TurtleLogo.Proofs.Delimiters

/-! # Nested lists

    A list literal is flat tokens until it is evaluated.  The two forms carry the
    same:

    * `flatten` writes nested items as tokens, and `assemble` undoes that
      (`assemble_flatten`);
    * what `assemble` makes of any tokens is, when written, these tokens and one
      more closing bracket for each opening one that is `unmatched`
      (`flatten_assemble`);
    * a closing bracket is found by the counting of `Delimiters`
      (`findClose_spec`), and the value of a list literal follows its items one
      by one (`primary_bracket`). -/

namespace TurtleLogo

open Delimiters

namespace Nested

mutual
/-- The tokens of an item. -/
def tokens : Nested → List Token
  | .leaf t => [t]
  | .group ns => .openBracket :: (flatten ns ++ [.closeBracket])
/-- The tokens of some items. -/
def flatten : List Nested → List Token
  | [] => []
  | n :: ns => tokens n ++ flatten ns
end

/-- Items in which every bracket encloses a group. -/
inductive Plain : Nested → Prop where
  | leaf {t : Token} (hopen : t ≠ .openBracket) (hclose : t ≠ .closeBracket) : Plain (.leaf t)
  | group {ns : List Nested} (h : ∀ n ∈ ns, Plain n) : Plain (.group ns)

/-- The number of opening brackets that have no partner. -/
def unmatched : List Token → Nat
  | [] => 0
  | t :: ts => (if t = .openBracket ∧ ¬∃ k, brackets.ClosedAt ts k then 1 else 0) + unmatched ts

variable {n : Nested} {ns : List Nested} {stack : List (List Nested)} {current : List Nested}
  {ts : List Token} {t : Token}

/-- Items are written one after another. -/
theorem flatten_append (ns ms : List Nested) : flatten (ns ++ ms) = flatten ns ++ flatten ms := by
  induction ns with
  | nil => rfl
  | cons n ns ih => rw [List.cons_append, flatten, flatten, ih, List.append_assoc]

/-- The item that was read last is written last. -/
theorem flatten_reverse_cons (n : Nested) (ns : List Nested) :
    flatten (n :: ns).reverse = flatten ns.reverse ++ tokens n := by
  rw [List.reverse_cons, flatten_append, flatten, flatten, List.append_nil]

/-! ## From nested items to tokens and back -/

/-- Items that are assembled as they were are so in a row. -/
theorem assembleFrom_flatten
    (h : ∀ n ∈ ns, ∀ stack current ts,
      assembleFrom stack current (tokens n ++ ts) = assembleFrom stack (n :: current) ts) :
    assembleFrom stack current (flatten ns ++ ts)
      = assembleFrom stack (ns.reverse ++ current) ts := by
  induction ns generalizing current with
  | nil => rfl
  | cons n ns ih =>
      rw [flatten, List.append_assoc, h n List.mem_cons_self,
        ih fun m hm => h m (List.mem_cons_of_mem n hm), List.reverse_cons, List.append_assoc]
      rfl

/-- The tokens of a plain item are assembled to that item. -/
theorem Plain.assembleFrom_tokens (h : n.Plain) :
    ∀ stack current ts,
      assembleFrom stack current (tokens n ++ ts) = assembleFrom stack (n :: current) ts := by
  induction h with
  | leaf hopen hclose => exact assembleFrom_leaf hopen hclose
  | @group ns _ ih =>
      intro stack current ts
      rw [tokens, List.cons_append, List.append_assoc, assembleFrom,
        assembleFrom_flatten ih, List.append_nil]
      show assembleFrom stack (.group ns.reverse.reverse :: current) ts = _
      rw [List.reverse_reverse]

/-- Plain items that are written as tokens are assembled to themselves. -/
theorem assemble_flatten (h : ∀ n ∈ ns, n.Plain) : assemble (flatten ns) = ns := by
  have hall : assembleFrom [] [] (flatten ns ++ []) = assembleFrom [] (ns.reverse ++ []) [] :=
    assembleFrom_flatten fun n hn => (h n hn).assembleFrom_tokens
  rw [List.append_nil, List.append_nil] at hall
  rw [assemble, hall]
  exact List.reverse_reverse ns

/-! ## From tokens to nested items and back -/

/-- The tokens of the items read so far. -/
def readTokens : List (List Nested) → List Nested → List Token
  | [], current => flatten current.reverse
  | outer :: stack, current => readTokens stack outer ++ .openBracket :: flatten current.reverse

/-- The number of groups that are open after some tokens. -/
def openAfter : Nat → List Token → Nat
  | n, [] => n
  | n, .openBracket :: ts => openAfter (n + 1) ts
  | n, .closeBracket :: ts => openAfter (n - 1) ts
  | n, _ :: ts => openAfter n ts

/-- An item that was read last comes last among the tokens. -/
theorem readTokens_cons (stack : List (List Nested)) (n : Nested) (current : List Nested) :
    readTokens stack (n :: current) = readTokens stack current ++ tokens n := by
  cases stack with
  | nil => exact flatten_reverse_cons n current
  | cons outer stack =>
      rw [readTokens, readTokens, flatten_reverse_cons, List.append_assoc]
      rfl

/-- Closing a group writes its closing bracket. -/
theorem readTokens_group (stack : List (List Nested)) (outer current : List Nested) :
    readTokens stack (.group current.reverse :: outer)
      = readTokens (outer :: stack) current ++ [.closeBracket] := by
  rw [readTokens_cons, tokens, readTokens, List.append_assoc]
  rfl

/-- Groups that are still open are closed at the end, one bracket each. -/
theorem flatten_closeAll (stack : List (List Nested)) (current : List Nested) :
    flatten (closeAll stack current)
      = readTokens stack current ++ List.replicate stack.length .closeBracket := by
  induction stack generalizing current with
  | nil => exact (List.append_nil _).symm
  | cons outer stack ih =>
      rw [closeAll, ih, readTokens_group, List.append_assoc, List.length_cons, List.replicate_succ]
      rfl

/-- Assembling writes all tokens, and closes what is open after them. -/
theorem flatten_assembleFrom (stack : List (List Nested)) (current : List Nested)
    (ts : List Token) :
    flatten (assembleFrom stack current ts)
      = readTokens stack current
        ++ (ts ++ List.replicate (openAfter stack.length ts) .closeBracket) := by
  induction ts generalizing stack current with
  | nil =>
      rw [assembleFrom]
      exact flatten_closeAll stack current
  | cons t ts ih =>
      -- a bracket opens or closes a group, unless there is none to close
      have hleaf : flatten (assembleFrom stack (.leaf t :: current) ts)
          = readTokens stack current
            ++ (t :: ts ++ List.replicate (openAfter stack.length ts) .closeBracket) := by
        rw [ih, readTokens_cons, tokens, List.append_assoc]
        rfl
      cases t with
      | openBracket =>
          rw [assembleFrom, ih, readTokens, List.append_assoc]
          rfl
      | closeBracket =>
          cases stack with
          | nil => exact hleaf
          | cons outer stack =>
              show flatten (assembleFrom stack (.group current.reverse :: outer) ts) = _
              rw [ih, readTokens_group, List.append_assoc]
              rfl
      | _ =>
          rw [assembleFrom_leaf (by rintro ⟨⟩) (by rintro ⟨⟩), hleaf]
          rfl

/-- The number of closing brackets that have no partner. -/
def strays : List Token → Nat
  | [] => 0
  | .openBracket :: ts => strays ts - 1
  | .closeBracket :: ts => strays ts + 1
  | _ :: ts => strays ts

/-- So many groups may be open as never to be closed too often. -/
theorem strays_le_iff (depth : Nat) (ts : List Token) :
    strays ts ≤ depth ↔ Token.splitClose depth ts = none := by
  fun_induction Token.splitClose depth ts with
  | case1 => exact iff_of_true (Nat.zero_le _) rfl
  | case2 ts => exact iff_of_false (Nat.not_succ_le_zero _) (Option.some_ne_none _)
  | case3 depth ts ih => rw [Option.map_eq_none_iff, ← ih, strays, Nat.add_le_add_iff_right]
  | case4 depth ts ih => rw [Option.map_eq_none_iff, ← ih, strays, Nat.sub_le_iff_le_add]
  | case5 depth t ts hzero hsucc hopen ih =>
      rw [Option.map_eq_none_iff, ← ih]
      cases t with
      | openBracket => exact absurd rfl hopen
      | closeBracket =>
          cases depth with
          | zero => exact (hzero rfl rfl).elim
          | succ depth => exact (hsucc depth rfl rfl).elim
      | _ => rfl

/-- There is a place before which all brackets are balanced exactly if one has no
    partner. -/
theorem exists_closedAt_iff (ts : List Token) :
    (∃ k, brackets.ClosedAt ts k) ↔ 0 < strays ts := by
  rw [← not_iff_not, ← split_eq_none_iff, Nat.not_lt, strays_le_iff, Token.splitClose_eq]
  rfl

/-- What is open in the end has been opened without a partner, or was open before
    and has not been closed. -/
theorem openAfter_eq (n : Nat) (ts : List Token) :
    openAfter n ts = unmatched ts + (n - strays ts) := by
  induction ts generalizing n with
  | nil => exact (Nat.zero_add n).symm
  | cons t ts ih =>
      cases t with
      | openBracket =>
          rw [openAfter, ih, strays, unmatched]
          by_cases hclosed : ∃ k, brackets.ClosedAt ts k
          · have hstray := (exists_closedAt_iff ts).1 hclosed
            rw [if_neg fun h => h.2 hclosed]
            omega
          · have hstray := mt (exists_closedAt_iff ts).2 hclosed
            rw [if_pos ⟨rfl, hclosed⟩]
            omega
      | closeBracket =>
          rw [openAfter, ih, strays, unmatched, if_neg (by rintro ⟨⟨⟩, -⟩)]
          omega
      | _ =>
          rw [unmatched, if_neg (by rintro ⟨⟨⟩, -⟩), Nat.zero_add]
          exact ih n

/-- What has been assembled, when written, is as it was, with all closed. -/
theorem flatten_assemble (ts : List Token) :
    flatten (assemble ts) = ts ++ List.replicate (unmatched ts) .closeBracket := by
  rw [assemble, flatten_assembleFrom, openAfter_eq, List.length_nil, Nat.zero_sub, Nat.add_zero]
  rfl

/-- Tokens are assembled and written as they were exactly if every opening bracket
    has a partner. -/
theorem flatten_assemble_iff (ts : List Token) :
    flatten (assemble ts) = ts ↔ unmatched ts = 0 := by
  rw [flatten_assemble, List.append_right_eq_self, List.replicate_eq_nil_iff]

/-! ## Balanced tokens -/

/-- As long as nothing is closed that is not open, all that is open is counted. -/
theorem openAfter_of_upright {n : Nat} (h : ∀ k, 0 ≤ n + brackets.height (ts.take k)) :
    (openAfter n ts : Int) = n + brackets.height ts := by
  induction ts generalizing n with
  | nil => exact (Int.add_zero _).symm
  | cons t ts ih =>
      obtain ⟨-, hrest⟩ := upright_cons.1 h
      rw [height, ← Int.add_assoc]
      cases t with
      | openBracket => exact ih hrest
      | closeBracket =>
          -- `n - 1` is no truncation here: the count after the bracket is not negative
          have hn : n + brackets.step .closeBracket = (n - 1 : Nat) := by
            have hzero := hrest 0
            rw [List.take_zero, height, step_closeBracket] at hzero
            rw [step_closeBracket]
            omega
          rw [hn] at hrest ⊢
          exact ih hrest
      | _ => exact (ih hrest).trans (congrArg (· + _) (Int.add_zero _).symm)

/-- Balanced tokens have no opening bracket without partner. -/
theorem unmatched_of_balanced (h : brackets.Balanced ts) : unmatched ts = 0 := by
  have hopen := openAfter_of_upright (n := 0) fun k => by
    rw [Int.natCast_zero, Int.zero_add]
    exact h.upright k
  rw [openAfter_eq, h.level] at hopen
  omega

/-- Groups of plain items are plain once they are closed. -/
theorem plain_closeAll (hstack : ∀ outer ∈ stack, ∀ n ∈ outer, n.Plain)
    (hcurrent : ∀ n ∈ current, n.Plain) : ∀ n ∈ closeAll stack current, n.Plain := by
  induction stack generalizing current with
  | nil => exact fun n hn => hcurrent n (List.mem_reverse.1 hn)
  | cons outer stack ih =>
      obtain ⟨houter, hstack⟩ := List.forall_mem_cons.1 hstack
      have hgroup : (Nested.group current.reverse).Plain :=
        .group fun n hn => hcurrent n (List.mem_reverse.1 hn)
      exact ih hstack (List.forall_mem_cons.2 ⟨hgroup, houter⟩)

/-- Where nothing is closed that is not open, every bracket encloses a group. -/
theorem plain_assembleFrom (hstack : ∀ outer ∈ stack, ∀ n ∈ outer, n.Plain)
    (hcurrent : ∀ n ∈ current, n.Plain)
    (h : ∀ k, 0 ≤ stack.length + brackets.height (ts.take k)) :
    ∀ n ∈ assembleFrom stack current ts, n.Plain := by
  induction ts generalizing stack current with
  | nil =>
      rw [assembleFrom]
      exact plain_closeAll hstack hcurrent
  | cons t ts ih =>
      obtain ⟨-, hrest⟩ := upright_cons.1 h
      cases t with
      | openBracket =>
          exact ih (List.forall_mem_cons.2 ⟨hcurrent, hstack⟩) (List.forall_mem_nil _) hrest
      | closeBracket =>
          -- it has a group to close, since the count does not fall below zero
          cases stack with
          | nil => exact absurd (show (0 : Int) ≤ -1 from hrest 0) (by decide)
          | cons outer stack =>
              obtain ⟨houter, hstack⟩ := List.forall_mem_cons.1 hstack
              have hgroup : (Nested.group current.reverse).Plain :=
                .group fun n hn => hcurrent n (List.mem_reverse.1 hn)
              refine ih hstack (List.forall_mem_cons.2 ⟨hgroup, houter⟩) fun k => ?_
              have hk := hrest k
              rw [List.length_cons, step_closeBracket] at hk
              omega
      | _ =>
          rw [assembleFrom_leaf (by rintro ⟨⟩) (by rintro ⟨⟩)]
          refine ih hstack (List.forall_mem_cons.2 ⟨.leaf ?_ ?_, hcurrent⟩) hrest
          all_goals rintro ⟨⟩

/-- Balanced tokens are those of nested items. -/
theorem exists_plain (h : brackets.Balanced ts) :
    (∀ n ∈ assemble ts, n.Plain) ∧ flatten (assemble ts) = ts := by
  refine ⟨?_, (flatten_assemble_iff ts).2 (unmatched_of_balanced h)⟩
  refine plain_assembleFrom (by simp) (by simp) fun k => ?_
  rw [List.length_nil, Int.natCast_zero, Int.zero_add]
  exact h.upright k

/-! ## Values -/

/-- What an item of a list literal stands for, where `get` knows the variables:
    a variable for its value, any other token for its own, and a group for the
    list of what its items stand for. -/
inductive Stands (get : Text → Except Fault Value) : Nested → Value → Prop where
  | variable {name : Text} {v : Value} (h : get name = .ok v) : Stands get (.leaf (.varref name)) v
  | token {t : Token} (h : ∀ name, t ≠ .varref name) : Stands get (.leaf t) t.value
  | group {ns : List Nested} {vs : List Value} (h : List.Forall₂ (Stands get) ns vs) :
      Stands get (.group ns) (.list vs)

/-- A single token has the value that it stands for. -/
theorem stands_leaf (get : Text → Except Fault Value) (t : Token) (v : Value) :
    value get (.leaf t) = .ok v ↔ Stands get (.leaf t) v := by
  constructor
  · intro h
    cases t with
    | varref name => exact .variable h
    | _ =>
        cases h
        exact .token (by rintro _ ⟨⟩)
  · intro h
    cases h with
    | «variable» h => exact h
    | token h =>
        cases t with
        | varref name => exact absurd rfl (h name)
        | _ => rfl

mutual
/-- An item has the values that it stands for, and no others. -/
theorem value_eq_ok (get : Text → Except Fault Value) :
    ∀ (n : Nested) (v : Value), value get n = .ok v ↔ Stands get n v
  | .leaf t, v => stands_leaf get t v
  | .group ns, v => by
      constructor
      · intro h
        rw [value] at h
        obtain ⟨vs, hvs, heq⟩ := Except.bind_eq_ok h
        cases heq
        exact .group ((values_eq_ok get ns vs).1 hvs)
      · intro h
        cases h with
        | group h =>
            rw [value, (values_eq_ok get ns _).2 h]
            rfl
/-- Items have the values that they stand for one by one. -/
theorem values_eq_ok (get : Text → Except Fault Value) :
    ∀ (ns : List Nested) (vs : List Value),
      values get ns = .ok vs ↔ List.Forall₂ (Stands get) ns vs
  | [], vs => by
      rw [values, List.forall₂_nil_left_iff]
      exact ⟨fun h => by cases h; rfl, fun h => by rw [h]⟩
  | n :: ns, vs => by
      constructor
      · intro h
        rw [values] at h
        obtain ⟨v, hv, h⟩ := Except.bind_eq_ok h
        obtain ⟨vs, hvs, heq⟩ := Except.bind_eq_ok h
        cases heq
        exact .cons ((value_eq_ok get n v).1 hv) ((values_eq_ok get ns vs).1 hvs)
      · intro h
        cases h with
        | cons hv hvs =>
            rw [values, (value_eq_ok get n _).2 hv, (values_eq_ok get ns _).2 hvs]
            rfl
end

/-- The fault of what has failed. -/
def fault? {β : Type} : Except Fault β → Option Fault
  | .ok _ => none
  | .error f => some f

/-- The fault of a variable that has no value. -/
def missing (get : Text → Except Fault Value) : Token → Option Fault
  | .varref name => fault? (get name)
  | _ => none

/-- The first of two computations that fails gives the fault. -/
theorem fault?_bind {β γ : Type} (r : Except Fault β) {k : β → Except Fault γ} {o : Option Fault}
    (h : ∀ b, fault? (k b) = o) : fault? (r >>= k) = (fault? r).or o := by
  cases r with
  | ok b => exact h b
  | error f => rfl

mutual
/-- The fault of an item is that of its first variable without value. -/
theorem fault?_value (get : Text → Except Fault Value) :
    ∀ n : Nested, fault? (value get n) = (tokens n).findSome? (missing get)
  | .leaf t => by
      cases t with
      | varref name => exact (List.findSome?_singleton ..).symm
      | _ => rfl
  | .group ns => by
      rw [value, fault?_bind _ (o := none) fun _ => rfl, Option.or_none, fault?_values get ns]
      -- neither of the two brackets can fail
      show _ = List.findSome? _ (flatten ns ++ [.closeBracket])
      rw [List.findSome?_append]
      exact Option.or_none.symm
/-- The fault of several items is that of their first variable without value. -/
theorem fault?_values (get : Text → Except Fault Value) :
    ∀ ns : List Nested, fault? (values get ns) = (flatten ns).findSome? (missing get)
  | [] => by
      rw [values]
      rfl
  | n :: ns => by
      rw [values, flatten, List.findSome?_append, ← fault?_value get n, ← fault?_values get ns]
      refine fault?_bind _ fun v => ?_
      rw [fault?_bind _ (o := none) fun _ => rfl, Option.or_none]
end

/-- In a list literal the first variable without a value is the one that fails. -/
theorem findSome?_missing (s : Store) (ts : List Token) (f : Fault) :
    ts.findSome? (missing s.get) = some f
      ↔ ∃ before name after, ts = before ++ .varref name :: after
        ∧ (∀ m, .varref m ∈ before → s.has m = true) ∧ s.has name = false
        ∧ f = .unbound (Text.upper name) := by
  have hget : ∀ name, fault? (s.get name)
      = if s.has name then none else some (.unbound (Text.upper name)) := by
    intro name
    rw [Store.get, Store.has]
    cases Store.find? (Text.upper name) s.locals s.globals <;> rfl
  rw [List.findSome?_eq_some_iff]
  constructor
  · rintro ⟨before, t, after, rfl, ht, hbefore⟩
    cases t with
    | varref name =>
        rw [missing, hget] at ht
        split at ht
        · cases ht
        · rename_i hname
          cases ht
          refine ⟨before, name, after, rfl, fun m hm => ?_, Bool.eq_false_iff.2 hname, rfl⟩
          have hnone := hbefore _ hm
          rw [missing, hget] at hnone
          by_contra hunbound
          rw [if_neg hunbound] at hnone
          cases hnone
    | _ => cases ht
  · rintro ⟨before, name, after, rfl, hbefore, hname, rfl⟩
    refine ⟨before, .varref name, after, rfl, ?_, fun t ht => ?_⟩
    · rw [missing, hget, hname]
      rfl
    · cases t with
      | varref m =>
          rw [missing, hget, hbefore m ht]
          rfl
      | _ => rfl

end Nested

namespace Token

/-- The places, from a given one on, of the closing brackets before which all
    brackets are balanced. -/
def partners (ts : List Token) (index : Nat) : Set Nat :=
  {i | index ≤ i ∧ ts[i]? = some .closeBracket
    ∧ brackets.Balanced ((ts.drop index).take (i - index))}

/-- A place is a partner exactly if the brackets up to there are closed. -/
theorem mem_partners {ts : List Token} {index i : Nat} :
    i ∈ partners ts index ↔ ∃ k, i = index + k ∧ brackets.ClosedAt (ts.drop index) k := by
  constructor
  · rintro ⟨hle, hclosing, hbalanced⟩
    refine ⟨i - index, by omega, ?_, hbalanced⟩
    rw [List.getElem?_drop, Nat.add_sub_cancel' hle]
    exact hclosing
  · rintro ⟨k, rfl, hclosing, hbalanced⟩
    refine ⟨Nat.le_add_right .., ?_, ?_⟩
    · rw [← List.getElem?_drop]
      exact hclosing
    · rw [Nat.add_sub_cancel_left]
      exact hbalanced

/-- The place where brackets are closed is the first partner. -/
theorem isLeast_partners {ts : List Token} {index k : Nat}
    (h : brackets.ClosedAt (ts.drop index) k) : IsLeast (partners ts index) (index + k) := by
  refine ⟨mem_partners.2 ⟨k, rfl, h⟩, fun i hi => ?_⟩
  obtain ⟨j, rfl, hj⟩ := mem_partners.1 hi
  rw [hj.unique h]

/-- Brackets that are closed have an inside, and the rest comes after the closing
    one. -/
theorem inside_of_closedAt {ts : List Token} {k : Nat} (h : brackets.ClosedAt ts k) :
    inside ts = .ok (ts.take k, ts.drop (k + 1)) := by
  have hsplit : splitClose 0 ts = some (ts.take k, ts.drop (k + 1)) :=
    (splitClose_eq 0 ts).trans (split_eq_some_iff.2 ⟨k, h, rfl, rfl⟩)
  rw [inside, hsplit]

/-- Brackets that are not closed are a fault. -/
theorem inside_of_not_closedAt {ts : List Token} (h : ¬∃ k, brackets.ClosedAt ts k) :
    inside ts = .error .unclosedBracket := by
  have hsplit : splitClose 0 ts = none := (splitClose_eq 0 ts).trans (split_eq_none_iff.2 h)
  rw [inside, hsplit]

/-- The search for the partner of a bracket opened just before a place finds it,
    or there is none. -/
theorem findClose_spec (ts : List Token) (index : Nat) :
    (∃ i : Nat, findClose ts index = .ok (i : Int) ∧ IsLeast (partners ts index) i)
      ∨ findClose ts index = .error .unclosedBracket ∧ partners ts index = ∅ := by
  have hfrom : tokensFrom ts index = .ok (ts.drop index) := if_pos (Int.natCast_nonneg index)
  rw [findClose, hfrom]
  by_cases h : ∃ k, brackets.ClosedAt (ts.drop index) k
  · obtain ⟨k, hk⟩ := h
    refine .inl ⟨index + k, ?_, isLeast_partners hk⟩
    obtain ⟨hlength, -⟩ := List.getElem?_eq_some_iff.1 hk.closing
    show (inside (ts.drop index) >>= fun r => .ok ((index : Int) + r.1.length)) = _
    rw [inside_of_closedAt hk]
    show Except.ok ((index : Int) + ((ts.drop index).take k).length) = _
    rw [List.length_take, Nat.min_eq_left (by omega)]
    rfl
  · refine .inr ⟨?_, Set.eq_empty_of_forall_notMem fun i hi => ?_⟩
    · show (inside (ts.drop index) >>= fun r => .ok ((index : Int) + r.1.length)) = _
      rw [inside_of_not_closedAt h]
      rfl
    · obtain ⟨k, -, hk⟩ := mem_partners.1 hi
      exact h ⟨k, hk⟩

/-- The closing bracket that is found is the first partner. -/
theorem findClose_eq_ok (ts : List Token) (index : Nat) (i : Int) :
    findClose ts index = .ok i ↔ ∃ j : Nat, i = j ∧ IsLeast (partners ts index) j := by
  obtain ⟨j, hj, hleast⟩ | ⟨herror, hnone⟩ := findClose_spec ts index
  · rw [hj]
    refine ⟨fun h => ?_, fun ⟨k, hk, hkleast⟩ => ?_⟩
    · cases h
      exact ⟨j, rfl, hleast⟩
    · rw [hk, hleast.unique hkleast]
  · rw [herror, hnone]
    refine iff_of_false (by rintro ⟨⟩) fun ⟨j, _, hj⟩ => hj.1

/-- None is found exactly if there is no partner. -/
theorem findClose_eq_error (ts : List Token) (index : Nat) (f : Fault) :
    findClose ts index = .error f ↔ f = .unclosedBracket ∧ partners ts index = ∅ := by
  obtain ⟨j, hj, hleast⟩ | ⟨herror, hnone⟩ := findClose_spec ts index
  · rw [hj]
    refine iff_of_false (by rintro ⟨⟩) fun ⟨_, hempty⟩ => ?_
    rw [hempty] at hleast
    exact hleast.1
  · rw [herror, and_iff_left hnone]
    exact ⟨fun h => by cases h; rfl, fun h => by rw [h]⟩

/-- A place counted from the end is the first of the tokens from there on, which
    all tokens follow once more. -/
theorem findClose_back (ts : List Token) {back : Nat} (h : back ≤ ts.length) :
    findClose ts (-back)
      = (findClose (ts.drop (ts.length - back) ++ ts) 0).map (· - (back : Int)) := by
  have hfrom : tokensFrom ts (-back) = .ok (ts.drop (ts.length - back) ++ ts) := by
    rw [tokensFrom]
    by_cases hzero : back = 0
    · subst hzero
      rw [Nat.sub_zero, List.drop_length]
      rfl
    · rw [if_neg (by omega), if_neg (by omega)]
      congr 3
      omega
  have hzero : ∀ us, tokensFrom us 0 = .ok us := fun us => rfl
  rw [findClose, findClose, hfrom, hzero]
  show (inside _ >>= fun r => .ok (-(back : Int) + r.1.length))
    = Except.map _ (inside _ >>= fun r => .ok ((0 : Int) + r.1.length))
  cases inside (ts.drop (ts.length - back) ++ ts) with
  | error f => rfl
  | ok r =>
      show Except.ok (-(back : Int) + r.1.length) = .ok ((0 : Int) + r.1.length - back)
      rw [Int.zero_add, Int.sub_eq_add_neg, Int.add_comm]

end Token

namespace Session

variable {ts : List Token} {k : Nat}

/-- The value of a list literal is that of the items inside it, and it changes
    nothing. -/
theorem primary_bracket (h : brackets.ClosedAt ts k) (E : Engine) (w : World) :
    primary E (.openBracket :: ts) w
      = match Nested.values w.store.get (Nested.assemble (ts.take k)) with
        | .ok vs => .ok (.list vs, ts.drop (k + 1)) w
        | .error f => .error f w := by
  show (attempt (Token.inside ts) >>= fun r => store >>= fun s =>
    attempt (Nested.values s.get (Nested.assemble r.1)) >>= fun vs =>
      (pure (Value.list vs, r.2) : SessionM Reading)) w = _
  rw [Token.inside_of_closedAt h]
  show (attempt (Nested.values w.store.get (Nested.assemble (ts.take k))) >>= fun vs =>
    (pure (Value.list vs, ts.drop (k + 1)) : SessionM Reading)) w = _
  cases Nested.values w.store.get (Nested.assemble (ts.take k)) <;> rfl

/-- A list literal has a value exactly if each of its items stands for one. -/
theorem primary_bracket_ok (h : brackets.ClosedAt ts k) (E : Engine) (w : World) (r : Reading)
    (u : World) : primary E (.openBracket :: ts) w = .ok r u
      ↔ u = w ∧ r.2 = ts.drop (k + 1) ∧ ∃ vs, r.1 = .list vs
        ∧ List.Forall₂ (Nested.Stands w.store.get) (Nested.assemble (ts.take k)) vs := by
  simp only [primary_bracket h, ← Nested.values_eq_ok]
  cases hvs : Nested.values w.store.get (Nested.assemble (ts.take k)) with
  | ok vs =>
      obtain ⟨v, rest⟩ := r
      refine ⟨fun hok => ?_, fun ⟨hu, hrest, us, hlist, hus⟩ => ?_⟩
      · cases hok
        exact ⟨rfl, rfl, vs, rfl, rfl⟩
      · cases hu
        cases hrest
        cases hlist
        cases hus
        rfl
  | error f => exact iff_of_false (by rintro ⟨⟩) (by rintro ⟨-, -, us, -, ⟨⟩⟩)

/-- A list literal fails exactly at its first variable without value. -/
theorem primary_bracket_error (h : brackets.ClosedAt ts k) (E : Engine) (w : World) (f : Fault)
    (u : World) : primary E (.openBracket :: ts) w = .error f u
      ↔ u = w ∧ ∃ before name after, ts.take k = before ++ .varref name :: after
        ∧ (∀ m, .varref m ∈ before → w.store.has m = true)
        ∧ w.store.has name = false ∧ f = .unbound (Text.upper name) := by
  obtain ⟨-, hflatten⟩ := Nested.exists_plain h.balanced
  have hfault := Nested.fault?_values w.store.get (Nested.assemble (ts.take k))
  rw [hflatten] at hfault
  rw [primary_bracket h, ← Nested.findSome?_missing, ← hfault]
  cases Nested.values w.store.get (Nested.assemble (ts.take k)) with
  | ok vs => exact iff_of_false (by rintro ⟨⟩) (by rintro ⟨-, ⟨⟩⟩)
  | error g =>
      refine ⟨fun herror => ?_, fun ⟨hu, hg⟩ => ?_⟩
      · cases herror
        exact ⟨rfl, rfl⟩
      · cases hg
        rw [hu]

/-- A list literal that is not closed is a fault. -/
theorem primary_unclosed (h : ¬∃ k, brackets.ClosedAt ts k) (E : Engine) (w : World) :
    primary E (.openBracket :: ts) w = .error .unclosedBracket w := by
  show (attempt (Token.inside ts) >>= fun r => store >>= fun s =>
    attempt (Nested.values s.get (Nested.assemble r.1)) >>= fun vs =>
      (pure (Value.list vs, r.2) : SessionM Reading)) w = _
  rw [Token.inside_of_not_closedAt h]
  rfl

/-- Between flat tokens and nested items nothing is lost.  Tokens that have been
    assembled are as they were, with a closing bracket more for each opening one
    without a partner, and items that have been flattened are as they were.  The
    partner of a bracket opened just before a place is the first closing bracket
    from there on with balanced tokens before it; a place counted from the end is
    the first of the tokens from there on, which all tokens follow once more.
    And the value of a list literal follows, item by item, the nested items whose
    tokens stand between the brackets; there is none only if a variable in it
    has no value, or if the bracket is not closed. -/
theorem brackets_reassembled (ts : List Token) :
    (Nested.flatten (Nested.assemble ts)
          = ts ++ List.replicate (Nested.unmatched ts) .closeBracket
        ∧ (Nested.flatten (Nested.assemble ts) = ts ↔ Nested.unmatched ts = 0))
      ∧ (∀ ns : List Nested, (∀ n ∈ ns, n.Plain) → Nested.assemble (Nested.flatten ns) = ns)
      ∧ ((∀ (index : Nat) (i : Int), Token.findClose ts index = .ok i
            ↔ ∃ j : Nat, i = j ∧ IsLeast (Token.partners ts index) j)
        ∧ (∀ (index : Nat) (f : Fault), Token.findClose ts index = .error f
            ↔ f = .unclosedBracket ∧ Token.partners ts index = ∅)
        ∧ ∀ back ≤ ts.length, Token.findClose ts (-back)
            = (Token.findClose (ts.drop (ts.length - back) ++ ts) 0).map (· - (back : Int)))
      ∧ ∀ (E : Engine) (w : World),
        (∀ k, brackets.ClosedAt ts k → ∃ ns : List Nested,
          ((∀ n ∈ ns, n.Plain) ∧ Nested.flatten ns = ts.take k)
            ∧ (∀ r u, primary E (.openBracket :: ts) w = .ok r u
              ↔ u = w ∧ r.2 = ts.drop (k + 1)
                ∧ ∃ vs, r.1 = .list vs ∧ List.Forall₂ (Nested.Stands w.store.get) ns vs)
            ∧ ∀ f u, primary E (.openBracket :: ts) w = .error f u
              ↔ u = w ∧ ∃ before name after, ts.take k = before ++ .varref name :: after
                ∧ (∀ m, .varref m ∈ before → w.store.has m = true)
                ∧ w.store.has name = false ∧ f = .unbound (Text.upper name))
          ∧ ((¬∃ k, brackets.ClosedAt ts k) →
            primary E (.openBracket :: ts) w = .error .unclosedBracket w) := by
  refine ⟨⟨Nested.flatten_assemble ts, Nested.flatten_assemble_iff ts⟩,
    fun ns => Nested.assemble_flatten, ⟨Token.findClose_eq_ok ts, Token.findClose_eq_error ts,
      fun back => Token.findClose_back ts⟩, fun E w => ⟨fun k hk => ?_,
        fun h => primary_unclosed h E w⟩⟩
  obtain ⟨hplain, hflatten⟩ := Nested.exists_plain hk.balanced
  exact ⟨Nested.assemble (ts.take k), ⟨hplain, hflatten⟩, primary_bracket_ok hk E w,
    primary_bracket_error hk E w⟩

/-- A list with a variable in it, a stray bracket of each kind around it. -/
theorem brackets_reassembled_nested : ∃ (w : World) (ts : List Token), w.store.has "X" = true
    ∧ ts = [.word "A", .openBracket, .varref "X", .closeBracket, .closeBracket, .openBracket]
    ∧ Nested.flatten (Nested.assemble ts) = ts ++ [.closeBracket]
    ∧ Token.findClose ts 0 = .ok 4
    ∧ ∀ E, primary E (.openBracket :: ts) w
      = .ok (.list [.word "A", .list [.ofInt 5]], [.openBracket]) w := by
  obtain ⟨w, -, -⟩ := quietSession_of (P := fun _ => true) rfl
  let u : World := { w with store := Store.empty.set "X" (.ofInt 5) }
  let ts : List Token :=
    [.word "A", .openBracket, .varref "X", .closeBracket, .closeBracket, .openBracket]
  obtain ⟨⟨hflatten, -⟩, hassemble, ⟨hfind, -, -⟩, hliteral⟩ := brackets_reassembled ts
  have hclosed : brackets.ClosedAt (ts.drop 0) 4 := ⟨rfl, by decide +kernel⟩
  refine ⟨u, ts, rfl, rfl, ?_, ?_, fun E => ?_⟩
  · rw [hflatten, show Nested.unmatched ts = 1 by decide +kernel]
    rfl
  · exact (hfind 0 4).2 ⟨4, rfl, Token.isLeast_partners hclosed⟩
  · obtain ⟨ns, ⟨hplain, hns⟩, hvalue, -⟩ := (hliteral E u).1 4 hclosed
    have hitems : ns = [.leaf (.word "A"), .group [.leaf (.varref "X")]] := by
      rw [← hassemble ns hplain, hns]
      rfl
    refine (hvalue _ _).2 ⟨rfl, rfl, _, rfl, ?_⟩
    rw [hitems]
    have hword : Nested.Stands u.store.get (.leaf (.word "A")) (.word "A") :=
      .token (by rintro _ ⟨⟩)
    have hvariable : Nested.Stands u.store.get (.leaf (.varref "X")) (.ofInt 5) := .variable rfl
    exact .cons hword (.cons (.group (.cons hvariable .nil)) .nil)

end Session

end TurtleLogo
