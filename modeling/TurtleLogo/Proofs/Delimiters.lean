import Mathlib.Order.Bounds.Basic
import TurtleLogo.Proofs.Boundary

/-! # Delimiters

    Brackets enclose blocks and lists, `TO` and `END` enclose definitions.  Both
    are matched by counting:

    * `height` counts one up for what opens and one down for what closes, and
      tokens are `Balanced` if that ends at zero and is never below;
    * the search for a partner stops at the token with which the count falls
      below zero (`split`), which is the search for brackets (`splitClose_eq`)
      and for `END` (`splitEnd_eq`);
    * it finds the token before which all is balanced (`split_eq_some_iff`), if
      there is one (`split_eq_none_iff`), and that is the first one with which
      the count of all that is open comes to zero (`isLeast_iff`). -/

namespace TurtleLogo

/-- A token that opens something and the one that closes it. -/
structure Delimiters where
  opening : Token
  closing : Token
  apart : opening ≠ closing

namespace Delimiters

/-- The brackets around blocks and lists. -/
def brackets : Delimiters := ⟨.openBracket, .closeBracket, by decide⟩

/-- The words around definitions. -/
def definition : Delimiters := ⟨.word "TO", .word "END", by decide⟩

variable (d : Delimiters)

/-- What a token adds to the number of things that are open. -/
def step (t : Token) : Int :=
  if t = d.opening then 1 else if t = d.closing then -1 else 0

/-- How many more things some tokens open than they close. -/
def height : List Token → Int
  | [] => 0
  | t :: ts => d.step t + height ts

/-- Tokens that close all they open, and nothing else. -/
structure Balanced (ts : List Token) : Prop where
  upright : ∀ k, 0 ≤ d.height (ts.take k)
  level : d.height ts = 0

/-- The token at a place closes what was opened just before the tokens. -/
structure ClosedAt (ts : List Token) (k : Nat) : Prop where
  closing : ts[k]? = some d.closing
  balanced : d.Balanced (ts.take k)

/-- The tokens before and after the one with which a count falls below zero. -/
def split : Int → List Token → Option (List Token × List Token)
  | _, [] => none
  | n, t :: ts =>
      if n + d.step t < 0 then some ([], ts)
      else (split (n + d.step t) ts).map fun r => (t :: r.1, r.2)

variable {d} {n : Int} {ts us rest : List Token} {k : Nat}

/-! ## Counting -/

/-- What opens counts one up. -/
theorem step_opening : d.step d.opening = 1 := if_pos rfl

/-- What closes counts one down. -/
theorem step_closing : d.step d.closing = -1 := by
  rw [step, if_neg d.apart.symm, if_pos rfl]

/-- No other token counts. -/
theorem step_other {t : Token} (hopen : t ≠ d.opening) (hclose : t ≠ d.closing) :
    d.step t = 0 := by
  rw [step, if_neg hopen, if_neg hclose]

/-- No token counts down by more than one. -/
theorem neg_one_le_step (t : Token) : -1 ≤ d.step t := by
  rw [step]
  split
  · omega
  · split <;> omega

/-- Only what closes counts down. -/
theorem eq_closing {t : Token} (h : d.step t < 0) : t = d.closing := by
  by_contra hclose
  by_cases hopen : t = d.opening
  · rw [hopen, step_opening] at h
    omega
  · rw [step_other hopen hclose] at h
    omega

/-- Counts of tokens in a row add up. -/
theorem height_append (ts us : List Token) :
    d.height (ts ++ us) = d.height ts + d.height us := by
  induction ts with
  | nil => exact (Int.zero_add _).symm
  | cons t ts ih => rw [List.cons_append, height, height, ih, Int.add_assoc]

/-- One more token adds its step to the count. -/
theorem height_take_succ {t : Token} (h : ts[k]? = some t) :
    d.height (ts.take (k + 1)) = d.height (ts.take k) + d.step t := by
  rw [List.take_add_one, h, height_append]
  exact congrArg _ (Int.add_zero _)

/-- A count is nowhere below zero if it starts and goes on so. -/
theorem upright_cons {t : Token} :
    (∀ k, 0 ≤ n + d.height ((t :: ts).take k))
      ↔ 0 ≤ n ∧ ∀ k, 0 ≤ n + d.step t + d.height (ts.take k) := by
  constructor
  · intro h
    refine ⟨?_, fun k => ?_⟩
    · simpa [height] using h 0
    · simpa [height, Int.add_assoc] using h (k + 1)
  · rintro ⟨hn, h⟩ k
    cases k with
    | zero => simpa [height] using hn
    | succ k => simpa [height, Int.add_assoc] using h k

/-- Only the counts up to the last token matter. -/
theorem balanced_iff (d : Delimiters) (ts : List Token) :
    d.Balanced ts ↔ (∀ k < ts.length, 0 ≤ d.height (ts.take k)) ∧ d.height ts = 0 := by
  refine ⟨fun h => ⟨fun k _ => h.upright k, h.level⟩,
    fun ⟨hupright, hlevel⟩ => ⟨fun k => ?_, hlevel⟩⟩
  by_cases hk : k < ts.length
  · exact hupright k hk
  · rw [List.take_of_length_le (by omega), hlevel]

instance : Decidable (d.Balanced ts) := decidable_of_iff _ (d.balanced_iff ts).symm

/-- Balanced tokens in front of others make no difference. -/
theorem Balanced.append_iff (h : d.Balanced us) (ts : List Token) :
    d.Balanced (us ++ ts) ↔ d.Balanced ts := by
  have hheight : d.height (us ++ ts) = d.height ts := by
    rw [height_append, h.level, Int.zero_add]
  refine ⟨fun hall => ⟨fun k => ?_, hheight ▸ hall.level⟩,
    fun hts => ⟨fun k => ?_, hheight.trans hts.level⟩⟩
  · have hupright := hall.upright (us.length + k)
    rwa [List.take_length_add_append, height_append, h.level, Int.zero_add] at hupright
  · rw [List.take_append, height_append]
    exact Int.add_nonneg (h.upright k) (hts.upright _)

/-- Nor do balanced tokens behind them. -/
theorem Balanced.iff_append (h : d.Balanced us) (ts : List Token) :
    d.Balanced (ts ++ us) ↔ d.Balanced ts := by
  have hheight : d.height (ts ++ us) = d.height ts := by
    rw [height_append, h.level, Int.add_zero]
  refine ⟨fun hall => ⟨fun k => ?_, hheight ▸ hall.level⟩,
    fun hts => ⟨fun k => ?_, hheight.trans hts.level⟩⟩
  · -- past the tokens in front the whole count is that of all, which is level
    by_cases hk : k ≤ ts.length
    · have hupright := hall.upright k
      rwa [List.take_append_of_le_length hk] at hupright
    · rw [List.take_of_length_le (by omega), ← hheight, hall.level]
  · rw [List.take_append, height_append]
    exact Int.add_nonneg (hts.upright k) (h.upright _)

/-! ## The search for a partner -/

/-- Tokens that nowhere bring the count below zero are passed over. -/
theorem split_append (h : ∀ k, 0 ≤ n + d.height (us.take k)) (rest : List Token) :
    d.split n (us ++ rest) = (d.split (n + d.height us) rest).map fun r => (us ++ r.1, r.2) := by
  induction us generalizing n with
  | nil =>
      rw [height, Int.add_zero]
      exact (congrFun Option.map_id _).symm
  | cons t us ih =>
      obtain ⟨-, hrest⟩ := upright_cons.1 h
      have hstep : ¬ n + d.step t < 0 := by
        have hzero := hrest 0
        rw [List.take_zero, height] at hzero
        omega
      rw [List.cons_append, split, if_neg hstep, ih hrest, Option.map_map, height, Int.add_assoc]
      rfl

/-- Nothing is found where the count is nowhere below zero. -/
theorem split_eq_none (hn : 0 ≤ n) :
    d.split n ts = none ↔ ∀ k, 0 ≤ n + d.height (ts.take k) := by
  induction ts generalizing n with
  | nil => simpa [split, height] using hn
  | cons t ts ih =>
      rw [upright_cons, split]
      split
      · rename_i hbelow
        refine iff_of_false (Option.some_ne_none _) fun h => ?_
        have hzero := h.2 0
        rw [List.take_zero, height] at hzero
        omega
      · rename_i hstep
        rw [Option.map_eq_none_iff, ih (by omega), and_iff_right hn]

/-- What is found stands behind tokens that bring the count down to zero and
    nowhere below. -/
theorem split_spec (hn : 0 ≤ n) (h : d.split n ts = some (us, rest)) :
    ts = us ++ d.closing :: rest ∧ (∀ k, 0 ≤ n + d.height (us.take k)) ∧ n + d.height us = 0 := by
  induction ts generalizing n us with
  | nil => cases h
  | cons t ts ih =>
      rw [split] at h
      split at h
      · -- a step goes down by one at most, so the count was at zero
        rename_i hbelow
        cases h
        have hlow := neg_one_le_step (d := d) t
        have hclosing : t = d.closing := eq_closing (by omega)
        refine ⟨by rw [hclosing]; rfl, fun k => ?_, ?_⟩
        · rw [List.take_nil, height]
          omega
        · rw [height]
          omega
      · rename_i hstep
        obtain ⟨⟨vs, r⟩, hvs, heq⟩ := Option.map_eq_some_iff.1 h
        cases heq
        obtain ⟨hts, hupright, hlevel⟩ := ih (by omega) hvs
        refine ⟨by rw [hts]; rfl, upright_cons.2 ⟨hn, hupright⟩, ?_⟩
        rw [height, ← Int.add_assoc]
        exact hlevel

/-- The search goes on after a token with which the count stays up. -/
theorem split_cons {t : Token} {m : Int} (hm : n + d.step t = m) (h : 0 ≤ m) (ts : List Token) :
    d.split n (t :: ts) = (d.split m ts).map fun r => (t :: r.1, r.2) := by
  rw [split, hm, if_neg (by omega)]

/-- A closing token is the partner of what was opened right before it. -/
theorem split_closing (rest : List Token) : d.split 0 (d.closing :: rest) = some ([], rest) := by
  rw [split, step_closing]
  rfl

/-- What stands behind balanced tokens is found. -/
theorem Balanced.split (h : d.Balanced us) (rest : List Token) :
    d.split 0 (us ++ d.closing :: rest) = some (us, rest) := by
  have hupright : ∀ k, 0 ≤ 0 + d.height (us.take k) := fun k => by
    rw [Int.zero_add]
    exact h.upright k
  rw [split_append hupright, h.level, Int.add_zero, split_closing]
  exact congrArg some (Prod.ext (List.append_nil us) rfl)

/-- What follows balanced tokens and a closing one does not matter. -/
theorem closedAt_append (h : d.Balanced us) (rest : List Token) :
    d.ClosedAt (us ++ d.closing :: rest) us.length where
  closing := by simp
  balanced := by simpa using h

/-- Tokens that are closed at a place have the closing token there. -/
theorem ClosedAt.eq_append (h : d.ClosedAt ts k) :
    ts = ts.take k ++ d.closing :: ts.drop (k + 1) := by
  obtain ⟨hk, heq⟩ := List.getElem?_eq_some_iff.1 h.closing
  rw [← heq, List.getElem_cons_drop, List.take_append_drop]

/-- The search finds the token before which all is balanced. -/
theorem split_eq_some_iff :
    d.split 0 ts = some (us, rest)
      ↔ ∃ k, d.ClosedAt ts k ∧ us = ts.take k ∧ rest = ts.drop (k + 1) := by
  constructor
  · intro h
    obtain ⟨rfl, hupright, hlevel⟩ := split_spec (Int.le_refl 0) h
    have hbalanced : d.Balanced us :=
      ⟨fun k => by simpa using hupright k, by simpa using hlevel⟩
    exact ⟨us.length, closedAt_append hbalanced rest, by simp, by simp⟩
  · rintro ⟨k, h, rfl, rfl⟩
    conv_lhs => rw [h.eq_append]
    exact h.balanced.split _

/-- No partner is found exactly if there is none. -/
theorem split_eq_none_iff : d.split 0 ts = none ↔ ¬∃ k, d.ClosedAt ts k := by
  constructor
  · rintro h ⟨k, hk⟩
    have hsome := split_eq_some_iff.2 ⟨k, hk, rfl, rfl⟩
    rw [h] at hsome
    cases hsome
  · intro h
    rw [Option.eq_none_iff_forall_ne_some]
    intro r hr
    obtain ⟨k, hk, -⟩ := split_eq_some_iff.1 hr
    exact h ⟨k, hk⟩

instance : Decidable (∃ k, d.ClosedAt ts k) :=
  decidable_of_iff (d.split 0 ts ≠ none) (by rw [Ne, split_eq_none_iff, not_not])

/-- There is only one such token. -/
theorem ClosedAt.unique {j : Nat} (hj : d.ClosedAt ts j) (hk : d.ClosedAt ts k) : j = k := by
  have hboth := split_eq_some_iff.2 ⟨j, hj, rfl, rfl⟩
  rw [split_eq_some_iff.2 ⟨k, hk, rfl, rfl⟩] at hboth
  injection hboth with hboth
  injection hboth with hinner
  have hlength := congrArg List.length hinner
  obtain ⟨hj, -⟩ := List.getElem?_eq_some_iff.1 hj.closing
  obtain ⟨hk, -⟩ := List.getElem?_eq_some_iff.1 hk.closing
  rw [List.length_take, List.length_take] at hlength
  omega

/-! ## The first token that closes all -/

/-- The places of the tokens that, with one thing open before them all, close the
    last thing that is open. -/
def endings (d : Delimiters) (ts : List Token) : Set Nat :=
  {k | ts[k]? = some d.closing ∧ 1 + d.height (ts.take (k + 1)) = 0}

/-- The partner is the first token that closes all. -/
theorem ClosedAt.isLeast (h : d.ClosedAt ts k) : IsLeast (d.endings ts) k := by
  refine ⟨⟨h.closing, ?_⟩, fun j hj => ?_⟩
  · rw [height_take_succ h.closing, h.balanced.level, step_closing]
    rfl
  · -- before the balanced tokens are over, the count is nowhere below zero
    by_contra hlt
    have hupright := h.balanced.upright (j + 1)
    rw [List.take_take, Nat.min_eq_left (by omega)] at hupright
    have hzero := hj.2
    omega

/-- If there is a token that closes all there is a partner. -/
theorem exists_closedAt (h : k ∈ d.endings ts) : ∃ j, d.ClosedAt ts j := by
  -- were there none, the search would fail, and the count stay up all along
  by_contra hnone
  have hupright := (split_eq_none (Int.le_refl 0)).1 (split_eq_none_iff.2 hnone) (k + 1)
  have hzero := h.2
  omega

/-- The first of them is the one before which all is balanced. -/
theorem isLeast_iff : IsLeast (d.endings ts) k ↔ d.ClosedAt ts k := by
  refine ⟨fun h => ?_, ClosedAt.isLeast⟩
  obtain ⟨j, hj⟩ := exists_closedAt h.1
  rwa [h.unique hj.isLeast]

end Delimiters

/-! ## Brackets and definitions -/

open Delimiters

theorem Delimiters.step_closeBracket : brackets.step .closeBracket = -1 := rfl

theorem Delimiters.step_end : definition.step (.word "END") = -1 := rfl

/-- Brackets are matched by the search with brackets. -/
theorem Token.splitClose_eq (depth : Nat) (ts : List Token) :
    Token.splitClose depth ts = brackets.split depth ts := by
  fun_induction Token.splitClose depth ts with
  | case1 => rfl
  | case2 ts => exact (split_closing (d := brackets) ts).symm
  | case3 depth ts ih =>
      have hstep : ((depth + 1 : Nat) : Int) + brackets.step .closeBracket = depth := by
        rw [step_closeBracket]
        omega
      rw [split_cons hstep (Int.natCast_nonneg depth), ih]
  | case4 depth ts ih =>
      have hstep : (depth : Int) + brackets.step .openBracket = (depth + 1 : Nat) := rfl
      rw [split_cons hstep (Int.natCast_nonneg _), ih]
  | case5 depth t ts hzero hsucc hopen ih =>
      have hclose : t ≠ .closeBracket := by
        rintro rfl
        cases depth with
        | zero => exact hzero rfl rfl
        | succ depth => exact hsucc depth rfl rfl
      have hstep : (depth : Int) + brackets.step t = depth := by
        rw [step_other hopen hclose, Int.add_zero]
      rw [split_cons hstep (Int.natCast_nonneg depth), ih]

/-- Definitions are matched by the search with `TO` and `END`. -/
theorem Session.splitEnd_eq (depth : Nat) (ts : List Token) :
    Session.splitEnd depth ts = definition.split depth ts := by
  fun_induction Session.splitEnd depth ts with
  | case1 => rfl
  | case2 depth name ts hto ih =>
      obtain rfl := beq_iff_eq.1 hto
      have hstep : (depth : Int) + definition.step (.word "TO") = (depth + 1 : Nat) := rfl
      rw [split_cons hstep (Int.natCast_nonneg _), ih]
  | case3 name ts hto hend =>
      obtain rfl := beq_iff_eq.1 hend
      exact (split_closing (d := definition) ts).symm
  | case4 name ts hto hend depth ih =>
      obtain rfl := beq_iff_eq.1 hend
      have hstep : ((depth + 1 : Nat) : Int) + definition.step (.word "END") = depth := by
        rw [step_end]
        omega
      rw [split_cons hstep (Int.natCast_nonneg depth), ih]
  | case5 depth name ts hto hend ih =>
      have hstep : (depth : Int) + definition.step (.word name) = depth := by
        rw [step_other, Int.add_zero]
        · rintro ⟨⟩
          exact hto rfl
        · rintro ⟨⟩
          exact hend rfl
      rw [split_cons hstep (Int.natCast_nonneg depth), ih]
  | case6 depth t ts hword ih =>
      have hstep : (depth : Int) + definition.step t = depth := by
        rw [step_other (hword _) (hword _), Int.add_zero]
      rw [split_cons hstep (Int.natCast_nonneg depth), ih]

end TurtleLogo
