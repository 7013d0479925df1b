import TurtleLogo.Proofs.Quantity
import TurtleLogo.Session.Function

/-! # Equality of values

    Equality is symmetric and transitive (`Value.same_comm`, `Value.same_trans`),
    and a value is equal to itself exactly if no number in it is undefined
    (`Value.same_self`).  Among such values it is an equivalence
    (`Value.same_equivalence`).

    * Finite numbers, whole and real, are equal as quantities
      (`Number.eq_iff_value`).
    * Only values of one kind are equal (`Value.kind_of_same`).
    * Equal values are equal to the same values, so they are items of the same
      lists (`Session.isMember_congr`). -/

namespace TurtleLogo

/-! ## Numbers -/

/-- The undefined real. -/
def Number.isUndefined : Number → Bool
  | .int _ => false
  | .real x => x.isNan

/-- A quantity that is defined is equal to itself. -/
theorem Exact.compare?_self {a : Exact} (h : a ≠ .undefined) : compare? a a = some .eq := by
  cases a with
  | undefined => exact absurd rfl h
  | infinite s => cases s <;> rfl
  | dyadic n e => exact congrArg some ((compareDyadic_eq n e n e).2.2 rfl)

/-- The order of two quantities turns around with them. -/
theorem Exact.compare?_swap (a b : Exact) : compare? b a = (compare? a b).map Ordering.swap := by
  cases a with
  | undefined => cases b <;> rfl
  | infinite s =>
      cases b with
      | undefined => rfl
      | infinite t => cases s <;> cases t <;> rfl
      | dyadic k f => cases s <;> rfl
  | dyadic n e =>
      cases b with
      | undefined => rfl
      | infinite t => cases t <;> rfl
      | dyadic k f =>
          show some (compareDyadic k f n e) = some (compareDyadic n e k f).swap
          rw [compareDyadic, compareDyadic, ← Std.OrientedOrd.eq_swap]

/-- The quantity of a number is undefined exactly if the number is. -/
theorem Number.exact_undefined {a : Number} : a.exact = .undefined ↔ a.isUndefined = true := by
  cases a with
  | int n => exact iff_of_false (fun h => by cases h) fun h => by cases h
  | real x =>
      cases x with
      | nan mark => exact iff_of_true rfl rfl
      | infinite s => exact iff_of_false (fun h => by cases h) fun h => by cases h
      | finite s m q hq => exact iff_of_false (fun h => by cases h) fun h => by cases h

/-- A number is equal to itself unless it is undefined. -/
theorem Number.eq_self (a : Number) : a.eq a = !a.isUndefined := by
  rw [eq, compare?_eq]
  cases hundefined : a.isUndefined with
  | true => rw [exact_undefined.2 hundefined]; rfl
  | false =>
      have hdefined : a.exact ≠ .undefined := fun h => by
        rw [exact_undefined.1 h] at hundefined
        cases hundefined
      rw [Exact.compare?_self hdefined]
      rfl

/-- Equality of numbers is symmetric. -/
theorem Number.eq_comm (a b : Number) : a.eq b = b.eq a := by
  have hsome : ∀ o : Option Ordering, (o.map Ordering.swap == some .eq) = (o == some .eq) := by
    intro o
    rcases o with - | - | - | - <;> rfl
  rw [eq, eq, compare?_eq, compare?_eq, Exact.compare?_swap a.exact b.exact, hsome]

/-- Quantities that are equal to one are equal. -/
theorem Exact.compare?_trans {a b c : Exact} (hab : compare? a b = some .eq)
    (hbc : compare? b c = some .eq) : compare? a c = some .eq := by
  cases a with
  | undefined => cases hab
  | infinite s =>
      cases b with
      | undefined => cases hab
      | dyadic k f => cases s <;> cases hab
      | infinite t =>
          cases c with
          | undefined => cases hbc
          | dyadic k f => cases t <;> cases hbc
          | infinite u =>
              have hst : s = t := by cases s <;> cases t <;> first | rfl | cases hab
              rw [hst]
              exact hbc
  | dyadic n e =>
      cases b with
      | undefined => cases hab
      | infinite t => cases t <;> cases hab
      | dyadic k f =>
          cases c with
          | undefined => cases hbc
          | infinite u => cases u <;> cases hbc
          | dyadic m g =>
              have hleft := (compareDyadic_eq n e k f).2.1 (Option.some.inj hab)
              have hright := (compareDyadic_eq k f m g).2.1 (Option.some.inj hbc)
              exact congrArg some ((compareDyadic_eq n e m g).2.2 (hleft.trans hright))

/-- Equality of numbers is transitive. -/
theorem Number.eq_trans {a b c : Number} (hab : a.eq b = true) (hbc : b.eq c = true) :
    a.eq c = true := by
  rw [eq, compare?_eq, beq_iff_eq] at hab hbc ⊢
  exact Exact.compare?_trans hab hbc

/-- A finite number is equal to the finite numbers of the same quantity. -/
theorem Number.eq_iff_value {a b : Number} (ha : a.isFinite = true) :
    a.eq b = true ↔ b.isFinite = true ∧ a.value = b.value := by
  obtain ⟨n, e, hn, hvalue⟩ := exact_value ha
  rw [eq, compare?_eq, hn, beq_iff_eq]
  cases hb : b.isFinite with
  | true =>
      obtain ⟨k, f, hk, hvalue'⟩ := exact_value hb
      rw [hk, hvalue, hvalue', Exact.compare?, Option.some_inj, (Exact.compareDyadic_eq n e k f).2]
      exact (and_iff_right rfl).symm
  | false =>
      refine iff_of_false (fun h => ?_) fun h => by cases h.1
      cases b with
      | int k => cases hb
      | real x =>
          cases x with
          | nan mark => cases h
          | infinite s => cases s <;> cases h
          | finite s m q hq => cases hb

/-! ## Values -/

namespace Value

mutual
/-- No number in a value is undefined. -/
def isDefined : Value → Bool
  | .number n => !n.isUndefined
  | .list vs => areDefined vs
  | _ => true
/-- No number in the items of a list is undefined. -/
def areDefined : List Value → Bool
  | [] => true
  | v :: vs => isDefined v && areDefined vs
end

/-- The kinds of values. -/
inductive Kind where
  | nothing
  | truth
  | number
  | word
  | list
deriving DecidableEq

/-- The kind of a value. -/
def kind : Value → Kind
  | .nothing => .nothing
  | .truth _ => .truth
  | .number _ => .number
  | .word _ => .word
  | .list _ => .list

/-- Equal values are of one kind. -/
theorem kind_of_same {a b : Value} (h : same a b = true) : a.kind = b.kind := by
  cases a <;> cases b <;> first | rfl | cases h

mutual
/-- A value is equal to itself unless an undefined number is in it. -/
theorem same_self : ∀ a : Value, same a a = a.isDefined
  | .number n => Number.eq_self n
  | .truth _ => BEq.rfl
  | .nothing => rfl
  | .word _ => BEq.rfl
  | .list vs => sameItems_self vs
/-- Items are equal to themselves exactly if no number in them is undefined. -/
theorem sameItems_self : ∀ vs : List Value, sameItems vs vs = areDefined vs
  | [] => rfl
  | v :: vs => by rw [sameItems, areDefined, same_self v, sameItems_self vs]
end

mutual
/-- Equality is symmetric. -/
theorem same_comm : ∀ a b : Value, same a b = same b a
  | .number x, b => by
      cases b with
      | number y => exact Number.eq_comm x y
      | _ => rfl
  | .truth x, b => by
      cases b with
      | truth y => exact BEq.comm
      | _ => rfl
  | .nothing, b => by cases b <;> rfl
  | .word s, b => by
      cases b with
      | word t => exact BEq.comm
      | _ => rfl
  | .list vs, b => by
      cases b with
      | list ws => exact sameItems_comm vs ws
      | _ => rfl
/-- Equality of the items of lists is symmetric. -/
theorem sameItems_comm : ∀ vs ws : List Value, sameItems vs ws = sameItems ws vs
  | [], [] | [], _ :: _ | _ :: _, [] => rfl
  | v :: vs, w :: ws => by
      rw [sameItems, sameItems, same_comm v w, sameItems_comm vs ws]
end

mutual
/-- Equality is transitive. -/
theorem same_trans : ∀ {a b c : Value}, same a b = true → same b c = true → same a c = true
  | .number x, b, c, hab, hbc => by
      cases b with
      | number y =>
          cases c with
          | number z => exact Number.eq_trans hab hbc
          | _ => cases hbc
      | _ => cases hab
  | .truth x, b, c, hab, hbc => by
      cases b with
      | truth y =>
          rw [show x = y from eq_of_beq hab]
          exact hbc
      | _ => cases hab
  | .nothing, b, c, hab, hbc => by
      cases b with
      | nothing => exact hbc
      | _ => cases hab
  | .word s, b, c, hab, hbc => by
      cases b with
      | word t =>
          rw [show s = t from eq_of_beq hab]
          exact hbc
      | _ => cases hab
  | .list us, b, c, hab, hbc => by
      cases b with
      | list vs =>
          cases c with
          | list ws => exact sameItems_trans hab hbc
          | _ => cases hbc
      | _ => cases hab
/-- Equality of the items of lists is transitive. -/
theorem sameItems_trans : ∀ {us vs ws : List Value}, sameItems us vs = true →
    sameItems vs ws = true → sameItems us ws = true
  | [], vs, ws, hab, hbc => by
      cases vs with
      | nil => exact hbc
      | cons => cases hab
  | u :: us, vs, ws, hab, hbc => by
      cases vs with
      | nil => cases hab
      | cons v vs =>
          cases ws with
          | nil => cases hbc
          | cons w ws =>
              rw [sameItems, Bool.and_eq_true] at hab hbc ⊢
              exact ⟨same_trans hab.1 hbc.1, sameItems_trans hab.2 hbc.2⟩
end

/-- Equal values are equal to the same values. -/
theorem same_congr {a b : Value} (h : same a b = true) (c : Value) : same a c = same b c := by
  have hback : same b a = true := by
    rw [same_comm b a]
    exact h
  exact Bool.eq_iff_iff.2 ⟨same_trans hback, same_trans h⟩

end Value

/-- Whether a value is an item of a list depends on what it is equal to only. -/
theorem Session.isMember_congr {a b : Value} (h : a.same b = true) (items : List Value) :
    isMember a (.list items) = isMember b (.list items) := by
  have hsame : (a.same ·) = (b.same ·) := funext (Value.same_congr h)
  rw [isMember, isMember, hsame]

/-- Among values in which no number is undefined, equality is an equivalence.
    Values of different kinds are never equal; a finite number is equal to the
    numbers, whole or real, that are exactly the same quantity; and equal values
    are members of the same lists. -/
theorem Value.same_equivalence :
    Equivalence (fun a b : {v : Value // v.isDefined = true} => same a.1 b.1 = true)
      ∧ (∀ a b : Value, same a b = true → a.kind = b.kind)
      ∧ (∀ m n : Number, m.isFinite = true →
          (same (.number m) (.number n) = true ↔ n.isFinite = true ∧ m.value = n.value))
      ∧ ∀ a b : Value, same a b = true → ∀ items : List Value,
          Session.apply .isMember [a, .list items] = Session.apply .isMember [b, .list items] := by
  refine ⟨⟨fun a => ?_, fun {a b} h => ?_, fun h h' => same_trans h h'⟩,
    fun a b h => kind_of_same h, fun m n hm => Number.eq_iff_value hm, fun a b h items => ?_⟩
  · rw [same_self]
    exact a.2
  · rw [same_comm]
    exact h
  · change (do return Value.truth (← Session.isMember a (.list items)))
      = (do return Value.truth (← Session.isMember b (.list items)))
    rw [Session.isMember_congr h]

/-- A list with a whole number and the list with the same number as a real one. -/
theorem Value.same_equivalence_nested : ∃ a b : Value,
    a = .list [.ofInt 1, .list [.truth true, .nothing]]
      ∧ b = .list [.number (.real .one), .list [.truth true, .nothing]]
      ∧ a.isDefined = true ∧ b.isDefined = true ∧ same a b = true ∧ same b a = true
      ∧ ∀ items : List Value,
          Session.apply .isMember [a, .list items] = Session.apply .isMember [b, .list items] := by
  refine ⟨_, _, rfl, rfl, rfl, rfl, rfl, ?_, ?_⟩
  · exact same_equivalence.1.symm (x := ⟨.list [.ofInt 1, .list [.truth true, .nothing]], rfl⟩)
      (y := ⟨.list [.number (.real .one), .list [.truth true, .nothing]], rfl⟩) rfl
  · exact same_equivalence.2.2.2 _ _ rfl

end TurtleLogo
