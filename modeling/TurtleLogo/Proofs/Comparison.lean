import TurtleLogo.Proofs.Equality
import TurtleLogo.Proofs.Rest

/-! # Comparisons

    Two numbers or two words stand to each other in one way at most, less, equal
    or greater (`Value.standing`), and each of the six comparisons is a test of
    that (`Value.compare_eq`).  So the comparisons agree with each other
    (`Value.comparisons_agree`), with one exception.

    An undefined number stands to no number.  It is not less, equal or greater, but
    `<=` asks only whether the one is not greater than the other and `>=` whether
    it is not less, so both are true of it (`Session.undefined_at_most`). -/

namespace TurtleLogo

/-! ## The order of texts -/

instance : Std.Asymm (fun c d : CodePoint => c < d) :=
  ⟨fun _ _ => Nat.lt_asymm⟩

instance : Std.Antisymm (fun c d : CodePoint => ¬c < d) :=
  ⟨fun _ _ h h' => CodePoint.eq_of_toNat (Nat.le_antisymm (Nat.not_lt.1 h') (Nat.not_lt.1 h))⟩

theorem Text.lt_asymm {s t : Text} (h : s < t) : ¬t < s := List.lt_asymm h

theorem Text.eq_of_not_lt {s t : Text} (h : ¬s < t) (h' : ¬t < s) : s = t :=
  List.le_antisymm h' h

/-! ## How two values stand to each other -/

theorem Number.compare?_swap (a b : Number) : compare? b a = (compare? a b).map Ordering.swap := by
  rw [compare?_eq, compare?_eq, Exact.compare?_swap]

/-- Quantities have no order exactly if one is undefined. -/
theorem Exact.compare?_eq_none {a b : Exact} :
    compare? a b = none ↔ a = .undefined ∨ b = .undefined := by
  cases a <;> cases b <;> simp [compare?]

/-- Two numbers have no order exactly if one is undefined. -/
theorem Number.compare?_eq_none {a b : Number} :
    compare? a b = none ↔ a.isUndefined = true ∨ b.isUndefined = true := by
  rw [compare?_eq, Exact.compare?_eq_none, exact_undefined, exact_undefined]

/-- What a comparison asks of the way in which two values stand to each other. -/
def Comparison.test : Comparison → Option Ordering → Bool
  | .eq, o => o == some .eq
  | .ne, o => o != some .eq
  | .lt, o => o == some .lt
  | .gt, o => o == some .gt
  | .le, o => o != some .gt
  | .ge, o => o != some .lt

namespace Value

/-- Two numbers or two words. -/
inductive Comparable : Value → Value → Prop
  | numbers (x y : Number) : Comparable (.number x) (.number y)
  | words (s t : Text) : Comparable (.word s) (.word t)

/-- How a word stands to another. -/
def wordOrder (s t : Text) : Ordering :=
  if s < t then .lt else if t < s then .gt else .eq

/-- How a value stands to another. -/
def standing : Value → Value → Option Ordering
  | .number x, .number y => x.compare? y
  | .word s, .word t => some (wordOrder s t)
  | _, _ => none

/-- An undefined number. -/
def isUndefined : Value → Bool
  | .number n => n.isUndefined
  | _ => false

/-- A comparison of two values is true. -/
def Holds (c : Comparison) (a b : Value) : Prop := compare c a b = .ok true

variable {a b : Value}

/-- Words stand as equal exactly if they are the same. -/
theorem wordOrder_eq {s t : Text} : wordOrder s t = .eq ↔ s = t := by
  rw [wordOrder]
  constructor
  · intro h
    split at h
    · cases h
    · split at h
      · cases h
      · exact Text.eq_of_not_lt ‹_› ‹_›
  · rintro rfl
    have hnot : ¬s < s := fun h => Text.lt_asymm h h
    rw [if_neg hnot, if_neg hnot]

/-- How words stand to each other turns around with them. -/
theorem wordOrder_swap (s t : Text) : wordOrder t s = (wordOrder s t).swap := by
  rw [wordOrder, wordOrder]
  by_cases hst : s < t
  · rw [if_pos hst, if_neg (Text.lt_asymm hst), if_pos hst]
    rfl
  · by_cases hts : t < s
    · rw [if_pos hts, if_neg hst, if_pos hts]
      rfl
    · rw [if_neg hst, if_neg hts, if_neg hts, if_neg hst]
      rfl

theorem Comparable.symm (h : Comparable a b) : Comparable b a := by
  cases h with
  | numbers x y => exact .numbers y x
  | words s t => exact .words t s

/-- How they stand to each other turns around with them. -/
theorem Comparable.standing_swap (h : Comparable a b) :
    standing b a = (standing a b).map Ordering.swap := by
  cases h with
  | numbers x y => exact Number.compare?_swap x y
  | words s t => exact congrArg some (wordOrder_swap s t)

/-- Values that can be compared stand in no way exactly if one is undefined. -/
theorem Comparable.standing_none (h : Comparable a b) :
    standing a b = none ↔ a.isUndefined = true ∨ b.isUndefined = true := by
  cases h with
  | numbers x y => exact Number.compare?_eq_none
  | words s t => simp [standing, isUndefined]

/-- Values that can be compared are equal exactly if they stand as equal. -/
theorem Comparable.same_eq (h : Comparable a b) : same a b = (standing a b == some .eq) := by
  cases h with
  | numbers x y => rfl
  | words s t =>
      have hiff : (s == t) = true ↔ (some (wordOrder s t) == some Ordering.eq) = true := by
        rw [beq_iff_eq, beq_iff_eq, Option.some_inj, wordOrder_eq]
      exact Bool.eq_iff_iff.2 hiff

/-- The sign of an order tells less from greater, and neither from the rest. -/
theorem Comparable.order_eq (h : Comparable a b) :
    order a b = .ok (match standing a b with
      | some .lt => -1
      | some .gt => 1
      | _ => 0) := by
  cases h with
  | numbers x y => rfl
  | words s t =>
      rw [order, standing, wordOrder]
      by_cases hst : s < t
      · rw [if_pos hst, if_pos hst]
      · by_cases hts : t < s
        · rw [if_neg hst, if_pos hts, if_neg hst, if_pos hts]
        · rw [if_neg hst, if_neg hts, if_neg hst, if_neg hts]

/-- Only numbers and words have an order. -/
theorem comparable_of_order {s : Int} (h : order a b = .ok s) : Comparable a b := by
  unfold order at h
  split at h
  · exact .numbers _ _
  · exact .words _ _
  · obtain ⟨left, -, h⟩ := Except.bind_eq_ok h
    obtain ⟨right, -, h⟩ := Except.bind_eq_ok h
    cases h

/-- Only such values have an order. -/
theorem comparable_of_lt {r : Bool} (h : compare .lt a b = .ok r) : Comparable a b := by
  obtain ⟨s, hs, -⟩ := Except.bind_eq_ok h
  exact comparable_of_order hs

/-- A comparison of numbers or words is a test of how they stand to each other. -/
theorem Comparable.compare_eq (h : Comparable a b) (c : Comparison) :
    compare c a b = .ok (c.test (standing a b)) := by
  cases c with
  | eq => exact congrArg Except.ok h.same_eq
  | ne => exact congrArg (fun r => Except.ok !r) h.same_eq
  | lt | gt | le | ge =>
      rw [compare, h.order_eq]
      rcases standing a b with - | - | - | - <;> rfl

/-- A comparison of them is a test of how they stand. -/
theorem Comparable.holds_iff (h : Comparable a b) (c : Comparison) :
    Holds c a b ↔ c.test (standing a b) = true := by
  rw [Holds, h.compare_eq, Except.ok.injEq]

/-- The comparisons of two values that have an order agree with each other, up to
    undefined numbers: `<=` is true exactly if `<` or `=` is, or one of the values
    is undefined, and so is `>=` of `>` and `=`; `<>` is true exactly if `=` is
    not, and `<` if `>` is with the values exchanged; and of `<`, `=` and `>` at
    most one is true. -/
theorem comparisons_agree (h : ∃ r, compare .lt a b = .ok r) :
    Comparable a b
      ∧ (∀ c, ∃ r, compare c a b = .ok r)
      ∧ (Holds .le a b ↔
          (Holds .lt a b ∨ Holds .eq a b) ∨ a.isUndefined = true ∨ b.isUndefined = true)
      ∧ (Holds .ge a b ↔
          (Holds .gt a b ∨ Holds .eq a b) ∨ a.isUndefined = true ∨ b.isUndefined = true)
      ∧ (Holds .ne a b ↔ ¬Holds .eq a b)
      ∧ (Holds .lt a b ↔ Holds .gt b a)
      ∧ ¬(Holds .lt a b ∧ Holds .eq a b)
      ∧ ¬(Holds .eq a b ∧ Holds .gt a b)
      ∧ ¬(Holds .lt a b ∧ Holds .gt a b) := by
  obtain ⟨r, hr⟩ := h
  have hab := comparable_of_lt hr
  refine ⟨hab, fun c => ⟨_, hab.compare_eq c⟩, ?_⟩
  rw [← hab.standing_none, hab.holds_iff, hab.holds_iff, hab.holds_iff, hab.holds_iff,
    hab.holds_iff, hab.holds_iff, hab.symm.holds_iff, hab.standing_swap]
  generalize standing a b = o
  rcases o with - | - | - | - <;> decide

/-- A whole number that is one more than a real one, which has no digit for that. -/
theorem comparisons_agree_exact : ∃ a b : Value,
    a = .ofInt 9007199254740993 ∧ b = .number (.real (Binary64.ofInt 9007199254740992))
      ∧ compare .lt a b = .ok false ∧ Holds .gt a b ∧ Holds .ge a b ∧ ¬Holds .eq a b := by
  refine ⟨_, _, rfl, rfl, rfl, rfl, ?_⟩
  obtain ⟨-, -, -, hge, -, -, -, hapart, -⟩ := comparisons_agree
    (a := .ofInt 9007199254740993) (b := .number (.real (Binary64.ofInt 9007199254740992)))
    ⟨false, rfl⟩
  exact ⟨hge.2 (.inl (.inl rfl)), fun heq => hapart ⟨heq, rfl⟩⟩

end Value

namespace Session

/-- The value of infinity less infinity. -/
def infinityLessItself (w : World) : Option Value :=
  match (engine ⟨40, 5⟩).expression [.quoted "inf", .operator .minus, .quoted "inf"] w with
  | .ok (v, []) _ => some v
  | _ => none

/-- A program can compute an undefined number.  It has an order with the number one
    as far as the comparisons tell, and is at most one, but neither less than it nor
    equal to it. -/
theorem undefined_at_most : ∃ w v, quietSession = .ok w ∧ infinityLessItself w = some v
    ∧ (∃ r, Value.compare .lt v (.ofInt 1) = .ok r) ∧ Value.Holds .le v (.ofInt 1)
    ∧ ¬(Value.Holds .lt v (.ofInt 1) ∨ Value.Holds .eq v (.ofInt 1)) := by
  obtain ⟨w, hnew, htried⟩ := quietSession_of
    (P := fun w => (infinityLessItself w).any Value.isUndefined) (by decide +kernel)
  obtain ⟨v, hvalue, hundefined⟩ := (Option.any_eq_true _ _).1 htried
  have hcomparable : v.Comparable (.ofInt 1) := by
    cases v with
    | number n => exact .numbers n (.int 1)
    | _ => cases hundefined
  have hnone : v.standing (.ofInt 1) = none := hcomparable.standing_none.2 (.inl hundefined)
  refine ⟨w, v, hnew, hvalue, ⟨_, hcomparable.compare_eq .lt⟩, ?_⟩
  rw [hcomparable.holds_iff, hcomparable.holds_iff, hcomparable.holds_iff, hnone]
  decide

end Session

end TurtleLogo
