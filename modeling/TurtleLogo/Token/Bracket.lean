import TurtleLogo.Token.Basic

/-! # Brackets

    Blocks and list literals stay flat tokens until they are used.
    `splitClose` finds the partner of an opening bracket; `Nested.assemble`
    gives tokens their nesting back, closing at the end what is still open and
    keeping a closing bracket without a partner as an item. -/

namespace TurtleLogo

namespace Token

/-- The tokens up to the bracket that closes `depth + 1` open ones, and the
    tokens after it. -/
def splitClose : Nat → List Token → Option (List Token × List Token)
  | _, [] => none
  | 0, .closeBracket :: ts => some ([], ts)
  | depth + 1, .closeBracket :: ts =>
      (splitClose depth ts).map fun r => (.closeBracket :: r.1, r.2)
  | depth, .openBracket :: ts =>
      (splitClose (depth + 1) ts).map fun r => (.openBracket :: r.1, r.2)
  | depth, t :: ts => (splitClose depth ts).map fun r => (t :: r.1, r.2)

/-- The tokens inside a bracket that has just been opened, and those after its
    partner. -/
def inside (ts : List Token) : Except Fault (List Token × List Token) :=
  match splitClose 0 ts with
  | some r => .ok r
  | none => .error .unclosedBracket

/-- The tokens from a place on.  A negative place counts from the end, and
    after the end all tokens follow once more. -/
def tokensFrom (ts : List Token) (index : Int) : Except Fault (List Token) :=
  if 0 ≤ index then .ok (ts.drop index.toNat)
  else if index + ts.length < 0 then .error .noSuchIndex
  else .ok (ts.drop (index + ts.length).toNat ++ ts)

/-- The place of the partner of a bracket opened just before the given place. -/
def findClose (ts : List Token) (index : Int) : Except Fault Int := do
  let tail ← tokensFrom ts index
  let r ← inside tail
  .ok (index + r.1.length)

/-- The tokens of the block that must come next, and those after it. -/
def block (place : BlockPlace) : List Token → Except Fault (List Token × List Token)
  | .openBracket :: ts => inside ts
  | _ => .error (.missingBlock place)

end Token

/-- Tokens with their nesting. -/
inductive Nested where
  | leaf (t : Token)
  | group (items : List Nested)

namespace Nested

/-- Closes all groups that are still open, innermost first. -/
def closeAll : List (List Nested) → List Nested → List Nested
  | [], current => current.reverse
  | outer :: stack, current => closeAll stack (.group current.reverse :: outer)

/-- Assembles tokens, given the items read so far in the current group and in
    those around it, each in reverse. -/
def assembleFrom : List (List Nested) → List Nested → List Token → List Nested
  | stack, current, [] => closeAll stack current
  | stack, current, .openBracket :: ts => assembleFrom (current :: stack) [] ts
  | outer :: stack, current, .closeBracket :: ts =>
      assembleFrom stack (.group current.reverse :: outer) ts
  | stack, current, t :: ts => assembleFrom stack (.leaf t :: current) ts

/-- A token that is no bracket is an item. -/
theorem assembleFrom_leaf {t : Token} (hopen : t ≠ .openBracket) (hclose : t ≠ .closeBracket)
    (stack : List (List Nested)) (current : List Nested) (ts : List Token) :
    assembleFrom stack current (t :: ts) = assembleFrom stack (.leaf t :: current) ts := by
  cases t with
  | openBracket => exact absurd rfl hopen
  | closeBracket => exact absurd rfl hclose
  | _ => cases stack <;> rfl

/-- Gives tokens their nesting back. -/
def assemble (ts : List Token) : List Nested :=
  assembleFrom [] [] ts

mutual
/-- The value of one item of a list literal, where `get` knows the variables. -/
def value (get : Text → Except Fault Value) : Nested → Except Fault Value
  | .leaf (.varref name) => get name
  | .leaf t => .ok t.value
  | .group items => do
      let vs ← values get items
      .ok (.list vs)
/-- The values of the items of a list literal, in order. -/
def values (get : Text → Except Fault Value) : List Nested → Except Fault (List Value)
  | [] => .ok []
  | n :: ns => do
      let v ← value get n
      let vs ← values get ns
      .ok (v :: vs)
end

end Nested

end TurtleLogo
