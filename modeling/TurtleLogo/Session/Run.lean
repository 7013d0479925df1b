import TurtleLogo.Session.Statement

/-! # Runs

    The meaning of expressions and blocks at a given depth of nesting, and the
    ways in which a host uses a session.  Expressions contain expressions and
    procedure bodies, and bodies contain statements; a step down from a block
    uses up three units of depth and one from an expression seven, and a
    program that goes deeper than there is depth has procedures that call each
    other without end. -/

namespace TurtleLogo

/-- How far a run may go: how deep it may nest, and how many passes a single
    `WHILE` or `FOR` may make. -/
structure Limits where
  depth : Nat
  patience : Nat

/-- The limits under which programs run. -/
def Limits.usual : Limits := ⟨50000, 4611686018427387904⟩

namespace Session

mutual
/-- The value of an expression, at a given depth. -/
def expressionAt (patience : Nat) : Nat → List Token → SessionM Reading
  | depth + 7, ts => sum ⟨expressionAt patience depth, blockAtDepth patience depth⟩ ts
  | _, _ => throw .depthExceeded
/-- The run of a block, at a given depth. -/
def blockAtDepth (patience : Nat) : Nat → List Token → SessionM Flow
  | depth + 3, ts =>
      let E : Engine := ⟨expressionAt patience depth, blockAtDepth patience depth⟩
      statements (statement E patience) ts.length ts
  | _, _ => throw .depthExceeded
end

/-- The meanings of expressions and blocks under the given limits. -/
def engine (limits : Limits) : Engine :=
  ⟨expressionAt limits.patience limits.depth, blockAtDepth limits.patience limits.depth⟩

/-- Runs a program; a fault is the caller's. -/
def run (limits : Limits) (code : Text) : SessionM Unit :=
  runWith (engine limits).block code

/-- Runs a program, tells the host about a friendly fault, and answers whether
    all went well. -/
def execute (limits : Limits) (code : Text) : SessionM Bool :=
  executeWith (engine limits).block code

/-- Forgets every name and starts the drawing over. -/
def reset : SessionM Unit := do
  modify fun w => { w with store := .empty, printed := #[] }
  onCanvas Canvas.reset

/-- The two grammars of a text that is to be evaluated. -/
inductive Grammar where
  | expression
  | condition
deriving DecidableEq

/-- A value with the number of tokens that it took and the number there are. -/
structure Evaluation where
  value : Value
  used : Nat
  total : Nat

/-- Evaluates the expression or condition at the start of a text. -/
def evaluate (limits : Limits) (grammar : Grammar) (source : Text) : SessionM Evaluation := do
  let ts ← attempt (Token.tokenize source)
  let E := engine limits
  let (v, rest) ←
    match grammar with
    | .expression => E.expression ts
    | .condition => condition E ts
  pure ⟨v, ts.length - rest.length, ts.length⟩

end Session

end TurtleLogo
