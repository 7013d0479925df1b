import TurtleLogo.Spelling
import TurtleLogo.Token.Bracket
import TurtleLogo.Session.Command

/-! # Expressions

    Reading and evaluating are one: a function takes tokens and gives back a
    value and the tokens after the expression.  From the loosest to the
    tightest an expression is made of sums, products, unary minus and single
    values; comparisons belong to conditions, which stand in `IF`, `IFELSE`
    and `WHILE` and between parentheses.  Everything that contains another
    expression or a procedure body goes through an `Engine`, which is the
    meaning of smaller things. -/

namespace TurtleLogo.Session

/-- A value and the tokens after it. -/
abbrev Reading := Value × List Token

/-- The words that a spelling suggestion may propose. -/
def knownNames : SessionM (List Text) := do
  let s ← store
  pure (Vocabulary.names ++ s.procedures.map (·.name))

/-- The result of an arithmetic sign. -/
def arithmetic (op : Operator) (a b : Value) : SessionM Value := do
  let x ← number a op.symbol
  let y ← number b op.symbol
  match op with
  | .plus => result (x.add y)
  | .minus => result (x.sub y)
  | .times => result (x.mul y)
  | .over => do
      if y.isZero then throw .divideByZero
      result (x.div y)

/-- Goes on with a chain of operations of one level, at most `n` of them. -/
def chain (level : Operator → Bool) (operand : List Token → SessionM Reading) :
    Nat → Value → List Token → SessionM Reading
  | n + 1, left, .operator op :: ts => do
      if level op then
        let (right, rest) ← operand ts
        let v ← arithmetic op left right
        chain level operand n v rest
      else pure (left, .operator op :: ts)
  | _, v, ts => pure (v, ts)

/-- Whether some tokens go on with an operation of one level. -/
def goesOn (level : Operator → Bool) : List Token → Bool
  | .operator op :: _ => level op
  | _ => false

/-- Operations of one level, grouped to the left. -/
def operations (level : Operator → Bool) (operand : List Token → SessionM Reading)
    (ts : List Token) : SessionM Reading := do
  let (v, rest) ← operand ts
  if goesOn level rest then chain level operand rest.length v rest else pure (v, rest)

/-- Evaluates as many expressions as a word has inputs. -/
def arguments (E : Engine) : Nat → List Token → SessionM (List Value × List Token)
  | 0, ts => pure ([], ts)
  | n + 1, ts => do
      let (v, rest) ← E.expression ts
      let (vs, rest) ← arguments E n rest
      pure (v :: vs, rest)

/-- Closes the innermost frame, which must be the one that was opened on top
    of the given number of others. -/
def closeFrame (below : Nat) : SessionM Unit := do
  let s ← store
  if s.locals.isEmpty then throw .noSuchIndex
  changeStore (·.pop)
  if s.locals.length ≠ below + 1 then throw .strayFrame

/-- Does something in a frame of its own, which is closed however that ends. -/
def inFrame {β : Type} (f : Frame) (act : SessionM β) : SessionM β := do
  let s ← store
  changeStore (·.push f)
  wrapUp act (closeFrame s.locals.length) (closeFrame s.locals.length)

/-- Runs the body of a procedure in a frame of its own. -/
def invoke (E : Engine) (p : Procedure) (args : List Value) : SessionM (Option Signal) := do
  let flow ← inFrame (Frame.ofBindings (p.params.zip args)) (E.block p.body)
  match flow with
  | .signal s => pure (some s)
  | .done _ => pure none

/-- One expression, or two with a comparison between them. -/
def condition (E : Engine) (ts : List Token) : SessionM Reading := do
  let (left, rest) ← E.expression ts
  match rest with
  | .comparison c :: rest => do
      let (right, rest) ← E.expression rest
      let b ← attempt (Value.compare c left right)
      pure (.truth b, rest)
  | rest => pure (left, rest)

/-- The tokens after a closing parenthesis that must come next. -/
def closeParen : List Token → SessionM (List Token)
  | .closeParen :: ts => pure ts
  | _ => throw .unclosedParen

/-- The expressions up to a closing parenthesis, at most `n` of them. -/
def items (E : Engine) : Nat → List Token → SessionM (List Value × List Token)
  | 0, ts => pure ([], ts)
  | _, [] => pure ([], [])
  | _, .closeParen :: ts => pure ([], .closeParen :: ts)
  | n + 1, ts => do
      let (v, rest) ← E.expression ts
      let (vs, rest) ← items E n rest
      pure (v :: vs, rest)

/-- A parenthesised condition. -/
def grouped (E : Engine) (ts : List Token) : SessionM Reading := do
  let (v, rest) ← condition E ts
  let rest ← closeParen rest
  pure (v, rest)

/-- What follows an opening parenthesis: a function with any number of inputs,
    or a condition. -/
def parenthesised (E : Engine) (ts : List Token) : SessionM Reading := do
  match ts with
  | .word name :: rest =>
      match Variadic.ofName? name with
      | some f => do
          let (vs, rest) ← items E rest.length rest
          let v ← applyVariadic f vs
          let rest ← closeParen rest
          pure (v, rest)
      | none => grouped E ts
  | ts => grouped E ts

/-- The question of a reader: the quoted word after it, or its own. -/
def question (r : Reader) : List Token → Text × List Token
  | .quoted prompt :: ts => (prompt, ts)
  | ts => (r.prompt, ts)

/-- The value that a word stands for, and the tokens after its inputs. -/
def wordValue (E : Engine) (name : Text) (ts : List Token) : SessionM Reading := do
  match Function.ofName? name with
  | some f => do
      let (args, rest) ← arguments E f.arity ts
      let v ← apply f args
      pure (v, rest)
  | none =>
      match Reader.ofName? name with
      | some r => do
          let (prompt, rest) := question r ts
          let reply ← ask prompt
          match r with
          | .readWord => pure (.word reply, rest)
          | .readList => do
              let vs ← receiveAll (Value.ofReply reply)
              pure (.list vs, rest)
      | none => do
          let s ← store
          match s.procedure? name with
          | some p => do
              let (args, rest) ← arguments E p.params.length ts
              match ← invoke E p args with
              | some (.output v) => pure (v, rest)
              | _ => pure (.nothing, rest)
          | none =>
              if (Command.ofName? name).isSome || (Form.ofName? name).isSome then
                throw (.commandAsValue name)
              else
                let names ← knownNames
                throw (Spelling.unknownFunction name names)

/-- A single value. -/
def primary (E : Engine) : List Token → SessionM Reading
  | [] => throw .outOfWords
  | .number n :: ts => pure (.number n, ts)
  | .quoted s :: ts => pure (.word s, ts)
  | .varref name :: ts => do
      let s ← store
      let v ← attempt (s.get name)
      pure (v, ts)
  | .openBracket :: ts => do
      let (inner, rest) ← attempt (Token.inside ts)
      let s ← store
      let vs ← attempt (Nested.values s.get (Nested.assemble inner))
      pure (.list vs, rest)
  | .openParen :: ts => parenthesised E ts
  | .word name :: ts => wordValue E name ts
  | t :: _ => throw (.notUnderstood t.spelling)

/-- A single value, perhaps with minus signs before it. -/
def unary (E : Engine) : List Token → SessionM Reading
  | .operator .minus :: ts => do
      let (v, rest) ← unary E ts
      let n ← number v "-"
      let m ← result (.ok n.neg)
      pure (m, rest)
  | ts => primary E ts

/-- The signs that bind tighter. -/
def isFactorSign : Operator → Bool
  | .times | .over => true
  | _ => false

/-- The signs that bind looser. -/
def isTermSign : Operator → Bool
  | .plus | .minus => true
  | _ => false

/-- A whole expression. -/
def sum (E : Engine) (ts : List Token) : SessionM Reading :=
  operations isTermSign (operations isFactorSign (unary E)) ts

end TurtleLogo.Session
