import TurtleLogo.Session.Expression

/-! # Statements

    A statement starts with a word: a form, a command, or a procedure.  It
    gives back the tokens after it, or a signal, which every block hands up
    until a procedure call takes delivery.  Loops look for a stop request
    before every pass. -/

namespace TurtleLogo.Session

/-- A statement that contains others ends as they do, or else goes on with the
    tokens after it. -/
def continueWith (flow : Flow) (rest : List Token) : Flow :=
  match flow with
  | .signal s => .signal s
  | .done _ => .done rest

/-- A block that must come next. -/
def blockAt (place : BlockPlace) (ts : List Token) : SessionM (List Token × List Token) :=
  attempt (Token.block place ts)

/-! ## Definitions -/

/-- The parameters at the start of some tokens, and the tokens after them. -/
def takeParams : List Token → List Text × List Token
  | .varref name :: ts =>
      let r := takeParams ts
      (Text.upper name :: r.1, r.2)
  | ts => ([], ts)

/-- The tokens up to the `END` that closes `depth + 1` definitions, and the
    tokens after it. -/
def splitEnd : Nat → List Token → Option (List Token × List Token)
  | _, [] => none
  | depth, .word name :: ts =>
      if name == "TO" then (splitEnd (depth + 1) ts).map fun r => (.word name :: r.1, r.2)
      else if name == "END" then
        match depth with
        | 0 => some ([], ts)
        | depth + 1 => (splitEnd depth ts).map fun r => (.word name :: r.1, r.2)
      else (splitEnd depth ts).map fun r => (.word name :: r.1, r.2)
  | depth, t :: ts => (splitEnd depth ts).map fun r => (t :: r.1, r.2)

/-- `TO`: defines a procedure. -/
def defineProcedure (ts : List Token) : SessionM Flow := do
  match ts with
  | .word name :: ts => do
      if Vocabulary.isBuiltin name then throw (.builtinName name)
      let (params, ts) := takeParams ts
      match splitEnd 0 ts with
      | none => throw (.missingEnd name)
      | some (body, rest) => do
          changeStore (·.define ⟨name, params, body⟩)
          pure (.done rest)
  | _ => throw .namelessProcedure

/-! ## Loops -/

/-- The passes of `REPEAT` that are left, the next with the given count. -/
def repeatPasses (E : Engine) (body : List Token) : Nat → Nat → SessionM (Option Signal)
  | 0, _ => pure none
  | left + 1, count => do
      if ← stopRequested then pure none
      else
        changeStore fun s => { s with repcount := some count }
        match ← E.block body with
        | .signal s => pure (some s)
        | .done _ => repeatPasses E body left (count + 1)

/-- Does something that may change the count of the innermost `REPEAT`, which
    is then what it was. -/
def counting {β : Type} (act : SessionM β) : SessionM β := do
  let s ← store
  afterwards act fun w => { w with store := { w.store with repcount := s.repcount } }

/-- `REPEAT`: runs a block a number of times. -/
def repeatForm (E : Engine) (ts : List Token) : SessionM Flow := do
  let (count, ts) ← E.expression ts
  let (body, rest) ← blockAt .repeatBody ts
  let n ← number count "REPEAT"
  let times ← compute n.floor
  let ended ← counting (repeatPasses E body times.toNat 1)
  match ended with
  | some s => pure (.signal s)
  | none => pure (.done rest)

/-- The passes of `WHILE`, at most `patience` of them. -/
def whilePasses (E : Engine) (test body : List Token) : Nat → SessionM (Option Signal)
  | 0 => do
      if ← stopRequested then pure none else throw .outOfPatience
  | patience + 1 => do
      if ← stopRequested then pure none
      else
        let (v, _) ← condition E test
        if !v.isTruthy then pure none
        else
          match ← E.block body with
          | .signal s => pure (some s)
          | .done _ => whilePasses E test body patience

/-- `WHILE`: runs a block as long as a condition holds. -/
def whileForm (E : Engine) (patience : Nat) (ts : List Token) : SessionM Flow := do
  let (test, ts) ← blockAt .whileCondition ts
  let (body, rest) ← blockAt .whileBody ts
  match ← whilePasses E test body patience with
  | some s => pure (.signal s)
  | none => pure (.done rest)

/-- The range of a `FOR` loop. -/
structure LoopRange where
  name : Text
  start : Number
  finish : Number
  step : Number

/-- The value of the loop variable in the pass with the given number. -/
def LoopRange.valueAt (r : LoopRange) (pass : Nat) : Except ArithmeticFault Number := do
  let d ← Number.mul (.int pass) r.step
  r.start.add d

/-- Whether a value is past the end. -/
def LoopRange.isPast (r : LoopRange) (v : Number) : Bool :=
  if Number.lt (.int 0) r.step then r.finish.lt v else v.lt r.finish

/-- The passes of `FOR`, at most `patience` of them, from the given one on. -/
def forPasses (E : Engine) (r : LoopRange) (body : List Token) :
    Nat → Nat → SessionM (Option Signal)
  | 0, _ => do
      if ← stopRequested then pure none else throw .outOfPatience
  | patience + 1, pass => do
      if ← stopRequested then pure none
      else
        let v ← compute (r.valueAt pass)
        let v ← fresh v
        if r.isPast v then pure none
        else
          changeStore (·.bindInnermost r.name (.number v))
          match ← E.block body with
          | .signal s => pure (some s)
          | .done _ => forPasses E r body patience (pass + 1)

/-- All passes of a `FOR` loop, in a frame of their own. -/
def forLoop (E : Engine) (patience : Nat) (r : LoopRange) (body : List Token) :
    SessionM (Option Signal) :=
  inFrame [] (forPasses E r body patience 0)

/-- The name of the loop variable at the head of a control list of at least
    three tokens. -/
def loopName? : List Token → Option Text
  | .word name :: _ :: _ :: _ => some name
  | .quoted name :: _ :: _ :: _ => some name
  | _ => none

/-- The step of a control list, which is one if nothing is left for it. -/
def stepValue (E : Engine) (more : List Token) : SessionM Value :=
  if more.isEmpty then pure (.ofInt 1)
  else do
    let (v, _) ← E.expression more
    pure v

/-- The range that the values of a control list make. -/
def loopRange (name : Text) (start finish step : Value) : SessionM LoopRange := do
  let start ← number start "FOR"
  let finish ← number finish "FOR"
  let step ← number step "FOR"
  if step.isZero then throw .zeroStep
  pure ⟨Text.upper name, start, finish, step⟩

/-- `FOR`: runs a block for each number of a range, in a frame of its own. -/
def forForm (E : Engine) (patience : Nat) (ts : List Token) : SessionM Flow := do
  let (control, ts) ← blockAt .forControl ts
  match loopName? control with
  | none => throw .shortControl
  | some name => do
      let (body, rest) ← blockAt .forBody ts
      let (start, more) ← E.expression control.tail
      let (finish, more) ← E.expression more
      let step ← stepValue E more
      let range ← loopRange name start finish step
      let ended ← forLoop E patience range body
      match ended with
      | some s => pure (.signal s)
      | none => pure (.done rest)

/-! ## The other forms -/

/-- `IF`. -/
def ifForm (E : Engine) (ts : List Token) : SessionM Flow := do
  let (v, ts) ← condition E ts
  let (body, rest) ← blockAt .ifBody ts
  if v.isTruthy then
    let flow ← E.block body
    pure (continueWith flow rest)
  else pure (.done rest)

/-- `IFELSE`. -/
def ifElseForm (E : Engine) (ts : List Token) : SessionM Flow := do
  let (v, ts) ← condition E ts
  let (yes, ts) ← blockAt .ifelseBody ts
  let (no, rest) ← blockAt .ifelseBody ts
  let flow ← E.block (if v.isTruthy then yes else no)
  pure (continueWith flow rest)

/-- Fills what something draws; if that fails, nothing is filled. -/
def filling {β : Type} (act : SessionM β) : SessionM β := do
  onCanvas Canvas.beginFill
  wrapUp act (onCanvas Canvas.endFill) (onCanvas Canvas.cancelFill)

/-- `FILLED`: fills what a block draws. -/
def filledForm (E : Engine) (ts : List Token) : SessionM Flow := do
  let (body, rest) ← blockAt .filledBody ts
  let flow ← filling (E.block body)
  pure (continueWith flow rest)

/-- Does something with another turtle current, then gives the turtle back. -/
def asking {β : Type} (who : Value) (act : SessionM β) : SessionM β := do
  let before := (← get).canvas.scene.current
  onCanvas (Canvas.tell who)
  wrapUp act (onCanvas (Canvas.tell before)) (onCanvas (Canvas.tell before))

/-- `ASK`: runs a block with another turtle current. -/
def askForm (E : Engine) (ts : List Token) : SessionM Flow := do
  let (who, ts) ← E.expression ts
  let (body, rest) ← blockAt .askBody ts
  let flow ← asking who (E.block body)
  pure (continueWith flow rest)

/-- Runs a form from the tokens after its name. -/
def runForm (E : Engine) (patience : Nat) (form : Form) (ts : List Token) : SessionM Flow := do
  match form with
  | .to => defineProcedure ts
  | .endTo => throw .strayEnd
  | .repeatTimes => repeatForm E ts
  | .ifThen => ifForm E ts
  | .ifElse => ifElseForm E ts
  | .forLoop => forForm E patience ts
  | .whileLoop => whileForm E patience ts
  | .stop => pure (.signal .stop)
  | .output => do
      let (v, _) ← E.expression ts
      pure (.signal (.output v))
  | .filled => filledForm E ts
  | .ask => askForm E ts

/-- Runs the statement that starts with the given word. -/
def wordStatement (E : Engine) (patience : Nat) (name : Text) (ts : List Token) :
    SessionM Flow := do
  match Form.ofName? name with
  | some form => runForm E patience form ts
  | none =>
      match Command.ofName? name with
      | some c => do
          let (args, rest) ← arguments E c.arity ts
          perform E.block c args
          pure (.done rest)
      | none => do
          let s ← store
          match s.procedure? name with
          | some p => do
              let (args, rest) ← arguments E p.params.length ts
              let _ ← invoke E p args
              pure (.done rest)
          | none =>
              if (Function.ofName? name).isSome || (Reader.ofName? name).isSome then
                throw (.idleValue name)
              else
                let names ← knownNames
                throw (Spelling.unknownCommand name names)

/-- Runs the statement at the start of some tokens; a token that starts none
    is passed over. -/
def statement (E : Engine) (patience : Nat) : List Token → SessionM Flow
  | [] => pure (.done [])
  | .word name :: ts => wordStatement E patience name ts
  | _ :: ts => pure (.done ts)

/-- Runs statements, each by `one`, until the tokens run out, a signal comes up,
    or someone asks to stop; at most `n` of them, and every statement uses up a
    token. -/
def statements (one : List Token → SessionM Flow) : Nat → List Token → SessionM Flow
  | 0, ts => pure (.done ts)
  | _, [] => pure (.done [])
  | n + 1, ts => do
      if ← stopRequested then pure (.done ts)
      else
        match ← one ts with
        | .signal s => pure (.signal s)
        | .done rest => do
            onPacer Pacer.checkpoint
            statements one n rest

end TurtleLogo.Session
