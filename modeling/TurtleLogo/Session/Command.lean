import TurtleLogo.Vocabulary
import TurtleLogo.Session.Function
import TurtleLogo.Token.Scan
import TurtleLogo.Session.Event

/-! # The built-in commands

    What each command does with its inputs.  `emit` sends a text to the host,
    who may react to it; `runWith` is how any run goes, given the meaning of
    blocks, so that a host may also ask for one while nothing is running. -/

namespace TurtleLogo

/-- What ends a block early and travels up to the procedure call. -/
inductive Signal where
  | stop
  | output (v : Value)

/-- The signal as debugging output shows it. -/
def Signal.listing : Signal → Except ArithmeticFault Text
  | .stop => .ok "<STOP>"
  | .output v => do
      let t ← v.listing
      .ok ("<OUTPUT " ++ t ++ ">")

/-- How a statement or a block ends: with the tokens that come next, or with a
    signal. -/
inductive Flow where
  | done (rest : List Token)
  | signal (s : Signal)

/-- The meanings of the two things that contain others. -/
structure Engine where
  /-- The value of the expression at the start of some tokens, and the tokens
      after it. -/
  expression : List Token → SessionM (Value × List Token)
  /-- Runs the statements of some tokens. -/
  block : List Token → SessionM Flow

namespace Session

/-- Puts what goes wrong with numbers or depth in friendly words. -/
def inFriendlyWords {β : Type} (act : SessionM β) : SessionM β := fun w =>
  match act w with
  | .ok b w => .ok b w
  | .error f w => .error f.friendly w

/-- Runs a program from its text.  A second run is refused while one is
    active. -/
def runWith (block : List Token → SessionM Flow) (code : Text) : SessionM Unit := do
  let w ← get
  let running ← attempt (Guard.enter w.running)
  modify fun w => { w with running := running }
  let body : SessionM Unit := do
    modify fun w => { w with pacer := w.pacer.clear, printed := #[] }
    let tokens ← attempt (Token.tokenize code)
    inFriendlyWords do
      let _ ← block tokens
  afterwards body fun w => { w with running := false }

/-- Runs a program, tells the host about a friendly fault, and answers whether
    all went well. -/
def executeWith (block : List Token → SessionM Flow) (code : Text) : SessionM Bool :=
  fun w =>
    match runWith block code w with
    | .ok _ w => .ok true w
    | .error f w =>
        if f.isFriendly then
          match tellError f.message w with
          | .ok _ w => .ok false w
          | .error g w => .error g w
        else .error f w

/-- Does what the host asks for. -/
def serve (block : List Token → SessionM Flow) : Request → SessionM Unit
  | .stop => stop
  | .setSpeed ms => setSpeed ms
  | .execute code => do
      let ok ← executeWith block code
      note (.nested ok)
  | .event e => handle e

/-- Does all that the host asks for, in order. -/
def serveAll (block : List Token → SessionM Flow) : List Request → SessionM Unit
  | [] => pure ()
  | r :: rs => do
      serve block r
      serveAll block rs

/-- Says a text. -/
def emit (block : List Token → SessionM Flow) (text : Text) (mode : OutputMode) :
    SessionM Unit := do
  if mode == .normal then
    modify fun w => { w with printed := w.printed.push text }
  let w ← get
  if w.host.listening then
    note (.output text mode)
    let h := (← get).host
    changeHost fun h => { h with heard := h.heard + 1 }
    serveAll block (h.react h.heard text)

/-- The name that an input must be. -/
def variableName (v : Value) (who : Text) : SessionM Text := do
  let name ← text v
  if name.isEmpty || v.isList then throw (.needsName who)
  pure name

/-- A motion by a number. -/
def motion (who : Text) (move : Number → CanvasM Number Unit) (v : Value) : SessionM Unit := do
  let n ← number v who
  onCanvas (move n)

/-- Does a command with its inputs, where `a` and `b` are the first two. -/
def performWith (block : List Token → SessionM Flow) (c : Command) (a b : Value) :
    SessionM Unit := do
  match c with
  | .make => do
      let name ← variableName a "MAKE"
      changeStore (·.set name b)
  | .makeLocal => do
      let name ← variableName a "LOCAL"
      changeStore (·.setLocal name .nothing)
  | .forward => motion "FORWARD" Canvas.forward a
  | .back => motion "BACK" Canvas.back a
  | .left => motion "LEFT" Canvas.left a
  | .right => motion "RIGHT" Canvas.right a
  | .setX => motion "SETX" Canvas.setX a
  | .setY => motion "SETY" Canvas.setY a
  | .setHeading => motion "SETHEADING" Canvas.setHeading a
  | .circle => motion "CIRCLE" Canvas.circle a
  | .setPosition => do
      let (x, y) ← point a "SETPOS"
      onCanvas (Canvas.moveTo x y)
  | .arc => do
      let angle ← number a "ARC"
      let radius ← number b "ARC"
      onCanvas (Canvas.arc angle radius)
  | .setPenSize => motion "SETPENSIZE" Canvas.setPenSize a
  | .setPenColor => do
      let color ← compute (Colour.resolve a)
      onCanvas (Canvas.setPenColor color)
  | .setBackground => do
      let color ← compute (Colour.resolve a)
      onCanvas (Canvas.setBackground color)
  | .tell => onCanvas (Canvas.tell a)
  | .wait => do
      let ms ← number a "WAIT"
      onPacer (Pacer.pause ms)
  | .home => onCanvas Canvas.home
  | .penUp => onCanvas (Canvas.setPenDown false)
  | .penDown => onCanvas (Canvas.setPenDown true)
  | .penErase => onCanvas (Canvas.setPenMode .erase)
  | .penPaint => onCanvas (Canvas.setPenMode .paint)
  | .clearScreen => onCanvas Canvas.clearScreen
  | .clean => onCanvas Canvas.clean
  | .hideTurtle => onCanvas (Canvas.setVisible false)
  | .showTurtle => onCanvas (Canvas.setVisible true)
  | .wrapMode => onCanvas (Canvas.setMode .wrap)
  | .windowMode => onCanvas (Canvas.setMode .window)
  | .fenceMode => onCanvas (Canvas.setMode .fence)
  | .printValue => do
      let t ← text a
      emit block t .normal
  | .showValue => do
      let t ← compute a.shown
      emit block t .normal
  | .typeValue => do
      let t ← text a
      emit block t .inline

/-- Does a command with a list of inputs. -/
def perform (block : List Token → SessionM Flow) (c : Command) (args : List Value) :
    SessionM Unit :=
  performWith block c (args.getD 0 .nothing) (args.getD 1 .nothing)

end Session

end TurtleLogo
