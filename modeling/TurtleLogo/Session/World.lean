import TurtleLogo.Store
import TurtleLogo.Drawing.Canvas
import TurtleLogo.Session.Pacer

/-! # The world of a session

    Everything that a run can see or change: the names, the canvas, the pacer,
    and the host.  The host listens to what programs say, answers their
    questions, and may react to a text by asking for something: to stop, to
    change the speed, to run another program, or for what someone did at the
    window. -/

namespace TurtleLogo

/-- Whether a text ends a line. -/
inductive OutputMode where
  | normal
  | inline
deriving DecidableEq

/-- The name of an output mode. -/
def OutputMode.name : OutputMode → String
  | .normal => "normal"
  | .inline => "inline"

/-- What someone does at the window. -/
inductive WindowEvent where
  | quit
  | motion (px py : Number)
  | wheel (y : Int)
  /-- A key by its name, and the text that it types. -/
  | key (name typed : Text)
  | other

/-- What a host may ask for when it hears a text. -/
inductive Request where
  | stop
  | setSpeed (ms : Number)
  | execute (code : Text)
  | event (e : WindowEvent)

/-- A statement that a fault has passed through: the word at its head, and
    whether the fault came from a block that it runs. -/
structure Step where
  head : Text
  inside : Bool

/-- What passes between a session and its host, and what a run that leaves a
    trail or keeps a diary notes besides. -/
inductive Notice where
  | output (text : Text) (mode : OutputMode)
  | error (message : Text)
  | question (prompt : Text)
  /-- The result of a program that the host asked to run. -/
  | nested (ok : Bool)
  /-- A statement that a fault has passed through. -/
  | passed (s : Step)
  /-- A call of a procedure for its value begins. -/
  | called
  /-- A call of a procedure for its value is over. -/
  | returned
  /-- `TELL` or `ASK` is about to choose a turtle. -/
  | chose (who : Value)
  /-- The host's reaction to a text has failed. -/
  | raised (f : Fault)
  /-- The fault of the host's own that ended a run for which nobody waits, and
      the statements in progress, the outermost first. -/
  | broken (f : Fault) (trail : List Step)

/-- The window, as far as it shows. -/
structure Panel where
  titles : Array Text
  /-- Where pictures are saved, if not under the usual name. -/
  picture : Option Text
  closed : Bool

/-- The other side of a session. -/
structure Host where
  /-- Whether anyone hears texts and errors. -/
  listening : Bool
  /-- The answers still to come, if there is anybody to answer; an answer may
      be missing. -/
  replies : Option (List (Option Text))
  /-- What the host asks for when it hears its `n`-th text, from zero. -/
  react : Nat → Text → List Request
  /-- The number of texts heard. -/
  heard : Nat
  notices : Array Notice
  /-- The `n`-th random number, from zero. -/
  chance : Nat → Number
  /-- The number of random numbers used. -/
  drawn : Nat
  panel : Panel

/-- Everything that a run can see or change. -/
structure World where
  store : Store
  canvas : Canvas Number
  pacer : Pacer
  /-- Whether a program is running. -/
  running : Bool
  /-- The lines printed by the last run. -/
  printed : Array Text
  host : Host
  /-- The number of undefined numbers that have come up. -/
  undefined : Nat

/-- An action in a session. -/
abbrev SessionM (β : Type) := EStateM Fault World β

/-- A host that listens, cannot answer and asks for nothing, and whose random
    numbers are all zero. -/
def Host.quiet : Host :=
  ⟨true, none, fun _ _ => [], 0, #[], fun _ => .real (Binary64.zero false), 0,
    ⟨#[], none, false⟩⟩

namespace World

/-- A new session on a surface, with its pacer and host. -/
def new (surface : Surface Number) (pacer : Pacer) (host : Host) : Except Fault World := do
  let canvas ← Canvas.new surface
  .ok ⟨.empty, canvas, pacer, false, #[], host, 0⟩

/-- A number, with a mark of its own if it is undefined and has none yet: the
    result of one computation is one turtle's name, and that of another is
    another's. -/
def mark (w : World) (n : Number) : Number × World :=
  match n with
  | .real (.nan 0) => (.real (.nan (w.undefined + 1)), { w with undefined := w.undefined + 1 })
  | n => (n, w)

/-- Whether a number is undefined and has no mark. -/
def isUnmarked : Number → Bool
  | .real (.nan 0) => true
  | _ => false

/-- Marks what is undefined about the current turtle. -/
def markTurtle (w : World) : World :=
  match w.canvas.scene.turtle? with
  | none => w
  | some t =>
      if isUnmarked t.x || isUnmarked t.y || isUnmarked t.heading then
        let (x, w) := w.mark t.x
        let (y, w) := w.mark t.y
        let (heading, w) := w.mark t.heading
        { w with canvas := { w.canvas with
          scene := w.canvas.scene.mapTurtle fun t =>
            { t with x := x, y := y, heading := heading } } }
      else w

end World

namespace Session

/-- An action on the canvas. -/
def onCanvas {β : Type} (act : CanvasM Number β) : SessionM β :=
  fun ⟨store, canvas, pacer, running, printed, host, undefined⟩ =>
    match act canvas with
    | .ok b canvas =>
        .ok b (World.markTurtle ⟨store, canvas, pacer, running, printed, host, undefined⟩)
    | .error f canvas =>
        .error f (World.markTurtle ⟨store, canvas, pacer, running, printed, host, undefined⟩)

/-- An action on the pacer. -/
def onPacer {β : Type} (act : EStateM Fault Pacer β) : SessionM β :=
  fun ⟨store, canvas, pacer, running, printed, host, undefined⟩ =>
    match act pacer with
    | .ok b pacer => .ok b ⟨store, canvas, pacer, running, printed, host, undefined⟩
    | .error f pacer => .error f ⟨store, canvas, pacer, running, printed, host, undefined⟩

/-- A number that has just been computed or read. -/
def fresh (n : Number) : SessionM Number := fun w =>
  let (n, w) := w.mark n
  .ok n w

mutual
/-- A value that comes from outside, with all numbers in it just read. -/
def receive : Value → SessionM Value
  | .number n => do
      let m ← fresh n
      pure (.number m)
  | .list vs => do
      let ws ← receiveAll vs
      pure (.list ws)
  | v => pure v
/-- Values that come from outside. -/
def receiveAll : List Value → SessionM (List Value)
  | [] => pure []
  | v :: vs => do
      let w ← receive v
      let ws ← receiveAll vs
      pure (w :: ws)
end

/-- Changes the names. -/
def changeStore (f : Store → Store) : SessionM Unit :=
  modify fun w => { w with store := f w.store }

/-- Changes the host. -/
def changeHost (f : Host → Host) : SessionM Unit :=
  modify fun w => { w with host := f w.host }

/-- The names. -/
def store : SessionM Store := do
  let w ← get
  pure w.store

/-- The current turtle, which must be among the turtles. -/
def turtle : SessionM (Turtle Number) := do
  let w ← get
  match w.canvas.scene.turtle? with
  | some t => pure t
  | none => throw .noSuchTurtle

/-- Whether someone has asked the run to stop. -/
def stopRequested : SessionM Bool := onPacer Pacer.look

/-- Asks the run to stop. -/
def stop : SessionM Unit :=
  modify fun w => { w with pacer := w.pacer.cancel }

/-- Chooses the speed: whole milliseconds, at least zero. -/
def setSpeed (ms : Number) : SessionM Unit := do
  let n ← compute ms.trunc
  modify fun w => { w with pacer := { w.pacer with speed := .int (max 0 n) } }

/-- Notes something for the host. -/
def note (n : Notice) : SessionM Unit :=
  changeHost fun h => { h with notices := h.notices.push n }

/-- Tells the host about an error. -/
def tellError (message : Text) : SessionM Unit := do
  let w ← get
  if w.host.listening then note (.error message)

/-- Asks the host a question. -/
def ask (prompt : Text) : SessionM Text := do
  let w ← get
  match w.host.replies with
  | none => throw (.nobodyToAnswer prompt)
  | some replies =>
      note (.question prompt)
      changeHost fun h => { h with replies := some replies.tail }
      match replies with
      | some reply :: _ => pure reply
      | _ => pure []

/-- The next random number. -/
def random : SessionM Number := do
  let w ← get
  changeHost fun h => { h with drawn := h.drawn + 1 }
  pure (w.host.chance w.host.drawn)

end Session

end TurtleLogo
