import TurtleLogo.Value.Order
import TurtleLogo.Drawing.Surface

/-! # The canvas

    A scene is the turtles, one of which is current, and the log of everything
    they drew; the log is the drawing.  A canvas is a scene with a surface on
    which it is replayed: `redraw` clears the surface, replays the log, and
    puts the visible turtles on top.

    Motion off the edge of the visible area follows one of three policies:
    `wrap` comes back in on the opposite edge, `fence` stops at the edge, and
    `window` keeps going. -/

namespace TurtleLogo

/-- What happens at the edge of the visible area. -/
inductive EdgeMode where
  | wrap
  | window
  | fence
deriving DecidableEq

namespace EdgeMode

/-- The name of a mode. -/
def name : EdgeMode → String
  | .wrap => "wrap"
  | .window => "window"
  | .fence => "fence"

/-- All modes. -/
def all : List EdgeMode := [.wrap, .window, .fence]

/-- The mode of the given name. -/
def ofName? (name : Text) : Option EdgeMode :=
  all.find? fun mode => Text.ofString mode.name == name

end EdgeMode

/-- An outline that is being filled: where it began, its colour, and the
    shapes drawn since. -/
structure FillBuffer (α : Type) where
  x : α
  y : α
  color : Text
  parts : Array (Shape α)

/-- The turtles and their drawing. -/
structure Scene (α : Type) where
  /-- The turtles under their names, in the order of their creation. -/
  turtles : List (Value × Turtle α)
  current : Value
  log : Array (Shape α)
  /-- The fills in progress, innermost first. -/
  fills : List (FillBuffer α)
  background : Text
  mode : EdgeMode
  view : View α
  /-- Whether the surface may show something else than the scene. -/
  dirty : Bool

/-- A scene and the surface that shows it. -/
structure Canvas (α : Type) where
  scene : Scene α
  surface : Surface α

/-- An action on a canvas. -/
abbrev CanvasM (α β : Type) := EStateM Fault (Canvas α) β

/-- The background of a new canvas. -/
def defaultBackground : Text := "#ffffff"

/-- The size of a turtle in pixels, without zoom. -/
def turtleSize : Int := 15

/-- The length of the longest piece of a wrapped move. -/
def wrapStep : Int := 10

/-- The greatest number of pieces of a wrapped move. -/
def maxWrapSteps : Nat := 10000

namespace Scene

variable {α : Type} [Scalar α]

/-- The scene of a new canvas, seen through the given view. -/
def new (view : View α) : Scene α :=
  ⟨[(.ofInt 0, Turtle.new)], .ofInt 0, #[], [], defaultBackground, .wrap, view.reset, true⟩

/-- The current turtle, if it is among the turtles. -/
def turtle? (s : Scene α) : Option (Turtle α) :=
  (s.turtles.find? (·.1.sameKey s.current)).map (·.2)

/-- Whether a turtle of the given name exists. -/
def hasTurtle (s : Scene α) (id : Value) : Bool :=
  s.turtles.any (·.1.sameKey id)

/-- The names of the turtles. -/
def ids (s : Scene α) : List Value := s.turtles.map (·.1)

/-- Changes the current turtle. -/
def mapTurtle (s : Scene α) (f : Turtle α → Turtle α) : Scene α :=
  { s with turtles := s.turtles.map fun (id, t) => (id, if id.sameKey s.current then f t else t) }

/-- Marks what is shown as out of date. -/
def touch (s : Scene α) : Scene α := { s with dirty := true }

/-- Draws a shape: it goes into the log and into every fill in progress. -/
def emit (s : Scene α) (shape : Shape α) : Scene α :=
  { s with
    log := s.log.push shape
    fills := s.fills.map fun b => { b with parts := b.parts.push shape }
    dirty := true }

/-- Draws a line with the pen of a turtle, if it is down. -/
def stroke (s : Scene α) (t : Turtle α) (x1 y1 x2 y2 : α) : Scene α :=
  if t.penDown then s.emit (.line x1 y1 x2 y2 t.pen) else s

/-- Puts the current turtle somewhere. -/
def place (s : Scene α) (x y : α) : Scene α :=
  s.mapTurtle fun t => { t with x := x, y := y }

/-- Starts to fill what is drawn from now on, where a turtle is and in the
    colour of its pen. -/
def beginFill (s : Scene α) (t : Turtle α) : Scene α :=
  { s with fills := ⟨t.x, t.y, t.pen.color, #[]⟩ :: s.fills }

/-- Fills what was drawn since the innermost fill began. -/
def endFill (s : Scene α) : Scene α :=
  match s.fills with
  | [] => s
  | b :: rest => emit { s with fills := rest } (.fill b.x b.y b.parts.toList b.color)

/-- Gives up the innermost fill. -/
def cancelFill (s : Scene α) : Scene α :=
  { s with fills := s.fills.tail }

/-- Every turtle back home with a new pen, and an empty drawing. -/
def clear (s : Scene α) : Scene α :=
  { s with turtles := s.turtles.map fun (id, _) => (id, Turtle.new), log := #[], fills := [] }

end Scene

section Rendering

variable {α : Type} [Scalar α]

open Scalar

/-- The colour in which a pen shows on a background. -/
def Pen.ink (p : Pen α) (background : Text) : Text :=
  match p.mode with
  | .paint => p.color
  | .erase => background

/-- The places of logical points on the canvas, put in reverse in front of the
    places so far. -/
def View.placesOnto (v : View α) :
    List (Point α) → List (Point α) → Except ArithmeticFault (List (Point α))
  | [], sofar => .ok sofar
  | (x, y) :: ps, sofar => do
      let p ← v.toCanvas x y
      placesOnto v ps (p :: sofar)

/-- The call that shows a shape in a view. -/
def Shape.call (v : View α) (background : Text) : Shape α → Except ArithmeticFault (Call α)
  | .line x1 y1 x2 y2 pen => do
      let (px, py) ← v.toCanvas x1 y1
      let (qx, qy) ← v.toCanvas x2 y2
      let width ← mul pen.width v.zoom
      .ok (.line px py qx qy (pen.ink background) width pen.mode)
  | .circle x y radius pen => do
      let (px, py) ← v.toCanvas x y
      let r ← mul (abs radius) v.zoom
      let width ← mul pen.width v.zoom
      .ok (.arc px py r zero (ofInt 360) (pen.ink background) width)
  | .arc x y radius start sweep pen => do
      let (px, py) ← v.toCanvas x y
      let r ← mul radius v.zoom
      let width ← mul pen.width v.zoom
      .ok (.arc px py r start sweep (pen.ink background) width)
  | .fill x y parts color => do
      let outline ← Shape.outline (.fill x y parts color)
      let points ← v.placesOnto outline []
      .ok (.fill points.reverse color)

/-- The call that shows a turtle in a view. -/
def Turtle.call (v : View α) (t : Turtle α) : Except ArithmeticFault (Call α) := do
  let (px, py) ← v.toCanvas t.x t.y
  let size ← mul (ofInt turtleSize) v.zoom
  .ok (.turtle px py t.heading t.pen.color size)

/-- Shows shapes one after another. -/
def drawShapes (v : View α) (background : Text) :
    List (Shape α) → EStateM Fault (Surface α) Unit
  | [] => pure ()
  | s :: ss => do
      let call ← compute (s.call v background)
      Surface.draw call
      drawShapes v background ss

/-- Shows the visible ones of some turtles. -/
def drawTurtles (v : View α) : List (Turtle α) → EStateM Fault (Surface α) Unit
  | [] => pure ()
  | t :: ts => do
      if t.visible then
        let call ← compute (t.call v)
        Surface.draw call
      drawTurtles v ts

/-- Shows a scene on a cleared surface. -/
def Scene.replay (s : Scene α) : EStateM Fault (Surface α) Unit := do
  Surface.draw (.clear s.background)
  drawShapes s.view s.background s.log.toList
  drawTurtles s.view (s.turtles.map (·.2))

end Rendering

namespace Canvas

variable {α : Type} [Scalar α]

open Scalar

/-- An action on the surface of a canvas. -/
def onSurface {β : Type} (act : EStateM Fault (Surface α) β) : CanvasM α β :=
  fun ⟨scene, surface⟩ =>
    match act surface with
    | .ok b surface => .ok b ⟨scene, surface⟩
    | .error f surface => .error f ⟨scene, surface⟩

/-- Changes the scene. -/
def change (f : Scene α → Scene α) : CanvasM α Unit :=
  modify fun ⟨scene, surface⟩ => ⟨f scene, surface⟩

/-- The scene. -/
def scene? : CanvasM α (Scene α) := do
  let c ← get
  pure c.scene

/-- Changes the view, in a way that may fail. -/
def changeView (f : View α → Except ArithmeticFault (View α)) : CanvasM α Unit := do
  let c ← get
  let v ← compute (f c.scene.view)
  change fun s => { s with view := v }

/-- Centres the view on the surface. -/
def centreView : CanvasM α Unit := do
  let c ← get
  changeView fun v => v.centreAcross (ofInt c.surface.width)
  changeView fun v => v.centreDown (ofInt c.surface.height)

/-- Shows the scene as it is. -/
def redraw : CanvasM α Unit := do
  change fun s => { s with dirty := false }
  centreView
  let c ← get
  onSurface c.scene.replay

/-- Back to one turtle, an empty drawing, a white background and the first
    view. -/
def reset : CanvasM α Unit := do
  change fun s => Scene.new s.view
  redraw

/-- A new canvas on a surface, unless the surface is too big to be seen. -/
def new (surface : Surface α) : Except Fault (Canvas α) := do
  let view ← liftArithmetic (View.new (ofInt surface.width) (ofInt surface.height))
  match reset ⟨Scene.new view, surface⟩ with
  | .ok _ c => .ok c
  | .error f _ => .error f

/-! ## Turtles -/

/-- The current turtle, which must be among the turtles. -/
def turtle : CanvasM α (Turtle α) := do
  match (← scene?).turtle? with
  | some t => pure t
  | none => throw .noSuchTurtle

/-- Changes the current turtle, which must be among the turtles. -/
def changeTurtle (f : Turtle α → Turtle α) : CanvasM α Unit := do
  let _ ← turtle
  change (·.mapTurtle f)

/-- The name of the turtle that a value stands for: a list stands for its first
    item, and the empty list for the first turtle. -/
def nameOf : Value → Value
  | .list [] => .ofInt 0
  | .list (v :: _) => v
  | v => v

/-- Makes a turtle current, and creates it if it is new; a list is no name. -/
def tell (who : Value) : CanvasM α Unit := do
  let id := nameOf who
  if id.isList then throw .listAsTurtle
  change fun s =>
    let turtles := if s.hasTurtle id then s.turtles else s.turtles ++ [(id, Turtle.new)]
    { s with turtles := turtles, current := id, dirty := true }

/-- Half the width and height of the visible area. -/
def halfExtents : CanvasM α (Point α) := do
  let c ← get
  compute do
    let wide ← mul (ofInt 2) c.scene.view.zoom
    let x ← div (ofInt c.surface.width) wide
    let high ← mul (ofInt 2) c.scene.view.zoom
    let y ← div (ofInt c.surface.height) high
    .ok (x, y)

/-! ## Motion -/

/-- Walks in equal hops, drawing each with the pen of a turtle and wrapping
    after it. -/
def walk (t : Turtle α) (hopX hopY halfWidth halfHeight : α) : Nat → α → α → CanvasM α Unit
  | 0, _, _ => pure ()
  | steps + 1, x, y => do
      let nx ← compute (add x hopX)
      let ny ← compute (add y hopY)
      change fun s => s.stroke t x y nx ny
      let wx ← compute (wrapCoordinate nx halfWidth)
      let wy ← compute (wrapCoordinate ny halfHeight)
      walk t hopX hopY halfWidth halfHeight steps wx wy

/-- The number of hops of a move by the given vector. -/
def hopCount (dx dy : α) : Except ArithmeticFault Nat := do
  let d ← hypot dx dy
  let q ← div d (ofInt wrapStep)
  let n ← ceil q
  .ok (Nat.min (Nat.max 1 n.toNat) maxWrapSteps)

/-- Moves the current turtle `t` on the wrapped canvas, in short hops so that a
    crossing looks continuous. -/
def wrapTo (t : Turtle α) (x y : α) : CanvasM α Unit := do
  let (halfWidth, halfHeight) ← halfExtents
  let dx ← compute (sub x t.x)
  let dy ← compute (sub y t.y)
  let steps ← compute (hopCount dx dy)
  let hopX ← compute (div dx (ofInt steps))
  let hopY ← compute (div dy (ofInt steps))
  walk t hopX hopY halfWidth halfHeight steps t.x t.y
  let wx ← compute (wrapCoordinate x halfWidth)
  let wy ← compute (wrapCoordinate y halfHeight)
  change (·.place wx wy)

/-- Moves the current turtle `t` in a straight line that nothing stops. -/
def lineTo (t : Turtle α) (x y : α) : CanvasM α Unit :=
  change fun s => (s.stroke t t.x t.y x y).place x y

/-- Moves the current turtle to a place, as the edge allows. -/
def moveTo (x y : α) : CanvasM α Unit := do
  let t ← turtle
  match (← scene?).mode with
  | .wrap => wrapTo t x y
  | .fence =>
      let (halfWidth, halfHeight) ← halfExtents
      lineTo t (clampCoordinate x halfWidth) (clampCoordinate y halfHeight)
  | .window => lineTo t x y
  change (·.touch)

/-- Turns the current turtle to a heading. -/
def setHeading (angle : α) : CanvasM α Unit := do
  let h ← compute (normalizeHeading angle)
  changeTurtle fun t => { t with heading := h }
  change (·.touch)

/-- Moves the current turtle the way it faces. -/
def forward (distance : α) : CanvasM α Unit := do
  let t ← turtle
  let (x, y) ← compute (pointAt t.x t.y distance t.heading)
  moveTo x y

/-- Moves the current turtle backwards. -/
def back (distance : α) : CanvasM α Unit := forward (neg distance)

/-- Turns the current turtle to its left. -/
def left (angle : α) : CanvasM α Unit := do
  let t ← turtle
  let h ← compute (sub t.heading angle)
  setHeading h

/-- Turns the current turtle to its right. -/
def right (angle : α) : CanvasM α Unit := do
  let t ← turtle
  let h ← compute (add t.heading angle)
  setHeading h

/-- Moves the current turtle home and turns it up. -/
def home : CanvasM α Unit := do
  moveTo zero zero
  setHeading zero

/-- Moves the current turtle sideways to a place. -/
def setX (x : α) : CanvasM α Unit := do
  let t ← turtle
  moveTo x t.y

/-- Moves the current turtle up or down to a place. -/
def setY (y : α) : CanvasM α Unit := do
  let t ← turtle
  moveTo t.x y

/-- Draws a circle around the current turtle, which stays where it is. -/
def circle (radius : α) : CanvasM α Unit := do
  let t ← turtle
  change fun s =>
    if t.penDown && !isZero radius then s.emit (.circle t.x t.y radius t.pen) else s.touch

/-- Puts the current turtle `t` at the end of an arc: on the circle around a
    centre, in the given direction from it, and turned by the sweep. -/
def endArc (t : Turtle α) (cx cy radius ex ey sweep : α) : CanvasM α Unit := do
  let rx ← compute (mul radius ex)
  let x ← compute (add cx rx)
  let ry ← compute (mul radius ey)
  let y ← compute (add cy ry)
  change (·.place x y)
  let turned ← compute (add t.heading sweep)
  let h ← compute (normalizeHeading turned)
  change fun s => (s.mapTurtle fun t => { t with heading := h }).touch

/-- Carries the current turtle forward along a circle with its centre to the
    right, turning clockwise; a negative radius puts the centre to the left and
    turns the other way, and a negative angle goes backwards. -/
def arc (angle radius : α) : CanvasM α Unit := do
  let t ← turtle
  let sense : Int := if le zero radius then 1 else -1
  let size := abs radius
  let side ← compute (add t.heading (ofInt (90 * sense)))
  let (cx, cy) ← compute (pointAt t.x t.y size side)
  let start ← compute (sub t.heading (ofInt (90 * sense)))
  let sweep ← compute (mul angle (ofInt sense))
  let last ← compute (add start sweep)
  let (ex, ey) ← compute (direction last)
  if t.penDown && !isZero angle && !isZero radius then
    let first ← compute (normalizeHeading start)
    change (·.emit (.arc cx cy size first sweep t.pen))
  endArc t cx cy size ex ey sweep

/-! ## Fills -/

/-- Starts to fill what is drawn from now on. -/
def beginFill : CanvasM α Unit := do
  let t ← turtle
  change (·.beginFill t)

/-- Fills what was drawn since the innermost fill began. -/
def endFill : CanvasM α Unit := change (·.endFill)

/-- Gives up the innermost fill. -/
def cancelFill : CanvasM α Unit := change (·.cancelFill)

/-! ## Pen and screen -/

/-- Changes the pen of the current turtle. -/
def changePen (f : Pen α → Pen α) : CanvasM α Unit :=
  changeTurtle fun t => { t with pen := f t.pen }

/-- Lifts or lowers the pen. -/
def setPenDown (down : Bool) : CanvasM α Unit :=
  changeTurtle fun t => { t with penDown := down }

/-- Chooses the colour of the pen. -/
def setPenColor (color : Text) : CanvasM α Unit :=
  changePen fun p => { p with color := color }

/-- Chooses the width of the pen, at least one. -/
def setPenSize (size : α) : CanvasM α Unit :=
  changePen fun p => { p with width := Scalar.max (ofInt 1) size }

/-- Makes the pen draw or rub out. -/
def setPenMode (mode : PenMode) : CanvasM α Unit :=
  changePen fun p => { p with mode := mode }

/-- Chooses the background. -/
def setBackground (color : Text) : CanvasM α Unit := do
  change fun s => { s with background := color }
  redraw

/-- Chooses what happens at the edge. -/
def setMode (mode : EdgeMode) : CanvasM α Unit :=
  change fun s => { s with mode := mode }

/-- Hides or shows the current turtle. -/
def setVisible (visible : Bool) : CanvasM α Unit := do
  changeTurtle fun t => { t with visible := visible }
  change (·.touch)

/-- Sends every turtle home with a new pen and empties the drawing. -/
def clearScreen : CanvasM α Unit := do
  change (·.clear)
  redraw

/-- Empties the drawing and leaves the turtles where they are. -/
def clean : CanvasM α Unit := do
  change fun s => { s with log := #[] }
  redraw

/-! ## View -/

/-- Looks from closer. -/
def zoomIn : CanvasM α Unit := do
  changeView View.zoomIn
  redraw

/-- Looks from farther away. -/
def zoomOut : CanvasM α Unit := do
  changeView View.zoomOut
  redraw

/-- Moves the picture, first to the side and then up. -/
def pan (dx dy : α) : CanvasM α Unit := do
  changeView fun v => v.moveAcross dx
  changeView fun v => v.moveUp dy
  redraw

/-- Looks from where one looked first. -/
def resetView : CanvasM α Unit := do
  change fun s => { s with view := s.view.reset }
  redraw

/-- The logical coordinates at a place on the canvas, as whole numbers. -/
def coordinatesAt (px py : α) : CanvasM α (Int × Int) := do
  centreView
  let s ← scene?
  let (x, y) ← compute (s.view.toLogical px py)
  let x ← compute (round x)
  let y ← compute (round y)
  pure (x, y)

/-- The turtles with their visibility as it is in another list, as far as that
    goes. -/
def restoreVisible : List Bool → List (Value × Turtle α) → List (Value × Turtle α)
  | v :: vs, (id, t) :: ts => (id, { t with visible := v }) :: restoreVisible vs ts
  | _, ts => ts

/-- Does something with the surface while it shows the picture without the turtles
    on it. -/
def withoutTurtles (act : EStateM Fault (Surface α) Unit) : CanvasM α Unit := do
  let shown := (← scene?).turtles.map (·.2.visible)
  let hidden : CanvasM α Unit := do
    change fun s =>
      { s with turtles := s.turtles.map fun (id, t) => (id, { t with visible := false }) }
    redraw
    onSurface act
  let back : CanvasM α Unit := do
    change fun s => { s with turtles := restoreVisible shown s.turtles }
    redraw
  wrapUp hidden back back

/-- Saves the picture as it stands. -/
def savePicture (path : Text) : CanvasM α Unit := withoutTurtles (Surface.save path)

/-- Brings the surface up to date if it may not be. -/
def present : CanvasM α Unit := do
  if (← scene?).dirty then redraw

end Canvas

end TurtleLogo
