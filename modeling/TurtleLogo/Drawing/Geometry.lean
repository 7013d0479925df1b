import TurtleLogo.Drawing.Scalar

/-! # Geometry

    Headings are degrees clockwise from straight up, and a heading in normal
    form is at least `0` and less than `360`.  Logical coordinates have their
    origin in the middle of the picture and point up; canvas coordinates
    start in the upper left corner and point down.  A `View` is the map
    between them. -/

namespace TurtleLogo

variable {α : Type} [Scalar α]

open Scalar

/-- A point or vector. -/
abbrev Point (α : Type) := α × α

/-- A heading in normal form.  The remainder of a tiny negative angle may be
    rounded up to a full turn, which is none. -/
def normalizeHeading (h : α) : Except ArithmeticFault α := do
  let r ← mod h (ofInt 360)
  .ok (if le (ofInt 360) r then zero else r)

/-- A coordinate brought back between `-half` and `half` by whole widths. -/
def wrapCoordinate (v half : α) : Except ArithmeticFault α :=
  if le half zero || (le (neg half) v && le v half) then .ok v
  else do
    let shifted ← add v half
    let width ← mul (ofInt 2) half
    let r ← mod shifted width
    sub r half

/-- A coordinate stopped at `-half` and `half`. -/
def clampCoordinate (v half : α) : α :=
  Scalar.max (neg half) (Scalar.min half v)

/-- The point at a bearing and distance from another, `y` pointing up. -/
def pointAt (x y radius bearing : α) : Except ArithmeticFault (Point α) := do
  let (dx, dy) ← direction bearing
  let rx ← mul radius dx
  let px ← add x rx
  let ry ← mul radius dy
  let py ← add y ry
  .ok (px, py)

/-- The point at a bearing and distance from another, `y` pointing down. -/
def canvasPointAt (x y radius bearing : α) : Except ArithmeticFault (Point α) := do
  let (dx, dy) ← direction bearing
  let rx ← mul radius dx
  let px ← add x rx
  let ry ← mul radius dy
  let py ← sub y ry
  .ok (px, py)

/-- The number of pieces of at most `step` degrees that make up a sweep. -/
def sweepSteps (least : Nat) (step : Int) (sweep : α) : Except ArithmeticFault Nat := do
  let q ← div (abs sweep) (ofInt step)
  let n ← ceil q
  .ok (Nat.max least n.toNat)

/-- The bearing after `i` of the `steps` pieces of a sweep. -/
def sweepBearing (start sweep : α) (steps i : Nat) : Except ArithmeticFault α := do
  let part ← mul sweep (ofInt i)
  let turned ← div part (ofInt steps)
  add start turned

/-- Puts the points `place i`, for `count` numbers `i` from the given one on, in
    front of the reversed points so far. -/
def samplePoints (place : Nat → Except ArithmeticFault (Point α)) :
    Nat → Nat → List (Point α) → Except ArithmeticFault (List (Point α))
  | 0, _, sofar => .ok sofar
  | count + 1, i, sofar => do
      let p ← place i
      samplePoints place count (i + 1) (p :: sofar)

/-- Points along an arc, no more than five degrees apart, in front of the
    reversed points so far. -/
def arcPointsOnto (x y radius start sweep : α) (sofar : List (Point α)) :
    Except ArithmeticFault (List (Point α)) := do
  let steps ← sweepSteps 1 5 sweep
  samplePoints (fun i => do
    let b ← sweepBearing start sweep steps i
    pointAt x y radius b) (steps + 1) 0 sofar

/-- Points along an arc, no more than five degrees apart. -/
def arcPoints (x y radius start sweep : α) : Except ArithmeticFault (List (Point α)) := do
  let ps ← arcPointsOnto x y radius start sweep []
  .ok ps.reverse

/-! ## Views -/

/-- Where the picture is seen from: its centre on the canvas, the zoom, and
    how far it is moved. -/
structure View (α : Type) where
  centerX : α
  centerY : α
  zoom : α
  panX : α
  panY : α

namespace View

/-- The least zoom. -/
def minZoom : α := ofFraction 1 4

/-- The greatest zoom. -/
def maxZoom : α := ofInt 4

/-- How much one step of zooming changes. -/
def zoomFactor : α := ofFraction 6 5

/-- The view with its centre in the middle of a width. -/
def centreAcross (v : View α) (width : α) : Except ArithmeticFault (View α) := do
  let cx ← div width (ofInt 2)
  .ok { v with centerX := cx }

/-- The view with its centre in the middle of a height. -/
def centreDown (v : View α) (height : α) : Except ArithmeticFault (View α) := do
  let cy ← div height (ofInt 2)
  .ok { v with centerY := cy }

/-- The view with its centre in the middle of a canvas of the given size. -/
def resize (v : View α) (width height : α) : Except ArithmeticFault (View α) := do
  let v ← v.centreAcross width
  v.centreDown height

/-- The view without zoom, and not moved. -/
def reset (v : View α) : View α :=
  { v with zoom := ofInt 1, panX := zero, panY := zero }

/-- The first view of a canvas of the given size. -/
def new (width height : α) : Except ArithmeticFault (View α) := do
  let v ← resize ⟨zero, zero, ofInt 1, zero, zero⟩ width height
  .ok v.reset

/-- The place of a logical point on the canvas. -/
def toCanvas (v : View α) (x y : α) : Except ArithmeticFault (Point α) := do
  let dx ← add x v.panX
  let sx ← mul dx v.zoom
  let px ← add v.centerX sx
  let dy ← add y v.panY
  let sy ← mul dy v.zoom
  let py ← sub v.centerY sy
  .ok (px, py)

/-- The logical point at a place on the canvas. -/
def toLogical (v : View α) (px py : α) : Except ArithmeticFault (Point α) := do
  let dx ← sub px v.centerX
  let sx ← div dx v.zoom
  let x ← sub sx v.panX
  let dy ← sub py v.centerY
  let sy ← div (neg dy) v.zoom
  let y ← sub sy v.panY
  .ok (x, y)

/-- One step closer. -/
def zoomIn (v : View α) : Except ArithmeticFault (View α) := do
  let z ← mul v.zoom zoomFactor
  .ok { v with zoom := Scalar.min maxZoom z }

/-- One step away. -/
def zoomOut (v : View α) : Except ArithmeticFault (View α) := do
  let z ← div v.zoom zoomFactor
  .ok { v with zoom := Scalar.max minZoom z }

/-- The picture moved to the right. -/
def moveAcross (v : View α) (dx : α) : Except ArithmeticFault (View α) := do
  let x ← add v.panX dx
  .ok { v with panX := x }

/-- The picture moved up. -/
def moveUp (v : View α) (dy : α) : Except ArithmeticFault (View α) := do
  let y ← add v.panY dy
  .ok { v with panY := y }

/-- The picture moved to the right and up. -/
def pan (v : View α) (dx dy : α) : Except ArithmeticFault (View α) := do
  let v ← v.moveAcross dx
  v.moveUp dy

end View

end TurtleLogo
