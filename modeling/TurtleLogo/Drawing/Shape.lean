import TurtleLogo.Binary64.Decimal
import TurtleLogo.Drawing.Geometry

/-! # Shapes and turtles

    What a turtle leaves behind: lines, circles around it, arcs it walks, and
    filled outlines made of other shapes.  `Shape.outline` is a shape as a run
    of points, which is what a fill needs. -/

namespace TurtleLogo

/-- Whether a pen draws or rubs out. -/
inductive PenMode where
  | paint
  | erase
deriving DecidableEq

/-- The name of a pen mode. -/
def PenMode.name : PenMode → String
  | .paint => "paint"
  | .erase => "erase"

/-- How a stroke looks. -/
structure Pen (α : Type) where
  color : Text
  width : α
  mode : PenMode

/-- A shape of the drawing. -/
inductive Shape (α : Type) where
  | line (x1 y1 x2 y2 : α) (pen : Pen α)
  /-- The sign of the radius only says which way round an outline goes. -/
  | circle (x y radius : α) (pen : Pen α)
  /-- Centre, radius, the bearing of the start from the centre, and how far it
      goes, clockwise if positive. -/
  | arc (x y radius start sweep : α) (pen : Pen α)
  | fill (x y : α) (parts : List (Shape α)) (color : Text)

/-- The name of the kind of a shape. -/
def Shape.kindName {α : Type} : Shape α → String
  | .line .. => "line"
  | .circle .. => "circle"
  | .arc .. => "arc"
  | .fill .. => "fillpath"

section

variable {α : Type} [Scalar α]

open Scalar

mutual
/-- Puts the points of a shape in front of the reversed points so far. -/
def Shape.outlineOnto :
    Shape α → List (Point α) → Except ArithmeticFault (List (Point α))
  | .line x1 y1 x2 y2 _, sofar => .ok ((x2, y2) :: (x1, y1) :: sofar)
  | .circle x y radius _, sofar =>
      arcPointsOnto x y (abs radius) zero (ofInt (if le zero radius then 360 else -360)) sofar
  | .arc x y radius start sweep _, sofar => arcPointsOnto x y radius start sweep sofar
  | .fill x y parts _, sofar => outlinesOnto parts ((x, y) :: sofar)
/-- Puts the points of several shapes in front of the reversed points so far. -/
def Shape.outlinesOnto :
    List (Shape α) → List (Point α) → Except ArithmeticFault (List (Point α))
  | [], sofar => .ok sofar
  | s :: ss, sofar => do
      let sofar ← outlineOnto s sofar
      outlinesOnto ss sofar
end

/-- A shape as a run of points. -/
def Shape.outline (s : Shape α) : Except ArithmeticFault (List (Point α)) := do
  let ps ← s.outlineOnto []
  .ok ps.reverse


end

/-- A turtle. -/
structure Turtle (α : Type) where
  x : α
  y : α
  heading : α
  penDown : Bool
  pen : Pen α
  visible : Bool

namespace Turtle

variable {α : Type} [Scalar α]

/-- A new turtle: at home, facing up, with a thin black pen. -/
def new : Turtle α :=
  ⟨Scalar.zero, Scalar.zero, Scalar.zero, true, ⟨"#000000", Scalar.ofInt 1, .paint⟩, true⟩

end Turtle

/-- The turtle as debugging output shows it. -/
def Turtle.listing (t : Turtle Number) : Except ArithmeticFault Text := do
  let x ← t.x.toReal
  let y ← t.y.toReal
  let h ← t.heading.toReal
  .ok ("<Turtle at (" ++ x.briefText ++ ", " ++ y.briefText ++ ") heading " ++ h.briefText ++ ">")

end TurtleLogo
