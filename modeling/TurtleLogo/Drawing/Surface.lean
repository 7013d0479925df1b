import TurtleLogo.Folder
import TurtleLogo.Drawing.Colour
import TurtleLogo.Drawing.Shape

/-! # Surfaces

    A surface is where a picture is put, one call at a time.  All coordinates
    are those of the canvas, in pixels and pointing down; bearings are still
    degrees clockwise from up.

    * A recording surface keeps the calls, and what was shown at each save.
    * A plain one keeps the calls too, but draws no turtles and cannot save.
    * A raster breaks the calls down into straight strokes in the colours of its
      screen, which may fail, and saves to picture files. -/

namespace TurtleLogo

variable {α : Type} [Scalar α]

open Scalar

/-- What a surface is asked to do. -/
inductive Call (α : Type) where
  | clear (color : Text)
  | line (x1 y1 x2 y2 : α) (color : Text) (width : α) (mode : PenMode)
  | arc (x y radius start sweep : α) (color : Text) (width : α)
  | fill (points : List (Point α)) (color : Text)
  | turtle (x y heading : α) (color : Text) (size : α)

/-- The straight strokes of a raster, in whole pixels of width. -/
inductive Stroke (α : Type) where
  | clear (color : Rgb)
  | line (color : Rgb) (start finish : Point α) (width : Int)
  | lines (color : Rgb) (closed : Bool) (points : List (Point α)) (width : Int)
  | polygon (color : Rgb) (points : List (Point α)) (width : Int)

/-- What stays on a surface: the call itself, or the stroke it became. -/
inductive Mark (α : Type) where
  | call (c : Call α)
  | stroke (s : Stroke α)

/-- The kinds of surfaces. -/
inductive SurfaceKind where
  | recording
  | plain
  | raster
deriving DecidableEq

/-- A surface with everything it has been asked to do since it was cleared. -/
structure Surface (α : Type) where
  kind : SurfaceKind
  width : Int
  height : Int
  calls : Array (Call α)
  strokes : Array (Stroke α)
  /-- The names of the saved pictures with the calls that made them. -/
  saved : Array (Text × Array (Call α))
  /-- The folder in which a raster saves pictures. -/
  folder : Folder
  /-- The colours that the screen of a raster knows by a text. -/
  known : Text → Option Rgb

namespace Surface

/-- A surface that has not been drawn on. -/
def new (kind : SurfaceKind) (width height : Int) (folder : Folder)
    (known : Text → Option Rgb := fun _ => none) : Surface α :=
  ⟨kind, width, height, #[], #[], #[], folder, known⟩

/-- The width of a stroke in whole pixels, at least one. -/
def strokeWidth (width : α) : Except ArithmeticFault Int := do
  let n ← round width
  .ok (max 1 n)

/-- The strokes of a call; nothing to do is none. -/
def strokeOf? (known : Text → Option Rgb) : Call α → Except ArithmeticFault (Option (Stroke α))
  | .clear color => do
      let c ← Rgb.parseWith known color
      .ok (some (.clear c))
  | .line x1 y1 x2 y2 color width _ => do
      let c ← Rgb.parseWith known color
      let w ← strokeWidth width
      .ok (some (.line c (x1, y1) (x2, y2) w))
  | .arc x y radius start sweep color width => do
      let steps ← sweepSteps 2 3 sweep
      let points ← samplePoints (fun i => do
        let b ← sweepBearing start sweep steps i
        canvasPointAt x y radius b) (steps + 1) 0 []
      let c ← Rgb.parseWith known color
      let w ← strokeWidth width
      .ok (some (.lines c false points.reverse w))
  | .fill points color =>
      if points.length < 3 then .ok none
      else do
        let c ← Rgb.parseWith known color
        .ok (some (.polygon c points 0))
  | .turtle x y heading color size => do
      let nose ← canvasPointAt x y size heading
      let half ← div size (ofInt 2)
      let back ← sub heading (ofInt 140)
      let left ← canvasPointAt x y half back
      let front ← add heading (ofInt 140)
      let right ← canvasPointAt x y half front
      let c ← Rgb.parseWith known color
      .ok (some (.polygon c [nose, left, right] 1))

/-- What a call leaves on a surface of the given kind, if anything. -/
def mark? (kind : SurfaceKind) (known : Text → Option Rgb) (call : Call α) :
    Except ArithmeticFault (Option (Mark α)) :=
  match kind with
  | .recording => .ok (some (.call call))
  | .plain =>
      .ok (match call with
        | .turtle .. => none
        | call => some (.call call))
  | .raster => do
      let stroke ← strokeOf? known call
      .ok (stroke.map .stroke)

/-- A surface with one mark more; clearing takes all earlier marks away. -/
def put (s : Surface α) : Mark α → Surface α
  | .call (.clear color) => { s with calls := #[.clear color] }
  | .call c => { s with calls := s.calls.push c }
  | .stroke (.clear c) => { s with strokes := #[.clear c] }
  | .stroke x => { s with strokes := s.strokes.push x }

/-- Asks a surface to do something. -/
def draw (call : Call α) : EStateM Fault (Surface α) Unit := do
  let s ← get
  match ← compute (mark? s.kind s.known call) with
  | none => pure ()
  | some m => modify (·.put m)

/-- Saves the picture on a surface. -/
def save (path : Text) : EStateM Fault (Surface α) Unit := do
  let s ← get
  match s.kind with
  | .recording => set { s with saved := s.saved.push (path, s.calls) }
  | .plain => throw .cannotSave
  | .raster => do
      let name := Folder.pictureName path
      match s.folder.target name with
      | .ok _ => set { s with saved := s.saved.push (name, #[]) }
      | .error _ => throw (.cannotOpen name)

end Surface

end TurtleLogo
