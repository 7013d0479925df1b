import TurtleLogo.Session.World

/-! # Events at the window

    The mouse wheel and `+`, `-` zoom, the arrow keys move the picture, `0`
    resets the view, `S` saves the picture, and Escape stops the program.  The
    title shows the coordinates under the mouse and what was saved. -/

namespace TurtleLogo.Session

/-- The title of the window. -/
def title : Text := "LogoLab"

/-- How far an arrow key moves the picture. -/
def panStep : Int := 20

/-- The usual name of a saved picture. -/
def usualPicture : Text := "drawing.png"

/-- Shows a title. -/
def setTitle (text : Text) : SessionM Unit :=
  changeHost fun h => { h with panel := { h.panel with titles := h.panel.titles.push text } }

/-- Saves the picture under a name and says in the title whether that went
    well. -/
def saveAs (path : Text) : SessionM Unit := fun w =>
  match onCanvas (Canvas.savePicture path) w with
  | .ok _ w => setTitle (title ++ " - saved " ++ path) w
  | .error (.cannotOpen p) w =>
      setTitle (title ++ " - could not save " ++ path ++ ": " ++ Fault.message (.cannotOpen p)) w
  | .error f w => .error f w

/-- Saves the picture under the name that was chosen, or else the usual one. -/
def savePicture : SessionM Unit := do
  let w ← get
  match w.host.panel.picture with
  | some p => saveAs (if p.isEmpty then usualPicture else p)
  | none => saveAs usualPicture

/-- What a key does. -/
def pressKey (name typed : Text) : SessionM Unit :=
  if name == "escape" then stop
  else if typed == "s" || typed == "S" then savePicture
  else if typed == "+" || typed == "=" then onCanvas Canvas.zoomIn
  else if typed == "-" then onCanvas Canvas.zoomOut
  else if typed == "0" then onCanvas Canvas.resetView
  else
    let move (dx dy : Int) : SessionM Unit := onCanvas (Canvas.pan (.int dx) (.int dy))
    if name == "left" then move panStep 0
    else if name == "right" then move (-panStep) 0
    else if name == "up" then move 0 (-panStep)
    else if name == "down" then move 0 panStep
    else pure ()

/-- What an event does; after the window is closed nothing does anything. -/
def handle (e : WindowEvent) : SessionM Unit := do
  let w ← get
  if w.host.panel.closed then pure ()
  else
    match e with
    | .quit => do
        stop
        changeHost fun h => { h with panel := { h.panel with closed := true } }
    | .motion px py => do
        let (x, y) ← onCanvas (Canvas.coordinatesAt px py)
        setTitle (title ++ " (" ++ Number.digits x ++ ", " ++ Number.digits y ++ ")")
    | .wheel y =>
        if y > 0 then onCanvas Canvas.zoomIn
        else if y < 0 then onCanvas Canvas.zoomOut
        else pure ()
    | .key name typed => pressKey name typed
    | .other => pure ()

end TurtleLogo.Session
