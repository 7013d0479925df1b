import TurtleLogo.Session.Trail

/-! # The window

    A program plays in a window that stays open until someone closes it.  What
    people do comes in batches, one a frame: the first batch finds the program
    running, as soon as it has said something; when the program has ended the
    title says so, the picture is saved if one was wanted, and the other
    batches follow.  After each frame the window shows what there is. -/

namespace TurtleLogo.Session

/-- Opens the window. -/
def openWindow (picture : Option Text) : SessionM Unit := do
  changeHost fun h => { h with panel := ⟨#[], picture, false⟩ }
  setTitle title

/-- Whether the window has been closed. -/
def isClosed : SessionM Bool := do
  let w ← get
  pure w.host.panel.closed

/-- Does what a batch of events asks for. -/
def handleAll : List WindowEvent → SessionM Unit
  | [] => pure ()
  | e :: es => do
      handle e
      handleAll es

/-- Shows what there is, unless the window has been closed. -/
def showFrame : SessionM Unit := do
  if !(← isClosed) then onCanvas Canvas.present

/-- One frame. -/
def frame (events : List WindowEvent) : SessionM Unit := do
  handleAll events
  showFrame

/-- The frames for all batches of events. -/
def frames : List (List WindowEvent) → SessionM Unit
  | [] => pure ()
  | batch :: batches => do
      frame batch
      frames batches

/-- Says in the title how the program ended, and saves the picture if one was
    wanted. -/
def announce (ok : Bool) : SessionM Unit := do
  if !(← isClosed) then
    setTitle (title ++ (if ok then " - done" else " - stopped"))
    let picture := (← get).host.panel.picture
    if picture.isSome && picture != some [] then savePicture

/-- Hands the host's first reaction to the window. -/
def watch (early : List WindowEvent) : SessionM Unit :=
  changeHost fun h =>
    { h with react := fun n _ => if n = 0 then early.map .event else [] }

/-- Runs a program to its end; a fault that is the host's own leaves no
    answer, but it is noted with its trail. -/
def runToEnd (limits : Limits) (code : Text) : SessionM (Option Bool) := fun start =>
  match execute limits code start with
  | .ok ok w => .ok (some ok) w
  | .error f w =>
      match note (.broken f (trail limits code start)) w with
      | .ok _ w => .ok none w
      | .error g w => .error g w

/-- Plays a program in an open window: `early` happens while it runs, the
    batches after it has ended, and then the window is closed.  Answers
    whether the program went well, as far as was known when the window was
    closed. -/
def play (limits : Limits) (code : Text) (early : List WindowEvent)
    (batches : List (List WindowEvent)) : SessionM Bool := do
  watch early
  let ended ← runToEnd limits code
  let answer := ended.getD false && !(← isClosed)
  if (← get).host.heard = 0 then handleAll early
  showFrame
  match ended with
  | some ok => announce ok
  | none => pure ()
  showFrame
  frames batches
  handle .quit
  pure answer

end TurtleLogo.Session
