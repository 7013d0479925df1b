import TurtleLogo.CommandLine.Arguments
import TurtleLogo.CommandLine.Console
import TurtleLogo.Project
import TurtleLogo.Session.Window

/-! # The program at the command line

    `start` is the whole program as a function: from the arguments and the
    circumstances to what is written and which files are left behind.  It
    reads the project, saves a copy if one is wanted, runs the program with or
    without a window, and saves the picture. -/

namespace TurtleLogo.CommandLine

/-- What surrounds a run of the program. -/
structure Circumstances where
  folder : Folder
  /-- All that is typed. -/
  input : Text
  /-- The date that a saved project bears. -/
  created : Text
  /-- The number by which chance chooses words. -/
  luck : Int
  /-- The `n`-th random number. -/
  chance : Nat → Number
  /-- What is said about a run in the window that a fault of the host's own has
      ended, and the statements that were in progress. -/
  lastWords : Fault → List Step → Text
  /-- What people do at the window while the program runs. -/
  early : List WindowEvent
  /-- What people do at the window afterwards. -/
  batches : List (List WindowEvent)
  limits : Limits
  /-- The number of brackets that may be open inside each other in a file. -/
  room : Nat
  /-- The colours that the screen knows by a text. -/
  known : Text → Option Rgb

/-- How the program ends. -/
inductive Status where
  | exit (code : Nat)
  /-- There was nothing to do. -/
  | returned
  | failed (f : Fault)

/-- What the program leaves behind. -/
structure Outcome where
  status : Status
  output : Text
  errors : Text
  folder : Folder
  /-- The titles of the window, if one was opened. -/
  titles : Option (List Text)
  /-- The number of questions that the program asked. -/
  questions : Nat

/-! ## Texts -/

/-- The name of the program. -/
def programName : Text := "logolab"

/-- How the program is called. -/
def usage : Text :=
  "usage: logolab [-h] [-s SPEED] [--size SIZE] [-m \x7bwrap,window,fence\x7d]\n"
    ++ "               [--headless] [--save PICTURE] [--save-project PROJECT] [-v]\n"
    ++ "               program\n"

/-- What the program says when it is called without arguments. -/
def introduction : Text :=
  "This is LogoLab, a turtle-graphics Logo for people learning to program.\n\n" ++ usage ++ "\n\n"
    ++ "For example:\n\n    logolab square.logo\n\n"
    ++ "draws whatever square.logo says to draw, in a window.\n\n"
    ++ "    logolab --headless square.logo\n\n"
    ++ "runs it without a window and says how much got drawn.\n\n"
    ++ "    logolab --headless --save square.png square.logo\n\n"
    ++ "runs it without a window and saves the picture.\n\n"
    ++ "    logolab -h\n\nwill explain all the arguments."

/-! ## Files -/

/-- A path that was given and is not empty. -/
def given (path : Option Text) : Option Text :=
  path.filter (!·.isEmpty)

/-- Saves a copy of the project, if one is wanted. -/
def saveCopy (o : Options) (project : Project) (created : Text) (folder : Folder)
    (report : Report) : Except Fault (Folder × Report) :=
  match given o.saveProject with
  | none => .ok (folder, report)
  | some path =>
      match Project.write folder path project.name project.code created with
      | .ok folder => .ok (folder, report.info ["Saved the project to", path])
      | .error f =>
          if f.isReported then
            .ok (folder, report.issue
              ("I couldn't save the project to " ++ path ++ ": " ++ f.message))
          else .error (.badPath f)

/-- The folder with the pictures that were saved. -/
def keepPictures (folder : Folder) (paths : List Text) : Folder :=
  paths.foldl (fun folder path => (folder.write path .picture).toOption.getD folder) folder

/-- The paths of the pictures that a session has saved. -/
def pictures (w : World) : List Text :=
  match w.canvas.surface.kind with
  | .raster => w.canvas.surface.saved.toList.map (·.1)
  | _ => []

/-! ## Runs -/

/-- The kind of surface that the options ask for. -/
def Options.surfaceKind (o : Options) : SurfaceKind :=
  if o.headless && (given o.save).isNone then .recording else .raster

/-- The greatest side of a window. -/
def windowLimit : Int := 16384

/-- The greatest number of pixels in a raster. -/
def rasterLimit : Int := 536870911

/-- Whether there is a raster, in a window or without one, of the given
    size. -/
def fits (headless : Bool) (size : Int × Int) : Bool :=
  if headless then size.1 * size.2 ≤ rasterLimit
  else size.1 ≤ windowLimit && size.2 ≤ windowLimit

/-- The size of the surface that the options ask for.  A recording surface
    has any size, also when none is given. -/
def Options.surfaceSize (o : Options) : Except Fault (Int × Int) :=
  match o.surfaceKind, o.size with
  | .raster, some size => if fits o.headless size then .ok size else .error .noRoom
  | .raster, none => .error (if o.headless then .arithmetic .notUsable else .noNumber)
  | _, size => .ok (size.getD usualSize)

/-- The session in which a program is run. -/
def newSession (o : Options) (c : Circumstances) (folder : Folder) : Except Fault World := do
  let (width, height) ← o.surfaceSize
  Console.session (.new o.surfaceKind width height folder c.known) (Console.replies c.input)
    c.chance

/-- What the options say about the session. -/
def configure (o : Options) : SessionM Unit := do
  match o.speed with
  | some ms => Session.setSpeed (.int ms)
  | none => throw .noNumber
  match o.mode with
  | some mode => Session.onCanvas (Canvas.setMode mode)
  | none => throw .unknownMode

/-- What is left behind when there is no session. -/
def giveUp (f : Fault) (folder : Folder) (report : Report) (titles : Option (List Text)) :
    Outcome :=
  ⟨.failed f, [], report.text, folder, titles, 0⟩

/-- What is left behind once a session is over. -/
def conclude (status : Status) (folder : Folder) (report : Report) (w : World)
    (titles : Option (List Text)) : Outcome :=
  ⟨status, Console.dialogue w.host.notices, report.text, keepPictures folder (pictures w), titles,
    (Console.questions w.host.notices).length⟩

/-- Ends with the last complaints, if there are any. -/
def finish (ok : Bool) (folder : Folder) (report : Report) (w : World)
    (titles : Option (List Text)) : Outcome :=
  if report.isOk then conclude (.exit (if ok then 0 else 1)) folder report w titles
  else conclude (.exit 1) folder report.complain w titles

/-- Runs a program in a session without a window, and saves the picture if one
    is wanted. -/
def runHeadless (o : Options) (c : Circumstances) (code : Text) (folder : Folder) (report : Report)
    (w : World) : Outcome :=
  let act : SessionM Bool := do
    configure o
    Session.execute c.limits code
  match act w with
  | .error f w =>
      conclude (.failed f) folder (Console.report c.lastWords report w.host.notices) w none
  | .ok ok w =>
      let report := Console.report c.lastWords report w.host.notices
      let report := report.info
        ["Drew " ++ Text.ofNat w.canvas.scene.log.size ++ " things."]
      match given o.save with
      | none => finish ok folder report w none
      | some path =>
          match Session.onCanvas (Canvas.savePicture path) w with
          | .ok _ w => finish ok folder (report.info ["Saved the picture to", path]) w none
          | .error (.cannotOpen p) w =>
              let report := report.issue
                ("I couldn't save the picture to " ++ path ++ ": " ++ Fault.message (.cannotOpen p))
              finish ok folder report w none
          | .error f w => conclude (.failed f) folder report w none

/-- Runs a program in a session with a window. -/
def runInWindow (o : Options) (c : Circumstances) (code : Text) (folder : Folder) (report : Report)
    (w : World) : Outcome :=
  let act : SessionM Bool := do
    Session.openWindow o.save
    configure o
    Session.play c.limits code c.early c.batches
  match act w with
  | .error f w =>
      conclude (.failed f) folder (Console.report c.lastWords report w.host.notices) w
        (some w.host.panel.titles.toList)
  | .ok ok w =>
      finish ok folder (Console.report c.lastWords report w.host.notices) w
        (some w.host.panel.titles.toList)

/-- Runs a program with or without a window. -/
def runProgram (o : Options) (c : Circumstances) (code : Text) (folder : Folder)
    (report : Report) : Outcome :=
  match newSession o c folder with
  | .error f => giveUp f folder report (if o.headless then none else some [Session.title])
  | .ok w =>
      if o.headless then runHeadless o c code folder report w
      else runInWindow o c code folder report w

/-- Runs the program in a file. -/
def runFile (path : Text) (o : Options) (c : Circumstances) : Outcome :=
  let report := Report.new (o.verbose != 0) c.luck
  match Project.read c.room c.folder path with
  | .error (.file f) =>
      if f.isReported then
        let report := (report.issue ("I couldn't read " ++ path ++ ": " ++ f.message)).complain
        ⟨.exit 1, [], report.text, c.folder, none, 0⟩
      else giveUp (.badPath f) c.folder report none
  | .error .undecodable => giveUp .undecodable c.folder report none
  | .error .tooDeep => giveUp .depthExceeded c.folder report none
  | .ok project =>
      let report := report.info ["Project:", project.name]
      match saveCopy o project c.created c.folder report with
      | .error f => giveUp f c.folder report none
      | .ok (folder, report) => runProgram o c project.code folder report

/-- The whole program. -/
def start (arguments : List Text) (c : Circumstances) : Outcome :=
  if arguments.isEmpty then ⟨.returned, introduction ++ "\n", [], c.folder, none, 0⟩
  else
    match parse arguments with
    | .ok (path, o) => runFile path o c
    | .error .help => ⟨.exit 0, usage, [], c.folder, none, 0⟩
    | .error (.fault f) =>
        ⟨.exit 2, [], usage ++ programName ++ ": error: " ++ f.message ++ "\n", c.folder, none, 0⟩

end TurtleLogo.CommandLine
