import Std.Time.Format
import TurtleLogo.CommandLine.Program
import TurtleLogo.CommandLine.Screen

/-! # The executable

    Looks at the files that the arguments name, lets `CommandLine.start` do
    the work, and writes what it leaves behind.  There is no display here: a
    window closes as soon as the program has ended, and a picture file is
    created without pixels. -/

namespace TurtleLogo.Executable

/-- A number with its bits well mixed. -/
def mix (x : UInt64) : UInt64 :=
  let x := (x ^^^ (x >>> 30)) * 0xBF58476D1CE4E5B9
  let x := (x ^^^ (x >>> 27)) * 0x94D049BB133111EB
  x ^^^ (x >>> 31)

/-- The `n`-th random number of a seed, from zero to below one. -/
def chance (seed : UInt64) (n : Nat) : Number :=
  let bits := mix (seed + n.toUInt64 * 0x9E3779B97F4A7C15)
  .real (Binary64.ofRatio (bits >>> 11).toNat 0x20000000000000)

/-- The number of brackets that may be open inside each other in a file. -/
def room : Nat := 990

/-- What is said about a run that a fault of the host's own has ended. -/
def lastWords (f : Fault) (trail : List Step) : Text :=
  let line (t : Text) : Text := if t.isEmpty then [] else t ++ "\n"
  "The program broke off.\n" ++ line f.message
    ++ trail.flatMap fun s => line ("  in " ++ s.head)

/-- The path of some steps from the root. -/
def pathOf (s : Steps) : String := Text.display ("/" ++ Folder.pathOf s)

/-- Whether some steps lead to a folder. -/
def isFolder (s : Steps) : IO Bool := do
  try
    let place ← IO.FS.realPath (pathOf s)
    place.isDir
  catch _ => pure false

/-- What is in the file at the end of some steps, if it can be read. -/
def contentOf (s : Steps) : IO (List (Steps × Content)) := do
  try
    let data ← IO.FS.readBinFile (pathOf s)
    pure [(s, .bytes data)]
  catch _ => pure []

/-- The places on the way along some steps. -/
def placesFrom : Steps → List Text → List Steps
  | place, [] => [place]
  | place, step :: more =>
      place :: placesFrom (if step = ".." then place.dropLast else place ++ [step]) more

/-- The places on the way along a path. -/
def places (here : Steps) (path : Text) : List Steps :=
  placesFrom (if Folder.isAbsolute path then [] else here) (Folder.steps path)

/-- The files and folders around the program, as far as the arguments lead to
    them. -/
def lookAround (arguments : List Text) : IO Folder := do
  let current ← IO.currentDir
  let here := Folder.steps current.toString
  match CommandLine.parse arguments with
  | .error _ => pure (.empty here)
  | .ok (program, o) => do
      let passed := (program :: o.save.toList ++ o.saveProject.toList).flatMap (places here)
      let folders ← passed.filterM isFolder
      let files ← passed.mapM contentOf
      pure ⟨here, files.flatten, folders⟩

/-- Writes the files that are new or have changed. -/
def writeFiles (before after : Folder) : IO Unit := do
  for (steps, content) in after.files do
    let path := pathOf steps
    match content, before.files.lookup steps with
    | .picture, _ => IO.FS.writeFile path ""
    | .bytes data, some (.bytes old) => if data != old then IO.FS.writeBinFile path data
    | .bytes data, _ => IO.FS.writeBinFile path data

/-- All that is typed. -/
def readInput : IO Text := do
  let stdin ← IO.getStdin
  let data ← stdin.readBinToEnd
  pure ((String.fromUTF8? data).getD "")

end TurtleLogo.Executable

open TurtleLogo in
/-- Runs the program.  What is typed is read only if a run without it has
    questions. -/
def main (arguments : List String) : IO UInt32 := do
  let arguments := arguments.map Text.ofString
  let folder ← Executable.lookAround arguments
  let now ← Std.Time.Timestamp.now
  let luck ← IO.rand 0 29
  let seed ← IO.rand 0 0xFFFFFFFFFFFFFFFF
  let run (input : Text) : CommandLine.Outcome :=
    CommandLine.start arguments
      ⟨folder, input, (Std.Time.DateTime.ofTimestamp now .UTC).toISO8601String, luck,
        Executable.chance seed.toUInt64, Executable.lastWords, [], [], .usual, Executable.room,
        Rgb.named?⟩
  let first := run []
  let outcome ← if first.questions = 0 then pure first else do
    let input ← Executable.readInput
    pure (run input)
  Executable.writeFiles folder outcome.folder
  IO.print outcome.output.display
  IO.eprint outcome.errors.display
  match outcome.status with
  | .exit code => pure code.toUInt32
  | .returned => pure 0
  | .failed _ => pure 1
