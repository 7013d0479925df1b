import TurtleLogo.Text.Quoted
import TurtleLogo.Text.Split

/-! # Folders

    The files and folders around a program, each under the steps that lead
    there from the root.  A path is walked step by step: it starts at the root
    or in the folder at hand, `.` stays and `..` goes up, and every step but the
    last must lead into a folder.  All that can go wrong with a path is a
    `FileFault`. -/

namespace TurtleLogo

/-- What can go wrong with a path. -/
inductive FileFault where
  | missing
  | isFolder
  | notFolder
  | nameTooLong
  /-- The path holds the zero character, which no name may hold. -/
  | zeroInName
  /-- The path holds half of a pair that no name can hold. -/
  | halfInName
deriving DecidableEq

namespace FileFault

/-- The words for what went wrong. -/
def message : FileFault → String
  | .missing => "No such file or directory"
  | .isFolder => "Is a directory"
  | .notFolder => "Not a directory"
  | .nameTooLong => "File name too long"
  | .zeroInName | .halfInName => ""

/-- Whether the fault is about the folder and not about the name itself. -/
def isReported : FileFault → Bool
  | .zeroInName | .halfInName => false
  | _ => true

end FileFault

/-- What is in a file. -/
inductive Content where
  | bytes (data : ByteArray)
  | picture

/-- The names on the way from one folder to another. -/
abbrev Steps := List Text

/-- The files and folders around a program. -/
structure Folder where
  /-- The way from the root to the folder at hand. -/
  here : Steps
  /-- The files that are known, in the order in which they were made. -/
  files : List (Steps × Content)
  /-- The folders that are known, those on the way to the one at hand apart. -/
  folders : List Steps

namespace Folder

/-- A folder with nothing in it and nothing known around it. -/
def empty (here : Steps) : Folder := ⟨here, [], []⟩

/-! ## Names -/

/-- The number of bytes that a code point takes in a name; half of a pair only
    stands for a byte that belongs to no character. -/
def pointSize? (c : CodePoint) : Option Nat :=
  match c with
  | .char c => some c.utf8Size
  | .half n => if 0x480 ≤ n.val && n.val ≤ 0x4FF then some 1 else none

/-- The number of bytes that a text takes in a name. -/
def byteSize? (t : Text) : Option Nat :=
  t.foldl (fun size? c => do
    let size ← size?
    let n ← pointSize? c
    some (size + n)) (some 0)

/-- The greatest number of bytes in a name. -/
def nameLimit : Nat := 255

/-- The greatest number of bytes in a path. -/
def pathLimit : Nat := 4095

/-- Whether a name is longer than a name may be. -/
def isTooLong (name : Text) : Bool :=
  nameLimit < (byteSize? name).getD 0

/-- Refuses a path that cannot be one, whatever folders there are. -/
def checkPath (path : Text) : Except FileFault Unit :=
  match byteSize? path with
  | none => .error .halfInName
  | some size =>
      if path.contains (.ofNat 0) then .error .zeroInName
      else if pathLimit < size then .error .nameTooLong
      else .ok ()

/-! ## Paths -/

/-- The pieces of a path between its slashes. -/
def pieces (path : Text) : List Text :=
  (Text.split '/' path).filter (!·.isEmpty)

/-- The steps of a path; staying where one is is none. -/
def steps (path : Text) : Steps :=
  (pieces path).filter (· != ".")

/-- Whether a path starts at the root. -/
def isAbsolute (path : Text) : Bool :=
  path.head? == some (.char '/')

/-- Whether a path ends in a slash, and so means a folder. -/
def endsInSlash (path : Text) : Bool :=
  path.getLast? == some (.char '/')

/-- The path of some steps. -/
def pathOf (s : Steps) : Text := Text.joinWith "/" s

/-- A path without the pieces that lead nowhere. -/
def normal (path : Text) : Text :=
  (if isAbsolute path then "/" else "") ++ pathOf (steps path)

/-- Whether some steps lead from the root to a folder. -/
def isFolder (f : Folder) (s : Steps) : Bool :=
  s.isPrefixOf f.here || f.folders.contains s

/-- What is in the file at the end of some steps. -/
def file? (f : Folder) (s : Steps) : Option Content :=
  f.files.lookup s

/-- Where a path starts. -/
def startOf (f : Folder) (path : Text) : Steps :=
  if isAbsolute path then [] else f.here

/-- The folder into which one step leads. -/
def enter (f : Folder) (place : Steps) (step : Text) : Except FileFault Steps :=
  if step = "." then .ok place
  else if step = ".." then .ok place.dropLast
  else if isTooLong step then .error .nameTooLong
  else
    let next := place ++ [step]
    if f.isFolder next then .ok next
    else if (f.file? next).isSome then .error .notFolder
    else .error .missing

/-- The folder into which some steps lead. -/
def walk (f : Folder) : Steps → List Text → Except FileFault Steps
  | place, [] => .ok place
  | place, step :: more => do
      let place ← f.enter place step
      f.walk place more

/-- The place of a file under its name in a folder. -/
def placeIn (f : Folder) (folder : Steps) (name : Text) : Except FileFault Steps :=
  if name = "." ∨ name = ".." then .error .isFolder
  else if isTooLong name then .error .nameTooLong
  else if f.isFolder (folder ++ [name]) then .error .isFolder
  else .ok (folder ++ [name])

/-- Where a file is put under a path. -/
def target (f : Folder) (path : Text) : Except FileFault Steps := do
  checkPath path
  let names := pieces path
  match names.getLast? with
  | none => .error (if path.isEmpty then .missing else .isFolder)
  | some name => do
      let folder ← f.walk (f.startOf path) names.dropLast
      if endsInSlash path then .error .isFolder else f.placeIn folder name

/-! ## Files -/

/-- What is in the file to which the steps of a path lead. -/
def read (f : Folder) (path : Text) : Except FileFault Content := do
  checkPath (normal path)
  let names := steps path
  match names.getLast? with
  | none => .error .isFolder
  | some name => do
      let folder ← f.walk (f.startOf path) names.dropLast
      let place ← f.placeIn folder name
      match f.file? place with
      | some content => .ok content
      | none => .error .missing

/-- Files with one set, in its old place if it has one. -/
def setFile : List (Steps × Content) → Steps → Content → List (Steps × Content)
  | [], s, c => [(s, c)]
  | (t, d) :: fs, s, c => if t = s then (t, c) :: fs else (t, d) :: setFile fs s c

/-- The folder after a file has been put somewhere. -/
def put (f : Folder) (place : Steps) (content : Content) : Folder :=
  { f with files := setFile f.files place content }

/-- The folder after a file has been written. -/
def write (f : Folder) (path : Text) (content : Content) : Except FileFault Folder := do
  let place ← f.target path
  .ok (f.put place content)

/-- The name under which a picture is saved: lone halves are spelt out, and the
    zero character ends it. -/
def pictureName (path : Text) : Text :=
  (path.flatMap fun c =>
    match c with
    | .char _ => [c]
    | .half _ => Text.hexEscape 'u' 4 c.toNat).takeWhile (· != .ofNat 0)

/-- The files in the folder at hand and below it, with their paths from
    there. -/
def inside (f : Folder) : List (Text × Content) :=
  f.files.filterMap fun (s, content) =>
    if f.here.isPrefixOf s then some (pathOf (s.drop f.here.length), content) else none

end Folder

end TurtleLogo
