import TurtleLogo.Folder
import TurtleLogo.Json.Read
import TurtleLogo.Json.Write

/-! # Projects

    A saved project is a small JSON object with a name and the code; a file
    that is anything else is code as it stands, and is named after itself. -/

namespace TurtleLogo

/-- A program with its name, and when and in which format it was saved. -/
structure Project where
  name : Text
  code : Text
  created : Json
  version : Json

namespace Project

/-- Why a project could not be read: the path leads to no file, there is no text
    in it, or the brackets in the text are nested too deeply. -/
inductive ReadFault where
  | file (f : FileFault)
  | undecodable
  | tooDeep
deriving DecidableEq

/-- The format in which projects are saved. -/
def formatVersion : Text := "1.0"

/-- The name of a project that has none. -/
def untitled : Text := "untitled"

/-- The name that a saved project goes by. -/
def givenName (envelope : Json) (default : Text) : Text :=
  match envelope.field? "name" with
  | none => default
  | some v => if v.isBlank then default else v.plainText

/-- The project in a text: a saved one, or code as it stands under the default
    name.  A text with more brackets inside each other than there is room for is
    neither. -/
def parse (room : Nat) (text default : Text) : Except ReadFault Project :=
  let plain : Project := ⟨default, text, .null, .null⟩
  match Json.read room text with
  | .error .tooDeep => .error .tooDeep
  | .error .malformed => .ok plain
  | .ok envelope =>
      match envelope.field? "code" with
      | some (.text code) =>
          .ok ⟨givenName envelope default, code, (envelope.field? "created").getD .null,
            (envelope.field? "version").getD .null⟩
      | _ => .ok plain

/-- The text of a saved project. -/
def envelope (name code created : Text) : Text :=
  Json.writeObject
    [("name", name), ("code", code), ("created", created), ("version", formatVersion)]

/-! ## Files -/

/-- A file's name without the last point and what follows it; a point at
    either end divides nothing. -/
def stemOf (name : Text) : Text :=
  let ending := name.reverse.takeWhile (· != .char '.')
  let stem := (name.reverse.dropWhile (· != .char '.')).tail.reverse
  if ending.isEmpty || stem.isEmpty then name else stem

/-- The default name of the project in a file. -/
def stem (path : Text) : Text :=
  match (Folder.steps path).getLast? with
  | some name => stemOf name
  | none => []

/-- Characters with all line ends made alike. -/
def unifyLines : List Char → List Char
  | '\r' :: '\n' :: cs => '\n' :: unifyLines cs
  | '\r' :: cs => '\n' :: unifyLines cs
  | c :: cs => c :: unifyLines cs
  | [] => []

/-- The text in a file. -/
def textOf (content : Content) : Except ReadFault Text :=
  match content with
  | .picture => .error .undecodable
  | .bytes data =>
      match String.fromUTF8? data with
      | some s => .ok (Text.ofChars (unifyLines s.toList))
      | none => .error .undecodable

/-- Reads the project in a file. -/
def read (room : Nat) (folder : Folder) (path : Text) : Except ReadFault Project :=
  match folder.read path with
  | .error f => .error (.file f)
  | .ok content => do
      let text ← textOf content
      parse room text (stem path)

/-- Saves a project in a file. -/
def write (folder : Folder) (path name code created : Text) : Except FileFault Folder :=
  folder.write path (.bytes (Text.display (envelope name code created)).toUTF8)

end Project

end TurtleLogo
